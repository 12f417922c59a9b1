import PacScript.Proofs.Template.Spelling
import PacScript.Proofs.Template.Written
import PacScript.Template.Registry

/-!
# Malformed definition texts

A row is malformed when it has too few fields or an odd number of them, when a byte of its signature
or its address is not a hexadecimal numeral in range, or when a parameter has an unknown kind
(`Malformed`). A definition text is refused exactly when it has such a row, and the failure tells
the line of the first one, counted over all lines (`Registry.refused_iff_offends`). The size of a
row and the number of its parameters do not matter for this.
-/

namespace PacScript

namespace Definition

open Text (SignedHexadecimal trim)

/-- The text is a hexadecimal numeral of a number below the bound. -/
def IsHexBelow (bound : Nat) (text : List Char) : Prop :=
  ∃ n < bound, SignedHexadecimal n text

/-- The fields are not those of a row. -/
inductive Malformed (fields : List (List Char)) : Prop
  /-- There are too few of them. -/
  | tooFew (hlength : fields.length < 10)
  /-- There is an odd number of them. -/
  | odd (hlength : fields.length % 2 = 1)
  /-- One of the first four is not a hexadecimal byte. -/
  | signature {i : Nat} {field : List Char} (hi : i < 4) (hfield : fields[i]? = some field)
    (hhex : ¬ IsHexBelow 0x100 field)
  /-- The last one is not a hexadecimal word. -/
  | address {field : List Char} (hfield : fields.getLast? = some field)
    (hhex : ¬ IsHexBelow 0x100000000 field)
  /-- One of every other field from the tenth on, up to the third from the last, spells no kind. -/
  | kind {j : Nat} {field : List Char} (hj : 9 + 2 * j + 3 ≤ fields.length)
    (hfield : fields[9 + 2 * j]? = some field) (hkind : ∀ kind : Kind, ¬ kind.Spells field)

/-- The line is neither blank nor a comment, and its fields are not those of a row. -/
structure Offends (line : List Char) : Prop where
  /-- It is not blank. -/
  nonblank : trim line ≠ []
  /-- It is no comment. -/
  noComment : (trim line).head? ≠ some '#'
  /-- Its fields are not those of a row. -/
  malformed : Malformed (splitRow line)

/-! ## Fields -/

/-- A result that is mapped is a success when it was one. -/
theorem exists_map_eq_ok_iff {ε α β : Type} {result : Except ε α} {f : α → β} :
    (∃ y, result.map f = .ok y) ↔ ∃ x, result = .ok x := by
  cases result <;> simp [Except.map]

/-- A byte or a word is read from a hexadecimal numeral below its bound. -/
theorem exists_hexNumeral?_iff {bound : Nat} {text : List Char} :
    (∃ n, Text.hexNumeral? bound text = some n) ↔ IsHexBelow bound text := by
  simp only [Text.hexNumeral?_eq_some_iff]
  rfl

/-- The bytes of a signature are read when all its fields are numerals of bytes. -/
theorem exists_signatureBytes_iff {fields : List (List Char)} {index : Nat} :
    (∃ bytes, signatureBytes index fields = .ok bytes) ↔
      ∀ field ∈ fields, IsHexBelow 0x100 field := by
  induction fields generalizing index with
  | nil => simp [signatureBytes]
  | cons field fields ih =>
    rw [List.forall_mem_cons, ← exists_hexNumeral?_iff, ← ih, signatureBytes]
    cases Text.hexNumeral? 0x100 field with
    | none => simp
    | some byte => simpa using exists_map_eq_ok_iff

/-- A word is read from a numeral of a word. -/
theorem exists_hexWord?_iff {field : List Char} :
    (∃ word, hexWord? field = some word) ↔ IsHexBelow 0x100000000 field := by
  rw [← exists_hexNumeral?_iff]
  simp [hexWord?]

/-- What is asked of every other element is asked of the first one and behind the second one. -/
theorem forall_even_cons_iff {α : Type} {P : α → Prop} {x y : α} {xs : List α} :
    (∀ (j : Nat) (z : α), (x :: y :: xs)[2 * j]? = some z → P z) ↔
      P x ∧ ∀ (j : Nat) (z : α), xs[2 * j]? = some z → P z := by
  constructor
  · intro h
    exact ⟨h 0 x rfl, fun j z hz => h (j + 1) z hz⟩
  · rintro ⟨hx, hxs⟩ j z hz
    cases j with
    | zero => exact Option.some.inj hz ▸ hx
    | succ j => exact hxs j z hz

/-- The parameters of a row are read when their fields are in pairs and the first one of each pair
spells a kind. -/
theorem exists_declarations_iff {fields : List (List Char)} :
    (∃ parameters, declarations fields = .ok parameters) ↔ fields.length % 2 = 0 ∧
      ∀ (j : Nat) (field : List Char), fields[2 * j]? = some field →
        ∃ kind : Kind, kind.Spells field := by
  fun_induction declarations fields with
  | case1 => simp
  | case2 => simp
  | case3 text name rest fault hkind =>
    rw [forall_even_cons_iff]
    simp only [← Kind.ofToken_eq_ok_iff, hkind]
    simp
  | case4 text name rest kind hkind ih =>
    have heven : (text :: name :: rest).length % 2 = 0 ↔ rest.length % 2 = 0 := by
      simp only [List.length_cons]
      omega
    have hspells : ∃ kind : Kind, kind.Spells text := ⟨kind, Kind.ofToken_eq_ok_iff.1 hkind⟩
    rw [forall_even_cons_iff, exists_map_eq_ok_iff, ih, heven, and_iff_right hspells]

/-- So they are when it is asked first whether the fields are in pairs. -/
theorem exists_parameters_iff {fields : List (List Char)} :
    (∃ found, parameters fields = .ok found) ↔ fields.length % 2 = 0 ∧
      ∀ (j : Nat) (field : List Char), fields[2 * j]? = some field →
        ∃ kind : Kind, kind.Spells field := by
  rw [← exists_declarations_iff, parameters]
  split
  case isTrue => rfl
  case isFalse hodd =>
    simp [exists_declarations_iff, hodd]

/-! ## Rows -/

/-- Enough fields are told apart by their places. -/
theorem exists_fields {fields : List (List Char)} (h : 10 ≤ fields.length) :
    ∃ a b c d rawSize name extendedName description count parameters address,
      fields = a :: b :: c :: d :: rawSize :: name :: extendedName :: description :: count ::
        (parameters ++ [address]) := by
  match fields, h with
  | a :: b :: c :: d :: rawSize :: name :: extendedName :: description :: count :: first :: rest,
    _ =>
    exact ⟨a, b, c, d, rawSize, name, extendedName, description, count, _, _,
      by rw [List.dropLast_append_getLast (List.cons_ne_nil first rest)]⟩

section Parts

variable {signature middle parameters : List (List Char)} {address : List Char}

/-- The address of a row is its last field. -/
theorem getLast?_parts (signature middle parameters : List (List Char)) (address : List Char) :
    (signature ++ (middle ++ (parameters ++ [address]))).getLast? = some address := by
  rw [← List.append_assoc, ← List.append_assoc, List.getLast?_concat]

variable (hsignature : signature.length = 4) (hmiddle : middle.length = 5)
include hsignature

/-- The first fields of a row are its signature. -/
theorem getElem?_signature {i : Nat} (hi : i < 4) :
    (signature ++ (middle ++ (parameters ++ [address])))[i]? = signature[i]? := by
  rw [List.getElem?_append_left (by omega)]

include hmiddle

/-- A row has ten fields and those of its parameters. -/
theorem length_parts : (signature ++ (middle ++ (parameters ++ [address]))).length =
    parameters.length + 10 := by
  simp only [List.length_append, List.length_singleton]
  omega

/-- The fields of a row from the tenth on are those of its parameters. -/
theorem getElem?_parameters {i : Nat} (hi : i < parameters.length) :
    (signature ++ (middle ++ (parameters ++ [address])))[9 + i]? = parameters[i]? := by
  rw [List.getElem?_append_right (by omega), List.getElem?_append_right (by omega),
    List.getElem?_append_left (by omega)]
  congr 1
  omega

/-- What makes fields, told apart, those of a row. -/
theorem not_malformed_iff :
    ¬ Malformed (signature ++ (middle ++ (parameters ++ [address]))) ↔
      (∀ field ∈ signature, IsHexBelow 0x100 field) ∧ IsHexBelow 0x100000000 address ∧
        parameters.length % 2 = 0 ∧
        ∀ (j : Nat) (field : List Char), parameters[2 * j]? = some field →
          ∃ kind : Kind, kind.Spells field := by
  have hlength := @length_parts signature middle parameters address hsignature hmiddle
  constructor
  · intro h
    have heven : parameters.length % 2 = 0 := by
      by_contra hodd
      exact h (.odd (by omega))
    refine ⟨?_, ?_, heven, ?_⟩
    · intro field hmem
      by_contra hhex
      obtain ⟨i, hi⟩ := List.mem_iff_getElem?.1 hmem
      have hlt : i < 4 := by
        rw [← hsignature]
        exact (List.getElem?_eq_some_iff.1 hi).1
      exact h (.signature hlt ((getElem?_signature hsignature hlt).trans hi) hhex)
    · by_contra hhex
      exact h (.address (getLast?_parts _ _ _ _) hhex)
    · intro j field hfield
      by_contra hkind
      have hlt : 2 * j < parameters.length := (List.getElem?_eq_some_iff.1 hfield).1
      exact h (.kind (by omega) ((getElem?_parameters hsignature hmiddle hlt).trans hfield)
        (not_exists.1 hkind))
  · rintro ⟨hbytes, haddress, heven, hspells⟩ hmalformed
    cases hmalformed with
    | tooFew hfew => omega
    | odd hodd => omega
    | signature hi hfield hhex =>
      rw [getElem?_signature hsignature hi] at hfield
      exact hhex (hbytes _ (List.mem_of_getElem? hfield))
    | address hfield hhex =>
      rw [getLast?_parts] at hfield
      exact hhex (Option.some.inj hfield ▸ haddress)
    | @kind j field hj hfield hkind =>
      -- The number of fields is even, so that this one stands in front of the address.
      rw [getElem?_parameters hsignature hmiddle (by omega)] at hfield
      obtain ⟨kind, hspelled⟩ := hspells j field hfield
      exact hkind kind hspelled

end Parts

/-- Fields without enough of them make no row. -/
theorem ofRow_of_length_lt {row : List Char} (h : (splitRow row).length < 10) :
    Fields.ofRow row = .error (.tooFewFields (splitRow row).length) := by
  unfold Fields.ofRow
  split
  · rename_i hfields
    simp [hfields] at h
    omega
  · rfl

/-- A row is read unless its fields are malformed. -/
theorem exists_readRow_iff {row : List Char} {line : Nat} :
    (∃ template, (readRow row line).result = .ok template) ↔ ¬ Malformed (splitRow row) := by
  by_cases hlength : (splitRow row).length < 10
  · rw [readRow, ofRow_of_length_lt hlength]
    simpa using Malformed.tooFew hlength
  · obtain ⟨a, b, c, d, rawSize, name, extendedName, description, count, pairs, address,
      hfields⟩ := exists_fields (Nat.not_lt.1 hlength)
    have hiff := @not_malformed_iff [a, b, c, d] [rawSize, name, extendedName, description, count]
      pairs address rfl rfl
    rw [← @exists_signatureBytes_iff _ 0, ← exists_hexWord?_iff, ← exists_parameters_iff] at hiff
    rw [hfields, readRow, ofRow_eq hfields]
    refine Iff.trans ?_ hiff.symm
    dsimp only
    -- The three things are looked at one after the other.
    cases signatureBytes 0 [a, b, c, d] with
    | error fault => simp
    | ok bytes =>
      cases hexWord? address with
      | none => simp
      | some word => cases parameters pairs <;> simp

/-- A row that is refused is so for a fault of its own. -/
theorem exists_fault_of_readRow {row : List Char} {line : Nat} {failure : Failure}
    (h : (readRow row line).result = .error failure) : ∃ fault, failure = .row line fault := by
  unfold readRow at h
  dsimp only at h
  repeat' split at h
  all_goals cases h
  all_goals exact ⟨_, rfl⟩

/-! ## Lines -/

/-- A line is skipped when it is blank or a comment. -/
theorem isSkipped_eq_false_iff {line : List Char} :
    isSkipped line = false ↔ line ≠ [] ∧ line.head? ≠ some '#' := by
  cases line with
  | nil => simp [isSkipped]
  | cons c rest => simp [isSkipped]

/-- Trimming a row does not change its fields. -/
theorem splitRow_trim (line : List Char) : splitRow (trim line) = splitRow line := by
  unfold splitRow
  rw [Text.map_trim_splitOn_trim isBlank_semicolon]

/-- A line offends and ends the reading, or the lines behind it are read. -/
theorem readLines_cons_cases (number : Nat) (notices : Array Notice) (templates : Array Template)
    (line : List Char) (lines : List (List Char)) :
    (Offends line ∧ ∃ fault, (readLines number notices templates (line :: lines)).result =
        .error (.row number fault)) ∨
      (¬ Offends line ∧ ∃ noticed found, readLines number notices templates (line :: lines) =
        readLines (number + 1) noticed found lines) := by
  rw [readLines]
  cases hskipped : isSkipped (trim line) with
  | true =>
    rw [if_pos rfl]
    refine .inr ⟨fun hoffends => ?_, notices, templates, rfl⟩
    have hrow := isSkipped_eq_false_iff.2 ⟨hoffends.nonblank, hoffends.noComment⟩
    rw [hskipped] at hrow
    cases hrow
  | false =>
    rw [if_neg Bool.false_ne_true]
    -- Now the line holds a row, and it offends if the row is malformed.
    have hread := @exists_readRow_iff (trim line) number
    rw [splitRow_trim] at hread
    cases hresult : (readRow (trim line) number).result with
    | error failure =>
      obtain ⟨fault, rfl⟩ := exists_fault_of_readRow hresult
      obtain ⟨hnonblank, hcomment⟩ := isSkipped_eq_false_iff.1 hskipped
      have hmalformed : Malformed (splitRow line) := by
        by_contra hrow
        obtain ⟨template, hok⟩ := hread.2 hrow
        rw [hresult] at hok
        cases hok
      exact .inl ⟨⟨hnonblank, hcomment, hmalformed⟩, fault, by simp only [hresult]⟩
    | ok template =>
      refine .inr ⟨fun hoffends => hread.1 ⟨template, hresult⟩ hoffends.malformed,
        notices ++ (readRow (trim line) number).notices, templates.push template, ?_⟩
      simp only [hresult]

/-- The first line that offends ends the reading, and the failure tells its number, counted from
that of the first line on. Without one all lines are read. -/
theorem readLines_cases (lines : List (List Char)) (number : Nat) (notices : Array Notice)
    (templates : Array Template) :
    ((∀ line ∈ lines, ¬ Offends line) ∧
        ∃ found, (readLines number notices templates lines).result = .ok found) ∨
      ∃ front line rest fault, lines = front ++ line :: rest ∧ (∀ other ∈ front, ¬ Offends other) ∧
        Offends line ∧ (readLines number notices templates lines).result =
          .error (.row (front.length + number) fault) := by
  -- A line that is read changes the number, the notices and the templates for the lines behind it.
  induction lines generalizing number notices templates with
  | nil => exact .inl ⟨by simp, _, rfl⟩
  | cons line lines ih =>
    obtain ⟨hoffends, fault, hresult⟩ | ⟨hline, noticed, found, hrest⟩ :=
      readLines_cons_cases number notices templates line lines
    · exact .inr ⟨[], line, lines, fault, rfl, by simp, hoffends, by simpa using hresult⟩
    · rw [hrest]
      obtain ⟨hnone, hok⟩ | ⟨front, bad, rest, fault, rfl, hfront, hoffends, hresult⟩ :=
        ih (number + 1) noticed found
      · exact .inl ⟨List.forall_mem_cons.2 ⟨hline, hnone⟩, hok⟩
      · refine .inr ⟨line :: front, bad, rest, fault, rfl, List.forall_mem_cons.2 ⟨hline, hfront⟩,
          hoffends, ?_⟩
        rw [hresult, List.length_cons, Nat.add_right_comm, Nat.add_assoc]

end Definition

open Definition (Offends)

/-- A definition text is refused exactly when one of its lines is a malformed row. The failure then
tells the line of the first one, counted from one over all lines. -/
theorem Registry.refused_iff_offends (source : String) :
    ((∃ failure, (load source).result = .error failure) ↔
      ∃ line ∈ source.toList.splitOn '\n', Offends line) ∧
    ∀ failure, (load source).result = .error failure →
      ∃ front line rest fault, source.toList.splitOn '\n' = front ++ line :: rest ∧
        (∀ other ∈ front, ¬ Offends other) ∧ Offends line ∧
        failure = .row (front.length + 1) fault := by
  unfold load Definition.read
  obtain ⟨hnone, found, hok⟩ | ⟨front, line, rest, fault, hlines, hfront, hoffends, hresult⟩ :=
    Definition.readLines_cases (source.toList.splitOn '\n') 1 #[] #[]
  · simp only [hok, Except.map]
    refine ⟨⟨?_, ?_⟩, ?_⟩
    · rintro ⟨failure, hfailure⟩
      cases hfailure
    · rintro ⟨line, hline, hoffends⟩
      exact absurd hoffends (hnone line hline)
    · intro failure hfailure
      cases hfailure
  · simp only [hresult, Except.map]
    refine ⟨⟨fun _ => ⟨line, by simp [hlines], hoffends⟩, fun _ => ⟨_, rfl⟩⟩, ?_⟩
    intro failure hfailure
    exact ⟨front, line, rest, fault, hlines, hfront, hoffends, (Except.error.inj hfailure).symm⟩

end PacScript
