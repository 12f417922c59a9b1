import Mathlib.Data.Bool.AllAny
import Mathlib.Data.List.Forall2
import PacScript.Proofs.Text.Hexadecimal
import PacScript.Proofs.Text.Trim
import PacScript.Template.Definition

/-!
# Written definition texts

A list of templates may be written as a definition text in many ways. Every template takes a row
(`Row`), whose numbers are hexadecimal in either case and with or without a mark, whose kinds are
written by their tokens, and in which blanks may stand around the fields and a semicolon at the end.
Blank lines and comments may stand between the rows (`Lines`). Only the texts of a template have to
be such that they can stand in a field (`Writable`). Every list of templates has such lines
(`exists_lines`).

However the templates are written, the text is read as these templates in their order
(`result_read_of_lines`).
-/

namespace PacScript.Definition

open Text (AllBlank Hexadecimal hexCharacters isBlank trim)

/-! ## Ways of writing -/

/-- A text that can stand in a field: it has no blanks at its ends, and neither semicolons nor line
ends in it. -/
structure IsField (text : List Char) : Prop where
  /-- It does not begin with a blank. -/
  head : ∀ c ∈ text.head?, isBlank c = false
  /-- It does not end with a blank. -/
  last : ∀ c ∈ text.getLast?, isBlank c = false
  /-- There is no semicolon in it. -/
  semicolon : ';' ∉ text
  /-- There is no line end in it. -/
  newline : '\n' ∉ text

instance (text : List Char) : Decidable (IsField text) :=
  decidable_of_iff (text.head?.all (isBlank · = false) ∧ text.getLast?.all (isBlank · = false) ∧
      ';' ∉ text ∧ '\n' ∉ text) <| by
    simp only [Option.all_eq_true, decide_eq_true_eq]
    exact ⟨fun ⟨head, last, semicolon, newline⟩ => ⟨head, last, semicolon, newline⟩,
      fun ⟨head, last, semicolon, newline⟩ => ⟨head, last, semicolon, newline⟩⟩

/-- A template whose texts can stand in fields. -/
structure Writable (template : Template) : Prop where
  /-- The short name. -/
  name : IsField template.name.toList
  /-- The long name. -/
  extendedName : IsField template.extendedName.toList
  /-- The description. -/
  description : IsField template.description.toList
  /-- The names of the parameters. -/
  parameters : ∀ declaration ∈ template.parameters, IsField declaration.name.toList

instance (template : Template) : Decidable (Writable template) :=
  decidable_of_iff (IsField template.name.toList ∧ IsField template.extendedName.toList ∧
      IsField template.description.toList ∧
      ∀ declaration ∈ template.parameters, IsField declaration.name.toList)
    ⟨fun ⟨name, extendedName, description, parameters⟩ =>
        ⟨name, extendedName, description, parameters⟩,
      fun ⟨name, extendedName, description, parameters⟩ =>
        ⟨name, extendedName, description, parameters⟩⟩

/-- What is written for a size: a numeral, or anything else where there is none. -/
inductive SizeField : Option UInt32 → List Char → Prop
  /-- A size. -/
  | size {size : UInt32} {text : List Char} (hsize : Hexadecimal size.toNat text) :
      SizeField (some size) text
  /-- No size. -/
  | none {text : List Char} (hsemicolon : ';' ∉ text) (hnewline : '\n' ∉ text)
      (hrefused : hexWord? (trim text) = none) : SizeField none text

/-- The kinds and names of parameters in turn. -/
def parameterFields (parameters : List Declaration) : List (List Char) :=
  parameters.flatMap fun declaration => [declaration.kind.token.toList, declaration.name.toList]

/-- The fields of a row: the bytes of the signature, the size, the texts of the template, the number
of its parameters, the parameters and the address. -/
def rowFields (template : Template) (a b c d size address : List Char) : List (List Char) :=
  a :: b :: c :: d :: size :: template.name.toList :: template.extendedName.toList ::
    template.description.toList :: Nat.toDigits 10 template.parameters.length ::
    (parameterFields template.parameters ++ [address])

/-- The fields of a row that declares the template. -/
inductive RowFields (template : Template) : List (List Char) → Prop
  /-- The numbers are written in hexadecimal. -/
  | fields {a b c d size address : List Char}
      (ha : Hexadecimal (template.signature.toNat / 0x1000000) a)
      (hb : Hexadecimal (template.signature.toNat / 0x10000 % 0x100) b)
      (hc : Hexadecimal (template.signature.toNat / 0x100 % 0x100) c)
      (hd : Hexadecimal (template.signature.toNat % 0x100) d)
      (hsize : SizeField template.rawSize size)
      (haddress : Hexadecimal template.address.toNat address) :
      RowFields template (rowFields template a b c d size address)

/-- Blanks that stay on their line. -/
def IsSpace (text : List Char) : Prop :=
  AllBlank text ∧ '\n' ∉ text

instance (text : List Char) : Decidable (IsSpace text) :=
  inferInstanceAs (Decidable (_ ∧ _))

/-- A field as it stands in a row, with blanks around it. -/
def Padded (field text : List Char) : Prop :=
  ∃ before after, IsSpace before ∧ IsSpace after ∧ text = before ++ field ++ after

/-- A row that declares the template: its fields, parted by semicolons. -/
inductive Row (template : Template) : List Char → Prop
  /-- The row ends with the address. -/
  | plain {fields texts : List (List Char)} (hfields : RowFields template fields)
      (htexts : List.Forall₂ Padded fields texts) : Row template ([';'].intercalate texts)
  /-- There is one more semicolon, and nothing behind it. -/
  | closed {fields texts : List (List Char)} {space : List Char}
      (hfields : RowFields template fields) (htexts : List.Forall₂ Padded fields texts)
      (hspace : IsSpace space) : Row template ([';'].intercalate (texts ++ [space]))

/-- A line without a row: it is blank, or a comment. -/
inductive NoRow : List Char → Prop
  /-- Blanks only. -/
  | blank {space : List Char} (hspace : IsSpace space) : NoRow space
  /-- The first character that is no blank is the mark of a comment. -/
  | comment {space text : List Char} (hspace : IsSpace space) (hnewline : '\n' ∉ text) :
      NoRow (space ++ '#' :: text)

/-- The lines of a text that declares the templates in order. -/
inductive Lines : List Template → List (List Char) → Prop
  /-- No lines declare nothing. -/
  | nil : Lines [] []
  /-- A line without a row. -/
  | skip {templates : List Template} {line : List Char} {lines : List (List Char)}
      (hline : NoRow line) (hlines : Lines templates lines) : Lines templates (line :: lines)
  /-- The row of a template. -/
  | row {template : Template} {templates : List Template} {line : List Char}
      {lines : List (List Char)} (hline : Row template line) (hlines : Lines templates lines) :
      Lines (template :: templates) (line :: lines)

/-! ## Fields -/

/-- Characters that can stand anywhere in a field. -/
def IsPlain (c : Char) : Prop :=
  isBlank c = false ∧ c ≠ ';' ∧ c ≠ '\n'

instance (c : Char) : Decidable (IsPlain c) :=
  inferInstanceAs (Decidable (_ ∧ _))

/-- A text without blanks and semicolons is a field. -/
theorem isField_of_forall {text : List Char} (h : ∀ c ∈ text, IsPlain c) : IsField text where
  head c hc := (h c (List.mem_of_mem_head? hc)).1
  last c hc := (h c (List.mem_of_mem_getLast? hc)).1
  semicolon hmem := (h _ hmem).2.1 rfl
  newline hmem := (h _ hmem).2.2 rfl

/-- The characters of hexadecimal numerals are plain, and none starts a comment. -/
theorem isPlain_of_mem_hexCharacters : ∀ c ∈ hexCharacters, IsPlain c ∧ c ≠ '#' :=
  List.all_iff_forall_prop.1 (by decide)

/-- A hexadecimal numeral is a field. -/
theorem isField_of_hexadecimal {n : Nat} {text : List Char} (h : Hexadecimal n text) :
    IsField text :=
  isField_of_forall fun c hc => (isPlain_of_mem_hexCharacters c (h.mem_hexCharacters hc)).1

/-- Decimal digits are plain. -/
theorem isPlain_of_isDigit {c : Char} (h : c.isDigit = true) : IsPlain c := by
  have hplain : ∀ n < 58, 48 ≤ n → IsPlain (Char.ofNat n) := by decide
  obtain ⟨hlow, hhigh⟩ := Char.isDigit_iff_toNat.1 h
  rw [← Char.ofNat_toNat c]
  exact hplain c.toNat (Nat.lt_succ_of_le hhigh) hlow

/-- A decimal numeral is a field. -/
theorem isField_toDigits (n : Nat) : IsField (Nat.toDigits 10 n) :=
  isField_of_forall fun c hc =>
    isPlain_of_isDigit (Nat.isDigit_of_mem_toDigits (by decide) (by decide) hc)

/-- The token of a word kind is plain. -/
theorem isPlain_of_mem_token_word (word : WordKind) : ∀ c ∈ word.token.toList, IsPlain c := by
  cases word <;> exact List.all_iff_forall_prop.1 (by decide)

/-- The token of a width is plain. -/
theorem isPlain_of_mem_token_width (width : TagWidth) : ∀ c ∈ width.token.toList, IsPlain c := by
  cases width <;> exact List.all_iff_forall_prop.1 (by decide)

/-- The token of a count is plain. -/
theorem isPlain_of_mem_token_form (form : CountForm) : ∀ c ∈ form.token.toList, IsPlain c := by
  cases form <;> exact List.all_iff_forall_prop.1 (by decide)

/-- The token of an element kind is plain. -/
theorem isPlain_of_mem_token_element (kind : ElementKind) :
    ∀ c ∈ kind.token.toList, IsPlain c := by
  cases kind with
  | fixed word => exact isPlain_of_mem_token_word word
  | tagged width => exact isPlain_of_mem_token_width width

/-- The token of a kind is a field. -/
theorem isField_token (kind : Kind) : IsField kind.token.toList := by
  apply isField_of_forall
  cases kind with
  | fixed word => exact isPlain_of_mem_token_word word
  | tagged width => exact isPlain_of_mem_token_width width
  | counted form kind =>
    intro c hc
    simp only [Kind.token, String.toList_append, List.mem_append] at hc
    obtain (hc | hc) | hc := hc
    · exact isPlain_of_mem_token_form form c hc
    · rw [List.mem_singleton.1 hc]
      decide
    · exact isPlain_of_mem_token_element kind c hc
  | string | continuous | entityId | equipId | keybindId =>
    exact List.all_iff_forall_prop.1 (by decide)

/-! ## Rows -/

/-- Nothing is trimmed off a field. -/
theorem IsField.trim_eq {text : List Char} (h : IsField text) : trim text = text :=
  Text.trim_eq_self h.head h.last

/-- The blanks around a field are trimmed off. -/
theorem trim_of_padded {field text : List Char} (h : Padded field text) :
    trim text = trim field := by
  obtain ⟨before, after, hbefore, hafter, rfl⟩ := h
  exact Text.trim_blanks hbefore.1 hafter.1

/-- The padded fields of a row trim to what the fields trim to. -/
theorem map_trim_of_padded {fields texts : List (List Char)}
    (h : List.Forall₂ Padded fields texts) : texts.map trim = fields.map trim := by
  induction h with
  | nil => rfl
  | cons hpadded _ ih => rw [List.map_cons, List.map_cons, trim_of_padded hpadded, ih]

/-- Texts that stay on their line are what they trim to, with blanks around. -/
theorem padded_map_trim {texts : List (List Char)} (h : ∀ text ∈ texts, '\n' ∉ text) :
    List.Forall₂ Padded (texts.map trim) texts := by
  rw [List.forall₂_map_left_iff, List.forall₂_same]
  intro text hmem
  obtain ⟨before, after, hbefore, hafter, htext⟩ := Text.exists_trim text
  refine ⟨before, after, ⟨hbefore, fun hc => h text hmem ?_⟩, ⟨hafter, fun hc => h text hmem ?_⟩,
    htext⟩
  · rw [htext]
    exact List.mem_append_left _ (List.mem_append_left _ hc)
  · rw [htext]
    exact List.mem_append_right _ hc

/-- The separator is not a blank, and so trimming leaves it where it is. -/
theorem isBlank_semicolon : isBlank ';' = false := by decide

/-- Blanks have no semicolons among them. -/
theorem IsSpace.semicolon_notMem {space : List Char} (h : IsSpace space) : ';' ∉ space :=
  h.1.notMem isBlank_semicolon

/-- Nothing is left of blanks. -/
theorem trim_of_isSpace {space : List Char} (h : IsSpace space) : trim space = [] := by
  rw [← List.append_nil space, Text.trim_append_left h.1]
  rfl

/-- No semicolon and no line end stands in any text of a list. -/
def Unbroken (texts : List (List Char)) : Prop :=
  ∀ text ∈ texts, ';' ∉ text ∧ '\n' ∉ text

/-- Blanks around fields break neither the row nor the line. -/
theorem unbroken_of_padded {fields texts : List (List Char)}
    (h : List.Forall₂ Padded fields texts) (hfields : Unbroken fields) : Unbroken texts := by
  induction h with
  | nil => exact hfields
  | @cons field text fields texts hpadded _ ih =>
    obtain ⟨before, after, hbefore, hafter, rfl⟩ := hpadded
    intro text hmem
    obtain rfl | hmem := List.mem_cons.1 hmem
    · obtain ⟨hsemicolon, hnewline⟩ := hfields field List.mem_cons_self
      simp only [List.mem_append, not_or]
      exact ⟨⟨⟨hbefore.semicolon_notMem, hsemicolon⟩, hafter.semicolon_notMem⟩,
        ⟨hbefore.2, hnewline⟩, hafter.2⟩
    · exact ih (fun other hother => hfields other (List.mem_cons_of_mem _ hother)) text hmem

/-- A character of joined texts is the separator or stands in one of them. -/
theorem mem_intercalate {separator c : Char} {texts : List (List Char)}
    (h : c ∈ [separator].intercalate texts) : c = separator ∨ ∃ text ∈ texts, c ∈ text := by
  induction texts with
  | nil => simp at h
  | cons text texts ih =>
    cases texts with
    | nil => exact .inr ⟨text, List.mem_cons_self, by simpa using h⟩
    | cons next rest =>
      rw [List.intercalate_cons_cons, List.mem_append, List.mem_append] at h
      obtain (h | h) | h := h
      · exact .inr ⟨text, List.mem_cons_self, h⟩
      · exact .inl (List.mem_singleton.1 h)
      · obtain hc | ⟨other, hother, hc⟩ := ih h
        · exact .inl hc
        · exact .inr ⟨other, List.mem_cons_of_mem _ hother, hc⟩

/-- The parts of a row are its fields when there is something in the last one. -/
theorem splitRow_eq {row : List Char} {fields : List (List Char)}
    (hparts : (row.splitOn ';').map trim = fields) (hlast : fields.getLast? ≠ some []) :
    splitRow row = fields := by
  unfold splitRow
  rw [hparts]
  exact if_neg fun hempty => hlast hempty.2

/-- An empty part behind enough fields is none. -/
theorem splitRow_eq_of_append {row : List Char} {fields : List (List Char)}
    (hparts : (row.splitOn ';').map trim = fields ++ [[]])
    (hlength : minimumFields ≤ fields.length) : splitRow row = fields := by
  unfold splitRow
  rw [hparts]
  refine (if_pos ⟨?_, List.getLast?_concat⟩).trans List.dropLast_concat
  rw [List.length_append, List.length_singleton]
  omega

/-- The fields of a row that has enough of them are told apart by their places. -/
theorem ofRow_eq {row a b c d rawSize name extendedName description count address : List Char}
    {parameters : List (List Char)}
    (h : splitRow row = a :: b :: c :: d :: rawSize :: name :: extendedName :: description ::
      count :: (parameters ++ [address])) :
    Fields.ofRow row = .ok ⟨[a, b, c, d], rawSize, name, extendedName, description, count,
      parameters, address⟩ := by
  unfold Fields.ofRow
  rw [h]
  -- Without parameters the address is the field behind the count.
  cases parameters with
  | nil => rfl
  | cons first parameters =>
    have hdrop : (first :: parameters ++ [address]).dropLast = first :: parameters :=
      List.dropLast_concat
    have hlast : (first :: parameters ++ [address]).getLast (by simp) = address :=
      List.getLast_concat
    show Except.ok (Fields.mk _ _ _ _ _ _ (first :: parameters ++ [address]).dropLast
      ((first :: parameters ++ [address]).getLast _)) = _
    rw [hdrop, hlast]

/-! ## Numbers and parameters -/

/-- A word is read from its numeral. -/
theorem hexWord?_eq {word : UInt32} {text : List Char} (h : Hexadecimal word.toNat text) :
    hexWord? text = some word := by
  have hlt : word.toNat < 0x100000000 := word.toNat_lt
  rw [hexWord?, h.hexNumeral?_eq hlt, Option.map_some, UInt32.ofNat_toNat]

/-- A size is read from what is written for it. -/
theorem SizeField.hexWord?_trim {size : Option UInt32} {text : List Char}
    (h : SizeField size text) : hexWord? (trim text) = size := by
  cases h with
  | size hsize => rw [(isField_of_hexadecimal hsize).trim_eq, hexWord?_eq hsize]
  | none _ _ hrefused => exact hrefused

/-- The field of a size breaks neither the row nor the line. -/
theorem SizeField.unbroken {size : Option UInt32} {text : List Char} (h : SizeField size text) :
    ';' ∉ text ∧ '\n' ∉ text := by
  cases h with
  | size hsize =>
    have hfield := isField_of_hexadecimal hsize
    exact ⟨hfield.semicolon, hfield.newline⟩
  | none hsemicolon hnewline _ => exact ⟨hsemicolon, hnewline⟩

/-- A signature is read from the numerals of its bytes. -/
theorem signatureBytes_eq {signature : UInt32} {a b c d : List Char}
    (ha : Hexadecimal (signature.toNat / 0x1000000) a)
    (hb : Hexadecimal (signature.toNat / 0x10000 % 0x100) b)
    (hc : Hexadecimal (signature.toNat / 0x100 % 0x100) c)
    (hd : Hexadecimal (signature.toNat % 0x100) d) :
    (signatureBytes 0 [a, b, c, d]).map signatureWord = .ok signature := by
  have hlt : signature.toNat < 0x100000000 := signature.toNat_lt
  -- The bytes are the digits of the signature in base `0x100`.
  simp only [signatureBytes, ha.hexNumeral?_eq (show _ < 0x100 by omega),
    hb.hexNumeral?_eq (show _ < 0x100 by omega), hc.hexNumeral?_eq (show _ < 0x100 by omega),
    hd.hexNumeral?_eq (show _ < 0x100 by omega), Except.map, signatureWord, List.foldl_cons,
    List.foldl_nil, UInt8.toNat_ofNat']
  rw [show (((0 * 256 + signature.toNat / 0x1000000 % 2 ^ 8) * 256 +
    signature.toNat / 0x10000 % 256 % 2 ^ 8) * 256 + signature.toNat / 0x100 % 256 % 2 ^ 8) * 256 +
      signature.toNat % 256 % 2 ^ 8 = signature.toNat by omega, UInt32.ofNat_toNat]

/-- The fields of parameters are read as the parameters. -/
theorem declarations_parameterFields (parameters : List Declaration) :
    declarations (parameterFields parameters) = .ok parameters := by
  induction parameters with
  | nil => rfl
  | cons declaration parameters ih =>
    rw [parameterFields, List.flatMap_cons, List.cons_append, List.cons_append, List.nil_append,
      declarations, Kind.ofToken_token]
    dsimp only
    rw [← parameterFields, ih, String.ofList_toList]
    rfl

/-- The fields of declared parameters are read as these. -/
theorem parameters_parameterFields (declared : List Declaration) :
    parameters (parameterFields declared) = .ok declared := by
  have heven : (parameterFields declared).length % 2 = 0 := by
    simp [parameterFields, List.length_flatMap]
  rw [parameters, if_pos heven, declarations_parameterFields]

/-- The fields of parameters are fields when their names are. -/
theorem isField_of_mem_parameterFields {declared : List Declaration} {text : List Char}
    (hnames : ∀ declaration ∈ declared, IsField declaration.name.toList)
    (h : text ∈ parameterFields declared) : IsField text := by
  obtain ⟨declaration, hmem, htext⟩ := List.mem_flatMap.1 h
  obtain rfl | htext := List.mem_cons.1 htext
  · exact isField_token declaration.kind
  · rw [List.mem_singleton.1 htext]
    exact hnames declaration hmem

/-! ## The row of a template -/

section

variable {template : Template} {fields : List (List Char)} {line : List Char}

/-- All fields of a row but the size can stand in one without being trimmed. -/
theorem isField_of_mem_rowFields {a b c d size address : List Char} (hwritable : Writable template)
    (ha : IsField a) (hb : IsField b) (hc : IsField c) (hd : IsField d) (haddress : IsField address)
    {text : List Char} (h : text ∈ rowFields template a b c d size address) :
    text = size ∨ IsField text := by
  simp only [rowFields, List.mem_cons, List.mem_append, List.not_mem_nil, or_false] at h
  rcases h with rfl | rfl | rfl | rfl | rfl | rfl | rfl | rfl | rfl | hparameter | rfl
  · exact .inr ha
  · exact .inr hb
  · exact .inr hc
  · exact .inr hd
  · exact .inl rfl
  · exact .inr hwritable.name
  · exact .inr hwritable.extendedName
  · exact .inr hwritable.description
  · exact .inr (isField_toDigits _)
  · exact .inr (isField_of_mem_parameterFields hwritable.parameters hparameter)
  · exact .inr haddress

/-- Neither semicolons nor line ends stand in the fields of a row. -/
theorem RowFields.unbroken (h : RowFields template fields) (hwritable : Writable template) :
    Unbroken fields := by
  cases h with
  | fields ha hb hc hd hsize haddress =>
    intro text hmem
    obtain rfl | htext := isField_of_mem_rowFields hwritable (isField_of_hexadecimal ha)
      (isField_of_hexadecimal hb) (isField_of_hexadecimal hc) (isField_of_hexadecimal hd)
      (isField_of_hexadecimal haddress) hmem
    · exact hsize.unbroken
    · exact ⟨htext.semicolon, htext.newline⟩

/-- Of the fields of a row, the size alone may have something to trim off. -/
theorem map_trim_rowFields {a b c d size address : List Char} (hwritable : Writable template)
    (ha : IsField a) (hb : IsField b) (hc : IsField c) (hd : IsField d)
    (haddress : IsField address) :
    (rowFields template a b c d size address).map trim =
      rowFields template a b c d (trim size) address := by
  have hparameters : (parameterFields template.parameters).map trim =
      parameterFields template.parameters :=
    (List.map_congr_left fun text hmem =>
      (isField_of_mem_parameterFields hwritable.parameters hmem).trim_eq).trans (List.map_id _)
  simp only [rowFields, List.map_cons, List.map_append, List.map_nil, hparameters, ha.trim_eq,
    hb.trim_eq, hc.trim_eq, hd.trim_eq, hwritable.name.trim_eq, hwritable.extendedName.trim_eq,
    hwritable.description.trim_eq, (isField_toDigits _).trim_eq, haddress.trim_eq]

/-- There are enough fields in a row. -/
theorem RowFields.minimumFields_le (h : RowFields template fields) :
    minimumFields ≤ fields.length := by
  cases h with
  | fields => simp [rowFields, minimumFields]

/-- The last field of a row is not blank. -/
theorem RowFields.getLast?_map_trim (h : RowFields template fields) :
    (fields.map trim).getLast? ≠ some [] := by
  cases h with
  | @fields a b c d size address ha hb hc hd hsize haddress =>
    have hlast : (rowFields template a b c d size address).getLast? = some address := by
      show (a :: b :: c :: d :: size :: _ :: _ :: _ :: _ :: parameterFields template.parameters ++
        [address]).getLast? = some address
      exact List.getLast?_concat
    rw [List.getLast?_map, hlast, Option.map_some, (isField_of_hexadecimal haddress).trim_eq]
    exact fun hempty => haddress.ne_nil (Option.some.inj hempty)

/-- A row has fields, padded or not. -/
theorem RowFields.ne_nil_of_padded {texts : List (List Char)} (h : RowFields template fields)
    (htexts : List.Forall₂ Padded fields texts) : texts ≠ [] := by
  rintro rfl
  cases htexts
  cases h

/-- The joined texts of a row are its fields again when it is split. -/
theorem map_trim_splitOn_trim_intercalate {texts : List (List Char)} (hne : texts ≠ [])
    (hsemicolon : ∀ text ∈ texts, ';' ∉ text) :
    ((trim ([';'].intercalate texts)).splitOn ';').map trim = texts.map trim := by
  rw [Text.map_trim_splitOn_trim isBlank_semicolon, List.splitOn_intercalate ';' hsemicolon hne]

/-- A row is split into its fields, however it is padded and closed. -/
theorem Row.exists_splitRow (h : Row template line) (hwritable : Writable template) :
    ∃ fields, RowFields template fields ∧ splitRow (trim line) = fields.map trim := by
  cases h with
  | @plain fields texts hfields htexts =>
    have hunbroken := unbroken_of_padded htexts (hfields.unbroken hwritable)
    refine ⟨fields, hfields, splitRow_eq ?_ hfields.getLast?_map_trim⟩
    rw [map_trim_splitOn_trim_intercalate (hfields.ne_nil_of_padded htexts)
      fun text hmem => (hunbroken text hmem).1, map_trim_of_padded htexts]
  | @closed fields texts space hfields htexts hspace =>
    -- Nothing is left of the part behind the last semicolon, which is dropped as one too many.
    have hunbroken := unbroken_of_padded htexts (hfields.unbroken hwritable)
    refine ⟨fields, hfields, splitRow_eq_of_append ?_ ?_⟩
    · rw [map_trim_splitOn_trim_intercalate (List.append_ne_nil_of_right_ne_nil _ (by simp)),
        List.map_append, map_trim_of_padded htexts, List.map_singleton, trim_of_isSpace hspace]
      intro text hmem
      obtain hmem | hmem := List.mem_append.1 hmem
      · exact (hunbroken text hmem).1
      · rw [List.mem_singleton.1 hmem]
        exact hspace.semicolon_notMem
    · rw [List.length_map]
      exact hfields.minimumFields_le

/-- The template of a row is read from it. -/
theorem Row.result_readRow (h : Row template line) (hwritable : Writable template) (number : Nat) :
    (readRow (trim line) number).result = .ok template := by
  obtain ⟨fields, hfields, hsplit⟩ := h.exists_splitRow hwritable
  cases hfields with
  | @fields a b c d size address ha hb hc hd hsize haddress =>
    rw [map_trim_rowFields hwritable (isField_of_hexadecimal ha) (isField_of_hexadecimal hb)
      (isField_of_hexadecimal hc) (isField_of_hexadecimal hd)
      (isField_of_hexadecimal haddress)] at hsplit
    have hbytes := signatureBytes_eq ha hb hc hd
    unfold readRow
    rw [ofRow_eq hsplit]
    dsimp only
    -- The signature, the address and the parameters are read in turn, and each could fail.
    cases hread : signatureBytes 0 [a, b, c, d] with
    | error fault => rw [hread] at hbytes; cases hbytes
    | ok bytes =>
      rw [hread, Except.map, Except.ok.injEq] at hbytes
      dsimp only
      rw [hexWord?_eq haddress]
      dsimp only
      rw [parameters_parameterFields]
      dsimp only
      rw [hbytes, hsize.hexWord?_trim, String.ofList_toList, String.ofList_toList,
        String.ofList_toList]

/-- Joined texts begin with the first of them. -/
theorem exists_intercalate_cons (text : List Char) (texts : List (List Char)) :
    ∃ rest, [';'].intercalate (text :: texts) = text ++ rest := by
  cases texts with
  | nil => exact ⟨[], by simp⟩
  | cons next texts =>
    exact ⟨[';'] ++ [';'].intercalate (next :: texts),
      by rw [List.intercalate_cons_cons, List.append_assoc]⟩

/-- Whatever is written behind the fields of a row, the first character that is no blank is one of
a numeral. -/
theorem RowFields.exists_append {texts more : List (List Char)} (h : RowFields template fields)
    (htexts : List.Forall₂ Padded fields texts) :
    ∃ before c rest, AllBlank before ∧ c ∈ hexCharacters ∧
      [';'].intercalate (texts ++ more) = before ++ c :: rest := by
  cases h with
  | @fields a b c d size address ha hb hc hd hsize haddress =>
    cases htexts with
    | cons hfirst hrest =>
      obtain ⟨before, after, hbefore, hafter, rfl⟩ := hfirst
      obtain ⟨first, digits, rfl⟩ := List.exists_cons_of_ne_nil ha.ne_nil
      obtain ⟨rest, hline⟩ :=
        exists_intercalate_cons (before ++ first :: digits ++ after) (_ ++ more)
      refine ⟨before, first, digits ++ after ++ rest, hbefore.1,
        ha.mem_hexCharacters List.mem_cons_self, ?_⟩
      rw [List.cons_append, hline]
      simp only [List.append_assoc, List.cons_append]

/-- The first character of a row that is no blank is one of a numeral. -/
theorem Row.exists_append (h : Row template line) :
    ∃ before c rest, AllBlank before ∧ c ∈ hexCharacters ∧ line = before ++ c :: rest := by
  cases h with
  | @plain fields texts hfields htexts =>
    rw [← List.append_nil texts]
    exact hfields.exists_append htexts
  | closed hfields htexts hspace => exact hfields.exists_append htexts

/-- A row is not skipped. -/
theorem Row.isSkipped_trim (h : Row template line) : isSkipped (trim line) = false := by
  obtain ⟨before, c, rest, hbefore, hc, rfl⟩ := h.exists_append
  obtain ⟨⟨hblank, -⟩, hmark⟩ := isPlain_of_mem_hexCharacters c hc
  have hhead := Text.head?_trim hbefore hblank rest
  cases htrim : trim (before ++ c :: rest) with
  | nil => rw [htrim] at hhead; simp at hhead
  | cons first left =>
    rw [htrim, List.head?_cons, Option.some.injEq] at hhead
    rw [isSkipped, hhead, beq_eq_false_iff_ne]
    exact hmark

/-- There is no line end in a row. -/
theorem Row.newline_notMem (h : Row template line) (hwritable : Writable template) :
    '\n' ∉ line := by
  intro hmem
  cases h with
  | plain hfields htexts =>
    have hunbroken := unbroken_of_padded htexts (hfields.unbroken hwritable)
    obtain hc | ⟨text, htext, hc⟩ := mem_intercalate hmem
    · exact absurd hc (by decide)
    · exact (hunbroken text htext).2 hc
  | closed hfields htexts hspace =>
    have hunbroken := unbroken_of_padded htexts (hfields.unbroken hwritable)
    obtain hc | ⟨text, htext, hc⟩ := mem_intercalate hmem
    · exact absurd hc (by decide)
    · obtain htext | htext := List.mem_append.1 htext
      · exact (hunbroken text htext).2 hc
      · rw [List.mem_singleton.1 htext] at hc
        exact hspace.2 hc

end

/-! ## Lines -/

/-- A line without a row is skipped. -/
theorem NoRow.isSkipped_trim {line : List Char} (h : NoRow line) :
    isSkipped (trim line) = true := by
  cases h with
  | blank hspace => rw [trim_of_isSpace hspace, isSkipped]
  | @comment space text hspace hnewline =>
    have hhead := Text.head?_trim hspace.1 (show isBlank '#' = false by decide) text
    cases htrim : trim (space ++ '#' :: text) with
    | nil => rfl
    | cons first left =>
      rw [htrim, List.head?_cons, Option.some.injEq] at hhead
      rw [isSkipped, hhead, beq_self_eq_true]

/-- A line that is no row is one line. -/
theorem NoRow.newline_notMem {line : List Char} (h : NoRow line) : '\n' ∉ line := by
  cases h with
  | blank hspace => exact hspace.2
  | comment hspace hnewline =>
    simp only [List.mem_append, List.mem_cons, not_or]
    exact ⟨hspace.2, by decide, hnewline⟩

/-- Every line of a text is one line. -/
theorem Lines.newline_notMem {templates : List Template} {lines : List (List Char)}
    (h : Lines templates lines) (htemplates : ∀ template ∈ templates, Writable template) :
    ∀ line ∈ lines, '\n' ∉ line := by
  induction h with
  | nil => simp
  | skip hline _ ih => exact List.forall_mem_cons.2 ⟨hline.newline_notMem, ih htemplates⟩
  | row hline _ ih =>
    obtain ⟨hfirst, hrest⟩ := List.forall_mem_cons.1 htemplates
    exact List.forall_mem_cons.2 ⟨hline.newline_notMem hfirst, ih hrest⟩

/-- The templates of the lines are read behind those of the lines before them. -/
theorem Lines.result_readLines {templates : List Template} {lines : List (List Char)}
    (h : Lines templates lines) (htemplates : ∀ template ∈ templates, Writable template)
    (number : Nat) (notices : Array Notice) (before : Array Template) :
    (readLines number notices before lines).result = .ok (before.toList ++ templates) := by
  -- A line changes the number, the notices or the templates before the lines behind it.
  induction h generalizing number notices before with
  | nil => rw [readLines, List.append_nil]
  | skip hline _ ih =>
    rw [readLines, if_pos hline.isSkipped_trim]
    exact ih htemplates _ _ _
  | @row template templates line lines hline _ ih =>
    obtain ⟨hfirst, hrest⟩ := List.forall_mem_cons.1 htemplates
    rw [readLines, if_neg (by simp [hline.isSkipped_trim])]
    dsimp only
    rw [hline.result_readRow hfirst]
    dsimp only
    rw [ih hrest, Array.toList_push, List.append_assoc, List.singleton_append]

/-- Every template has a row. -/
theorem exists_row (template : Template) : ∃ line, Row template line := by
  have hnumeral : ∀ n, Hexadecimal n (Nat.toDigits 16 n) := fun n =>
    .bare (Text.hexDigits_toDigits n)
  obtain ⟨size, hsize⟩ : ∃ size, SizeField template.rawSize size := by
    cases template.rawSize with
    | some size => exact ⟨_, .size (hnumeral size.toNat)⟩
    | none => exact ⟨['-'], .none (by decide) (by decide) (by decide)⟩
  have hfields : RowFields template _ := .fields (hnumeral _) (hnumeral _) (hnumeral _) (hnumeral _)
    hsize (hnumeral _)
  refine ⟨_, .plain hfields (List.forall₂_same.2 fun field _ => ?_)⟩
  exact ⟨[], [], by decide, by decide, by simp⟩

/-- Every list of templates can be written. -/
theorem exists_lines (templates : List Template) : ∃ lines, Lines templates lines := by
  induction templates with
  | nil => exact ⟨[], .nil⟩
  | cons template templates ih =>
    obtain ⟨line, hline⟩ := exists_row template
    obtain ⟨lines, hlines⟩ := ih
    exact ⟨line :: lines, .row hline hlines⟩

/-- A text that declares templates is read as these templates in their order. -/
theorem result_read_of_lines {templates : List Template} {lines : List (List Char)}
    (htemplates : ∀ template ∈ templates, Writable template) (hlines : Lines templates lines) :
    (read (String.ofList (['\n'].intercalate lines))).result = .ok templates := by
  unfold read
  rw [String.toList_ofList]
  by_cases hne : lines = []
  · -- The empty text has one line, which is blank.
    subst hne
    cases hlines
    rfl
  · rw [List.splitOn_intercalate '\n' (hlines.newline_notMem htemplates) hne,
      hlines.result_readLines htemplates]
    rfl

/-- Two templates, one of which has neither a size nor parameters. -/
def doors : List Template :=
  [{ signature := 0x2501001A
     name := "cmd_open"
     description := "Opens a door"
     rawSize := some 0x1C
     address := 0x8001C0
     parameters := [⟨.counted .byte (.tagged .half), "doors"⟩, ⟨.string, ""⟩] },
   { signature := 0x25010000, name := "cmd_shut" }]

/-- The first row of the doors: small and capital digits, marks, more zeros than it takes, and
blanks. -/
def openTexts : List (List Char) :=
  ["  25".toList, "0x01".toList, "0".toList, "1a ".toList, "001C".toList, "cmd_open".toList,
    "".toList, "\tOpens a door".toList, "2".toList, "count_byte:variable2".toList,
    " doors".toList, "string".toList, " ".toList, "0X8001c0".toList]

/-- The second row of the doors, as short as a row may be. -/
def shutTexts : List (List Char) :=
  ["25".toList, "01".toList, "00".toList, "00".toList, "-".toList, "cmd_shut".toList, "".toList,
    "".toList, "0".toList, "0".toList]

/-- The rows of the doors among a comment and blank lines, the second of them closed. -/
def doorLines : List (List Char) :=
  [" # doors; both".toList, [';'].intercalate openTexts, "\r".toList,
    [';'].intercalate (shutTexts ++ [" ".toList]), []]

/-- The doors are read from their lines. -/
theorem result_read_doorLines :
    (read (String.ofList (['\n'].intercalate doorLines))).result = .ok doors := by
  have hopen : RowFields doors[0] (openTexts.map trim) := by
    rw [show openTexts.map trim = rowFields doors[0] "25".toList "0x01".toList "0".toList
      "1a".toList "001C".toList "0X8001c0".toList by decide]
    exact .fields (.bare ⟨[2, 5], by decide, by decide, by decide⟩)
      (.marked (.inl rfl) ⟨[0, 1], by decide, by decide, by decide⟩)
      (.bare ⟨[0], by decide, by decide, by decide⟩)
      (.bare ⟨[1, 10], by decide, by decide, by decide⟩)
      (.size (.bare ⟨[0, 0, 1, 12], by decide, by decide, by decide⟩))
      (.marked (.inr rfl) ⟨[8, 0, 0, 1, 12, 0], by decide, by decide, by decide⟩)
  have hshut : RowFields doors[1] (shutTexts.map trim) := by
    rw [show shutTexts.map trim = rowFields doors[1] "25".toList "01".toList "00".toList
      "00".toList "-".toList "0".toList by decide]
    exact .fields (.bare ⟨[2, 5], by decide, by decide, by decide⟩)
      (.bare ⟨[0, 1], by decide, by decide, by decide⟩)
      (.bare ⟨[0, 0], by decide, by decide, by decide⟩)
      (.bare ⟨[0, 0], by decide, by decide, by decide⟩)
      (.none (by decide) (by decide) (by decide))
      (.bare ⟨[0], by decide, by decide, by decide⟩)
  have hlines : Lines doors doorLines :=
    .skip (.comment (show IsSpace [' '] by decide) (by decide)) <|
    .row (.plain hopen (padded_map_trim (by decide))) <|
    .skip (.blank (by decide)) <|
    .row (.closed hshut (padded_map_trim (by decide)) (by decide)) <|
    .skip (.blank (by decide)) .nil
  exact result_read_of_lines (by decide) hlines

end PacScript.Definition
