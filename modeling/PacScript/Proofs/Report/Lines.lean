import PacScript.Proofs.Instruction.Steps
import PacScript.Proofs.Scan.Failing
import PacScript.Proofs.Text.Hexadecimal
import PacScript.Proofs.Text.ShiftJis
import PacScript.Report

/-!
# The lines of a listing

A listing has a line for each entity, which begins with the offset. What stands behind it is partly
copied: names from the definitions, texts from the buffer. A line feed in these goes on into the
listing, since only NUL characters are taken out, and the entity then has more than one line. There
is no other way: numbers, labels and the listing's own words have no line feed, so that exactly the
scripts without copied line feeds have one line for each entity (`Scanner.listing_of_scan`).
-/

namespace PacScript

/-! ## Texts of one line -/

/-- The text has no line feed. -/
def OneLine (text : String) : Prop :=
  '\n' ∉ text.toList

instance (text : String) : Decidable (OneLine text) :=
  inferInstanceAs (Decidable (_ ∉ _))

/-- Texts joined to one another are on one line when both are. -/
@[simp] theorem oneLine_append_iff {front back : String} :
    OneLine (front ++ back) ↔ OneLine front ∧ OneLine back := by
  unfold OneLine
  rw [String.toList_append, List.mem_append, not_or]

/-- Characters without a line feed are on one line. -/
theorem oneLine_ofList_iff {chars : List Char} : OneLine (String.ofList chars) ↔ '\n' ∉ chars := by
  unfold OneLine
  rw [String.toList_ofList]

/-- A text put together with a separator has a line feed when one of its parts has. -/
theorem oneLine_intercalate_iff {separator : String} (hseparator : OneLine separator)
    {texts : List String} :
    OneLine (separator.intercalate texts) ↔ ∀ text ∈ texts, OneLine text := by
  induction texts with
  | nil =>
    rw [String.intercalate_nil]
    exact ⟨fun _ text hmem => absurd hmem List.not_mem_nil, fun _ => by decide⟩
  | cons first rest ih =>
    rw [List.forall_mem_cons, ← ih]
    cases rest with
    | nil =>
      rw [String.intercalate_singleton, String.intercalate_nil]
      exact ⟨fun h => ⟨h, by decide⟩, And.left⟩
    | cons second rest =>
      rw [String.intercalate_cons_of_ne_nil (List.cons_ne_nil _ _), oneLine_append_iff,
        oneLine_append_iff]
      exact ⟨fun h => ⟨h.1.1, h.2⟩, fun h => ⟨⟨h.1, hseparator⟩, h.2⟩⟩

/-! ## Numbers -/

/-- No numeral has a line feed. -/
theorem Text.oneLine_hex (width n : Nat) : OneLine (hex width n) := by
  unfold hex
  rw [oneLine_ofList_iff, List.mem_append, List.mem_map, List.mem_replicate]
  intro h
  rcases h with ⟨-, hzero⟩ | ⟨digit, hdigit, hfeed⟩
  · exact absurd hzero (by decide)
  · have hall : (hexCharacters.all fun c => c.toUpper != '\n') = true := by decide
    have hmem := ((hexDigits_toDigits n).mem_hexCharacters hdigit).1
    exact bne_iff_ne.1 (List.all_eq_true.1 hall digit hmem) hfeed

/-- A decimal digit is no line feed. -/
theorem newline_notMem_toDigits (n : Nat) : '\n' ∉ Nat.toDigits 10 n := by
  intro hmem
  have hdigit := Nat.isDigit_of_mem_toDigits (by decide) (by decide) hmem
  exact absurd hdigit (by decide)

/-- A number is written on one line. -/
theorem oneLine_toString (n : Nat) : OneLine (toString n) :=
  oneLine_ofList_iff.2 (newline_notMem_toDigits n)

namespace Decimal

/-- A sign is written on one line. -/
theorem oneLine_sign (negative : Bool) : OneLine (sign negative) := by
  cases negative <;> decide

/-- A decimal consists of its digits, zeros and a point. -/
theorem Digits.oneLine_positional (decimal : Digits) (wholeMark : Bool) :
    OneLine (decimal.positional wholeMark) := by
  have hdigits := newline_notMem_toDigits decimal.digits
  have hzeros : ∀ n, '\n' ∉ List.replicate n '0' := by
    intro n hmem
    exact absurd (List.eq_of_mem_replicate hmem) (by decide)
  unfold positional
  dsimp only
  split
  · rw [oneLine_append_iff, oneLine_ofList_iff, List.mem_append]
    refine ⟨not_or.2 ⟨hdigits, hzeros _⟩, ?_⟩
    cases wholeMark <;> decide
  · split
    · simp only [oneLine_append_iff, oneLine_ofList_iff]
      exact ⟨⟨mt List.mem_of_mem_take hdigits, by decide⟩, mt List.mem_of_mem_drop hdigits⟩
    · refine oneLine_append_iff.2 ⟨by decide, ?_⟩
      rw [oneLine_ofList_iff, List.mem_append]
      exact not_or.2 ⟨hzeros _, hdigits⟩

end Decimal

namespace Value

/-- A float is written on one line, infinities and what is not a number included. -/
theorem oneLine_displayFloat (bits : UInt32) : OneLine (displayFloat bits) := by
  unfold displayFloat Decimal.Layout.single?
  cases Decimal.Single.ofBits bits with
  | nan => decide
  | infinite negative => exact oneLine_append_iff.2 ⟨Decimal.oneLine_sign negative, by decide⟩
  | zero negative => exact oneLine_append_iff.2 ⟨Decimal.oneLine_sign negative, by decide⟩
  | finite negative mantissa exponent lowest =>
    have hdigits := Decimal.Digits.oneLine_positional
    exact oneLine_append_iff.2 ⟨Decimal.oneLine_sign negative, hdigits _ _⟩

/-- Only a text may have line feeds. -/
theorem oneLine_display_iff {value : Value} :
    OneLine value.display ↔ ∀ text, value = .text text → OneLine text := by
  cases value with
  | int value => simp [display, Text.oneLine_hex]
  | float bits => simp [display, oneLine_displayFloat]
  | text text =>
    have hquote : OneLine "\"" := by decide
    simp [display, hquote]

end Value

/-! ## Lines -/

/-- What is copied into the line of the entity has no line feed: the names of an instruction and the
texts among its parameters, and the text of a raw span, which is shown if it is well-formed. -/
def Entity.KeepsLine (entity : Entity) : Prop :=
  match entity.content with
  | .instruction template _ parameters =>
    OneLine template.name ∧ ∀ parameter ∈ parameters.ordered,
      OneLine parameter.name ∧ ∀ text, parameter.value = .text text → OneLine text
  | .rawSpan =>
    0x0A ∈ entity.raw.data.toList → Encoding.shiftJis.decodeStrict entity.raw.data.toList = none
  | .unknown _ | .padding | .messageTable | .jumpTable | .leftOut _ => True

namespace Listing

/-- The labels have no line feed. -/
theorem oneLine_parameter_iff {p : Parameter} (hlabel : p.label ∈ Arguments.labels) :
    OneLine (parameter p) ↔ OneLine p.name ∧ ∀ text, p.value = .text text → OneLine text := by
  have hall : ∀ label ∈ Arguments.labels, OneLine label := by decide
  have hopening : OneLine "\x7b" := by decide
  have hmiddle : OneLine "; " := by decide
  have hclosing : OneLine "\x7d=" := by decide
  unfold parameter
  simp only [oneLine_append_iff, Value.oneLine_display_iff, hall _ hlabel, hopening, hmiddle,
    hclosing, true_and, and_true]

/-- A list of arguments is on one line when each argument is. -/
theorem oneLine_arguments_iff {parameters : List Parameter}
    (hlabels : ∀ p ∈ parameters, p.label ∈ Arguments.labels) :
    OneLine (", ".intercalate (parameters.map parameter)) ↔
      ∀ p ∈ parameters, OneLine p.name ∧ ∀ text, p.value = .text text → OneLine text := by
  rw [oneLine_intercalate_iff (by decide), List.forall_mem_map]
  constructor
  · intro h p hmem
    exact (oneLine_parameter_iff (hlabels p hmem)).1 (h p hmem)
  · intro h p hmem
    exact (oneLine_parameter_iff (hlabels p hmem)).2 (h p hmem)

/-- A list of branches is on one line. -/
theorem oneLine_branches (branches : List UInt32) :
    OneLine (", ".intercalate (branches.map fun branch => Text.hex 1 branch.toNat)) := by
  rw [oneLine_intercalate_iff (by decide), List.forall_mem_map]
  intro branch _
  exact Text.oneLine_hex 1 branch.toNat

/-- The text of a raw span has a line feed when the span has one and is shown. -/
theorem oneLine_spanText_iff {raw : ByteArray} :
    OneLine (spanText raw) ↔
      (0x0A ∈ raw.data.toList → Encoding.shiftJis.decodeStrict raw.data.toList = none) := by
  have hopening : OneLine ", shift-jis = (" := by decide
  have hclosing : OneLine ")" := by decide
  have hempty : OneLine "" := by decide
  unfold spanText
  cases hdecode : Encoding.shiftJis.decodeStrict raw.data.toList with
  | none => simp [hempty]
  | some text =>
    have hformed := Text.ShiftJis.decodeStrict_eq_some_iff.1 hdecode
    have hbelow : (0x0A : UInt8) < 0x40 := by decide
    have hfeed : '\n' ∈ text.toList ↔ 0x0A ∈ raw.data.toList := hformed.ofNat_mem_iff hbelow
    -- Taking the NUL characters out leaves the line feeds.
    have hkept : OneLine (withoutNul text) ↔ '\n' ∉ text.toList := by
      unfold withoutNul
      rw [oneLine_ofList_iff, List.mem_filter]
      simp
    simp only [oneLine_append_iff, hopening, hclosing, hkept, hfeed, true_and, and_true,
      reduceCtorEq, imp_false]

/-- A size in bytes is written on one line. -/
theorem oneLine_inBytes (n : Nat) : OneLine (inBytes n) :=
  oneLine_append_iff.2 ⟨oneLine_toString n, by decide⟩

/-- The name of an instruction and its arguments are all that is copied. -/
theorem oneLine_describe_instruction_iff {offset : Nat} {raw : ByteArray} {template : Template}
    {cutOff : Bool} {parameters : ParameterSet}
    (hlabels : ∀ p ∈ parameters.ordered, p.label ∈ Arguments.labels) :
    OneLine (describe false ⟨offset, raw, .instruction template cutOff parameters⟩) ↔
      Entity.KeepsLine ⟨offset, raw, .instruction template cutOff parameters⟩ := by
  have hwarning : OneLine (if cutOff = true then " " ++ cutOffWarning else "") := by
    cases cutOff <;> decide
  have hcolon : OneLine ":" := by decide
  have hopening : OneLine "(" := by decide
  have hclosing : OneLine ")" := by decide
  have hempty : OneLine "" := by decide
  unfold describe Entity.KeepsLine
  simp only [bytes, Bool.false_eq_true, if_false, oneLine_append_iff, Text.oneLine_hex,
    oneLine_arguments_iff hlabels, hwarning, hempty, hcolon, hopening, hclosing, true_and,
    and_true]

/-- The text of a raw span is all that is copied. -/
theorem oneLine_describe_rawSpan_iff {offset : Nat} {raw : ByteArray} :
    OneLine (describe false ⟨offset, raw, .rawSpan⟩) ↔
      Entity.KeepsLine ⟨offset, raw, .rawSpan⟩ := by
  have hopening : OneLine "Raw data: " := by decide
  have hsize : OneLine "size = " := by decide
  unfold describe Entity.KeepsLine
  simp only [oneLine_append_iff, oneLine_inBytes, oneLine_spanText_iff, hopening, hsize, true_and]

/-- The line of an entity has no line feed exactly when nothing that is copied into it has. -/
theorem oneLine_line_iff {entity : Entity} (hlabels : ∀ instruction,
    entity.instruction? = some instruction →
      ∀ p ∈ instruction.parameters.ordered, p.label ∈ Arguments.labels) :
    OneLine (line false entity) ↔ entity.KeepsLine := by
  have hgap : OneLine "  " := by decide
  have hempty : OneLine "" := by decide
  have hzeroes : ∀ zeroes : Bool, OneLine (if zeroes = true then "true" else "false") := by decide
  unfold line
  rw [oneLine_append_iff, oneLine_append_iff]
  simp only [Text.oneLine_hex, hgap, true_and]
  obtain ⟨offset, raw, content⟩ := entity
  cases content with
  | instruction template cutOff parameters => exact oneLine_describe_instruction_iff (hlabels _ rfl)
  | rawSpan => exact oneLine_describe_rawSpan_iff
  -- In what is left, only numbers stand between the listing's own words.
  | unknown signature =>
    simp only [describe, Entity.KeepsLine, bytes, Bool.false_eq_true, if_false, oneLine_append_iff,
      Text.oneLine_hex, oneLine_toString, hempty, true_and, and_true, iff_true]
    decide
  | padding =>
    simp only [describe, Entity.KeepsLine, oneLine_append_iff, oneLine_toString, hzeroes, and_true,
      iff_true]
    decide
  | messageTable =>
    simp only [describe, Entity.KeepsLine, oneLine_append_iff, oneLine_inBytes, oneLine_toString,
      and_true, iff_true]
    decide
  | jumpTable =>
    simp only [describe, Entity.KeepsLine, oneLine_append_iff, oneLine_inBytes, oneLine_toString,
      oneLine_branches, and_true, iff_true]
    decide
  | leftOut instructionOffset =>
    simp only [describe, Entity.KeepsLine, oneLine_append_iff, oneLine_inBytes, oneLine_toString,
      Text.oneLine_hex, and_true, iff_true]
    decide

end Listing

/-! ## Listings -/

/-- The text has exactly one line for each entity, and it begins with the offset of the entity. -/
def HasLinePerEntity (entities : List Entity) (text : String) : Prop :=
  ∃ lines : List (List Char), text.toList = lines.flatMap (· ++ ['\n']) ∧
    List.Forall₂ (fun entity line => '\n' ∉ line ∧
      (Text.hex 8 entity.offset ++ "  ").toList <+: line) entities lines

namespace Listing

/-- A listing that is not verbose is what is listed for each entity, each with a line feed behind
it. -/
theorem toList_render (path : String) (script : Script) :
    ((Format.listing false).render path script).toList =
      script.entities.toList.flatMap fun entity => (line false entity).toList ++ ['\n'] := by
  have hfold : ∀ (entities : List Entity) (text : String),
      (entities.foldl (fun text entity => text ++ line false entity ++ "\n") text).toList =
        text.toList ++ entities.flatMap fun entity => (line false entity).toList ++ ['\n'] := by
    intro entities
    induction entities with
    | nil => simp
    | cons entity rest ih =>
      intro text
      rw [List.foldl_cons, ih, List.flatMap_cons]
      simp
  unfold Format.render
  dsimp only [Format.header?, Format.footer?, Option.getD_none]
  rw [String.toList_append, ← Array.foldl_toList, hfold]
  simp

/-- What is listed for an entity begins with its offset. -/
theorem offset_line (entity : Entity) :
    (Text.hex 8 entity.offset ++ "  ").toList <+: (line false entity).toList := by
  have hsplit : (line false entity).toList =
      (Text.hex 8 entity.offset ++ "  ").toList ++ (describe false entity).toList :=
    String.toList_append
  rw [hsplit]
  exact List.prefix_append _ _

/-- What ends a number of lines is there once for each line, and as often as the lines have it
themselves. -/
theorem count_flatMap {α : Type} (feed : Char) (items : List α) (chars : α → List Char) :
    (items.flatMap fun item => chars item ++ [feed]).count feed =
      items.length + (items.map fun item => (chars item).count feed).sum := by
  induction items with
  | nil => simp
  | cons item rest ih =>
    rw [List.flatMap_cons, List.count_append, List.count_append, List.count_singleton_self, ih,
      List.map_cons, List.sum_cons, List.length_cons]
    omega

/-- Lines that do not have their end in them have no more ends than there are lines. -/
theorem forall_not_mem_iff {α : Type} {feed : Char} {items : List α} {chars : α → List Char} :
    (∀ item ∈ items, feed ∉ chars item) ↔
      (items.flatMap fun item => chars item ++ [feed]).count feed = items.length := by
  rw [count_flatMap, Nat.add_eq_left, List.sum_eq_zero_iff_forall_eq_nat, List.forall_mem_map]
  simp only [List.count_eq_zero]

/-- There is one line for each entity exactly when no line feed is copied. -/
theorem hasLinePerEntity_iff {path : String} {script : Script} :
    HasLinePerEntity script.entities.toList ((Format.listing false).render path script) ↔
      ∀ entity ∈ script.entities.toList, OneLine (line false entity) := by
  unfold HasLinePerEntity
  rw [toList_render]
  generalize script.entities.toList = entities
  constructor
  · intro hexists
    obtain ⟨lines, htext, hlines⟩ := hexists
    have hown : ∀ line ∈ lines, '\n' ∉ line := by
      clear htext
      induction hlines with
      | nil => exact List.forall_mem_nil _
      | cons hline _ ih => exact List.forall_mem_cons.2 ⟨hline.1, ih⟩
    -- The text has a line feed for each entity, and these are already the ends of the lines.
    apply forall_not_mem_iff.2
    rw [htext, forall_not_mem_iff.1 hown, hlines.length_eq]
  · intro h
    refine ⟨entities.map fun entity => (line false entity).toList, ?_, ?_⟩
    · rw [List.flatMap_map]
    · rw [List.forall₂_map_right_iff, List.forall₂_same]
      intro entity hmem
      exact ⟨h entity hmem, offset_line entity⟩

end Listing

/-- The parameters of the instructions of a script have labels that are known. -/
theorem Scanner.mem_labels_of_scan {scanner : Scanner} {data : ByteArray} {script : Script}
    (h : scanner.scan data = .ok script) {entity : Entity}
    (hmem : entity ∈ script.entities.toList) {instruction : Instruction}
    (hinstruction : entity.instruction? = some instruction) :
    ∀ p ∈ instruction.parameters.ordered, p.label ∈ Arguments.labels := by
  obtain ⟨signature, template, -, -, hdecode⟩ := exists_decode_of_scan h hmem hinstruction
  exact Instruction.label_mem_labels hdecode

/-- A listing is made of what is listed for each entity, with a line feed behind it, and what is
listed for an entity begins with its offset. These are the lines of the listing, one for each
entity, exactly when no line feed is copied from a name, a text or a raw span that is shown. -/
theorem Scanner.listing_of_scan {scanner : Scanner} {data : ByteArray} {script : Script}
    (h : scanner.scan data = .ok script) (path : String) :
    ((Format.listing false).render path script).toList =
        script.entities.toList.flatMap
          (fun entity => (Listing.line false entity).toList ++ ['\n']) ∧
      (∀ entity ∈ script.entities.toList,
        (Text.hex 8 entity.offset ++ "  ").toList <+: (Listing.line false entity).toList) ∧
      (HasLinePerEntity script.entities.toList ((Format.listing false).render path script) ↔
        ∀ entity ∈ script.entities.toList, entity.KeepsLine) := by
  refine ⟨Listing.toList_render path script, fun entity _ => Listing.offset_line entity, ?_⟩
  rw [Listing.hasLinePerEntity_iff]
  constructor
  · intro hlines entity hmem
    exact (Listing.oneLine_line_iff fun _ => mem_labels_of_scan h hmem).1 (hlines entity hmem)
  · intro hkeeps entity hmem
    exact (Listing.oneLine_line_iff fun _ => mem_labels_of_scan h hmem).2 (hkeeps entity hmem)

/-- The NUL characters in a raw span do not reach the listing, so that its line is whole. -/
theorem Scanner.listing_of_scan_nul : ∃ script,
    Scanner.messages.scan ⟨#[0x61, 0, 0x62]⟩ = .ok script ∧
      HasLinePerEntity script.entities.toList ((Format.listing false).render "" script) := by
  have hseen : (Scanner.messages.scan ⟨#[0x61, 0, 0x62]⟩).toOption.map
      (fun script => script.entities.toList) =
        some [⟨0, ⟨#[0x61, 0, 0x62]⟩, .rawSpan⟩] := by decide +kernel
  obtain ⟨script, hscan, hentities⟩ := Scanner.exists_script hseen
  refine ⟨script, hscan, (Scanner.listing_of_scan hscan "").2.2.2 ?_⟩
  rw [hentities, List.forall_mem_singleton]
  intro hmem
  exact absurd hmem (by decide)

/-- A line feed in a raw span makes two lines of its one. -/
theorem Scanner.not_hasLinePerEntity_feed : ∃ script,
    Scanner.messages.scan ⟨#[0x61, 0x0A, 0x62]⟩ = .ok script ∧
      ¬ HasLinePerEntity script.entities.toList ((Format.listing false).render "" script) := by
  have hseen : (Scanner.messages.scan ⟨#[0x61, 0x0A, 0x62]⟩).toOption.map
      (fun script => script.entities.toList) =
        some [⟨0, ⟨#[0x61, 0x0A, 0x62]⟩, .rawSpan⟩] := by decide +kernel
  obtain ⟨script, hscan, hentities⟩ := Scanner.exists_script hseen
  refine ⟨script, hscan, ?_⟩
  rw [Listing.hasLinePerEntity_iff, hentities, List.forall_mem_singleton,
    Listing.oneLine_line_iff (by simp [Entity.instruction?])]
  intro hkeeps
  have hletter : ∀ byte : UInt8, byte ≤ 0x80 →
      Text.ShiftJis.Character [byte] (Char.ofNat byte.toNat) := fun _ => .single
  have hformed : Text.ShiftJis.WellFormed [0x61, 0x0A, 0x62] ['a', '\n', 'b'] :=
    .cons (hletter 0x61 (by decide)) (.cons (hletter 0x0A (by decide))
      (.cons (hletter 0x62 (by decide)) .nil))
  rw [← String.toList_ofList (l := ['a', '\n', 'b'])] at hformed
  have hshown := Text.ShiftJis.decodeStrict_eq_some_iff.2 hformed
  have hnone := hkeeps (by decide)
  rw [hshown] at hnone
  simp at hnone

end PacScript
