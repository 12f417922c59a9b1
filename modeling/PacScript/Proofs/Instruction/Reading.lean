import PacScript.Instruction.Lemmas
import PacScript.Proofs.Bytes
import PacScript.Proofs.Instruction.Layout

/-!
# Reading a part

A part that is read is complete exactly when the bytes at the position hold it
(`Part.read_eq_complete_iff`). The layout has no say in how a part is read, and this is the only
place where the two are compared: what is said of whole walks is put together from it.
-/

namespace PacScript.Arguments

open Bytes (At)

/-- Reads a part at a position. -/
def Part.read (data : ByteArray) : Part → Nat → Reading
  | .fixed word, position => fixedWord data word position
  | .tagged width, position => taggedVariable data width position
  | .string, position => Arguments.string data position
  | .count form, position =>
    match count? data form position with
    | none => .stopped position
    | some (number, next) => .complete countLabel (.int number) next
  | .identifier label skipped, position => Arguments.identifier data label skipped position

/-- An element is read as the part that it is. -/
theorem element_eq_read (data : ByteArray) (kind : ElementKind) :
    element data kind = kind.part.read data := by
  cases kind <;> rfl

/-! ## Tagged variables -/

/-- An instruction starts at a tag when the tag is the marker and a known class stands behind it. -/
theorem startsInstruction_iff {data : ByteArray} {start : Nat} {tag second : UInt8}
    (htag : data[start]? = some tag) (hsecond : data[start + 1]? = some second) :
    startsInstruction data start = true ↔ tag = 0x25 ∧ second ≤ 0x23 := by
  show _ ↔ tag = marker ∧ second ≤ maxKnownClass
  unfold startsInstruction
  rw [htag, hsecond]
  simp

/-- The tag of floats is known. -/
theorem ne_floatTag {tag : UInt8} (h : tagLabel? tag = none) : tag ≠ 0x10 := by
  rintro rfl
  simp [tagLabel?] at h

/-- The value of a half-word variable is its half word. -/
theorem taggedValue_half_iff {data : ByteArray} {position : Nat} {word : UInt32} :
    taggedValue data .half position = .ok word ↔
      ∃ a b, At data position [a, b] ∧ word = (littleHalf a b).toUInt32 := by
  unfold taggedValue
  dsimp only
  constructor
  · intro h
    cases hhalf : Bytes.halfAt data position with
    | error truncation =>
      rw [hhalf] at h
      simp [Except.map] at h
    | ok half =>
      rw [hhalf] at h
      obtain ⟨a, b, hat, rfl⟩ := Bytes.halfAt_eq_ok_iff.1 hhalf
      exact ⟨a, b, hat, (Except.ok.inj h).symm⟩
  · intro hexists
    obtain ⟨a, b, hat, rfl⟩ := hexists
    rw [Bytes.halfAt_eq_ok_iff.2 ⟨a, b, hat, rfl⟩]
    rfl

/-- The value of a variable takes up the bytes that its width says. -/
theorem size_of_taggedValue {data : ByteArray} {width : TagWidth} {position : Nat} {word : UInt32}
    (h : taggedValue data width position = .ok word) :
    position + width.valueSize ≤ data.size := by
  cases width with
  | half =>
    obtain ⟨a, b, hat, -⟩ := taggedValue_half_iff.1 h
    exact hat.cons_length_le
  | word =>
    obtain ⟨a, b, c, d, hat, -⟩ := Bytes.wordAt_eq_ok_iff.1 h
    exact hat.cons_length_le
  | compact =>
    obtain ⟨a, b, c, d, hat, -⟩ := Bytes.wordAt_eq_ok_iff.1 h
    exact hat.cons_length_le

/-- A tagged variable is complete exactly when its value exists and its tag has a label. -/
theorem taggedVariable_eq_complete_iff {data : ByteArray} {width : TagWidth}
    {position next : Nat} {label : String} {value : Value} :
    taggedVariable data width position = .complete label value next ↔
      ∃ tag second word, data[tagPosition width position]? = some tag ∧
        data[tagPosition width position + 1]? = some second ∧
        taggedValue data width (tagPosition width position + width.tagSize) = .ok word ∧
        TagLabel tag second label ∧ value = variableValue width tag word ∧
        next = tagPosition width position + width.tagSize + width.valueSize := by
  unfold taggedVariable
  dsimp only
  generalize tagPosition width position = start
  constructor
  · intro h
    split at h
    · rename_i tag word htag hvalue
      have htag' : data[start]? = some tag := (Bytes.byteAt_eq_ok_iff.1 htag).1
      have hsize := size_of_taggedValue hvalue
      -- A value has a byte at least, so that there is one behind the tag.
      have hlt : start + 1 < data.size := by
        cases width <;> simp only [TagWidth.tagSize, TagWidth.valueSize] at hsize <;> omega
      have hsecond : data[start + 1]? = some data[start + 1] :=
        getElem?_pos data (start + 1) hlt
      refine ⟨tag, _, word, htag', hsecond, hvalue, ?_⟩
      split at h
      · rename_i known hlabel
        rw [Reading.complete.injEq] at h
        obtain ⟨rfl, rfl, rfl⟩ := h
        exact ⟨.known hlabel, rfl, rfl⟩
      · rename_i hlabel
        split at h
        · simp at h
        · rename_i hstart
          rw [Reading.complete.injEq] at h
          obtain ⟨rfl, rfl, rfl⟩ := h
          rw [startsInstruction_iff htag' hsecond] at hstart
          -- The tag of floats is known, and so this value is no float.
          have hne : tag ≠ 0x10 := ne_floatTag hlabel
          exact ⟨.unknown hlabel hstart, by simp [variableValue, hne], rfl⟩
    · simp at h
  · intro hexists
    obtain ⟨tag, second, word, htag, hsecond, hvalue, hlabel, rfl, rfl⟩ := hexists
    have htag' : Bytes.byteAt data start = .ok tag := Bytes.byteAt_eq_ok_iff.2 ⟨htag, trivial⟩
    rw [htag', hvalue]
    dsimp only
    cases hlabel with
    | known hlabel =>
      rw [hlabel]
      rfl
    | unknown hlabel hstart =>
      have hne : tag ≠ 0x10 := ne_floatTag hlabel
      rw [hlabel]
      dsimp only
      rw [if_neg (by rwa [startsInstruction_iff htag hsecond])]
      simp [variableValue, hne, unknownLabel]

/-- The first multiple of four is reached by leaving out at most three bytes. -/
theorem alignUp_eq_iff {position skipped : Nat} :
    alignUp position = position + skipped ↔ skipped < 4 ∧ (position + skipped) % 4 = 0 := by
  unfold alignUp
  omega

/-- A word-wide variable is complete when its bytes stand at the position, those in front of its tag
included. -/
theorem taggedWord_iff {data : ByteArray} {position next : Nat} {label : String} {value : Value} :
    taggedVariable data .word position = .complete label value next ↔
      ∃ bytes, At data position bytes ∧ (Part.tagged .word).Holds position bytes label value ∧
        next = position + bytes.length := by
  rw [taggedVariable_eq_complete_iff]
  simp only [tagPosition, TagWidth.tagSize, TagWidth.valueSize]
  constructor
  · intro hexists
    obtain ⟨tag, second, word, htag, hsecond, hvalue, hlabel, rfl, rfl⟩ := hexists
    obtain ⟨a, b, c, d, hat, rfl⟩ := Bytes.wordAt_eq_ok_iff.1 hvalue
    have hle := le_alignUp position
    have hsize := hat.cons_length_le
    simp only [List.length_cons, List.length_nil] at hsize
    -- The bytes in front of the tag, and the last two of the tag, say nothing.
    have hskipped := Bytes.at_extract data hle (by omega)
    have hlength : (data.extract position (alignUp position)).data.toList.length =
        alignUp position - position := Bytes.length_extract (by omega)
    obtain ⟨t, u, hrest⟩ : ∃ t u, At data (alignUp position + 2) [t, u] :=
      ⟨_, _, Bytes.at_two (by omega) (by omega)⟩
    generalize (data.extract position (alignUp position)).data.toList = skipped at *
    have halign : alignUp position = position + skipped.length := by omega
    rw [halign] at htag hsecond hat hrest ⊢
    obtain ⟨hfew, haligned⟩ := alignUp_eq_iff.1 halign
    refine ⟨skipped ++ [tag, second, t, u, a, b, c, d], ?_, .taggedWord hfew haligned hlabel, ?_⟩
    · rw [Bytes.at_append]
      exact ⟨hskipped, htag, hsecond, hrest.1, hrest.2.1, hat⟩
    · rw [List.length_append, List.length_cons]
      rfl
  · intro hexists
    obtain ⟨bytes, hat, hholds, rfl⟩ := hexists
    cases hholds with
    | @taggedWord _ skipped tag second t u a b c d _ hfew haligned hlabel =>
      rw [alignUp_eq_iff.2 ⟨hfew, haligned⟩]
      rw [Bytes.at_append] at hat
      obtain ⟨-, htag, hsecond, -, -, hat⟩ := hat
      refine ⟨tag, second, _, htag, hsecond, Bytes.wordAt_eq_ok_iff.2 ⟨a, b, c, d, hat, rfl⟩,
        hlabel, rfl, ?_⟩
      rw [List.length_append]
      rfl

/-- A half-word variable is complete when its tag and its half word stand at the position. -/
theorem taggedHalf_iff {data : ByteArray} {position next : Nat} {label : String} {value : Value} :
    taggedVariable data .half position = .complete label value next ↔
      ∃ bytes, At data position bytes ∧ (Part.tagged .half).Holds position bytes label value ∧
        next = position + bytes.length := by
  rw [taggedVariable_eq_complete_iff]
  simp only [tagPosition, TagWidth.tagSize, TagWidth.valueSize]
  constructor
  · intro hexists
    obtain ⟨tag, second, word, htag, hsecond, hvalue, hlabel, rfl, rfl⟩ := hexists
    obtain ⟨a, b, hat, rfl⟩ := taggedValue_half_iff.1 hvalue
    exact ⟨[tag, second, a, b], ⟨htag, hsecond, hat⟩, .taggedHalf hlabel, rfl⟩
  · intro hexists
    obtain ⟨bytes, hat, hholds, rfl⟩ := hexists
    cases hholds with
    | @taggedHalf _ tag second a b _ hlabel =>
      obtain ⟨htag, hsecond, hat⟩ := hat
      exact ⟨tag, second, _, htag, hsecond, taggedValue_half_iff.2 ⟨a, b, hat, rfl⟩, hlabel, rfl,
        rfl⟩

/-- A compact variable is complete when its tag and its word stand at the position. -/
theorem taggedCompact_iff {data : ByteArray} {position next : Nat} {label : String}
    {value : Value} :
    taggedVariable data .compact position = .complete label value next ↔
      ∃ bytes, At data position bytes ∧ (Part.tagged .compact).Holds position bytes label value ∧
        next = position + bytes.length := by
  rw [taggedVariable_eq_complete_iff]
  simp only [tagPosition, TagWidth.tagSize, TagWidth.valueSize]
  constructor
  · intro hexists
    obtain ⟨tag, second, word, htag, hsecond, hvalue, hlabel, rfl, rfl⟩ := hexists
    obtain ⟨a, b, c, d, hat, rfl⟩ := Bytes.wordAt_eq_ok_iff.1 hvalue
    -- The byte behind the tag is the first one of the value.
    obtain rfl : second = a := Option.some.inj (hsecond.symm.trans hat.1)
    exact ⟨[tag, second, b, c, d], ⟨htag, hat⟩, .taggedCompact hlabel, rfl⟩
  · intro hexists
    obtain ⟨bytes, hat, hholds, rfl⟩ := hexists
    cases hholds with
    | @taggedCompact _ tag a b c d _ hlabel =>
      obtain ⟨htag, hat⟩ := hat
      exact ⟨tag, a, _, htag, hat.1, Bytes.wordAt_eq_ok_iff.2 ⟨a, b, c, d, hat, rfl⟩, hlabel, rfl,
        rfl⟩

/-! ## The other parts -/

/-- A word is complete when its four bytes stand at the position. -/
theorem fixedWord_iff {data : ByteArray} {kind : WordKind} {position next : Nat} {label : String}
    {value : Value} :
    fixedWord data kind position = .complete label value next ↔
      ∃ bytes, At data position bytes ∧ (Part.fixed kind).Holds position bytes label value ∧
        next = position + bytes.length := by
  unfold fixedWord
  split
  · rename_i hnone
    simp only [reduceCtorEq, false_iff]
    intro hexists
    obtain ⟨bytes, hat, hholds, -⟩ := hexists
    -- The bytes of a word would let it be read.
    have hword : ∃ word, Bytes.wordAt data position = .ok word := by
      cases hholds <;> exact ⟨_, Bytes.wordAt_eq_ok_iff.2 ⟨_, _, _, _, hat, rfl⟩⟩
    obtain ⟨word, hword⟩ := hword
    rw [hword] at hnone
    simp at hnone
  · rename_i word hword
    dsimp only
    rw [Reading.complete.injEq]
    constructor
    · intro hexists
      obtain ⟨rfl, rfl, rfl⟩ := hexists
      obtain ⟨a, b, c, d, hat, rfl⟩ := Bytes.wordAt_eq_ok_iff.1 hword
      refine ⟨[a, b, c, d], hat, ?_, rfl⟩
      cases kind with
      | integer => exact .integer
      | float => exact .float
      | jumpTarget => exact .jumpTarget
    · intro hexists
      obtain ⟨bytes, hat, hholds, rfl⟩ := hexists
      cases hholds <;>
      · rw [Bytes.wordAt_eq_ok_iff.2 ⟨_, _, _, _, hat, rfl⟩] at hword
        obtain rfl := Except.ok.inj hword
        exact ⟨rfl, rfl, rfl⟩

/-- A string is complete when a text without zero bytes and its terminator stand at the position. -/
theorem string_iff {data : ByteArray} {position next : Nat} {label : String} {value : Value} :
    string data position = .complete label value next ↔
      ∃ bytes, At data position bytes ∧ Part.string.Holds position bytes label value ∧
        next = position + bytes.length := by
  unfold string
  split
  · rename_i hnone
    simp only [reduceCtorEq, false_iff]
    intro hexists
    obtain ⟨bytes, hat, hholds, -⟩ := hexists
    cases hholds with
    | string hzero =>
      rw [Bytes.terminatedAt_eq_ok_iff.2 ⟨_, hzero, hat, rfl, rfl⟩] at hnone
      simp at hnone
  · rename_i text taken hread
    rw [Reading.complete.injEq]
    constructor
    · intro hexists
      obtain ⟨rfl, rfl, rfl⟩ := hexists
      -- The bytes of the part have the terminator, those of the text do not.
      obtain ⟨bytes, hzero, hat, rfl, rfl⟩ := Bytes.terminatedAt_eq_ok_iff.1 hread
      refine ⟨bytes ++ [0], hat, .string hzero, ?_⟩
      rw [List.length_append, List.length_singleton]
    · intro hexists
      obtain ⟨bytes, hat, hholds, rfl⟩ := hexists
      cases hholds with
      | @string _ bytes hzero =>
        rw [Bytes.terminatedAt_eq_ok_iff.2 ⟨bytes, hzero, hat, rfl, rfl⟩] at hread
        rw [Except.ok.injEq, Prod.mk.injEq] at hread
        obtain ⟨rfl, rfl⟩ := hread
        refine ⟨rfl, rfl, ?_⟩
        rw [List.length_append, List.length_singleton]

/-- An identifier is complete when the bytes of the category and a word stand at the position. -/
theorem identifier_iff {data : ByteArray} {kind : String} {skipped position next : Nat}
    {label : String} {value : Value} :
    identifier data kind skipped position = .complete label value next ↔
      ∃ bytes, At data position bytes ∧
        (Part.identifier kind skipped).Holds position bytes label value ∧
        next = position + bytes.length := by
  unfold identifier
  split
  · rename_i hnone
    simp only [reduceCtorEq, false_iff]
    intro hexists
    obtain ⟨bytes, hat, hholds, -⟩ := hexists
    cases hholds with
    | identifier hcategory =>
      rw [Bytes.at_append, hcategory] at hat
      rw [Bytes.wordAt_eq_ok_iff.2 ⟨_, _, _, _, hat.2, rfl⟩] at hnone
      simp at hnone
  · rename_i word hword
    rw [Reading.complete.injEq]
    constructor
    · intro hexists
      obtain ⟨rfl, rfl, rfl⟩ := hexists
      obtain ⟨a, b, c, d, hat, rfl⟩ := Bytes.wordAt_eq_ok_iff.1 hword
      have hsize := hat.cons_length_le
      -- The bytes of the category are whatever stands in front of the word.
      have hcategory := Bytes.at_extract data (Nat.le_add_right position skipped) (by omega)
      have hlength : (data.extract position (position + skipped)).data.toList.length =
          skipped := by
        rw [Bytes.length_extract (by omega), Nat.add_sub_cancel_left]
      generalize (data.extract position (position + skipped)).data.toList = category at *
      refine ⟨category ++ [a, b, c, d], ?_, .identifier hlength, ?_⟩
      · rw [Bytes.at_append, hlength]
        exact ⟨hcategory, hat⟩
      · rw [List.length_append, hlength]
        rfl
    · intro hexists
      obtain ⟨bytes, hat, hholds, rfl⟩ := hexists
      cases hholds with
      | identifier hcategory =>
        rw [Bytes.at_append, hcategory] at hat
        rw [Bytes.wordAt_eq_ok_iff.2 ⟨_, _, _, _, hat.2, rfl⟩] at hword
        obtain rfl := Except.ok.inj hword
        refine ⟨rfl, rfl, ?_⟩
        rw [List.length_append, hcategory]
        rfl

/-- A count is found when its bytes stand at the position, in the form that is declared. -/
theorem count?_eq_some_iff {data : ByteArray} {form : CountForm} {position next : Nat}
    {number : UInt32} :
    count? data form position = some (number, next) ↔
      ∃ bytes, At data position bytes ∧
        (Part.count form).Holds position bytes countLabel (.int number) ∧
        next = position + bytes.length := by
  cases form with
  | byte =>
    simp only [count?, Option.map_eq_some_iff, Bytes.toOption_eq_some_iff, Bytes.byteAt_eq_ok_iff,
      Prod.mk.injEq]
    constructor
    · intro h
      obtain ⟨n, hat, rfl, rfl⟩ := h
      exact ⟨[n], hat, .countByte, rfl⟩
    · intro h
      obtain ⟨bytes, hat, hholds, rfl⟩ := h
      cases hholds
      exact ⟨_, hat, rfl, rfl⟩
  | taggedWord =>
    simp only [count?, Option.map_eq_some_iff, Bytes.toOption_eq_some_iff, Bytes.wordAt_eq_ok_iff,
      Prod.mk.injEq]
    constructor
    · intro h
      obtain ⟨n, ⟨a, b, c, d, hat, rfl⟩, rfl, rfl⟩ := h
      have hsize := hat.cons_length_le
      -- The tag in front of the word is there, and is not looked at.
      have htag : data[position]? = some data[position] := getElem?_pos data position (by omega)
      exact ⟨[data[position], a, b, c, d], ⟨htag, hat⟩, .countTaggedWord, rfl⟩
    · intro h
      obtain ⟨bytes, hat, hholds, rfl⟩ := h
      cases hholds
      exact ⟨_, ⟨_, _, _, _, hat.2, rfl⟩, rfl, rfl⟩
  | word =>
    simp only [count?, Option.map_eq_some_iff, Bytes.toOption_eq_some_iff, Bytes.wordAt_eq_ok_iff,
      Prod.mk.injEq]
    constructor
    · intro h
      obtain ⟨n, ⟨a, b, c, d, hat, rfl⟩, rfl, rfl⟩ := h
      exact ⟨[a, b, c, d], hat, .countWord, rfl⟩
    · intro h
      obtain ⟨bytes, hat, hholds, rfl⟩ := h
      cases hholds
      exact ⟨_, ⟨_, _, _, _, hat, rfl⟩, rfl, rfl⟩

/-- A count holds a number under the label of counts. -/
theorem Part.Holds.eq_int {form : CountForm} {position : Nat} {bytes : List UInt8} {label : String}
    {value : Value} (h : (Part.count form).Holds position bytes label value) :
    label = countLabel ∧ ∃ number, value = .int number := by
  cases h <;> exact ⟨rfl, _, rfl⟩

/-- Reading a part is complete exactly when bytes of its layout stand at the position, and then
takes these. -/
theorem Part.read_eq_complete_iff {data : ByteArray} {part : Part} {position next : Nat}
    {label : String} {value : Value} :
    part.read data position = .complete label value next ↔
      ∃ bytes, At data position bytes ∧ part.Holds position bytes label value ∧
        next = position + bytes.length := by
  cases part with
  | fixed word => exact fixedWord_iff
  | tagged width =>
    cases width with
    | word => exact taggedWord_iff
    | half => exact taggedHalf_iff
    | compact => exact taggedCompact_iff
  | string => exact string_iff
  | identifier kind skipped => exact identifier_iff
  | count form =>
    unfold Part.read
    dsimp only
    constructor
    · intro h
      split at h
      · simp at h
      · rename_i number stop hcount
        rw [Reading.complete.injEq] at h
        obtain ⟨rfl, rfl, rfl⟩ := h
        exact count?_eq_some_iff.1 hcount
    · intro h
      obtain ⟨bytes, hat, hholds, rfl⟩ := h
      obtain ⟨rfl, number, rfl⟩ := hholds.eq_int
      rw [count?_eq_some_iff.2 ⟨bytes, hat, hholds, rfl⟩]

end PacScript.Arguments
