import PacScript.Proofs.Instruction.CutOff
import PacScript.Proofs.Instruction.Suffix

/-!
# Accesses to the buffer

Reading a part gives a result wherever the part is read, and so does not show which bytes were asked
for. Here each part is read once more, with an *access* for every byte or range of bytes that is
taken from the buffer; an access out of range is `none`, and nothing goes on behind it. What is
looked at before an access is what the reading looks at: whether the end of a word is in the buffer,
whether a tagged variable as a whole is, where a text ends. This is always enough
(`Part.access?_eq`): no part makes an access out of range, at a position inside the buffer or
outside, and what the accesses give is the reading.
-/

namespace PacScript

namespace Bytes

/-- Access to the bytes from `start` up to `stop`. -/
def range? (data : ByteArray) (start stop : Nat) : Option ByteArray :=
  if start ≤ stop ∧ stop ≤ data.size then some (data.extract start stop) else none

/-- A range of the buffer can be accessed. -/
theorem range?_eq {data : ByteArray} {start stop : Nat} (h : start ≤ stop)
    (hstop : stop ≤ data.size) : range? data start stop = some (data.extract start stop) :=
  if_pos ⟨h, hstop⟩

/-- A number of `length` bytes at `offset`, for which `read?` accesses the bytes one by one. The
range is accessed when it ends in the buffer, and refused else. -/
def number? {α : Type} (data : ByteArray) (offset length : Nat)
    (read? : ByteArray → Option α) : Option (Option α) :=
  if offset + length ≤ data.size then
    (range? data offset (offset + length)).bind fun bytes => (read? bytes).map some
  else
    some none

/-- Access to the byte of a range of one. -/
def byteOf? (bytes : ByteArray) : Option UInt8 := bytes[0]?

/-- Access to the bytes of a half word. -/
def halfOf? (bytes : ByteArray) : Option UInt16 := do
  return littleHalf (← bytes[0]?) (← bytes[1]?)

/-- Access to the bytes of a word. -/
def wordOf? (bytes : ByteArray) : Option UInt32 := do
  return littleWord (← bytes[0]?) (← bytes[1]?) (← bytes[2]?) (← bytes[3]?)

variable {data : ByteArray} {offset : Nat}

/-- Access to a byte of a range that is in the buffer. -/
theorem getElem?_extract {length i : Nat} (hi : i < length) (h : offset + length ≤ data.size) :
    (data.extract offset (offset + length))[i]? = some data[offset + i] := by
  rw [getElem?_extract_iff]
  exact ⟨by omega, getElem?_pos data (offset + i) (by omega)⟩

/-- A byte is found as the decoder reads it. -/
theorem number?_byteOf : number? data offset 1 byteOf? = some (byteAt data offset).toOption := by
  unfold number? byteAt
  split
  · rename_i h
    rw [range?_eq (Nat.le_add_right _ _) h, Option.bind_some, byteOf?,
      getElem?_extract Nat.zero_lt_one h]
    rfl
  · rfl

/-- A half word is found as the decoder reads it. -/
theorem number?_halfOf : number? data offset 2 halfOf? = some (halfAt data offset).toOption := by
  unfold number? halfAt
  split
  · rename_i h
    rw [range?_eq (Nat.le_add_right _ _) h, Option.bind_some, halfOf?,
      getElem?_extract Nat.two_pos h, getElem?_extract Nat.one_lt_two h]
    rfl
  · rfl

/-- A word is found as the decoder reads it. -/
theorem number?_wordOf : number? data offset 4 wordOf? = some (wordAt data offset).toOption := by
  unfold number? wordAt
  split
  · rename_i h
    rw [range?_eq (Nat.le_add_right _ _) h, Option.bind_some, wordOf?,
      getElem?_extract (by decide) h, getElem?_extract (by decide) h,
      getElem?_extract (by decide) h, getElem?_extract (by decide) h]
    rfl
  · rfl

end Bytes

namespace Arguments

open Bytes (range? number? byteOf? halfOf? wordOf?)

/-- The accesses of a plain word. -/
def accessWord? (data : ByteArray) (kind : WordKind) (position : Nat) : Option Reading :=
  (number? data position 4 wordOf?).map fun
    | none => .stopped position
    | some word =>
      let value := match kind with
        | .float => .float word
        | .integer | .jumpTarget => .int word
      .complete kind.label value (position + 4)

/-- The accesses of the value of a tagged variable. -/
def accessValue? (data : ByteArray) (width : TagWidth) (position : Nat) :
    Option (Option UInt32) :=
  match width with
  | .half => (number? data position 2 halfOf?).map (·.map UInt16.toUInt32)
  | .word | .compact => number? data position 4 wordOf?

/-- The accesses of a tagged variable that ends in the buffer: to its tag, for an unknown tag to all
bytes from the tag on, and to the value. -/
def accessTagged? (data : ByteArray) (width : TagWidth) (position : Nat) : Option Reading :=
  let start := tagPosition width position
  let valueStart := start + width.tagSize
  let stop := valueStart + width.valueSize
  if data.size < stop then some (.stopped position)
  else
    data[start]?.bind fun tag =>
      let valueOf label := (accessValue? data width valueStart).map fun
        | none => .stopped position
        | some word => .complete label (variableValue width tag word) stop
      match tagLabel? tag with
      | some label => valueOf label
      | none =>
        (range? data start data.size).bind fun rest =>
          if startsInstruction rest 0 then some (.stopped start) else valueOf unknownLabel

/-- The accesses of a string: to the bytes from its start to its terminator. -/
def accessString? (data : ByteArray) (position : Nat) : Option Reading :=
  match Bytes.terminator? data position with
  | none => some (.stopped position)
  | some stop =>
    (range? data position (stop + 1)).map fun bytes =>
      .complete stringLabel
        (.text (withoutNul (Encoding.shiftJis.decode bytes.data.toList)))
        (position + (stop + 1 - position))

/-- The accesses of a count. -/
def accessCount? (data : ByteArray) (form : CountForm) (position : Nat) :
    Option (Option (UInt32 × Nat)) :=
  match form with
  | .byte => (number? data position 1 byteOf?).map (·.map fun n => (n.toUInt32, position + 1))
  | .taggedWord => (number? data (position + 1) 4 wordOf?).map (·.map fun n => (n, position + 5))
  | .word => (number? data position 4 wordOf?).map (·.map fun n => (n, position + 4))

/-- The accesses of an identifier. -/
def accessIdentifier? (data : ByteArray) (label : String) (skipped position : Nat) :
    Option Reading :=
  (number? data (position + skipped) 4 wordOf?).map fun
    | none => .stopped position
    | some word => .complete label (.int word) (position + skipped + 4)

/-- The accesses of a part. -/
def Part.access? (data : ByteArray) : Part → Nat → Option Reading
  | .fixed word, position => accessWord? data word position
  | .tagged width, position => accessTagged? data width position
  | .string, position => accessString? data position
  | .count form, position => (accessCount? data form position).map fun
    | none => .stopped position
    | some (number, next) => .complete countLabel (.int number) next
  | .identifier label skipped, position => accessIdentifier? data label skipped position

variable {data : ByteArray} {position : Nat}

/-- The accesses of a word stay in the buffer and make the reading of the decoder. -/
theorem accessWord?_eq (kind : WordKind) :
    accessWord? data kind position = some (fixedWord data kind position) := by
  unfold accessWord? fixedWord
  rw [Bytes.number?_wordOf]
  cases Bytes.wordAt data position <;> rfl

/-- The accesses of a value stay in the buffer and make what the decoder reads, if it reads one. -/
theorem accessValue?_eq (width : TagWidth) :
    accessValue? data width position = some (taggedValue data width position).toOption := by
  cases width with
  | half =>
    unfold accessValue? taggedValue
    dsimp only
    rw [Bytes.number?_halfOf]
    cases Bytes.halfAt data position <;> rfl
  | word => exact Bytes.number?_wordOf
  | compact => exact Bytes.number?_wordOf

/-- A variable whose value does not end in the buffer is not looked at. -/
theorem taggedVariable_of_size_lt {width : TagWidth}
    (h : data.size < tagPosition width position + width.tagSize + width.valueSize) :
    taggedVariable data width position = .stopped position := by
  unfold taggedVariable
  dsimp only
  split
  · rename_i tag word htag hvalue
    exact absurd (size_of_taggedValue hvalue) (Nat.not_le.2 h)
  · rfl

/-- The accesses of a tagged variable stay in the buffer, its tag and the byte behind it included.
-/
theorem accessTagged?_eq (width : TagWidth) :
    accessTagged? data width position = some (taggedVariable data width position) := by
  unfold accessTagged?
  dsimp only
  split
  · rename_i hsize
    rw [taggedVariable_of_size_lt hsize]
  · rename_i hsize
    have hle := Nat.not_lt.1 hsize
    have hstart : tagPosition width position < data.size := by
      cases width <;> simp only [TagWidth.tagSize, TagWidth.valueSize] at hle <;> omega
    obtain ⟨word, hword⟩ := exists_taggedValue hle
    have htag := getElem?_pos data (tagPosition width position) hstart
    have hbyte := Bytes.byteAt_eq_ok_iff.2 (⟨htag, trivial⟩ : Bytes.At data _ [_])
    unfold taggedVariable
    simp only [htag, hbyte, accessValue?_eq, hword, Option.bind_some, Option.map_some,
      Except.toOption]
    cases hlabel : tagLabel? data[tagPosition width position] with
    | some label => rfl
    | none =>
      -- An unknown tag is looked at together with the bytes behind it.
      have hvalue : variableValue width data[tagPosition width position] word = .int word := by
        simp [variableValue, ne_floatTag hlabel]
      have hstarts : startsInstruction (data.extract (tagPosition width position) data.size) 0 =
          startsInstruction data (tagPosition width position) :=
        (startsInstruction_suffix data (tagPosition width position) 0).symm
      dsimp only
      rw [Bytes.range?_eq (Nat.le_of_lt hstart) (Nat.le_refl _), Option.bind_some, hstarts, hvalue]
      split <;> rfl

/-- The accesses of a string stay in the buffer, whether it has an end or not. -/
theorem accessString?_eq : accessString? data position = some (string data position) := by
  unfold accessString? string Bytes.terminatedAt
  cases hstop : Bytes.terminator? data position with
  | none => rfl
  | some stop =>
    obtain ⟨hle, hlt, -⟩ := Search.first_eq_some hstop
    dsimp only
    rw [Bytes.range?_eq (Nat.le_succ_of_le hle) hlt]
    rfl

/-- The accesses of a count stay in the buffer. -/
theorem accessCount?_eq (form : CountForm) :
    accessCount? data form position = some (count? data form position) := by
  cases form with
  | byte => rw [accessCount?, Bytes.number?_byteOf]; rfl
  | taggedWord => rw [accessCount?, Bytes.number?_wordOf]; rfl
  | word => rw [accessCount?, Bytes.number?_wordOf]; rfl

/-- The accesses of an identifier stay in the buffer. -/
theorem accessIdentifier?_eq (label : String) (skipped : Nat) :
    accessIdentifier? data label skipped position =
      some (identifier data label skipped position) := by
  unfold accessIdentifier? identifier
  rw [Bytes.number?_wordOf]
  cases Bytes.wordAt data (position + skipped) <;> rfl

/-- No part makes an access out of range, and its accesses give what is read. -/
theorem Part.access?_eq (part : Part) :
    part.access? data position = some (part.read data position) := by
  cases part with
  | fixed word => exact accessWord?_eq word
  | tagged width => exact accessTagged?_eq width
  | string => exact accessString?_eq
  | count form =>
    show (accessCount? data form position).map _ = _
    rw [accessCount?_eq]
    rfl
  | identifier label skipped => exact accessIdentifier?_eq label skipped

end Arguments

end PacScript
