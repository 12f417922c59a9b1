import PacScript.Instruction.Lemmas
import PacScript.Proofs.Bytes.Cuts
import PacScript.Proofs.Parameter

/-!
# Decoding in a suffix

Where an instruction is decoded matters modulo four only: the tag of a word-wide variable stands on a
word boundary, and nothing else depends on the position. So an instruction in the suffix of a buffer
that starts on a word boundary is the instruction of the whole buffer that is as much further on,
decoded from the same bytes (`Instruction.decode_suffix`).

The proof follows the walk over the arguments. Each reading in the buffer is that of the suffix,
*moved* by the length of what was cut off (`taggedVariable_suffix` and its siblings), and a walk
takes a moved reading as it takes the other one (`Walk.take_moved`), so that the two walks stay as
far apart as they are at their start (`Walk.arguments_suffix`).
-/

namespace PacScript.Arguments

open Bytes (suffix)

/-- The outcome of a reading that is `distance` further on. -/
def Reading.moved (distance : Nat) : Reading → Reading
  | .complete label value next => .complete label value (distance + next)
  | .stopped position => .stopped (distance + position)

/-- The walk that is `distance` further on. -/
def Walk.moved (distance : Nat) (walk : Walk) : Walk :=
  { walk with position := distance + walk.position }

section

variable {data : ByteArray} {start : Nat}

/-! ## Readings -/

/-- A word is read in the suffix as in the buffer. -/
theorem fixedWord_suffix (data : ByteArray) (start : Nat) (kind : WordKind) (position : Nat) :
    fixedWord data kind (start + position) =
      (fixedWord (suffix data start) kind position).moved start := by
  unfold fixedWord
  rw [Bytes.wordAt_suffix]
  cases Bytes.wordAt (suffix data start) position with
  | error truncation => rfl
  | ok word => cases kind <;> rfl

/-- The first word boundary is as much further on when whole words are in between. -/
theorem alignUp_add (haligned : start % 4 = 0) (position : Nat) :
    alignUp (start + position) = start + alignUp position := by
  unfold alignUp
  omega

/-- The tag of a variable is moved with its place, since the distance keeps the alignment. -/
theorem tagPosition_add (haligned : start % 4 = 0) (width : TagWidth) (position : Nat) :
    tagPosition width (start + position) = start + tagPosition width position := by
  cases width with
  | word => exact alignUp_add haligned position
  | half => rfl
  | compact => rfl

/-- An instruction starts in the suffix where it does in the buffer. -/
theorem startsInstruction_suffix (data : ByteArray) (start position : Nat) :
    startsInstruction data (start + position) =
      startsInstruction (suffix data start) position := by
  unfold startsInstruction
  rw [Bytes.getElem?_suffix, Bytes.getElem?_suffix, Nat.add_assoc]

/-- The value of a variable is read in the suffix as in the buffer. -/
theorem taggedValue_suffix (data : ByteArray) (start : Nat) (width : TagWidth) (position : Nat) :
    taggedValue data width (start + position) =
      (taggedValue (suffix data start) width position).mapError (·.moved start) := by
  cases width with
  | word => exact Bytes.wordAt_suffix data start position
  | compact => exact Bytes.wordAt_suffix data start position
  | half =>
    unfold taggedValue
    dsimp only
    rw [Bytes.halfAt_suffix]
    cases Bytes.halfAt (suffix data start) position <;> rfl

/-- A tagged variable is read in the suffix as in the buffer. -/
theorem taggedVariable_suffix (haligned : start % 4 = 0) (width : TagWidth) (position : Nat) :
    taggedVariable data width (start + position) =
      (taggedVariable (suffix data start) width position).moved start := by
  unfold taggedVariable
  dsimp only
  rw [tagPosition_add haligned, Nat.add_assoc start, Bytes.byteAt_suffix, taggedValue_suffix,
    startsInstruction_suffix, Nat.add_assoc start]
  generalize tagPosition width position = place
  -- The tag and the value are read in both or in neither, and then all turns on the tag.
  cases Bytes.byteAt (suffix data start) place with
  | error truncation => rfl
  | ok tag =>
    cases taggedValue (suffix data start) width (place + width.tagSize) with
    | error truncation => rfl
    | ok word =>
      dsimp only [Bytes.mapError_ok]
      cases tagLabel? tag with
      | some label => rfl
      | none => cases startsInstruction (suffix data start) place <;> rfl

/-- A string is read in the suffix as in the buffer. -/
theorem string_suffix (hstart : start ≤ data.size) (position : Nat) :
    string data (start + position) = (string (suffix data start) position).moved start := by
  unfold string
  rw [Bytes.terminatedAt_suffix hstart]
  cases Bytes.terminatedAt (suffix data start) position .shiftJis with
  | error truncation => rfl
  | ok found =>
    obtain ⟨text, taken⟩ := found
    dsimp only [Bytes.mapError_ok, Reading.moved]
    rw [Nat.add_assoc]

/-- An identifier is read in the suffix as in the buffer. -/
theorem identifier_suffix (data : ByteArray) (start : Nat) (label : String)
    (skipped position : Nat) :
    identifier data label skipped (start + position) =
      (identifier (suffix data start) label skipped position).moved start := by
  unfold identifier
  rw [Nat.add_assoc, Bytes.wordAt_suffix]
  cases Bytes.wordAt (suffix data start) (position + skipped) with
  | error truncation => rfl
  | ok word => rfl

/-- The count of a counted parameter is the same, and the elements are as much further on. -/
theorem count?_suffix (data : ByteArray) (start : Nat) (form : CountForm) (position : Nat) :
    count? data form (start + position) =
      (count? (suffix data start) form position).map fun (count, next) => (count, start + next) := by
  cases form with
  | byte =>
    simp only [count?, Bytes.byteAt_suffix]
    cases Bytes.byteAt (suffix data start) position <;> rfl
  | taggedWord =>
    simp only [count?, Nat.add_assoc, Bytes.wordAt_suffix data start]
    cases Bytes.wordAt (suffix data start) (position + 1) <;> rfl
  | word =>
    simp only [count?, Bytes.wordAt_suffix]
    cases Bytes.wordAt (suffix data start) position <;> rfl

/-- An element is read in the suffix as in the buffer. -/
theorem element_suffix (haligned : start % 4 = 0) (kind : ElementKind) (position : Nat) :
    element data kind (start + position) =
      (element (suffix data start) kind position).moved start := by
  cases kind with
  | fixed word => exact fixedWord_suffix data start word position
  | tagged width => exact taggedVariable_suffix haligned width position

/-! ## Walks -/

/-- A moved walk takes a moved reading as the walk takes the reading. -/
theorem Walk.take_moved (distance : Nat) (walk : Walk) (name : String) (reading : Reading) :
    (walk.moved distance).take name (reading.moved distance) =
      (walk.take name reading).moved distance := by
  cases reading <;> rfl

/-- A walk over a sequence stays as much further on. -/
theorem Walk.sequence_moved {distance : Nat} {far near : Nat → Reading}
    (hread : ∀ position, far (distance + position) = (near position).moved distance)
    (name : String) (remaining : Nat) (walk : Walk) (index : Nat) :
    (walk.moved distance).sequence far name index remaining =
      (walk.sequence near name index remaining).moved distance := by
  induction remaining generalizing walk index with
  | zero => rfl
  | succ remaining ih =>
    have hposition : (walk.moved distance).position = distance + walk.position := rfl
    have hcutOff : ∀ walk : Walk, (walk.moved distance).cutOff = walk.cutOff := fun _ => rfl
    simp only [sequence, hposition, hread, take_moved, hcutOff, ih]
    split <;> rfl

/-- A walk over the argument of a parameter stays as much further on. -/
theorem Walk.argument_suffix (hstart : start ≤ data.size) (haligned : start % 4 = 0) (walk : Walk)
    (declaration : Declaration) :
    (walk.moved start).argument data declaration =
      (walk.argument (suffix data start) declaration).moved start := by
  have hposition : (walk.moved start).position = start + walk.position := rfl
  obtain ⟨kind, name⟩ := declaration
  cases kind with
  | fixed word =>
    simp only [argument, hposition, fixedWord_suffix, take_moved]
  | tagged width =>
    simp only [argument, hposition, taggedVariable_suffix haligned, take_moved]
  | string =>
    simp only [argument, hposition, string_suffix hstart, take_moved]
  | counted form kind =>
    simp only [argument, hposition, count?_suffix]
    cases count? (suffix data start) form walk.position with
    | none => rfl
    | some found =>
      obtain ⟨count, next⟩ := found
      -- The walk behind the count has moved too, and so the elements are read further on.
      have hcounted := take_moved start walk name (.complete countLabel (.int count) next)
      simp only [Reading.moved] at hcounted
      simp only [Option.map_some, hcounted]
      exact sequence_moved (element_suffix haligned kind) name _ _ _
  | continuous =>
    have hwords : data.size - (start + walk.position) =
        (suffix data start).size - walk.position := by
      rw [Bytes.size_suffix]
      omega
    simp only [argument, hposition, hwords]
    exact sequence_moved (fixedWord_suffix data start .integer) name _ _ _
  | entityId | equipId | keybindId =>
    simp only [argument, hposition, identifier_suffix, take_moved]

/-- A walk over arguments stays as much further on. -/
theorem Walk.arguments_suffix (hstart : start ≤ data.size) (haligned : start % 4 = 0)
    (declarations : List Declaration) (walk : Walk) :
    (walk.moved start).arguments data declarations =
      (walk.arguments (suffix data start) declarations).moved start := by
  induction declarations generalizing walk with
  | nil => rfl
  | cons declaration declarations ih =>
    have hcutOff : ∀ walk : Walk, (walk.moved start).cutOff = walk.cutOff := fun _ => rfl
    simp only [arguments, argument_suffix hstart haligned, hcutOff, ih]
    split <;> rfl

end

end PacScript.Arguments

namespace PacScript

open Bytes (suffix)

/-- The walk over an occurrence in the suffix, as much further on. -/
theorem Template.walk_suffix {data : ByteArray} {start : Nat} (hstart : start ≤ data.size)
    (haligned : start % 4 = 0) (template : Template) (offset : Nat) :
    template.walk data (start + offset) =
      (template.walk (suffix data start) offset).moved start :=
  Arguments.Walk.arguments_suffix hstart haligned template.parameters
    (.start (offset + signatureSize))

/-- The instruction that is `distance` further on. -/
def Instruction.moved (distance : Nat) (instruction : Instruction) : Instruction :=
  { instruction with offset := distance + instruction.offset }

/-- What is decoded in a buffer is decoded in its suffix from a word boundary on. -/
theorem Instruction.decode_suffix {data : ByteArray} {start : Nat} (hstart : start ≤ data.size)
    (haligned : start % 4 = 0) {template : Template} {offset : Nat} {instruction : Instruction}
    (h : decode data (start + offset) template = .ok instruction) :
    ∃ other, decode (suffix data start) offset template = .ok other ∧
      instruction = other.moved start := by
  obtain ⟨hoffset, htemplate, hcutOff, hraw, hset⟩ := eq_of_decode h
  rw [Template.walk_suffix hstart haligned] at hcutOff hraw hset
  generalize hwalk : template.walk (suffix data start) offset = walk at hcutOff hraw hset
  have hbytes : (suffix data start).extract offset (min walk.position (suffix data start).size) =
      instruction.raw := by
    rw [hraw, Bytes.extract_min, Bytes.extract_min, Bytes.extract_suffix]
    rfl
  -- The set does not depend on the offset, which only a failure would name.
  have hparameters : ParameterSet.ofList walk.parameters.toList offset =
      .ok instruction.parameters :=
    ParameterSet.ofList_of_ordered (ParameterSet.ordered_of_ofList hset) offset
  refine ⟨⟨offset, instruction.raw, template, instruction.cutOff, instruction.parameters⟩, ?_, ?_⟩
  · unfold decode
    dsimp only
    rw [hwalk, hparameters, hbytes, hcutOff]
    rfl
  · rw [moved, ← hoffset, ← htemplate]

end PacScript
