import PacScript.Instruction.Arguments

/-!
# Where a walk over arguments goes

No step of a walk goes back, so an instruction holds at least its signature.
-/

namespace PacScript.Arguments

/-- Alignment never goes back. -/
theorem le_alignUp (position : Nat) : position ≤ alignUp position := by
  unfold alignUp; omega

/-- A tag is never in front of where its variable is read. -/
theorem le_tagPosition (width : TagWidth) (position : Nat) :
    position ≤ tagPosition width position := by
  cases width with
  | word => exact le_alignUp position
  | half => exact Nat.le_refl _
  | compact => exact Nat.le_refl _

/-- The position that a reading leaves the walk at. -/
def Reading.position : Reading → Nat
  | .complete _ _ next => next
  | .stopped position => position

/-- Reading a word never goes back. -/
theorem le_position_fixedWord (data : ByteArray) (kind : WordKind) (position : Nat) :
    position ≤ (fixedWord data kind position).position := by
  unfold fixedWord
  split <;> simp [Reading.position]

/-- Reading a tagged variable never goes back, whether it is complete, its tag is missing, or its
value is. -/
theorem le_position_taggedVariable (data : ByteArray) (width : TagWidth) (position : Nat) :
    position ≤ (taggedVariable data width position).position := by
  have := le_tagPosition width position
  unfold taggedVariable
  dsimp only
  split
  · split
    · simp only [Reading.position]; omega
    · split <;> simp only [Reading.position] <;> omega
  · simp [Reading.position]

/-- Reading a string never goes back. -/
theorem le_position_string (data : ByteArray) (position : Nat) :
    position ≤ (string data position).position := by
  unfold string
  split <;> simp [Reading.position]

/-- Reading an identifier never goes back. -/
theorem le_position_identifier (data : ByteArray) (label : String) (skipped position : Nat) :
    position ≤ (identifier data label skipped position).position := by
  unfold identifier
  split <;> simp only [Reading.position] <;> omega

/-- Reading an element of a list never goes back. -/
theorem le_position_element (data : ByteArray) (kind : ElementKind) (position : Nat) :
    position ≤ (element data kind position).position := by
  cases kind with
  | fixed word => exact le_position_fixedWord data word position
  | tagged width => exact le_position_taggedVariable data width position

/-- A count that is found ends behind the position at which it is read. -/
theorem le_of_count? {data : ByteArray} {form : CountForm} {position next : Nat} {count : UInt32}
    (h : count? data form position = some (count, next)) : position ≤ next := by
  cases form <;> simp only [count?, Option.map_eq_some_iff, Prod.mk.injEq] at h <;>
    obtain ⟨_, _, _, rfl⟩ := h <;> omega

/-- A walk goes on where the reading that it takes ends. -/
@[simp] theorem Walk.position_take (walk : Walk) (name : String) (reading : Reading) :
    (walk.take name reading).position = reading.position := by
  cases reading <;> rfl

/-- A sequence of readings that never go back does not go back, wherever it is stopped. -/
theorem Walk.le_position_sequence {read : Nat → Reading} (hread : ∀ p, p ≤ (read p).position)
    (name : String) (remaining : Nat) (walk : Walk) (index : Nat) :
    walk.position ≤ (walk.sequence read name index remaining).position := by
  induction remaining generalizing walk index with
  | zero => exact Nat.le_refl _
  | succ remaining ih =>
    have hstep : walk.position ≤ (walk.take (elementName name index) (read walk.position)).position :=
      by simpa using hread walk.position
    simp only [Walk.sequence]
    split
    · exact hstep
    · exact Nat.le_trans hstep (ih _ _)

/-- The walk over one declared parameter never goes back. -/
theorem Walk.le_position_argument (data : ByteArray) (walk : Walk) (declaration : Declaration) :
    walk.position ≤ (walk.argument data declaration).position := by
  unfold Walk.argument
  dsimp only
  split
  · simpa using le_position_fixedWord data _ _
  · simpa using le_position_taggedVariable data _ _
  · simpa using le_position_string data _
  · split
    · simp [Reading.position]
    · rename_i count next hcount
      refine Nat.le_trans ?_ (Walk.le_position_sequence (le_position_element data _) _ _ _ _)
      simpa [Reading.position] using le_of_count? hcount
  · exact Walk.le_position_sequence (le_position_fixedWord data _) _ _ _ _
  · simpa using le_position_identifier data _ _ _
  · simpa using le_position_identifier data _ _ _
  · simpa using le_position_identifier data _ _ _

/-- The walk over all declared parameters never goes back. -/
theorem Walk.le_position_arguments (data : ByteArray) (declarations : List Declaration)
    (walk : Walk) : walk.position ≤ (walk.arguments data declarations).position := by
  induction declarations generalizing walk with
  | nil => exact Nat.le_refl _
  | cons declaration rest ih =>
    have hstep := Walk.le_position_argument data walk declaration
    simp only [Walk.arguments]
    split
    · exact hstep
    · exact Nat.le_trans hstep (ih _)

end PacScript.Arguments

namespace PacScript.Instruction

/-- What a decoded instruction is made of. -/
theorem eq_of_decode {data : ByteArray} {offset : Nat} {template : Template}
    {instruction : Instruction} (h : decode data offset template = .ok instruction) :
    instruction.offset = offset ∧ instruction.template = template ∧
      instruction.cutOff = (template.walk data offset).cutOff ∧
      instruction.raw = data.extract offset (min (template.walk data offset).position data.size) ∧
      ParameterSet.ofList (template.walk data offset).parameters.toList offset =
        .ok instruction.parameters := by
  unfold decode at h
  dsimp only at h
  split at h
  · simp at h
  · rename_i parameters hset
    obtain rfl := Except.ok.inj h
    exact ⟨rfl, rfl, rfl, rfl, hset⟩

/-- A decoded instruction is at the offset at which it has been decoded. -/
theorem offset_of_decode {data : ByteArray} {offset : Nat} {template : Template}
    {instruction : Instruction} (h : decode data offset template = .ok instruction) :
    instruction.offset = offset :=
  (eq_of_decode h).1

/-- An instruction whose signature is in the buffer takes at least the bytes of the signature. -/
theorem signatureSize_le_size_of_decode {data : ByteArray} {offset : Nat} {template : Template}
    {instruction : Instruction} (h : decode data offset template = .ok instruction)
    (hsize : offset + signatureSize ≤ data.size) : signatureSize ≤ instruction.size := by
  have hraw := (eq_of_decode h).2.2.2.1
  have hwalk : offset + signatureSize ≤ (template.walk data offset).position :=
    Arguments.Walk.le_position_arguments data template.parameters
      (Arguments.Walk.start (offset + signatureSize))
  rw [size, hraw, ByteArray.size_extract]
  omega

end PacScript.Instruction
