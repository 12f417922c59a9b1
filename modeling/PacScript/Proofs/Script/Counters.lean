import PacScript.Proofs.Scan.Course

/-!
# What the counters of a script count

A counter of a script is the number of its entities of one sort: the known instructions, the unknown
ones, and the known ones that are cut off. Appending an entity keeps this, whatever the entity is
(`Script.pushAll_count`).
-/

namespace PacScript

/-- True for a known instruction that is cut off. -/
def Entity.isCutOff (entity : Entity) : Bool :=
  entity.instruction?.any (·.cutOff)

namespace Script

/-- What goes up by one for each entity that passes a test, and else stays, is the number of the
entities that pass it. -/
theorem pushAll_count {count : Script → Nat} {test : Entity → Bool}
    (hpush : ∀ script entity,
      count (push script entity) = count script + if test entity then 1 else 0)
    (script : Script) (entities : List Entity) :
    count (script.pushAll entities) = count script + entities.countP test := by
  induction entities generalizing script with
  | nil => rw [pushAll_nil, List.countP_nil, Nat.add_zero]
  | cons entity entities ih =>
    rw [pushAll_cons, ih, hpush, List.countP_cons]
    omega

/-- The counter of known instructions counts them. -/
theorem instructionCount_pushAll (script : Script) (entities : List Entity) :
    (script.pushAll entities).instructionCount =
      script.instructionCount + entities.countP (·.kind == .instruction) := by
  refine @pushAll_count instructionCount _ ?_ script entities
  intro script entity
  obtain ⟨offset, raw, content⟩ := entity
  cases content <;> rfl

/-- The counter of unknown instructions counts them. -/
theorem unknownCount_pushAll (script : Script) (entities : List Entity) :
    (script.pushAll entities).unknownCount =
      script.unknownCount + entities.countP (·.kind == .unknown) := by
  refine @pushAll_count unknownCount _ ?_ script entities
  intro script entity
  obtain ⟨offset, raw, content⟩ := entity
  cases content <;> rfl

/-- The counter of cut-off instructions counts them. -/
theorem cutOffCount_pushAll (script : Script) (entities : List Entity) :
    (script.pushAll entities).cutOffCount =
      script.cutOffCount + entities.countP Entity.isCutOff := by
  refine @pushAll_count cutOffCount _ ?_ script entities
  intro script entity
  obtain ⟨offset, raw, content⟩ := entity
  cases content with
  | instruction template cutOff parameters => cases cutOff <;> rfl
  | unknown | rawSpan | padding | messageTable | jumpTable | leftOut => rfl

end Script

end PacScript
