import PacScript.Script

/-!
# The trace of a scan

What a scan reports on its course follows from the script: each entity as it was recorded, and the
counts at the end.
-/

namespace PacScript

/-- A step of a scan that is reported. -/
inductive ScanEvent where
  /-- An entity was recorded. -/
  | recorded (offset size : Nat) (kind : EntityKind)
  /-- The scan came to the end of the buffer. -/
  | finished (size entities instructions unknown cutOff : Nat)
  deriving DecidableEq, Repr

/-- The wording of a reported step. -/
def ScanEvent.message : ScanEvent → String
  | recorded _ _ _ => "entity"
  | finished _ _ _ _ _ => "parsed PAC buffer"

/-- The report of an entity. -/
def Entity.event (entity : Entity) : ScanEvent :=
  .recorded entity.offset entity.size entity.kind

/-- The report of the end of a scan. -/
def Script.finalEvent (script : Script) : ScanEvent :=
  .finished script.size script.length script.instructionCount script.unknownCount script.cutOffCount

/-- The reports of the scan that made a script. -/
def Script.trace (script : Script) : List ScanEvent :=
  script.entities.toList.map Entity.event ++ [script.finalEvent]

end PacScript
