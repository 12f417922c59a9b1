/-!
# Events

What the library has to report besides its results: oddities of a definition text that are
tolerated, and the course of a scan.
-/

namespace PacScript

/-- An oddity of a definition row that does not keep it from declaring a template. -/
inductive Notice where
  /-- The size is not a hexadecimal word and is left out. -/
  | rawSize (line : Nat) (field : String)
  /-- The row has another number of parameters than it says; those present count. -/
  | parameterCount (line declared found : Nat)
  /-- The number of parameters is not a number. -/
  | parameterCountUnreadable (line : Nat) (field : String)
  deriving DecidableEq, Repr

/-- The wording of a notice. -/
def Notice.message : Notice → String
  | rawSize _ _ => "ignoring unparseable raw size"
  | parameterCount _ _ _ => "parameter count mismatch, using the pairs present"
  | parameterCountUnreadable _ _ => "ignoring unparseable parameter count"

end PacScript
