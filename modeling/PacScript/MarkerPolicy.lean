import PacScript.Instruction.Arguments
import PacScript.Template.Registry

/-!
# Marker policies

Bytes that equal the marker occur in data too. A policy decides by the signature that would start
at a marker whether an instruction may start there at all.
-/

namespace PacScript

/-- Which signatures may start an instruction. -/
inductive MarkerPolicy where
  /-- All. -/
  | permissive
  /-- Those of a class up to the given one. -/
  | conservative (maxClass : UInt8)
  /-- Those that have a template. -/
  | knownOnly
  /-- Those that pass a test. -/
  | custom (accepts : UInt32 → Bool)

namespace MarkerPolicy

/-- The policy that accepts the classes of shipped scripts. -/
def shipped : MarkerPolicy := .conservative maxKnownClass

/-- True when an instruction may start with the signature. -/
def accepts (policy : MarkerPolicy) (registry : Registry) (signature : UInt32) : Bool :=
  match policy with
  | permissive => true
  | conservative maxClass => opcodeClass signature ≤ maxClass.toNat
  | knownOnly => registry.contains signature
  | custom test => test signature

end MarkerPolicy

end PacScript
