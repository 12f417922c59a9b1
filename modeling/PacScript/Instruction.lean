import PacScript.Parameter
import PacScript.Template

/-!
# Instructions

An occurrence of an opcode that has a template: where it is, the bytes that it takes, and the
parameters that were found in them.
-/

namespace PacScript

/-- The label of a plain word. -/
def WordKind.label : WordKind → String
  | integer => "uint32"
  | float => "float"
  | jumpTarget => "jump target"

/-- An occurrence of an opcode that has a template. -/
structure Instruction where
  /-- Where it starts. -/
  offset : Nat
  /-- Its bytes, from the signature to the last parameter that was found. -/
  raw : ByteArray
  /-- The template by which it was decoded. -/
  template : Template
  /-- True when decoding stopped before the last declared parameter. -/
  cutOff : Bool
  /-- The parameters that were found. -/
  parameters : ParameterSet
  deriving DecidableEq

namespace Instruction

/-- The signature. -/
def signature (instruction : Instruction) : UInt32 :=
  instruction.template.signature

/-- The name of the opcode. -/
def name (instruction : Instruction) : String :=
  instruction.template.name

/-- How many bytes the instruction takes. -/
def size (instruction : Instruction) : Nat :=
  instruction.raw.size

/-- The word of a parameter that is labelled as a jump target. -/
def jumpTarget? (parameter : Parameter) : Option UInt32 :=
  match parameter.value with
  | .int target => if parameter.label = WordKind.jumpTarget.label then some target else none
  | _ => none

/-- The jump targets among the parameters, in order. -/
def jumpTargets (instruction : Instruction) : List UInt32 :=
  instruction.parameters.ordered.filterMap jumpTarget?

end Instruction

end PacScript
