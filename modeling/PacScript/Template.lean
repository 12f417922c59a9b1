import PacScript.Template.Kind

/-!
# Instruction templates

A template declares one opcode: its signature, its names, and the parameters that its occurrences
may carry. An occurrence may stop before the last declared parameter, so a template is an upper
bound of what is found.
-/

namespace PacScript

/-- The class of an opcode: the second byte of its signature. -/
def opcodeClass (signature : UInt32) : Nat :=
  signature.toNat / 0x10000 % 0x100

/-- The index of an opcode in its class: the last two bytes of its signature. -/
def opcodeIndex (signature : UInt32) : Nat :=
  signature.toNat % 0x10000

/-- A declared parameter. -/
structure Declaration where
  /-- Its layout. -/
  kind : Kind
  /-- Its name. -/
  name : String
  deriving DecidableEq, Repr

/-- The declaration of an opcode. -/
structure Template where
  /-- The signature, as a word read most significant byte first. -/
  signature : UInt32
  /-- The short name. -/
  name : String
  /-- The long name. -/
  extendedName : String := ""
  /-- A description. -/
  description : String := ""
  /-- The size that the definition gives, where it is a number. -/
  rawSize : Option UInt32 := none
  /-- The address of the opcode's handler. -/
  address : UInt32 := 0
  /-- The parameters in order. -/
  parameters : List Declaration := []
  deriving DecidableEq, Repr

/-- True when the last declared parameter is a string. Such an instruction may be followed by
padding. -/
def Template.endsWithString (template : Template) : Bool :=
  template.parameters.getLast?.any (·.kind == .string)

end PacScript
