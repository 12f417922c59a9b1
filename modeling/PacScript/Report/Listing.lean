import PacScript.Script
import PacScript.Text.Encoding

/-!
# Listings

A listing has a line for each entity of a script: its offset and what it is. A verbose listing adds
the bytes of instructions, and a comment line before and after the entities.
-/

namespace PacScript.Listing

/-- What is added to the line of an instruction that is cut off. -/
def cutOffWarning : String := "[Warning, instruction unexpectedly ends!]"

/-- A parameter: what it is, its name and its value. -/
def parameter (parameter : Parameter) : String :=
  "\x7b" ++ parameter.label ++ "; " ++ parameter.name ++ "\x7d=" ++ parameter.value.display

/-- A comment with the bytes of an entity. -/
def bytes (verbose : Bool) (raw : ByteArray) : String :=
  if verbose then "  ; " ++ Text.hexBytes raw else ""

/-- The text of a raw span, if it is well-formed text. -/
def spanText (raw : ByteArray) : String :=
  match Encoding.shiftJis.decodeStrict raw.data.toList with
  | some text => ", shift-jis = (" ++ withoutNul text ++ ")"
  | none => ""

/-- A count with its unit. -/
def inBytes (size : Nat) : String :=
  toString size ++ " bytes"

/-- What an entity is. -/
def describe (verbose : Bool) (entity : Entity) : String :=
  let size := "size = " ++ inBytes entity.size
  match entity.content with
  | .instruction template cutOff parameters =>
    Text.hex 1 template.signature.toNat ++ ":" ++ template.name ++ "(" ++
      ", ".intercalate (parameters.ordered.map parameter) ++ ")" ++
      (if cutOff then " " ++ cutOffWarning else "") ++ bytes verbose entity.raw
  | .unknown signature =>
    Text.hex 1 signature.toNat ++ "(Unknown): size = " ++ toString entity.size ++
      bytes verbose entity.raw
  | .rawSpan => "Raw data: " ++ size ++ spanText entity.raw
  | .padding =>
    "Padding bytes: count = " ++ toString entity.size ++ ", all zeroes = " ++
      (if entity.zeroesOnly then "true" else "false") ++ ", machine word length = " ++
      toString Entity.wordLength
  | .messageTable =>
    "Message table: " ++ size ++ ", message count = " ++ toString entity.messageCount
  | .jumpTable =>
    "Jump table: " ++ size ++ ", branches count = " ++ toString entity.branches.size ++
      ", addresses: (" ++
      ", ".intercalate (entity.branches.toList.map fun branch => Text.hex 1 branch.toNat) ++ ")"
  | .leftOut instructionOffset =>
    "Potential left-out arguments: " ++ size ++ ", supposed size of the instruction at " ++
      Text.hex 8 instructionOffset ++ " = " ++ toString (entity.supposedSize instructionOffset)

/-- The line of an entity, without its end. -/
def line (verbose : Bool) (entity : Entity) : String :=
  Text.hex 8 entity.offset ++ "  " ++ describe verbose entity

/-- The line before the entities of a verbose listing. -/
def header (path : String) (script : Script) : String :=
  "; " ++ path ++ " (" ++ inBytes script.size ++ ")\n"

/-- The line behind the entities of a verbose listing. -/
def footer (script : Script) : String :=
  "; " ++ toString script.length ++ " entities, " ++ toString script.instructionCount ++
    " instructions, " ++ toString script.unknownCount ++ " unknown, " ++
    toString script.cutOffCount ++ " cut off\n"

end PacScript.Listing
