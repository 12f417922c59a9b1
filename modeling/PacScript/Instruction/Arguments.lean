import PacScript.Instruction
import PacScript.Text.Encoding

/-!
# The arguments of an instruction

The arguments stand behind the signature, one for each declared parameter, in order. Decoding walks
over them by *units*: a word, a tagged variable, a string, a count or an identifier. A unit is read
at the position of the walk and either gives a parameter and the position behind it, or stops the
walk, because its bytes do not all exist or because its tag is the start of the next instruction.
A walk that is stopped leaves the instruction cut off, with the parameters found so far; it is no
failure. The only failure is a second parameter with the label and name of an earlier one.
-/

namespace PacScript

/-- The first byte of every signature. -/
def marker : UInt8 := 0x25

/-- The highest class of an opcode in shipped scripts. -/
def maxKnownClass : UInt8 := 0x23

/-- True when an instruction may start at the position: a marker with a known class behind it. -/
def startsInstruction (data : ByteArray) (position : Nat) : Bool :=
  data[position]? == some marker && data[position + 1]?.any (· ≤ maxKnownClass)

namespace Arguments

/-- The outcome of reading a unit. -/
inductive Reading where
  /-- The unit is complete: what it is, its value, and the position behind it. -/
  | complete (label : String) (value : Value) (next : Nat)
  /-- The walk stops at the position. -/
  | stopped (position : Nat)

/-- The label of a count. -/
def countLabel : String := "count"

/-- The label of a string. -/
def stringLabel : String := "string"

/-- The label of a tagged variable whose tag is not known. -/
def unknownLabel : String := "Unknown"

/-- The tag of a float. -/
def floatTag : UInt8 := 0x10

/-- The label that a known tag gives a variable. -/
def tagLabel? (tag : UInt8) : Option String :=
  match tag with
  | 0x40 => some "0x40 variable"
  | 0x20 => some "0x20 variable"
  | 0x10 => some "float"
  | 0x08 => some "0x8 variable"
  | 0x04 => some "0x4 variable"
  | 0x02 => some "uint32"
  | 0x01 => some "0x1 value"
  | _ => none

/-- The first multiple of four at or after a position. -/
def alignUp (position : Nat) : Nat :=
  (position + 3) / 4 * 4

/-- Where the tag of a variable stands that is read at the position. -/
def tagPosition : TagWidth → Nat → Nat
  | .word, position => alignUp position
  | _, position => position

/-- A plain word. -/
def fixedWord (data : ByteArray) (kind : WordKind) (position : Nat) : Reading :=
  match Bytes.wordAt data position with
  | .error _ => .stopped position
  | .ok word =>
    let value := match kind with
      | .float => .float word
      | .integer | .jumpTarget => .int word
    .complete kind.label value (position + 4)

/-- The value of a tagged variable, which stands behind the tag. -/
def taggedValue (data : ByteArray) (width : TagWidth) (position : Nat) : Except Truncation UInt32 :=
  match width with
  | .half => (Bytes.halfAt data position).map UInt16.toUInt32
  | .word | .compact => Bytes.wordAt data position

/-- A tagged variable. Its bytes have to exist before its tag is looked at. An unknown tag at which
an instruction may start stops the walk there. -/
def taggedVariable (data : ByteArray) (width : TagWidth) (position : Nat) : Reading :=
  let start := tagPosition width position
  let valueStart := start + width.tagSize
  match Bytes.byteAt data start, taggedValue data width valueStart with
  | .ok tag, .ok word =>
    match tagLabel? tag with
    | some label =>
      let value := if tag = floatTag ∧ width ≠ .half then .float word else .int word
      .complete label value (valueStart + width.valueSize)
    | none =>
      if startsInstruction data start then .stopped start
      else .complete unknownLabel (.int word) (valueStart + width.valueSize)
  | _, _ => .stopped position

/-- A string up to a zero byte. -/
def string (data : ByteArray) (position : Nat) : Reading :=
  match Bytes.terminatedAt data position .shiftJis with
  | .error _ => .stopped position
  | .ok (text, taken) => .complete stringLabel (.text text) (position + taken)

/-- The number of elements of a counted parameter, and the position behind it. -/
def count? (data : ByteArray) (form : CountForm) (position : Nat) : Option (UInt32 × Nat) :=
  match form with
  | .byte => (Bytes.byteAt data position).toOption.map fun n => (n.toUInt32, position + 1)
  | .taggedWord => (Bytes.wordAt data (position + 1)).toOption.map fun n => (n, position + 5)
  | .word => (Bytes.wordAt data position).toOption.map fun n => (n, position + 4)

/-- An identifier, behind `skipped` bytes that say of which category it is. -/
def identifier (data : ByteArray) (label : String) (skipped position : Nat) : Reading :=
  match Bytes.wordAt data (position + skipped) with
  | .error _ => .stopped position
  | .ok word => .complete label (.int word) (position + skipped + 4)

/-- An element of a counted parameter. -/
def element (data : ByteArray) (kind : ElementKind) (position : Nat) : Reading :=
  match kind with
  | .fixed word => fixedWord data word position
  | .tagged width => taggedVariable data width position

/-- The name of an element of a sequence. -/
def elementName (name : String) (index : Nat) : String :=
  name ++ "[" ++ toString index ++ "]"

/-- A walk over arguments. -/
structure Walk where
  /-- Where the walk stands. -/
  position : Nat
  /-- The parameters found so far. -/
  parameters : Array Parameter
  /-- True once the walk was stopped. -/
  cutOff : Bool

/-- The walk that has found nothing yet. -/
def Walk.start (position : Nat) : Walk :=
  ⟨position, #[], false⟩

/-- Takes a unit of the given name into the walk. -/
def Walk.take (walk : Walk) (name : String) : Reading → Walk
  | .complete label value next =>
    { walk with position := next, parameters := walk.parameters.push ⟨label, name, value⟩ }
  | .stopped position => { walk with position, cutOff := true }

/-- Walks over `remaining` units of a sequence, the first of which has the given index. -/
def Walk.sequence (read : Nat → Reading) (name : String) (walk : Walk) (index : Nat) :
    Nat → Walk
  | 0 => walk
  | remaining + 1 =>
    let next := walk.take (elementName name index) (read walk.position)
    if next.cutOff then next else next.sequence read name (index + 1) remaining

/-- Walks over the argument of a declared parameter. -/
def Walk.argument (data : ByteArray) (walk : Walk) (declaration : Declaration) : Walk :=
  let name := declaration.name
  match declaration.kind with
  | .fixed word => walk.take name (fixedWord data word walk.position)
  | .tagged width => walk.take name (taggedVariable data width walk.position)
  | .string => walk.take name (string data walk.position)
  | .counted form kind =>
    match count? data form walk.position with
    | none => walk.take name (.stopped walk.position)
    | some (count, next) =>
      (walk.take name (.complete countLabel (.int count) next)).sequence (element data kind) name 0
        count.toNat
  | .continuous =>
    walk.sequence (fixedWord data .integer) name 0 ((data.size - walk.position) / 4)
  | .entityId => walk.take name (identifier data "entity id" 4 walk.position)
  | .equipId => walk.take name (identifier data "equip id" 4 walk.position)
  | .keybindId => walk.take name (identifier data "keybind id" 0 walk.position)

/-- Walks over the arguments of the declared parameters, up to the first one at which the walk is
stopped. -/
def Walk.arguments (data : ByteArray) (walk : Walk) : List Declaration → Walk
  | [] => walk
  | declaration :: rest =>
    let next := walk.argument data declaration
    if next.cutOff then next else next.arguments data rest

end Arguments

/-- How many bytes a signature takes. -/
def signatureSize : Nat := 4

/-- The walk over the arguments of an occurrence of a template's opcode. -/
def Template.walk (template : Template) (data : ByteArray) (offset : Nat) : Arguments.Walk :=
  (Arguments.Walk.start (offset + signatureSize)).arguments data template.parameters

/-- Decodes the occurrence of a template's opcode at an offset. -/
def Instruction.decode (data : ByteArray) (offset : Nat) (template : Template) :
    Except Failure Instruction :=
  let walk := template.walk data offset
  match ParameterSet.ofList walk.parameters.toList offset with
  | .error failure => .error failure
  | .ok parameters =>
    .ok {
      offset, template, parameters
      raw := data.extract offset (min walk.position data.size)
      cutOff := walk.cutOff }

end PacScript
