import PacScript.Bytes.Words
import PacScript.Instruction

/-!
# Entities

An entity is what occupies a range of a script: it has an offset, the bytes from there on, and a
content, which says what the bytes are. What follows from the bytes, such as the branches of a jump
table, is computed from them and not stored.
-/

namespace PacScript

/-- What the bytes of an entity are. -/
inductive Content where
  /-- An occurrence of an opcode that has a template. -/
  | instruction (template : Template) (cutOff : Bool) (parameters : ParameterSet)
  /-- An occurrence of an opcode without a template, up to the next place where an instruction may
  start. -/
  | unknown (signature : UInt32)
  /-- Bytes of which nothing is known. -/
  | rawSpan
  /-- Bytes that align what follows an instruction that ends with a string. -/
  | padding
  /-- The table `0, 1, …, n - 1` of message numbers. -/
  | messageTable
  /-- The branch offsets of an indexed jump. -/
  | jumpTable
  /-- Tag/value pairs behind the instruction at the given offset, probably arguments of it. -/
  | leftOut (instructionOffset : Nat)
  deriving DecidableEq

/-- The kinds of entities. -/
inductive EntityKind where
  /-- A known instruction. -/
  | instruction
  /-- An unknown instruction. -/
  | unknown
  /-- A raw span. -/
  | rawSpan
  /-- Padding. -/
  | padding
  /-- A message table. -/
  | messageTable
  /-- A jump table. -/
  | jumpTable
  /-- Left-out arguments. -/
  | leftOut
  deriving DecidableEq, Repr

/-- A kind in words. -/
def EntityKind.describe : EntityKind → String
  | instruction => "instruction"
  | unknown => "unknown instruction"
  | rawSpan => "raw span"
  | padding => "padding"
  | messageTable => "message table"
  | jumpTable => "jump table"
  | leftOut => "left-out arguments"

/-- The kind of a content. -/
def Content.kind : Content → EntityKind
  | .instruction _ _ _ => .instruction
  | .unknown _ => .unknown
  | .rawSpan => .rawSpan
  | .padding => .padding
  | .messageTable => .messageTable
  | .jumpTable => .jumpTable
  | .leftOut _ => .leftOut

/-- What occupies a range of a script. -/
structure Entity where
  /-- Where the range starts. -/
  offset : Nat
  /-- The bytes of the range. -/
  raw : ByteArray
  /-- What they are. -/
  content : Content
  deriving DecidableEq

/-- An instruction as an entity. -/
def Instruction.toEntity (instruction : Instruction) : Entity where
  offset := instruction.offset
  raw := instruction.raw
  content := .instruction instruction.template instruction.cutOff instruction.parameters

namespace Entity

/-- How many bytes the entity covers. -/
def size (entity : Entity) : Nat :=
  entity.raw.size

/-- The offset behind the last byte. -/
def stop (entity : Entity) : Nat :=
  entity.offset + entity.size

/-- True for the offsets in the range of the entity. -/
def contains (entity : Entity) (offset : Nat) : Bool :=
  entity.offset ≤ offset && offset < entity.stop

/-- The kind of the entity. -/
def kind (entity : Entity) : EntityKind :=
  entity.content.kind

/-- The instruction that the entity is. -/
def instruction? (entity : Entity) : Option Instruction :=
  match entity.content with
  | .instruction template cutOff parameters =>
    some ⟨entity.offset, entity.raw, template, cutOff, parameters⟩
  | _ => none

/-- The signature of the unknown instruction that the entity is. -/
def unknown? (entity : Entity) : Option UInt32 :=
  match entity.content with
  | .unknown signature => some signature
  | _ => none

/-- The alignment of instructions, which padding restores. -/
def wordLength : Nat := 4

/-- True when all bytes are zero, as they should be in padding. -/
def zeroesOnly (entity : Entity) : Bool :=
  entity.raw.data.all (· == 0)

/-- How many messages a message table counts. -/
def messageCount (entity : Entity) : Nat :=
  entity.size / 4

/-- The branch offsets of a jump table. -/
def branches (entity : Entity) : Array UInt32 :=
  Bytes.words entity.raw

/-- The tags and values of left-out arguments. -/
def pairs (entity : Entity) : Array (UInt32 × UInt32) :=
  Bytes.wordPairs entity.raw

/-- The size that the instruction at an offset before the entity has if it extends up to the end of
the entity. -/
def supposedSize (entity : Entity) (instructionOffset : Nat) : Nat :=
  entity.stop - instructionOffset

/-- An instruction is the one that its entity has. -/
@[simp] theorem instruction?_toEntity (instruction : Instruction) :
    instruction.toEntity.instruction? = some instruction := rfl

/-- An entity is an instruction exactly when its kind says so. -/
theorem instruction?_eq_none_iff {entity : Entity} :
    entity.instruction? = none ↔ entity.kind ≠ .instruction := by
  obtain ⟨offset, raw, content⟩ := entity
  cases content <;> simp [instruction?, kind, Content.kind]

/-- The entity of the instruction that an entity is. -/
theorem eq_toEntity_of_instruction? {entity : Entity} {instruction : Instruction}
    (h : entity.instruction? = some instruction) : entity = instruction.toEntity := by
  obtain ⟨offset, raw, content⟩ := entity
  cases content <;> cases h
  rfl

end Entity

end PacScript
