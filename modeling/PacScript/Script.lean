import Std.Data.TreeMap
import PacScript.Entity
import PacScript.Search

/-!
# Scripts

A script is what a scan makes of a buffer: entities in the order of their offsets, each of which
starts where the one before it ends, so that every byte is in exactly one. `Script.push` appends an
entity and keeps the counters and the indices by signature; look-ups by offset are bisections over
the entities. An index has the entities of each signature by their offsets, so that it lists them in
the order of the buffer, and has room for one only at each offset.
-/

namespace PacScript

/-- Indices of entities, by their signatures and then by their offsets. -/
abbrev Occurrences := Std.TreeMap UInt32 (Std.TreeMap Nat Nat)

/-- Where the entities of a signature are: their indices, by offset. -/
def Occurrences.byOffset (occurrences : Occurrences) (signature : UInt32) : Std.TreeMap Nat Nat :=
  occurrences[signature]?.getD ∅

/-- Adds the index of an entity to those of its signature. An index that was there for the same
offset is lost. -/
def Occurrences.add (occurrences : Occurrences) (signature : UInt32) (offset index : Nat) :
    Occurrences :=
  occurrences.alter signature fun byOffset => some ((byOffset.getD ∅).insert offset index)

/-- A buffer in its entities. -/
structure Script where
  /-- The size of the buffer. -/
  size : Nat
  /-- The entities in order. -/
  entities : Array Entity := #[]
  /-- Where the known instructions are. -/
  known : Occurrences := ∅
  /-- Where the unknown instructions are. -/
  unknown : Occurrences := ∅
  /-- How many known instructions there are. -/
  instructionCount : Nat := 0
  /-- How many unknown instructions there are. -/
  unknownCount : Nat := 0
  /-- How many known instructions are cut off. -/
  cutOffCount : Nat := 0

namespace Script

/-- The script of a buffer of the given size, before anything of it is known. -/
def ofSize (size : Nat) : Script := { size }

/-- Scripts are equal when they have the same entities over buffers of one size; all else follows
from these. -/
instance : BEq Script where
  beq a b := a.size == b.size && a.entities == b.entities

/-- The offset up to which the entities cover the buffer. -/
def covered (script : Script) : Nat :=
  script.entities.back?.elim 0 Entity.stop

/-- Appends an entity. -/
def push (script : Script) (entity : Entity) : Script :=
  let index := script.entities.size
  match entity.content with
  | .instruction template cutOff _ =>
    { script with
      entities := script.entities.push entity
      known := script.known.add template.signature entity.offset index
      instructionCount := script.instructionCount + 1
      cutOffCount := if cutOff then script.cutOffCount + 1 else script.cutOffCount }
  | .unknown signature =>
    { script with
      entities := script.entities.push entity
      unknown := script.unknown.add signature entity.offset index
      unknownCount := script.unknownCount + 1 }
  | _ => { script with entities := script.entities.push entity }

/-- Appending an entity does not change the size of the buffer. -/
@[simp] theorem size_push (script : Script) (entity : Entity) :
    (script.push entity).size = script.size := by
  unfold push; split <;> rfl

/-- Whatever its kind is, an entity is appended behind all others. -/
@[simp] theorem entities_push (script : Script) (entity : Entity) :
    (script.push entity).entities = script.entities.push entity := by
  unfold push; split <;> rfl

/-- An entity that is appended covers the buffer up to its end. -/
@[simp] theorem covered_push (script : Script) (entity : Entity) :
    (script.push entity).covered = entity.stop := by
  simp [covered]

/-- How many entities there are. -/
def length (script : Script) : Nat :=
  script.entities.size

/-- True when there are no entities. -/
def isEmpty (script : Script) : Bool :=
  script.entities.isEmpty

/-- The offsets of the entities. -/
def offsets (script : Script) : List Nat :=
  script.entities.toList.map Entity.offset

/-- How many entities start at or before an offset. -/
def startedBy (script : Script) (offset : Nat) : Nat :=
  Search.boundary (fun index => script.entities[index]?.any (·.offset ≤ offset)) 0 script.length

/-- The index of the entity that contains an offset: the last one that starts at or before it. -/
def indexAt? (script : Script) (offset : Nat) : Option Nat :=
  if script.size ≤ offset then none
  else match script.startedBy offset with
    | 0 => none
    | count + 1 => some count

/-- The entity that contains an offset. -/
def entityAt? (script : Script) (offset : Nat) : Option Entity :=
  (script.indexAt? offset).bind (script.entities[·]?)

/-- The entity that starts at an offset. -/
def startingAt? (script : Script) (offset : Nat) : Option Entity :=
  match script.startedBy offset with
  | 0 => none
  | count + 1 => script.entities[count]?.filter (·.offset = offset)

/-- The known instructions in order. -/
def instructions (script : Script) : List Instruction :=
  script.entities.toList.filterMap Entity.instruction?

/-- The instructions that are cut off, in order. -/
def cutOffInstructions (script : Script) : List Instruction :=
  script.instructions.filter (·.cutOff)

/-- The entities of a kind, in order. -/
def ofKind (script : Script) (kind : EntityKind) : List Entity :=
  script.entities.toList.filter (·.kind = kind)

/-- The entities that an index by signature has for a signature, in the order of the offsets under
which they are there. -/
def indexed (script : Script) (occurrences : Occurrences) (signature : UInt32) : List Entity :=
  (occurrences.byOffset signature).toList.filterMap fun place => script.entities[place.2]?

/-- The instructions with a signature, in order. -/
def instructionOccurrences (script : Script) (signature : UInt32) : List Instruction :=
  (script.indexed script.known signature).filterMap Entity.instruction?

/-- The unknown instructions with a signature, in order. -/
def unknownOccurrences (script : Script) (signature : UInt32) : List Entity :=
  (script.indexed script.unknown signature).filter (·.unknown?.isSome)

/-- The signatures of known instructions, ascending. -/
def instructionSignatures (script : Script) : List UInt32 :=
  script.known.keys

/-- The signatures of unknown instructions, ascending. -/
def unknownSignatures (script : Script) : List UInt32 :=
  script.unknown.keys

/-- True when the entities, the first of which has to start at `expected`, are not empty and follow
one another up to `size`. -/
def tiles (expected size : Nat) : List Entity → Bool
  | [] => expected == size
  | entity :: rest => entity.offset == expected && entity.size != 0 && tiles entity.stop size rest

/-- True when every byte of the buffer is in exactly one entity. -/
def isContiguous (script : Script) : Bool :=
  tiles 0 script.size script.entities.toList

end Script

end PacScript
