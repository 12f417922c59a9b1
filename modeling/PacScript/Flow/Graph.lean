import PacScript.Search

/-!
# The control-flow graph

Blocks, entry points, exit points and edges live in flat arrays and refer to each other by typed
indices. A block is a run of consecutive instructions with one exit, at its last instruction, and
with an entry at its first one; more entries come into being as jumps into the block are accepted.
Every edge is listed at the exit it leaves and at the entry it arrives at.

`Graph.accept` offers a jump to a block. The block takes jumps to its instructions, and jumps to a
place before its first instruction, which arrive at its start.
-/

namespace PacScript.Flow

/-- How control moves along an edge. A plain jump has none of the flags. -/
structure Transition where
  /-- Execution goes on into the next block. -/
  fallthrough : Bool := false
  /-- The edge may not be taken, or was read from an instruction that is cut off. -/
  potential : Bool := false
  /-- A return address is saved. -/
  savesReturn : Bool := false
  deriving DecidableEq, Repr

/-- The flags as the bits of a number. -/
def Transition.bits (transition : Transition) : Nat :=
  transition.fallthrough.toNat + 2 * transition.potential.toNat + 4 * transition.savesReturn.toNat

/-- The flags in the low bits of a number. -/
def Transition.ofBits (bits : Nat) : Transition where
  fallthrough := bits % 2 == 1
  potential := bits / 2 % 2 == 1
  savesReturn := bits / 4 % 2 == 1

/-- The index of a block. -/
structure BlockId where
  /-- The index. -/
  index : Nat
  deriving DecidableEq, Repr

/-- The index of an entry point. -/
structure EntryId where
  /-- The index. -/
  index : Nat
  deriving DecidableEq, Repr

/-- The index of an exit point. -/
structure ExitId where
  /-- The index. -/
  index : Nat
  deriving DecidableEq, Repr

/-- The index of an edge. -/
structure EdgeId where
  /-- The index. -/
  index : Nat
  deriving DecidableEq, Repr

/-- A place where control enters a block. -/
structure EntryPoint where
  /-- The block. -/
  block : BlockId
  /-- The offset of the instruction that is entered. -/
  offset : Nat
  /-- The edges that arrive here. -/
  incoming : Array EdgeId := #[]
  deriving DecidableEq, Repr

/-- The place where control leaves a block. -/
structure ExitPoint where
  /-- The block. -/
  block : BlockId
  /-- The offset of the last instruction of the block. -/
  offset : Nat
  /-- The edges that leave here. -/
  outgoing : Array EdgeId := #[]
  deriving DecidableEq, Repr

/-- An edge. -/
structure Edge where
  /-- Where it leaves. -/
  source : ExitId
  /-- Where it arrives. -/
  target : EntryId
  /-- How control moves along it. -/
  transition : Transition
  deriving DecidableEq, Repr

/-- A run of consecutive instructions with one exit. -/
structure Block where
  /-- The index of the block. -/
  id : BlockId
  /-- The offsets of the instructions, ascending. -/
  offsets : Array Nat
  /-- The entry points with the offsets of their instructions, ascending. -/
  entries : List (Nat × EntryId)
  /-- The entry point at the first instruction. -/
  startEntry : EntryId
  /-- The exit point at the last instruction. -/
  exit : ExitId
  /-- True while no edge arrives from another block. -/
  isSource : Bool := true
  deriving DecidableEq, Repr

/-- A jump that no block took. -/
structure UnresolvedJump where
  /-- Where it leaves. -/
  source : ExitId
  /-- The offset it goes to. -/
  target : Nat
  /-- How control would move. -/
  transition : Transition
  deriving DecidableEq, Repr

/-- A control-flow graph. -/
structure Graph where
  /-- The blocks in the order of the script. -/
  blocks : Array Block := #[]
  /-- The entry points. -/
  entries : Array EntryPoint := #[]
  /-- The exit points. -/
  exits : Array ExitPoint := #[]
  /-- The edges in the order in which they were made. -/
  edges : Array Edge := #[]
  /-- The jumps that no block took. -/
  unresolved : Array UnresolvedJump := #[]
  deriving DecidableEq, Repr

namespace Block

/-- The offset of the first instruction. -/
def first (block : Block) : Nat :=
  block.offsets[0]?.getD 0

/-- The offset of the last instruction. -/
def last (block : Block) : Nat :=
  block.offsets.back?.getD 0

/-- True when an instruction of the block starts at the offset. -/
def startsInstruction (block : Block) (offset : Nat) : Bool :=
  let index :=
    Search.boundary (fun i => block.offsets[i]?.any (· < offset)) 0 block.offsets.size
  block.offsets[index]? == some offset

/-- True when the block takes a jump to the offset. -/
def takes (block : Block) (target : Nat) : Bool :=
  block.startsInstruction target || target < block.first

/-- The entry point at which a jump to the offset arrives, if it is there already. -/
def entryFor? (block : Block) (target : Nat) : Option EntryId :=
  if block.startsInstruction target then block.entries.lookup target else some block.startEntry

/-- Adds an entry point in the order of the offsets. -/
def insertEntry (offset : Nat) (entry : EntryId) : List (Nat × EntryId) → List (Nat × EntryId)
  | [] => [(offset, entry)]
  | (other, id) :: rest =>
    if offset < other then (offset, entry) :: (other, id) :: rest
    else (other, id) :: insertEntry offset entry rest

end Block

namespace Graph

/-- Appends a block of instructions at the offsets from `first` to `last`, with an entry at its
start and its exit. -/
def addBlock (graph : Graph) (offsets : Array Nat) (first last : Nat) : Graph :=
  let id : BlockId := ⟨graph.blocks.size⟩
  let entry : EntryId := ⟨graph.entries.size⟩
  let exit : ExitId := ⟨graph.exits.size⟩
  { graph with
    blocks := graph.blocks.push
      { id, offsets, entries := [(first, entry)], startEntry := entry, exit }
    entries := graph.entries.push { block := id, offset := first }
    exits := graph.exits.push { block := id, offset := last } }

/-- What an accepted jump connects: the block that takes it, and the block that it leaves. -/
structure Landing where
  /-- The block that takes the jump. -/
  block : Block
  /-- The block that the jump leaves. -/
  origin : BlockId

/-- The landing of a jump from an exit to an offset, if the exit and the block belong to the graph
and the block takes the jump. -/
def landing? (graph : Graph) (block : BlockId) (target : Nat) (source : ExitId) :
    Option Landing :=
  match graph.exits[source.index]?, graph.blocks[block.index]? with
  | some exit, some code => if code.takes target then some ⟨code, exit.block⟩ else none
  | _, _ => none

/-- Makes an entry point of a block at the offset of one of its instructions. -/
def addEntry (graph : Graph) (block : BlockId) (offset : Nat) : Graph :=
  let entry : EntryId := ⟨graph.entries.size⟩
  { graph with
    entries := graph.entries.push { block, offset }
    blocks := graph.blocks.modify block.index fun code =>
      { code with entries := Block.insertEntry offset entry code.entries } }

/-- Makes an edge between an exit and an entry, and lists it at both. -/
def addEdge (graph : Graph) (edge : Edge) : Graph :=
  let id : EdgeId := ⟨graph.edges.size⟩
  { graph with
    edges := graph.edges.push edge
    entries := graph.entries.modify edge.target.index fun entry =>
      { entry with incoming := entry.incoming.push id }
    exits := graph.exits.modify edge.source.index fun exit =>
      { exit with outgoing := exit.outgoing.push id } }

/-- Notes that an edge arrives at a block from another block. -/
def markEntered (graph : Graph) (block : BlockId) : Graph :=
  { graph with blocks := graph.blocks.modify block.index fun code => { code with isSource := false } }

/-- Makes the edge of a jump that lands, with the entry point that it needs. -/
def connect (graph : Graph) (landing : Landing) (target : Nat) (source : ExitId)
    (transition : Transition) : Graph :=
  let block := landing.block.id
  let joined := match landing.block.entryFor? target with
    | some entry => graph.addEdge ⟨source, entry, transition⟩
    | none =>
      let entry : EntryId := ⟨graph.entries.size⟩
      (graph.addEntry block target).addEdge ⟨source, entry, transition⟩
  if landing.origin = block then joined else joined.markEntered block

/-- Offers a jump to a block. If the block takes it, the graph has one edge more, whose index is
returned. -/
def accept (graph : Graph) (block : BlockId) (target : Nat) (source : ExitId)
    (transition : Transition) : Option (Graph × EdgeId) :=
  (graph.landing? block target source).map fun landing =>
    (graph.connect landing target source transition, ⟨graph.edges.size⟩)

/-- How many blocks start at or before an offset. -/
def startedBy (graph : Graph) (offset : Nat) : Nat :=
  Search.boundary (fun index => graph.blocks[index]?.any (·.first ≤ offset)) 0 graph.blocks.size

/-- Finds the block that takes a jump. It can only be the last block that starts at or before the
target or the first block behind it; a jump that neither takes is unresolved. -/
def route (graph : Graph) (target : Nat) (source : ExitId) (transition : Transition) : Graph :=
  let following := graph.startedBy target
  let inside := if following = 0 then none else graph.landing? ⟨following - 1⟩ target source
  match inside.or (graph.landing? ⟨following⟩ target source) with
  | some landing => graph.connect landing target source transition
  | none => { graph with unresolved := graph.unresolved.push ⟨source, target, transition⟩ }

/-- The block of an index. -/
def block? (graph : Graph) (id : BlockId) : Option Block :=
  graph.blocks[id.index]?

/-- The edge of an index. -/
def edge? (graph : Graph) (id : EdgeId) : Option Edge :=
  graph.edges[id.index]?

/-- The block in which an instruction starts at the offset. -/
def blockAt? (graph : Graph) (offset : Nat) : Option Block :=
  match graph.startedBy offset with
  | 0 => none
  | count + 1 => graph.blocks[count]?.filter (·.startsInstruction offset)

/-- The blocks at which no edge arrives from another block. -/
def sources (graph : Graph) : List Block :=
  graph.blocks.toList.filter (·.isSource)

/-- The blocks that are reached from a block in one step, with how control moves there. -/
def successors (graph : Graph) (id : BlockId) : List (BlockId × Transition) :=
  match (graph.block? id).bind (graph.exits[·.exit.index]?) with
  | none => []
  | some exit =>
    exit.outgoing.toList.filterMap fun id => do
      let edge ← graph.edge? id
      let entry ← graph.entries[edge.target.index]?
      pure (entry.block, edge.transition)

end Graph

end PacScript.Flow
