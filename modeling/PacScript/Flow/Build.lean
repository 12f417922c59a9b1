import PacScript.Flow.Graph
import PacScript.Script

/-!
# The graph of a script

The instructions of a script fall into runs: a run ends behind an instruction that jumps or that is
a terminator, and where something else stands between two instructions. Each run is a block. Edges
lead from a block to its neighbour, unless it ends with a terminator, to the targets of its last
instruction, and to the branches of the jump table that follows it.
-/

namespace PacScript.Flow

/-- The signatures whose role the graph has to know. -/
structure Roles where
  /-- Those behind which control does not go on. -/
  terminators : List UInt32 := []
  /-- Those whose jump saves a return address. -/
  calls : List UInt32 := []

/-- True when control does not go on behind the instruction. -/
def Roles.terminates (roles : Roles) (instruction : Instruction) : Bool :=
  roles.terminators.contains instruction.signature

/-- True when a run ends with the instruction. -/
def Roles.endsRun (roles : Roles) (instruction : Instruction) : Bool :=
  !instruction.jumpTargets.isEmpty || roles.terminates instruction

/-- How control moves from an instruction to its jump targets. -/
def Roles.transition (roles : Roles) (instruction : Instruction) : Transition where
  potential := instruction.cutOff
  savesReturn := roles.calls.contains instruction.signature

/-- A run of consecutive instructions. -/
structure Run where
  /-- The instructions before the last one. -/
  earlier : Array Instruction
  /-- The last instruction. -/
  last : Instruction

/-- The offsets of the instructions of a run. -/
def Run.offsets (run : Run) : Array Nat :=
  (run.earlier.push run.last).map (·.offset)

/-- The offset of the first instruction of a run. -/
def Run.first (run : Run) : Nat :=
  (run.earlier[0]?.getD run.last).offset

/-- The runs of the entities that were looked at so far. -/
structure Runs where
  /-- The runs that have ended. -/
  ended : Array Run := #[]
  /-- The instructions of the run that has not ended. -/
  current : Array Instruction := #[]
  /-- The branches of each jump table, with the index of the run before it. -/
  tables : Array (Nat × Array UInt32) := #[]

namespace Runs

/-- Ends the current run, if there are instructions in it. -/
def close (runs : Runs) : Runs :=
  match runs.current.back? with
  | none => runs
  | some last =>
    { runs with ended := runs.ended.push ⟨runs.current.pop, last⟩, current := #[] }

/-- Looks at the next entity. A jump table belongs to the run before it; without one its branches
have nowhere to leave from. -/
def add (roles : Roles) (runs : Runs) (entity : Entity) : Runs :=
  match entity.instruction? with
  | some instruction =>
    let extended := { runs with current := runs.current.push instruction }
    if roles.endsRun instruction then extended.close else extended
  | none =>
    let closed := runs.close
    match entity.kind, closed.ended.size with
    | .jumpTable, index + 1 =>
      { closed with tables := closed.tables.push (index, entity.branches) }
    | _, _ => closed

/-- The runs of a script. -/
def ofScript (roles : Roles) (script : Script) : Runs :=
  (script.entities.foldl (add roles) {}).close

end Runs

namespace Graph

/-- The blocks of the runs, without edges. -/
def ofRuns (runs : Array Run) : Graph :=
  runs.foldl (fun graph run => graph.addBlock run.offsets run.first run.last.offset) {}

/-- Connects the block of a run with its neighbour, unless the run ends with a terminator. -/
def fallThrough (roles : Roles) (graph : Graph) (index : Nat) (run : Run) : Graph :=
  if roles.terminates run.last then graph
  else match graph.blocks[index]?, graph.blocks[index + 1]? with
    | some block, some next =>
      match graph.landing? next.id next.first block.exit with
      | some landing => graph.connect landing next.first block.exit { fallthrough := true }
      | none => graph
    | _, _ => graph

/-- Routes jumps to the given offsets, which leave at the exit of a block. -/
def routeAll (graph : Graph) (index : Nat) (transition : Transition) (targets : List UInt32) :
    Graph :=
  match graph.blocks[index]? with
  | none => graph
  | some block =>
    targets.foldl (fun graph target => graph.route target.toNat block.exit transition) graph

/-- The graph of a script: first the edges between neighbours, then those of the jumps, then those
of the jump tables. -/
def ofScript (script : Script) (roles : Roles) : Graph :=
  let runs := Runs.ofScript roles script
  let numbered := runs.ended.zipIdx
  let neighbours := numbered.foldl (fun graph (run, index) => graph.fallThrough roles index run)
    (ofRuns runs.ended)
  let jumps := numbered.foldl
    (fun graph (run, index) =>
      graph.routeAll index (roles.transition run.last) run.last.jumpTargets)
    neighbours
  runs.tables.foldl
    (fun graph (index, branches) => graph.routeAll index { potential := true } branches.toList)
    jumps

end Graph

end PacScript.Flow
