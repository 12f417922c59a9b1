import PacScript.Proofs.Flow.Arena

/-!
# What a graph keeps while it grows

A block is made with its instructions, its start entry and its exit, and these never change. Entry
points are added but stay where they are. So whatever is said of a graph by these alone stays true
when the graph grows (`Graph.Extends`).

Connecting a jump that lands makes one edge. It leaves the exit of the jump and arrives at the
instruction that the jump goes to, or at the start of the block if the jump goes to a place before
it (`WellFormed.connect_spec`).
-/

namespace PacScript.Flow

/-- A block as it was made, before its map of entry points and its mark could change. -/
def Block.outline (block : Block) : Block :=
  { block with entries := [], isSource := true }

/-- Blocks with one outline have the same identity and the same instructions. -/
theorem Block.of_outline_eq {block other : Block} (h : block.outline = other.outline) :
    block.id = other.id ∧ block.offsets = other.offsets ∧ block.startEntry = other.startEntry ∧
      block.exit = other.exit := by
  have hid := congrArg Block.id h
  have hoffsets := congrArg Block.offsets h
  have hstart := congrArg Block.startEntry h
  have hexit := congrArg Block.exit h
  exact ⟨hid, hoffsets, hstart, hexit⟩

/-- The offset of the instruction of a block at which a jump arrives that the block takes. -/
def Block.landingOffset (block : Block) (target : Nat) : Nat :=
  if block.startsInstruction target then target else block.first

namespace Graph

/-- The outlines of the blocks. -/
def outline (graph : Graph) : Array Block :=
  graph.blocks.map Block.outline

/-- One graph has come of another by growing. -/
structure Extends (graph grown : Graph) : Prop where
  /-- The blocks are what they were. -/
  outline_eq : grown.outline = graph.outline
  /-- The entry points are where they were. -/
  entryAt : ∀ {id block offset}, EntryAt graph.entries id block offset →
    EntryAt grown.entries id block offset

variable {graph grown : Graph}

/-- A graph extends itself. -/
theorem Extends.refl (graph : Graph) : graph.Extends graph := ⟨rfl, id⟩

/-- Growing further is growing. -/
theorem Extends.trans {later : Graph} (h : graph.Extends grown) (hlater : grown.Extends later) :
    graph.Extends later :=
  ⟨hlater.outline_eq.trans h.outline_eq, fun hentry => hlater.entryAt (h.entryAt hentry)⟩

/-- A block is found under its index when a graph has grown. -/
theorem Extends.exists_block (h : graph.Extends grown) {i : Nat} {block : Block}
    (hblock : graph.blocks[i]? = some block) :
    ∃ other, grown.blocks[i]? = some other ∧ other.outline = block.outline := by
  have houtline : grown.outline[i]? = some block.outline := by
    rw [h.outline_eq, outline, Array.getElem?_map, hblock]
    rfl
  rw [outline, Array.getElem?_map] at houtline
  exact Option.map_eq_some_iff.1 houtline

/-- A graph has as many blocks when it has grown. -/
theorem Extends.size_blocks (h : graph.Extends grown) : grown.blocks.size = graph.blocks.size := by
  have hsize := congrArg Array.size h.outline_eq
  simpa [outline] using hsize

/-- A new entry point extends a graph. -/
theorem extends_addEntry (graph : Graph) (id : BlockId) (offset : Nat) :
    graph.Extends (graph.addEntry id offset) where
  outline_eq := by
    simp only [outline, addEntry]
    refine map_modify_of_eq ?_ _ _
    intro block
    rfl
  entryAt h := entryAt_push_iff.2 (.inl h)

/-- An edge extends a graph. -/
theorem extends_addEdge (graph : Graph) (edge : Edge) : graph.Extends (graph.addEdge edge) where
  outline_eq := rfl
  entryAt h := by
    refine (entryAt_modify_iff ?_).2 h
    intro entry
    exact ⟨rfl, rfl⟩

/-- A mark extends a graph. -/
theorem extends_markEntered (graph : Graph) (id : BlockId) :
    graph.Extends (graph.markEntered id) where
  outline_eq := by
    simp only [outline, markEntered]
    refine map_modify_of_eq ?_ _ _
    intro block
    rfl
  entryAt h := h

/-! ## The blocks of runs -/

/-- The blocks of runs have no edges, and no jump is unresolved. -/
theorem edges_ofRuns (runs : Array Run) :
    (ofRuns runs).edges = #[] ∧ (ofRuns runs).unresolved = #[] :=
  ofRuns_induction (P := fun graph => graph.edges = #[] ∧ graph.unresolved = #[]) ⟨rfl, rfl⟩
    (fun _ _ h => h) runs

/-- There is one block for each run, with the offsets of the run. -/
theorem offsets_ofRuns (runs : Array Run) :
    (ofRuns runs).outline.map (·.offsets) = runs.map Run.offsets := by
  have hfold : ∀ (rest : List Run) (graph : Graph),
      (rest.foldl (fun graph run => graph.addBlock run.offsets run.first run.last.offset)
        graph).outline.toList.map (·.offsets) =
          graph.outline.toList.map (·.offsets) ++ rest.map Run.offsets := by
    intro rest
    induction rest with
    | nil => simp
    | cons run rest ih =>
      intro graph
      rw [List.foldl_cons, ih]
      simp [outline, addBlock, Block.outline]
  unfold ofRuns
  rw [← Array.foldl_toList, ← Array.toList_inj, Array.toList_map, Array.toList_map, hfold]
  simp [outline]

/-- There are as many blocks as runs. -/
theorem size_blocks_ofRuns (runs : Array Run) : (ofRuns runs).blocks.size = runs.size := by
  have hsize := congrArg Array.size (offsets_ofRuns runs)
  simpa [outline] using hsize

/-- The block of a run is found under the index of the run. -/
theorem exists_block_ofRuns {runs : Array Run} {i : Nat} {run : Run} (hrun : runs[i]? = some run) :
    ∃ block, (ofRuns runs).blocks[i]? = some block ∧ block.offsets = run.offsets := by
  have hoffsets : ((ofRuns runs).outline.map (·.offsets))[i]? = some run.offsets := by
    rw [offsets_ofRuns, Array.getElem?_map, hrun, Option.map_some]
  rw [outline, Array.map_map, Array.getElem?_map] at hoffsets
  exact Option.map_eq_some_iff.1 hoffsets

/-! ## Connecting a jump -/

/-- The graph with the entry point at which a jump into a block arrives, and this entry point. -/
def withEntry (graph : Graph) (block : Block) (target : Nat) : Graph × EntryId :=
  match block.entryFor? target with
  | some entry => (graph, entry)
  | none => (graph.addEntry block.id target, ⟨graph.entries.size⟩)

/-- A jump is connected in three steps: its entry point, its edge, and the mark of the block if it
was entered from another one. -/
theorem connect_eq (graph : Graph) (landing : Landing) (target : Nat) (source : ExitId)
    (transition : Transition) :
    graph.connect landing target source transition =
      let (entered, entry) := graph.withEntry landing.block target
      let joined := entered.addEdge ⟨source, entry, transition⟩
      if landing.origin = landing.block.id then joined
      else joined.markEntered landing.block.id := by
  unfold connect withEntry
  cases landing.block.entryFor? target <;> rfl

/-- Making the entry point of a jump leaves the edges and the exits. -/
theorem withEntry_frame (graph : Graph) (block : Block) (target : Nat) :
    (graph.withEntry block target).1.edges = graph.edges ∧
      (graph.withEntry block target).1.exits = graph.exits ∧
      (graph.withEntry block target).1.unresolved = graph.unresolved := by
  unfold withEntry
  split <;> exact ⟨rfl, rfl, rfl⟩

/-- Making the entry point of a jump extends a graph. -/
theorem extends_withEntry (graph : Graph) (block : Block) (target : Nat) :
    graph.Extends (graph.withEntry block target).1 := by
  unfold withEntry
  split
  · exact .refl graph
  · exact graph.extends_addEntry _ _

/-- The entry point of a jump is where the jump goes. -/
theorem EntriesIndexed.entryAt_withEntry (h : graph.EntriesIndexed) {id : BlockId} {block : Block}
    (hblock : graph.blocks[id.index]? = some block) (hid : block.id = id) (target : Nat) :
    EntryAt (graph.withEntry block target).1.entries (graph.withEntry block target).2 id
      (block.landingOffset target) := by
  have hindex : block.Indexes id.index graph.entries := h.maps _ _ hblock
  unfold withEntry Block.landingOffset
  cases hentry : block.entryFor? target with
  | none =>
    rw [if_pos (Block.of_entryFor?_eq_none hentry).1]
    exact entryAt_push_iff.2 (.inr ⟨rfl, hid, rfl⟩)
  | some entry =>
    -- The entry point is there already, in the map of the block.
    apply hindex.mem_iff.1
    unfold Block.entryFor? at hentry
    split at hentry
    case isTrue hstarts =>
      obtain ⟨before, behind, hsplit, -⟩ := List.lookup_eq_some_iff.1 hentry
      simp [hsplit, hstarts]
    case isFalse hstarts =>
      obtain ⟨first, hfirst, hmem⟩ := hindex.start
      rw [if_neg hstarts, Block.first, hfirst, ← Option.some.inj hentry]
      exact hmem

/-- Connecting extends a graph. -/
theorem extends_connect (graph : Graph) (landing : Landing) (target : Nat) (source : ExitId)
    (transition : Transition) :
    graph.Extends (graph.connect landing target source transition) := by
  rw [connect_eq]
  have hjoined := (graph.extends_withEntry landing.block target).trans
    (extends_addEdge _ ⟨source, (graph.withEntry landing.block target).2, transition⟩)
  dsimp only
  split
  · exact hjoined
  · exact hjoined.trans (extends_markEntered _ _)

/-- Whatever a graph has grown to extends it. -/
theorem Kept.extends (graph : Graph) : Kept (graph.Extends ·) where
  connect h _ transition := h.trans (extends_connect _ _ _ _ transition)
  unresolved _ h := ⟨h.outline_eq, h.entryAt⟩

/-- The graph of a script has grown from its blocks. -/
theorem extends_ofScript (script : Script) (roles : Roles) :
    (ofRuns (Runs.ofScript roles script).ended).Extends (ofScript script roles) :=
  (Kept.extends _).ofScript (.refl _)

/-- Connecting a jump that lands makes one edge, which arrives where the jump goes, and notes
nothing as unresolved. -/
theorem WellFormed.connect_spec (h : graph.WellFormed) {id : BlockId} {target : Nat}
    {source : ExitId} {landing : Landing}
    (hland : graph.landing? id target source = some landing) (transition : Transition) :
    ∃ entry, (graph.connect landing target source transition).edges =
        graph.edges.push ⟨source, entry, transition⟩ ∧
      (graph.connect landing target source transition).unresolved = graph.unresolved ∧
      EntryAt (graph.connect landing target source transition).entries entry id
        (landing.block.landingOffset target) := by
  obtain ⟨exit, -, hblock, -, -⟩ := landing?_eq_some_iff.1 hland
  have hentry := h.entryAt_withEntry hblock (h.ids _ _ hblock).1 target
  obtain ⟨hedges, -, hunresolved⟩ := graph.withEntry_frame landing.block target
  refine ⟨(graph.withEntry landing.block target).2, ?_⟩
  rw [connect_eq]
  -- The mark changes neither the edges nor the entry points.
  have hjoined := (extends_addEdge (graph.withEntry landing.block target).1
    ⟨source, (graph.withEntry landing.block target).2, transition⟩).entryAt hentry
  dsimp only
  split
  · exact ⟨by rw [← hedges]; rfl, hunresolved, hjoined⟩
  · exact ⟨by rw [← hedges]; rfl, hunresolved, hjoined⟩

end Graph

end PacScript.Flow
