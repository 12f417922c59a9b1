import PacScript.Proofs.Flow.Outline

/-!
# The blocks that nothing enters

A block is marked as a source until an edge arrives at it from another block. What the marks say is
what the edges say (`Graph.Marked`): a mark is only taken away when such an edge is made, and no edge
moves afterwards. So the marks are right in the graph of a script, whatever jumps it is offered.
-/

namespace PacScript.Flow

namespace Graph

variable {graph : Graph}

/-- The block that an exit belongs to. -/
def exitOwner? (graph : Graph) (id : ExitId) : Option BlockId :=
  (graph.exits[id.index]?).map (·.block)

/-- The edge leads from an exit of another block to an entry point of the block. -/
def Enters (graph : Graph) (edge : Edge) (id : BlockId) : Prop :=
  ∃ other, graph.exitOwner? edge.source = some other ∧ other ≠ id ∧
    graph.owner? edge.target = some id

/-- The marks of the blocks. -/
def marks (graph : Graph) : Array Bool :=
  graph.blocks.map (·.isSource)

/-- A block is marked exactly while no edge enters it. -/
def Marked (graph : Graph) : Prop :=
  AtEach graph.marks fun i mark => mark = true ↔ ∀ edge ∈ graph.edges, ¬ graph.Enters edge ⟨i⟩

/-! ## What connecting a jump does -/

/-- An edge does not change whose the exits are. -/
theorem exitOwner?_addEdge (edge : Edge) (id : ExitId) :
    (graph.addEdge edge).exitOwner? id = graph.exitOwner? id := by
  simp only [exitOwner?, addEdge, Array.getElem?_modify]
  split
  · rw [Option.map_map]
    rfl
  · rfl

/-- The entry points that a graph has keep their blocks. -/
theorem owner?_of_extends {grown : Graph} (h : graph.Extends grown) {id : EntryId}
    (hid : id.index < graph.entries.size) : grown.owner? id = graph.owner? id := by
  have hentry := Array.getElem?_eq_getElem hid
  obtain ⟨entry, hgrown, hblock, -⟩ := h.entryAt ⟨_, hentry, rfl, rfl⟩
  rw [owner?, owner?, hgrown, hentry, Option.map_some, Option.map_some, hblock]

/-- The exits keep their blocks when a jump is connected. -/
theorem exitOwner?_connect (landing : Landing) (target : Nat) (source : ExitId)
    (transition : Transition) (id : ExitId) :
    (graph.connect landing target source transition).exitOwner? id = graph.exitOwner? id := by
  have hjoined : ((graph.withEntry landing.block target).1.addEdge
      ⟨source, (graph.withEntry landing.block target).2, transition⟩).exitOwner? id =
        graph.exitOwner? id := by
    rw [exitOwner?_addEdge, exitOwner?, (graph.withEntry_frame landing.block target).2.1]
    rfl
  rw [connect_eq]
  dsimp only
  split
  · exact hjoined
  · exact hjoined

/-- Connecting a jump takes the mark of the block that it enters from another one, and no other. -/
theorem marks_connect (landing : Landing) (target : Nat) (source : ExitId)
    (transition : Transition) : (graph.connect landing target source transition).marks =
      if landing.origin = landing.block.id then graph.marks
      else graph.marks.modify landing.block.id.index fun _ => false := by
  have hentered : (graph.withEntry landing.block target).1.marks = graph.marks := by
    unfold withEntry
    split
    · rfl
    · simp only [marks, addEntry]
      refine map_modify_of_eq ?_ _ _
      intro block
      rfl
  rw [connect_eq]
  dsimp only
  split
  · exact hentered
  · rw [← hentered]
    simp only [marks, markEntered]
    refine map_modify ?_ _ _
    intro block
    rfl

/-! ## The marks are right -/

/-- Connecting a jump that lands adds one edge to those that enter a block, if it leaves another
one. -/
theorem WellFormed.enters_connect_iff (h : graph.WellFormed) {id : BlockId} {target : Nat}
    {source : ExitId} {landing : Landing}
    (hland : graph.landing? id target source = some landing) (transition : Transition)
    (other : BlockId) :
    (∀ edge ∈ (graph.connect landing target source transition).edges,
        ¬ (graph.connect landing target source transition).Enters edge other) ↔
      (∀ edge ∈ graph.edges, ¬ graph.Enters edge other) ∧
        ¬ (landing.origin ≠ id ∧ id = other) := by
  obtain ⟨exit, hexit, hblock, -, horigin⟩ := landing?_eq_some_iff.1 hland
  obtain ⟨entry, hedges, -, hentry⟩ := h.connect_spec hland transition
  have hextends := graph.extends_connect landing target source transition
  -- The edges of before enter the blocks that they did.
  have hold : ∀ edge ∈ graph.edges,
      ((graph.connect landing target source transition).Enters edge other ↔
        graph.Enters edge other) := by
    intro edge hedge
    obtain ⟨k, hk⟩ := Array.mem_iff_getElem?.1 hedge
    have htarget := (h.ends k edge hk).2
    unfold Enters
    rw [owner?_of_extends hextends htarget, exitOwner?_connect]
  -- The new one enters the block that took the jump, if the jump leaves another block.
  have hnew : (graph.connect landing target source transition).Enters
      ⟨source, entry, transition⟩ other ↔ landing.origin ≠ id ∧ id = other := by
    have hsource : graph.exitOwner? source = some landing.origin := by
      rw [exitOwner?, hexit, horigin]
      rfl
    have htarget : (graph.connect landing target source transition).owner? entry = some id := by
      obtain ⟨point, hpoint, howner, -⟩ := hentry
      rw [owner?, hpoint, Option.map_some, howner]
    unfold Enters
    rw [exitOwner?_connect, hsource, htarget]
    constructor
    · intro henters
      obtain ⟨found, hfound, hne, heq⟩ := henters
      obtain rfl := Option.some.inj hfound
      obtain rfl := Option.some.inj heq
      exact ⟨hne, rfl⟩
    · intro hleaves
      exact ⟨_, rfl, hleaves.2 ▸ hleaves.1, congrArg some hleaves.2⟩
  rw [hedges]
  simp only [Array.mem_push, or_imp, forall_and, forall_eq, hnew]
  exact and_congr_left fun _ => forall₂_congr fun edge hedge => not_congr (hold edge hedge)

/-- Connecting a jump that lands keeps the marks right. -/
theorem Marked.connect (hmarked : graph.Marked) (h : graph.WellFormed) {id : BlockId}
    {target : Nat} {source : ExitId} {landing : Landing}
    (hland : graph.landing? id target source = some landing) (transition : Transition) :
    (graph.connect landing target source transition).Marked := by
  obtain ⟨exit, -, hblock, -, -⟩ := landing?_eq_some_iff.1 hland
  have hid : landing.block.id = id := (h.ids _ _ hblock).1
  unfold Marked
  rw [marks_connect, hid]
  split
  case isTrue hsame =>
    refine hmarked.imp fun i mark _ hmark => ?_
    rw [h.enters_connect_iff hland, hmark]
    simp [hsame]
  case isFalse hother =>
    refine hmarked.modify fun i mark _ hmark => ?_
    rw [h.enters_connect_iff hland]
    split
    case isTrue hi =>
      -- The edge that was just made enters this block.
      have hthis : id = ⟨i⟩ := by rw [← hi]
      rw [hthis] at hother
      simp [hother, hthis]
    case isFalse hi =>
      have hthis : id ≠ ⟨i⟩ := fun heq => hi (congrArg BlockId.index heq)
      simp [hmark, hthis]

/-- Each way in which a graph grows keeps the marks right. -/
theorem Kept.marked : Kept fun graph => graph.WellFormed ∧ graph.Marked where
  connect h hland transition := ⟨h.1.connect hland transition, h.2.connect h.1 hland transition⟩
  unresolved jump h := ⟨Kept.wellFormed.unresolved jump h.1, h.2⟩

/-- The blocks of runs have no edges, and all of them are marked. -/
theorem Marked.ofRuns (runs : Array Run) : (Graph.ofRuns runs).Marked := by
  have hmarks : ∀ block ∈ (Graph.ofRuns runs).blocks, block.isSource = true := by
    refine ofRuns_induction (P := fun graph => ∀ block ∈ graph.blocks, block.isSource = true)
      (by simp) (fun graph run h block hblock => ?_) runs
    rcases Array.mem_push.1 hblock with hblock | rfl
    · exact h block hblock
    · rfl
  intro i mark hmark
  rw [marks, Array.getElem?_map] at hmark
  obtain ⟨block, hblock, rfl⟩ := Option.map_eq_some_iff.1 hmark
  simp [(edges_ofRuns runs).1, hmarks block (Array.mem_of_getElem? hblock)]

/-- A block is marked as a source exactly while no edge leads to it from another block, whatever
jumps the graph of a script is offered. So the sources are the blocks that no other one enters. -/
theorem isSource_iff_offerAll_ofScript (script : Script) (roles : Roles) (offers : List Offer) :
    let graph := (Graph.ofScript script roles).offerAll offers
    (AtEach graph.blocks fun i block =>
      block.isSource = true ↔ ∀ edge ∈ graph.edges, ¬ graph.Enters edge ⟨i⟩) ∧
    ∀ block, block ∈ graph.sources ↔
      block ∈ graph.blocks ∧ ∀ edge ∈ graph.edges, ¬ graph.Enters edge block.id := by
  intro graph
  obtain ⟨hwell, hmarked⟩ : graph.WellFormed ∧ graph.Marked :=
    Kept.marked.offerAll (Kept.marked.ofScript ⟨.ofRuns _, .ofRuns _⟩) offers
  have hblocks : AtEach graph.blocks fun i block =>
      block.isSource = true ↔ ∀ edge ∈ graph.edges, ¬ graph.Enters edge ⟨i⟩ := by
    intro i block hblock
    refine hmarked i block.isSource ?_
    rw [marks, Array.getElem?_map, hblock, Option.map_some]
  refine ⟨hblocks, fun block => ?_⟩
  rw [sources, List.mem_filter, Array.mem_toList_iff]
  refine and_congr_right fun hmem => ?_
  obtain ⟨i, hblock⟩ := Array.mem_iff_getElem?.1 hmem
  rw [(hwell.ids i block hblock).1]
  exact hblocks i block hblock

/-- A jump of a block to itself leaves it a source, and a jump from another block does not. -/
example :
    let graph := (({} : Graph).addBlock #[0, 8] 0 8).addBlock #[20] 20 20
    (graph.offer ⟨⟨0⟩, 8, ⟨0⟩, {}⟩).sources.map Block.id = [⟨0⟩, ⟨1⟩] ∧
      (graph.offer ⟨⟨0⟩, 8, ⟨1⟩, {}⟩).sources.map Block.id = [⟨1⟩] := by
  decide +kernel

end Graph

end PacScript.Flow
