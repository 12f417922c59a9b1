import PacScript.Proofs.Flow.Growth
import PacScript.Proofs.Flow.Indices

/-!
# The arena of a graph

Blocks, entry points, exit points and edges refer to each other by index, and what one array says
of another has to stay true while all of them grow. Three relations between the arrays are kept,
each by its own argument: blocks and exits are paired (`ExitsPaired`), the entry points are those
that the blocks index (`EntriesIndexed`), and an edge is listed at its two ends and nowhere else
(`EdgesListed`). A graph with all three is `WellFormed`. Every step by which a graph grows keeps
them, so the graph of a script has them, whatever jumps it is offered afterwards.
-/

namespace PacScript.Flow

namespace Graph

/-! ## The relations between the arrays -/

/-- There is one exit for each block, under the same index. -/
structure ExitsPaired (graph : Graph) : Prop where
  /-- There are as many exits as blocks. -/
  size_exits : graph.exits.size = graph.blocks.size
  /-- A block knows its index, and its exit has the same. -/
  ids : AtEach graph.blocks fun i block => block.id = ⟨i⟩ ∧ block.exit = ⟨i⟩
  /-- An exit belongs to its block and sits at the last instruction. -/
  exitOwners : AtEach graph.exits fun i exit => exit.block = ⟨i⟩ ∧
    ∃ block, graph.blocks[i]? = some block ∧ block.offsets.back? = some exit.offset

/-- The entry points are those that the blocks have in their maps. -/
structure EntriesIndexed (graph : Graph) : Prop where
  /-- The map of a block agrees with the entry points. -/
  maps : AtEach graph.blocks fun i block => block.Indexes i graph.entries
  /-- Every entry point belongs to a block. -/
  entryOwners : AtEach graph.entries fun _ entry => entry.block.index < graph.blocks.size

/-- An edge is listed at the exit that it leaves and at the entry point at which it arrives. -/
structure EdgesListed (graph : Graph) : Prop where
  /-- An edge has both ends in the graph. -/
  ends : AtEach graph.edges fun _ edge =>
    edge.source.index < graph.exits.size ∧ edge.target.index < graph.entries.size
  /-- An exit lists the edges that leave it, in the order in which they were made. -/
  outgoing : AtEach graph.exits fun i exit =>
    exit.outgoing.toList = edgeIds graph.edges (·.source = ⟨i⟩)
  /-- An entry point lists the edges that arrive at it, in the order in which they were made. -/
  incoming : AtEach graph.entries fun i entry =>
    entry.incoming.toList = edgeIds graph.edges (·.target = ⟨i⟩)

/-- The arrays of a graph agree with each other. -/
structure WellFormed (graph : Graph) : Prop
  extends ExitsPaired graph, EntriesIndexed graph, EdgesListed graph

/-! ## What each step keeps -/

section Steps

variable {graph : Graph}

/-- Blocks and exits stay paired when a block is appended with its exit. -/
theorem ExitsPaired.addBlock (h : graph.ExitsPaired) {offsets : Array Nat} {last : Nat}
    (hlast : offsets.back? = some last) (first : Nat) :
    (graph.addBlock offsets first last).ExitsPaired where
  size_exits := by simp [Graph.addBlock, h.size_exits]
  ids := h.ids.push (fun _ _ _ hids => hids) ⟨rfl, congrArg ExitId.mk h.size_exits⟩
  exitOwners := by
    refine h.exitOwners.push (fun i exit _ ⟨howner, block, hblock, hoffset⟩ => ?_) ?_
    · exact ⟨howner, block, getElem?_push_of_getElem? hblock _, hoffset⟩
    · refine ⟨congrArg BlockId.mk h.size_exits.symm, ?_⟩
      rw [h.size_exits]
      exact ⟨_, Array.getElem?_push_size, hlast⟩

/-- Blocks and exits stay paired when a block is changed, but not its identity and its
instructions. -/
theorem ExitsPaired.modifyBlock (h : graph.ExitsPaired) (j : Nat) {f : Block → Block}
    (hf : ∀ block, (f block).id = block.id ∧ (f block).exit = block.exit ∧
      (f block).offsets = block.offsets) (entries : Array EntryPoint) :
    ExitsPaired { graph with blocks := graph.blocks.modify j f, entries } where
  size_exits := by rw [Array.size_modify, h.size_exits]
  ids := by
    refine h.ids.modify fun i block _ hids => ?_
    split
    · rwa [(hf block).1, (hf block).2.1]
    · exact hids
  exitOwners := by
    refine h.exitOwners.imp fun i exit _ ⟨howner, block, hblock, hoffset⟩ => ⟨howner, ?_⟩
    rw [Array.getElem?_modify, hblock]
    by_cases hij : j = i
    · exact ⟨f block, by simp [hij], by rw [(hf block).2.2, hoffset]⟩
    · exact ⟨block, by simp [hij], hoffset⟩

/-- Blocks and exits stay paired when an edge is made. -/
theorem ExitsPaired.addEdge (h : graph.ExitsPaired) (edge : Edge) :
    (graph.addEdge edge).ExitsPaired where
  size_exits := by simp [Graph.addEdge, h.size_exits]
  ids := h.ids
  exitOwners := by
    refine h.exitOwners.modify fun i exit _ howner => ?_
    split <;> exact howner

/-- The entry points stay indexed when a block is appended with an entry point at its start. -/
theorem EntriesIndexed.addBlock (h : graph.EntriesIndexed) {offsets : Array Nat} {first : Nat}
    (hfirst : offsets[0]? = some first) (last : Nat) :
    (graph.addBlock offsets first last).EntriesIndexed where
  maps := by
    refine h.maps.push (fun i block hblock hindex => ?_) ?_
    · -- The new entry point belongs to the new block.
      have hlt : i < graph.blocks.size := lt_size_of_getElem? hblock
      refine hindex.push fun hother => ?_
      have hi : graph.blocks.size = i := congrArg BlockId.index hother
      omega
    · refine .single (h.entryOwners.imp fun _ entry _ howner hblock => ?_) hfirst rfl rfl
      have hsize : entry.block.index = graph.blocks.size := congrArg BlockId.index hblock
      omega
  entryOwners := by
    refine h.entryOwners.push (fun i entry _ howner => ?_) ?_
    · simpa [Graph.addBlock] using Nat.lt_succ_of_lt howner
    · simp [Graph.addBlock]

/-- The entry points stay indexed when a block gets one at an instruction that has none. -/
theorem EntriesIndexed.addEntry (h : graph.EntriesIndexed) {id : BlockId} {block : Block}
    {offset : Nat} (hblock : graph.blocks[id.index]? = some block)
    (hoffset : offset ∈ block.offsets) (hnew : ∀ entry, (offset, entry) ∉ block.entries) :
    (graph.addEntry id offset).EntriesIndexed where
  maps := by
    refine h.maps.modify fun i other hother hindex => ?_
    split
    case isTrue hi =>
      subst hi
      obtain rfl : other = block := Option.some.inj (hother.symm.trans hblock)
      exact hindex.insert hoffset hnew
    case isFalse hi =>
      exact hindex.push fun heq => hi (congrArg BlockId.index heq)
  entryOwners := by
    have hlt : id.index < graph.blocks.size := lt_size_of_getElem? hblock
    refine h.entryOwners.push (fun _ entry _ howner => ?_) ?_
    · simpa [Graph.addEntry] using howner
    · simpa [Graph.addEntry] using hlt

/-- The entry points stay indexed when an edge is made. -/
theorem EntriesIndexed.addEdge (h : graph.EntriesIndexed) (edge : Edge) :
    (graph.addEdge edge).EntriesIndexed where
  maps := by
    refine h.maps.imp fun _ _ _ hindex => ?_
    simp only [Graph.addEdge]
    exact hindex.modify fun _ => ⟨rfl, rfl⟩
  entryOwners := by
    refine h.entryOwners.modify fun _ entry _ howner => ?_
    split <;> exact howner

/-- The entry points stay indexed when a block is noted as entered. -/
theorem EntriesIndexed.markEntered (h : graph.EntriesIndexed) (id : BlockId) :
    (graph.markEntered id).EntriesIndexed where
  maps := by
    refine h.maps.modify fun i block _ hindex => ?_
    split
    · exact ⟨hindex.start, hindex.ascending, hindex.mem_offsets, hindex.mem_iff⟩
    · exact hindex
  entryOwners := by
    refine h.entryOwners.imp fun _ entry _ howner => ?_
    simpa [Graph.markEntered] using howner

/-- No edge leaves an exit that is not there yet. -/
theorem EdgesListed.outgoing_fresh (h : graph.EdgesListed) :
    edgeIds graph.edges (·.source = ⟨graph.exits.size⟩) = [] := by
  refine edgeIds_eq_nil (h.ends.imp fun _ edge _ ⟨hsource, _⟩ => decide_eq_false fun heq => ?_)
  rw [heq] at hsource
  exact Nat.lt_irrefl _ hsource

/-- No edge arrives at an entry point that is not there yet. -/
theorem EdgesListed.incoming_fresh (h : graph.EdgesListed) :
    edgeIds graph.edges (·.target = ⟨graph.entries.size⟩) = [] := by
  refine edgeIds_eq_nil (h.ends.imp fun _ edge _ ⟨_, htarget⟩ => decide_eq_false fun heq => ?_)
  rw [heq] at htarget
  exact Nat.lt_irrefl _ htarget

/-- The edges stay listed when a block is appended. -/
theorem EdgesListed.addBlock (h : graph.EdgesListed) (offsets : Array Nat) (first last : Nat) :
    (graph.addBlock offsets first last).EdgesListed where
  ends := by
    refine h.ends.imp fun _ edge _ ⟨hsource, htarget⟩ => ?_
    simp only [Graph.addBlock, Array.size_push]
    omega
  outgoing := h.outgoing.push (fun _ _ _ hlist => hlist) h.outgoing_fresh.symm
  incoming := h.incoming.push (fun _ _ _ hlist => hlist) h.incoming_fresh.symm

/-- The edges stay listed when a block gets an entry point. -/
theorem EdgesListed.addEntry (h : graph.EdgesListed) (id : BlockId) (offset : Nat) :
    (graph.addEntry id offset).EdgesListed where
  ends := by
    refine h.ends.imp fun _ edge _ ⟨hsource, htarget⟩ => ?_
    simp only [Graph.addEntry, Array.size_push]
    omega
  outgoing := h.outgoing
  incoming := h.incoming.push (fun _ _ _ hlist => hlist) h.incoming_fresh.symm

/-- The edges stay listed when an edge is made between an exit and an entry point of the graph. -/
theorem EdgesListed.addEdge (h : graph.EdgesListed) {edge : Edge}
    (hsource : edge.source.index < graph.exits.size)
    (htarget : edge.target.index < graph.entries.size) : (graph.addEdge edge).EdgesListed where
  ends := by
    simp only [Graph.addEdge, Array.size_modify]
    exact h.ends.push (fun _ _ _ hends => hends) ⟨hsource, htarget⟩
  outgoing := by
    refine h.outgoing.modify fun i exit _ hlist => ?_
    simp only [Graph.addEdge]
    rw [edgeIds_push, ← hlist]
    -- The edge comes last in the list of its own exit and of no other.
    by_cases hi : edge.source.index = i <;> simp [ExitId.eq_mk_iff, hi]
  incoming := by
    refine h.incoming.modify fun i entry _ hlist => ?_
    simp only [Graph.addEdge]
    rw [edgeIds_push, ← hlist]
    by_cases hi : edge.target.index = i <;> simp [EntryId.eq_mk_iff, hi]

/-- The arrays agree when a block is appended whose first and last offsets are given. -/
theorem WellFormed.addBlock (h : graph.WellFormed) {offsets : Array Nat} {first last : Nat}
    (hfirst : offsets[0]? = some first) (hlast : offsets.back? = some last) :
    (graph.addBlock offsets first last).WellFormed where
  toExitsPaired := h.toExitsPaired.addBlock hlast first
  toEntriesIndexed := h.toEntriesIndexed.addBlock hfirst last
  toEdgesListed := h.toEdgesListed.addBlock offsets first last

/-- The arrays agree when a block gets an entry point at an instruction that has none. -/
theorem WellFormed.addEntry (h : graph.WellFormed) {id : BlockId} {block : Block} {offset : Nat}
    (hblock : graph.blocks[id.index]? = some block) (hoffset : offset ∈ block.offsets)
    (hnew : ∀ entry, (offset, entry) ∉ block.entries) : (graph.addEntry id offset).WellFormed where
  toExitsPaired := h.toExitsPaired.modifyBlock id.index (by simp) _
  toEntriesIndexed := h.toEntriesIndexed.addEntry hblock hoffset hnew
  toEdgesListed := h.toEdgesListed.addEntry id offset

/-- The arrays agree when an edge is made between an exit and an entry point of the graph. -/
theorem WellFormed.addEdge (h : graph.WellFormed) {edge : Edge}
    (hsource : edge.source.index < graph.exits.size)
    (htarget : edge.target.index < graph.entries.size) : (graph.addEdge edge).WellFormed where
  toExitsPaired := h.toExitsPaired.addEdge edge
  toEntriesIndexed := h.toEntriesIndexed.addEdge edge
  toEdgesListed := h.toEdgesListed.addEdge hsource htarget

/-- The arrays agree when a block is noted as entered. -/
theorem WellFormed.markEntered (h : graph.WellFormed) (id : BlockId) :
    (graph.markEntered id).WellFormed where
  toExitsPaired := h.toExitsPaired.modifyBlock id.index (by simp) _
  toEntriesIndexed := h.toEntriesIndexed.markEntered id
  toEdgesListed := ⟨h.ends, h.outgoing, h.incoming⟩

end Steps

/-! ## Every graph is well formed -/

section Run

variable {graph : Graph}

/-- The graph without blocks is well formed. -/
theorem WellFormed.empty : WellFormed {} where
  size_exits := rfl
  ids := .empty
  exitOwners := .empty
  maps := .empty
  entryOwners := .empty
  ends := .empty
  outgoing := .empty
  incoming := .empty

/-- The blocks of runs are well formed. -/
theorem WellFormed.ofRuns (runs : Array Run) : (Graph.ofRuns runs).WellFormed :=
  ofRuns_induction .empty
    (fun _ run h => h.addBlock run.getElem?_offsets_zero run.back?_offsets) runs

/-- Connecting a jump that lands keeps the arrays in agreement. -/
theorem WellFormed.connect (h : graph.WellFormed) {id : BlockId} {target : Nat} {source : ExitId}
    {landing : Landing} (hland : graph.landing? id target source = some landing)
    (transition : Transition) : (graph.connect landing target source transition).WellFormed := by
  obtain ⟨exit, hexit, hblock, -, -⟩ := landing?_eq_some_iff.mp hland
  have hindex := h.maps _ _ hblock
  have hid : landing.block.id = id := (h.ids _ _ hblock).1
  have hsource : source.index < graph.exits.size := lt_size_of_getElem? hexit
  -- Whether the block is noted as entered does not matter.
  have hmarked : ∀ joined : Graph, joined.WellFormed →
      (if landing.origin = id then joined else joined.markEntered id).WellFormed := by
    intro joined hjoined
    split
    · exact hjoined
    · exact hjoined.markEntered id
  unfold Graph.connect
  rw [hid]
  apply hmarked
  cases hentry : landing.block.entryFor? target with
  | some entry =>
    -- The jump arrives at an entry point of the graph.
    obtain ⟨offset, hmem⟩ := hindex.exists_mem_of_entryFor? hentry
    obtain ⟨point, hpoint, -⟩ := hindex.mem_iff.mp hmem
    exact h.addEdge hsource (lt_size_of_getElem? hpoint)
  | none =>
    -- The entry point is made first, and the jump arrives there.
    obtain ⟨hstarts, hnew⟩ := Block.of_entryFor?_eq_none hentry
    have hadded := h.addEntry hblock (Block.mem_offsets_of_startsInstruction hstarts) hnew
    have htarget : graph.entries.size < (graph.addEntry id target).entries.size := by
      simp [Graph.addEntry]
    exact hadded.addEdge hsource htarget

/-- Each way in which a graph grows keeps the arrays in agreement. -/
theorem Kept.wellFormed : Kept WellFormed where
  connect h hland transition := h.connect hland transition
  unresolved _ h := ⟨⟨h.size_exits, h.ids, h.exitOwners⟩, ⟨h.maps, h.entryOwners⟩,
    ⟨h.ends, h.outgoing, h.incoming⟩⟩

/-- The arrays of the graph of a script agree with each other. -/
theorem wellFormed_ofScript (script : Script) (roles : Roles) :
    (ofScript script roles).WellFormed :=
  Kept.wellFormed.ofScript (.ofRuns _)

end Run

/-! ## What the lists of a well-formed graph say -/

section Lists

variable {graph : Graph}

/-- The block to which an entry point belongs. -/
def owner? (graph : Graph) (id : EntryId) : Option BlockId :=
  (graph.entries[id.index]?).map (·.block)

/-- An entry point has its place in the map of its block. -/
theorem EntriesIndexed.mem_entries (h : graph.EntriesIndexed) :
    AtEach graph.entries fun e entry =>
      ∃ block, graph.block? entry.block = some block ∧ (entry.offset, ⟨e⟩) ∈ block.entries := by
  intro e entry hentry
  have hlt := h.entryOwners e entry hentry
  refine ⟨graph.blocks[entry.block.index], Array.getElem?_eq_getElem hlt, ?_⟩
  exact (h.maps _ _ (Array.getElem?_eq_getElem hlt)).mem_iff.mpr ⟨entry, hentry, rfl, rfl⟩

/-- An offset in the map of a block stands for one entry point. -/
theorem EntriesIndexed.existsUnique_entryAt (h : graph.EntriesIndexed) :
    AtEach graph.blocks fun i block =>
      ∀ offset ∈ block.entries.map Prod.fst, ∃! id, EntryAt graph.entries id ⟨i⟩ offset := by
  intro i block hblock offset hoffset
  have hindex := h.maps i block hblock
  obtain ⟨⟨_, id⟩, hmem, rfl⟩ := List.mem_map.mp hoffset
  exact ⟨id, hindex.mem_iff.mp hmem, fun other hother =>
    hindex.eq_of_mem (hindex.mem_iff.mpr hother) hmem⟩

/-- An edge has both ends in the graph. The lists of the exits have it once in all, at the exit
that it leaves, and those of the entry points once, at the one at which it arrives. -/
theorem EdgesListed.count (h : graph.EdgesListed) :
    AtEach graph.edges fun k edge =>
      edge.source.index < graph.exits.size ∧ edge.target.index < graph.entries.size ∧
      (AtEach graph.exits fun x exit =>
        exit.outgoing.count ⟨k⟩ = if edge.source = ⟨x⟩ then 1 else 0) ∧
      AtEach graph.entries fun e entry =>
        entry.incoming.count ⟨k⟩ = if edge.target = ⟨e⟩ then 1 else 0 := by
  intro k edge hedge
  obtain ⟨hsource, htarget⟩ := h.ends k edge hedge
  refine ⟨hsource, htarget, h.outgoing.imp fun x exit _ hlist => ?_,
    h.incoming.imp fun e entry _ hlist => ?_⟩
  · rw [← Array.count_toList, hlist, count_edgeIds hedge]
    simp
  · rw [← Array.count_toList, hlist, count_edgeIds hedge]
    simp

/-- The successors of a block are read off the edges that leave its exit, in the order in which
they were made, each with the block that owns its target. -/
theorem WellFormed.successors_eq (h : graph.WellFormed) :
    AtEach graph.blocks fun i block =>
      (graph.successors ⟨i⟩).map (fun (next, transition) => (some next, transition)) =
        (graph.edges.toList.filter (·.source = block.exit)).map fun edge =>
          (graph.owner? edge.target, edge.transition) := by
  intro i block hblock
  have hexit : block.exit = ⟨i⟩ := (h.ids i block hblock).2
  have hlt : i < graph.exits.size := by
    rw [h.size_exits]
    exact lt_size_of_getElem? hblock
  have hlist := h.outgoing i _ (Array.getElem?_eq_getElem hlt)
  simp only [Graph.successors, Graph.block?, hblock, Option.bind_some, hexit,
    Array.getElem?_eq_getElem hlt, hlist, List.map_filterMap]
  -- Every listed edge is there, and so is the entry point at which it arrives.
  refine filterMap_edgeIds fun k edge hedge => ?_
  have htarget := (h.ends k edge hedge).2
  simp [Graph.edge?, Graph.owner?, hedge, Array.getElem?_eq_getElem htarget]

end Lists

/-- The arrays of a graph agree with each other, whatever jumps the graph of a script is offered:
the entry points are in bijection with the places in the maps of the blocks, every edge is listed
once at each end and nowhere else, and the successors of a block are the edges that leave it. -/
theorem wellFormed_offerAll_ofScript (script : Script) (roles : Roles) (offers : List Offer) :
    let graph := (Graph.ofScript script roles).offerAll offers
    graph.WellFormed ∧
    (AtEach graph.entries fun e entry =>
      ∃ block, graph.block? entry.block = some block ∧ (entry.offset, ⟨e⟩) ∈ block.entries) ∧
    (AtEach graph.blocks fun i block =>
      ∀ offset ∈ block.entries.map Prod.fst, ∃! id, EntryAt graph.entries id ⟨i⟩ offset) ∧
    (AtEach graph.edges fun k edge =>
      edge.source.index < graph.exits.size ∧ edge.target.index < graph.entries.size ∧
      (AtEach graph.exits fun x exit =>
        exit.outgoing.count ⟨k⟩ = if edge.source = ⟨x⟩ then 1 else 0) ∧
      AtEach graph.entries fun e entry =>
        entry.incoming.count ⟨k⟩ = if edge.target = ⟨e⟩ then 1 else 0) ∧
    AtEach graph.blocks fun i block =>
      (graph.successors ⟨i⟩).map (fun (next, transition) => (some next, transition)) =
        (graph.edges.toList.filter (·.source = block.exit)).map fun edge =>
          (graph.owner? edge.target, edge.transition) := by
  intro graph
  have h : graph.WellFormed := Kept.wellFormed.offerAll (wellFormed_ofScript script roles) offers
  exact ⟨h, h.mem_entries, h.existsUnique_entryAt, h.count, h.successors_eq⟩

/-- A jump back to the second instruction of an earlier block makes an entry point there. -/
example :
    let graph := (({} : Graph).addBlock #[0, 8] 0 8).addBlock #[20] 20 20
    (graph.offer ⟨⟨0⟩, 8, ⟨1⟩, {}⟩).successors ⟨1⟩ = [(⟨0⟩, {})] ∧
      (graph.offer ⟨⟨0⟩, 9, ⟨1⟩, {}⟩) = graph := by
  decide +kernel

end Graph

end PacScript.Flow
