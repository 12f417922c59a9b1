import PacScript.Proofs.Flow.Routing

/-!
# What accepting a jump changes

A jump that is offered to a block is refused, and nothing happens, or it becomes one edge
(`Graph.AllOrNothing`). It is refused when its exit or its block does not belong to the graph, and
when the block starts at or before the target without an instruction there (`Graph.Refuses`). The
edge of an accepted jump is listed at the exit that it leaves and at the entry point where it
lands (`Graph.LandsAt`). The block may get this entry point and may lose its mark, and nothing else
changes (`Graph.Gains`).
-/

namespace PacScript.Flow

/-- What is found in an array, one of whose elements is known. -/
theorem getElem?_eq_ite {α : Type} {xs : Array α} {j : Nat} {x : α} (hx : xs[j]? = some x)
    (i : Nat) : xs[i]? = if i = j then some x else xs[i]? := by
  split
  case isTrue hij => rw [hij, hx]
  case isFalse => rfl

/-- What is found in an array in which one element has been changed. -/
theorem getElem?_modify_of_getElem? {α : Type} {xs : Array α} {j : Nat} {x : α}
    (hx : xs[j]? = some x) (f : α → α) (i : Nat) :
    (xs.modify j f)[i]? = if i = j then some (f x) else xs[i]? := by
  rw [Array.getElem?_modify]
  by_cases hij : i = j
  · rw [if_pos hij.symm, if_pos hij, hij, hx, Option.map_some]
  · rw [if_neg (Ne.symm hij), if_neg hij]

namespace Graph

/-- The exit or the block does not belong to the graph, or the block starts at or before the target
and has no instruction there. -/
def Refuses (graph : Graph) (offer : Offer) : Prop :=
  graph.exits.size ≤ offer.source.index ∨ graph.blocks.size ≤ offer.block.index ∨
    ∃ block, graph.blocks[offer.block.index]? = some block ∧ offer.target ∉ block.offsets ∧
      block.first ≤ offer.target

/-- Where a jump into a block lands: at which entry point, what this is before the edge is listed
there, and the entry points of the block when it is there. -/
inductive LandsAt (graph : Graph) (block : Block) (target : Nat) :
    EntryId → EntryPoint → List (Nat × EntryId) → Prop
  /-- The instruction at the target has an entry point already. -/
  | existing {id point} (hoffset : target ∈ block.offsets) (hmem : (target, id) ∈ block.entries)
      (hpoint : graph.entries[id.index]? = some point) :
      LandsAt graph block target id point block.entries
  /-- The instruction at the target has none, and gets one, at which no edge arrives yet. -/
  | made {pairs} (hoffset : target ∈ block.offsets) (hnone : ∀ id, (target, id) ∉ block.entries)
      (hmem : ∀ pair, pair ∈ pairs ↔ pair = (target, ⟨graph.entries.size⟩) ∨ pair ∈ block.entries)
      (hascending : pairs.Pairwise (·.1 < ·.1)) :
      LandsAt graph block target ⟨graph.entries.size⟩ { block := block.id, offset := target } pairs
  /-- The target is in front of the block. -/
  | start {point} (hbefore : target < block.first)
      (hpoint : graph.entries[block.startEntry.index]? = some point) :
      LandsAt graph block target block.startEntry point block.entries

/-- The graph has gained the edge of a jump from the exit to the entry point, and nothing else. -/
structure Gains (graph : Graph) (offer : Offer) (exit : ExitPoint) (block : Block) (id : EntryId)
    (point : EntryPoint) (pairs : List (Nat × EntryId)) (grown : Graph) : Prop where
  /-- The edge comes behind the others. -/
  edges : grown.edges = graph.edges.push ⟨offer.source, id, offer.transition⟩
  /-- It is the last one that the exit lists. -/
  exits : ∀ i : Nat, grown.exits[i]? =
    if i = offer.source.index then
      some { exit with outgoing := exit.outgoing.push ⟨graph.edges.size⟩ }
    else graph.exits[i]?
  /-- It is the last one that the entry point lists. -/
  entries : ∀ i : Nat, grown.entries[i]? =
    if i = id.index then some { point with incoming := point.incoming.push ⟨graph.edges.size⟩ }
    else graph.entries[i]?
  /-- The block has the entry point, and is no source when the jump leaves another block. -/
  blocks : ∀ i : Nat, grown.blocks[i]? =
    if i = offer.block.index then
      some { block with
        entries := pairs, isSource := block.isSource && decide (exit.block = offer.block) }
    else graph.blocks[i]?
  /-- The jumps that no block took are those of before. -/
  unresolved : grown.unresolved = graph.unresolved

/-- An offer is refused and changes nothing, or makes one edge. -/
structure AllOrNothing (graph : Graph) (offer : Offer) : Prop where
  /-- When it is refused. -/
  accept_eq_none_iff : graph.accept offer.block offer.target offer.source offer.transition = none ↔
    graph.Refuses offer
  /-- A refusal leaves the graph as it is. -/
  offer_eq_self : graph.Refuses offer → graph.offer offer = graph
  /-- Acceptance returns the index of the edge that the graph has gained. -/
  gains : ∀ grown edge,
    graph.accept offer.block offer.target offer.source offer.transition = some (grown, edge) →
    graph.offer offer = grown ∧ edge = ⟨graph.edges.size⟩ ∧
      ∃ exit block id point pairs, graph.exits[offer.source.index]? = some exit ∧
        graph.blocks[offer.block.index]? = some block ∧
        graph.LandsAt block offer.target id point pairs ∧
        graph.Gains offer exit block id point pairs grown

variable {graph : Graph} {block : Block} {target : Nat}

/-- A jump lands unless it is refused. -/
theorem Ordered.landing?_eq_none_iff (h : graph.Ordered) (offer : Offer) :
    graph.landing? offer.block offer.target offer.source = none ↔ graph.Refuses offer := by
  unfold Refuses landing?
  rw [← Array.getElem?_eq_none_iff, ← Array.getElem?_eq_none_iff]
  cases graph.exits[offer.source.index]? with
  | none => simp
  | some exit =>
    cases hblock : graph.blocks[offer.block.index]? with
    | none => simp
    | some block =>
      have htakes : block.takes offer.target = true ↔ _ :=
        h.takes_iff_first (Array.mem_of_getElem? hblock)
      simp [htakes]

/-- A jump that a block takes has an entry point there, which the graph has already or gets. -/
theorem WellFormed.landsAt_withEntry (h : graph.WellFormed) (hordered : graph.Ordered)
    {id : BlockId} (hblock : graph.blocks[id.index]? = some block)
    (htakes : block.takes target = true) :
    ∃ point pairs, graph.LandsAt block target (graph.withEntry block target).2 point pairs ∧
      (∀ i : Nat, (graph.withEntry block target).1.entries[i]? =
        if i = (graph.withEntry block target).2.index then some point else graph.entries[i]?) ∧
      ∀ i : Nat, (graph.withEntry block target).1.blocks[i]? =
        if i = id.index then some { block with entries := pairs } else graph.blocks[i]? := by
  have hindex := h.maps _ _ hblock
  have hmem := Array.mem_of_getElem? hblock
  unfold withEntry
  cases hentry : block.entryFor? target with
  | some entry =>
    dsimp only
    -- Nothing is made, so that what stands at the two indices is what stood there.
    obtain ⟨offset, hlisted⟩ := hindex.exists_mem_of_entryFor? hentry
    obtain ⟨point, hpoint, -⟩ := hindex.mem_iff.1 hlisted
    refine ⟨point, block.entries, ?_, ?_, ?_⟩
    · unfold Block.entryFor? at hentry
      split at hentry
      case isTrue hstarts =>
        obtain ⟨before, behind, hsplit, -⟩ := List.lookup_eq_some_iff.1 hentry
        exact .existing ((hordered.startsInstruction_iff hmem).1 hstarts) (by simp [hsplit]) hpoint
      case isFalse hstarts =>
        obtain rfl := Option.some.inj hentry
        rw [hordered.startsInstruction_iff hmem] at hstarts
        exact .start (((hordered.takes_iff_first hmem).1 htakes).resolve_left hstarts) hpoint
    · exact getElem?_eq_ite hpoint
    · exact getElem?_eq_ite hblock
  | none =>
    -- The instruction at the target has no entry point, and the new one comes behind all others.
    obtain ⟨hstarts, hnone⟩ := Block.of_entryFor?_eq_none hentry
    refine ⟨{ block := block.id, offset := target },
      Block.insertEntry target ⟨graph.entries.size⟩ block.entries, ?_, ?_, ?_⟩
    · exact .made ((hordered.startsInstruction_iff hmem).1 hstarts) hnone
        (fun _ => Block.mem_insertEntry_iff) (Block.pairwise_insertEntry hindex.ascending hnone)
    · intro i
      exact Array.getElem?_push
    · intro i
      have hid : block.id.index = id.index := congrArg BlockId.index (h.ids _ _ hblock).1
      simp only [Graph.addEntry, hid]
      exact getElem?_modify_of_getElem? hblock _ i

/-- The exit that an edge leaves comes to list it, and no other does. -/
theorem getElem?_exits_addEdge {edge : Edge} {exit : ExitPoint}
    (hexit : graph.exits[edge.source.index]? = some exit) (i : Nat) :
    (graph.addEdge edge).exits[i]? =
      if i = edge.source.index then
        some { exit with outgoing := exit.outgoing.push ⟨graph.edges.size⟩ }
      else graph.exits[i]? :=
  getElem?_modify_of_getElem? hexit _ i

/-- The entry point at which an edge arrives comes to list it, and no other does. -/
theorem getElem?_entries_addEdge {edge : Edge} {point : EntryPoint}
    (hpoint : graph.entries[edge.target.index]? = some point) (i : Nat) :
    (graph.addEdge edge).entries[i]? =
      if i = edge.target.index then
        some { point with incoming := point.incoming.push ⟨graph.edges.size⟩ }
      else graph.entries[i]? :=
  getElem?_modify_of_getElem? hpoint _ i

/-- An edge changes no block. -/
theorem blocks_addEdge (graph : Graph) (edge : Edge) :
    (graph.addEdge edge).blocks = graph.blocks :=
  rfl

section Mark

variable {id origin : BlockId}

/-- A block that is entered from another one loses its mark, and no other block changes. -/
theorem getElem?_blocks_mark (hblock : graph.blocks[id.index]? = some block) (i : Nat) :
    (if origin = id then graph else graph.markEntered id).blocks[i]? =
      if i = id.index then some { block with isSource := block.isSource && decide (origin = id) }
      else graph.blocks[i]? := by
  split
  case isTrue hsame =>
    simp only [hsame, decide_true, Bool.and_true]
    exact getElem?_eq_ite hblock i
  case isFalse hother =>
    simp only [hother, decide_false, Bool.and_false]
    exact getElem?_modify_of_getElem? hblock _ i

/-- The mark of a block is all that changes. -/
theorem mark_frame (graph : Graph) (origin id : BlockId) :
    (if origin = id then graph else graph.markEntered id).edges = graph.edges ∧
      (if origin = id then graph else graph.markEntered id).exits = graph.exits ∧
      (if origin = id then graph else graph.markEntered id).entries = graph.entries ∧
      (if origin = id then graph else graph.markEntered id).unresolved = graph.unresolved := by
  split <;> exact ⟨rfl, rfl, rfl, rfl⟩

end Mark

/-- A jump that is connected makes one edge, and changes what lists the edge. -/
theorem WellFormed.gains_connect (h : graph.WellFormed) (hordered : graph.Ordered) {offer : Offer}
    {landing : Landing}
    (hland : graph.landing? offer.block offer.target offer.source = some landing) :
    ∃ exit block id point pairs, graph.exits[offer.source.index]? = some exit ∧
      graph.blocks[offer.block.index]? = some block ∧
      graph.LandsAt block offer.target id point pairs ∧
      graph.Gains offer exit block id point pairs
        (graph.connect landing offer.target offer.source offer.transition) := by
  obtain ⟨exit, hexit, hblock, htakes, horigin⟩ := landing?_eq_some_iff.1 hland
  obtain ⟨point, pairs, hlands, hentries, hblocks⟩ := h.landsAt_withEntry hordered hblock htakes
  obtain ⟨hedges, hexits, hunresolved⟩ := graph.withEntry_frame landing.block offer.target
  refine ⟨exit, landing.block, _, point, pairs, hexit, hblock, hlands, ?_⟩
  rw [connect_eq, (h.ids _ _ hblock).1, horigin]
  -- From here on only what is known of the graph with the entry point matters.
  generalize graph.withEntry landing.block offer.target = step at *
  obtain ⟨entered, id⟩ := step
  dsimp only at *
  -- The edge is listed at the exit and at the entry point, which is in the graph by now.
  have hpoint : entered.entries[id.index]? = some point := by rw [hentries, if_pos rfl]
  have hentered : entered.blocks[offer.block.index]? =
      some { landing.block with entries := pairs } := by rw [hblocks, if_pos rfl]
  obtain ⟨hedges', hexits', hentries', hunresolved'⟩ := mark_frame
    (entered.addEdge ⟨offer.source, id, offer.transition⟩) exit.block ⟨offer.block.index⟩
  constructor
  · rw [hedges', ← hedges]
    rfl
  · intro i
    rw [hexits', getElem?_exits_addEdge (hexits ▸ hexit), hexits, hedges]
  · intro i
    rw [hentries', getElem?_entries_addEdge hpoint, hedges, hentries]
    split <;> rfl
  · intro i
    rw [getElem?_blocks_mark (by rw [blocks_addEdge, hentered]), blocks_addEdge, hblocks]
    split <;> rfl
  · rw [hunresolved', ← hunresolved]
    rfl

/-- In a graph whose arrays agree and whose offsets ascend, an offer is refused and changes nothing,
or makes one edge. -/
theorem WellFormed.allOrNothing (h : graph.WellFormed) (hordered : graph.Ordered) (offer : Offer) :
    graph.AllOrNothing offer := by
  have hrefused : graph.accept offer.block offer.target offer.source offer.transition = none ↔
      graph.Refuses offer := by
    rw [accept, Option.map_eq_none_iff, hordered.landing?_eq_none_iff]
  refine ⟨hrefused, ?_, ?_⟩
  · intro hrefuses
    rw [Graph.offer, hrefused.2 hrefuses]
  · intro grown edge haccept
    refine ⟨by rw [Graph.offer, haccept], ?_⟩
    obtain ⟨landing, hland, heq⟩ := Option.map_eq_some_iff.1 haccept
    obtain ⟨rfl, rfl⟩ := Prod.mk.inj heq
    exact ⟨rfl, h.gains_connect hordered hland⟩

/-- In the graph of the script of a scan, whatever jumps it has been offered, a further offer is
refused and changes nothing, or makes one edge. -/
theorem allOrNothing_of_scan {scanner : Scanner} {data : ByteArray} {script : Script}
    (hscan : scanner.scan data = .ok script) (roles : Roles) (offers : List Offer) (offer : Offer) :
    ((ofScript script roles).offerAll offers).AllOrNothing offer := by
  have hwell := Kept.wellFormed.offerAll (wellFormed_ofScript script roles) offers
  have hgrows := (Kept.extends _).offerAll (extends_ofScript script roles) offers
  exact hwell.allOrNothing (hgrows.ordered hwell (Scanner.pairwise_instructions hscan)) offer

/-- A jump from the second block to the second instruction of the first one gets the entry point
that is missing there. Behind it, a jump to a place inside that instruction is refused. -/
theorem allOrNothing_branching :
    ∃ script, Scanner.branching.scan ⟨#[0x25, 1, 0, 0, 0x25, 2, 0, 0, 4, 0, 0, 0, 0x25, 1, 0, 0,
        0xAA, 0xAA, 0x25, 1, 0, 0]⟩ = .ok script ∧
      ((ofScript script {}).offer ⟨⟨0⟩, 4, ⟨1⟩, {}⟩).edges.back? = some ⟨⟨1⟩, ⟨3⟩, {}⟩ ∧
      (ofScript script {}).AllOrNothing ⟨⟨0⟩, 4, ⟨1⟩, {}⟩ ∧
      ((ofScript script {}).offer ⟨⟨0⟩, 4, ⟨1⟩, {}⟩).accept ⟨0⟩ 6 ⟨1⟩ {} = none ∧
      ((ofScript script {}).offer ⟨⟨0⟩, 4, ⟨1⟩, {}⟩).AllOrNothing ⟨⟨0⟩, 6, ⟨1⟩, {}⟩ := by
  have hseen : (Scanner.branching.scan ⟨#[0x25, 1, 0, 0, 0x25, 2, 0, 0, 4, 0, 0, 0, 0x25, 1, 0, 0,
      0xAA, 0xAA, 0x25, 1, 0, 0]⟩).toOption.map (fun script =>
        (((ofScript script {}).offer ⟨⟨0⟩, 4, ⟨1⟩, {}⟩).edges.back?,
          ((ofScript script {}).offer ⟨⟨0⟩, 4, ⟨1⟩, {}⟩).accept ⟨0⟩ 6 ⟨1⟩ {})) =
      some (some ⟨⟨1⟩, ⟨3⟩, {}⟩, none) := by decide +kernel
  obtain ⟨script, hscan, hview⟩ := Scanner.exists_script hseen
  obtain ⟨hedge, hrefused⟩ := Prod.mk.inj hview
  exact ⟨script, hscan, hedge, allOrNothing_of_scan hscan {} [] _, hrefused,
    allOrNothing_of_scan hscan {} [⟨⟨0⟩, 4, ⟨1⟩, {}⟩] _⟩

end Graph

end PacScript.Flow
