import Mathlib.Data.List.Find
import PacScript.Proofs.Flow.Conservation
import PacScript.Proofs.Flow.Order

/-!
# Which block takes a jump

A jump that is routed is offered to two blocks only, which a search finds: the last one that starts
at or before the target, and the one behind it. In an ordered graph these are the only ones that may
take the jump, and so the outcome is that of offering the jump to all blocks in order
(`RoutesInOrder`).

The graph of a script is made by routing its jumps one after the other, from the graph with the
edges between neighbours (`foldl_routeJump_eq_ofScript`). The graph grows meanwhile, but its blocks
stay where they are, so that each of the jumps is resolved as the instructions of the script say
(`Graph.Resolves`).
-/

namespace PacScript.Flow.Graph

variable {graph : Graph} {jump : UnresolvedJump} {target : Nat} {source : ExitId}

/-- Routes a jump. -/
def routeJump (graph : Graph) (jump : UnresolvedJump) : Graph :=
  graph.route jump.target jump.source jump.transition

/-- Offers a jump to one block after the other, up to the first that accepts it. A jump that none
accepts is unresolved. -/
def offerInOrder (graph : Graph) (jump : UnresolvedJump) : Graph :=
  match graph.blocks.toList.findSome? fun block =>
      graph.accept block.id jump.target jump.source jump.transition with
  | some (grown, _) => grown
  | none => { graph with unresolved := graph.unresolved.push jump }

/-! ## The block that takes a jump -/

/-- The first block that takes a jump to the offset. -/
def receiver? (graph : Graph) (target : Nat) : Option Block :=
  graph.blocks.toList.find? (·.takes target)

namespace Ordered

/-- A block takes a jump to one of its instructions, and a jump to a place in front of it. -/
theorem takes_iff_first (h : graph.Ordered) {block : Block} (hmem : block ∈ graph.blocks) :
    block.takes target = true ↔ target ∈ block.offsets ∨ target < block.first := by
  rw [Block.takes, Bool.or_eq_true, decide_eq_true_iff, h.startsInstruction_iff hmem]

/-- The blocks behind a place are those that the search does not count. -/
theorem takes_iff (h : graph.Ordered) {i : Nat} {block : Block}
    (hblock : graph.blocks[i]? = some block) :
    block.takes target = true ↔ target ∈ block.offsets ∨ graph.startedBy target ≤ i := by
  rw [h.takes_iff_first (Array.mem_of_getElem? hblock), ← Nat.not_le, ← h.lt_startedBy_iff hblock,
    Nat.not_lt]

/-- A block that has an instruction at the target is the first one that takes the jump. -/
theorem receiver?_of_mem (h : graph.Ordered) {i : Nat} {block : Block}
    (hblock : graph.blocks[i]? = some block) (hoffset : target ∈ block.offsets) :
    graph.receiver? target = some block := by
  have htakes := (h.takes_iff hblock).2 (Or.inl hoffset)
  have hstarted := h.startedBy_eq hblock hoffset
  obtain ⟨hi, hget⟩ := Array.getElem?_eq_some_iff.1 hblock
  rw [receiver?, List.find?_eq_some_iff_getElem]
  refine ⟨htakes, i, by simpa using hi, by simpa using hget, ?_⟩
  -- An earlier block is not behind the target, and does not list it.
  intro j hj
  have hearlier : graph.blocks[j]? = some graph.blocks[j] := Array.getElem?_eq_getElem (by omega)
  rw [Array.getElem_toList, Bool.not_eq_true', ← Bool.not_eq_true, h.takes_iff hearlier]
  intro htaken
  rcases htaken with hlisted | hbehind
  · have hsame := h.startedBy_eq hearlier hlisted
    omega
  · omega

/-- The first block behind an offset is found under the number of those that start at or before
it. -/
theorem find?_first (h : graph.Ordered) (target : Nat) :
    graph.blocks.toList.find? (fun block => target < block.first) =
      graph.blocks[graph.startedBy target]? := by
  have hbehind : ∀ i (hi : i < graph.blocks.size),
      target < graph.blocks[i].first ↔ graph.startedBy target ≤ i := by
    intro i hi
    rw [← Nat.not_le, ← h.lt_startedBy_iff (Array.getElem?_eq_getElem hi), Nat.not_lt]
  rcases Nat.lt_or_ge (graph.startedBy target) graph.blocks.size with hlt | hge
  · rw [Array.getElem?_eq_getElem hlt, List.find?_eq_some_iff_getElem]
    refine ⟨decide_eq_true ((hbehind _ hlt).2 (Nat.le_refl _)), _, by simpa using hlt, by simp, ?_⟩
    intro j hj
    simp only [Array.getElem_toList, hbehind j (by omega), Nat.not_le.2 hj, decide_false,
      Bool.not_false]
  · rw [Array.getElem?_eq_none hge, List.find?_eq_none]
    intro block hmem
    obtain ⟨i, hi, rfl⟩ := Array.mem_iff_getElem.1 (Array.mem_toList_iff.1 hmem)
    rw [decide_eq_true_iff, hbehind i hi]
    omega

/-- Without an instruction at the target, none of a block starts there. -/
theorem startsInstruction_of_notMem (h : graph.Ordered) {block : Block}
    (hmem : block ∈ graph.blocks) (hnot : target ∉ graph.places) :
    block.startsInstruction target = false := by
  rw [← Bool.not_eq_true, h.startsInstruction_iff hmem]
  exact fun hoffset => hnot (mem_places_iff.2 ⟨block, hmem, hoffset⟩)

/-- Without an instruction at the target, the first block that takes the jump is the first one
behind the target. -/
theorem receiver?_of_notMem (h : graph.Ordered) (hnot : target ∉ graph.places) :
    graph.receiver? target = graph.blocks.toList.find? (fun block => target < block.first) := by
  apply List.find?_congr
  intro block hmem
  rw [Array.mem_toList_iff] at hmem
  rw [Block.takes, h.startsInstruction_of_notMem hmem hnot, Bool.false_or]

end Ordered

/-- What becomes of a jump from the exit of a graph, by the block that takes it. -/
def settle (graph : Graph) (jump : UnresolvedJump) (exit : ExitPoint) : Option Block → Graph
  | some block => graph.connect ⟨block, exit.block⟩ jump.target jump.source jump.transition
  | none => { graph with unresolved := graph.unresolved.push jump }

section Exit

variable {exit : ExitPoint}

/-- A block accepts the jumps that it takes. -/
theorem WellFormed.accept_eq (h : graph.WellFormed)
    (hexit : graph.exits[source.index]? = some exit) {block : Block} (hmem : block ∈ graph.blocks)
    (target : Nat) (transition : Transition) :
    graph.accept block.id target source transition =
      if block.takes target then
        some (graph.connect ⟨block, exit.block⟩ target source transition, ⟨graph.edges.size⟩)
      else none := by
  obtain ⟨i, hblock⟩ := Array.mem_iff_getElem?.1 hmem
  rw [(h.ids i block hblock).1]
  simp only [accept, landing?, hexit, hblock]
  split <;> rfl

/-- A jump that is offered to the blocks in order goes to the first one that takes it. -/
theorem WellFormed.offerInOrder_eq (h : graph.WellFormed)
    (hexit : graph.exits[jump.source.index]? = some exit) :
    graph.offerInOrder jump = graph.settle jump exit (graph.receiver? jump.target) := by
  have haccept : ∀ block ∈ graph.blocks.toList,
      graph.accept block.id jump.target jump.source jump.transition = _ := fun block hmem =>
    h.accept_eq hexit (Array.mem_toList_iff.1 hmem) jump.target jump.transition
  unfold offerInOrder
  cases hreceiver : graph.receiver? jump.target with
  | none =>
    have hnone := List.find?_eq_none.1 hreceiver
    have hfound : (graph.blocks.toList.findSome? fun block =>
        graph.accept block.id jump.target jump.source jump.transition) = none := by
      rw [List.findSome?_eq_none_iff]
      intro block hmem
      rw [haccept block hmem, if_neg (hnone block hmem)]
    rw [hfound]
    rfl
  | some block =>
    obtain ⟨htakes, before, behind, hsplit, hbefore⟩ := List.find?_eq_some_iff_append.1 hreceiver
    have hfound : (graph.blocks.toList.findSome? fun block =>
        graph.accept block.id jump.target jump.source jump.transition) =
          some (graph.connect ⟨block, exit.block⟩ jump.target jump.source jump.transition,
            ⟨graph.edges.size⟩) := by
      rw [List.findSome?_eq_some_iff]
      -- The blocks in front of the receiver refuse the jump, and leave the graph as it is.
      refine ⟨before, block, behind, hsplit, ?_, ?_⟩
      · rw [haccept block (by simp [hsplit]), if_pos htakes]
      · intro other hmem
        have hnot := hbefore other hmem
        rw [Bool.not_eq_true', ← Bool.not_eq_true] at hnot
        rw [haccept other (by simp [hsplit, hmem]), if_neg hnot]
    rw [hfound]
    rfl

/-- A jump lands on a block that takes it. -/
theorem landing?_of_takes (hexit : graph.exits[source.index]? = some exit) {i : Nat}
    {block : Block} (hblock : graph.blocks[i]? = some block) (htakes : block.takes target = true) :
    graph.landing? ⟨i⟩ target source = some ⟨block, exit.block⟩ :=
  landing?_eq_some_iff.2 ⟨exit, hexit, hblock, htakes, rfl⟩

/-- A jump does not land on a block that does not take it. -/
theorem landing?_eq_none {id : BlockId}
    (hnot : ∀ block, graph.blocks[id.index]? = some block → ¬ block.takes target = true) :
    graph.landing? id target source = none := by
  rw [Option.eq_none_iff_forall_not_mem]
  intro landing hland
  obtain ⟨exit, -, hblock, htakes, -⟩ := landing?_eq_some_iff.1 hland
  exact hnot landing.block hblock htakes

/-- A jump that is routed goes to the first block that takes it. -/
theorem Ordered.routeJump_eq_settle (h : graph.Ordered)
    (hexit : graph.exits[jump.source.index]? = some exit) :
    graph.routeJump jump = graph.settle jump exit (graph.receiver? jump.target) := by
  unfold routeJump route
  by_cases hlisted : jump.target ∈ graph.places
  · -- The block that lists the target is the last one that starts at or before it.
    obtain ⟨block, hmem, hoffset⟩ := mem_places_iff.1 hlisted
    obtain ⟨i, hblock⟩ := Array.mem_iff_getElem?.1 hmem
    have htakes := (h.takes_iff hblock).2 (Or.inl hoffset)
    rw [h.receiver?_of_mem hblock hoffset, h.startedBy_eq hblock hoffset]
    simp only [Nat.add_one_ne_zero, if_false, Nat.add_sub_cancel,
      landing?_of_takes hexit hblock htakes, Option.some_or]
    rfl
  · -- The last block that starts at or before the target does not take it, and the next one does.
    have hinside : (if graph.startedBy jump.target = 0 then none
        else graph.landing? ⟨graph.startedBy jump.target - 1⟩ jump.target jump.source) = none := by
      split
      · rfl
      · rename_i hpos
        apply landing?_eq_none
        intro block hblock htakes
        rcases (h.takes_iff hblock).1 htakes with hoffset | hbehind
        · exact hlisted (mem_places_iff.2 ⟨block, Array.mem_of_getElem? hblock, hoffset⟩)
        · dsimp only at hbehind
          omega
    rw [h.receiver?_of_notMem hlisted, h.find?_first]
    simp only [hinside, Option.none_or]
    cases hblock : graph.blocks[graph.startedBy jump.target]? with
    | none =>
      have hland : graph.landing? ⟨graph.startedBy jump.target⟩ jump.target jump.source = none :=
        landing?_eq_none fun block hsome => by simp [hblock] at hsome
      rw [hland]
      rfl
    | some block =>
      have htakes := (h.takes_iff hblock).2 (Or.inr (Nat.le_refl _))
      rw [landing?_of_takes hexit hblock htakes]
      rfl

/-- The jump has been resolved as the instructions of the script say. -/
structure Resolves (graph : Graph) (script : Script) (jump : UnresolvedJump) (grown : Graph) :
    Prop where
  /-- What has become of the jump is what becomes of it when it is offered to all blocks. -/
  inOrder : grown = graph.offerInOrder jump
  /-- A jump to an instruction goes to the entry point there, of the block of the instruction. -/
  toInstruction : (∃ instruction ∈ script.instructions, instruction.offset = jump.target) →
    ∃ block entry, graph.blockAt? jump.target = some block ∧
      EntryAt grown.entries entry block.id jump.target ∧
      grown.edges = graph.edges.push ⟨jump.source, entry, jump.transition⟩ ∧
      grown.unresolved = graph.unresolved
  /-- Another jump goes to the start of the first block behind its target. -/
  toFollowing : (∀ instruction ∈ script.instructions, instruction.offset ≠ jump.target) →
    ∀ block, graph.blocks.toList.find? (fun block => jump.target < block.first) = some block →
      grown.edges = graph.edges.push ⟨jump.source, block.startEntry, jump.transition⟩ ∧
      grown.unresolved = graph.unresolved
  /-- If there is none, then the jump is noted as unresolved, and nothing else happens. -/
  unresolved : (∀ instruction ∈ script.instructions, instruction.offset ≠ jump.target) →
    (∀ block ∈ graph.blocks, block.first ≤ jump.target) →
      grown = { graph with unresolved := graph.unresolved.push jump }

/-- A jump that a block takes only from in front of itself makes an edge to its start entry. -/
theorem connect_start {landing : Landing} (hstarts : landing.block.startsInstruction target = false)
    (source : ExitId) (transition : Transition) :
    (graph.connect landing target source transition).edges =
        graph.edges.push ⟨source, landing.block.startEntry, transition⟩ ∧
      (graph.connect landing target source transition).unresolved = graph.unresolved := by
  unfold connect Block.entryFor?
  rw [hstarts]
  dsimp only
  split <;> exact ⟨rfl, rfl⟩

/-- A jump that is routed in a graph with the instructions of a script is resolved as these say. -/
theorem WellFormed.resolves_routeJump (h : graph.WellFormed) (hordered : graph.Ordered)
    {script : Script} (hplaces : graph.places = script.instructions.map (·.offset))
    (hexit : graph.exits[jump.source.index]? = some exit) :
    graph.Resolves script jump (graph.routeJump jump) := by
  have hroute := hordered.routeJump_eq_settle hexit
  have hlisted : jump.target ∈ graph.places ↔
      ∃ instruction ∈ script.instructions, instruction.offset = jump.target := by
    rw [hplaces, List.mem_map]
  constructor
  · rw [hroute, h.offerInOrder_eq hexit]
  · intro hinstruction
    obtain ⟨block, hmem, hoffset⟩ := mem_places_iff.1 (hlisted.2 hinstruction)
    obtain ⟨i, hblock⟩ := Array.mem_iff_getElem?.1 hmem
    have hland := landing?_of_takes hexit hblock
      ((hordered.takes_iff hblock).2 (Or.inl hoffset))
    obtain ⟨entry, hedges, hunresolved, hentry⟩ := h.connect_spec hland jump.transition
    rw [Block.landingOffset, if_pos ((hordered.startsInstruction_iff hmem).2 hoffset),
      ← (h.ids i block hblock).1] at hentry
    rw [hroute, hordered.receiver?_of_mem hblock hoffset]
    exact ⟨block, entry, hordered.blockAt?_eq_some_iff.2 ⟨hmem, hoffset⟩, hentry, hedges,
      hunresolved⟩
  · intro hnone block hfirst
    have hnot := mt hlisted.1 (by simpa using hnone)
    have hmem := Array.mem_toList_iff.1 (List.mem_of_find?_eq_some hfirst)
    -- The target is no instruction, so that the block takes the jump at its start only.
    have hstarts := hordered.startsInstruction_of_notMem hmem hnot
    rw [hroute, hordered.receiver?_of_notMem hnot, hfirst]
    exact connect_start hstarts jump.source jump.transition
  · intro hnone hbefore
    have hnot := mt hlisted.1 (by simpa using hnone)
    have hfirst : graph.blocks.toList.find? (fun block => jump.target < block.first) = none := by
      rw [List.find?_eq_none]
      intro block hmem
      have hle := hbefore block (Array.mem_toList_iff.1 hmem)
      simpa using hle
    rw [hroute, hordered.receiver?_of_notMem hnot, hfirst]
    rfl

end Exit

/-! ## The jumps of a script -/

/-- The jumps of a script that are routed, in order: those of the instructions that end a run, and
the branches of the jump tables. -/
def routed (script : Script) (roles : Roles) : List UnresolvedJump :=
  let runs := Runs.ofScript roles script
  (runs.ended.toList.zipIdx.flatMap fun (run, index) =>
    run.last.jumpTargets.map fun target =>
      ⟨⟨index⟩, target.toNat, roles.transition run.last⟩) ++
  runs.tables.toList.flatMap fun (index, branches) =>
    branches.toList.map fun target => ⟨⟨index⟩, target.toNat, { potential := true }⟩

/-- The graph of a script before its jumps are routed, with the edges between neighbours. -/
def neighbours (script : Script) (roles : Roles) : Graph :=
  let runs := Runs.ofScript roles script
  runs.ended.toList.zipIdx.foldl (fun graph (run, index) => graph.fallThrough roles index run)
    (ofRuns runs.ended)

/-- A graph grows while jumps are routed. -/
theorem extends_foldl_routeJump (graph : Graph) (jumps : List UnresolvedJump) :
    graph.Extends (jumps.foldl routeJump graph) :=
  List.foldlRecOn _ _ (.refl graph) fun _ h jump _ =>
    (Kept.extends graph).route h jump.target jump.source jump.transition

/-- Its arrays go on to agree with each other. -/
theorem WellFormed.foldl_routeJump (h : graph.WellFormed) (jumps : List UnresolvedJump) :
    (jumps.foldl routeJump graph).WellFormed :=
  List.foldlRecOn _ _ h fun _ h jump _ =>
    Kept.wellFormed.route h jump.target jump.source jump.transition

/-- The jumps from the exit of a block are routed one after the other. -/
theorem WellFormed.routeAll_eq (h : graph.WellFormed) {index : Nat}
    (hindex : index < graph.blocks.size) (transition : Transition) (targets : List UInt32) :
    graph.routeAll index transition targets =
      (targets.map fun target => ⟨⟨index⟩, target.toNat, transition⟩).foldl routeJump graph := by
  have hblock := Array.getElem?_eq_getElem hindex
  unfold routeAll
  rw [hblock, List.foldl_map]
  dsimp only
  rw [(h.ids index _ hblock).2]
  rfl

/-- The jumps of a phase are routed one after the other. -/
theorem WellFormed.foldl_routeAll_eq {α : Type} (h : graph.WellFormed) (index : α → Nat)
    (transition : α → Transition) (targets : α → List UInt32) (items : List α)
    (hindex : ∀ item ∈ items, index item < graph.blocks.size) :
    items.foldl (fun graph item => graph.routeAll (index item) (transition item) (targets item))
        graph =
      (items.flatMap fun item => (targets item).map fun target =>
        ⟨⟨index item⟩, target.toNat, transition item⟩).foldl routeJump graph := by
  induction items generalizing graph with
  | nil => rfl
  | cons item items ih =>
    rw [List.foldl_cons, List.flatMap_cons, List.foldl_append,
      h.routeAll_eq (hindex item List.mem_cons_self)]
    apply ih (h.foldl_routeJump _)
    intro other hmem
    rw [(extends_foldl_routeJump graph _).size_blocks]
    exact hindex other (List.mem_cons_of_mem item hmem)

section Script

variable (script : Script) (roles : Roles)

/-- The blocks of a script with the edges between neighbours have grown from the blocks alone. -/
theorem extends_neighbours :
    (ofRuns (Runs.ofScript roles script).ended).Extends (neighbours script roles) :=
  List.foldlRecOn _ _ (.refl _) fun _ h item _ =>
    (Kept.extends _).fallThrough h roles item.2 item.1

/-- Their arrays agree with each other. -/
theorem wellFormed_neighbours : (neighbours script roles).WellFormed :=
  List.foldlRecOn _ _ (.ofRuns _) fun _ h item _ =>
    Kept.wellFormed.fallThrough h roles item.2 item.1

/-- The jumps of a script leave exits of runs. -/
theorem source_lt_of_mem_routed :
    ∀ jump ∈ routed script roles,
      jump.source.index < (Runs.ofScript roles script).ended.size := by
  intro jump hmem
  rcases List.mem_append.1 hmem with hmem | hmem
  · obtain ⟨item, hitem, hjump⟩ := List.mem_flatMap.1 hmem
    obtain ⟨target, -, rfl⟩ := List.mem_map.1 hjump
    exact List.snd_lt_of_mem_zipIdx hitem
  · obtain ⟨table, htable, hjump⟩ := List.mem_flatMap.1 hmem
    obtain ⟨target, -, rfl⟩ := List.mem_map.1 hjump
    exact (Runs.covers_ofScript roles script).lt_size table htable

/-- The graph of a script is what routing its jumps makes of its blocks and the edges between
neighbours. -/
theorem foldl_routeJump_eq_ofScript :
    (routed script roles).foldl routeJump (neighbours script roles) = ofScript script roles := by
  have hwell := wellFormed_neighbours script roles
  have hsize := (extends_neighbours script roles).size_blocks
  rw [size_blocks_ofRuns] at hsize
  have htables := (Runs.covers_ofScript roles script).lt_size
  rw [ofScript_eq, routed, List.foldl_append]
  unfold neighbours at *
  generalize Runs.ofScript roles script = runs at *
  dsimp only at *
  generalize runs.ended.toList.zipIdx.foldl _ (ofRuns runs.ended) = start at *
  have hjumps := hwell.foldl_routeAll_eq Prod.snd
    (fun item : Run × Nat => roles.transition item.1.last) (fun item => item.1.last.jumpTargets)
    runs.ended.toList.zipIdx fun item hitem => by
      simpa [hsize] using List.snd_lt_of_mem_zipIdx hitem
  rw [hjumps]
  symm
  -- The branches are routed in the graph that the jumps have made, which has the same blocks.
  refine (hwell.foldl_routeJump _).foldl_routeAll_eq Prod.fst (fun _ => { potential := true })
    (fun table : Nat × Array UInt32 => table.2.toList) _ ?_
  intro table htable
  rw [(extends_foldl_routeJump start _).size_blocks, hsize]
  exact htables table htable

section Scan

variable {scanner : Scanner} {data : ByteArray} (hscan : scanner.scan data = .ok script)

include hscan

/-- A jump of the script of a scan is resolved as its instructions say, whatever has been routed
before it. -/
theorem resolves_of_mem_routed {jump : UnresolvedJump} (hmem : jump ∈ routed script roles)
    (done : List UnresolvedJump) :
    (done.foldl routeJump (neighbours script roles)).Resolves script jump
      ((done.foldl routeJump (neighbours script roles)).routeJump jump) := by
  have hwell := (wellFormed_neighbours script roles).foldl_routeJump done
  have hgrows := (extends_neighbours script roles).trans
    (extends_foldl_routeJump (neighbours script roles) done)
  have hordered := hgrows.ordered hwell (Scanner.pairwise_instructions hscan)
  have hsource := source_lt_of_mem_routed script roles jump hmem
  rw [← size_blocks_ofRuns, ← hgrows.size_blocks, ← hwell.size_exits] at hsource
  exact hwell.resolves_routeJump hordered hgrows.places_eq_instructions
    (Array.getElem?_eq_getElem hsource)

/-- Offering jumps of the script to all blocks in order makes the graph that routing them does. -/
theorem foldl_offerInOrder_eq (jumps : List UnresolvedJump)
    (hmem : ∀ jump ∈ jumps, jump ∈ routed script roles) :
    jumps.foldl offerInOrder (neighbours script roles) =
      jumps.foldl routeJump (neighbours script roles) := by
  induction jumps using List.reverseRecOn with
  | nil => rfl
  | append_singleton done jump ih =>
    have hresolves := resolves_of_mem_routed script roles hscan
      (hmem jump (List.mem_append_right done List.mem_cons_self)) done
    rw [List.foldl_append, List.foldl_append,
      ih fun other hother => hmem other (List.mem_append_left [jump] hother)]
    exact hresolves.inOrder.symm

end Scan

end Script

/-- The jumps of a script are routed as if each one were offered to all blocks in order. -/
structure RoutesInOrder (script : Script) (roles : Roles) : Prop where
  /-- The graph of the script is made by routing its jumps. -/
  routeJump_eq : (routed script roles).foldl routeJump (neighbours script roles) =
    ofScript script roles
  /-- Offering them to all blocks in order makes the same graph. -/
  offerInOrder_eq : (routed script roles).foldl offerInOrder (neighbours script roles) =
    ofScript script roles
  /-- Each jump, when those before it have been routed, is resolved as the instructions say. -/
  resolves : ∀ done jump rest, routed script roles = done ++ jump :: rest →
    (done.foldl routeJump (neighbours script roles)).Resolves script jump
      ((done.foldl routeJump (neighbours script roles)).routeJump jump)

/-- The search for the block that takes a jump has the outcome of offering the jump to all blocks in
order, for each jump of the script of a scan. -/
theorem routesInOrder_ofScan {scanner : Scanner} {data : ByteArray} {script : Script}
    (hscan : scanner.scan data = .ok script) (roles : Roles) : RoutesInOrder script roles where
  routeJump_eq := foldl_routeJump_eq_ofScript script roles
  offerInOrder_eq := by
    rw [foldl_offerInOrder_eq script roles hscan _ fun _ hmem => hmem]
    exact foldl_routeJump_eq_ofScript script roles
  resolves done jump rest hsplit := by
    have hmem : jump ∈ routed script roles := by simp [hsplit]
    exact resolves_of_mem_routed script roles hscan hmem done

/-- The jump of an instruction to a place inside another one arrives behind it, and so does the
last branch of the jump table. The branches before that one go to an instruction and beyond the
end. -/
theorem routesInOrder_branching :
    ∃ script, Scanner.branching.scan ⟨#[0x25, 4, 0, 0, 0x61, 0, 0, 0, 28, 0, 0, 0, 99, 0, 0, 0,
        22, 0, 0, 0, 0x25, 2, 0, 0, 3, 0, 0, 0, 0x25, 1, 0, 0]⟩ = .ok script ∧
      (routed script ⟨[0x25010000], [0x25020000]⟩ =
        [⟨⟨1⟩, 3, { savesReturn := true }⟩, ⟨⟨0⟩, 28, { potential := true }⟩,
          ⟨⟨0⟩, 99, { potential := true }⟩, ⟨⟨0⟩, 22, { potential := true }⟩]) ∧
      ((ofScript script ⟨[0x25010000], [0x25020000]⟩).edges.toList.drop 2 =
        [⟨⟨1⟩, ⟨1⟩, { savesReturn := true }⟩, ⟨⟨0⟩, ⟨2⟩, { potential := true }⟩,
          ⟨⟨0⟩, ⟨2⟩, { potential := true }⟩]) ∧
      RoutesInOrder script ⟨[0x25010000], [0x25020000]⟩ := by
  have hseen : (Scanner.branching.scan ⟨#[0x25, 4, 0, 0, 0x61, 0, 0, 0, 28, 0, 0, 0, 99, 0, 0, 0,
      22, 0, 0, 0, 0x25, 2, 0, 0, 3, 0, 0, 0, 0x25, 1, 0, 0]⟩).toOption.map (fun script =>
        (routed script ⟨[0x25010000], [0x25020000]⟩,
          (ofScript script ⟨[0x25010000], [0x25020000]⟩).edges.toList.drop 2)) =
      some ([⟨⟨1⟩, 3, { savesReturn := true }⟩, ⟨⟨0⟩, 28, { potential := true }⟩,
          ⟨⟨0⟩, 99, { potential := true }⟩, ⟨⟨0⟩, 22, { potential := true }⟩],
        [⟨⟨1⟩, ⟨1⟩, { savesReturn := true }⟩, ⟨⟨0⟩, ⟨2⟩, { potential := true }⟩,
          ⟨⟨0⟩, ⟨2⟩, { potential := true }⟩]) := by decide +kernel
  obtain ⟨script, hscan, hview⟩ := Scanner.exists_script hseen
  obtain ⟨hrouted, hedges⟩ := Prod.mk.inj hview
  exact ⟨script, hscan, hrouted, hedges, routesInOrder_ofScan hscan _⟩

end PacScript.Flow.Graph
