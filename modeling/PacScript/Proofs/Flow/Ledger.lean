import PacScript.Proofs.Flow.Outline

/-!
# What routing adds to a graph

When jumps are routed, each of them becomes one edge or one unresolved jump, in order, and nothing
else is added (`Graph.Settles`). Routing is described by what it adds to any graph
(`Graph.Routes`), so that the descriptions of single jumps are joined to that of the jumps of a block
(`WellFormed.routes_routeAll`), and these to that of all the jumps of a phase
(`WellFormed.routes_foldl_routeAll`).
-/

namespace PacScript.Flow

/-- A jump that a script makes. -/
structure Jump where
  /-- The offset of the instruction that it leaves. -/
  origin : Nat
  /-- The offset that it goes to. -/
  target : Nat
  /-- How control moves. -/
  transition : Transition

/-- The jumps of an instruction to its targets. They are potential when the instruction is cut off,
and save a return address when it is a call. -/
def Roles.jumps (roles : Roles) (instruction : Instruction) : List Jump :=
  instruction.jumpTargets.map fun target => ⟨instruction.offset, target.toNat,
    { potential := instruction.cutOff
      savesReturn := roles.calls.contains instruction.signature }⟩

/-- The jumps of a switch to the branches of its jump table, all of them potential. -/
def branchJumps (switch : Instruction × Entity) : List Jump :=
  switch.2.branches.toList.map fun target =>
    ⟨switch.1.offset, target.toNat, { potential := true }⟩

namespace Graph

/-! ## Where a jump leaves and arrives -/

/-- The exit is that of the block whose last instruction is at the offset. -/
def Leaves (graph : Graph) (source : ExitId) (origin : Nat) : Prop :=
  ∃ block ∈ graph.blocks, block.exit = source ∧ block.offsets.back? = some origin

/-- A jump to the offset arrives at the entry point: at the instruction there, or at the start of a
block behind the offset. -/
def Arrives (graph : Graph) (id : EntryId) (target : Nat) : Prop :=
  ∃ owner offset, EntryAt graph.entries id owner offset ∧ (offset = target ∨ target < offset ∧
    ∃ block, graph.block? owner = some block ∧ block.first = offset)

/-- Each of the jumps has become one edge or one unresolved jump, in order. -/
inductive Settles (graph : Graph) : List Jump → List Edge → List UnresolvedJump → Prop where
  /-- No jumps leave nothing. -/
  | nil : Settles graph [] [] []
  /-- A jump has become an edge from its exit to where it arrives. -/
  | edge {jump : Jump} {jumps : List Jump} {edge : Edge} {edges : List Edge}
      {unresolved : List UnresolvedJump} (hsource : graph.Leaves edge.source jump.origin)
      (htarget : graph.Arrives edge.target jump.target)
      (htransition : edge.transition = jump.transition)
      (hrest : Settles graph jumps edges unresolved) :
      Settles graph (jump :: jumps) (edge :: edges) unresolved
  /-- A jump is unresolved. -/
  | unresolved {jump : Jump} {jumps : List Jump} {edges : List Edge} {record : UnresolvedJump}
      {unresolved : List UnresolvedJump} (hsource : graph.Leaves record.source jump.origin)
      (htarget : record.target = jump.target) (htransition : record.transition = jump.transition)
      (hrest : Settles graph jumps edges unresolved) :
      Settles graph (jump :: jumps) edges (record :: unresolved)

variable {graph grown : Graph}

/-- An exit still belongs to its block when the graph has grown. -/
theorem Leaves.mono {source : ExitId} {origin : Nat} (h : graph.Leaves source origin)
    (hextends : graph.Extends grown) : grown.Leaves source origin := by
  obtain ⟨block, hmem, hexit, hlast⟩ := h
  obtain ⟨i, hblock⟩ := Array.mem_iff_getElem?.1 hmem
  obtain ⟨other, hother, houtline⟩ := hextends.exists_block hblock
  obtain ⟨-, hoffsets, -, hexits⟩ := Block.of_outline_eq houtline
  exact ⟨other, Array.mem_of_getElem? hother, hexits.trans hexit, by rw [hoffsets, hlast]⟩

/-- A jump still arrives where it did when the graph has grown. -/
theorem Arrives.mono {id : EntryId} {target : Nat} (h : graph.Arrives id target)
    (hextends : graph.Extends grown) : grown.Arrives id target := by
  obtain ⟨owner, offset, hentry, hplace⟩ := h
  refine ⟨owner, offset, hextends.entryAt hentry, hplace.imp_right ?_⟩
  rintro ⟨hlt, block, hblock, hfirst⟩
  obtain ⟨other, hother, houtline⟩ := hextends.exists_block hblock
  refine ⟨hlt, other, hother, ?_⟩
  rw [← hfirst, Block.first, Block.first, (Block.of_outline_eq houtline).2.1]

namespace Settles

variable {jumps others : List Jump} {edges moreEdges : List Edge}
  {unresolved moreUnresolved : List UnresolvedJump}

/-- What the jumps have become stays so when the graph has grown. -/
theorem mono (h : graph.Settles jumps edges unresolved) (hextends : graph.Extends grown) :
    grown.Settles jumps edges unresolved := by
  induction h with
  | nil => exact .nil
  | edge hsource htarget htransition _ ih =>
    exact .edge (hsource.mono hextends) (htarget.mono hextends) htransition ih
  | unresolved hsource htarget htransition _ ih =>
    exact .unresolved (hsource.mono hextends) htarget htransition ih

/-- What further jumps have become stands behind. -/
theorem append (h : graph.Settles jumps edges unresolved)
    (hothers : graph.Settles others moreEdges moreUnresolved) :
    graph.Settles (jumps ++ others) (edges ++ moreEdges) (unresolved ++ moreUnresolved) := by
  induction h with
  | nil => exact hothers
  | edge hsource htarget htransition _ ih => exact .edge hsource htarget htransition ih
  | unresolved hsource htarget htransition _ ih =>
    exact .unresolved hsource htarget htransition ih

/-- What the first ones of some jumps have become stands in front. -/
theorem exists_append (h : graph.Settles (jumps ++ others) edges unresolved) :
    ∃ front back frontUnresolved backUnresolved, edges = front ++ back ∧
      unresolved = frontUnresolved ++ backUnresolved ∧
      graph.Settles jumps front frontUnresolved ∧
      graph.Settles others back backUnresolved := by
  -- The first jump accounts for the first edge or for the first unresolved jump.
  induction jumps generalizing edges unresolved with
  | nil => exact ⟨[], edges, [], unresolved, rfl, rfl, .nil, h⟩
  | cons jump jumps ih =>
    cases h with
    | @edge _ _ edge _ _ hsource htarget htransition hrest =>
      obtain ⟨front, back, frontUnresolved, backUnresolved, rfl, rfl, hfront, hback⟩ := ih hrest
      exact ⟨edge :: front, back, frontUnresolved, backUnresolved, rfl, rfl,
        .edge hsource htarget htransition hfront, hback⟩
    | @unresolved _ _ _ record _ hsource htarget htransition hrest =>
      obtain ⟨front, back, frontUnresolved, backUnresolved, rfl, rfl, hfront, hback⟩ := ih hrest
      exact ⟨front, back, record :: frontUnresolved, backUnresolved, rfl, rfl,
        .unresolved hsource htarget htransition hfront, hback⟩

/-- There are as many edges and unresolved jumps as jumps. -/
theorem length_add_length (h : graph.Settles jumps edges unresolved) :
    edges.length + unresolved.length = jumps.length := by
  induction h with
  | nil => rfl
  | edge _ _ _ _ ih =>
    rw [List.length_cons, List.length_cons]
    omega
  | unresolved _ _ _ _ ih =>
    rw [List.length_cons, List.length_cons]
    omega

/-- The edges move as the jumps do. -/
theorem exists_of_mem_edges (h : graph.Settles jumps edges unresolved) {edge : Edge}
    (hmem : edge ∈ edges) :
    ∃ jump ∈ jumps, graph.Leaves edge.source jump.origin ∧ edge.transition = jump.transition := by
  induction h with
  | nil => simp at hmem
  | @edge jump _ _ _ _ hsource _ htransition _ ih =>
    rcases List.mem_cons.1 hmem with rfl | hmem
    · exact ⟨jump, List.mem_cons_self, hsource, htransition⟩
    · obtain ⟨other, hother, hedge⟩ := ih hmem
      exact ⟨other, List.mem_cons_of_mem _ hother, hedge⟩
  | unresolved _ _ _ _ ih =>
    obtain ⟨other, hother, hedge⟩ := ih hmem
    exact ⟨other, List.mem_cons_of_mem _ hother, hedge⟩

/-- The unresolved jumps leave where the jumps do. -/
theorem exists_of_mem_unresolved (h : graph.Settles jumps edges unresolved)
    {record : UnresolvedJump} (hmem : record ∈ unresolved) :
    ∃ jump ∈ jumps, graph.Leaves record.source jump.origin := by
  induction h with
  | nil => simp at hmem
  | edge _ _ _ _ ih =>
    obtain ⟨other, hother, hrecord⟩ := ih hmem
    exact ⟨other, List.mem_cons_of_mem _ hother, hrecord⟩
  | @unresolved jump _ _ _ _ hsource _ _ _ ih =>
    rcases List.mem_cons.1 hmem with rfl | hmem
    · exact ⟨jump, List.mem_cons_self, hsource⟩
    · obtain ⟨other, hother, hrecord⟩ := ih hmem
      exact ⟨other, List.mem_cons_of_mem _ hother, hrecord⟩

end Settles

/-! ## Routing one jump after the other -/

/-- The graph has grown by what the jumps have become, and by nothing else. -/
structure Routes (graph : Graph) (jumps : List Jump) (grown : Graph) : Prop where
  /-- The graph has grown. -/
  grows : graph.Extends grown
  /-- Its new edges and unresolved jumps stand behind those that it had. -/
  settles : ∃ edges unresolved, grown.edges.toList = graph.edges.toList ++ edges ∧
    grown.unresolved.toList = graph.unresolved.toList ++ unresolved ∧
    grown.Settles jumps edges unresolved

/-- Without jumps nothing is added. -/
theorem Routes.refl (graph : Graph) : graph.Routes [] graph :=
  ⟨.refl graph, [], [], (List.append_nil _).symm, (List.append_nil _).symm, .nil⟩

/-- Jumps that are routed after others are added behind them. -/
theorem Routes.trans {later : Graph} {jumps others : List Jump} (h : graph.Routes jumps grown)
    (hlater : grown.Routes others later) : graph.Routes (jumps ++ others) later := by
  obtain ⟨edges, unresolved, hedges, hunresolved, hsettles⟩ := h.settles
  obtain ⟨moreEdges, moreUnresolved, hmoreEdges, hmoreUnresolved, hmore⟩ := hlater.settles
  refine ⟨h.grows.trans hlater.grows, edges ++ moreEdges, unresolved ++ moreUnresolved, ?_, ?_,
    (hsettles.mono hlater.grows).append hmore⟩
  · rw [hmoreEdges, hedges, List.append_assoc]
  · rw [hmoreUnresolved, hunresolved, List.append_assoc]

/-- The entry point that is made for a jump that lands is one at which the jump arrives. -/
theorem arrives_of_landing? {id : BlockId} {target : Nat} {source : ExitId} {landing : Landing}
    (hland : graph.landing? id target source = some landing) (hextends : graph.Extends grown)
    {entry : EntryId} (hentry : EntryAt grown.entries entry id (landing.block.landingOffset target)) :
    grown.Arrives entry target := by
  obtain ⟨exit, -, hblock, htakes, -⟩ := landing?_eq_some_iff.1 hland
  refine ⟨id, _, hentry, ?_⟩
  unfold Block.landingOffset
  split
  case isTrue => exact .inl rfl
  case isFalse hstarts =>
    -- A block takes a jump that goes to none of its instructions only from in front of itself.
    rw [Block.takes, Bool.or_eq_true, decide_eq_true_iff] at htakes
    obtain ⟨other, hother, houtline⟩ := hextends.exists_block hblock
    refine .inr ⟨htakes.resolve_left hstarts, other, hother, ?_⟩
    rw [Block.first, Block.first, (Block.of_outline_eq houtline).2.1]

/-- The jumps are those from the exit of the block of an index to the targets. -/
def Emits (graph : Graph) (index : Nat) (transition : Transition) (targets : List UInt32)
    (jumps : List Jump) : Prop :=
  ∃ block origin, graph.blocks[index]? = some block ∧ block.offsets.back? = some origin ∧
    jumps = targets.map fun target => ⟨origin, target.toNat, transition⟩

/-- The jumps are still those of the block when the graph has grown. -/
theorem Emits.mono {index : Nat} {transition : Transition} {targets : List UInt32}
    {jumps : List Jump} (h : graph.Emits index transition targets jumps)
    (hextends : graph.Extends grown) : grown.Emits index transition targets jumps := by
  obtain ⟨block, origin, hblock, hlast, hjumps⟩ := h
  obtain ⟨other, hother, houtline⟩ := hextends.exists_block hblock
  exact ⟨other, origin, hother, by rw [(Block.of_outline_eq houtline).2.1, hlast], hjumps⟩

/-- The block of a run emits the jumps of the last instruction of the run. -/
theorem emits_ofRuns {runs : Array Run} {index : Nat} {run : Run} (hrun : runs[index]? = some run)
    (transition : Transition) (targets : List UInt32) :
    (ofRuns runs).Emits index transition targets
      (targets.map fun target => ⟨run.last.offset, target.toNat, transition⟩) := by
  obtain ⟨block, hblock, hoffsets⟩ := exists_block_ofRuns hrun
  exact ⟨block, run.last.offset, hblock, by rw [hoffsets, Run.back?_offsets], rfl⟩

section Phases

variable {source : ExitId} {origin : Nat}

/-- A jump that is routed becomes an edge or is noted as unresolved. -/
theorem WellFormed.routes_route (h : graph.WellFormed) (hleaves : graph.Leaves source origin)
    (target : Nat) (transition : Transition) :
    graph.Routes [⟨origin, target, transition⟩] (graph.route target source transition) := by
  rcases graph.route_cases target source transition with ⟨id, landing, hland, heq⟩ | heq
  · obtain ⟨entry, hedges, hunresolved, hentry⟩ := h.connect_spec hland transition
    have hextends := graph.extends_connect landing target source transition
    rw [heq]
    refine ⟨hextends, [⟨source, entry, transition⟩], [], ?_, ?_, ?_⟩
    · rw [hedges, Array.toList_push]
    · rw [hunresolved, List.append_nil]
    · exact .edge (hleaves.mono hextends) (arrives_of_landing? hland hextends hentry) rfl .nil
  · have hextends : graph.Extends { graph with
        unresolved := graph.unresolved.push ⟨source, target, transition⟩ } := ⟨rfl, id⟩
    rw [heq]
    refine ⟨hextends, [], [⟨source, target, transition⟩], ?_, ?_, ?_⟩
    · rw [List.append_nil]
    · rw [Array.toList_push]
    · exact .unresolved (hleaves.mono hextends) rfl rfl .nil

/-- Jumps from one exit are routed one after the other. -/
theorem WellFormed.routes_foldl_route (h : graph.WellFormed) (hleaves : graph.Leaves source origin)
    (transition : Transition) (targets : List UInt32) :
    graph.Routes (targets.map fun target => ⟨origin, target.toNat, transition⟩)
      (targets.foldl (fun graph target => graph.route target.toNat source transition) graph) := by
  induction targets generalizing graph with
  | nil => exact .refl graph
  | cons target targets ih =>
    have hfirst := h.routes_route hleaves target.toNat transition
    have hwell := Kept.wellFormed.route h target.toNat source transition
    exact hfirst.trans (ih hwell (hleaves.mono hfirst.grows))

/-- The jumps that leave the block of an index are routed. -/
theorem WellFormed.routes_routeAll (h : graph.WellFormed) {index : Nat} {transition : Transition}
    {targets : List UInt32} {jumps : List Jump}
    (hemits : graph.Emits index transition targets jumps) :
    graph.Routes jumps (graph.routeAll index transition targets) := by
  obtain ⟨block, origin, hblock, hlast, rfl⟩ := hemits
  unfold routeAll
  rw [hblock]
  exact h.routes_foldl_route ⟨block, Array.mem_of_getElem? hblock, rfl, hlast⟩ transition targets

/-- A phase goes through items, each of which has the jumps of one block. -/
theorem WellFormed.routes_foldl_routeAll {α : Type} (h : graph.WellFormed) (index : α → Nat)
    (transition : α → Transition) (targets : α → List UInt32) {items : List α}
    {groups : List (List Jump)}
    (hitems : List.Forall₂
      (fun item => graph.Emits (index item) (transition item) (targets item)) items groups) :
    graph.Routes groups.flatten
      (items.foldl (fun graph item =>
        graph.routeAll (index item) (transition item) (targets item)) graph) := by
  induction items generalizing graph groups with
  | nil =>
    cases hitems
    exact .refl graph
  | cons item items ih =>
    obtain ⟨jumps, others, hemits, hrest, rfl⟩ := List.forall₂_cons_left_iff.1 hitems
    have hfirst := h.routes_routeAll hemits
    have hwell := Kept.wellFormed.routeAll h (index item) (transition item) (targets item)
    exact hfirst.trans (ih hwell (hrest.imp fun _ _ hother => hother.mono hfirst.grows))

end Phases

end Graph

end PacScript.Flow
