import PacScript.Flow.Build
import PacScript.Proofs.Search

/-!
# How a graph grows

The graph of a script starts as the blocks of its runs. From then on it only grows in two ways: a
jump lands and is connected, or a jump is noted as unresolved. The same holds of jumps offered to
the graph afterwards, whatever they name: an offer that no block takes changes nothing. So a
property of graphs that both ways of growing keep (`Kept`) holds of every graph of a script and of
whatever becomes of it, once it holds of the blocks without edges.
-/

namespace PacScript.Flow

/-- The first offset of a run is the offset at which the run starts. -/
@[simp]
theorem Run.getElem?_offsets_zero (run : Run) : run.offsets[0]? = some run.first := by
  unfold Run.offsets Run.first
  rw [Array.getElem?_map, Array.getElem?_push]
  by_cases h : 0 = run.earlier.size
  · simp [← h]
  · have hpos : 0 < run.earlier.size := Nat.pos_of_ne_zero (Ne.symm h)
    simp [h, Array.getElem?_eq_getElem hpos]

/-- The last offset of a run is that of its last instruction. -/
@[simp]
theorem Run.back?_offsets (run : Run) : run.offsets.back? = some run.last.offset := by
  simp [Run.offsets]

/-- The offsets at which a block takes a jump as one to an instruction are those of its
instructions. -/
theorem Block.mem_offsets_of_startsInstruction {block : Block} {offset : Nat}
    (h : block.startsInstruction offset) : offset ∈ block.offsets := by
  simp only [startsInstruction, beq_iff_eq] at h
  exact Array.mem_of_getElem? h

/-- When the offsets of a block ascend, the search among them finds each one. -/
theorem Block.startsInstruction_iff {block : Block}
    (hascending : block.offsets.toList.Pairwise (· < ·)) {offset : Nat} :
    block.startsInstruction offset ↔ offset ∈ block.offsets := by
  refine ⟨mem_offsets_of_startsInstruction, fun hmem => ?_⟩
  obtain ⟨j, hj, rfl⟩ := Array.mem_iff_getElem.1 hmem
  have hlt : ∀ {i k : Nat} (hk : k < block.offsets.size) (hik : i < k),
      block.offsets[i] < block.offsets[k] := fun hk hik =>
    List.pairwise_iff_getElem.1 hascending _ _ (by simpa using Nat.lt_trans hik hk) (by simpa) hik
  -- The offsets that are less than this one are those in front of it.
  have hindex : Search.boundary (fun i => block.offsets[i]?.any (· < block.offsets[j])) 0
      block.offsets.size = j := by
    refine Search.boundary_eq (Nat.zero_le j) (Nat.le_of_lt hj) fun i _ hi => ?_
    rw [Array.getElem?_eq_getElem hi, Option.any_some, decide_eq_true_iff]
    refine ⟨fun hless => ?_, hlt hj⟩
    rcases Nat.lt_trichotomy i j with hij | rfl | hji
    · exact hij
    · exact absurd hless (Nat.lt_irrefl _)
    · exact absurd (Nat.lt_trans hless (hlt hi hji)) (Nat.lt_irrefl _)
  simp only [startsInstruction, hindex, Array.getElem?_eq_getElem hj, beq_self_eq_true]

/-- A jump that is offered to a block of a graph. -/
structure Offer where
  /-- The block. -/
  block : BlockId
  /-- The offset that the jump goes to. -/
  target : Nat
  /-- The exit that it leaves. -/
  source : ExitId
  /-- How control would move. -/
  transition : Transition

namespace Graph

variable {graph : Graph} {block : BlockId} {target : Nat} {source : ExitId}

/-- The graph after a jump was offered: with one edge more, or as it was. -/
def offer (graph : Graph) (offer : Offer) : Graph :=
  match graph.accept offer.block offer.target offer.source offer.transition with
  | some (extended, _) => extended
  | none => graph

/-- The graph after jumps were offered one after the other. -/
def offerAll (graph : Graph) (offers : List Offer) : Graph :=
  offers.foldl offer graph

/-- What holds of the graph without blocks, and is kept when a run becomes a block, holds of the
blocks of runs. -/
theorem ofRuns_induction {P : Graph → Prop} (hempty : P {})
    (hadd : ∀ (graph : Graph) (run : Run), P graph →
      P (graph.addBlock run.offsets run.first run.last.offset)) (runs : Array Run) :
    P (ofRuns runs) := by
  unfold ofRuns
  rw [← Array.foldl_toList]
  exact List.foldlRecOn _ _ hempty fun graph h run _ => hadd graph run h

/-- A jump lands when its exit and its block belong to the graph and the block takes it. -/
theorem landing?_eq_some_iff {landing : Landing} :
    graph.landing? block target source = some landing ↔
      ∃ exit, graph.exits[source.index]? = some exit ∧
        graph.blocks[block.index]? = some landing.block ∧ landing.block.takes target ∧
        landing.origin = exit.block := by
  unfold landing?
  rcases landing with ⟨code, origin⟩
  cases graph.exits[source.index]? with
  | none => simp
  | some exit =>
    cases graph.blocks[block.index]? with
    | none => simp
    | some other =>
      by_cases htakes : other.takes target <;> grind

/-- A jump that is routed is connected with a block that takes it, or noted as unresolved. -/
theorem route_cases (graph : Graph) (target : Nat) (source : ExitId) (transition : Transition) :
    (∃ block landing, graph.landing? block target source = some landing ∧
      graph.route target source transition = graph.connect landing target source transition) ∨
    graph.route target source transition =
      { graph with unresolved := graph.unresolved.push ⟨source, target, transition⟩ } := by
  simp only [Graph.route]
  split
  case h_1 landing hland =>
    -- Either block that was asked may have taken the jump.
    rcases Option.or_eq_some_iff.mp hland with hinside | ⟨-, hbehind⟩
    · split at hinside
      · cases hinside
      · exact .inl ⟨_, landing, hinside, rfl⟩
    · exact .inl ⟨_, landing, hbehind, rfl⟩
  case h_2 => exact .inr rfl

/-- A property of graphs that is kept when a jump is connected, and when one is noted as
unresolved. -/
structure Kept (P : Graph → Prop) : Prop where
  /-- It is kept when a jump that lands is connected. -/
  connect : ∀ {graph : Graph} {block target source landing}, P graph →
    graph.landing? block target source = some landing →
    ∀ transition, P (graph.connect landing target source transition)
  /-- It is kept when a jump is noted as unresolved. -/
  unresolved : ∀ {graph : Graph} jump, P graph →
    P { graph with unresolved := graph.unresolved.push jump }

namespace Kept

variable {P : Graph → Prop} (kept : Kept P)
include kept

/-- It is kept when a jump is routed. -/
theorem route (h : P graph) (target : Nat) (source : ExitId) (transition : Transition) :
    P (graph.route target source transition) := by
  rcases graph.route_cases target source transition with ⟨_, landing, hland, heq⟩ | heq
  · rw [heq]
    exact kept.connect h hland transition
  · rw [heq]
    exact kept.unresolved _ h

/-- It is kept when the jumps of a block are routed. -/
theorem routeAll (h : P graph) (index : Nat) (transition : Transition) (targets : List UInt32) :
    P (graph.routeAll index transition targets) := by
  unfold Graph.routeAll
  split
  · exact h
  · exact List.foldlRecOn targets _ h fun _ h target _ => kept.route h _ _ _

/-- It is kept when a block is connected with its neighbour. -/
theorem fallThrough (h : P graph) (roles : Roles) (index : Nat) (run : Run) :
    P (graph.fallThrough roles index run) := by
  unfold Graph.fallThrough
  split
  · exact h
  · split
    · split
      case h_1 landing hland => exact kept.connect h hland _
      case h_2 => exact h
    · exact h

/-- What holds of the blocks of the runs holds of the graph of the script. -/
theorem ofScript {script : Script} {roles : Roles}
    (h : P (ofRuns (Runs.ofScript roles script).ended)) : P (Graph.ofScript script roles) := by
  unfold Graph.ofScript
  rw [← Array.foldl_toList, ← Array.foldl_toList, ← Array.foldl_toList]
  refine List.foldlRecOn _ _ ?_ fun _ h _ _ => kept.routeAll h _ _ _
  refine List.foldlRecOn _ _ ?_ fun _ h _ _ => kept.routeAll h _ _ _
  exact List.foldlRecOn _ _ h fun _ h _ _ => kept.fallThrough h _ _ _

/-- It is kept by an offer, whether a block takes it or not. -/
theorem offer (h : P graph) (offer : Offer) : P (graph.offer offer) := by
  unfold Graph.offer Graph.accept
  cases hland : graph.landing? offer.block offer.target offer.source with
  | none => exact h
  | some landing => exact kept.connect h hland offer.transition

/-- It is kept by any number of offers. -/
theorem offerAll (h : P graph) (offers : List Offer) : P (graph.offerAll offers) :=
  List.foldlRecOn offers _ h fun _ h offer _ => kept.offer h offer

end Kept

end Graph

end PacScript.Flow
