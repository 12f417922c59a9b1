import PacScript.Proofs.Flow.Outline
import PacScript.Proofs.Flow.Runs

/-!
# The order of the blocks

The offsets of a graph, block by block, ascend when those of the instructions that its blocks were
made of do. Both searches among the blocks rest on this: how many blocks start at or before an
offset, and whether an instruction of a block starts there. In an ordered graph the block at an
offset is the only one that lists it (`Ordered.blockAt?_eq_some_iff`).
-/

namespace PacScript.Flow.Graph

variable {graph grown : Graph}

/-- The offsets of the instructions, block by block. -/
def places (graph : Graph) : List Nat :=
  graph.blocks.toList.flatMap (·.offsets.toList)

/-- The offsets are those that the blocks list. -/
theorem mem_places_iff {offset : Nat} :
    offset ∈ graph.places ↔ ∃ block, block ∈ graph.blocks ∧ offset ∈ block.offsets := by
  simp [places]

/-- The offsets are in the outlines. -/
theorem places_eq_outline (graph : Graph) :
    graph.places = graph.outline.toList.flatMap (·.offsets.toList) := by
  rw [outline, Array.toList_map, List.flatMap_map]
  rfl

/-- A graph has the same offsets when it has grown. -/
theorem Extends.places_eq (h : graph.Extends grown) : grown.places = graph.places := by
  rw [places_eq_outline, h.outline_eq, ← places_eq_outline]

/-- The offsets of a graph ascend, and each of its blocks has some. -/
structure Ordered (graph : Graph) : Prop where
  /-- Each block has an instruction at its first offset. -/
  first_mem : ∀ block ∈ graph.blocks, block.first ∈ block.offsets
  /-- The offsets ascend, in each block and from block to block. -/
  ascending : graph.places.Pairwise (· < ·)

/-- The first offset of a block of a graph is that of an instruction. -/
theorem WellFormed.first_mem (h : graph.WellFormed) :
    ∀ block ∈ graph.blocks, block.first ∈ block.offsets := by
  intro block hmem
  obtain ⟨i, hblock⟩ := Array.mem_iff_getElem?.1 hmem
  obtain ⟨first, hfirst, -⟩ := (h.maps i block hblock).start
  rw [Block.first, hfirst]
  exact Array.mem_of_getElem? hfirst

/-- No more blocks start at or before an offset than there are. -/
theorem startedBy_le (graph : Graph) (offset : Nat) :
    graph.startedBy offset ≤ graph.blocks.size :=
  (Search.boundary_mem _ (Nat.zero_le _)).2

namespace Ordered

variable {i : Nat} {block : Block} {offset : Nat}

/-- The offsets of each block ascend. -/
theorem inside (h : graph.Ordered) (hmem : block ∈ graph.blocks) :
    block.offsets.toList.Pairwise (· < ·) :=
  (List.pairwise_flatMap.1 h.ascending).1 block (Array.mem_toList_iff.2 hmem)

/-- The offsets of a block are less than those of a block behind it. -/
theorem between (h : graph.Ordered) (hblock : graph.blocks[i]? = some block) {j : Nat}
    {other : Block} (hother : graph.blocks[j]? = some other) (hlt : i < j) :
    ∀ x ∈ block.offsets, ∀ y ∈ other.offsets, x < y := by
  have hpairs := List.pairwise_iff_getElem.1 (List.pairwise_flatMap.1 h.ascending).2
  obtain ⟨hi, rfl⟩ := Array.getElem?_eq_some_iff.1 hblock
  obtain ⟨hj, rfl⟩ := Array.getElem?_eq_some_iff.1 hother
  intro x hx y hy
  exact hpairs i j (by simpa using hi) (by simpa using hj) hlt x (by simpa using hx) y
    (by simpa using hy)

/-- No instruction of a block is in front of its first one. -/
theorem first_le (h : graph.Ordered) (hmem : block ∈ graph.blocks)
    (hoffset : offset ∈ block.offsets) : block.first ≤ offset := by
  obtain ⟨j, hj, rfl⟩ := Array.mem_iff_getElem.1 hoffset
  have hfirst : block.first = block.offsets[0] := by
    rw [Block.first, Array.getElem?_eq_getElem (by omega), Option.getD_some]
  rw [hfirst]
  rcases Nat.eq_zero_or_pos j with rfl | hpos
  · exact Nat.le_refl _
  · exact Nat.le_of_lt (List.pairwise_iff_getElem.1 (h.inside hmem) 0 j (by simp; omega)
      (by simpa using hj) hpos)

/-- An instruction of a block starts at the offsets that it lists. -/
theorem startsInstruction_iff (h : graph.Ordered) (hmem : block ∈ graph.blocks) :
    block.startsInstruction offset = true ↔ offset ∈ block.offsets :=
  Block.startsInstruction_iff (h.inside hmem)

/-- The search for the blocks that start at or before an offset counts these. -/
theorem lt_startedBy_iff (h : graph.Ordered) (hblock : graph.blocks[i]? = some block) :
    i < graph.startedBy offset ↔ block.first ≤ offset := by
  refine Search.lt_boundary_key_iff ?_ hblock offset
  intro i j block other hlt hblock hother
  exact h.between hblock hother hlt _ (h.first_mem _ (Array.mem_of_getElem? hblock)) _
    (h.first_mem _ (Array.mem_of_getElem? hother))

/-- As many blocks start at or before an instruction of a block as there are up to this block. -/
theorem startedBy_eq (h : graph.Ordered) (hblock : graph.blocks[i]? = some block)
    (hoffset : offset ∈ block.offsets) : graph.startedBy offset = i + 1 := by
  have hhere : i < graph.startedBy offset := by
    rw [h.lt_startedBy_iff hblock]
    exact h.first_le (Array.mem_of_getElem? hblock) hoffset
  rcases Nat.eq_or_lt_of_le (Nat.succ_le_of_lt hhere) with heq | hlt
  · exact heq.symm
  · -- The next block would start at or before the instruction, which is in front of it.
    have hnext : i + 1 < graph.blocks.size := Nat.lt_of_lt_of_le hlt (graph.startedBy_le offset)
    have hblock' := Array.getElem?_eq_getElem hnext
    have hle := (h.lt_startedBy_iff hblock').1 hlt
    have hless := h.between hblock hblock' (Nat.lt_succ_self i) _ hoffset _
      (h.first_mem _ (Array.getElem_mem hnext))
    omega

/-- The block at an offset is the one that lists it. -/
theorem blockAt?_eq_some_iff (h : graph.Ordered) :
    graph.blockAt? offset = some block ↔ block ∈ graph.blocks ∧ offset ∈ block.offsets := by
  unfold blockAt?
  constructor
  · intro hfound
    split at hfound
    · simp at hfound
    · obtain ⟨hblock, hstarts⟩ := Option.filter_eq_some_iff.1 hfound
      exact ⟨Array.mem_of_getElem? hblock, Block.mem_offsets_of_startsInstruction hstarts⟩
  · intro hlisted
    obtain ⟨hmem, hoffset⟩ := hlisted
    obtain ⟨i, hblock⟩ := Array.mem_iff_getElem?.1 hmem
    rw [h.startedBy_eq hblock hoffset]
    exact Option.filter_eq_some_iff.2 ⟨hblock, (h.startsInstruction_iff hmem).2 hoffset⟩

end Ordered

/-! ## The blocks of a script -/

/-- The offsets of the blocks of runs are those of their instructions. -/
theorem places_ofRuns (runs : Array Run) :
    (ofRuns runs).places = (runs.toList.flatMap Run.instructions).map (·.offset) := by
  have houtline : (ofRuns runs).outline.toList.map (·.offsets) = runs.toList.map Run.offsets := by
    rw [← Array.toList_map, offsets_ofRuns, Array.toList_map]
  calc (ofRuns runs).places
      = ((ofRuns runs).outline.toList.map (·.offsets)).flatMap Array.toList := by
        rw [places_eq_outline, List.flatMap_map]
    _ = runs.toList.flatMap fun run => run.instructions.map (·.offset) := by
        rw [houtline, List.flatMap_map]
        exact List.flatMap_congr fun run _ => run.toList_offsets
    _ = (runs.toList.flatMap Run.instructions).map (·.offset) := by rw [List.map_flatMap]

/-- What has grown from the blocks of a script has the offsets of its instructions. -/
theorem Extends.places_eq_instructions {script : Script} {roles : Roles}
    (h : (ofRuns (Runs.ofScript roles script).ended).Extends graph) :
    graph.places = script.instructions.map (·.offset) := by
  rw [h.places_eq, places_ofRuns, Runs.flatMap_instructions_ofScript]

/-- It is ordered when these ascend. -/
theorem Extends.ordered {script : Script} {roles : Roles}
    (h : (ofRuns (Runs.ofScript roles script).ended).Extends graph) (hwell : graph.WellFormed)
    (hascending : (script.instructions.map (·.offset)).Pairwise (· < ·)) : graph.Ordered where
  first_mem := hwell.first_mem
  ascending := by
    rw [h.places_eq_instructions]
    exact hascending

end PacScript.Flow.Graph
