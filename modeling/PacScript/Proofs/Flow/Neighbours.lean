import PacScript.Proofs.Flow.Outline

/-!
# The edges between neighbours

The first phase in which the graph of a script is made goes through its runs. It connects the block
of each one that does not end with a terminator with the block behind it, if there is one, and adds
nothing else (`foldl_fallThrough_ofRuns`). Which edges these are depends on nothing but the outlines
of the blocks, so it can be read off the finished graph (`Graph.fallThroughs`).
-/

namespace PacScript.Flow.Graph

variable {graph grown : Graph}

/-- The edges between neighbours among blocks: from each one whose last instruction does not
terminate to the start of the one behind it. -/
def fallsBetween (terminates : Nat → Bool) (blocks : List Block) : List Edge :=
  (blocks.zip blocks.tail).filterMap fun (block, next) =>
    if terminates block.last then none
    else some ⟨block.exit, next.startEntry, { fallthrough := true }⟩

/-- The edges between the neighbours of a graph. -/
def fallThroughs (graph : Graph) (terminates : Nat → Bool) : List Edge :=
  fallsBetween terminates graph.blocks.toList

/-- The first block has an edge to the second one, if there is one and the first does not
terminate. -/
theorem fallsBetween_cons (terminates : Nat → Bool) (block : Block) (rest : List Block) :
    fallsBetween terminates (block :: rest) =
      (if terminates block.last then []
        else rest.head?.toList.map fun next =>
          ⟨block.exit, next.startEntry, { fallthrough := true }⟩) ++
      fallsBetween terminates rest := by
  cases rest with
  | nil => simp [fallsBetween]
  | cons next rest =>
    unfold fallsBetween
    rw [List.tail_cons, List.zip_cons_cons, List.filterMap_cons, List.tail_cons]
    by_cases h : terminates block.last <;> simp [h]

/-- The entry point at the first instruction of a block is its start entry. -/
theorem WellFormed.eq_startEntry (h : graph.WellFormed) {i : Nat} {block : Block}
    (hblock : graph.blocks[i]? = some block) {entry : EntryId}
    (hentry : EntryAt graph.entries entry ⟨i⟩ block.first) : entry = block.startEntry := by
  have hindex : block.Indexes i graph.entries := h.maps i block hblock
  obtain ⟨first, hfirst, hmem⟩ := hindex.start
  have heq : block.first = first := by rw [Block.first, hfirst, Option.getD_some]
  exact hindex.eq_of_mem (hindex.mem_iff.2 hentry) (heq ▸ hmem)

/-- A block whose last instruction does not terminate falls through to the start of the one behind
it. -/
theorem WellFormed.fallThrough_spec (h : graph.WellFormed) {index : Nat} {block next : Block}
    (hblock : graph.blocks[index]? = some block) (hnext : graph.blocks[index + 1]? = some next)
    (hascending : next.offsets.toList.Pairwise (· < ·)) {roles : Roles} {run : Run}
    (hrun : roles.terminates run.last = false) :
    (graph.fallThrough roles index run).edges =
        graph.edges.push ⟨block.exit, next.startEntry, { fallthrough := true }⟩ ∧
      (graph.fallThrough roles index run).unresolved = graph.unresolved := by
  have hexit : block.exit = ⟨index⟩ := (h.ids _ _ hblock).2
  have hid : next.id = ⟨index + 1⟩ := (h.ids _ _ hnext).1
  have hlt : index < graph.exits.size := by
    rw [h.size_exits]
    exact lt_size_of_getElem? hblock
  -- The block behind takes the jump to its first instruction.
  have hstarts : next.startsInstruction next.first := by
    obtain ⟨first, hfirst, -⟩ := (h.maps _ _ hnext).start
    rw [Block.startsInstruction_iff hascending, Block.first, hfirst]
    exact Array.mem_of_getElem? hfirst
  have hland : graph.landing? next.id next.first block.exit =
      some ⟨next, graph.exits[index].block⟩ := by
    rw [landing?_eq_some_iff, hexit, hid]
    exact ⟨_, Array.getElem?_eq_getElem hlt, hnext, by simp [Block.takes, hstarts], rfl⟩
  obtain ⟨entry, hedges, hunresolved, hentry⟩ :=
    h.connect_spec hland { fallthrough := true }
  -- It does so at its start entry, which is the only entry point there.
  have hstart : entry = next.startEntry := by
    obtain ⟨after, hafter, houtline⟩ := (graph.extends_connect ⟨next, graph.exits[index].block⟩
      next.first block.exit { fallthrough := true }).exists_block hnext
    obtain ⟨-, hoffsets, hsame, -⟩ := Block.of_outline_eq houtline
    have hfirst : after.first = next.first := by rw [Block.first, Block.first, hoffsets]
    rw [Block.landingOffset, if_pos hstarts, hid] at hentry
    rw [← hsame]
    refine (h.connect hland { fallthrough := true }).eq_startEntry hafter ?_
    rw [hfirst]
    exact hentry
  have heq : graph.fallThrough roles index run = graph.connect ⟨next, graph.exits[index].block⟩
      next.first block.exit { fallthrough := true } := by
    unfold fallThrough
    simp only [hrun, hblock, hnext, hland]
    rfl
  rw [heq, hedges, hunresolved, hstart]
  exact ⟨rfl, rfl⟩

/-- The step of the first phase for a block adds its edge to the block behind it, if there is one
and the block does not terminate. -/
theorem WellFormed.edges_fallThrough (h : graph.WellFormed)
    (hascending : ∀ block ∈ graph.outline, block.offsets.toList.Pairwise (· < ·)) {index : Nat}
    {block : Block} {rest : List Block} (hblocks : graph.outline.toList.drop index = block :: rest)
    {roles : Roles} {run : Run} {terminates : Nat → Bool}
    (hterminates : terminates block.last = roles.terminates run.last) :
    (graph.fallThrough roles index run).edges.toList = graph.edges.toList ++
        (if terminates block.last then []
          else rest.head?.toList.map fun next =>
            ⟨block.exit, next.startEntry, { fallthrough := true }⟩) ∧
      (graph.fallThrough roles index run).unresolved = graph.unresolved := by
  -- The list of outlines says which block is at the index, and which one behind it.
  have hat : ∀ i, graph.outline[i]? = (graph.outline.toList.drop i).head? := by
    intro i
    rw [List.head?_drop, Array.getElem?_toList]
  have hhere := hat index
  have hbehind := hat (index + 1)
  rw [hblocks, List.head?_cons, outline, Array.getElem?_map] at hhere
  rw [← List.tail_drop, hblocks, List.tail_cons, outline, Array.getElem?_map] at hbehind
  obtain ⟨before, hbefore, rfl⟩ := Option.map_eq_some_iff.1 hhere
  by_cases hends : roles.terminates run.last
  · rw [hterminates, if_pos hends, fallThrough, if_pos hends, List.append_nil]
    exact ⟨rfl, rfl⟩
  · rw [hterminates, if_neg hends]
    cases hnext : graph.blocks[index + 1]? with
    | none =>
      -- There is no block behind, and so nothing to add.
      have hsame : graph.fallThrough roles index run = graph := by
        unfold fallThrough
        simp only [hbefore, hnext, ite_self]
      rw [hsame, ← hbehind, hnext]
      exact ⟨(List.append_nil _).symm, rfl⟩
    | some next =>
      have hsorted : next.offsets.toList.Pairwise (· < ·) :=
        hascending next.outline (Array.mem_map.2 ⟨next, Array.mem_of_getElem? hnext, rfl⟩)
      obtain ⟨hadded, hkept⟩ :=
        h.fallThrough_spec hbefore hnext hsorted (Bool.eq_false_iff.2 hends)
      rw [hadded, ← hbehind, hnext, Array.toList_push]
      exact ⟨rfl, hkept⟩

/-- The first phase adds the edges between neighbours, and nothing else. -/
theorem WellFormed.foldl_fallThrough (h : graph.WellFormed)
    (hascending : ∀ block ∈ graph.outline, block.offsets.toList.Pairwise (· < ·)) {roles : Roles}
    {terminates : Nat → Bool} {runs : List Run}
    (hterminates : ∀ run ∈ runs, terminates run.last.offset = roles.terminates run.last)
    {blocks : List Block} (index : Nat) (hblocks : graph.outline.toList.drop index = blocks)
    (hruns : blocks.map (·.offsets) = runs.map Run.offsets) :
    let grown := (runs.zipIdx index).foldl
      (fun graph (run, index) => graph.fallThrough roles index run) graph
    graph.Extends grown ∧
      grown.edges.toList = graph.edges.toList ++ fallsBetween terminates blocks ∧
      grown.unresolved = graph.unresolved := by
  -- The outlines from the index on are those of the blocks of the runs that are left.
  induction runs generalizing graph blocks index with
  | nil =>
    rw [List.map_nil, List.map_eq_nil_iff] at hruns
    subst hruns
    exact ⟨.refl graph, (List.append_nil _).symm, rfl⟩
  | cons run runs ih =>
    obtain ⟨block, rest, rfl, hoffsets, hrest⟩ := List.map_eq_cons_iff.1 hruns
    have hextends : graph.Extends (graph.fallThrough roles index run) :=
      (Kept.extends graph).fallThrough (.refl graph) roles index run
    have hwell := Kept.wellFormed.fallThrough h roles index run
    have htail : graph.outline.toList.drop (index + 1) = rest := by
      rw [← List.tail_drop, hblocks, List.tail_cons]
    obtain ⟨hgrows, hedges, hunresolved⟩ := ih hwell (hextends.outline_eq ▸ hascending)
      (fun other hother => hterminates other (List.mem_cons_of_mem _ hother)) (index + 1)
      (by rw [hextends.outline_eq, htail]) hrest
    have hlast : block.last = run.last.offset := by
      rw [Block.last, hoffsets, Run.back?_offsets, Option.getD_some]
    obtain ⟨hadded, hkept⟩ := h.edges_fallThrough hascending hblocks
      (hlast ▸ hterminates run List.mem_cons_self)
    refine ⟨hextends.trans hgrows, ?_, hunresolved.trans hkept⟩
    rw [fallsBetween_cons, ← List.append_assoc, ← hadded]
    exact hedges

/-- The edges between neighbours are those between the outlines. -/
theorem fallsBetween_outline (graph : Graph) (terminates : Nat → Bool) :
    fallsBetween terminates graph.outline.toList = graph.fallThroughs terminates := by
  unfold fallThroughs fallsBetween outline
  rw [Array.toList_map, ← List.map_tail, List.zip_map, List.filterMap_map]
  rfl

/-- A graph has the same edges between neighbours when it has grown. -/
theorem Extends.fallThroughs_eq (h : graph.Extends grown) (terminates : Nat → Bool) :
    grown.fallThroughs terminates = graph.fallThroughs terminates := by
  rw [← fallsBetween_outline, h.outline_eq, fallsBetween_outline]

/-- The first phase makes the edges between neighbours from the bare blocks of the runs. -/
theorem foldl_fallThrough_ofRuns {roles : Roles} {terminates : Nat → Bool} {runs : Array Run}
    (hascending : ∀ run ∈ runs, run.offsets.toList.Pairwise (· < ·))
    (hterminates : ∀ run ∈ runs, terminates run.last.offset = roles.terminates run.last) :
    let grown := runs.toList.zipIdx.foldl
      (fun graph (run, index) => graph.fallThrough roles index run) (ofRuns runs)
    (ofRuns runs).Extends grown ∧ grown.WellFormed ∧
      grown.edges.toList = grown.fallThroughs terminates ∧ grown.unresolved = #[] := by
  have hsorted : ∀ block ∈ (ofRuns runs).outline, block.offsets.toList.Pairwise (· < ·) := by
    intro block hmem
    have hoffsets := Array.mem_map_of_mem (f := (·.offsets)) hmem
    rw [offsets_ofRuns] at hoffsets
    obtain ⟨run, hrun, heq⟩ := Array.mem_map.1 hoffsets
    exact heq ▸ hascending run hrun
  have hruns : (ofRuns runs).outline.toList.map (·.offsets) = runs.toList.map Run.offsets := by
    rw [← Array.toList_map, offsets_ofRuns, Array.toList_map]
  have hwell := WellFormed.ofRuns runs
  obtain ⟨hgrows, hedges, hunresolved⟩ := hwell.foldl_fallThrough hsorted
    (fun run hmem => hterminates run (Array.mem_toList_iff.1 hmem)) 0 rfl hruns
  refine ⟨hgrows, ?_, ?_, hunresolved.trans (edges_ofRuns runs).2⟩
  · exact List.foldlRecOn _ _ hwell fun _ h _ _ => Kept.wellFormed.fallThrough h _ _ _
  · rw [hedges, (edges_ofRuns runs).1, ← fallsBetween_outline, hgrows.outline_eq]
    rfl

end PacScript.Flow.Graph
