import Mathlib.Data.List.Chain
import PacScript.Proofs.Flow.Conservation
import PacScript.Proofs.Flow.Order
import PacScript.Proofs.Flow.Stretches

/-!
# The blocks of a script

The blocks of a graph have the instructions of the script, each of them once and in order. A block
stands in the script without anything between its instructions, none but the last of which jumps or
is a terminator (`Block.Spans`). It ends there for a reason: its last instruction is of that sort,
or something that is no instruction stands between it and the next block.
-/

namespace PacScript

/-- The entities of a tiling are adjacent. -/
theorem Entity.Tiles.isChain {data : ByteArray} {start stop : Nat} {entities : List Entity}
    (h : Tiles data start entities stop) :
    entities.IsChain fun entity next => next.offset = entity.stop := by
  rw [List.isChain_iff_getElem]
  intro i hi
  exact h.offset_eq_stop (List.getElem?_eq_getElem (by omega)) (List.getElem?_eq_getElem hi)

/-- What is behind an entity, by its offset, stands behind it. -/
theorem Entity.mem_of_offset_lt {before back : List Entity} {entity other : Entity}
    (hascending : ((before ++ entity :: back).map Entity.offset).Pairwise (· < ·))
    (hmem : other ∈ before ++ entity :: back) (hlt : entity.offset < other.offset) :
    other ∈ back := by
  rw [List.pairwise_map, List.pairwise_append] at hascending
  rcases List.mem_append.1 hmem with hbefore | hbehind
  · have hless := hascending.2.2 other hbefore entity List.mem_cons_self
    omega
  · rcases List.mem_cons.1 hbehind with rfl | hback
    · omega
    · exact hback

namespace Flow

/-- The block is made of instructions that stand in the script one directly behind the other, of
which only the last one may jump or be a terminator. -/
structure Block.Spans (block : Block) (script : Script) (roles : Roles)
    (instructions : List Instruction) : Prop where
  /-- The offsets of the block are those of the instructions. -/
  offsets_eq : block.offsets.toList = instructions.map (·.offset)
  /-- There is nothing between them in the script. -/
  isInfix : instructions.map Instruction.toEntity <:+: script.entities.toList
  /-- Each one starts where the one before it ends. -/
  adjacent : instructions.IsChain fun instruction next =>
    next.offset = instruction.offset + instruction.size
  /-- Those before the last one have no jump target and do not terminate. -/
  straight : ∀ instruction ∈ instructions.dropLast,
    instruction.jumpTargets = [] ∧ roles.terminates instruction = false

namespace Graph

/-- The blocks are the instructions of the script, cut into runs that go as far as they can. -/
structure Partitions (graph : Graph) (script : Script) (roles : Roles) : Prop where
  /-- The offsets of the blocks are those of all instructions, in order. -/
  places_eq : graph.places = script.instructions.map (·.offset)
  /-- No block is empty. -/
  nonempty : ∀ block ∈ graph.blocks, block.offsets ≠ #[]
  /-- Each block is made of adjacent instructions. -/
  spans : ∀ block ∈ graph.blocks, ∃ instructions, block.Spans script roles instructions
  /-- Between a block and the next one there is something that is no instruction, or the last
  instruction of the block jumps or is a terminator. -/
  separated : ∀ i block next, graph.blocks[i]? = some block → graph.blocks[i + 1]? = some next →
    (∃ last ∈ script.instructions, block.offsets.back? = some last.offset ∧
      (last.jumpTargets ≠ [] ∨ roles.terminates last = true)) ∨
    ∃ entity ∈ script.entities, entity.kind ≠ .instruction ∧
      (∀ offset ∈ block.offsets, offset < entity.offset) ∧
      ∀ offset ∈ next.offsets, entity.offset < offset
  /-- The block at an offset is the one that lists it. -/
  blockAt?_eq_some_iff : ∀ offset block, graph.blockAt? offset = some block ↔
    block ∈ graph.blocks ∧ offset ∈ block.offsets
  /-- There is one exactly where an instruction starts. -/
  isSome_blockAt?_iff : ∀ offset, (graph.blockAt? offset).isSome = true ↔
    ∃ instruction ∈ script.instructions, instruction.offset = offset
  /-- No other block lists the offset. -/
  eq_of_mem : ∀ block ∈ graph.blocks, ∀ other ∈ graph.blocks, ∀ offset ∈ block.offsets,
    offset ∈ other.offsets → other = block

/-- The instructions of a run span its block. -/
theorem spans_run {scanner : Scanner} {data : ByteArray} {script : Script}
    (hscan : scanner.scan data = .ok script) {roles : Roles} {run : Run}
    (hrun : run ∈ (Runs.ofScript roles script).ended) {block : Block}
    (hoffsets : run.offsets = block.offsets) : block.Spans script roles run.instructions := by
  obtain ⟨front, back, hsplit, -⟩ := Runs.exists_stretch hrun
  have hinfix : run.instructions.map Instruction.toEntity <:+: script.entities.toList :=
    ⟨front, back, hsplit.symm⟩
  refine ⟨by rw [← hoffsets, run.toList_offsets], hinfix, ?_, ?_⟩
  · have hchain := List.IsChain.infix (Scanner.tiles_of_scan hscan).isChain hinfix
    rw [List.isChain_map] at hchain
    exact hchain
  · intro instruction hmem
    rw [Run.instructions, List.dropLast_concat, Array.mem_toList_iff] at hmem
    have hends := (Runs.covers_ofScript roles script).earlier run hrun instruction hmem
    rw [Roles.endsRun, Bool.or_eq_false_iff, Bool.not_eq_false', List.isEmpty_iff] at hends
    exact hends

/-- Something that is no instruction stands between the block of a run that no instruction ends and
the next block. -/
theorem exists_separator {scanner : Scanner} {data : ByteArray} {script : Script}
    (hscan : scanner.scan data = .ok script) {roles : Roles} {run next : Run}
    (hrun : run ∈ (Runs.ofScript roles script).ended)
    (hnext : next ∈ (Runs.ofScript roles script).ended)
    (hbehind : ∀ instruction ∈ next.instructions, run.last.offset < instruction.offset)
    (hends : roles.endsRun run.last = false) :
    ∃ entity ∈ script.entities, entity.kind ≠ .instruction ∧
      (∀ instruction ∈ run.instructions, instruction.offset < entity.offset) ∧
      ∀ instruction ∈ next.instructions, entity.offset < instruction.offset := by
  have hascending := (Scanner.tiles_of_scan hscan).pairwise_offset
  obtain ⟨front, back, hsplit, hstop⟩ := Runs.exists_stretch hrun
  have hother := hstop.resolve_left (by simp [hends])
  -- What is behind the last instruction of the run has the next one in it.
  have hback : ∀ instruction ∈ next.instructions, instruction.toEntity ∈ back := by
    intro instruction hmem
    have hentity : instruction.toEntity ∈ script.entities.toList := by
      obtain ⟨before, behind, hnextSplit, -⟩ := Runs.exists_stretch hnext
      rw [hnextSplit]
      simp [List.mem_map_of_mem hmem]
    have hlast : script.entities.toList =
        (front ++ run.earlier.toList.map Instruction.toEntity) ++ run.last.toEntity :: back := by
      rw [hsplit, Run.instructions]
      simp
    rw [hlast] at hascending hentity
    exact Entity.mem_of_offset_lt hascending hentity (hbehind instruction hmem)
  cases back with
  | nil =>
    have hnone := hback next.last (by simp [Run.instructions])
    simp at hnone
  | cons entity rest =>
    have hnone := hother entity rfl
    rw [hsplit, List.pairwise_map, List.pairwise_append] at hascending
    obtain ⟨-, hrest, hfront⟩ := hascending
    refine ⟨entity, ?_, Entity.instruction?_eq_none_iff.1 hnone, ?_, ?_⟩
    · rw [← Array.mem_toList_iff, hsplit]
      simp
    · intro instruction hmem
      exact hfront instruction.toEntity
        (List.mem_append_right _ (List.mem_map_of_mem hmem)) entity List.mem_cons_self
    · intro instruction hmem
      rcases List.mem_cons.1 (hback instruction hmem) with rfl | hmem
      · simp at hnone
      · exact (List.pairwise_cons.1 hrest).1 instruction.toEntity hmem

/-- The blocks of two runs in a row are separated, unless the last instruction of the first jumps or
is a terminator. -/
theorem separated_runs {scanner : Scanner} {data : ByteArray} {script : Script}
    (hscan : scanner.scan data = .ok script) {roles : Roles} {run other : Run}
    (hrun : run ∈ (Runs.ofScript roles script).ended)
    (hother : other ∈ (Runs.ofScript roles script).ended) {block next : Block}
    (hblock : run.offsets = block.offsets) (hnext : other.offsets = next.offsets)
    (hbetween : ∀ x ∈ block.offsets, ∀ y ∈ next.offsets, x < y) :
    (∃ last ∈ script.instructions, block.offsets.back? = some last.offset ∧
      (last.jumpTargets ≠ [] ∨ roles.terminates last = true)) ∨
    ∃ entity ∈ script.entities, entity.kind ≠ .instruction ∧
      (∀ offset ∈ block.offsets, offset < entity.offset) ∧
      ∀ offset ∈ next.offsets, entity.offset < offset := by
  simp only [← hblock, ← hnext, Run.mem_offsets_iff, forall_exists_index, and_imp,
    forall_apply_eq_imp_iff₂] at hbetween ⊢
  have hlast : run.last ∈ run.instructions := by simp [Run.instructions]
  cases hends : roles.endsRun run.last with
  | false => exact Or.inr (exists_separator hscan hrun hother (hbetween run.last hlast) hends)
  | true =>
    refine Or.inl ⟨run.last, ?_, run.back?_offsets, ?_⟩
    · rw [← Runs.flatMap_instructions_ofScript roles script, List.mem_flatMap]
      exact ⟨run, Array.mem_toList_iff.2 hrun, hlast⟩
    · rw [Roles.endsRun, Bool.or_eq_true, Bool.not_eq_true', ← Bool.not_eq_true,
        List.isEmpty_iff] at hends
      exact hends

/-- The blocks of the graph of a script partition its instructions into runs that go as far as they
can, and the block at an offset is found exactly when an instruction starts there. -/
theorem partitions_ofScript {scanner : Scanner} {data : ByteArray} {script : Script}
    (hscan : scanner.scan data = .ok script) (roles : Roles) :
    (ofScript script roles).Partitions script roles := by
  have hwell := wellFormed_ofScript script roles
  have hgrows := extends_ofScript script roles
  have hplaces := hgrows.places_eq_instructions
  have hordered := hgrows.ordered hwell (Scanner.pairwise_instructions hscan)
  constructor
  · exact hplaces
  · intro block hmem hempty
    have hfirst := hwell.first_mem block hmem
    rw [hempty] at hfirst
    simp at hfirst
  · intro block hmem
    obtain ⟨i, hblock⟩ := Array.mem_iff_getElem?.1 hmem
    -- A block has the offsets of a run, so that what is said of it holds because of the run.
    obtain ⟨run, hrun, hoffsets⟩ := exists_run_ofScript hblock
    exact ⟨run.instructions, spans_run hscan (Array.mem_of_getElem? hrun) hoffsets⟩
  · intro i block next hblock hnext
    obtain ⟨run, hrun, hoffsets⟩ := exists_run_ofScript hblock
    obtain ⟨other, hother, hothers⟩ := exists_run_ofScript hnext
    exact separated_runs hscan (Array.mem_of_getElem? hrun) (Array.mem_of_getElem? hother)
      hoffsets hothers (hordered.between hblock hnext (Nat.lt_succ_self i))
  · intro offset block
    exact hordered.blockAt?_eq_some_iff
  · intro offset
    rw [Option.isSome_iff_exists]
    simp only [hordered.blockAt?_eq_some_iff]
    rw [← mem_places_iff, hplaces, List.mem_map]
  · intro block hblock other hother offset hoffset hsame
    -- A look-up has one answer, and so no two blocks share an instruction.
    have hfound := hordered.blockAt?_eq_some_iff.2 ⟨hblock, hoffset⟩
    rw [hordered.blockAt?_eq_some_iff.2 ⟨hother, hsame⟩] at hfound
    exact Option.some.inj hfound

/-- An instruction and a jump make a block, and bytes of which nothing is known separate the two
blocks behind it. -/
theorem partitions_branching :
    ∃ script, Scanner.branching.scan ⟨#[0x25, 1, 0, 0, 0x25, 2, 0, 0, 4, 0, 0, 0, 0x25, 1, 0, 0,
        0xAA, 0xAA, 0x25, 1, 0, 0]⟩ = .ok script ∧
      (ofScript script {}).blocks.map (·.offsets) = #[#[0, 4], #[12], #[18]] ∧
      ((ofScript script {}).blockAt? 4).map (·.id) = some ⟨0⟩ ∧
      (ofScript script {}).Partitions script {} := by
  have hseen : (Scanner.branching.scan ⟨#[0x25, 1, 0, 0, 0x25, 2, 0, 0, 4, 0, 0, 0, 0x25, 1, 0, 0,
      0xAA, 0xAA, 0x25, 1, 0, 0]⟩).toOption.map (fun script =>
        ((ofScript script {}).blocks.map (·.offsets),
          ((ofScript script {}).blockAt? 4).map (·.id))) =
      some (#[#[0, 4], #[12], #[18]], some ⟨0⟩) := by decide +kernel
  obtain ⟨script, hscan, hview⟩ := Scanner.exists_script hseen
  obtain ⟨hblocks, hat⟩ := Prod.mk.inj hview
  exact ⟨script, hscan, hblocks, hat, partitions_ofScript hscan {}⟩

end Graph

end Flow

end PacScript
