import PacScript.Proofs.Flow.Ledger
import PacScript.Proofs.Flow.Neighbours
import PacScript.Proofs.Flow.Runs
import PacScript.Proofs.Scan.Switches

/-!
# No jump is lost

A script whose instructions are at ascending offsets has a graph with the edges between neighbours,
and with one edge or one unresolved jump for each jump of its instructions and of its jump tables
(`Graph.settles_ofScript`). That only the last instruction of a run jumps is why it is enough to look
at those. The script of a scan has its instructions at ascending offsets, and an indexed jump in
front of each jump table.
-/

namespace PacScript

/-- The instructions of the script of a scan are at ascending offsets. -/
theorem Scanner.pairwise_instructions {scanner : Scanner} {data : ByteArray} {script : Script}
    (h : scanner.scan data = .ok script) :
    (script.instructions.map (·.offset)).Pairwise (· < ·) := by
  have hoffsets := (tiles_of_scan h).pairwise_offset
  rw [List.pairwise_map] at hoffsets
  rw [Script.instructions, List.pairwise_map, List.pairwise_filterMap]
  refine hoffsets.imp fun hlt known hknown other hother => ?_
  rwa [Entity.eq_toEntity_of_instruction? hknown, Entity.eq_toEntity_of_instruction? hother] at hlt

/-- The indexed jump in front of a jump table is the instruction that is met last there. -/
theorem Scanner.EndsWithSwitch.metLast_eq {scanner : Scanner} {entities : List Entity}
    {switch : Instruction} (h : scanner.EndsWithSwitch entities switch) :
    Flow.metLast none entities = some switch := by
  rw [Flow.metLast, h.getLast?_eq, Option.some_or]

namespace Flow

/-- True when the instruction at the offset is a terminator. -/
def terminatesAt (script : Script) (roles : Roles) (offset : Nat) : Bool :=
  script.instructions.any fun instruction =>
    instruction.offset = offset && roles.terminators.contains instruction.signature

/-- The jumps of all instructions are those of the last instructions of the runs. -/
theorem jumps_ended (roles : Roles) (script : Script) :
    ((Runs.ofScript roles script).ended.toList.flatMap fun run => roles.jumps run.last) =
      script.instructions.flatMap roles.jumps := by
  rw [← Runs.flatMap_instructions_ofScript roles script, List.flatMap_assoc]
  refine List.flatMap_congr fun run hmem => ?_
  have hearlier := (Runs.covers_ofScript roles script).earlier run (Array.mem_toList_iff.1 hmem)
  -- An instruction that does not end its run has no jump targets.
  have hnone : run.earlier.toList.flatMap roles.jumps = [] := by
    rw [List.flatMap_eq_nil_iff]
    intro instruction hinstruction
    have hends := hearlier instruction (Array.mem_toList_iff.1 hinstruction)
    rw [Roles.endsRun, Bool.or_eq_false_iff, Bool.not_eq_false', List.isEmpty_iff] at hends
    rw [Roles.jumps, hends.1, List.map_nil]
  simp [Run.instructions, hnone]

/-- The three phases in which the graph of a script is made. -/
theorem Graph.ofScript_eq (script : Script) (roles : Roles) :
    ofScript script roles =
      let runs := Runs.ofScript roles script
      let neighbours := runs.ended.toList.zipIdx.foldl
        (fun graph (run, index) => graph.fallThrough roles index run) (ofRuns runs.ended)
      let jumps := runs.ended.toList.zipIdx.foldl (fun graph (run, index) =>
        graph.routeAll index (roles.transition run.last) run.last.jumpTargets) neighbours
      runs.tables.toList.foldl (fun graph (index, branches) =>
        graph.routeAll index { potential := true } branches.toList) jumps := by
  unfold ofScript
  simp only [← Array.foldl_toList, Array.toList_zipIdx]

/-- The blocks of the graph of a script are its runs. -/
theorem Graph.offsets_ofScript (script : Script) (roles : Roles) :
    (ofScript script roles).blocks.map (·.offsets) =
      (Runs.ofScript roles script).ended.map Run.offsets := by
  rw [← offsets_ofRuns, ← (extends_ofScript script roles).outline_eq, outline, Array.map_map]
  rfl

/-- The block of an index has the offsets of a run. -/
theorem Graph.exists_run_ofScript {script : Script} {roles : Roles} {i : Nat} {block : Block}
    (hblock : (ofScript script roles).blocks[i]? = some block) :
    ∃ run, (Runs.ofScript roles script).ended[i]? = some run ∧ run.offsets = block.offsets := by
  have hoffsets := congrArg (·[i]?) (offsets_ofScript script roles)
  simp only [Array.getElem?_map, hblock, Option.map_some] at hoffsets
  exact Option.map_eq_some_iff.1 hoffsets.symm

section Phases

variable {graph : Graph} {runs : Runs}

/-- The second phase routes the jumps of the last instructions of the runs. -/
theorem Graph.WellFormed.routes_jumps (h : graph.WellFormed)
    (hgrows : (Graph.ofRuns runs.ended).Extends graph) (roles : Roles) :
    graph.Routes (runs.ended.toList.flatMap fun run => roles.jumps run.last)
      (runs.ended.toList.zipIdx.foldl (fun graph (run, index) =>
        graph.routeAll index (roles.transition run.last) run.last.jumpTargets) graph) := by
  have hgroups : (runs.ended.toList.zipIdx.map fun item => roles.jumps item.1.last).flatten =
      runs.ended.toList.flatMap fun run => roles.jumps run.last := by
    calc
      _ = ((runs.ended.toList.zipIdx.map Prod.fst).map fun run => roles.jumps run.last).flatten := by
        rw [List.map_map]
        rfl
      _ = _ := by rw [List.zipIdx_map_fst, ← List.flatMap_def]
  rw [← hgroups]
  refine h.routes_foldl_routeAll Prod.snd
    (fun item : Run × Nat => roles.transition item.1.last)
    (fun item => item.1.last.jumpTargets) ?_
  rw [List.forall₂_map_right_iff, List.forall₂_same]
  intro item hmem
  have hrun : runs.ended[item.2]? = some item.1 := by
    rw [← Array.getElem?_toList]
    exact List.mk_mem_zipIdx_iff_getElem?.1 hmem
  exact (Graph.emits_ofRuns hrun _ _).mono hgrows

/-- The third phase routes the branches of the jump tables from where the runs of their switches
end. -/
theorem Graph.WellFormed.routes_branches (h : graph.WellFormed)
    (hgrows : (Graph.ofRuns runs.ended).Extends graph) {pairs : List (Instruction × Entity)}
    (htables : List.Forall₂ (Runs.Attributes runs.ended) runs.tables.toList pairs) :
    graph.Routes (pairs.flatMap branchJumps)
      (runs.tables.toList.foldl (fun graph (index, branches) =>
        graph.routeAll index { potential := true } branches.toList) graph) := by
  rw [List.flatMap_def]
  refine h.routes_foldl_routeAll Prod.fst (fun _ => { potential := true })
    (fun table : Nat × Array UInt32 => table.2.toList) ?_
  rw [List.forall₂_map_right_iff]
  refine htables.imp fun table switch hattributes => ?_
  obtain ⟨⟨run, hrun, hlast⟩, hbranches⟩ := hattributes
  rw [branchJumps, ← hlast, ← hbranches]
  exact (Graph.emits_ofRuns hrun _ _).mono hgrows

end Phases

section Ascending

variable {script : Script} (roles : Roles)
  (hascending : (script.instructions.map (·.offset)).Pairwise (· < ·))

include hascending

/-- The instructions of each run ascend, and so do the runs. -/
theorem pairwise_runs :
    (∀ run ∈ (Runs.ofScript roles script).ended, run.offsets.toList.Pairwise (· < ·)) ∧
      ((Runs.ofScript roles script).ended.toList.map (·.last.offset)).Pairwise (· < ·) := by
  rw [← Runs.flatMap_instructions_ofScript roles script, List.map_flatMap,
    List.pairwise_flatMap] at hascending
  obtain ⟨hinside, hbetween⟩ := hascending
  constructor
  · intro run hmem
    rw [Run.toList_offsets]
    exact hinside run (Array.mem_toList_iff.2 hmem)
  · rw [List.pairwise_map]
    refine hbetween.imp fun {run other} hlt => ?_
    have hlast : ∀ run : Run, run.last.offset ∈ run.instructions.map (·.offset) := by
      intro run
      simp [Run.instructions]
    exact hlt _ (hlast run) _ (hlast other)

/-- An instruction is a terminator when the one at its offset is. -/
theorem terminatesAt_offset {instruction : Instruction} (hmem : instruction ∈ script.instructions) :
    terminatesAt script roles instruction.offset = roles.terminates instruction := by
  rw [terminatesAt, Roles.terminates, Bool.eq_iff_iff, List.any_eq_true]
  constructor
  · rintro ⟨other, hother, htest⟩
    rw [Bool.and_eq_true, decide_eq_true_iff] at htest
    -- There is only one instruction at an offset.
    rw [← List.inj_on_of_nodup_map (hascending.imp Nat.ne_of_lt) hother hmem htest.1]
    exact htest.2
  · intro hterminator
    exact ⟨instruction, hmem, by simpa using hterminator⟩

/-- The edges of the graph of a script are first those between neighbours, then those that the jumps
of the instructions and of the jump tables have become. The other jumps are unresolved. -/
theorem Graph.settles_ofScript :
    ∃ edges, (ofScript script roles).edges.toList =
        (ofScript script roles).fallThroughs (terminatesAt script roles) ++ edges ∧
      (ofScript script roles).Settles (script.instructions.flatMap roles.jumps ++
          (switches none script.entities.toList).flatMap branchJumps) edges
        (ofScript script roles).unresolved.toList := by
  have hjumps := jumps_ended roles script
  have htables := (Runs.covers_ofScript roles script).tables
  have hsorted := (pairwise_runs roles hascending).1
  have hterminates : ∀ run ∈ (Runs.ofScript roles script).ended,
      terminatesAt script roles run.last.offset = roles.terminates run.last := by
    intro run hmem
    refine terminatesAt_offset roles hascending ?_
    rw [← Runs.flatMap_instructions_ofScript roles script, List.mem_flatMap]
    exact ⟨run, Array.mem_toList_iff.2 hmem, by simp [Run.instructions]⟩
  rw [ofScript_eq]
  generalize Runs.ofScript roles script = runs at *
  -- Each phase starts from the blocks of the runs, with what the phases before have added.
  obtain ⟨hgrows, hwell, hedges, hunresolved⟩ := foldl_fallThrough_ofRuns hsorted hterminates
  have hrouted := List.foldlRecOn runs.ended.toList.zipIdx _ hwell fun _ h item _ =>
    Kept.wellFormed.routeAll h item.2 (roles.transition item.1.last) item.1.last.jumpTargets
  have hroutes := hwell.routes_jumps hgrows roles
  have hall := hroutes.trans
    (WellFormed.routes_branches hrouted (hgrows.trans hroutes.grows) htables)
  rw [hjumps] at hall
  obtain ⟨edges, unresolved, hmade, hnoted, hsettles⟩ := hall.settles
  rw [hedges, ← hall.grows.fallThroughs_eq] at hmade
  rw [hunresolved, Array.toList_empty, List.nil_append] at hnoted
  exact ⟨edges, hmade, hnoted ▸ hsettles⟩

/-- A jump leaves one exit: no two blocks end with the same instruction. -/
theorem Graph.leaves_unique {source other : ExitId} {origin : Nat}
    (hsource : (ofScript script roles).Leaves source origin)
    (hother : (ofScript script roles).Leaves other origin) : source = other := by
  have hends := (pairwise_runs roles hascending).2.imp Nat.ne_of_lt
  have hwell := wellFormed_ofScript script roles
  -- The block of an exit is that of a run, which ends where the block does.
  have hrun : ∀ {exit : ExitId}, (ofScript script roles).Leaves exit origin →
      ((Runs.ofScript roles script).ended.toList.map (·.last.offset))[exit.index]? =
        some origin := by
    rintro exit ⟨block, hmem, rfl, hlast⟩
    obtain ⟨i, hblock⟩ := Array.mem_iff_getElem?.1 hmem
    obtain ⟨run, hrun, heq⟩ := exists_run_ofScript hblock
    rw [(hwell.ids i block hblock).2, List.getElem?_map, Array.getElem?_toList, hrun,
      Option.map_some, ← hlast, ← heq, Run.back?_offsets]
  have hindex := (List.getElem?_inj (List.getElem?_eq_some_iff.1 (hrun hsource)).1 hends).1
    ((hrun hsource).trans (hrun hother).symm)
  exact ExitId.eq_mk_iff.2 hindex

end Ascending

/-- The edges and the unresolved jumps of a graph account for a script. -/
structure Graph.Conserves (graph : Graph) (script : Script) (roles : Roles) : Prop where
  /-- Behind the edges between neighbours, each jump of an instruction and each branch of a jump
  table has become one edge or one unresolved jump, and nothing else is there. -/
  settles : ∃ edges,
    graph.edges.toList = graph.fallThroughs (terminatesAt script roles) ++ edges ∧
    (∀ edge ∈ edges, edge.transition.fallthrough = false) ∧
    graph.Settles (script.instructions.flatMap roles.jumps ++
      (switches none script.entities.toList).flatMap branchJumps) edges graph.unresolved.toList
  /-- All jump tables have a switch. -/
  switches_eq : (switches none script.entities.toList).map Prod.snd = script.ofKind .jumpTable
  /-- No two blocks end with the same instruction, so that a jump leaves one exit. -/
  leaves_unique : ∀ source other origin, graph.Leaves source origin →
    graph.Leaves other origin → source = other

/-- Jumps of instructions and of tables do not go on into the next block. -/
theorem fallthrough_eq_false {script : Script} {roles : Roles} {jump : Jump}
    (hmem : jump ∈ script.instructions.flatMap roles.jumps ++
      (switches none script.entities.toList).flatMap branchJumps) :
    jump.transition.fallthrough = false := by
  rcases List.mem_append.1 hmem with hmem | hmem
  · obtain ⟨instruction, -, hjump⟩ := List.mem_flatMap.1 hmem
    obtain ⟨target, -, rfl⟩ := List.mem_map.1 hjump
    rfl
  · obtain ⟨switch, -, hjump⟩ := List.mem_flatMap.1 hmem
    obtain ⟨target, -, rfl⟩ := List.mem_map.1 hjump
    rfl

/-- The graph of the script of a scan loses no jump, makes none twice and adds none, and moves
control along its edges as the instructions say. -/
theorem Graph.conserves_ofScript {scanner : Scanner} {data : ByteArray} {script : Script}
    (hscan : scanner.scan data = .ok script) (roles : Roles) :
    (ofScript script roles).Conserves script roles where
  settles := by
    obtain ⟨edges, hedges, hsettles⟩ :=
      settles_ofScript roles (Scanner.pairwise_instructions hscan)
    refine ⟨edges, hedges, fun edge hmem => ?_, hsettles⟩
    obtain ⟨jump, hjump, -, htransition⟩ := hsettles.exists_of_mem_edges hmem
    rw [htransition, fallthrough_eq_false hjump]
  switches_eq := by
    refine map_snd_switches fun front table back hsplit hkind => ?_
    obtain ⟨switch, hswitch⟩ := Scanner.tablesBehind_of_scan hscan front table back hsplit hkind
    rw [hswitch.metLast_eq]
    rfl
  leaves_unique _ _ _ := leaves_unique roles (Scanner.pairwise_instructions hscan)

end Flow

/-- A scanner that knows an end, a jump, and an indexed jump with a text. -/
def Scanner.branching : Scanner where
  registry := .ofList [{ signature := 0x25010000, name := "cmd_end" },
    { signature := 0x25020000, name := "cmd_jump", parameters := [⟨.fixed .jumpTarget, "to"⟩] },
    { signature := 0x25040000, name := "cmd_switch", parameters := [⟨.string, "on"⟩] }]
  indexedJump := some 0x25040000

/-- Two edges between neighbours, the edge of a call, and the edge and the unresolved jump of a jump
table are all that the graph has. -/
theorem Flow.Graph.conserves_branching :
    ∃ script, Scanner.branching.scan ⟨#[0x25, 4, 0, 0, 0x61, 0, 0, 0, 24, 0, 0, 0, 99, 0, 0, 0,
        0x25, 2, 0, 0, 0, 0, 0, 0, 0x25, 1, 0, 0]⟩ = .ok script ∧
      let graph := Graph.ofScript script ⟨[0x25010000], [0x25020000]⟩
      graph.edges.toList = [⟨⟨0⟩, ⟨1⟩, { fallthrough := true }⟩,
        ⟨⟨1⟩, ⟨2⟩, { fallthrough := true }⟩, ⟨⟨1⟩, ⟨0⟩, { savesReturn := true }⟩,
        ⟨⟨0⟩, ⟨2⟩, { potential := true }⟩] ∧
      graph.unresolved.toList = [⟨⟨0⟩, 99, { potential := true }⟩] ∧
      graph.Conserves script ⟨[0x25010000], [0x25020000]⟩ := by
  have hseen : (Scanner.branching.scan ⟨#[0x25, 4, 0, 0, 0x61, 0, 0, 0, 24, 0, 0, 0, 99, 0, 0, 0,
      0x25, 2, 0, 0, 0, 0, 0, 0, 0x25, 1, 0, 0]⟩).toOption.map (fun script =>
        let graph := Graph.ofScript script ⟨[0x25010000], [0x25020000]⟩
        (graph.edges.toList, graph.unresolved.toList)) =
      some ([⟨⟨0⟩, ⟨1⟩, { fallthrough := true }⟩, ⟨⟨1⟩, ⟨2⟩, { fallthrough := true }⟩,
        ⟨⟨1⟩, ⟨0⟩, { savesReturn := true }⟩, ⟨⟨0⟩, ⟨2⟩, { potential := true }⟩],
        [⟨⟨0⟩, 99, { potential := true }⟩]) := by decide +kernel
  obtain ⟨script, hscan, hview⟩ := Scanner.exists_script hseen
  simp only [Prod.mk.injEq] at hview
  exact ⟨script, hscan, hview.1, hview.2, Graph.conserves_ofScript hscan _⟩

end PacScript
