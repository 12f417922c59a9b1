import PacScript.Proofs.Flow.Conservation

/-!
# Where the branches of a jump table leave

The runs of a script put a jump table down to the last run in front of it. In the script of a scan
this is the run that ends with the indexed jump of the table, however the run has ended, since
nothing but padding stands between the two. So what the branches become leaves the block of this
instruction, and no table goes without one (`Graph.branches_ofScript`).
-/

namespace PacScript.Flow.Graph

/-- What the jumps in the middle have become stands in the middle. -/
theorem Settles.exists_middle {graph : Graph} {jumps middle others : List Jump}
    {edges : List Edge} {unresolved : List UnresolvedJump}
    (h : graph.Settles (jumps ++ (middle ++ others)) edges unresolved) :
    ∃ earlier made later before noted behind, edges = earlier ++ made ++ later ∧
      unresolved = before ++ noted ++ behind ∧ graph.Settles jumps earlier before ∧
      graph.Settles middle made noted ∧ graph.Settles others later behind := by
  obtain ⟨earlier, rest, before, noteds, rfl, rfl, hfirst, hrest⟩ := h.exists_append
  obtain ⟨made, later, noted, behind, rfl, rfl, hmiddle, hothers⟩ := hrest.exists_append
  exact ⟨earlier, made, later, before, noted, behind, (List.append_assoc _ _ _).symm,
    (List.append_assoc _ _ _).symm, hfirst, hmiddle, hothers⟩

/-- A block ends with the switch of each jump table. -/
theorem exists_block_of_mem_switches {script : Script} {switch : Instruction × Entity}
    (hmem : switch ∈ switches none script.entities.toList) (roles : Roles) :
    ∃ block ∈ (ofScript script roles).blocks, block.offsets.back? = some switch.1.offset := by
  obtain ⟨run, hrun, hlast⟩ := (Runs.covers_ofScript roles script).exists_run hmem
  have hoffsets := Array.mem_map_of_mem (f := Run.offsets) hrun
  rw [← offsets_ofScript] at hoffsets
  obtain ⟨block, hblock, heq⟩ := Array.mem_map.1 hoffsets
  exact ⟨block, hblock, by rw [heq, Run.back?_offsets, hlast]⟩

/-- A table behind an indexed jump goes with this, between the tables in front and those behind. -/
theorem switches_of_endsWithSwitch {scanner : Scanner} {front : List Entity} {table : Entity}
    {switch : Instruction} (hswitch : scanner.EndsWithSwitch front switch)
    (hkind : table.kind = .jumpTable) (back : List Entity) :
    switches none (front ++ table :: back) =
      switches none front ++ (switch, table) :: switches (some switch) back := by
  rw [switches_append, hswitch.metLast_eq, switches_cons_of_jumpTable switch hkind]

/-- What the branches of a table have become leaves the exit of the block that ends with the
switch, when no other exit is that of such a block. -/
theorem Settles.source_eq {graph : Graph} {switch : Instruction × Entity} {made : List Edge}
    {noted : List UnresolvedJump} (h : graph.Settles (branchJumps switch) made noted)
    {exit : ExitId} (hunique : ∀ source, graph.Leaves source switch.1.offset → source = exit) :
    (∀ edge ∈ made, edge.source = exit) ∧ ∀ record ∈ noted, record.source = exit := by
  have horigin : ∀ jump ∈ branchJumps switch, jump.origin = switch.1.offset := by
    intro jump hjump
    obtain ⟨target, -, rfl⟩ := List.mem_map.1 hjump
    rfl
  constructor
  · intro edge hmem
    obtain ⟨jump, hjump, hleaves, -⟩ := h.exists_of_mem_edges hmem
    exact hunique _ (horigin jump hjump ▸ hleaves)
  · intro record hmem
    obtain ⟨jump, hjump, hleaves⟩ := h.exists_of_mem_unresolved hmem
    exact hunique _ (horigin jump hjump ▸ hleaves)

/-- Each jump table of the script of a scan stands behind an indexed jump, which a block ends with.
Each of its branches becomes an edge or an unresolved jump from the exit of this block. -/
theorem branches_ofScript {scanner : Scanner} {data : ByteArray} {script : Script}
    (hscan : scanner.scan data = .ok script) {front back : List Entity} {table : Entity}
    (hsplit : script.entities.toList = front ++ table :: back) (hkind : table.kind = .jumpTable)
    (roles : Roles) :
    let graph := ofScript script roles
    ∃ switch block, scanner.EndsWithSwitch front switch ∧
      block ∈ graph.blocks ∧ block.offsets.back? = some switch.offset ∧
      ∃ earlier made later before noted behind,
        graph.edges.toList =
          graph.fallThroughs (terminatesAt script roles) ++ (earlier ++ made ++ later) ∧
        graph.unresolved.toList = before ++ noted ++ behind ∧
        graph.Settles (script.instructions.flatMap roles.jumps ++
          (switches none front).flatMap branchJumps) earlier before ∧
        graph.Settles (branchJumps (switch, table)) made noted ∧
        graph.Settles ((switches (some switch) back).flatMap branchJumps) later behind ∧
        made.length + noted.length = table.branches.size ∧
        (∀ edge ∈ made, edge.source = block.exit) ∧
        ∀ record ∈ noted, record.source = block.exit := by
  intro graph
  have hascending := Scanner.pairwise_instructions hscan
  obtain ⟨switch, hswitch⟩ := Scanner.tablesBehind_of_scan hscan front table back hsplit hkind
  -- The table goes with this instruction, and so the run that it is put down to ends with it.
  have hswitches := switches_of_endsWithSwitch hswitch hkind back
  rw [← hsplit] at hswitches
  have hmem : (switch, table) ∈ switches none script.entities.toList := by
    rw [hswitches]
    exact List.mem_append_right _ List.mem_cons_self
  obtain ⟨block, hblock, hend⟩ := exists_block_of_mem_switches hmem roles
  have hunique : ∀ source, graph.Leaves source switch.offset → source = block.exit :=
    fun source hleaves => leaves_unique roles hascending hleaves ⟨block, hblock, rfl, hend⟩
  obtain ⟨edges, hedges, hsettles⟩ := settles_ofScript roles hascending
  -- Its branches stand between the jumps that are routed before and those that are routed behind.
  rw [hswitches, List.flatMap_append, List.flatMap_cons, ← List.append_assoc] at hsettles
  obtain ⟨earlier, made, later, before, noted, behind, rfl, hnoted, hfirst, hmade, hothers⟩ :=
    hsettles.exists_middle
  have hlength : made.length + noted.length = table.branches.size := by
    rw [hmade.length_add_length, branchJumps, List.length_map, Array.length_toList]
  exact ⟨switch, block, hswitch, hblock, hend, earlier, made, later, before, noted, behind, hedges,
    hnoted, hfirst, hmade, hothers, hlength, hmade.source_eq hunique⟩

/-- The table of a switch with padding behind it has two branches, one of which leads to the end. -/
theorem branches_branching :
    ∃ script front table back, Scanner.branching.scan ⟨#[0x25, 4, 0, 0, 0x61, 0, 0, 0, 24, 0, 0, 0,
        99, 0, 0, 0, 0x25, 2, 0, 0, 0, 0, 0, 0, 0x25, 1, 0, 0]⟩ = .ok script ∧
      script.entities.toList = front ++ table :: back ∧
      front.map Entity.kind = [.instruction, .padding] ∧ table.kind = .jumpTable ∧
      let graph := ofScript script ⟨[0x25010000], [0x25020000]⟩
      ∃ switch block made noted, Scanner.branching.EndsWithSwitch front switch ∧
        block ∈ graph.blocks ∧ block.offsets.back? = some switch.offset ∧
        graph.Settles (branchJumps (switch, table)) made noted ∧
        made.length + noted.length = table.branches.size ∧
        (∀ edge ∈ made, edge.source = block.exit) ∧
        ∀ record ∈ noted, record.source = block.exit := by
  have hseen : (Scanner.branching.scan ⟨#[0x25, 4, 0, 0, 0x61, 0, 0, 0, 24, 0, 0, 0, 99, 0, 0, 0,
      0x25, 2, 0, 0, 0, 0, 0, 0, 0x25, 1, 0, 0]⟩).toOption.map
        (fun script => script.entities.toList.map Entity.kind) =
      some ([.instruction, .padding] ++ .jumpTable :: [.instruction, .instruction]) := by
    decide +kernel
  obtain ⟨script, hscan, hkinds⟩ := Scanner.exists_script hseen
  obtain ⟨front, rest, hsplit, hfront, hrest⟩ := List.map_eq_append_iff.1 hkinds
  obtain ⟨table, back, rfl, hkind, -⟩ := List.map_eq_cons_iff.1 hrest
  obtain ⟨switch, block, hswitch, hblock, hend, _, made, _, _, noted, _, -, -, -, hmade, -, hlength,
    hedges, hnoted⟩ := branches_ofScript hscan hsplit hkind ⟨[0x25010000], [0x25020000]⟩
  exact ⟨script, front, table, back, hscan, hsplit, hfront, hkind, switch, block, made, noted,
    hswitch, hblock, hend, hmade, hlength, hedges, hnoted⟩

end PacScript.Flow.Graph
