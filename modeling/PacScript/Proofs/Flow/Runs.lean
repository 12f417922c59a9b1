import Mathlib.Data.List.Induction
import PacScript.Flow.Build
import PacScript.Proofs.Flow.Indices

/-!
# The runs of a script

The runs of a script are its instructions, cut behind each one that jumps or is a terminator and
wherever something else stands between two of them. Nothing is lost by this, nothing but the last
instruction of a run ends it, and each jump table is put down to the run whose last instruction is
the one that was met last before the table (`Runs.Covers`). This holds after each entity that is
looked at (`Runs.Covers.add`), and so of the runs of a script (`Runs.covers_ofScript`).
-/

namespace PacScript.Flow

/-- The instructions of a run. -/
def Run.instructions (run : Run) : List Instruction :=
  run.earlier.toList ++ [run.last]

/-- The offsets of a run are those of its instructions. -/
theorem Run.toList_offsets (run : Run) :
    run.offsets.toList = run.instructions.map (·.offset) := by
  simp [Run.offsets, Run.instructions]

/-- An offset of a run is that of one of its instructions. -/
theorem Run.mem_offsets_iff {run : Run} {offset : Nat} :
    offset ∈ run.offsets ↔ ∃ instruction ∈ run.instructions, instruction.offset = offset := by
  rw [← Array.mem_toList_iff, toList_offsets, List.mem_map]

/-- Each jump table among the entities, with the instruction that is met last in front of it. In
front of the entities that is `last`; a table without an instruction in front is left out. -/
def switches (last : Option Instruction) : List Entity → List (Instruction × Entity)
  | [] => []
  | entity :: rest =>
    (if entity.kind = .jumpTable then last.toList.map (·, entity) else []) ++
      switches (entity.instruction?.or last) rest

/-- The instruction that is met last in front of what stands behind some entities. -/
def metLast (last : Option Instruction) (entities : List Entity) : Option Instruction :=
  (entities.filterMap Entity.instruction?).getLast?.or last

/-- The first entity is met before the others. -/
theorem metLast_cons (last : Option Instruction) (entity : Entity) (entities : List Entity) :
    metLast last (entity :: entities) = metLast (entity.instruction?.or last) entities := by
  unfold metLast
  rw [List.filterMap_cons]
  cases entity.instruction? with
  | none => rfl
  | some instruction =>
    rw [List.getLast?_cons]
    cases (entities.filterMap Entity.instruction?).getLast? <;> rfl

/-- Tables behind some entities go with the instruction that is met last among these, if there is
one. -/
theorem switches_append (last : Option Instruction) (front back : List Entity) :
    switches last (front ++ back) = switches last front ++ switches (metLast last front) back := by
  induction front generalizing last with
  | nil => rfl
  | cons entity front ih =>
    rw [List.cons_append, switches, switches, ih, metLast_cons, List.append_assoc]

/-- A table with an instruction in front goes with this. -/
theorem switches_cons_of_jumpTable (switch : Instruction) {table : Entity}
    (hkind : table.kind = .jumpTable) (back : List Entity) :
    switches (some switch) (table :: back) = (switch, table) :: switches (some switch) back := by
  have hnone : table.instruction? = none := Entity.instruction?_eq_none_iff.2 (by simp [hkind])
  rw [switches, if_pos hkind, hnone]
  rfl

/-- All tables are there, if each has an instruction in front. -/
theorem map_snd_switches {last : Option Instruction} {entities : List Entity}
    (h : ∀ front table back, entities = front ++ table :: back → table.kind = .jumpTable →
      (metLast last front).isSome) :
    (switches last entities).map Prod.snd = entities.filter (·.kind = .jumpTable) := by
  induction entities generalizing last with
  | nil => rfl
  | cons entity entities ih =>
    have hrest : (switches (entity.instruction?.or last) entities).map Prod.snd =
        entities.filter (·.kind = .jumpTable) := by
      apply ih
      intro front table back hsplit hkind
      rw [← metLast_cons]
      exact h (entity :: front) table back (by rw [hsplit, List.cons_append]) hkind
    rw [switches, List.map_append, hrest, List.filter_cons]
    by_cases hkind : entity.kind = .jumpTable
    · -- With nothing in front, the instruction of the table is the one that was met before.
      obtain ⟨switch, rfl⟩ := Option.isSome_iff_exists.1 (h [] entity entities rfl hkind)
      simp [hkind]
    · simp [hkind]

namespace Runs

/-- The branches of a jump table are put down to the run that ends with its switch. -/
def Attributes (ended : Array Run) (table : Nat × Array UInt32) (switch : Instruction × Entity) :
    Prop :=
  (∃ run, ended[table.1]? = some run ∧ run.last = switch.1) ∧ table.2 = switch.2.branches

/-- Further runs do not change what a table is put down to. -/
theorem Attributes.push {ended : Array Run} {table : Nat × Array UInt32}
    {switch : Instruction × Entity} (h : Attributes ended table switch) (run : Run) :
    Attributes (ended.push run) table switch := by
  obtain ⟨⟨other, hother, hlast⟩, hbranches⟩ := h
  exact ⟨⟨other, getElem?_push_of_getElem? hother run, hlast⟩, hbranches⟩

/-- The runs are made of the instructions among the entities, and of the jump tables. -/
structure Covers (roles : Roles) (runs : Runs) (entities : List Entity) : Prop where
  /-- Each instruction is in one run, in order. -/
  instructions_eq : runs.ended.toList.flatMap Run.instructions ++ runs.current.toList =
    entities.filterMap Entity.instruction?
  /-- Only the last instruction of a run may end it. -/
  earlier : ∀ run ∈ runs.ended, ∀ instruction ∈ run.earlier, roles.endsRun instruction = false
  /-- The run that has not ended has no instruction that would end it. -/
  current : ∀ instruction ∈ runs.current, roles.endsRun instruction = false
  /-- Each jump table is put down to the run of the instruction met last before it. -/
  tables : List.Forall₂ (Attributes runs.ended) runs.tables.toList (switches none entities)

variable {roles : Roles} {runs : Runs} {entities : List Entity}

/-- When the current run is ended, there is none. -/
theorem current_close (runs : Runs) : runs.close.current = #[] := by
  unfold close
  split
  · rename_i hnone
    exact Array.back?_eq_none_iff.1 hnone
  · rfl

/-- The last of the instructions of some runs is the last one of the last run. -/
theorem getLast?_flatMap_instructions (ended : Array Run) :
    (ended.toList.flatMap Run.instructions).getLast? = ended.back?.map Run.last := by
  rw [← Array.getLast?_toList]
  rcases List.eq_nil_or_concat ended.toList with hnil | ⟨front, run, hconcat⟩
  · simp [hnil]
  · simp [hconcat, Run.instructions]

/-- Instructions none of which ends a run, with a further one behind them, become a run. -/
theorem covers_endRun {earlier : Array Instruction} {last : Instruction}
    (hinstructions : runs.ended.toList.flatMap Run.instructions ++ earlier.toList ++ [last] =
      entities.filterMap Entity.instruction?)
    (hended : ∀ run ∈ runs.ended, ∀ instruction ∈ run.earlier, roles.endsRun instruction = false)
    (hearlier : ∀ instruction ∈ earlier, roles.endsRun instruction = false)
    (htables : List.Forall₂ (Attributes runs.ended) runs.tables.toList (switches none entities)) :
    Covers roles { runs with ended := runs.ended.push ⟨earlier, last⟩, current := #[] }
      entities where
  instructions_eq := by
    rw [← hinstructions]
    simp [Run.instructions]
  earlier := by
    intro run hrun
    rcases Array.mem_push.1 hrun with hrun | rfl
    · exact hended run hrun
    · exact hearlier
  current := by simp
  tables := htables.imp fun _ _ h => h.push _

namespace Covers

/-- Ending the current run keeps what the runs are made of. -/
theorem close (h : Covers roles runs entities) : Covers roles runs.close entities := by
  unfold Runs.close
  cases hlast : runs.current.back? with
  | none => exact h
  | some last =>
    obtain ⟨earlier, hcurrent⟩ := Array.back?_eq_some_iff.1 hlast
    have hinstructions := h.instructions_eq
    have hearlier := h.current
    simp only [hcurrent, Array.toList_push, ← List.append_assoc] at hinstructions
    rw [hcurrent] at hearlier
    simp only [hcurrent, Array.pop_push]
    exact covers_endRun hinstructions h.earlier
      (fun instruction hmem => hearlier instruction (Array.mem_push_of_mem last hmem)) h.tables

/-- An instruction is added to the current run, and ends it or not. -/
theorem add_instruction (h : Covers roles runs entities) {entity : Entity}
    {instruction : Instruction} (hentity : entity.instruction? = some instruction) :
    Covers roles (runs.add roles entity) (entities ++ [entity]) := by
  have hkind : entity.kind ≠ .jumpTable := by
    rw [Entity.eq_toEntity_of_instruction? hentity]
    simp [Instruction.toEntity, Entity.kind, Content.kind]
  have hinstructions : runs.ended.toList.flatMap Run.instructions ++ runs.current.toList ++
      [instruction] = (entities ++ [entity]).filterMap Entity.instruction? := by
    rw [h.instructions_eq, List.filterMap_append]
    simp [hentity]
  -- An instruction is no jump table, and so the runs with one are the same as before.
  have htables : switches none (entities ++ [entity]) = switches none entities := by
    rw [switches_append]
    simp [switches, hkind]
  unfold Runs.add
  simp only [hentity]
  split
  case isTrue hends =>
    have hclose : ({ runs with current := runs.current.push instruction } : Runs).close =
        { runs with ended := runs.ended.push ⟨runs.current, instruction⟩, current := #[] } := by
      simp [Runs.close]
    rw [hclose]
    exact covers_endRun hinstructions h.earlier h.current (htables ▸ h.tables)
  case isFalse hends =>
    refine ⟨?_, h.earlier, ?_, htables ▸ h.tables⟩
    · rw [← hinstructions, Array.toList_push, List.append_assoc]
    · intro other hother
      rcases Array.mem_push.1 hother with hother | rfl
      · exact h.current other hother
      · exact Bool.eq_false_iff.2 hends

/-- Anything else ends the current run, and a jump table is put down to the last run that has
ended. -/
theorem add_other (h : Covers roles runs entities) {entity : Entity}
    (hentity : entity.instruction? = none) :
    Covers roles (runs.add roles entity) (entities ++ [entity]) := by
  have hclosed := h.close
  have hinstructions : (entities ++ [entity]).filterMap Entity.instruction? =
      entities.filterMap Entity.instruction? := by
    rw [List.filterMap_append]
    simp [hentity]
  -- With no current run, the instruction met last is the last one of the last run.
  have hmet : metLast none entities = runs.close.ended.back?.map Run.last := by
    rw [metLast, Option.or_none, ← hclosed.instructions_eq, current_close,
      ← getLast?_flatMap_instructions]
    simp
  have hswitches : switches none (entities ++ [entity]) = switches none entities ++
      if entity.kind = .jumpTable then
        (runs.close.ended.back?.map Run.last).toList.map (·, entity) else [] := by
    rw [switches_append, hmet]
    simp [switches]
  unfold Runs.add
  simp only [hentity]
  split
  case h_1 index hkind hsize =>
    have hindex : index < runs.close.ended.size := by omega
    have hlast : runs.close.ended.back? = some runs.close.ended[index] := by
      rw [Array.back?_eq_getElem?, hsize, Nat.succ_sub_one, Array.getElem?_eq_getElem hindex]
    refine ⟨hinstructions ▸ hclosed.instructions_eq, hclosed.earlier, hclosed.current, ?_⟩
    rw [hswitches, if_pos hkind, hlast, Array.toList_push]
    refine List.rel_append hclosed.tables (.cons ⟨?_, rfl⟩ .nil)
    exact ⟨_, Array.getElem?_eq_getElem hindex, rfl⟩
  case h_2 hnone =>
    refine ⟨hinstructions ▸ hclosed.instructions_eq, hclosed.earlier, hclosed.current, ?_⟩
    rw [hswitches]
    split
    case isTrue hkind =>
      -- There is no run yet that the table could be put down to.
      have hempty : runs.close.ended.back? = none := by
        rw [Array.back?_eq_none_iff, ← Array.size_eq_zero_iff]
        cases hsize : runs.close.ended.size with
        | zero => rfl
        | succ index => exact absurd hsize (hnone index hkind)
      rw [hempty]
      simpa using hclosed.tables
    case isFalse hkind => simpa using hclosed.tables

/-- Looking at a further entity keeps what the runs are made of. -/
theorem add (h : Covers roles runs entities) (entity : Entity) :
    Covers roles (runs.add roles entity) (entities ++ [entity]) := by
  cases hentity : entity.instruction? with
  | none => exact h.add_other hentity
  | some instruction => exact h.add_instruction hentity

/-- The switch of a jump table is where a run ends. -/
theorem exists_run (h : Covers roles runs entities) {switch : Instruction × Entity}
    (hmem : switch ∈ switches none entities) : ∃ run ∈ runs.ended, run.last = switch.1 := by
  have htables := h.tables
  generalize switches none entities = pairs at hmem htables
  generalize runs.tables.toList = tables at htables
  induction htables with
  | nil => simp at hmem
  | cons hattributes _ ih =>
    rcases List.mem_cons.1 hmem with rfl | hmem
    · obtain ⟨⟨run, hrun, hlast⟩, -⟩ := hattributes
      exact ⟨run, Array.mem_of_getElem? hrun, hlast⟩
    · exact ih hmem

/-- Each jump table is put down to one of the runs. -/
theorem lt_size (h : Covers roles runs entities) :
    ∀ table ∈ runs.tables.toList, table.1 < runs.ended.size := by
  have htables : List.Forall₂ (fun table switch => table.1 < runs.ended.size ∧
      Attributes runs.ended table switch) runs.tables.toList (switches none entities) := by
    refine h.tables.imp fun table switch hattributes => ⟨?_, hattributes⟩
    obtain ⟨⟨run, hrun, -⟩, -⟩ := hattributes
    exact lt_size_of_getElem? hrun
  exact ((List.forall₂_and_left _ _).1 htables).1

end Covers

/-- The runs after some entities are made of these. -/
theorem covers_foldl (roles : Roles) (entities : List Entity) :
    Covers roles (entities.foldl (add roles) {}) entities := by
  induction entities using List.reverseRecOn with
  | nil => exact ⟨rfl, by simp, by simp, .nil⟩
  | append_singleton entities entity ih =>
    rw [List.foldl_append]
    exact ih.add entity

/-- The runs of a script are made of its entities. -/
theorem covers_ofScript (roles : Roles) (script : Script) :
    Covers roles (ofScript roles script) script.entities.toList := by
  unfold ofScript
  rw [← Array.foldl_toList]
  exact (covers_foldl roles _).close

/-- All instructions of a script are in its runs, in order. -/
theorem flatMap_instructions_ofScript (roles : Roles) (script : Script) :
    (ofScript roles script).ended.toList.flatMap Run.instructions = script.instructions := by
  have hcurrent : (ofScript roles script).current = #[] := current_close _
  have hall := (covers_ofScript roles script).instructions_eq
  rwa [hcurrent, Array.toList_empty, List.append_nil] at hall

end Runs

end PacScript.Flow
