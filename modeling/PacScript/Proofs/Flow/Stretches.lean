import PacScript.Proofs.Flow.Runs

/-!
# Where the runs of a script stand

The instructions of a run stand in the script one directly behind the other, and a run goes on until
an instruction ends it or something else stands behind. While the entities are looked at one by one,
the run that has not ended is at the end of those looked at so far, and each run that has ended
stands among them with the reason for its end (`Runs.Straight`).
-/

namespace PacScript.Flow.Runs

/-- The run stands among the entities without anything between its instructions. Its last
instruction ends it, or what stands behind is no instruction. -/
def Stands (roles : Roles) (entities : List Entity) (run : Run) : Prop :=
  ∃ front back, entities = front ++ run.instructions.map Instruction.toEntity ++ back ∧
    (roles.endsRun run.last = true ∨ ∃ next ∈ back.head?, next.instruction? = none)

/-- The runs stand among the entities, the one that has not ended at their end. -/
structure Straight (roles : Roles) (runs : Runs) (entities : List Entity) : Prop where
  /-- The runs that have ended. -/
  ended : ∀ run ∈ runs.ended, Stands roles entities run
  /-- The run that has not ended. -/
  current : ∃ front, entities = front ++ runs.current.toList.map Instruction.toEntity

variable {roles : Roles} {runs : Runs} {entities : List Entity}

/-- A run stands where it did when there are further entities. -/
theorem Stands.append {run : Run} (h : Stands roles entities run) (more : List Entity) :
    Stands roles (entities ++ more) run := by
  obtain ⟨front, back, rfl, hends⟩ := h
  refine ⟨front, back ++ more, List.append_assoc _ _ _, hends.imp_right ?_⟩
  intro hnext
  obtain ⟨next, hmem, hnone⟩ := hnext
  obtain ⟨rest, rfl⟩ := List.head?_eq_some_iff.1 hmem
  exact ⟨next, rfl, hnone⟩

/-- Ending the current run makes a run of its instructions, if there are any. -/
theorem mem_ended_close {run : Run} (h : run ∈ runs.close.ended) :
    run ∈ runs.ended ∨ runs.current.toList = run.instructions := by
  unfold close at h
  split at h
  · exact Or.inl h
  · rename_i last hlast
    obtain ⟨earlier, hcurrent⟩ := Array.back?_eq_some_iff.1 hlast
    rcases Array.mem_push.1 h with hmem | rfl
    · exact Or.inl hmem
    · simp [hcurrent, Run.instructions]

namespace Straight

/-- The runs stand among the entities when the current one is ended, if there is a reason. -/
theorem close (h : Straight roles runs entities) (more : List Entity)
    (hends : ∀ run : Run, runs.current.toList = run.instructions →
      roles.endsRun run.last = true ∨ ∃ next ∈ more.head?, next.instruction? = none) :
    Straight roles runs.close (entities ++ more) where
  ended := by
    intro run hmem
    rcases mem_ended_close hmem with hmem | hcurrent
    · exact (h.ended run hmem).append more
    · obtain ⟨front, hfront⟩ := h.current
      rw [hcurrent] at hfront
      exact ⟨front, more, by rw [hfront], hends run hcurrent⟩
  current := ⟨entities ++ more, by simp [current_close]⟩

/-- Looking at a further entity keeps the runs where they stand. -/
theorem add (h : Straight roles runs entities) (entity : Entity) :
    Straight roles (runs.add roles entity) (entities ++ [entity]) := by
  unfold Runs.add
  cases hentity : entity.instruction? with
  | some instruction =>
    -- The instruction stands directly behind those of the current run.
    obtain rfl := Entity.eq_toEntity_of_instruction? hentity
    have hextended : Straight roles { runs with current := runs.current.push instruction }
        (entities ++ [instruction.toEntity]) := by
      obtain ⟨front, hfront⟩ := h.current
      refine ⟨fun run hmem => (h.ended run hmem).append _, front, ?_⟩
      rw [Array.toList_push, List.map_append, ← List.append_assoc, ← hfront]
      rfl
    dsimp only
    split
    case isTrue hends =>
      have hclosed := hextended.close [] ?_
      · rwa [List.append_nil] at hclosed
      · intro run hrun
        rw [Array.toList_push, Run.instructions, List.append_singleton_inj] at hrun
        exact Or.inl (hrun.2 ▸ hends)
    case isFalse => exact hextended
  | none =>
    have hclosed := h.close [entity] fun _ _ => Or.inr ⟨entity, rfl, hentity⟩
    dsimp only
    split
    · exact ⟨hclosed.ended, hclosed.current⟩
    · exact hclosed

end Straight

/-- The runs after some entities stand among them. -/
theorem straight_foldl (roles : Roles) (entities : List Entity) :
    Straight roles (entities.foldl (add roles) {}) entities := by
  induction entities using List.reverseRecOn with
  | nil => exact ⟨by simp, [], rfl⟩
  | append_singleton entities entity ih =>
    rw [List.foldl_append]
    exact ih.add entity

/-- Each run of a script stands in it without anything between its instructions. Its last
instruction ends it, or nothing but what is no instruction stands behind. -/
theorem exists_stretch {script : Script} {run : Run} (h : run ∈ (ofScript roles script).ended) :
    ∃ front back,
      script.entities.toList = front ++ run.instructions.map Instruction.toEntity ++ back ∧
        (roles.endsRun run.last = true ∨ ∀ next ∈ back.head?, next.instruction? = none) := by
  unfold ofScript at h
  rw [← Array.foldl_toList] at h
  have hstraight := straight_foldl roles script.entities.toList
  rcases mem_ended_close h with hmem | hcurrent
  · obtain ⟨front, back, hsplit, hends⟩ := hstraight.ended run hmem
    refine ⟨front, back, hsplit, hends.imp_right ?_⟩
    intro hnext next hmem
    obtain ⟨other, hother, hnone⟩ := hnext
    rwa [Option.mem_unique hmem hother]
  · -- The last run goes up to the end of the script.
    obtain ⟨front, hfront⟩ := hstraight.current
    rw [hcurrent] at hfront
    exact ⟨front, [], by rw [hfront, List.append_nil], Or.inr (by simp)⟩

end PacScript.Flow.Runs
