import PacScript.Proofs.Scan.Belongings

/-!
# What stands in front of a jump table

A scan records a jump table only as what belongs to an indexed jump, so that this instruction stands
in front of the table, directly or with its padding between (`Scanner.tablesBehind_of_scan`). The
instruction is then the one that is met last before the table.
-/

namespace PacScript

namespace Scanner

/-- The entities end with an indexed jump, or with one and its padding. -/
structure EndsWithSwitch (scanner : Scanner) (entities : List Entity) (switch : Instruction) :
    Prop where
  /-- The instruction has the signature of the indexed jump. -/
  indexedJump_eq : scanner.indexedJump = some switch.signature
  /-- It is the last entity, or the last but one in front of padding. -/
  exists_eq : ∃ earlier padding, entities = earlier ++ switch.toEntity :: padding ∧
    padding.length ≤ 1 ∧ ∀ entity ∈ padding, entity.kind = .padding

variable {scanner : Scanner} {data : ByteArray} {switch : Instruction}
  {entities front back : List Entity}

/-- The indexed jump is the instruction that is met last. -/
theorem EndsWithSwitch.getLast?_eq (h : scanner.EndsWithSwitch entities switch) :
    (entities.filterMap Entity.instruction?).getLast? = some switch := by
  obtain ⟨earlier, padding, rfl, -, hpadding⟩ := h.exists_eq
  have hnone : padding.filterMap Entity.instruction? = [] := by
    rw [List.filterMap_eq_nil_iff]
    intro entity hmem
    rw [Entity.instruction?_eq_none_iff, hpadding entity hmem]
    decide
  simp [hnone]

/-- Each jump table among the entities stands behind an indexed jump. -/
def TablesBehind (scanner : Scanner) (entities : List Entity) : Prop :=
  ∀ front table back, entities = front ++ table :: back → table.kind = .jumpTable →
    ∃ switch, scanner.EndsWithSwitch front switch

end Scanner

/-- Each jump table that a scan records stands behind an indexed jump, directly or with its padding
between. -/
theorem Course.tablesBehind {scanner : Scanner} {data : ByteArray} {previous : Option Entity}
    {entities : List Entity} {outcome : Option Failure}
    (h : Course scanner data previous entities outcome) : scanner.TablesBehind entities := by
  intro front table back hsplit hkind
  obtain ⟨switch, before, behind, later, rfl, hlater⟩ :=
    h.exists_owner hsplit (by rw [hkind]; rfl)
  obtain ⟨padding, found, hbelongings, hattends⟩ := scanner.exists_belongings data switch
  have htaken := hbelongings.symm.trans hlater
  obtain rfl := hattends.eq_padding_of_table htaken hkind
  -- The table is there because the instruction has the signature of the indexed jump.
  have hfound : found = some table := by
    rw [← Option.mem_toList, List.append_cancel_left htaken]
    exact List.mem_cons_self
  have htabulates := hattends.tabulates.isSome_iff.1 (Option.isSome_of_mem hfound)
  refine ⟨switch, htabulates.2.1, before, padding.toList, rfl, ?_, ?_⟩
  · cases padding <;> simp
  · intro entity hmem
    exact hattends.kind_padding entity (Option.mem_toList.1 hmem)

/-- Each jump table of the script of a scan stands behind an indexed jump. -/
theorem Scanner.tablesBehind_of_scan {scanner : Scanner} {data : ByteArray} {script : Script}
    (h : scanner.scan data = .ok script) : scanner.TablesBehind script.entities.toList := by
  obtain ⟨entities, hcourse, rfl⟩ := scan_eq_ok_iff.1 h
  rw [Script.toList_ofSize_pushAll]
  exact hcourse.tablesBehind

end PacScript
