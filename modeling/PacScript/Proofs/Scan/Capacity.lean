import Mathlib.Algebra.BigOperators.Group.List.Basic
import Mathlib.Algebra.Ring.Nat
import PacScript.Proofs.Instruction.Capacity
import PacScript.Proofs.Scan.Failing

/-!
# How many parameters a script has room for

The entities of a script have the bytes of the buffer between them. So what weighs no more than the
bytes of each instruction weighs no more than the buffer in all
(`Entity.Tiles.sum_instructions_le`), and the parameters of all instructions are no more than the
bytes that the signatures leave (`Scanner.scan_bounds_parameters`), whatever is announced.
-/

namespace PacScript

open Arguments (Announces countLabel)
open Entity (Tiles)

/-- What weighs no more than the bytes of each instruction among entities that tile a range weighs
no more than the bytes of the range. -/
theorem Entity.Tiles.sum_instructions_le {data : ByteArray} {start stop : Nat}
    {entities : List Entity} (h : Tiles data start entities stop) {weight : Instruction → Nat}
    (hweight : ∀ entity ∈ entities, ∀ instruction, entity.instruction? = some instruction →
      weight instruction ≤ entity.size) :
    start + ((entities.filterMap Entity.instruction?).map weight).sum ≤ stop := by
  induction h with
  | nil => exact Nat.le_refl _
  | @cons entity rest start stop hoffset hsize hstop hraw hrest ih =>
    rw [List.forall_mem_cons] at hweight
    have htail := ih hweight.2
    have hend : entity.stop = start + entity.size := by rw [Entity.stop, hoffset]
    cases hinstruction : entity.instruction? with
    | none =>
      rw [List.filterMap_cons_none hinstruction]
      omega
    | some instruction =>
      have hhead := hweight.1 instruction hinstruction
      rw [List.filterMap_cons_some hinstruction, List.map_cons, List.sum_cons]
      omega

/-- How many parameters the known instructions of a script have together. -/
def Script.parameterCount (script : Script) : Nat :=
  (script.instructions.map (·.parameters.size)).sum

/-- The parameters and the signatures of a script have room in the buffer. -/
theorem Scanner.parameterCount_le {scanner : Scanner} {data : ByteArray} {script : Script}
    (hscan : scanner.scan data = .ok script) :
    script.parameterCount + 4 * script.instructions.length ≤ data.size := by
  have htiles := tiles_of_scan hscan
  have hbytes : 0 + (script.instructions.map fun i => i.parameters.size + 4).sum ≤ data.size := by
    apply htiles.sum_instructions_le
    intro entity hmem instruction hinstruction
    obtain ⟨signature, template, hcandidate, -, hdecode⟩ :=
      exists_decode_of_scan hscan hmem hinstruction
    rw [Entity.eq_toEntity_of_instruction? hinstruction]
    exact Instruction.size_parameters_le hcandidate.size hdecode
  calc script.parameterCount + 4 * script.instructions.length
      = (script.instructions.map fun i => i.parameters.size + 4).sum := by
        rw [Script.parameterCount, List.sum_map_add, List.map_const', List.sum_replicate_nat,
          Nat.mul_comm]
    _ ≤ data.size := by rwa [Nat.zero_add] at hbytes

/-- An instruction whose signature is in the buffer has room for its parameters, and is cut off when
a count announces more elements than there are words left. The parameters of a script are no more
than the bytes of the buffer, less four for each instruction. -/
theorem Scanner.scan_bounds_parameters (data : ByteArray) :
    (∀ offset template instruction, offset + 4 ≤ data.size →
      Instruction.decode data offset template = .ok instruction →
        instruction.HasRoom data offset template) ∧
      ∀ (scanner : Scanner) script, scanner.scan data = .ok script →
        script.parameterCount + 4 * script.instructions.length ≤ data.size := by
  refine ⟨fun offset template instruction hoffset hdecode => ?_, fun _ _ => parameterCount_le⟩
  constructor
  · exact Instruction.size_parameters_le hoffset hdecode
  · exact Instruction.isAnnounced_of_decode hoffset hdecode
  · intro count remaining
    exact Instruction.cutOff_of_announces hoffset hdecode

/-- A scanner that knows lists of variables. -/
def Scanner.variables : Scanner where
  registry := .ofList [.variables]

/-- A list that announces as many variables as a word can count, and has two of them. -/
def Template.hostileBytes : ByteArray :=
  ⟨#[0x25, 4, 0, 1, 2, 0xFF, 0xFF, 0xFF, 0xFF, 0x20, 1, 0, 0, 0, 0x20, 2, 0, 0, 0, 0x20]⟩

/-- The list has the count and the two variables as parameters, and is cut off behind them. -/
theorem Scanner.scan_bounds_parameters_hostile :
    0 + 4 ≤ Template.hostileBytes.size ∧
      (∃ instruction, Instruction.decode Template.hostileBytes 0 .variables = .ok instruction ∧
        instruction.parameters.size = 3 ∧ instruction.cutOff = true ∧
        instruction.HasRoom Template.hostileBytes 0 .variables) ∧
      ∃ script, Scanner.variables.scan Template.hostileBytes = .ok script ∧
        script.parameterCount = 3 ∧
        script.parameterCount + 4 * script.instructions.length ≤ Template.hostileBytes.size := by
  obtain ⟨hinstruction, hscript⟩ := scan_bounds_parameters Template.hostileBytes
  have hsize : 0 + 4 ≤ Template.hostileBytes.size := by decide
  refine ⟨hsize, ?_, ?_⟩
  · have hview : (Instruction.decode Template.hostileBytes 0 .variables).toOption.map
        (·.parameters.size) = some 3 := by decide +kernel
    obtain ⟨instruction, hok, hparameters⟩ := Option.map_eq_some_iff.1 hview
    have hdecode := Bytes.toOption_eq_some_iff.1 hok
    have hroom := hinstruction 0 .variables instruction hsize hdecode
    -- The count is behind the signature, and there are eleven bytes behind it.
    have hannounces : Announces Template.hostileBytes Template.variables.parameters (0 + 4)
        0xFFFFFFFF 11 :=
      ⟨.taggedWord, 4, [2, 0xFF, 0xFF, 0xFF, 0xFF], countLabel, [], .count,
        Bytes.at_iff_extract.2 (by decide), .countTaggedWord, rfl⟩
    exact ⟨instruction, hdecode, hparameters,
      hroom.cutOff_of_many _ _ hannounces (by decide), hroom⟩
  · have hview : (Scanner.variables.scan Template.hostileBytes).toOption.map
        Script.parameterCount = some 3 := by decide +kernel
    obtain ⟨script, hscan, hcount⟩ := exists_script hview
    exact ⟨script, hscan, hcount, hscript _ script hscan⟩

end PacScript
