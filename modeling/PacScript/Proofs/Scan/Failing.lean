import PacScript.Proofs.Instruction.Names
import PacScript.Proofs.Scan.Markers
import PacScript.Proofs.Template.Registry

/-!
# When a scan fails

A scan that comes to a candidate finds its signature in the buffer, so that no read of it can fail
there. It is only the parameters of a known instruction that may be no set, when two of them have
the same label and name, and then the scan fails with the first such key (`Course.exists_repeated`).
Where the declared names differ and have no brackets no key can come twice, whatever the buffer
holds, and every scan comes to its end (`Scanner.exists_script_of_wellNamed`).
-/

namespace PacScript

open ParameterSet (FirstRepeated)

/-- The keys of the parameters that a walk over the arguments finds. -/
def Template.walkKeys (template : Template) (data : ByteArray) (offset : Nat) :
    List (String × String) :=
  (template.walk data offset).parameters.toList.map Parameter.key

/-- An instruction is not decoded when a key repeats, and the failure has the first one that
does. -/
theorem Instruction.decode_eq_error_iff {data : ByteArray} {offset : Nat} {template : Template}
    {failure : Failure} :
    decode data offset template = .error failure ↔
      ∃ label name, failure = .duplicateKey offset label name ∧
        FirstRepeated (template.walkKeys data offset) (label, name) := by
  rw [Template.walkKeys, ← ParameterSet.ofList_eq_error_iff]
  unfold decode
  dsimp only
  cases hset : ParameterSet.ofList (template.walk data offset).parameters.toList offset with
  | error other => simp
  | ok parameters => simp

/-- The parameters of an instruction are those that the walk over its arguments finds, and so these
have different keys. -/
theorem Instruction.nodup_walkKeys {data : ByteArray} {offset : Nat} {template : Template}
    {instruction : Instruction} (h : decode data offset template = .ok instruction) :
    instruction.parameters.ordered.map Parameter.key = template.walkKeys data offset ∧
      (template.walkKeys data offset).Nodup := by
  obtain ⟨-, -, -, -, hset⟩ := eq_of_decode h
  have hkeys : instruction.parameters.ordered.map Parameter.key = template.walkKeys data offset :=
    congrArg (List.map Parameter.key) (ParameterSet.ordered_of_ofList hset)
  exact ⟨hkeys, hkeys ▸ instruction.parameters.nodup_keys⟩

/-- A scan fails at a candidate with a known signature, because of a key that repeats there. -/
theorem Course.exists_repeated {scanner : Scanner} {data : ByteArray} {previous : Option Entity}
    {entities : List Entity} {failure : Failure}
    (h : Course scanner data previous entities (some failure)) :
    ∃ offset signature template, scanner.Candidate data offset signature ∧
      scanner.registry.get? signature = some template ∧
      Instruction.decode data offset template = .error failure := by
  generalize houtcome : some failure = outcome at h
  -- The rounds in front of the failure do not matter.
  induction h with
  | finished => simp at houtcome
  | failed hnext hsignature htemplate hdecode =>
    obtain rfl := Option.some.inj houtcome
    exact ⟨_, _, _, Scanner.candidate_of_next? hnext hsignature, htemplate, hdecode⟩
  | known hnext hsignature htemplate hdecode hrest ih => exact ih houtcome
  | unknown hnext hsignature htemplate hrest ih => exact ih houtcome

namespace Scanner

/-- A known instruction of a script is what the template of its signature decodes there. -/
theorem Accounts.exists_decode {scanner : Scanner} {data : ByteArray} {entity : Entity}
    {instruction : Instruction} (h : scanner.Accounts data entity)
    (hinstruction : entity.instruction? = some instruction) :
    ∃ signature template, scanner.Candidate data instruction.offset signature ∧
      scanner.registry.get? signature = some template ∧
      Instruction.decode data instruction.offset template = .ok instruction := by
  obtain ⟨offset, raw, content⟩ := entity
  cases content <;> simp [Entity.instruction?] at hinstruction
  rename_i template cutOff parameters
  subst hinstruction
  have hcandidate := h.candidate rfl
  obtain ⟨found, hfound⟩ := (h.known_iff rfl).1 rfl
  obtain ⟨decoded, hdecode, heq⟩ := h.decoded rfl hfound
  -- The entity is made of one instruction only.
  have hsame := congrArg Entity.instruction? heq
  rw [Entity.instruction?_toEntity] at hsame
  obtain rfl := Option.some.inj hsame
  exact ⟨_, found, hcandidate, hfound, hdecode⟩

/-- The known instructions of a script have been decoded at candidates. -/
theorem exists_decode_of_scan {scanner : Scanner} {data : ByteArray} {script : Script}
    (hscan : scanner.scan data = .ok script) {entity : Entity}
    (hmem : entity ∈ script.entities.toList) {instruction : Instruction}
    (hinstruction : entity.instruction? = some instruction) :
    ∃ signature template, scanner.Candidate data instruction.offset signature ∧
      scanner.registry.get? signature = some template ∧
      Instruction.decode data instruction.offset template = .ok instruction := by
  obtain ⟨entities, hcourse, rfl⟩ := scan_eq_ok_iff.1 hscan
  rw [Script.toList_ofSize_pushAll] at hmem
  exact (hcourse.accounts entity hmem).exists_decode hinstruction

/-- A scan fails only because of a key that repeats, in the parameters that the walk over the
arguments of a known instruction finds at a candidate, and the failure has the first such key. Else
it gives a script, in each of whose instructions the keys that the walk has found are different. -/
theorem scan_repeats_or_nodup (scanner : Scanner) (data : ByteArray) :
    (∃ offset label name signature template,
      scanner.scan data = .error (.duplicateKey offset label name) ∧
        scanner.Candidate data offset signature ∧
        scanner.registry.get? signature = some template ∧
        FirstRepeated (template.walkKeys data offset) (label, name)) ∨
      ∃ script, scanner.scan data = .ok script ∧
        ∀ instruction ∈ script.instructions, ∃ signature template,
          scanner.Candidate data instruction.offset signature ∧
          scanner.registry.get? signature = some template ∧
          instruction.parameters.ordered.map Parameter.key =
            template.walkKeys data instruction.offset ∧
          (instruction.parameters.ordered.map Parameter.key).Nodup := by
  obtain ⟨entities, outcome, hcourse⟩ := Scan.exists_course scanner data (.ofSize data.size)
  have hscan : scanner.scan data = _ := Scan.run_of_course hcourse rfl
  cases outcome with
  | some failure =>
    obtain ⟨offset, signature, template, hcandidate, htemplate, hdecode⟩ := hcourse.exists_repeated
    obtain ⟨label, name, rfl, hfirst⟩ := Instruction.decode_eq_error_iff.1 hdecode
    exact Or.inl ⟨offset, label, name, signature, template, hscan, hcandidate, htemplate, hfirst⟩
  | none =>
    refine Or.inr ⟨_, hscan, ?_⟩
    intro instruction hmem
    rw [Script.instructions, Script.toList_ofSize_pushAll, List.mem_filterMap] at hmem
    obtain ⟨entity, hentity, hinstruction⟩ := hmem
    obtain ⟨signature, template, hcandidate, htemplate, hdecode⟩ :=
      (hcourse.accounts entity hentity).exists_decode hinstruction
    obtain ⟨hkeys, hnodup⟩ := Instruction.nodup_walkKeys hdecode
    exact ⟨signature, template, hcandidate, htemplate, hkeys, hkeys ▸ hnodup⟩

end Scanner

/-- A list, with a parameter behind it that is named like the second element of the list. -/
def Template.list : Template where
  signature := 0x25020000
  name := "cmd_list"
  parameters := [⟨.counted .byte (.fixed .integer), "a"⟩, ⟨.fixed .integer, "a[1]"⟩]

/-- A scanner that knows lists, and an end without parameters. -/
def Scanner.lists : Scanner where
  registry := .ofList [{ signature := 0x25010000, name := "cmd_end" }, .list]

/-- A list of two elements behind an end and a list of one element makes a scan fail. -/
theorem Scanner.scan_repeats_lists :
    let data : ByteArray := ⟨#[0x25, 1, 0, 0, 0x25, 2, 0, 0, 1, 1, 0, 0, 0, 2, 0, 0, 0,
      0x25, 2, 0, 0, 2, 1, 0, 0, 0, 2, 0, 0, 0, 3, 0, 0, 0]⟩
    Scanner.lists.scan data = .error (.duplicateKey 17 "uint32" "a[1]") ∧
      ∃ signature template, Scanner.lists.Candidate data 17 signature ∧
        Scanner.lists.registry.get? signature = some template ∧
        FirstRepeated (template.walkKeys data 17) ("uint32", "a[1]") := by
  intro data
  have hfailure : (Scanner.lists.scan data).map (fun _ => ()) =
      .error (.duplicateKey 17 "uint32" "a[1]") := by
    decide +kernel
  rcases Scanner.lists.scan_repeats_or_nodup data with
    ⟨offset, label, name, signature, template, hscan, hcandidate, htemplate, hfirst⟩ |
      ⟨script, hscan, -⟩
  · rw [hscan] at hfailure
    obtain ⟨rfl, rfl, rfl⟩ := Failure.duplicateKey.inj (Except.error.inj hfailure)
    exact ⟨hscan, signature, template, hcandidate, htemplate, hfirst⟩
  · rw [hscan] at hfailure
    cases hfailure

/-- A scan comes to its end, whatever the buffer holds, if the parameters of each template have
different names without brackets. -/
theorem Scanner.exists_script_of_wellNamed {scanner : Scanner}
    (h : ∀ template ∈ scanner.registry.toList, template.IsWellNamed) (data : ByteArray) :
    ∃ script, scanner.scan data = .ok script := by
  obtain ⟨entities, outcome, hcourse⟩ := Scan.exists_course scanner data (.ofSize data.size)
  have hscan : scanner.scan data = _ := Scan.run_of_course hcourse rfl
  cases outcome with
  | none => exact ⟨_, hscan⟩
  | some failure =>
    -- The template at which the scan would fail is one of the registry, and decodes everything.
    obtain ⟨offset, signature, template, -, htemplate, hdecode⟩ := hcourse.exists_repeated
    have hsignature := Registry.signature_of_get? htemplate
    have hmem : template ∈ scanner.registry.toList := by
      rw [Registry.mem_toList_iff, hsignature]
      exact htemplate
    obtain ⟨instruction, hdecode'⟩ := (h template hmem).exists_decode data offset
    rw [hdecode] at hdecode'
    simp at hdecode'

/-- A scanner of texts, lists and continuous parameters comes to the end of a buffer in which a list
declares more elements than there are bytes, under tags that are not known. -/
theorem Scanner.exists_script_hostile :
    let list : Template :=
      { signature := 0x25020000
        name := "cmd_list"
        parameters := [⟨.counted .taggedWord (.tagged .half), "a"⟩, ⟨.continuous, "b"⟩] }
    let scanner : Scanner := { registry := .ofList [.message, list], indexedJump := some 0x25020000 }
    (∀ template ∈ scanner.registry.toList, template.IsWellNamed) ∧
      ∃ script, scanner.scan ⟨#[0x25, 2, 0, 0, 9, 0xFF, 0xFF, 0xFF, 0xFF, 0x33, 1, 2, 3,
        0x33, 1, 2, 3, 0x25, 7, 0, 0x12]⟩ = .ok script := by
  intro list scanner
  have hnamed : ∀ template ∈ scanner.registry.toList, template.IsWellNamed := by
    decide +kernel
  exact ⟨hnamed, Scanner.exists_script_of_wellNamed hnamed _⟩

end PacScript
