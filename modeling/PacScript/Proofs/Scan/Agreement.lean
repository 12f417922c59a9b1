import PacScript.Proofs.Scan.Tiling
import PacScript.Proofs.Template.Registry

/-!
# What a scan asks of the registry and the policy

A scan asks the registry for a template, and the policy for its word, only of signatures that stand
at a marker of the buffer. Two scanners that answer alike for these (`Scanner.Agrees`) have the same
candidates, and so take the same course (`Course.of_agrees`). So templates whose signature does not
stand at a marker may be registered or left out: the scan does not see them.
-/

namespace PacScript

open Entity (gap)

/-- The signature stands at a marker of the buffer. -/
def Bytes.Marked (data : ByteArray) (signature : UInt32) : Prop :=
  ∃ position, data[position]? = some 0x25 ∧ signatureAt data position = .ok signature

/-- The signatures that stand at the markers of the buffer. -/
def Bytes.markedSignatures (data : ByteArray) : List UInt32 :=
  (List.range data.size).filterMap fun position =>
    if data[position]? = some 0x25 then (signatureAt data position).toOption else none

/-- The signatures at markers can be listed. -/
theorem Bytes.marked_iff_mem {data : ByteArray} {signature : UInt32} :
    Marked data signature ↔ signature ∈ markedSignatures data := by
  unfold Marked markedSignatures
  simp only [List.mem_filterMap, List.mem_range, Option.ite_none_right_eq_some]
  constructor
  · intro hexists
    obtain ⟨position, hmarker, hsignature⟩ := hexists
    refine ⟨position, lt_size_of_getElem? hmarker, hmarker, ?_⟩
    rw [hsignature]
    rfl
  · intro hexists
    obtain ⟨position, -, hmarker, hsignature⟩ := hexists
    refine ⟨position, hmarker, ?_⟩
    cases hread : signatureAt data position with
    | error truncation => simp [hread, Except.toOption] at hsignature
    | ok found =>
      rw [hread] at hsignature
      rw [Option.some.inj hsignature]

/-- The first byte of a signature is its most significant one. -/
theorem Bytes.getElem?_of_signatureAt {data : ByteArray} {position : Nat} {signature : UInt32}
    (h : signatureAt data position = .ok signature) :
    data[position]? = some (UInt8.ofNat (signature.toNat / 0x1000000)) := by
  obtain ⟨a, b, c, d, hat, rfl⟩ := signatureAt_eq_ok_iff.1 h
  have hfirst : (bigWord a b c d).toNat / 0x1000000 = a.toNat := by
    have ha := a.toNat_lt
    have hb := b.toNat_lt
    have hc := c.toNat_lt
    have hd := d.toNat_lt
    rw [bigWord, littleWord, UInt32.toNat_ofNat']
    omega
  rw [hfirst, UInt8.ofNat_toNat]
  exact hat.1

/-- A signature at a marker has the marker as its most significant byte. -/
theorem Bytes.Marked.div_eq {data : ByteArray} {signature : UInt32} (h : Marked data signature) :
    signature.toNat / 0x1000000 = 0x25 := by
  obtain ⟨position, hmarker, hsignature⟩ := h
  have hlt := signature.toNat_lt
  have hbyte := getElem?_of_signatureAt hsignature
  rw [hmarker, Option.some.injEq, ← UInt8.toNat_inj, UInt8.toNat_ofNat'] at hbyte
  rw [Nat.mod_eq_of_lt (by omega)] at hbyte
  exact hbyte.symm

namespace Scanner

/-- The scanners answer alike for every signature at a marker of the buffer, and otherwise have the
same options. -/
structure Agrees (scanner other : Scanner) (data : ByteArray) : Prop where
  /-- They look for the same indexed jump. -/
  indexedJump_eq : scanner.indexedJump = other.indexedJump
  /-- They both capture jump tables, or both do not. -/
  captureJumpTables_eq : scanner.captureJumpTables = other.captureJumpTables
  /-- They have the same template for a signature, or both have none. -/
  get?_eq {signature : UInt32} (h : Bytes.Marked data signature) :
    scanner.registry.get? signature = other.registry.get? signature
  /-- The policies accept the same signatures, each by its registry. -/
  accepts_iff {signature : UInt32} (h : Bytes.Marked data signature) :
    scanner.policy.accepts scanner.registry signature = true ↔
      other.policy.accepts other.registry signature = true

/-- The signature of a candidate stands at a marker. -/
theorem Candidate.marked {scanner : Scanner} {data : ByteArray} {position : Nat}
    {signature : UInt32} (h : scanner.Candidate data position signature) :
    Bytes.Marked data signature :=
  ⟨position, h.marker, h.signatureAt⟩

namespace Agrees

variable {scanner other : Scanner} {data : ByteArray}

/-- Agreement does not depend on which scanner comes first. -/
theorem symm (h : scanner.Agrees other data) : other.Agrees scanner data where
  indexedJump_eq := h.indexedJump_eq.symm
  captureJumpTables_eq := h.captureJumpTables_eq.symm
  get?_eq hmarked := (h.get?_eq hmarked).symm
  accepts_iff hmarked := (h.accepts_iff hmarked).symm

/-- A candidate of the one is a candidate of the other. -/
theorem candidate (h : scanner.Agrees other data) {position : Nat} {signature : UInt32}
    (hcandidate : scanner.Candidate data position signature) :
    other.Candidate data position signature :=
  ⟨hcandidate.marker, hcandidate.signatureAt,
    (h.accepts_iff hcandidate.marked).1 hcandidate.accepted⟩

/-- The search finds the same candidates. -/
theorem next?_eq (h : scanner.Agrees other data) (start : Nat) :
    scanner.next? data start = other.next? data start := by
  have hcandidates : scanner.isCandidate data = other.isCandidate data := by
    funext position
    rw [Bool.eq_iff_iff, isCandidate_iff, isCandidate_iff]
    constructor
    · intro hexists
      obtain ⟨signature, hcandidate⟩ := hexists
      exact ⟨signature, h.candidate hcandidate⟩
    · intro hexists
      obtain ⟨signature, hcandidate⟩ := hexists
      exact ⟨signature, h.symm.candidate hcandidate⟩
  rw [next?, hcandidates, next?]

/-- Scanners that agree capture the same jump tables. -/
theorem jumpTable_eq (h : scanner.Agrees other data) (signature : UInt32) (start : Nat) :
    scanner.jumpTable data signature start = other.jumpTable data signature start := by
  unfold jumpTable expectsJumpTable
  rw [h.captureJumpTables_eq, h.indexedJump_eq, h.next?_eq]

/-- The same things belong to an instruction. -/
theorem belongings_eq (h : scanner.Agrees other data) (instruction : Instruction) :
    scanner.belongings data instruction = other.belongings data instruction := by
  unfold belongings
  simp only [h.jumpTable_eq]

/-- An unknown instruction ends in the same place. -/
theorem unknownAt_eq (h : scanner.Agrees other data) (candidate : Nat) (signature : UInt32) :
    scanner.unknownAt data candidate signature = other.unknownAt data candidate signature := by
  unfold unknownAt
  rw [h.next?_eq]

end Agrees

end Scanner

/-- Scanners that agree on a buffer take the same course. -/
theorem Course.of_agrees {scanner other : Scanner} {data : ByteArray} {previous : Option Entity}
    {entities : List Entity} {outcome : Option Failure}
    (h : Course scanner data previous entities outcome) (hagrees : scanner.Agrees other data) :
    Course other data previous entities outcome := by
  -- A round asks for the next candidate and for the template of its signature, which is marked.
  induction h with
  | finished hnext =>
    rw [hagrees.next?_eq] at hnext
    exact .finished hnext
  | failed hnext hsignature htemplate hdecode =>
    have hmarked := (Scanner.candidate_of_next? hnext hsignature).marked
    rw [hagrees.next?_eq] at hnext
    rw [hagrees.get?_eq hmarked] at htemplate
    exact .failed hnext hsignature htemplate hdecode
  | known hnext hsignature htemplate hdecode hrest ih =>
    have hmarked := (Scanner.candidate_of_next? hnext hsignature).marked
    rw [hagrees.next?_eq] at hnext
    rw [hagrees.get?_eq hmarked] at htemplate
    rw [hagrees.belongings_eq] at ih ⊢
    exact .known hnext hsignature htemplate hdecode ih
  | unknown hnext hsignature htemplate hrest ih =>
    have hmarked := (Scanner.candidate_of_next? hnext hsignature).marked
    rw [hagrees.next?_eq] at hnext
    rw [hagrees.get?_eq hmarked] at htemplate
    rw [hagrees.unknownAt_eq] at ih ⊢
    exact .unknown hnext hsignature htemplate ih

namespace Scanner

variable {scanner : Scanner} {data : ByteArray}

/-- Scanners that agree on a buffer give the same result for it. -/
theorem Agrees.scan_eq {other : Scanner} (h : scanner.Agrees other data) :
    scanner.scan data = other.scan data := by
  obtain ⟨entities, outcome, hcourse⟩ := Scan.exists_course scanner data (.ofSize data.size)
  have hscan : scanner.scan data = _ := Scan.run_of_course hcourse rfl
  have hother : other.scan data = _ := Scan.run_of_course (hcourse.of_agrees h) rfl
  rw [hscan, hother]

/-! ## Other registries -/

/-- Another registry makes no difference if it has the same templates for the signatures at the
markers, since a policy asks the registry for no other signature than its own. -/
theorem agrees_of_registry {registry : Registry}
    (h : ∀ signature, Bytes.Marked data signature →
      scanner.registry.get? signature = registry.get? signature) :
    scanner.Agrees { scanner with registry } data := by
  refine ⟨rfl, rfl, fun hmarked => h _ hmarked, ?_⟩
  intro signature hmarked
  show scanner.policy.accepts scanner.registry signature = true ↔
    scanner.policy.accepts registry signature = true
  cases scanner.policy with
  | knownOnly =>
    simp only [MarkerPolicy.accepts, Registry.contains_eq_isSome_get?, h signature hmarked]
  | permissive | conservative | custom => rfl

/-- The most significant byte of the signature is not the marker, or the signature does not occur in
the buffer. -/
def Unseen (data : ByteArray) (signature : UInt32) : Prop :=
  signature.toNat / 0x1000000 ≠ 0x25 ∨ ∀ position, Bytes.signatureAt data position ≠ .ok signature

/-- Such a signature does not stand at a marker. -/
theorem Unseen.not_marked {signature : UInt32} (h : Unseen data signature) :
    ¬ Bytes.Marked data signature := by
  intro hmarked
  rcases h with htop | hnowhere
  · exact htop hmarked.div_eq
  · obtain ⟨position, -, hsignature⟩ := hmarked
    exact hnowhere position hsignature

/-- What a scan gives depends on the registry and the policy only through their answers for the
signatures that stand at a marker. So a registry with other templates for signatures that do not
begin with the marker, or do not occur in the buffer, gives the same, and such templates may be
added to the list that a registry is made of, or removed from it. -/
theorem scan_congr (scanner : Scanner) (data : ByteArray) :
    (∀ other, scanner.Agrees other data → scanner.scan data = other.scan data) ∧
      (∀ registry, (∀ signature, scanner.registry.get? signature ≠ registry.get? signature →
          Unseen data signature) →
        scanner.scan data = { scanner with registry }.scan data) ∧
      ∀ front extra back, (∀ template ∈ extra, Unseen data template.signature) →
        { scanner with registry := .ofList (front ++ back) }.scan data =
          { scanner with registry := .ofList (front ++ extra ++ back) }.scan data := by
  have hregistry : ∀ one other : Registry, (∀ signature,
      one.get? signature ≠ other.get? signature → Unseen data signature) →
        { scanner with registry := one }.scan data =
          { scanner with registry := other }.scan data := by
    intro one other hdiffer
    -- Registries that differ only in signatures that are not seen make scanners that agree.
    apply Agrees.scan_eq
    apply agrees_of_registry
    intro signature hmarked
    by_contra hne
    exact (hdiffer signature hne).not_marked hmarked
  refine ⟨fun other hagrees => hagrees.scan_eq, hregistry scanner.registry, ?_⟩
  intro front extra back hextra
  apply hregistry
  intro signature hne
  by_contra hseen
  apply hne
  apply Eq.symm
  apply Registry.get?_ofList_append_append
  intro template hmem heq
  exact hseen (heq ▸ hextra template hmem)

/-- A scan that takes known signatures for candidates gives the same as one that takes classes up to
eight and has another template, of a buffer where the signature of that template is not at a
marker and those at markers are a known one of class one and an unknown one of class nine. -/
theorem scan_congr_messages :
    let data : ByteArray := ⟨#[0x25, 1, 0, 0, 0x26, 1, 0, 0, 0x25, 9, 0, 0, 0x25, 1, 0, 0]⟩
    let stop : Template := { signature := 0x25010000, name := "cmd_end" }
    let jump : Template := { signature := 0x26010000, name := "cmd_jmp" }
    let scanner : Scanner := { registry := .ofList ([stop] ++ [Template.message]), policy := .knownOnly }
    let other : Scanner :=
      { registry := .ofList ([stop] ++ [jump] ++ [Template.message]), policy := .conservative 8 }
    scanner.Agrees other data ∧ scanner.scan data = other.scan data ∧ Unseen data jump.signature ∧
      scanner.scan data =
        { scanner with registry := .ofList ([stop] ++ [jump] ++ [Template.message]) }.scan data := by
  intro data stop jump scanner other
  have hmarked : ∀ signature ∈ Bytes.markedSignatures data,
      scanner.registry.get? signature = other.registry.get? signature ∧
        (scanner.policy.accepts scanner.registry signature = true ↔
          other.policy.accepts other.registry signature = true) := by
    have hsignatures : Bytes.markedSignatures data = [0x25010000, 0x25090000, 0x25010000] := by
      decide +kernel
    rw [hsignatures, List.forall_mem_cons, List.forall_mem_cons, List.forall_mem_singleton]
    decide +kernel
  have hagrees : scanner.Agrees other data :=
    ⟨rfl, rfl, fun h => (hmarked _ (Bytes.marked_iff_mem.1 h)).1,
      fun h => (hmarked _ (Bytes.marked_iff_mem.1 h)).2⟩
  have hunseen : Unseen data jump.signature := Or.inl (by decide)
  refine ⟨hagrees, (scan_congr scanner data).1 other hagrees, hunseen,
    (scan_congr scanner data).2.2 [stop] [jump] [.message] ?_⟩
  intro template hmem
  rw [List.mem_singleton.1 hmem]
  exact hunseen

end Scanner

end PacScript
