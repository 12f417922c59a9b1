import PacScript.Proofs.Bytes
import PacScript.Scan

/-!
# Candidates

A candidate is a position at which an instruction may start: the marker stands there, the four bytes
of the signature exist, and the policy accepts the signature. The search of a scan finds the least
candidate from a position on, and finds none exactly when there is none.
-/

namespace PacScript.Scanner

/-- An instruction with the given signature may start at the position. -/
structure Candidate (scanner : Scanner) (data : ByteArray) (position : Nat) (signature : UInt32) :
    Prop where
  /-- The marker stands at the position. -/
  marker : data[position]? = some 0x25
  /-- The signature is the word there, most significant byte first. -/
  signatureAt : Bytes.signatureAt data position = .ok signature
  /-- The policy accepts the signature. -/
  accepted : scanner.policy.accepts scanner.registry signature = true

/-- The signature of a candidate is in the buffer. -/
theorem Candidate.size {scanner : Scanner} {data : ByteArray} {position : Nat}
    {signature : UInt32} (h : scanner.Candidate data position signature) :
    position + 4 ≤ data.size :=
  Bytes.size_of_signatureAt h.signatureAt

/-- The test of the search is true of candidates only, and of all of them. -/
theorem isCandidate_iff {scanner : Scanner} {data : ByteArray} {position : Nat} :
    scanner.isCandidate data position = true ↔
      ∃ signature, scanner.Candidate data position signature := by
  unfold isCandidate
  rw [Bool.and_eq_true, beq_iff_eq]
  constructor
  · intro h
    obtain ⟨hmarker, hpolicy⟩ := h
    split at hpolicy
    · rename_i signature hsignature
      exact ⟨signature, hmarker, hsignature, hpolicy⟩
    · simp at hpolicy
  · intro h
    obtain ⟨signature, hmarker, hsignature, hpolicy⟩ := h
    rw [hsignature]
    exact ⟨hmarker, hpolicy⟩

/-- The search finds the least candidate from a position on. -/
theorem next?_eq_some_iff {scanner : Scanner} {data : ByteArray} {start found : Nat} :
    scanner.next? data start = some found ↔
      start ≤ found ∧ (∃ signature, scanner.Candidate data found signature) ∧
        ∀ position, start ≤ position → position < found →
          ¬ ∃ signature, scanner.Candidate data position signature := by
  unfold next?
  rw [Search.first_eq_some_iff, isCandidate_iff]
  constructor
  · intro h
    obtain ⟨hle, -, hfound, hbefore⟩ := h
    refine ⟨hle, hfound, ?_⟩
    intro position hposition hlt hcandidate
    have hnot := hbefore position hposition hlt
    rw [isCandidate_iff.2 hcandidate] at hnot
    simp at hnot
  · intro h
    -- A candidate has four bytes, and so it is before the end of the search.
    obtain ⟨hle, ⟨signature, hfound⟩, hbefore⟩ := h
    have hsize := hfound.size
    refine ⟨hle, by omega, ⟨signature, hfound⟩, ?_⟩
    intro position hposition hlt
    rw [← Bool.not_eq_true, isCandidate_iff]
    exact hbefore position hposition hlt

/-- The search finds nothing exactly when there is no candidate from the position on. -/
theorem next?_eq_none_iff {scanner : Scanner} {data : ByteArray} {start : Nat} :
    scanner.next? data start = none ↔
      ∀ position, start ≤ position → ¬ ∃ signature, scanner.Candidate data position signature := by
  unfold next?
  rw [Search.first_eq_none_iff]
  constructor
  · intro h position hposition hcandidate
    obtain ⟨signature, hcandidate⟩ := hcandidate
    have hsize := hcandidate.size
    have hnot := h position hposition (by omega)
    rw [isCandidate_iff.2 ⟨signature, hcandidate⟩] at hnot
    simp at hnot
  · intro h position hposition hlt
    rw [← Bool.not_eq_true, isCandidate_iff]
    exact h position hposition

/-- What the search finds has a signature. -/
theorem exists_candidate {scanner : Scanner} {data : ByteArray} {start found : Nat}
    (h : scanner.next? data start = some found) :
    ∃ signature, scanner.Candidate data found signature :=
  (next?_eq_some_iff.1 h).2.1

/-- What the search finds is a candidate with the signature that is read there. -/
theorem candidate_of_next? {scanner : Scanner} {data : ByteArray} {start found : Nat}
    {signature : UInt32} (h : scanner.next? data start = some found)
    (hsignature : Bytes.signatureAt data found = .ok signature) :
    scanner.Candidate data found signature := by
  obtain ⟨other, hcandidate⟩ := exists_candidate h
  have heq := hcandidate.signatureAt
  rw [hsignature] at heq
  rw [Except.ok.inj heq]
  exact hcandidate

/-- A search that starts at a candidate finds it. -/
theorem next?_of_candidate {scanner : Scanner} {data : ByteArray} {position : Nat}
    {signature : UInt32} (h : scanner.Candidate data position signature) :
    scanner.next? data position = some position := by
  rw [next?_eq_some_iff]
  refine ⟨Nat.le_refl _, ⟨signature, h⟩, ?_⟩
  intro other hle hlt
  omega

end PacScript.Scanner
