import PacScript.Proofs.Scan.Markers

/-!
# Where a scan begins anew

At a candidate a scan remembers nothing of what it has recorded: there is no gap left to close, and
the instruction there is decoded from its position on. So the course of a scan from a candidate on
is the same behind any other entity, once the gap behind that one is closed (`Course.anew`), and
from an instruction on it is the same behind any other entity that ends there (`Course.restart`).
-/

namespace PacScript

open Entity (gap endOf)

/-- An element of two lists in a row is in one of them. -/
theorem split_of_append_eq {α : Type} {first others front back : List α} {element : α}
    (h : first ++ others = front ++ element :: back) :
    (∃ behind, front = first ++ behind ∧ others = behind ++ element :: back) ∨
      ∃ later, first = front ++ element :: later ∧ back = later ++ others := by
  rw [List.append_eq_append_iff] at h
  rcases h with ⟨behind, hfront, hothers⟩ | ⟨rest, hfirst, hback⟩
  · exact Or.inl ⟨behind, hfront, hothers⟩
  · cases rest with
    | nil =>
      rw [List.append_nil] at hfirst
      rw [List.nil_append] at hback
      exact Or.inl ⟨[], by rw [hfirst, List.append_nil], by rw [List.nil_append, hback]⟩
    | cons head rest =>
      rw [List.cons_append, List.cons.injEq] at hback
      obtain ⟨rfl, hback⟩ := hback
      exact Or.inr ⟨rest, hfirst, hback⟩

/-- An element that is not among the first ones is among the others. -/
theorem exists_of_append_eq {α : Type} {first others front back : List α} {element : α}
    (hnotin : element ∉ first) (h : first ++ others = front ++ element :: back) :
    ∃ behind, front = first ++ behind ∧ others = behind ++ element :: back := by
  rcases split_of_append_eq h with hothers | ⟨later, rfl, -⟩
  · exact hothers
  · simp at hnotin

/-! ## Entities that are no instructions -/

/-- What fills a gap has no signature. -/
theorem Entity.signature?_of_mem_gap {data : ByteArray} {previous : Option Entity} {stop : Nat} :
    ∀ entity ∈ gap data previous stop, entity.signature? = none := by
  intro entity hmem
  rw [eq_of_mem_between hmem]
  exact Content.signature?_ofGap _ _

/-- What belongs to an instruction has no signature of its own. -/
theorem Scanner.signature?_of_mem_belongings {scanner : Scanner} {data : ByteArray}
    {instruction : Instruction} :
    ∀ entity ∈ scanner.belongings data instruction, entity.signature? = none := by
  intro entity hmem
  rcases of_mem_belongings hmem with hpadding | ⟨start, stop, hnext, heq⟩
  · rw [Entity.signature?, hpadding]
    rfl
  · rw [heq]
    rfl

/-- The instructions, known or unknown, are what has a signature. -/
theorem Entity.signature?_ne_none_iff {entity : Entity} :
    entity.signature? ≠ none ↔ entity.kind = .instruction ∨ entity.kind = .unknown := by
  obtain ⟨offset, raw, content⟩ := entity
  cases content <;> simp [signature?, Content.signature?, kind, Content.kind]

/-- No instruction, known or unknown, is a gap. -/
theorem Entity.gap_ne_append {data : ByteArray} {previous : Option Entity} {stop : Nat}
    {entity : Entity} (hsignature : entity.signature? ≠ none) (front back : List Entity) :
    gap data previous stop ≠ front ++ entity :: back := by
  intro hsplit
  have hmem : entity ∈ gap data previous stop := by
    rw [hsplit]
    exact List.mem_append_right front List.mem_cons_self
  exact hsignature (signature?_of_mem_gap entity hmem)

/-- An instruction, known or unknown, that a scan records from a round on is what the round takes at
its candidate, or else it is recorded by the rounds behind. Nothing else of a round has a
signature. -/
theorem Entity.of_round_eq {data : ByteArray} {previous : Option Entity} {candidate : Nat}
    {head entity : Entity} {others rest front back : List Entity}
    (hsignature : entity.signature? ≠ none) (hothers : ∀ other ∈ others, other.signature? = none)
    (h : gap data previous candidate ++ (head :: others) ++ rest = front ++ entity :: back) :
    (front = gap data previous candidate ∧ entity = head ∧ back = others ++ rest) ∨
      ∃ later, front = gap data previous candidate ++ (head :: others) ++ later ∧
        rest = later ++ entity :: back := by
  have hgap : entity ∉ gap data previous candidate :=
    fun hmem => hsignature (signature?_of_mem_gap entity hmem)
  rw [List.append_assoc] at h
  obtain ⟨behind, rfl, hbehind⟩ := exists_of_append_eq hgap h
  rw [List.cons_append] at hbehind
  cases behind with
  | nil =>
    rw [List.nil_append, List.cons.injEq] at hbehind
    exact Or.inl ⟨List.append_nil _, hbehind.1.symm, hbehind.2.symm⟩
  | cons next behind =>
    rw [List.cons_append, List.cons.injEq] at hbehind
    obtain ⟨rfl, hbehind⟩ := hbehind
    obtain ⟨later, rfl, hrest⟩ :=
      exists_of_append_eq (fun hmem => hsignature (hothers entity hmem)) hbehind
    refine Or.inr ⟨later, ?_, hrest⟩
    rw [List.append_assoc, List.cons_append]

/-! ## The course from a candidate on -/

/-- A scan that has come to a candidate goes on in the same way behind any other entity from which
the candidate is the next one, once the gap behind that entity is closed. -/
theorem Course.anew {scanner : Scanner} {data : ByteArray} {previous other : Option Entity}
    {entities : List Entity} {outcome : Option Failure}
    (h : Course scanner data previous entities outcome)
    (hother : scanner.next? data (endOf other) = some (endOf previous)) :
    Course scanner data other (gap data other (endOf previous) ++ entities) outcome := by
  obtain ⟨signature, hcandidate⟩ := Scanner.exists_candidate hother
  have hhere := Scanner.next?_of_candidate hcandidate
  cases h with
  | finished hnext =>
    rw [hhere] at hnext
    simp at hnext
  | failed hnext hsignature htemplate hdecode =>
    obtain rfl := Option.some.inj (hhere.symm.trans hnext)
    rw [Entity.gap_endOf, List.append_nil]
    exact .failed hother hsignature htemplate hdecode
  | known hnext hsignature htemplate hdecode hrest =>
    obtain rfl := Option.some.inj (hhere.symm.trans hnext)
    rw [Entity.gap_endOf, List.nil_append, ← List.append_assoc]
    exact .known hother hsignature htemplate hdecode hrest
  | unknown hnext hsignature htemplate hrest =>
    obtain rfl := Option.some.inj (hhere.symm.trans hnext)
    rw [Entity.gap_endOf, List.nil_append, ← List.append_assoc]
    exact .unknown hother hsignature htemplate hrest

/-- From an instruction on, known or unknown, a scan takes the same course behind any entity that
ends where the instruction starts. -/
theorem Course.restart {scanner : Scanner} {data : ByteArray} {previous before : Option Entity}
    {entities front back : List Entity} {entity : Entity} {outcome : Option Failure}
    (h : Course scanner data previous entities outcome)
    (hsplit : entities = front ++ entity :: back) (hsignature : entity.signature? ≠ none)
    (hbefore : endOf before = entity.offset) :
    Course scanner data before (entity :: back) outcome := by
  -- A gap has no signature, so the instruction is what some round takes behind its gap. That round
  -- begins anew behind the other entity.
  induction h generalizing front with
  | finished => exact absurd hsplit (Entity.gap_ne_append hsignature front back)
  | failed => exact absurd hsplit (Entity.gap_ne_append hsignature front back)
  | @known previous candidate signature template instruction rest outcome hnext hfound htemplate
      hdecode hrest ih =>
    rcases Entity.of_round_eq hsignature Scanner.signature?_of_mem_belongings hsplit with
      ⟨-, rfl, rfl⟩ | ⟨later, -, hlater⟩
    · have hoffset : endOf before = candidate :=
        hbefore.trans (Instruction.offset_of_decode hdecode)
      have hhere : scanner.next? data (endOf before) = some candidate := by
        rw [hoffset]
        exact Scanner.next?_of_candidate (Scanner.candidate_of_next? hnext hfound)
      have hround := Course.known hhere hfound htemplate hdecode hrest
      rw [← hoffset, Entity.gap_endOf, List.nil_append, List.cons_append] at hround
      exact hround
    · exact ih hlater
  | @unknown previous candidate signature rest outcome hnext hfound htemplate hrest ih =>
    rcases Entity.of_round_eq hsignature (List.forall_mem_nil _) hsplit with
      ⟨-, rfl, rfl⟩ | ⟨later, -, hlater⟩
    · have hoffset : endOf before = candidate := hbefore
      have hhere : scanner.next? data (endOf before) = some candidate := by
        rw [hoffset]
        exact Scanner.next?_of_candidate (Scanner.candidate_of_next? hnext hfound)
      have hround := Course.unknown hhere hfound htemplate hrest
      rw [← hoffset, Entity.gap_endOf, List.nil_append, List.singleton_append, hoffset] at hround
      exact hround
    · exact ih hlater

section

variable {scanner : Scanner} {data : ByteArray} {previous : Option Entity}

/-- The round at a candidate with a known signature takes the instruction there. -/
theorem Course.exists_known {entities : List Entity}
    (h : Course scanner data previous entities none) {candidate : Nat} {signature : UInt32}
    {template : Template} (hnext : scanner.next? data (endOf previous) = some candidate)
    (hsignature : Bytes.signatureAt data candidate = .ok signature)
    (htemplate : scanner.registry.get? signature = some template) :
    ∃ instruction rest, Instruction.decode data candidate template = .ok instruction ∧
      Course scanner data
        (instruction.toEntity :: scanner.belongings data instruction).getLast? rest none ∧
      entities = gap data previous candidate ++
        (instruction.toEntity :: scanner.belongings data instruction) ++ rest := by
  cases h with
  | finished hnext' =>
    rw [hnext] at hnext'
    simp at hnext'
  | known hnext' hsignature' htemplate' hdecode hrest =>
    obtain rfl := Option.some.inj (hnext.symm.trans hnext')
    obtain rfl := Except.ok.inj (hsignature.symm.trans hsignature')
    obtain rfl := Option.some.inj (htemplate.symm.trans htemplate')
    exact ⟨_, _, hdecode, hrest, rfl⟩
  | unknown hnext' hsignature' htemplate' hrest =>
    obtain rfl := Option.some.inj (hnext.symm.trans hnext')
    obtain rfl := Except.ok.inj (hsignature.symm.trans hsignature')
    rw [htemplate] at htemplate'
    simp at htemplate'

/-- The round at a candidate with an unknown signature takes the unknown instruction there. -/
theorem Course.exists_unknown {entities : List Entity}
    (h : Course scanner data previous entities none) {candidate : Nat} {signature : UInt32}
    (hnext : scanner.next? data (endOf previous) = some candidate)
    (hsignature : Bytes.signatureAt data candidate = .ok signature)
    (htemplate : scanner.registry.get? signature = none) :
    ∃ rest, Course scanner data (some (scanner.unknownAt data candidate signature)) rest none ∧
      entities = gap data previous candidate ++ [scanner.unknownAt data candidate signature] ++
        rest := by
  cases h with
  | finished hnext' =>
    rw [hnext] at hnext'
    simp at hnext'
  | known hnext' hsignature' htemplate' hdecode hrest =>
    obtain rfl := Option.some.inj (hnext.symm.trans hnext')
    obtain rfl := Except.ok.inj (hsignature.symm.trans hsignature')
    rw [htemplate] at htemplate'
    simp at htemplate'
  | unknown hnext' hsignature' htemplate' hrest =>
    obtain rfl := Option.some.inj (hnext.symm.trans hnext')
    obtain rfl := Except.ok.inj (hsignature.symm.trans hsignature')
    exact ⟨_, hrest, rfl⟩

/-- The course of a scan that is at a candidate goes on with the instruction there. -/
theorem Course.exists_head {entities : List Entity}
    (h : Course scanner data previous entities none) {signature : UInt32}
    (hcandidate : scanner.Candidate data (endOf previous) signature) :
    ∃ entity rest, entities = entity :: rest ∧ entity.offset = endOf previous ∧
      entity.signature? = some signature := by
  have hhere := Scanner.next?_of_candidate hcandidate
  have hgap := Entity.gap_endOf data previous
  cases htemplate : scanner.registry.get? signature with
  | none =>
    obtain ⟨rest, -, rfl⟩ := h.exists_unknown hhere hcandidate.signatureAt htemplate
    rw [hgap, List.nil_append, List.singleton_append]
    exact ⟨_, _, rfl, rfl, rfl⟩
  | some template =>
    obtain ⟨instruction, rest, hdecode, -, rfl⟩ :=
      h.exists_known hhere hcandidate.signatureAt htemplate
    rw [hgap, List.nil_append, List.cons_append]
    refine ⟨_, _, rfl, Instruction.offset_of_decode hdecode, ?_⟩
    rw [← Registry.signature_of_get? htemplate, ← (Instruction.eq_of_decode hdecode).2.1]
    rfl

/-- A scan that still records an instruction, known or unknown, comes to another candidate. -/
theorem Course.exists_next? {front back : List Entity} {entity : Entity}
    {outcome : Option Failure}
    (h : Course scanner data previous (front ++ entity :: back) outcome)
    (hsignature : entity.signature? ≠ none) :
    ∃ candidate, scanner.next? data (endOf previous) = some candidate := by
  cases hnext : scanner.next? data (endOf previous) with
  | some candidate => exact ⟨candidate, rfl⟩
  | none =>
    generalize hsplit : front ++ entity :: back = entities at h
    cases h with
    | finished => exact absurd hsplit.symm (Entity.gap_ne_append hsignature front back)
    | failed hsome => simp [hsome] at hnext
    | known hsome => simp [hsome] at hnext
    | unknown hsome => simp [hsome] at hnext

end

end PacScript
