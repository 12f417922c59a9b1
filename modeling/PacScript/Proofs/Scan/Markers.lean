import PacScript.Proofs.Scan.Tiling

/-!
# A scan accounts for every candidate

A script shows every candidate of its buffer. Known and unknown instructions start at candidates,
and no candidate is in a gap or in a jump table: what is not the start of an instruction has been
taken by the instruction before it, or by the padding behind that one.

`Scanner.Accounts` says this of a single entity. It holds of all that a round of a scan records,
because the gap before a candidate and the jump table up to one hold no other
(`Scanner.accounts_extract`), and because an unknown instruction ends at the first candidate behind
its signature (`Scanner.accounts_unknownAt`).
-/

namespace PacScript

/-- The signature of an instruction, known or unknown. -/
def Content.signature? : Content → Option UInt32
  | .instruction template _ _ => some template.signature
  | .unknown signature => some signature
  | _ => none

/-- The signature of the instruction that the entity is. -/
def Entity.signature? (entity : Entity) : Option UInt32 :=
  entity.content.signature?

/-- A gap has no signature. -/
theorem Content.signature?_ofGap (raw : ByteArray) (preceding : Option Nat) :
    (Content.ofGap raw preceding).signature? = none := by
  unfold ofGap
  split
  · rfl
  · split
    · split <;> rfl
    · rfl

namespace Scanner

variable {scanner : Scanner} {data : ByteArray}

/-- No instruction may start from `start` on before `stop`. -/
def Bare (scanner : Scanner) (data : ByteArray) (start stop : Nat) : Prop :=
  ∀ position, start ≤ position → position < stop →
    ¬ ∃ signature, scanner.Candidate data position signature

/-- The first candidate at or behind `start` is at `stop`, or there is none and the buffer ends at
`stop`. -/
def Next (scanner : Scanner) (data : ByteArray) (start stop : Nat) : Prop :=
  (start ≤ stop ∧ (∃ signature, scanner.Candidate data stop signature) ∧
      scanner.Bare data start stop) ∨
    (stop = data.size ∧ ∀ position, start ≤ position →
      ¬ ∃ signature, scanner.Candidate data position signature)

/-- The search gives the first candidate, or the end of the buffer. -/
theorem next_getD (scanner : Scanner) (data : ByteArray) (start : Nat) :
    scanner.Next data start ((scanner.next? data start).getD data.size) := by
  cases hnext : scanner.next? data start with
  | none => exact Or.inr ⟨rfl, next?_eq_none_iff.1 hnext⟩
  | some stop => exact Or.inl (next?_eq_some_iff.1 hnext)

/-- There is no candidate in front of the first one. -/
theorem Next.bare {start stop : Nat} (h : scanner.Next data start stop) :
    scanner.Bare data start stop := by
  rcases h with ⟨-, -, hbare⟩ | ⟨-, hnone⟩
  · exact hbare
  · intro position hle hlt
    exact hnone position hle

/-- What an entity of a script has to do with the candidates of the buffer. -/
structure Accounts (scanner : Scanner) (data : ByteArray) (entity : Entity) : Prop where
  /-- An instruction, known or unknown, starts at a candidate with its signature. -/
  candidate {signature : UInt32} (h : entity.signature? = some signature) :
    scanner.Candidate data entity.offset signature
  /-- The signature is the word of the first four bytes, most significant byte first. -/
  signatureAt_raw {signature : UInt32} (h : entity.signature? = some signature) :
    Bytes.signatureAt entity.raw 0 = .ok signature
  /-- An instruction is known exactly when its signature has a template. -/
  known_iff {signature : UInt32} (h : entity.signature? = some signature) :
    entity.kind = .instruction ↔ ∃ template, scanner.registry.get? signature = some template
  /-- An instruction whose signature has a template is what the template decodes. -/
  decoded {signature : UInt32} {template : Template} (h : entity.signature? = some signature)
    (htemplate : scanner.registry.get? signature = some template) :
    ∃ instruction, Instruction.decode data entity.offset template = .ok instruction ∧
      entity = instruction.toEntity
  /-- An unknown instruction ends at the first candidate behind its signature, or at the end of the
  buffer. -/
  stop_unknown {signature : UInt32} (h : entity.content = .unknown signature) :
    scanner.Next data (entity.offset + 4) entity.stop
  /-- A candidate is in a known instruction, in the signature of an unknown one, or in padding. -/
  contains {position : Nat} {signature : UInt32} (h : scanner.Candidate data position signature)
    (hcontains : entity.contains position = true) :
    entity.kind = .instruction ∨ (entity.kind = .unknown ∧ position < entity.offset + 4) ∨
      entity.kind = .padding

/-- An entity that is no instruction has to hold no candidate, unless it is padding. -/
theorem Accounts.of_signature?_eq_none {entity : Entity} (h : entity.signature? = none)
    (hbare : entity.kind = .padding ∨ scanner.Bare data entity.offset entity.stop) :
    scanner.Accounts data entity := by
  -- Whatever is asked of an entity with a signature holds of one without.
  have hnever : ∀ {signature : UInt32}, entity.signature? ≠ some signature := by
    intro signature hsignature
    rw [h] at hsignature
    simp at hsignature
  constructor
  · intro signature hsignature
    exact absurd hsignature hnever
  · intro signature hsignature
    exact absurd hsignature hnever
  · intro signature hsignature
    exact absurd hsignature hnever
  · intro signature template hsignature
    exact absurd hsignature hnever
  · intro signature hcontent
    have hsignature : entity.signature? = some signature := by
      rw [Entity.signature?, hcontent, Content.signature?]
    exact absurd hsignature hnever
  · intro position signature hcandidate hcontains
    rcases hbare with hpadding | hbare
    · exact Or.inr (Or.inr hpadding)
    · rw [Entity.contains, Bool.and_eq_true, decide_eq_true_iff, decide_eq_true_iff] at hcontains
      exact absurd ⟨signature, hcandidate⟩ (hbare position hcontains.1 hcontains.2)

/-- The bytes between two positions account for the candidates when there are none. -/
theorem accounts_extract {start stop : Nat} {content : Content}
    (hcontent : content.signature? = none) (hbare : scanner.Bare data start stop) :
    scanner.Accounts data ⟨start, data.extract start stop, content⟩ := by
  apply Accounts.of_signature?_eq_none
  · exact hcontent
  · apply Or.inr
    intro position hle hlt
    apply hbare position hle
    rw [Entity.stop, Entity.size, ByteArray.size_extract] at hlt
    dsimp only at hlt hle
    omega

/-- The gap in front of the next candidate holds none. -/
theorem accounts_gap {previous : Option Entity} {stop : Nat}
    (hbare : scanner.Bare data (Entity.endOf previous) stop) :
    ∀ entity ∈ Entity.gap data previous stop, scanner.Accounts data entity := by
  intro entity hmem
  rw [Entity.eq_of_mem_between hmem]
  exact accounts_extract (Content.signature?_ofGap _ _) hbare

/-- The first four bytes of a range have the signature that stands where the range starts. -/
theorem Candidate.signatureAt_extract {position stop : Nat} {signature : UInt32}
    (h : scanner.Candidate data position signature) (hstop : position + 4 ≤ stop) :
    Bytes.signatureAt (data.extract position stop) 0 = .ok signature := by
  have hsize := h.size
  have hread := h.signatureAt
  have hraw : 0 + 4 ≤ (data.extract position stop).size := by
    rw [ByteArray.size_extract]
    omega
  unfold Bytes.signatureAt at hread ⊢
  rw [dif_pos hsize] at hread
  rw [dif_pos hraw, ← hread]
  simp only [ByteArray.getElem_extract, Nat.zero_add, Nat.add_zero]

/-- A known instruction accounts for the candidates. -/
theorem accounts_toEntity {candidate : Nat} {signature : UInt32} {template : Template}
    {instruction : Instruction} (hcandidate : scanner.Candidate data candidate signature)
    (htemplate : scanner.registry.get? signature = some template)
    (hdecode : Instruction.decode data candidate template = .ok instruction) :
    scanner.Accounts data instruction.toEntity := by
  have hsize := hcandidate.size
  have hoffset : instruction.toEntity.offset = candidate := Instruction.offset_of_decode hdecode
  have hlength : 4 ≤ instruction.toEntity.size :=
    Instruction.signatureSize_le_size_of_decode hdecode hsize
  have htiles := Instruction.tiles_of_decode hdecode hsize
  obtain ⟨-, -, -, hraw⟩ := htiles.of_mem List.mem_cons_self
  -- The template stands under its own signature, and so the instruction has that of the candidate.
  have hsignature : instruction.toEntity.signature? = some signature := by
    rw [← Registry.signature_of_get? htemplate, ← (Instruction.eq_of_decode hdecode).2.1]
    rfl
  constructor
  · intro found hfound
    rw [hsignature] at hfound
    rw [hoffset, ← Option.some.inj hfound]
    exact hcandidate
  · intro found hfound
    rw [hsignature] at hfound
    rw [hraw, hoffset, ← Option.some.inj hfound]
    apply hcandidate.signatureAt_extract
    rw [Entity.stop, hoffset]
    omega
  · intro found hfound
    rw [hsignature] at hfound
    rw [← Option.some.inj hfound]
    exact ⟨fun _ => ⟨template, htemplate⟩, fun _ => rfl⟩
  · intro found other hfound hother
    rw [hsignature] at hfound
    rw [← Option.some.inj hfound, htemplate] at hother
    rw [hoffset, ← Option.some.inj hother]
    exact ⟨instruction, hdecode, rfl⟩
  · intro found hcontent
    simp [Instruction.toEntity] at hcontent
  · intro position found hfound hcontains
    exact Or.inl rfl

/-- An unknown instruction accounts for the candidates, since it ends at the next one. -/
theorem accounts_unknownAt {candidate : Nat} {signature : UInt32}
    (hcandidate : scanner.Candidate data candidate signature)
    (htemplate : scanner.registry.get? signature = none) :
    scanner.Accounts data (scanner.unknownAt data candidate signature) := by
  have hsize := hcandidate.size
  obtain ⟨hstop, hle, hend⟩ := scanner.stop_unknownAt hsize signature
  obtain ⟨-, -, -, hraw⟩ := (scanner.tiles_unknownAt hsize signature).of_mem List.mem_cons_self
  have hoffset : (scanner.unknownAt data candidate signature).offset = candidate := rfl
  have hsignature : (scanner.unknownAt data candidate signature).signature? = some signature := rfl
  have hnext : scanner.Next data (candidate + 4)
      (scanner.unknownAt data candidate signature).stop := by
    rw [hstop]
    exact scanner.next_getD data (candidate + 4)
  constructor
  · intro found hfound
    rw [hsignature] at hfound
    rw [hoffset, ← Option.some.inj hfound]
    exact hcandidate
  · intro found hfound
    rw [hsignature] at hfound
    rw [hraw, hoffset, ← Option.some.inj hfound]
    exact hcandidate.signatureAt_extract hle
  · intro found hfound
    rw [hsignature] at hfound
    rw [← Option.some.inj hfound, htemplate]
    simp [Entity.kind, unknownAt, Content.kind]
  · intro found template hfound hother
    rw [hsignature] at hfound
    rw [← Option.some.inj hfound, htemplate] at hother
    simp at hother
  · intro found hcontent
    exact hnext
  · intro position found hfound hcontains
    rw [Entity.contains, Bool.and_eq_true, decide_eq_true_iff, decide_eq_true_iff] at hcontains
    refine Or.inr (Or.inl ⟨rfl, ?_⟩)
    rw [hoffset]
    -- Behind its signature an unknown instruction holds no candidate.
    rcases Nat.lt_or_ge position (candidate + 4) with hlt | hge
    · exact hlt
    · exact absurd ⟨found, hfound⟩ (hnext.bare position hge hcontains.2)

/-- What belongs to a known instruction accounts for the candidates. -/
theorem accounts_belongings (instruction : Instruction) :
    ∀ entity ∈ scanner.belongings data instruction, scanner.Accounts data entity := by
  intro entity hmem
  rcases of_mem_belongings hmem with hpadding | ⟨start, stop, hnext, heq⟩
  · apply Accounts.of_signature?_eq_none
    · rw [Entity.signature?, hpadding]
      rfl
    · rw [Entity.kind, hpadding]
      exact Or.inl rfl
  · rw [heq]
    exact accounts_extract rfl (next?_eq_some_iff.1 hnext).2.2

end Scanner

/-- Every entity that a scan records accounts for the candidates. -/
theorem Course.accounts {scanner : Scanner} {data : ByteArray} {previous : Option Entity}
    {entities : List Entity} {outcome : Option Failure}
    (h : Course scanner data previous entities outcome) :
    ∀ entity ∈ entities, scanner.Accounts data entity := by
  induction h with
  | finished hnext =>
    apply Scanner.accounts_gap
    intro position hle hlt
    exact Scanner.next?_eq_none_iff.1 hnext position hle
  | failed hnext => exact Scanner.accounts_gap (Scanner.next?_eq_some_iff.1 hnext).2.2
  | known hnext hsignature htemplate hdecode hrest ih =>
    have hcandidate := Scanner.candidate_of_next? hnext hsignature
    intro entity hmem
    rw [List.mem_append, List.mem_append, List.mem_cons] at hmem
    -- A round records a gap, the instruction, and what belongs to it.
    rcases hmem with (hgap | heq | hbelongs) | htail
    · exact Scanner.accounts_gap (Scanner.next?_eq_some_iff.1 hnext).2.2 entity hgap
    · rw [heq]
      exact Scanner.accounts_toEntity hcandidate htemplate hdecode
    · exact Scanner.accounts_belongings _ entity hbelongs
    · exact ih entity htail
  | unknown hnext hsignature htemplate hrest ih =>
    have hcandidate := Scanner.candidate_of_next? hnext hsignature
    intro entity hmem
    rw [List.mem_append, List.mem_append, List.mem_singleton] at hmem
    rcases hmem with (hgap | heq) | htail
    · exact Scanner.accounts_gap (Scanner.next?_eq_some_iff.1 hnext).2.2 entity hgap
    · rw [heq]
      exact Scanner.accounts_unknownAt hcandidate htemplate
    · exact ih entity htail

namespace Scanner

/-- A policy that accepts only signatures with a template lets no instruction be unknown. -/
theorem Accounts.kind_ne_unknown {scanner : Scanner} {data : ByteArray} {entity : Entity}
    (h : scanner.Accounts data entity) (hpolicy : scanner.policy = .knownOnly) :
    entity.kind ≠ .unknown := by
  intro hkind
  -- An unknown instruction has a signature, and its candidate was accepted for having a template.
  have hsignature : ∃ signature, entity.signature? = some signature := by
    obtain ⟨offset, raw, content⟩ := entity
    cases content <;> simp [Entity.kind, Content.kind] at hkind
    exact ⟨_, rfl⟩
  obtain ⟨signature, hsignature⟩ := hsignature
  have haccepted := (h.candidate hsignature).accepted
  rw [hpolicy, MarkerPolicy.accepts, Registry.contains, Std.TreeMap.contains_eq_isSome_getElem?,
    Option.isSome_iff_exists] at haccepted
  have hinstruction := (h.known_iff hsignature).2 haccepted
  rw [hkind] at hinstruction
  simp at hinstruction

/-- Every entity of a script accounts for the candidates, and every candidate is in an entity: in a
known instruction, in the signature of an unknown one, or in padding. The policy that accepts only
signatures with a template yields no unknown instruction. -/
theorem scan_accounts {scanner : Scanner} {data : ByteArray} {script : Script}
    (h : scanner.scan data = .ok script) :
    (∀ entity ∈ script.entities, scanner.Accounts data entity) ∧
      (∀ position signature, scanner.Candidate data position signature →
        ∃ entity ∈ script.entities, entity.contains position = true ∧
          (entity.kind = .instruction ∨
            (entity.kind = .unknown ∧ position < entity.offset + 4) ∨ entity.kind = .padding)) ∧
      (scanner.policy = .knownOnly → ∀ entity ∈ script.entities, entity.kind ≠ .unknown) := by
  obtain ⟨entities, hcourse, rfl⟩ := scan_eq_ok_iff.1 h
  have hmem : ∀ entity, entity ∈ ((Script.ofSize data.size).pushAll entities).entities ↔
      entity ∈ entities := by
    intro entity
    rw [← Array.mem_toList_iff, Script.entities_pushAll]
    rfl
  have haccounts := hcourse.accounts
  refine ⟨?_, ?_, ?_⟩
  · intro entity hentity
    exact haccounts entity ((hmem entity).1 hentity)
  · intro position signature hcandidate
    have hsize := hcandidate.size
    obtain ⟨entity, hentity, hcontains⟩ :=
      hcourse.tiles.exists_contains (Nat.zero_le position) (by omega)
    exact ⟨entity, (hmem entity).2 hentity, hcontains,
      (haccounts entity hentity).contains hcandidate hcontains⟩
  · intro hpolicy entity hentity
    exact (haccounts entity ((hmem entity).1 hentity)).kind_ne_unknown hpolicy

/-- An unknown instruction, a known one and the padding behind it account for the candidates of
their buffer, of which the second is in the unknown instruction and the last in the padding. -/
theorem scan_accounts_messages :
    ∃ script, Scanner.messages.scan
        ⟨#[0x25, 9, 0x25, 1, 0, 0, 0x25, 7, 0, 0x12, 0x20, 1, 0, 0, 0, 0x25, 1, 0, 0]⟩ =
          .ok script ∧
      script.entities.toList.map Entity.kind = [.unknown, .instruction, .padding, .rawSpan] ∧
      (∀ entity ∈ script.entities, Scanner.messages.Accounts
        ⟨#[0x25, 9, 0x25, 1, 0, 0, 0x25, 7, 0, 0x12, 0x20, 1, 0, 0, 0, 0x25, 1, 0, 0]⟩ entity) := by
  have hkinds : (Scanner.messages.scan
      ⟨#[0x25, 9, 0x25, 1, 0, 0, 0x25, 7, 0, 0x12, 0x20, 1, 0, 0, 0, 0x25, 1, 0, 0]⟩).toOption.map
        (fun script => script.entities.toList.map Entity.kind) =
          some [.unknown, .instruction, .padding, .rawSpan] := by decide +kernel
  obtain ⟨script, hscan, hlist⟩ := Scanner.exists_script hkinds
  exact ⟨script, hscan, hlist, (Scanner.scan_accounts hscan).1⟩

end Scanner

end PacScript
