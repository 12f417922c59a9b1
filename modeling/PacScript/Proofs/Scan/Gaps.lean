import PacScript.Proofs.Bytes.Tables
import PacScript.Proofs.Scan.Tiling

/-!
# The gaps of a script

A gap is what no instruction takes and nothing but its bytes tells what it is: a raw span, a message
table, or the arguments that the instruction in front left out. A scan closes a gap only where it
has found a candidate or come to the end of the buffer, and in front of the gap there is always
something that did not go on up to there by itself. So gaps are maximal: nothing that is a gap, and
nothing that ends at a candidate, stands beside one.

`Entity.Follows` says what may stand behind an entity, and `Entity.Linked` that it is so throughout
a list. A scan links its entities as long as the one that it goes on behind is `Settled`
(`Course.linked`). The theorem on gaps reads off this, and adds what the tests for tables mean
(`Scanner.scan_classifies`).
-/

namespace PacScript

open Entity (gap endOf)

/-- True for the kinds of gaps. -/
def EntityKind.isGap : EntityKind → Bool
  | rawSpan | messageTable | leftOut => true
  | instruction | unknown | padding | jumpTable => false

/-- What is made of a gap is of one of their kinds. -/
theorem Content.isGap_ofGap (raw : ByteArray) (preceding : Option Nat) :
    (ofGap raw preceding).kind.isGap = true := by
  unfold ofGap
  cases preceding with
  | none => split <;> rfl
  | some offset =>
    dsimp only
    split
    · rfl
    · split <;> rfl

namespace Entity

/-- What is recorded in front of a candidate is a gap. -/
theorem isGap_of_mem_gap {data : ByteArray} {previous : Option Entity} {stop : Nat}
    {entity : Entity} (h : entity ∈ gap data previous stop) : entity.kind.isGap = true := by
  rw [eq_of_mem_between h]
  exact Content.isGap_ofGap _ _

/-! ## What follows what -/

/-- The entity may stand behind the other one, or at the start of a script. -/
structure Follows (previous : Option Entity) (entity : Entity) : Prop where
  /-- A gap stands behind a known instruction or its padding. -/
  gap_behind : entity.kind.isGap = true →
    ∀ other ∈ previous, other.kind = .instruction ∨ other.kind = .padding
  /-- A gap is what it is by its bytes and the instruction directly in front. -/
  content_eq : entity.kind.isGap = true →
    entity.content = .ofGap entity.raw (previous.bind preceding?)
  /-- Behind a gap there is an instruction, known or unknown. -/
  behind_gap : ∀ other ∈ previous, other.kind.isGap = true →
    entity.kind = .instruction ∨ entity.kind = .unknown

/-- Each of the entities may stand behind the one in front of it, and the first behind
`previous`. -/
def Linked (previous : Option Entity) : List Entity → Prop
  | [] => True
  | entity :: rest => Follows previous entity ∧ Linked (some entity) rest

/-- Lists of entities are linked together when the second is linked behind the first. -/
theorem linked_append {previous : Option Entity} {front back : List Entity} :
    Linked previous (front ++ back) ↔
      Linked previous front ∧ Linked (front.getLast?.or previous) back := by
  induction front generalizing previous with
  | nil => simp [Linked]
  | cons entity front ih =>
    have hlast : (entity :: front).getLast?.or previous = front.getLast?.or (some entity) := by
      cases front with
      | nil => rfl
      | cons next front =>
        rw [List.getLast?_cons_cons, List.getLast?_eq_some_getLast (List.cons_ne_nil _ _)]
        rfl
    rw [List.cons_append, Linked, Linked, ih, hlast, and_assoc]

/-- An entity of a linked list stands behind the one in front of it. -/
theorem Linked.follows {front back : List Entity} {entity : Entity}
    (h : Linked none (front ++ entity :: back)) : Follows front.getLast? entity := by
  have hentity := (linked_append.1 h).2.1
  rw [Option.or_none] at hentity
  exact hentity

/-- The entity behind another one of a linked list stands behind it. -/
theorem Linked.next {front back : List Entity} {entity next : Entity}
    (h : Linked none (front ++ entity :: next :: back)) : Follows (some entity) next :=
  (linked_append.1 h).2.2.1

/-- An entity that is no gap may stand behind one that is none. -/
theorem follows_of_not_gap {previous : Option Entity} {entity : Entity}
    (hprevious : ∀ other ∈ previous, other.kind.isGap = false)
    (hentity : entity.kind.isGap = false) : Follows previous entity where
  gap_behind h := by simp [hentity] at h
  content_eq h := by simp [hentity] at h
  behind_gap other hmem h := by simp [hprevious other hmem] at h

/-- An instruction, known or unknown, may stand behind anything. -/
theorem follows_of_instruction (previous : Option Entity) {entity : Entity}
    (hkind : entity.kind = .instruction ∨ entity.kind = .unknown) : Follows previous entity := by
  have hentity : entity.kind.isGap = false := by
    rcases hkind with hkind | hkind <;> rw [hkind] <;> rfl
  exact ⟨fun h => by simp [hentity] at h, fun h => by simp [hentity] at h, fun _ _ _ => hkind⟩

/-- Entities none of which is a gap are linked. -/
theorem linked_of_not_gap {previous : Option Entity} {entities : List Entity}
    (hprevious : ∀ other ∈ previous, other.kind.isGap = false)
    (hentities : ∀ entity ∈ entities, entity.kind.isGap = false) : Linked previous entities := by
  induction entities generalizing previous with
  | nil => trivial
  | cons entity entities ih =>
    rw [List.forall_mem_cons] at hentities
    refine ⟨follows_of_not_gap hprevious hentities.1, ih ?_ hentities.2⟩
    intro other hother
    obtain rfl := Option.mem_some_iff.1 hother
    exact hentities.1

end Entity

open Entity (Linked Follows)

section

variable {scanner : Scanner} {data : ByteArray} {previous : Option Entity}

/-! ## The entities of a scan are linked -/

namespace Scanner

/-- Up to where a scan closes the gap behind a position: the next candidate, or the end of the
buffer. -/
def gapEnd (scanner : Scanner) (data : ByteArray) (position : Nat) : Nat :=
  (scanner.next? data position).getD data.size

/-- A gap ends at the next candidate. -/
theorem gapEnd_of_next? {position candidate : Nat}
    (h : scanner.next? data position = some candidate) :
    scanner.gapEnd data position = candidate := by
  rw [gapEnd, h, Option.getD_some]

/-- Without another candidate a gap ends with the buffer. -/
theorem gapEnd_of_none {position : Nat} (h : scanner.next? data position = none) :
    scanner.gapEnd data position = data.size := by
  rw [gapEnd, h, Option.getD_none]

/-- There is no gap behind the end of a gap. -/
theorem gapEnd_gapEnd (scanner : Scanner) (data : ByteArray) (position : Nat) :
    scanner.gapEnd data (scanner.gapEnd data position) = scanner.gapEnd data position := by
  cases hnext : scanner.next? data position with
  | some candidate =>
    obtain ⟨signature, hcandidate⟩ := exists_candidate hnext
    rw [gapEnd_of_next? hnext]
    exact gapEnd_of_next? (next?_of_candidate hcandidate)
  | none =>
    rw [gapEnd_of_none hnext]
    apply gapEnd_of_none
    rw [next?_eq_none_iff]
    intro other hother hcandidate
    obtain ⟨signature, hcandidate⟩ := hcandidate
    have hsize := hcandidate.size
    omega

/-- The entity that a scan goes on behind is no gap, and if it is not a known instruction or the
padding of one, then it reaches up to where a gap would end. -/
def Settled (scanner : Scanner) (data : ByteArray) (previous : Option Entity) : Prop :=
  ∀ other ∈ previous, other.kind.isGap = false ∧
    (other.kind = .instruction ∨ other.kind = .padding ∨
      scanner.gapEnd data other.stop = other.stop)

/-- The gap behind a settled entity is linked to it. -/
theorem Settled.linked_gap (h : scanner.Settled data previous) :
    Linked previous (gap data previous (scanner.gapEnd data (endOf previous))) := by
  unfold gap Entity.between
  split
  · rename_i hlt
    refine ⟨⟨?_, ?_, ?_⟩, trivial⟩
    · intro hgap other hother
      obtain rfl : previous = some other := hother
      obtain ⟨-, hkind | hkind | hend⟩ := h other rfl
      · exact Or.inl hkind
      · exact Or.inr hkind
      · -- The entity ends where the gap would, so that there is none.
        exact absurd hend (Nat.ne_of_gt hlt)
    · intro hgap
      dsimp only
    · intro other hother hgap
      rw [(h other hother).1] at hgap
      simp at hgap
  · trivial

/-- What belongs to an instruction is no gap. -/
theorem not_gap_of_mem_belongings {instruction : Instruction} {entity : Entity}
    (h : entity ∈ scanner.belongings data instruction) : entity.kind.isGap = false := by
  rcases of_mem_belongings h with hpadding | ⟨start, stop, -, rfl⟩
  · rw [Entity.kind, hpadding]
    rfl
  · rfl

/-- What belongs to an instruction leaves the scan settled. -/
theorem settled_belongings (scanner : Scanner) (data : ByteArray) (instruction : Instruction) :
    scanner.Settled data (instruction.toEntity :: scanner.belongings data instruction).getLast? := by
  intro other hother
  rcases List.mem_cons.1 (List.mem_of_getLast? hother) with rfl | hmem
  · exact ⟨rfl, Or.inl rfl⟩
  · refine ⟨not_gap_of_mem_belongings hmem, ?_⟩
    rcases of_mem_belongings hmem with hpadding | ⟨start, stop, hnext, rfl⟩
    · exact Or.inr (Or.inl (congrArg Content.kind hpadding))
    · obtain ⟨hle, ⟨signature, hcandidate⟩, -⟩ := next?_eq_some_iff.1 hnext
      have hsize := hcandidate.size
      have hend := Entity.stop_extract hle (by omega : stop ≤ data.size) .jumpTable
      rw [hend, gapEnd_of_next? (next?_of_candidate hcandidate)]
      exact Or.inr (Or.inr rfl)

/-- An unknown instruction leaves the scan settled. -/
theorem settled_unknownAt {candidate : Nat} (hsize : candidate + 4 ≤ data.size)
    (signature : UInt32) :
    scanner.Settled data (some (scanner.unknownAt data candidate signature)) := by
  intro other hother
  obtain rfl := Option.mem_some_iff.1 hother
  have hstop := (scanner.stop_unknownAt hsize signature).1
  refine ⟨rfl, Or.inr (Or.inr ?_)⟩
  rw [hstop]
  exact scanner.gapEnd_gapEnd data (candidate + 4)

end Scanner

/-- The entities that a scan records are linked, behind a settled one. -/
theorem Course.linked {entities : List Entity} {outcome : Option Failure}
    (h : Course scanner data previous entities outcome)
    (hprevious : scanner.Settled data previous) : Linked previous entities := by
  -- A round links the gap, then what it takes at the candidate, and leaves the scan settled.
  induction h with
  | finished hnext =>
    have hgap := hprevious.linked_gap
    rwa [Scanner.gapEnd_of_none hnext] at hgap
  | failed hnext hsignature htemplate hdecode =>
    have hgap := hprevious.linked_gap
    rwa [Scanner.gapEnd_of_next? hnext] at hgap
  | @known previous candidate signature template instruction rest outcome hnext hsignature
      htemplate hdecode hrest ih =>
    have hgap := hprevious.linked_gap
    rw [Scanner.gapEnd_of_next? hnext] at hgap
    have hbelongings : Linked (some instruction.toEntity) (scanner.belongings data instruction) :=
      Entity.linked_of_not_gap (by simp [Instruction.toEntity, Entity.kind, Content.kind,
        EntityKind.isGap]) fun _ => Scanner.not_gap_of_mem_belongings
    have hrest := ih (scanner.settled_belongings data instruction)
    rw [List.append_assoc, Entity.linked_append, Entity.linked_append]
    refine ⟨hgap, ⟨Entity.follows_of_instruction _ (Or.inl rfl), hbelongings⟩, ?_⟩
    rw [List.getLast?_eq_some_getLast (List.cons_ne_nil _ _)] at hrest ⊢
    exact hrest
  | @unknown previous candidate signature rest outcome hnext hsignature htemplate hrest ih =>
    have hgap := hprevious.linked_gap
    rw [Scanner.gapEnd_of_next? hnext] at hgap
    have hsize := Bytes.size_of_signatureAt hsignature
    rw [List.append_assoc, Entity.linked_append]
    exact ⟨hgap, Entity.follows_of_instruction _ (Or.inr rfl),
      ih (Scanner.settled_unknownAt hsize signature)⟩

end

/-! ## What a gap is -/

/-- The classification of a gap with its two tests made in the other order. -/
def Content.ofGapReversed (raw : ByteArray) (preceding : Option Nat) : Content :=
  match preceding with
  | some offset =>
    if Bytes.isTagged raw then .leftOut offset
    else if Bytes.isSequential raw then .messageTable
    else .rawSpan
  | none => if Bytes.isSequential raw then .messageTable else .rawSpan

/-- The order of the tests does not matter, since no bytes pass both. -/
theorem Content.ofGapReversed_eq (raw : ByteArray) (preceding : Option Nat) :
    ofGapReversed raw preceding = ofGap raw preceding := by
  unfold ofGapReversed ofGap
  cases preceding with
  | none => rfl
  | some offset =>
    by_cases hsequential : Bytes.isSequential raw = true
    · simp [hsequential, Bytes.not_isTagged_of_isSequential hsequential]
    · simp [hsequential]

/-- A gap is a message table exactly when its bytes pass the test. -/
theorem Content.ofGap_eq_messageTable_iff {raw : ByteArray} {preceding : Option Nat} :
    ofGap raw preceding = .messageTable ↔ Bytes.isSequential raw = true := by
  unfold ofGap
  by_cases hsequential : Bytes.isSequential raw = true
  · simp [hsequential]
  · cases preceding with
    | none => simp [hsequential]
    | some offset => by_cases htagged : Bytes.isTagged raw = true <;> simp [hsequential, htagged]

/-- A gap is left-out arguments exactly when an instruction precedes it and its bytes pass the
test. -/
theorem Content.ofGap_eq_leftOut_iff {raw : ByteArray} {preceding : Option Nat} {offset : Nat} :
    ofGap raw preceding = .leftOut offset ↔
      preceding = some offset ∧ Bytes.isTagged raw = true := by
  rw [← ofGapReversed_eq]
  unfold ofGapReversed
  cases preceding with
  | none => by_cases hsequential : Bytes.isSequential raw = true <;> simp [hsequential]
  | some found =>
    by_cases htagged : Bytes.isTagged raw = true
    · simp [htagged]
    · by_cases hsequential : Bytes.isSequential raw = true <;> simp [htagged, hsequential]

/-- The instruction that precedes a gap is the entity directly in front of it. -/
theorem Entity.bind_preceding?_eq_some_iff {previous : Option Entity} {offset : Nat} :
    previous.bind preceding? = some offset ↔
      ∃ instruction ∈ previous, instruction.kind = .instruction ∧ instruction.offset = offset := by
  rw [Option.bind_eq_some_iff]
  apply exists_congr
  intro entity
  apply and_congr_right
  intro _
  obtain ⟨start, raw, content⟩ := entity
  cases content <;> simp [preceding?, kind, Content.kind]

/-- Message tables are told by their kind. -/
theorem Entity.kind_eq_messageTable_iff {entity : Entity} :
    entity.kind = .messageTable ↔ entity.content = .messageTable := by
  obtain ⟨start, raw, content⟩ := entity
  cases content <;> simp [kind, Content.kind]

/-- Values that are left out are told by their kind, whatever the instruction in front of them is.
-/
theorem Entity.kind_eq_leftOut_iff {entity : Entity} :
    entity.kind = .leftOut ↔ ∃ offset, entity.content = .leftOut offset := by
  obtain ⟨start, raw, content⟩ := entity
  cases content <;> simp [kind, Content.kind]

/-- The entity is a gap that is classified exactly and goes as far as it can, between the entities
beside it. -/
structure Entity.IsGapBetween (data : ByteArray) (previous next : Option Entity) (entity : Entity) :
    Prop where
  /-- A gap stands at the start of the buffer, behind a known instruction, or behind its padding. -/
  previous_kind : ∀ other ∈ previous, other.kind = .instruction ∨ other.kind = .padding
  /-- An instruction, known or unknown, stands behind a gap. -/
  next_kind : ∀ other ∈ next, other.kind = .instruction ∨ other.kind = .unknown
  /-- Or else the gap ends where the buffer does. -/
  next_none : next = none → entity.stop = data.size
  /-- A message table is a table of message numbers. -/
  messageTable_iff : entity.kind = .messageTable ↔
    ∃ count, 0 < count ∧ Bytes.IsMessageTable entity.raw count
  /-- It counts as many messages as numbers. -/
  messageCount_eq : ∀ count, Bytes.IsMessageTable entity.raw count → entity.messageCount = count
  /-- Left-out arguments are tags and values directly behind a known instruction. -/
  leftOut_iff : entity.kind = .leftOut ↔
    (∃ instruction ∈ previous, instruction.kind = .instruction) ∧
      ∃ pairs, pairs ≠ [] ∧ Bytes.IsArguments entity.raw pairs
  /-- They refer to this instruction, with the size that it would have with them, and have the pairs
  that their bytes are made of. -/
  leftOut_eq : ∀ offset, entity.content = .leftOut offset →
    (∃ instruction ∈ previous, instruction.kind = .instruction ∧ instruction.offset = offset ∧
      entity.supposedSize offset = instruction.size + entity.size) ∧
      Bytes.IsArguments entity.raw entity.pairs.toList
  /-- Every other gap is a raw span. -/
  rawSpan_iff : entity.kind = .rawSpan ↔
    (¬ ∃ count, 0 < count ∧ Bytes.IsMessageTable entity.raw count) ∧
      ¬ ((∃ instruction ∈ previous, instruction.kind = .instruction) ∧
        ∃ pairs, pairs ≠ [] ∧ Bytes.IsArguments entity.raw pairs)

/-- A kind of gap that is neither a message table nor left-out arguments is a raw span. -/
theorem EntityKind.eq_rawSpan_iff {kind : EntityKind} (h : kind.isGap = true) :
    kind = .rawSpan ↔ kind ≠ .messageTable ∧ kind ≠ .leftOut := by
  cases kind <;> simp [isGap] at h ⊢

/-- What stands in a list of entities that tile a buffer and are linked, if it is a gap, is one
between its neighbours. -/
theorem Entity.Linked.isGapBetween {data : ByteArray} {front back : List Entity} {entity : Entity}
    (hlinked : Linked none (front ++ entity :: back))
    (htiles : Tiles data 0 (front ++ entity :: back) data.size) (hsize : data.size < 2 ^ 34)
    (hkind : entity.kind.isGap = true) :
    entity.IsGapBetween data front.getLast? back.head? := by
  have hfollows := hlinked.follows
  have hcontent := hfollows.content_eq hkind
  obtain ⟨middle, hfront, hback⟩ := htiles.exists_middle
  have hoffset := hback.offset_head? List.head?_cons
  have hraw : entity.raw.size < 2 ^ 34 := by
    have hstop := (hback.of_mem List.mem_cons_self).2.2.1
    change entity.offset + entity.raw.size ≤ data.size at hstop
    omega
  -- The content is what the tests say, and the tests hold of the tables.
  have hmessages : entity.kind = .messageTable ↔
      ∃ count, 0 < count ∧ Bytes.IsMessageTable entity.raw count := by
    rw [← Bytes.isSequential_iff hraw, kind_eq_messageTable_iff, hcontent,
      Content.ofGap_eq_messageTable_iff]
  have hleftOut : entity.kind = .leftOut ↔
      (∃ instruction ∈ front.getLast?, instruction.kind = .instruction) ∧
        ∃ pairs, pairs ≠ [] ∧ Bytes.IsArguments entity.raw pairs := by
    rw [← Bytes.isTagged_iff, kind_eq_leftOut_iff, hcontent]
    simp only [Content.ofGap_eq_leftOut_iff, bind_preceding?_eq_some_iff]
    constructor
    · intro h
      obtain ⟨_, ⟨instruction, hmem, hinstruction, -⟩, htagged⟩ := h
      exact ⟨⟨instruction, hmem, hinstruction⟩, htagged⟩
    · intro h
      obtain ⟨⟨instruction, hmem, hinstruction⟩, htagged⟩ := h
      exact ⟨instruction.offset, ⟨instruction, hmem, hinstruction, rfl⟩, htagged⟩
  refine ⟨hfollows.gap_behind hkind, ?_, ?_, hmessages, ?_, hleftOut, ?_, ?_⟩
  · intro next hnext
    obtain ⟨rest, rfl⟩ := List.head?_eq_some_iff.1 hnext
    exact hlinked.next.behind_gap entity rfl hkind
  · intro hnone
    obtain rfl := List.head?_eq_none_iff.1 hnone
    exact hback.stop_getLast? List.getLast?_singleton
  · intro count htable
    have hcount := htable.size
    unfold messageCount size
    omega
  · intro offset hleft
    rw [hcontent, Content.ofGap_eq_leftOut_iff, bind_preceding?_eq_some_iff] at hleft
    obtain ⟨⟨instruction, hprevious, hinstruction, rfl⟩, htagged⟩ := hleft
    -- The gap starts where the instruction ends.
    have hstart : instruction.stop = entity.offset :=
      (hfront.stop_getLast? hprevious).trans hoffset.symm
    refine ⟨⟨instruction, hprevious, hinstruction, rfl, ?_⟩, ?_⟩
    · unfold stop at hstart
      unfold supposedSize stop
      omega
    · obtain ⟨found, -, harguments⟩ := Bytes.isTagged_iff.1 htagged
      unfold pairs
      rw [harguments.wordPairs_eq]
      exact harguments
  · rw [EntityKind.eq_rawSpan_iff hkind, ne_eq, hmessages, ne_eq, hleftOut]

/-- Each gap of a script goes as far as it can and is classified exactly by its bytes and by the
instruction directly in front, if there is one. No bytes pass both tests that this is done with, so
that their order does not matter. -/
theorem Scanner.scan_classifies {scanner : Scanner} {data : ByteArray} {script : Script}
    (hscan : scanner.scan data = .ok script) (hsize : data.size < 2 ^ 34) :
    (∀ front entity back, script.entities.toList = front ++ entity :: back →
      entity.kind.isGap = true → entity.IsGapBetween data front.getLast? back.head?) ∧
      ∀ raw, ¬ (Bytes.isSequential raw = true ∧ Bytes.isTagged raw = true) ∧
        ∀ preceding, Content.ofGapReversed raw preceding = Content.ofGap raw preceding := by
  refine ⟨?_, ?_⟩
  · intro front entity back hsplit hkind
    obtain ⟨entities, hcourse, rfl⟩ := scan_eq_ok_iff.1 hscan
    rw [Script.toList_ofSize_pushAll] at hsplit
    have hsettled : scanner.Settled data none := by
      intro other hother
      simp at hother
    have hlinked := hcourse.linked hsettled
    have htiles := hcourse.tiles
    rw [hsplit] at hlinked htiles
    exact hlinked.isGapBetween htiles hsize hkind
  · intro raw
    refine ⟨?_, Content.ofGapReversed_eq raw⟩
    intro h
    have htagged := Bytes.not_isTagged_of_isSequential h.1
    rw [h.2] at htagged
    simp at htagged

/-- Message numbers, an end with a value that it left out, and an end with a byte behind it are
classified. -/
theorem Scanner.scan_classifies_messages :
    ∃ script, Scanner.messages.scan ⟨#[0, 0, 0, 0, 1, 0, 0, 0, 0x25, 1, 0, 0, 0x40, 0, 0, 0,
        5, 0, 0, 0, 0x25, 1, 0, 0, 9]⟩ = .ok script ∧
      script.entities.toList.map Entity.kind =
        [.messageTable, .instruction, .leftOut, .instruction, .rawSpan] ∧
      ∀ front entity back, script.entities.toList = front ++ entity :: back →
        entity.kind.isGap = true → entity.IsGapBetween ⟨#[0, 0, 0, 0, 1, 0, 0, 0, 0x25, 1, 0, 0,
          0x40, 0, 0, 0, 5, 0, 0, 0, 0x25, 1, 0, 0, 9]⟩ front.getLast? back.head? := by
  have hkinds : (Scanner.messages.scan ⟨#[0, 0, 0, 0, 1, 0, 0, 0, 0x25, 1, 0, 0, 0x40, 0, 0, 0,
      5, 0, 0, 0, 0x25, 1, 0, 0, 9]⟩).toOption.map
        (fun script => script.entities.toList.map Entity.kind) =
          some [.messageTable, .instruction, .leftOut, .instruction, .rawSpan] := by
    decide +kernel
  obtain ⟨script, hscan, hseen⟩ := Scanner.exists_script hkinds
  exact ⟨script, hscan, hseen, (Scanner.scan_classifies hscan (by decide)).1⟩

end PacScript
