import PacScript.Proofs.Instruction.Relocation
import PacScript.Proofs.Scan.Resumption

/-!
# A scan of a buffer with more bytes behind

A scan looks ahead in many ways: for the next candidate, for the end of a text, for the boundary up
to which it pads. What it finds in a buffer it also finds when more bytes follow, so that it goes
wrong only where it comes to the end of the buffer and finds nothing. In front of an instruction the
scan has not come to the end, unless an instruction there was cut off or declares continuous
parameters. So the scan of the longer buffer records the same entities up to any instruction that no
such one stands in front of, and then an instruction that starts in the same way
(`Course.extend`).
-/

namespace PacScript

open Entity (between endOf gap)

/-- An instruction that does not depend on where its buffer ends: it is not cut off, and no
parameter takes up what the buffer has left. Other entities are no such instruction. -/
def Entity.IsSelfContained (entity : Entity) : Prop :=
  ∀ instruction ∈ entity.instruction?,
    instruction.cutOff = false ∧ instruction.template.IsBounded

instance (entity : Entity) : Decidable entity.IsSelfContained :=
  inferInstanceAs (Decidable (∀ instruction ∈ entity.instruction?,
    instruction.cutOff = false ∧ instruction.template.IsBounded))

section

variable {scanner : Scanner} {data : ByteArray} {previous : Option Entity}

/-! ## What is found in a longer buffer -/

/-- A position whose signature is in the buffer is a candidate of the longer buffer exactly when it
is one of the buffer. -/
theorem Scanner.candidate_extend_iff (extra : ByteArray) {position : Nat} {signature : UInt32}
    (hsize : position + 4 ≤ data.size) :
    scanner.Candidate (data ++ extra) position signature ↔
      scanner.Candidate data position signature := by
  have hread := Bytes.signatureAt_extend extra hsize
  have hmarker : (data ++ extra)[position]? = data[position]? := by
    have hlt : position < data.size := by omega
    have hlonger : position < (data ++ extra).size := by
      rw [ByteArray.size_append]
      omega
    rw [getElem?_pos data position hlt, getElem?_pos (data ++ extra) position hlonger,
      ByteArray.getElem_append_left hlt]
  constructor
  · intro h
    exact ⟨hmarker ▸ h.marker, hread ▸ h.signatureAt, h.accepted⟩
  · intro h
    exact ⟨hmarker.symm ▸ h.marker, hread.symm ▸ h.signatureAt, h.accepted⟩

/-- The next candidate stays the next one. -/
theorem Scanner.next?_extend (extra : ByteArray) {start found : Nat}
    (h : scanner.next? data start = some found) :
    scanner.next? (data ++ extra) start = some found := by
  rw [next?_eq_some_iff] at h ⊢
  obtain ⟨hle, ⟨signature, hfound⟩, hbefore⟩ := h
  refine ⟨hle, ⟨signature, (candidate_extend_iff extra hfound.size).2 hfound⟩, ?_⟩
  intro position hposition hlt hcandidate
  obtain ⟨other, hcandidate⟩ := hcandidate
  have hsize := hfound.size
  exact hbefore position hposition hlt
    ⟨other, (candidate_extend_iff extra (by omega)).1 hcandidate⟩

/-- A range inside the buffer has the same entity when bytes are appended. -/
theorem Entity.between_extend (extra : ByteArray) (start : Nat) {stop : Nat}
    (hstop : stop ≤ data.size) (content : ByteArray → Content) :
    between (data ++ extra) start stop content = between data start stop content := by
  unfold between
  rw [Bytes.extract_extend extra hstop]

/-- A gap inside the buffer is the same when bytes are appended. -/
theorem Entity.gap_extend (extra : ByteArray) (previous : Option Entity) {stop : Nat}
    (hstop : stop ≤ data.size) : gap (data ++ extra) previous stop = gap data previous stop :=
  between_extend extra _ hstop _

/-- Behind an instruction that ends with a string a scan goes on at the word boundary, unless the
buffer ends before. -/
theorem Template.min_alignUp_le {template : Template} (hstring : template.endsWithString = true)
    (data : ByteArray) (entity : Entity) : min (Arguments.alignUp entity.stop) data.size ≤
      endOf (entity :: template.padding data entity.stop).getLast? := by
  unfold padding between
  rw [if_pos hstring]
  split
  · rename_i hlt
    have hstop := Entity.stop_extract (Nat.le_of_lt hlt) (Nat.min_le_right _ _) .padding
    exact Nat.le_of_eq hstop.symm
  · rename_i hge
    exact Nat.le_of_not_lt hge

/-- A self-contained instruction is decoded in the longer buffer too. -/
theorem Instruction.decode_extend (extra : ByteArray) {offset : Nat} {template : Template}
    {instruction : Instruction} (h : decode data offset template = .ok instruction)
    (hsize : offset + 4 ≤ data.size) (hcontained : instruction.toEntity.IsSelfContained) :
    decode (data ++ extra) offset template = .ok instruction := by
  obtain ⟨hcutOff, hbounded⟩ := hcontained instruction rfl
  obtain ⟨hoffset, htemplate, -⟩ := eq_of_decode h
  obtain ⟨-, -, hstop, hraw⟩ := (tiles_of_decode h hsize).of_mem List.mem_cons_self
  have hbytes : (data ++ extra).extract offset (offset + instruction.size) = instruction.raw := by
    rw [← hoffset]
    exact (Bytes.extract_extend extra hstop).trans hraw.symm
  rw [htemplate] at hbounded
  rw [decode_relocate hsize h hcutOff hbounded rfl hbytes, ← hoffset]

/-- What belongs to an instruction is the same in the longer buffer if another candidate stands
behind it. -/
theorem Scanner.belongings_extend (extra : ByteArray) {offset candidate : Nat}
    {template : Template} {instruction : Instruction}
    (hdecode : Instruction.decode data offset template = .ok instruction)
    (hsize : offset + 4 ≤ data.size)
    (hnext : scanner.next? data
      (endOf (instruction.toEntity :: scanner.belongings data instruction).getLast?) =
        some candidate) :
    scanner.belongings (data ++ extra) instruction = scanner.belongings data instruction := by
  obtain ⟨hle, ⟨signature, hcandidate⟩, hbefore⟩ := next?_eq_some_iff.1 hnext
  have hroom := hcandidate.size
  have htiles := scanner.tiles_belongings hdecode hsize
  have hbelongings : scanner.belongings data instruction = _ := belongings_eq rfl
  rw [hbelongings, ← List.cons_append] at htiles
  obtain ⟨padded, hfront, htable⟩ := htiles.exists_middle
  have hpadded : endOf (instruction.toEntity ::
      instruction.template.padding data instruction.toEntity.stop).getLast? = padded := by
    rw [List.getLast?_eq_some_getLast (List.cons_ne_nil _ _)]
    exact hfront.stop_getLast? (List.getLast?_eq_some_getLast (List.cons_ne_nil _ _))
  have hahead : padded ≤ candidate := by
    rw [hbelongings, ← List.cons_append] at hle
    exact Nat.le_trans htable.le hle
  -- The padding ends before the candidate, and so at the boundary and not at the end of the buffer.
  have hpadding : instruction.template.padding (data ++ extra) instruction.toEntity.stop =
      instruction.template.padding data instruction.toEntity.stop := by
    by_cases hstring : instruction.template.endsWithString = true
    · have hboundary := Template.min_alignUp_le hstring data instruction.toEntity
      rw [hpadded] at hboundary
      have halign : Arguments.alignUp instruction.toEntity.stop ≤ data.size := by omega
      have hlonger : Arguments.alignUp instruction.toEntity.stop ≤ (data ++ extra).size := by
        rw [ByteArray.size_append]
        omega
      unfold Template.padding
      rw [Nat.min_eq_left halign, Nat.min_eq_left hlonger, Entity.between_extend extra _ halign]
    · unfold Template.padding
      rw [if_neg hstring, if_neg hstring]
  -- A table behind the padding ends at a candidate, since there is one.
  have hjump : scanner.jumpTable (data ++ extra) instruction.signature padded =
      scanner.jumpTable data instruction.signature padded := by
    obtain ⟨stop, hstop⟩ : ∃ stop, scanner.next? data padded = some stop := by
      cases hfound : scanner.next? data padded with
      | none => exact absurd ⟨signature, hcandidate⟩ (next?_eq_none_iff.1 hfound candidate hahead)
      | some stop => exact ⟨stop, rfl⟩
    obtain ⟨-, ⟨found, hfound⟩, -⟩ := next?_eq_some_iff.1 hstop
    have hend := hfound.size
    unfold jumpTable
    rw [next?_extend extra hstop, hstop]
    dsimp only
    rw [Entity.between_extend extra padded (by omega)]
  rw [belongings_eq hpadding, hbelongings, hpadded, hjump]

/-- An unknown instruction is the same in the longer buffer if another candidate stands behind
it. -/
theorem Scanner.unknownAt_extend (extra : ByteArray) {offset candidate : Nat} {signature : UInt32}
    (hsize : offset + 4 ≤ data.size)
    (hnext : scanner.next? data (scanner.unknownAt data offset signature).stop = some candidate) :
    scanner.unknownAt (data ++ extra) offset signature =
      scanner.unknownAt data offset signature := by
  obtain ⟨hstop, -, -⟩ := scanner.stop_unknownAt hsize signature
  obtain ⟨hle, ⟨found, hcandidate⟩, -⟩ := next?_eq_some_iff.1 hnext
  have hroom := hcandidate.size
  unfold unknownAt
  cases hbehind : scanner.next? data (offset + signatureSize) with
  | none =>
    rw [signatureSize] at hbehind
    rw [hstop, hbehind, Option.getD_none] at hle
    omega
  | some stop =>
    obtain ⟨-, ⟨other, hother⟩, -⟩ := next?_eq_some_iff.1 hbehind
    have hend := hother.size
    rw [next?_extend extra hbehind, Option.getD_some, Bytes.extract_extend extra (by omega)]
    rfl

end

/-! ## The scan of the longer buffer -/

/-- Both entities are instructions, known or unknown, that start with the same signature in the same
place. -/
structure Entity.StartsAs (entity other : Entity) : Prop where
  /-- They start in the same place. -/
  offset_eq : entity.offset = other.offset
  /-- They have the same signature. -/
  signature_eq : entity.signature? = other.signature?
  /-- Both are known, or both are unknown. -/
  kind_eq : entity.kind = other.kind

/-- The scan of a longer buffer records the same entities in front of an instruction, known or
unknown, if the instructions there are self-contained. -/
theorem Course.extend {scanner : Scanner} {data extra : ByteArray} {previous : Option Entity}
    {entities front back longer : List Entity} {entity : Entity} {outcome : Option Failure}
    (h : Course scanner data previous entities outcome)
    (hlonger : Course scanner (data ++ extra) previous longer none)
    (hsplit : entities = front ++ entity :: back) (hsignature : entity.signature? ≠ none)
    (hcontained : ∀ other ∈ front, other.IsSelfContained) :
    ∃ other rest, longer = front ++ other :: rest ∧ other.StartsAs entity := by
  -- The rounds of both scans are the same up to the one that takes the instruction.
  induction h generalizing front longer with
  | finished => exact absurd hsplit (Entity.gap_ne_append hsignature front back)
  | failed => exact absurd hsplit (Entity.gap_ne_append hsignature front back)
  | @known previous candidate signature template instruction rest outcome hnext hfound htemplate
      hdecode hrest ih =>
    have hsize := Bytes.size_of_signatureAt hfound
    have hread := (Bytes.signatureAt_extend extra hsize).trans hfound
    obtain ⟨other, others, hother, hothers, rfl⟩ :=
      hlonger.exists_known (Scanner.next?_extend extra hnext) hread htemplate
    rw [Entity.gap_extend extra previous (by omega)]
    rcases Entity.of_round_eq hsignature Scanner.signature?_of_mem_belongings hsplit with
      ⟨rfl, rfl, -⟩ | ⟨later, rfl, rfl⟩
    · obtain ⟨hoffset, hgiven, -⟩ := Instruction.eq_of_decode hdecode
      obtain ⟨hoffset', hgiven', -⟩ := Instruction.eq_of_decode hother
      rw [List.append_assoc]
      refine ⟨other.toEntity, _, rfl, hoffset'.trans hoffset.symm, ?_, rfl⟩
      show some other.template.signature = some instruction.template.signature
      rw [hgiven', hgiven]
    · -- The instruction is decoded from the same bytes, and there is another candidate behind it.
      have hinstruction : instruction.toEntity.IsSelfContained := hcontained _ (by simp)
      have hsame := Instruction.decode_extend extra hdecode hsize hinstruction
      obtain rfl := Except.ok.inj (hsame.symm.trans hother)
      obtain ⟨further, hfurther⟩ := hrest.exists_next? hsignature
      rw [scanner.belongings_extend extra hdecode hsize hfurther] at hothers ⊢
      obtain ⟨found, rest, rfl, hstarts⟩ := ih hothers rfl fun other hmem =>
        hcontained other (List.mem_append_right _ hmem)
      refine ⟨found, rest, ?_, hstarts⟩
      rw [List.append_assoc _ later]
  | @unknown previous candidate signature rest outcome hnext hfound htemplate hrest ih =>
    have hsize := Bytes.size_of_signatureAt hfound
    have hread := (Bytes.signatureAt_extend extra hsize).trans hfound
    obtain ⟨others, hothers, rfl⟩ :=
      hlonger.exists_unknown (Scanner.next?_extend extra hnext) hread htemplate
    rw [Entity.gap_extend extra previous (by omega)]
    rcases Entity.of_round_eq hsignature (List.forall_mem_nil _) hsplit with
      ⟨rfl, rfl, -⟩ | ⟨later, rfl, rfl⟩
    · rw [List.append_assoc]
      exact ⟨_, _, rfl, rfl, rfl, rfl⟩
    · obtain ⟨further, hfurther⟩ := hrest.exists_next? hsignature
      rw [scanner.unknownAt_extend extra hsize hfurther] at hothers ⊢
      obtain ⟨found, rest, rfl, hstarts⟩ := ih hothers rfl fun other hmem =>
        hcontained other (List.mem_append_right _ hmem)
      refine ⟨found, rest, ?_, hstarts⟩
      rw [List.append_assoc _ later]

/-- Bytes that are appended to a buffer change nothing of its script in front of an instruction,
known or unknown, and not how it starts, if each known instruction in front of it is complete and
declares no continuous parameters. -/
theorem Scanner.scan_append {scanner : Scanner} {data extra : ByteArray} {script longer : Script}
    (hscan : scanner.scan data = .ok script) (hlonger : scanner.scan (data ++ extra) = .ok longer)
    {index : Nat} {entity : Entity} (hentity : script.entities[index]? = some entity)
    (hkind : entity.kind = .instruction ∨ entity.kind = .unknown)
    (hcontained : ∀ other ∈ script.entities.toList.take index, other.IsSelfContained) :
    longer.entities.toList.take index = script.entities.toList.take index ∧
      ∃ other, longer.entities[index]? = some other ∧ other.StartsAs entity := by
  obtain ⟨front, back, hcourse, rfl, rfl⟩ := exists_split_of_scan hscan hentity
  obtain ⟨entities, hother, rfl⟩ := scan_eq_ok_iff.1 hlonger
  have hsignature := Entity.signature?_ne_none_iff.2 hkind
  rw [Script.toList_ofSize_pushAll, List.take_left] at hcontained
  obtain ⟨found, rest, rfl, hstarts⟩ := hcourse.extend hother rfl hsignature hcontained
  rw [Script.toList_ofSize_pushAll, Script.toList_ofSize_pushAll, List.take_left, List.take_left,
    ← Array.getElem?_toList, Script.toList_ofSize_pushAll,
    List.getElem?_append_right (Nat.le_refl _), Nat.sub_self, List.getElem?_cons_zero]
  exact ⟨rfl, found, rfl, hstarts⟩

/-- An unknown instruction at the end of a buffer stays one behind the end in front of it when more
bytes follow. -/
theorem Scanner.scan_append_messages :
    ∃ script longer,
      Scanner.messages.scan ⟨#[0x25, 1, 0, 0, 0x25, 9, 9, 9]⟩ = .ok script ∧
      Scanner.messages.scan
        (⟨#[0x25, 1, 0, 0, 0x25, 9, 9, 9]⟩ ++ ⟨#[9, 9, 0x25, 1, 0, 0]⟩) = .ok longer ∧
      script.entities.toList.map (fun entity => (entity.kind, entity.size)) =
        [(.instruction, 4), (.unknown, 4)] ∧
      longer.entities.toList.map (fun entity => (entity.kind, entity.size)) =
        [(.instruction, 4), (.unknown, 6), (.instruction, 4)] ∧
      longer.entities.toList.take 1 = script.entities.toList.take 1 ∧
      ∃ entity other, script.entities[1]? = some entity ∧ longer.entities[1]? = some other ∧
        other.StartsAs entity := by
  have hview : (Scanner.messages.scan ⟨#[0x25, 1, 0, 0, 0x25, 9, 9, 9]⟩).toOption.map
      (fun script => (script.entities.toList.map (fun entity => (entity.kind, entity.size)),
        script.entities[1]?.map Entity.kind,
        decide (∀ other ∈ script.entities.toList.take 1, other.IsSelfContained))) =
        some ([(.instruction, 4), (.unknown, 4)], some .unknown, true) := by decide +kernel
  have hview' : (Scanner.messages.scan
      (⟨#[0x25, 1, 0, 0, 0x25, 9, 9, 9]⟩ ++ ⟨#[9, 9, 0x25, 1, 0, 0]⟩)).toOption.map
      (fun longer => longer.entities.toList.map (fun entity => (entity.kind, entity.size))) =
        some [(.instruction, 4), (.unknown, 6), (.instruction, 4)] := by decide +kernel
  obtain ⟨script, hscan, hseen⟩ := Scanner.exists_script hview
  obtain ⟨longer, hlonger, hseen'⟩ := Scanner.exists_script hview'
  obtain ⟨hentities, hseen⟩ := Prod.mk.inj hseen
  obtain ⟨hat, hcontained⟩ := Prod.mk.inj hseen
  obtain ⟨entity, hentity, hkind⟩ := Option.map_eq_some_iff.1 hat
  obtain ⟨hfront, other, hother, hstarts⟩ :=
    Scanner.scan_append hscan hlonger hentity (Or.inr hkind) (of_decide_eq_true hcontained)
  exact ⟨script, longer, hscan, hlonger, hentities, hseen', hfront, entity, other, hentity, hother,
    hstarts⟩

end PacScript
