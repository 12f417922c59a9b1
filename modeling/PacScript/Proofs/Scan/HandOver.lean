import PacScript.Proofs.Instruction.Rewind
import PacScript.Proofs.Scan.Belongings

/-!
# What follows an instruction

An instruction that is cut off by the next one ends where the next one starts, so that the scan can
go on there. It does so unless the template of the first ends with a string and the second does not
start on a word boundary: then the bytes up to the boundary are taken for padding, although no
string stands in front of them, and the instruction that they begin is lost.
-/

namespace PacScript

/-! ## The hand-over -/

/-- Behind a string that does not end on a word boundary there is padding. -/
theorem Scanner.exists_padding {scanner : Scanner} {data : ByteArray} {instruction : Instruction}
    (hstring : instruction.template.endsWithString = true)
    (hunaligned : instruction.toEntity.stop % 4 ≠ 0)
    (hsize : instruction.toEntity.stop < data.size) :
    ∃ padding rest, scanner.belongings data instruction = padding :: rest ∧
      padding.offset = instruction.toEntity.stop ∧ padding.kind = .padding := by
  obtain ⟨padding, table, hbelongings, hattends⟩ := scanner.exists_belongings data instruction
  obtain ⟨entity, rfl⟩ :=
    Option.isSome_iff_exists.1 (hattends.pads.isSome_iff.2 ⟨hstring, hunaligned, hsize⟩)
  have hentity := hattends.pads.isPadding entity rfl
  exact ⟨entity, table.toList, hbelongings, hentity.offset_eq, hentity.kind_eq⟩

/-- Nothing belongs to an instruction that ends where the next one starts, unless it has to be
padded. -/
theorem Scanner.belongings_eq_nil {scanner : Scanner} {data : ByteArray}
    {instruction : Instruction} {signature : UInt32}
    (hcandidate : scanner.Candidate data instruction.toEntity.stop signature)
    (haligned : ¬ (instruction.template.endsWithString = true ∧
      instruction.toEntity.stop % 4 ≠ 0)) :
    scanner.belongings data instruction = [] := by
  obtain ⟨padding, table, hbelongings, hattends⟩ := scanner.exists_belongings data instruction
  have hpadding : padding = none := by
    rw [← Option.not_isSome_iff_eq_none, hattends.pads.isSome_iff]
    intro hpads
    exact haligned ⟨hpads.1, hpads.2.1⟩
  subst hpadding
  -- The jump table would go up to the next candidate, and this one is there already.
  have htable : table = none := by
    rw [← Option.not_isSome_iff_eq_none, hattends.tabulates.isSome_iff]
    intro htabulates
    obtain ⟨-, -, stop, hfirst, hlt⟩ := htabulates
    exact hfirst.2.2 _ (Nat.le_refl _) hlt ⟨signature, hcandidate⟩
  rw [hbelongings, htable]
  rfl

/-- An instruction that is cut off by the next one ends where this one starts, and the next entity
starts there. It is the next instruction exactly when the first has not to be padded there, and it
is padding otherwise. -/
theorem Scanner.handsOver_iff {scanner : Scanner} {data : ByteArray} {script : Script}
    (hscan : scanner.scan data = .ok script) {i : Nat} {entity : Entity} {template : Template}
    {cutOff : Bool} {parameters : ParameterSet} (hentity : script.entities[i]? = some entity)
    (hcontent : entity.content = .instruction template cutOff parameters) {stop : Nat}
    (hrewinds : template.Rewinds data entity.offset stop) {signature : UInt32}
    (hsignature : Bytes.signatureAt data stop = .ok signature)
    (haccepts : scanner.policy.accepts scanner.registry signature = true) :
    cutOff = true ∧ entity.stop = stop ∧
      ∃ next, script.entities[i + 1]? = some next ∧ next.offset = stop ∧
        (next.signature? = some signature ↔
          ¬ (template.endsWithString = true ∧ stop % 4 ≠ 0)) ∧
        (next.kind = .padding ↔ template.endsWithString = true ∧ stop % 4 ≠ 0) := by
  have hkind : entity.kind = .instruction := by rw [Entity.kind, hcontent]; rfl
  have hcandidate : scanner.Candidate data stop signature :=
    ⟨hrewinds.marker, hsignature, haccepts⟩
  -- The decoder has stopped at the marker, and the course goes on with what belongs to the
  -- instruction that it cut off.
  obtain ⟨found, registered, instruction, rest, hstart, -, hdecode, rfl, hback, hrest⟩ :=
    exists_rest_of_scan hscan hentity hkind
  obtain ⟨rfl, rfl, -⟩ := Content.instruction.inj hcontent
  have htemplate := (Instruction.eq_of_decode hdecode).2.1
  rw [htemplate] at hrewinds ⊢
  obtain ⟨hcutOff, hstop⟩ := hrewinds.decode hstart.size hdecode
  obtain rfl : instruction.toEntity.stop = stop := hstop
  refine ⟨hcutOff, rfl, ?_⟩
  rw [hback, ← htemplate]
  have hsize := hcandidate.size
  by_cases hpadded : instruction.template.endsWithString = true ∧
      instruction.toEntity.stop % 4 ≠ 0
  · obtain ⟨padding, others, hbelongs, hoffset, hpadding⟩ :=
      scanner.exists_padding hpadded.1 hpadded.2 (by omega : _ < data.size)
    have hnone := signature?_of_mem_belongings padding (by rw [hbelongs]; exact List.mem_cons_self)
    rw [hbelongs]
    refine ⟨padding, rfl, hoffset, ?_, ?_⟩
    · simp [hnone, hpadded]
    · simp [hpadding, hpadded]
  · have hbelongs := belongings_eq_nil hcandidate hpadded
    rw [hbelongs, List.getLast?_singleton] at hrest
    obtain ⟨next, others, hhead, hoffset, hnext⟩ := hrest.exists_head hcandidate
    rw [hbelongs, hhead]
    refine ⟨next, rfl, hoffset, ?_, ?_⟩
    · simp [hnext, hpadded]
    · have hnot : next.kind ≠ .padding := by
        obtain ⟨offset, raw, content⟩ := next
        cases content <;> simp [Entity.signature?, Content.signature?] at hnext
        all_goals simp [Entity.kind, Content.kind]
      simp [hnot, hpadded]

/-- A message whose second variable would start with the marker is cut off there. -/
theorem Template.rewinds_message {data : ByteArray} {offset : Nat} {a b c d t u v : UInt8}
    (second : UInt8) (hclass : second ≤ 0x23)
    (hat : Bytes.At data (offset + 4) [0x20, a, b, c, d, 0x25, second, t, u, v]) :
    Template.message.Rewinds data offset (offset + 9) := by
  have hsize := hat.cons_length_le
  simp only [List.length_cons, List.length_nil] at hsize
  have hpiece : Arguments.Piece data.size ⟨.tagged .compact, "a"⟩ (offset + 4)
      [0x20, a, b, c, d] [_] := .single rfl (.taggedCompact (.known rfl))
  rw [show [0x20, a, b, c, d, 0x25, second, t, u, v] =
    [0x20, a, b, c, d] ++ [0x25, second, t, u, v] from rfl, Bytes.at_append] at hat
  obtain ⟨hfirst, hmarker, hsecond, -⟩ := hat
  exact ⟨.compact, offset + 9, second, .behind hfirst hpiece .here, rfl, hsize, hmarker, hsecond,
    hclass⟩

/-- A message that is cut off on a word boundary is followed by the next instruction. -/
theorem Scanner.handsOver_messages :
    ∃ script next, Scanner.messages.scan
        ⟨#[0, 0, 0, 0x25, 7, 0, 0x12, 0x20, 1, 0, 0, 0, 0x25, 1, 0, 0, 0xAA]⟩ = .ok script ∧
      script.entities[2]? = some next ∧ next.offset = 12 ∧
      next.signature? = some 0x25010000 := by
  have hview : (Scanner.messages.scan
      ⟨#[0, 0, 0, 0x25, 7, 0, 0x12, 0x20, 1, 0, 0, 0, 0x25, 1, 0, 0, 0xAA]⟩).toOption.map
        (fun script => script.entities[1]?) = some (some
          ⟨3, ⟨#[0x25, 7, 0, 0x12, 0x20, 1, 0, 0, 0]⟩, .instruction .message true
            ⟨[⟨"0x20 variable", "a", .int 1⟩], by decide⟩⟩) := by decide +kernel
  have hrewinds : Template.message.Rewinds
      ⟨#[0, 0, 0, 0x25, 7, 0, 0x12, 0x20, 1, 0, 0, 0, 0x25, 1, 0, 0, 0xAA]⟩ 3 12 :=
    Template.rewinds_message 1 (by decide)
      ⟨rfl, rfl, rfl, rfl, rfl, rfl, rfl, rfl, rfl, rfl, trivial⟩
  have hsignature : Bytes.signatureAt
      ⟨#[0, 0, 0, 0x25, 7, 0, 0x12, 0x20, 1, 0, 0, 0, 0x25, 1, 0, 0, 0xAA]⟩ 12 =
        .ok 0x25010000 :=
    Bytes.signatureAt_eq_ok_iff.2 ⟨0x25, 1, 0, 0, ⟨rfl, rfl, rfl, rfl, trivial⟩, by decide⟩
  obtain ⟨script, hscan, hentity⟩ := Scanner.exists_script hview
  obtain ⟨-, -, next, hnext, hoffset, hiff, -⟩ :=
    Scanner.handsOver_iff hscan hentity rfl hrewinds hsignature rfl
  exact ⟨script, next, hscan, hnext, hoffset, hiff.2 (by decide)⟩

/-- Every instruction that is cut off by the next one hands over to it. -/
def Scanner.HandsOver (scanner : Scanner) (data : ByteArray) : Prop :=
  ∀ script, scanner.scan data = .ok script → ∀ i entity template cutOff parameters stop signature,
    script.entities[i]? = some entity →
    entity.content = .instruction template cutOff parameters →
    template.Rewinds data entity.offset stop →
    Bytes.signatureAt data stop = .ok signature →
    scanner.policy.accepts scanner.registry signature = true →
    ∃ next, script.entities[i + 1]? = some next ∧ next.offset = stop ∧
      next.signature? = some signature

/-- A message that is cut off between word boundaries does not hand over to the end behind it, which
is taken for padding. -/
theorem Scanner.not_handsOver_messages :
    ¬ Scanner.messages.HandsOver
      ⟨#[0x25, 7, 0, 0x12, 0x20, 1, 0, 0, 0, 0x25, 1, 0, 0, 0xAA]⟩ := by
  intro h
  have hview : (Scanner.messages.scan
      ⟨#[0x25, 7, 0, 0x12, 0x20, 1, 0, 0, 0, 0x25, 1, 0, 0, 0xAA]⟩).toOption.map
        (fun script => (script.entities[0]?, script.entities[1]?)) = some (some
          ⟨0, ⟨#[0x25, 7, 0, 0x12, 0x20, 1, 0, 0, 0]⟩, .instruction .message true
            ⟨[⟨"0x20 variable", "a", .int 1⟩], by decide⟩⟩,
          some ⟨9, ⟨#[0x25, 1, 0]⟩, .padding⟩) := by decide +kernel
  have hrewinds : Template.message.Rewinds
      ⟨#[0x25, 7, 0, 0x12, 0x20, 1, 0, 0, 0, 0x25, 1, 0, 0, 0xAA]⟩ 0 9 :=
    Template.rewinds_message 1 (by decide)
      ⟨rfl, rfl, rfl, rfl, rfl, rfl, rfl, rfl, rfl, rfl, trivial⟩
  have hsignature : Bytes.signatureAt
      ⟨#[0x25, 7, 0, 0x12, 0x20, 1, 0, 0, 0, 0x25, 1, 0, 0, 0xAA]⟩ 9 = .ok 0x25010000 :=
    Bytes.signatureAt_eq_ok_iff.2 ⟨0x25, 1, 0, 0, ⟨rfl, rfl, rfl, rfl, trivial⟩, by decide⟩
  obtain ⟨script, hscan, hentities⟩ := Scanner.exists_script hview
  obtain ⟨hentity, hpadding⟩ := Prod.mk.inj hentities
  obtain ⟨next, hnext, -, hnextSignature⟩ :=
    h script hscan 0 _ _ _ _ 9 _ hentity rfl hrewinds hsignature rfl
  -- The next entity is known to be the padding, which has no signature.
  rw [hpadding] at hnext
  rw [← Option.some.inj hnext] at hnextSignature
  simp [Entity.signature?, Content.signature?] at hnextSignature

end PacScript
