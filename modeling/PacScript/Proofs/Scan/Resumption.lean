import PacScript.Proofs.Instruction.Suffix
import PacScript.Proofs.Scan.Restart
import PacScript.Proofs.Script.Counters

/-!
# A scan can be resumed at an instruction

A scan begins anew at an instruction (`Course.restart`). Where the instruction stands on a word
boundary, the course from there on is the course of a scan of the bytes from there on, moved by the
bytes in front (`Course.suffix`).

The two scans are followed side by side. What a round records in the suffix and in the buffer is the
same but for the distance (`Scanner.belongings_suffix`, `Scanner.unknownAt_suffix`), and the entities
behind which the scans go on stay `Ahead` of each other: as far apart as the scans, and both
instructions or neither.
-/

namespace PacScript

open Bytes (suffix)
open Entity (between endOf gap)

/-! ## Entities that are further on -/

/-- The content of an entity that is `distance` further on. -/
def Content.moved (distance : Nat) : Content → Content
  | .leftOut offset => .leftOut (distance + offset)
  | content => content

/-- The entity that is `distance` further on. All that follows from its bytes stays. -/
def Entity.moved (distance : Nat) (entity : Entity) : Entity where
  offset := distance + entity.offset
  raw := entity.raw
  content := entity.content.moved distance

namespace Entity

/-- Moving an entity does not change its kind. -/
@[simp] theorem kind_moved (distance : Nat) (entity : Entity) :
    (entity.moved distance).kind = entity.kind := by
  obtain ⟨offset, raw, content⟩ := entity
  cases content <;> rfl

/-- An instruction that is moved is as cut off as before. -/
@[simp] theorem isCutOff_moved (distance : Nat) (entity : Entity) :
    (entity.moved distance).isCutOff = entity.isCutOff := by
  obtain ⟨offset, raw, content⟩ := entity
  cases content <;> rfl

/-- The end of an entity is moved with its offset. -/
@[simp] theorem stop_moved (distance : Nat) (entity : Entity) :
    (entity.moved distance).stop = distance + entity.stop :=
  Nat.add_assoc _ _ _

/-- The instruction of left-out arguments has the same supposed size. -/
theorem supposedSize_moved (distance : Nat) (entity : Entity) (offset : Nat) :
    (entity.moved distance).supposedSize (distance + offset) = entity.supposedSize offset := by
  unfold supposedSize
  rw [stop_moved]
  omega

/-- The instruction in front of a value that is left out is moved with the value. -/
@[simp] theorem preceding?_moved (distance : Nat) (entity : Entity) :
    (entity.moved distance).preceding? = entity.preceding?.map (distance + ·) := by
  obtain ⟨offset, raw, content⟩ := entity
  cases content <;> rfl

/-- An instruction may be moved, or the entity that it is. -/
theorem toEntity_moved (distance : Nat) (instruction : Instruction) :
    (instruction.moved distance).toEntity = instruction.toEntity.moved distance := rfl

/-- The entities behind which two scans go on are as far apart as the scans, and a gap behind them
is one behind an instruction in both or in neither. -/
structure Ahead (distance : Nat) (previous other : Option Entity) : Prop where
  /-- The first scan is `distance` further on. -/
  endOf_eq : endOf previous = distance + endOf other
  /-- So is the instruction in front, if there is one. -/
  preceding_eq : previous.bind preceding? = (other.bind preceding?).map (distance + ·)

/-- An entity that is further on is ahead. -/
theorem ahead_some (distance : Nat) (entity : Entity) :
    Ahead distance (some (entity.moved distance)) (some entity) :=
  ⟨stop_moved distance entity, preceding?_moved distance entity⟩

/-- The last of some entities that are moved is ahead of the last one of them. -/
theorem ahead_getLast? (distance : Nat) {entities : List Entity} (hnonempty : entities ≠ []) :
    Ahead distance (entities.map (moved distance)).getLast? entities.getLast? := by
  rw [List.getLast?_map, List.getLast?_eq_some_getLast hnonempty]
  exact ahead_some distance _

end Entity

open Entity (moved Ahead)

section

variable {scanner : Scanner} {data : ByteArray} {start : Nat}

/-! ## What a round records in the suffix -/

/-- The gap is classified in the same way. -/
theorem Content.ofGap_moved (raw : ByteArray) (preceding : Option Nat) (distance : Nat) :
    ofGap raw (preceding.map (distance + ·)) = (ofGap raw preceding).moved distance := by
  unfold ofGap
  cases preceding with
  | none => split <;> rfl
  | some offset =>
    dsimp only [Option.map_some]
    split
    · rfl
    · split <;> rfl

/-- The entity of a range of the buffer is that of the suffix, moved. -/
theorem Entity.between_suffix (data : ByteArray) (start first stop : Nat)
    {far near : ByteArray → Content} (hcontent : ∀ raw, far raw = (near raw).moved start) :
    between data (start + first) (start + stop) far =
      (between (suffix data start) first stop near).map (moved start) := by
  unfold between
  rw [Bytes.extract_suffix]
  by_cases hlt : first < stop
  · rw [if_pos (by omega), if_pos hlt, hcontent]
    rfl
  · rw [if_neg (by omega), if_neg hlt]
    rfl

/-- A gap of the buffer is that of the suffix, moved, if the entity in front of it is. -/
theorem Entity.Ahead.gap_eq {previous other : Option Entity} (h : Ahead start previous other)
    (stop : Nat) :
    gap data previous (start + stop) = (gap (suffix data start) other stop).map (moved start) := by
  unfold gap
  rw [h.endOf_eq, h.preceding_eq]
  exact Entity.between_suffix data start _ _ fun raw => Content.ofGap_moved raw _ start

/-- The padding in the buffer is that in the suffix, moved. -/
theorem Template.padding_suffix (hstart : start ≤ data.size) (haligned : start % 4 = 0)
    (template : Template) (position : Nat) :
    template.padding data (start + position) =
      (template.padding (suffix data start) position).map (moved start) := by
  have hsize := Bytes.add_size_suffix hstart
  have hstop : min (Arguments.alignUp (start + position)) data.size =
      start + min (Arguments.alignUp position) (suffix data start).size := by
    rw [Arguments.alignUp_add haligned]
    omega
  unfold padding
  split
  · rw [hstop]
    exact Entity.between_suffix data start _ _ fun _ => rfl
  · rfl

/-- A position of the suffix is a candidate exactly when that of the buffer is one. -/
theorem Scanner.isCandidate_suffix (scanner : Scanner) (data : ByteArray) (start position : Nat) :
    scanner.isCandidate data (start + position) =
      scanner.isCandidate (suffix data start) position := by
  unfold isCandidate
  rw [Bytes.getElem?_suffix, Bytes.signatureAt_suffix]
  cases Bytes.signatureAt (suffix data start) position <;> rfl

/-- The next candidate of the buffer is that of the suffix. -/
theorem Scanner.next?_suffix (scanner : Scanner) (data : ByteArray) (start position : Nat) :
    scanner.next? data (start + position) =
      (scanner.next? (suffix data start) position).map (start + ·) := by
  have hsize := Bytes.size_suffix data start
  have htest : (fun position => scanner.isCandidate data (start + position)) =
      scanner.isCandidate (suffix data start) :=
    funext fun position => scanner.isCandidate_suffix data start position
  unfold next?
  rw [← htest]
  rcases Nat.lt_or_ge 3 (suffix data start).size with hlong | hshort
  · have hstop : data.size - 3 = start + ((suffix data start).size - 3) := by omega
    rw [hstop, Search.first_add]
  · -- There is no room for a signature in the suffix, and so neither search has anything to test.
    have hnone : ¬ position < (suffix data start).size - 3 := by omega
    have hnone' : ¬ start + position < data.size - 3 := by omega
    rw [Search.first, if_neg hnone', Search.first, if_neg hnone]
    rfl

/-- A jump table of the buffer is that of the suffix, moved. -/
theorem Scanner.jumpTable_suffix (scanner : Scanner) (data : ByteArray) (start : Nat)
    (signature : UInt32) (position : Nat) :
    scanner.jumpTable data signature (start + position) =
      (scanner.jumpTable (suffix data start) signature position).map (moved start) := by
  unfold jumpTable
  split
  · rw [scanner.next?_suffix]
    cases scanner.next? (suffix data start) position with
    | none => rfl
    | some stop => exact Entity.between_suffix data start _ _ fun _ => rfl
  · rfl

/-- What belongs to an instruction is as much further on. -/
theorem Scanner.belongings_suffix (hstart : start ≤ data.size) (haligned : start % 4 = 0)
    (scanner : Scanner) (instruction : Instruction) :
    scanner.belongings data (instruction.moved start) =
      (scanner.belongings (suffix data start) instruction).map (moved start) := by
  have hpadding : (instruction.moved start).template.padding data
      (instruction.moved start).toEntity.stop =
        (instruction.template.padding (suffix data start) instruction.toEntity.stop).map
          (moved start) := by
    rw [Entity.toEntity_moved, Entity.stop_moved]
    exact Template.padding_suffix hstart haligned instruction.template _
  -- The jump table starts behind the padding, which has moved with the instruction.
  have hbehind := (Entity.ahead_getLast? start (List.cons_ne_nil instruction.toEntity
    (instruction.template.padding (suffix data start) instruction.toEntity.stop))).endOf_eq
  rw [List.map_cons] at hbehind
  rw [belongings_eq hpadding, Entity.toEntity_moved, hbehind, scanner.jumpTable_suffix,
    belongings_eq rfl, List.map_append]
  rfl

/-- An unknown instruction of the buffer is that of the suffix, moved. -/
theorem Scanner.unknownAt_suffix (hstart : start ≤ data.size) (scanner : Scanner)
    (candidate : Nat) (signature : UInt32) :
    scanner.unknownAt data (start + candidate) signature =
      (scanner.unknownAt (suffix data start) candidate signature).moved start := by
  have hsize := Bytes.add_size_suffix hstart
  have hstop : (scanner.next? data (start + candidate + signatureSize)).getD data.size =
      start + (scanner.next? (suffix data start) (candidate + signatureSize)).getD
        (suffix data start).size := by
    rw [Nat.add_assoc, scanner.next?_suffix]
    cases scanner.next? (suffix data start) (candidate + signatureSize) with
    | none => exact hsize.symm
    | some stop => rfl
  unfold unknownAt
  rw [hstop, Bytes.extract_suffix]
  rfl

/-! ## The scan of the suffix -/

/-- A scan of the suffix, as far behind a scan of the buffer as the suffix is cut off, records the
same entities at that distance. -/
theorem Course.suffix (hstart : start ≤ data.size) (haligned : start % 4 = 0)
    {previous other : Option Entity} {entities : List Entity} {outcome : Option Failure}
    (h : Course scanner data previous entities outcome) (hfinished : outcome = none)
    (hahead : Ahead start previous other) :
    ∃ rest, Course scanner (Bytes.suffix data start) other rest none ∧
      entities = rest.map (moved start) := by
  have hsize := Bytes.add_size_suffix hstart
  -- The rounds of the two scans correspond: the same gap up to the same candidate, the same
  -- instruction with the same belongings, and the scans go on at the same distance.
  induction h generalizing other with
  | finished hnext =>
    rw [hahead.endOf_eq, scanner.next?_suffix, Option.map_eq_none_iff] at hnext
    refine ⟨_, .finished hnext, ?_⟩
    rw [← hahead.gap_eq, hsize]
  | failed => simp at hfinished
  | known hnext hsignature htemplate hdecode hrest ih =>
    rw [hahead.endOf_eq, scanner.next?_suffix, Option.map_eq_some_iff] at hnext
    obtain ⟨candidate, hnext, rfl⟩ := hnext
    obtain ⟨instruction, hother, rfl⟩ := Instruction.decode_suffix hstart haligned hdecode
    have hread := Bytes.signatureAt_of_suffix hsignature
    have hround : (instruction.moved start).toEntity ::
        scanner.belongings data (instruction.moved start) =
          (instruction.toEntity :: scanner.belongings (Bytes.suffix data start) instruction).map
            (moved start) := by
      rw [scanner.belongings_suffix hstart haligned, Entity.toEntity_moved, List.map_cons]
    rw [hround] at ih ⊢
    obtain ⟨rest, hcourse, rfl⟩ :=
      ih hfinished (Entity.ahead_getLast? start (List.cons_ne_nil _ _))
    refine ⟨_, .known hnext hread htemplate hother hcourse, ?_⟩
    rw [hahead.gap_eq, List.map_append, List.map_append]
  | unknown hnext hsignature htemplate hrest ih =>
    rw [hahead.endOf_eq, scanner.next?_suffix, Option.map_eq_some_iff] at hnext
    obtain ⟨candidate, hnext, rfl⟩ := hnext
    have hread := Bytes.signatureAt_of_suffix hsignature
    rw [scanner.unknownAt_suffix hstart] at ih ⊢
    obtain ⟨rest, hcourse, rfl⟩ := ih hfinished (Entity.ahead_some start _)
    refine ⟨_, .unknown hnext hread htemplate hcourse, ?_⟩
    rw [hahead.gap_eq, List.map_append, List.map_append, List.map_singleton]

end

/-- A script goes on from the entity of the given index, which is `distance` bytes into the buffer,
as the script of the bytes from there on does. -/
structure Script.Resumes (script suffix : Script) (index distance : Nat) : Prop where
  /-- The buffer has as many bytes more. -/
  size_eq : script.size = distance + suffix.size
  /-- The entities are the same at that distance. -/
  entities_eq :
    script.entities.toList.drop index = suffix.entities.toList.map (Entity.moved distance)
  /-- Left-out arguments have the same supposed size, their instruction being moved with them. -/
  supposedSize_eq : ∀ i entity other offset, script.entities[index + i]? = some entity →
    suffix.entities[i]? = some other → other.content = .leftOut offset →
      entity.content = .leftOut (distance + offset) ∧
        entity.supposedSize (distance + offset) = other.supposedSize offset
  /-- The known instructions are those in front and those of the suffix. -/
  instructionCount_eq : script.instructionCount =
    (script.entities.toList.take index).countP (·.kind == .instruction) + suffix.instructionCount
  /-- So are the unknown ones. -/
  unknownCount_eq : script.unknownCount =
    (script.entities.toList.take index).countP (·.kind == .unknown) + suffix.unknownCount
  /-- So are those that are cut off. -/
  cutOffCount_eq : script.cutOffCount =
    (script.entities.toList.take index).countP Entity.isCutOff + suffix.cutOffCount

/-- A script whose entities from an index on are those of another one, moved, resumes with it. -/
theorem Script.resumes_pushAll (front rest : List Entity) (size distance : Nat) :
    ((Script.ofSize (distance + size)).pushAll (front ++ rest.map (moved distance))).Resumes
      ((Script.ofSize size).pushAll rest) front.length distance := by
  have hcount : ∀ test : Entity → Bool, (∀ entity, test (entity.moved distance) = test entity) →
      (front ++ rest.map (moved distance)).countP test = front.countP test + rest.countP test := by
    -- What a counter asks of an entity does not depend on its offset.
    intro test htest
    rw [List.countP_append, List.countP_map]
    congr 2
    exact funext htest
  constructor
  · rw [size_pushAll, size_pushAll]
    rfl
  · rw [toList_ofSize_pushAll, toList_ofSize_pushAll, List.drop_left]
  · intro i entity other offset hentity hother hcontent
    rw [← Array.getElem?_toList, toList_ofSize_pushAll] at hentity hother
    rw [List.getElem?_append_right (Nat.le_add_right _ _), Nat.add_sub_cancel_left,
      List.getElem?_map, hother, Option.map_some] at hentity
    rw [← Option.some.inj hentity, Entity.supposedSize_moved]
    refine ⟨?_, rfl⟩
    rw [moved, hcontent, Content.moved]
  · rw [toList_ofSize_pushAll, List.take_left, instructionCount_pushAll, instructionCount_pushAll,
      hcount _ fun entity => by rw [Entity.kind_moved]]
    show 0 + _ = _ + (0 + _)
    omega
  · rw [toList_ofSize_pushAll, List.take_left, unknownCount_pushAll, unknownCount_pushAll,
      hcount _ fun entity => by rw [Entity.kind_moved]]
    show 0 + _ = _ + (0 + _)
    omega
  · rw [toList_ofSize_pushAll, List.take_left, cutOffCount_pushAll, cutOffCount_pushAll,
      hcount _ (Entity.isCutOff_moved distance)]
    show 0 + _ = _ + (0 + _)
    omega

/-- The bytes of a buffer from an instruction on, known or unknown, that starts on a word boundary
have a script, and the script of the whole buffer goes on from the instruction as it does. -/
theorem Scanner.scan_suffix {scanner : Scanner} {data : ByteArray} {script : Script}
    (hscan : scanner.scan data = .ok script) {index : Nat} {entity : Entity}
    (hentity : script.entities[index]? = some entity)
    (hkind : entity.kind = .instruction ∨ entity.kind = .unknown)
    (haligned : entity.offset % 4 = 0) :
    ∃ rest, scanner.scan (Bytes.suffix data entity.offset) = .ok rest ∧
      script.Resumes rest index entity.offset := by
  obtain ⟨front, back, hcourse, rfl, rfl⟩ := exists_split_of_scan hscan hentity
  have hsignature := Entity.signature?_ne_none_iff.2 hkind
  obtain ⟨-, -, hstop, -⟩ :=
    hcourse.tiles.of_mem (List.mem_append_right front List.mem_cons_self)
  have hstart : entity.offset ≤ data.size := by
    rw [Entity.stop] at hstop
    omega
  -- From the instruction on the scan is as good as new, and so the suffix is scanned beside it.
  have hbefore : endOf (some ⟨entity.offset, .empty, .rawSpan⟩) = entity.offset := rfl
  have hahead : Ahead entity.offset (some ⟨entity.offset, .empty, .rawSpan⟩) none := ⟨rfl, rfl⟩
  have hrestart := hcourse.restart rfl hsignature hbefore
  obtain ⟨rest, hsuffix, hmoved⟩ := hrestart.suffix hstart haligned rfl hahead
  refine ⟨(Script.ofSize (Bytes.suffix data entity.offset).size).pushAll rest, ?_, ?_⟩
  · exact scan_eq_ok_iff.2 ⟨rest, hsuffix, rfl⟩
  · rw [hmoved, ← Bytes.add_size_suffix hstart]
    exact Script.resumes_pushAll front rest _ entity.offset

/-- Behind a raw span, an end and the value that it left out go on as they do without the span. -/
theorem Scanner.scan_suffix_messages :
    ∃ script rest,
      Scanner.messages.scan
        ⟨#[9, 9, 9, 9, 0x25, 1, 0, 0, 0x40, 0, 0, 0, 5, 0, 0, 0]⟩ = .ok script ∧
      Scanner.messages.scan ⟨#[0x25, 1, 0, 0, 0x40, 0, 0, 0, 5, 0, 0, 0]⟩ = .ok rest ∧
      script.entities.toList.map Entity.kind = [.rawSpan, .instruction, .leftOut] ∧
      script.Resumes rest 1 4 := by
  have hview : (Scanner.messages.scan
      ⟨#[9, 9, 9, 9, 0x25, 1, 0, 0, 0x40, 0, 0, 0, 5, 0, 0, 0]⟩).toOption.map (fun script =>
        (script.entities.toList.map Entity.kind,
          script.entities[1]?.map fun entity => (entity.kind, entity.offset))) =
        some ([.rawSpan, .instruction, .leftOut], some (.instruction, 4)) := by decide +kernel
  have hsuffix : Bytes.suffix ⟨#[9, 9, 9, 9, 0x25, 1, 0, 0, 0x40, 0, 0, 0, 5, 0, 0, 0]⟩ 4 =
      ⟨#[0x25, 1, 0, 0, 0x40, 0, 0, 0, 5, 0, 0, 0]⟩ := by decide +kernel
  obtain ⟨script, hscan, hseen⟩ := Scanner.exists_script hview
  obtain ⟨hkinds, hentity⟩ := Prod.mk.inj hseen
  obtain ⟨entity, hentity, hat⟩ := Option.map_eq_some_iff.1 hentity
  obtain ⟨hkind, hoffset⟩ := Prod.mk.inj hat
  have haligned : entity.offset % 4 = 0 := by
    rw [hoffset]
  obtain ⟨rest, hrest, hresumes⟩ := Scanner.scan_suffix hscan hentity (Or.inl hkind) haligned
  rw [hoffset] at hresumes hrest
  rw [hsuffix] at hrest
  exact ⟨script, rest, hscan, hrest, hkinds, hresumes⟩

end PacScript
