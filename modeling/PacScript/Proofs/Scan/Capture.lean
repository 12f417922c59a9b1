import Mathlib.Data.List.Forall2
import PacScript.Proofs.Scan.Gaps
import PacScript.Proofs.Scan.Restart
import PacScript.Proofs.Script.Counters

/-!
# What the capture of jump tables changes

A scan that captures jump tables records the bytes behind an indexed jump, up to the next candidate,
as the branch offsets of the jump. A scan that does not leaves the same bytes to the gap in front of
the next candidate. Both go on from there in the same way, as a scan remembers nothing at a
candidate (`Course.anew`), so that they record the same entities except that a jump table of the one
is a gap of the other (`Course.uncaptured`).
-/

namespace PacScript

open Entity (endOf gap)

/-- The scanner that captures jump tables, or does not, and is otherwise the same. -/
def Scanner.capturing (scanner : Scanner) (capture : Bool) : Scanner :=
  { scanner with captureJumpTables := capture }

/-- The other entity is the same one, or covers the bytes of a jump table as a gap. -/
inductive Entity.Reclassified : Entity → Entity → Prop where
  /-- What is no jump table stays. -/
  | same {entity : Entity} (hkind : entity.kind ≠ .jumpTable) : Reclassified entity entity
  /-- A jump table is a gap. -/
  | table {entity other : Entity} (hkind : entity.kind = .jumpTable)
      (hgap : other.kind.isGap = true) (hoffset : other.offset = entity.offset)
      (hraw : other.raw = entity.raw) : Reclassified entity other

open Entity (Reclassified)
open List (Forall₂)

/-! ## Entities that are classified anew -/

/-- Entities among which there is no jump table may stay. -/
theorem Entity.forall₂_reclassified_refl {entities : List Entity}
    (h : ∀ entity ∈ entities, entity.kind ≠ .jumpTable) :
    Forall₂ Reclassified entities entities :=
  List.forall₂_same.2 fun entity hmem => .same (h entity hmem)

/-- An entity that is classified otherwise stays at its offset. -/
theorem Entity.Reclassified.offset_eq {entity other : Entity} (h : Reclassified entity other) :
    entity.offset = other.offset := by
  cases h with
  | same => rfl
  | table hkind hgap hoffset hraw => exact hoffset.symm

/-- An entity that is classified otherwise keeps its bytes. -/
theorem Entity.Reclassified.raw_eq {entity other : Entity} (h : Reclassified entity other) :
    entity.raw = other.raw := by
  cases h with
  | same => rfl
  | table hkind hgap hoffset hraw => exact hraw.symm

/-- What an entity has in common with each that it is classified as, the lists have in common. -/
theorem Entity.map_eq_of_reclassified {α : Type} {view : Entity → α}
    {entities others : List Entity} (h : Forall₂ Reclassified entities others)
    (hview : ∀ entity other, Reclassified entity other → view entity = view other) :
    entities.map view = others.map view := by
  induction h with
  | nil => rfl
  | cons hhead htail ih => rw [List.map_cons, List.map_cons, hview _ _ hhead, ih]

/-- The instructions, known or unknown, stay. -/
theorem Entity.filter_eq_of_reclassified {test : Entity → Bool} {entities others : List Entity}
    (h : Forall₂ Reclassified entities others)
    (htest : ∀ entity, test entity = true → entity.kind = .instruction ∨ entity.kind = .unknown) :
    entities.filter test = others.filter test := by
  induction h with
  | nil => rfl
  | @cons entity other entities others hhead htail ih =>
    cases hhead with
    | same hkind => rw [List.filter_cons, List.filter_cons, ih]
    | table hkind hgap hoffset hraw =>
      have hentity : ¬ test entity = true := by
        intro hpass
        have hinstruction := htest entity hpass
        simp [hkind] at hinstruction
      have hother : ¬ test other = true := by
        intro hpass
        rcases htest other hpass with hinstruction | hinstruction
        all_goals simp [hinstruction, EntityKind.isGap] at hgap
      rw [List.filter_cons_of_neg hentity, List.filter_cons_of_neg hother, ih]

section

variable {scanner : Scanner} {data : ByteArray}

/-! ## The course without the capture -/

/-- Without the capture there are no jump tables. -/
theorem Scanner.jumpTable_capturing_false (scanner : Scanner) (data : ByteArray)
    (signature : UInt32) (start : Nat) :
    (scanner.capturing false).jumpTable data signature start = [] := by
  unfold jumpTable
  rw [if_neg]
  simp [expectsJumpTable, capturing]

/-- A jump table is empty, and then there is none, or it goes up to the next candidate. -/
theorem Scanner.jumpTable_eq_nil_or (scanner : Scanner) (data : ByteArray) (signature : UInt32)
    (start : Nat) :
    scanner.jumpTable data signature start = [] ∨
      ∃ stop, scanner.next? data start = some stop ∧ start < stop ∧
        scanner.jumpTable data signature start =
          [⟨start, data.extract start stop, .jumpTable⟩] := by
  unfold jumpTable Entity.between
  split
  · split
    · rename_i stop hnext
      by_cases hlt : start < stop
      · rw [if_pos hlt]
        exact Or.inr ⟨stop, hnext, hlt, rfl⟩
      · rw [if_neg hlt]
        exact Or.inl rfl
    · exact Or.inl rfl
  · exact Or.inl rfl

/-- Padding is no jump table. -/
theorem Template.kind_of_mem_padding {template : Template} {start : Nat} {entity : Entity}
    (h : entity ∈ template.padding data start) : entity.kind ≠ .jumpTable := by
  rw [Entity.kind, content_of_mem_padding h]
  simp [Content.kind]

/-- A gap is no jump table. -/
theorem Entity.kind_of_mem_gap {previous : Option Entity} {stop : Nat} {entity : Entity}
    (h : entity ∈ gap data previous stop) : entity.kind ≠ .jumpTable := by
  have hgap := isGap_of_mem_gap h
  intro hkind
  simp [hkind, EntityKind.isGap] at hgap

/-- A jump table is the gap of the same bytes, if there are any. -/
theorem Entity.reclassified_gap {previous : Option Entity} {stop : Nat}
    (hlt : endOf previous < stop) :
    Forall₂ Reclassified
      [⟨endOf previous, data.extract (endOf previous) stop, .jumpTable⟩]
      (gap data previous stop) := by
  unfold gap between
  rw [if_pos hlt]
  exact .cons (.table rfl (Content.isGap_ofGap _ _) rfl rfl) .nil

/-- Without the capture a scan takes the same course, with a gap for each jump table. -/
theorem Course.uncaptured {previous : Option Entity} {entities : List Entity}
    {outcome : Option Failure}
    (h : Course (scanner.capturing true) data previous entities outcome) :
    ∃ others, Course (scanner.capturing false) data previous others outcome ∧
      Forall₂ Reclassified entities others := by
  induction h with
  | finished hnext =>
    exact ⟨_, .finished hnext, Entity.forall₂_reclassified_refl fun _ => Entity.kind_of_mem_gap⟩
  | failed hnext hsignature htemplate hdecode =>
    exact ⟨_, .failed hnext hsignature htemplate hdecode,
      Entity.forall₂_reclassified_refl fun _ => Entity.kind_of_mem_gap⟩
  | @known previous candidate signature template instruction rest outcome hnext hsignature
      htemplate hdecode hrest ih =>
    obtain ⟨others, hothers, hrelated⟩ := ih
    -- Both scans record the gap, the instruction and its padding; these stay.
    have hgap : Forall₂ Reclassified (gap data previous candidate) (gap data previous candidate) :=
      Entity.forall₂_reclassified_refl fun _ => Entity.kind_of_mem_gap
    have hpadded : Forall₂ Reclassified
        (instruction.toEntity :: instruction.template.padding data instruction.toEntity.stop)
        (instruction.toEntity :: instruction.template.padding data instruction.toEntity.stop) :=
      .cons (.same (by simp [Entity.kind, Instruction.toEntity, Content.kind]))
        (Entity.forall₂_reclassified_refl fun _ => Template.kind_of_mem_padding)
    have huncaptured : (scanner.capturing false).belongings data instruction =
        instruction.template.padding data instruction.toEntity.stop := by
      rw [Scanner.belongings_eq rfl, Scanner.jumpTable_capturing_false, List.append_nil]
    have hcaptured : (scanner.capturing true).belongings data instruction = _ :=
      Scanner.belongings_eq rfl
    rcases (scanner.capturing true).jumpTable_eq_nil_or data instruction.signature
      (endOf (instruction.toEntity ::
        instruction.template.padding data instruction.toEntity.stop).getLast?) with
      hnone | ⟨stop, hstop, hlt, htable⟩
    · rw [hnone, List.append_nil] at hcaptured
      rw [hcaptured, ← huncaptured] at hothers
      refine ⟨_, .known hnext hsignature htemplate hdecode hothers, ?_⟩
      rw [hcaptured, huncaptured]
      exact List.rel_append (List.rel_append hgap hpadded) hrelated
    · -- The scan without the capture goes on behind the padding, and so with a gap.
      rw [htable] at hcaptured
      obtain ⟨-, ⟨found, hfound⟩, -⟩ := Scanner.next?_eq_some_iff.1 hstop
      have hsize := hfound.size
      have hend := Entity.stop_extract (Nat.le_of_lt hlt) (by omega : stop ≤ data.size) .jumpTable
      rw [hcaptured, ← List.cons_append, List.getLast?_concat] at hothers
      have hanew := hothers.anew (hstop.trans (congrArg some hend.symm))
      change endOf (some _) = stop at hend
      rw [hend, ← huncaptured] at hanew
      refine ⟨_, .known hnext hsignature htemplate hdecode hanew, ?_⟩
      rw [hcaptured, huncaptured, ← List.cons_append, ← List.append_assoc, List.append_assoc _ [_]]
      exact List.rel_append (List.rel_append hgap hpadded)
        (List.rel_append (Entity.reclassified_gap hlt) hrelated)
  | @unknown previous candidate signature rest outcome hnext hsignature htemplate hrest ih =>
    obtain ⟨others, hothers, hrelated⟩ := ih
    have hgap : Forall₂ Reclassified (gap data previous candidate) (gap data previous candidate) :=
      Entity.forall₂_reclassified_refl fun _ => Entity.kind_of_mem_gap
    have hunknown : Reclassified ((scanner.capturing true).unknownAt data candidate signature)
        ((scanner.capturing false).unknownAt data candidate signature) :=
      .same (by simp [Entity.kind, Scanner.unknownAt, Content.kind])
    exact ⟨_, .unknown hnext hsignature htemplate hothers,
      List.rel_append (List.rel_append hgap (.cons hunknown .nil)) hrelated⟩

end

/-! ## The scripts with and without the capture -/

/-- The other script is the same but for jump tables, whose bytes it has as gaps. -/
structure Script.Reclassifies (script other : Script) : Prop where
  /-- They are scripts of as many bytes. -/
  size_eq : script.size = other.size
  /-- The entities are the same, one by one, except that jump tables are gaps. -/
  entities : Forall₂ Reclassified script.entities.toList other.entities.toList
  /-- They start in the same places. -/
  offsets_eq : script.offsets = other.offsets
  /-- They have the same sizes. -/
  sizes_eq : script.entities.toList.map Entity.size = other.entities.toList.map Entity.size
  /-- The instructions, known or unknown, are identical. -/
  instructions_eq : script.entities.toList.filter (·.signature?.isSome) =
    other.entities.toList.filter (·.signature?.isSome)
  /-- The counter of known instructions is the same. -/
  instructionCount_eq : script.instructionCount = other.instructionCount
  /-- The counter of unknown instructions is the same. -/
  unknownCount_eq : script.unknownCount = other.unknownCount
  /-- The counter of cut-off instructions is the same. -/
  cutOffCount_eq : script.cutOffCount = other.cutOffCount

/-- Scripts of reclassified entities are reclassified. -/
theorem Script.reclassifies_pushAll {entities others : List Entity}
    (h : Forall₂ Reclassified entities others) (size : Nat) :
    ((Script.ofSize size).pushAll entities).Reclassifies
      ((Script.ofSize size).pushAll others) := by
  -- A counter counts instructions of one sort, and these stay.
  have hcount : ∀ test : Entity → Bool, (∀ entity, test entity = true →
      entity.kind = .instruction ∨ entity.kind = .unknown) →
        entities.countP test = others.countP test := by
    intro test htest
    rw [List.countP_eq_length_filter, List.countP_eq_length_filter,
      Entity.filter_eq_of_reclassified h htest]
  constructor
  · rw [size_pushAll, size_pushAll]
  · rw [toList_ofSize_pushAll, toList_ofSize_pushAll]
    exact h
  · unfold offsets
    rw [toList_ofSize_pushAll, toList_ofSize_pushAll]
    exact Entity.map_eq_of_reclassified h fun _ _ => Entity.Reclassified.offset_eq
  · rw [toList_ofSize_pushAll, toList_ofSize_pushAll]
    exact Entity.map_eq_of_reclassified h fun _ _ hrelated =>
      congrArg ByteArray.size hrelated.raw_eq
  · rw [toList_ofSize_pushAll, toList_ofSize_pushAll]
    apply Entity.filter_eq_of_reclassified h
    intro entity hsome
    exact Entity.signature?_ne_none_iff.1 (Option.isSome_iff_ne_none.1 hsome)
  · rw [instructionCount_pushAll, instructionCount_pushAll, hcount]
    intro entity hkind
    exact Or.inl (eq_of_beq hkind)
  · rw [unknownCount_pushAll, unknownCount_pushAll, hcount]
    intro entity hkind
    exact Or.inr (eq_of_beq hkind)
  · rw [cutOffCount_pushAll, cutOffCount_pushAll, hcount]
    intro entity hcutOff
    obtain ⟨offset, raw, content⟩ := entity
    cases content <;> simp [Entity.isCutOff, Entity.instruction?] at hcutOff
    exact Or.inl rfl

/-- A scan with the capture of jump tables and one without fail with the same failure, or give the
same script except that the bytes of jump tables are gaps in the other one. -/
theorem Scanner.scan_capturing (scanner : Scanner) (data : ByteArray) :
    (∃ failure, (scanner.capturing true).scan data = .error failure ∧
      (scanner.capturing false).scan data = .error failure) ∨
      ∃ script other, (scanner.capturing true).scan data = .ok script ∧
        (scanner.capturing false).scan data = .ok other ∧ script.Reclassifies other := by
  obtain ⟨entities, outcome, hcourse⟩ :=
    Scan.exists_course (scanner.capturing true) data (.ofSize data.size)
  obtain ⟨others, hother, hrelated⟩ := hcourse.uncaptured
  have hscan : (scanner.capturing true).scan data = _ := Scan.run_of_course hcourse rfl
  have hscan' : (scanner.capturing false).scan data = _ := Scan.run_of_course hother rfl
  cases outcome with
  | some failure => exact Or.inl ⟨failure, hscan, hscan'⟩
  | none =>
    exact Or.inr ⟨_, _, hscan, hscan', Script.reclassifies_pushAll hrelated data.size⟩

/-- The bytes behind a switch, an end in this scanner, are its jump table, or are left out. -/
example :
    let scanner := { Scanner.messages with indexedJump := some 0x25010000 }
    let data : ByteArray := ⟨#[0x25, 1, 0, 0, 0x40, 0, 0, 0, 5, 0, 0, 0, 0x25, 1, 0, 0]⟩
    let kinds (capture : Bool) := ((scanner.capturing capture).scan data).toOption.map fun script =>
      script.entities.toList.map Entity.kind
    kinds true = some [.instruction, .jumpTable, .instruction] ∧
      kinds false = some [.instruction, .leftOut, .instruction] := by
  decide +kernel

end PacScript
