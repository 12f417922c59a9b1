import Mathlib.Data.List.Sort
import PacScript.Proofs.Scan.Markers
import PacScript.Proofs.Script.Counters

/-!
# The indices of a script by signature

A script keeps, besides its entities, three counters and two indices by signature, one of the known
instructions and one of the unknown ones. Each index says of a signature which entities have it, so
that what it finds could as well be found by going through all entities (`Script.Indexes`). An index
has the entities of a signature by their offsets. So one that is added is found behind the others
only if it is behind them in the buffer (`Occurrences.toList_insert`), and appending an entity keeps
the index when its offset is greater than all before it (`Script.Indexes.pushAll`). The entities of
a scan tile the buffer, which makes their offsets ascend.

For the script of a scan the two indices have no signature in common, since an instruction is known
exactly when its signature has a template.
-/

namespace PacScript

namespace Occurrences

variable {occurrences : Occurrences} {signature other : UInt32} {offset index : Nat}

/-- The index that is added is under its signature and offset, and nothing else changes. -/
theorem byOffset_add :
    (occurrences.add signature offset index).byOffset other =
      if signature = other then (occurrences.byOffset other).insert offset index
      else occurrences.byOffset other := by
  unfold byOffset add
  rw [Std.TreeMap.getElem?_alter]
  simp only [Std.LawfulEqCmp.compare_eq_iff_eq]
  by_cases h : signature = other <;> simp [h]

/-- The signature of the index that is added is there, besides those that were. -/
theorem mem_add : other ∈ occurrences.add signature offset index ↔
    signature = other ∨ other ∈ occurrences := by
  unfold add
  rw [Std.TreeMap.mem_alter]
  simp only [Std.LawfulEqCmp.compare_eq_iff_eq]
  by_cases h : signature = other <;> simp [h]

section Listed

variable {byOffset : Std.TreeMap Nat Nat}

/-- The offsets of a signature are listed in ascending order. -/
theorem pairwise_toList (byOffset : Std.TreeMap Nat Nat) :
    byOffset.toList.Pairwise fun place next => place.1 < next.1 :=
  Std.TreeMap.ordered_keys_toList.imp Std.compare_eq_lt.1

/-- There is one way only to list the indices in ascending order of their offsets. -/
theorem toList_eq_of_mem_iff {places : List (Nat × Nat)}
    (hascending : places.Pairwise fun place next => place.1 < next.1)
    (hmem : ∀ offset index, byOffset[offset]? = some index ↔ (offset, index) ∈ places) :
    byOffset.toList = places := by
  apply List.Pairwise.eq_of_mem_iff (pairwise_toList byOffset) hascending
  intro place
  rw [← hmem place.1 place.2, ← Std.TreeMap.mem_toList_iff_getElem?_eq_some]

/-- What is added behind all offsets is listed last. -/
theorem toList_insert (hlast : ∀ place ∈ byOffset.toList, place.1 < offset) :
    (byOffset.insert offset index).toList = byOffset.toList ++ [(offset, index)] := by
  have hfound : ∀ other found, byOffset[other]? = some found → other < offset := by
    intro other found hother
    exact hlast (other, found) (Std.TreeMap.mem_toList_iff_getElem?_eq_some.2 hother)
  apply toList_eq_of_mem_iff
  · refine List.pairwise_append.2 ⟨pairwise_toList byOffset, List.pairwise_singleton _ _, ?_⟩
    intro place hplace next hnext
    rw [List.mem_singleton.1 hnext]
    exact hlast place hplace
  · intro other found
    rw [List.mem_append, List.mem_singleton, Std.TreeMap.mem_toList_iff_getElem?_eq_some,
      Std.TreeMap.getElem?_insert, Prod.mk.injEq]
    simp only [Std.LawfulEqCmp.compare_eq_iff_eq]
    split
    case isTrue heq =>
      -- Nothing was there under the offset, since all others are in front of it.
      subst heq
      have hnew : byOffset[offset]? ≠ some found := fun h => Nat.lt_irrefl _ (hfound _ _ h)
      rw [Option.some.injEq, eq_comm]
      simp [hnew]
    case isFalse hne => simp [Ne.symm hne]

end Listed

/-- The signatures of an index ascend. -/
theorem pairwise_keys (occurrences : Occurrences) : occurrences.keys.Pairwise (· < ·) :=
  Std.TreeMap.ordered_keys.imp Std.compare_eq_lt.1

end Occurrences

namespace Script

/-- An index has, for each signature, the entities with that signature, and no other signatures than
theirs. -/
structure Indexes (script : Script) (occurrences : Occurrences)
    (signature? : Entity → Option UInt32) : Prop where
  /-- What is indexed under an offset is an entity of the script with this offset. -/
  offset_eq : ∀ signature, ∀ place ∈ (occurrences.byOffset signature).toList,
    ∃ entity, script.entities[place.2]? = some entity ∧ entity.offset = place.1
  /-- The entities of a signature are found in order. -/
  indexed_eq : ∀ signature, script.indexed occurrences signature =
    script.entities.toList.filter (signature? · = some signature)
  /-- The signatures are those of entities. -/
  mem_iff : ∀ signature : UInt32, signature ∈ occurrences ↔
    ∃ entity ∈ script.entities, signature? entity = some signature

namespace Indexes

variable {script : Script} {occurrences : Occurrences} {signature? : Entity → Option UInt32}
  {entity : Entity}

/-- There is nothing to index without entities. -/
theorem empty (size : Nat) : (Script.ofSize size).Indexes ∅ signature? where
  offset_eq := by simp [Occurrences.byOffset]
  indexed_eq := by simp [indexed, ofSize, Occurrences.byOffset]
  mem_iff := by simp [ofSize]

/-- What is indexed stays where it is when an entity is appended. -/
theorem getElem?_push (h : script.Indexes occurrences signature?) (entity : Entity)
    {signature : UInt32} {place : Nat × Nat}
    (hplace : place ∈ (occurrences.byOffset signature).toList) :
    (script.push entity).entities[place.2]? = script.entities[place.2]? := by
  obtain ⟨found, hfound, -⟩ := h.offset_eq signature place hplace
  have hlt : place.2 < script.entities.size := (Array.getElem?_eq_some_iff.1 hfound).1
  rw [entities_push, Array.getElem?_push, if_neg (Nat.ne_of_lt hlt)]

/-- What was indexed is found again when an entity is appended. -/
theorem indexed_push (h : script.Indexes occurrences signature?) (entity : Entity)
    (signature : UInt32) :
    (script.push entity).indexed occurrences signature =
      script.indexed occurrences signature := by
  unfold indexed
  apply List.filterMap_congr
  intro place hplace
  exact h.getElem?_push entity hplace

/-- An entity without a signature leaves the index as it is. -/
theorem push_of_none (h : script.Indexes occurrences signature?)
    (hentity : signature? entity = none) :
    (script.push entity).Indexes occurrences signature? where
  offset_eq signature place hplace := by
    rw [h.getElem?_push entity hplace]
    exact h.offset_eq signature place hplace
  indexed_eq signature := by
    rw [h.indexed_push, h.indexed_eq]
    simp [hentity]
  mem_iff signature := by
    rw [h.mem_iff]
    simp [hentity, or_and_right, exists_or]

/-- An entity behind all others in the buffer is listed behind them, under its own signature. -/
theorem toList_add (h : script.Indexes occurrences signature?)
    (hlast : ∀ other ∈ script.entities, other.offset < entity.offset) (signature other : UInt32) :
    ((occurrences.add signature entity.offset script.entities.size).byOffset other).toList =
      (occurrences.byOffset other).toList ++
        if signature = other then [(entity.offset, script.entities.size)] else [] := by
  rw [Occurrences.byOffset_add]
  split
  · apply Occurrences.toList_insert
    intro place hplace
    obtain ⟨found, hfound, hoffset⟩ := h.offset_eq other place hplace
    rw [← hoffset]
    exact hlast found (Array.mem_of_getElem? hfound)
  · rw [List.append_nil]

/-- An entity with a signature is added to the index, behind all others. -/
theorem push_of_some (h : script.Indexes occurrences signature?)
    (hlast : ∀ other ∈ script.entities, other.offset < entity.offset) {signature : UInt32}
    (hentity : signature? entity = some signature) :
    (script.push entity).Indexes
      (occurrences.add signature entity.offset script.entities.size) signature? where
  offset_eq other place hplace := by
    rw [h.toList_add hlast, List.mem_append] at hplace
    rcases hplace with hplace | hplace
    · rw [h.getElem?_push entity hplace]
      exact h.offset_eq other place hplace
    · split at hplace
      · rw [List.mem_singleton.1 hplace, entities_push]
        exact ⟨entity, Array.getElem?_push_size, rfl⟩
      · simp at hplace
  indexed_eq other := by
    have hold := h.indexed_push entity other
    rw [h.indexed_eq] at hold
    unfold indexed at hold ⊢
    rw [h.toList_add hlast, List.filterMap_append, hold, entities_push, Array.toList_push,
      List.filter_append]
    -- The entity itself stands behind those that were found before.
    by_cases hsignature : signature = other <;> simp [hentity, hsignature]
  mem_iff other := by
    rw [Occurrences.mem_add, h.mem_iff]
    simp [hentity, or_and_right, exists_or, or_comm]

/-- An index to which each entity is added under its signature and offset, if it has a signature,
has them all when the offsets ascend. -/
theorem pushAll (index : Script → Occurrences)
    (hpush : ∀ script entity, index (script.push entity) = (signature? entity).elim (index script)
      ((index script).add · entity.offset script.entities.size))
    (h : script.Indexes (index script) signature?) (entities : List Entity)
    (hascending : ((script.entities.toList ++ entities).map Entity.offset).Pairwise (· < ·)) :
    (script.pushAll entities).Indexes (index (script.pushAll entities)) signature? := by
  induction entities generalizing script with
  | nil => exact h
  | cons entity entities ih =>
    have hlast : ∀ other ∈ script.entities, other.offset < entity.offset := by
      intro other hother
      rw [List.map_append, List.pairwise_append] at hascending
      exact hascending.2.2 _ (List.mem_map_of_mem (Array.mem_toList_iff.2 hother)) _
        (List.mem_map_of_mem List.mem_cons_self)
    rw [pushAll_cons]
    apply ih
    · rw [hpush]
      cases hentity : signature? entity with
      | none => exact h.push_of_none hentity
      | some signature => exact h.push_of_some hlast hentity
    · rwa [entities_push, Array.toList_push, List.append_assoc, List.singleton_append]

end Indexes

end Script

/-- The signature of the known instruction that the entity is. -/
def Entity.knownSignature? (entity : Entity) : Option UInt32 :=
  entity.instruction?.map Instruction.signature

/-- A known instruction has the signature of its template. -/
theorem Entity.signature?_of_knownSignature? {entity : Entity} {signature : UInt32}
    (h : entity.knownSignature? = some signature) :
    entity.signature? = some signature ∧ entity.kind = .instruction := by
  obtain ⟨offset, raw, content⟩ := entity
  cases content with
  | instruction template cutOff parameters => exact ⟨h, rfl⟩
  | unknown | rawSpan | padding | messageTable | jumpTable | leftOut => cases h

/-- An unknown instruction has the signature that was found at it. -/
theorem Entity.signature?_of_unknown? {entity : Entity} {signature : UInt32}
    (h : entity.unknown? = some signature) :
    entity.signature? = some signature ∧ entity.kind = .unknown := by
  obtain ⟨offset, raw, content⟩ := entity
  cases content with
  | unknown found => exact ⟨h, rfl⟩
  | instruction | rawSpan | padding | messageTable | jumpTable | leftOut => cases h

namespace Script

section Found

variable {script : Script}

/-- The index of known instructions has each of them. -/
theorem indexes_known (size : Nat) {entities : List Entity}
    (hascending : (entities.map Entity.offset).Pairwise (· < ·)) :
    ((ofSize size).pushAll entities).Indexes ((ofSize size).pushAll entities).known
      Entity.knownSignature? := by
  refine Indexes.pushAll known ?_ (.empty size) entities hascending
  intro script entity
  obtain ⟨offset, raw, content⟩ := entity
  cases content <;> rfl

/-- The index of unknown instructions has each of them. -/
theorem indexes_unknown (size : Nat) {entities : List Entity}
    (hascending : (entities.map Entity.offset).Pairwise (· < ·)) :
    ((ofSize size).pushAll entities).Indexes ((ofSize size).pushAll entities).unknown
      Entity.unknown? := by
  refine Indexes.pushAll unknown ?_ (.empty size) entities hascending
  intro script entity
  obtain ⟨offset, raw, content⟩ := entity
  cases content <;> rfl

/-- The occurrences of a known signature are the instructions that have it. -/
theorem Indexes.instructionOccurrences_eq (h : script.Indexes script.known Entity.knownSignature?)
    (signature : UInt32) : script.instructionOccurrences signature =
      script.instructions.filter (·.signature = signature) := by
  unfold instructionOccurrences instructions
  rw [h.indexed_eq, List.filterMap_filter, List.filter_filterMap]
  apply List.filterMap_congr
  intro entity hentity
  cases hinstruction : entity.instruction? with
  | none => simp [Entity.knownSignature?, hinstruction]
  | some instruction =>
    by_cases hsignature : instruction.signature = signature <;>
      simp [Entity.knownSignature?, hinstruction, hsignature, Option.filter]

/-- The occurrences of an unknown signature are the unknown instructions that have it. -/
theorem Indexes.unknownOccurrences_eq (h : script.Indexes script.unknown Entity.unknown?)
    (signature : UInt32) : script.unknownOccurrences signature =
      script.entities.toList.filter (·.unknown? = some signature) := by
  unfold unknownOccurrences
  rw [h.indexed_eq, List.filter_filter]
  apply List.filter_congr
  intro entity hentity
  cases hunknown : entity.unknown? with
  | none => simp
  | some found => simp

/-- The signatures of known instructions are those that occur. -/
theorem Indexes.mem_instructionSignatures_iff
    (h : script.Indexes script.known Entity.knownSignature?) {signature : UInt32} :
    signature ∈ script.instructionSignatures ↔
      ∃ instruction ∈ script.instructions, instruction.signature = signature := by
  unfold instructionSignatures instructions
  rw [Std.TreeMap.mem_keys, h.mem_iff]
  constructor
  · intro hoccurs
    obtain ⟨entity, hentity, hsignature⟩ := hoccurs
    obtain ⟨instruction, hinstruction, heq⟩ := Option.map_eq_some_iff.1 hsignature
    exact ⟨instruction,
      List.mem_filterMap.2 ⟨entity, Array.mem_toList_iff.2 hentity, hinstruction⟩, heq⟩
  · intro hoccurs
    obtain ⟨instruction, hmem, heq⟩ := hoccurs
    obtain ⟨entity, hentity, hinstruction⟩ := List.mem_filterMap.1 hmem
    exact ⟨entity, Array.mem_toList_iff.1 hentity,
      Option.map_eq_some_iff.2 ⟨instruction, hinstruction, heq⟩⟩

/-- The signatures of unknown instructions are those that occur. -/
theorem Indexes.mem_unknownSignatures_iff
    (h : script.Indexes script.unknown Entity.unknown?) {signature : UInt32} :
    signature ∈ script.unknownSignatures ↔
      ∃ entity ∈ script.entities, entity.unknown? = some signature := by
  unfold unknownSignatures
  rw [Std.TreeMap.mem_keys, h.mem_iff]

end Found

/-- The counters and the indices of a script say what going through its entities would show. -/
structure Consistent (script : Script) : Prop where
  /-- The known instructions are counted. -/
  instructionCount_eq :
    script.instructionCount = script.entities.toList.countP (·.kind == .instruction)
  /-- The unknown instructions are counted. -/
  unknownCount_eq : script.unknownCount = script.entities.toList.countP (·.kind == .unknown)
  /-- The known instructions that are cut off are counted. -/
  cutOffCount_eq : script.cutOffCount = script.entities.toList.countP Entity.isCutOff
  /-- The index finds the known instructions with a signature, each once and in order. -/
  instructionOccurrences_eq : ∀ signature, script.instructionOccurrences signature =
    script.instructions.filter (·.signature = signature)
  /-- The index finds the unknown instructions with a signature, each once and in order. -/
  unknownOccurrences_eq : ∀ signature, script.unknownOccurrences signature =
    script.entities.toList.filter (·.unknown? = some signature)
  /-- No two entities, and so no two occurrences of a signature, are at one offset. -/
  ascending : (script.entities.toList.map Entity.offset).Pairwise (· < ·)
  /-- The signatures of known instructions ascend strictly. -/
  instructionSignatures_ascending : script.instructionSignatures.Pairwise (· < ·)
  /-- The signatures of unknown instructions ascend strictly. -/
  unknownSignatures_ascending : script.unknownSignatures.Pairwise (· < ·)
  /-- The signatures of known instructions are those that occur. -/
  mem_instructionSignatures_iff : ∀ signature, signature ∈ script.instructionSignatures ↔
    ∃ instruction ∈ script.instructions, instruction.signature = signature
  /-- The signatures of unknown instructions are those that occur. -/
  mem_unknownSignatures_iff : ∀ signature, signature ∈ script.unknownSignatures ↔
    ∃ entity ∈ script.entities, entity.unknown? = some signature
  /-- No signature is known in one place and unknown in another. -/
  disjoint : ∀ signature ∈ script.instructionSignatures, signature ∉ script.unknownSignatures

end Script

/-- What a scan records has no signature both of a known and of an unknown instruction, since the
registry has a template for it or has none. -/
theorem Course.unknown?_ne {scanner : Scanner} {data : ByteArray} {previous : Option Entity}
    {entities : List Entity} {outcome : Option Failure}
    (h : Course scanner data previous entities outcome) {known other : Entity}
    {signature : UInt32} (hknown : known ∈ entities) (hother : other ∈ entities)
    (hsignature : known.knownSignature? = some signature) : other.unknown? ≠ some signature := by
  intro hunknown
  obtain ⟨hfound, hkind⟩ := Entity.signature?_of_knownSignature? hsignature
  obtain ⟨hfoundOther, hkindOther⟩ := Entity.signature?_of_unknown? hunknown
  have htemplate := ((h.accounts known hknown).known_iff hfound).1 hkind
  have hkindKnown := ((h.accounts other hother).known_iff hfoundOther).2 htemplate
  rw [hkindOther] at hkindKnown
  cases hkindKnown

/-- The counters of the script of a scan count its entities, and its indices find the entities with
a signature, as going through all of them would. No signature is in both indices. -/
theorem Scanner.scan_consistent {scanner : Scanner} {data : ByteArray} {script : Script}
    (h : scanner.scan data = .ok script) : script.Consistent := by
  obtain ⟨entities, hcourse, rfl⟩ := scan_eq_ok_iff.1 h
  have hentities := Script.toList_ofSize_pushAll data.size entities
  have hascending := hcourse.tiles.pairwise_offset
  have hknown := Script.indexes_known data.size hascending
  have hunknown := Script.indexes_unknown data.size hascending
  constructor
  · rw [hentities, Script.instructionCount_pushAll]
    exact Nat.zero_add _
  · rw [hentities, Script.unknownCount_pushAll]
    exact Nat.zero_add _
  · rw [hentities, Script.cutOffCount_pushAll]
    exact Nat.zero_add _
  · exact hknown.instructionOccurrences_eq
  · exact hunknown.unknownOccurrences_eq
  · rw [hentities]
    exact hascending
  · exact Occurrences.pairwise_keys _
  · exact Occurrences.pairwise_keys _
  · intro signature
    exact hknown.mem_instructionSignatures_iff
  · intro signature
    exact hunknown.mem_unknownSignatures_iff
  · intro signature hmem hother
    have hlist : ∀ entity, entity ∈ ((Script.ofSize data.size).pushAll entities).entities →
        entity ∈ entities := by
      intro entity hentity
      rwa [← Array.mem_toList_iff, hentities] at hentity
    obtain ⟨known, hmemKnown, hsignature⟩ := (hknown.mem_iff signature).1
      (Std.TreeMap.mem_keys.1 hmem)
    obtain ⟨other, hmemOther, hunknownOther⟩ := (hunknown.mem_iff signature).1
      (Std.TreeMap.mem_keys.1 hother)
    exact hcourse.unknown?_ne (hlist known hmemKnown) (hlist other hmemOther) hsignature
      hunknownOther

/-- Two ends and two unknown instructions with one signature, one of which is between the ends, are
counted and found. -/
theorem Scanner.scan_consistent_messages :
    ∃ script, Scanner.messages.scan ⟨#[0x25, 9, 0, 0, 0x25, 1, 0, 0, 0x25, 9, 0, 0, 7, 0x25, 1, 0, 0,
        0x25, 7, 0, 0x12, 0x20]⟩ = .ok script ∧
      script.instructionSignatures = [0x25010000, 0x25070012] ∧
      (script.instructionOccurrences 0x25010000).map (·.offset) = [4, 13] ∧
      (script.unknownOccurrences 0x25090000).map (·.offset) = [0, 8] ∧ script.cutOffCount = 1 ∧
      script.Consistent := by
  have hseen : (Scanner.messages.scan ⟨#[0x25, 9, 0, 0, 0x25, 1, 0, 0, 0x25, 9, 0, 0, 7, 0x25, 1, 0,
      0, 0x25, 7, 0, 0x12, 0x20]⟩).toOption.map (fun script =>
        (script.instructionSignatures,
          (script.instructionOccurrences 0x25010000).map (·.offset),
          (script.unknownOccurrences 0x25090000).map (·.offset), script.cutOffCount)) =
        some ([0x25010000, 0x25070012], [4, 13], [0, 8], 1) := by decide +kernel
  obtain ⟨script, hscan, hview⟩ := Scanner.exists_script hseen
  simp only [Prod.mk.injEq] at hview
  obtain ⟨hsignatures, hends, hunknown, hcut⟩ := hview
  exact ⟨script, hscan, hsignatures, hends, hunknown, hcut, Scanner.scan_consistent hscan⟩

end PacScript
