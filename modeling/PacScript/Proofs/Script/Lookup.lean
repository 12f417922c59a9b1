import PacScript.Proofs.Scan.Tiling
import PacScript.Proofs.Search

/-!
# What is found at an offset

A script is looked up by bisection over the offsets of its entities. When the entities tile a
buffer, the bisection counts those that start at or before the offset, and the last one of these is
the only entity that contains it (`Entity.Tiles.startedBy_eq`). So a look-up by offset finds the
entity whose range has the offset in it, and fails only behind the end of the buffer
(`Script.Locates`).
-/

namespace PacScript

namespace Entity

variable {entity : Entity} {position : Nat}

/-- An entity contains the offsets from its own one up to its end. -/
theorem contains_iff :
    entity.contains position = true ↔ entity.offset ≤ position ∧ position < entity.stop := by
  rw [contains, Bool.and_eq_true, decide_eq_true_iff, decide_eq_true_iff]

end Entity

namespace Entity.Tiles

variable {data : ByteArray} {script : Script} {i j : Nat} {entity other : Entity} {offset : Nat}

/-- An entity of a tiling starts at or behind the end of each one in front of it. -/
theorem stop_le_offset {entities : List Entity} {start stop : Nat}
    (h : Tiles data start entities stop) (hlt : i < j) (hentity : entities[i]? = some entity)
    (hother : entities[j]? = some other) : entity.stop ≤ other.offset := by
  induction h generalizing i j with
  | nil => simp at hentity
  | @cons head rest start stop hoffset hsize hstop hraw hrest ih =>
    obtain ⟨j, rfl⟩ : ∃ k, j = k + 1 := ⟨j - 1, by omega⟩
    rw [List.getElem?_cons_succ] at hother
    cases i with
    | zero =>
      rw [List.getElem?_cons_zero] at hentity
      rw [← Option.some.inj hentity]
      exact (hrest.of_mem (List.mem_of_getElem? hother)).1
    | succ i =>
      rw [List.getElem?_cons_succ] at hentity
      exact ih (Nat.lt_of_succ_lt_succ hlt) hentity hother

variable (h : Tiles data 0 script.entities.toList data.size)
include h

/-- No entity of a script is empty. -/
theorem offset_lt_stop (hentity : script.entities[i]? = some entity) :
    entity.offset < entity.stop := by
  rw [← Array.getElem?_toList] at hentity
  have hsize := (h.of_mem (List.mem_of_getElem? hentity)).2.1
  rw [Entity.stop]
  omega

/-- The offsets of a script ascend with the indices. -/
theorem offset_lt_offset (hlt : i < j) (hentity : script.entities[i]? = some entity)
    (hother : script.entities[j]? = some other) : entity.offset < other.offset := by
  have hstop := h.offset_lt_stop hentity
  rw [← Array.getElem?_toList] at hentity hother
  exact Nat.lt_of_lt_of_le hstop (h.stop_le_offset hlt hentity hother)

/-- The bisection counts the entities that start at or before an offset. -/
theorem lt_startedBy_iff (hentity : script.entities[i]? = some entity) :
    i < script.startedBy offset ↔ entity.offset ≤ offset :=
  Search.lt_boundary_key_iff (fun _ _ _ _ => h.offset_lt_offset) hentity offset

/-- As many entities start at or before an offset as there are up to the one that contains it. -/
theorem startedBy_eq (hentity : script.entities[i]? = some entity)
    (hcontains : entity.contains offset = true) : script.startedBy offset = i + 1 := by
  obtain ⟨hle, hlt⟩ := contains_iff.1 hcontains
  have hhere : i < script.startedBy offset := (h.lt_startedBy_iff hentity).2 hle
  rcases Nat.eq_or_lt_of_le (Nat.succ_le_of_lt hhere) with heq | hmore
  · exact heq.symm
  · -- The next entity would start at or before the offset, which is in front of it.
    have hcount : script.startedBy offset ≤ script.entities.size :=
      (Search.boundary_mem _ (Nat.zero_le _)).2
    have hnext := Array.getElem?_eq_getElem (Nat.lt_of_lt_of_le hmore hcount)
    have hbefore := (h.lt_startedBy_iff hnext).1 hmore
    rw [← Array.getElem?_toList] at hentity hnext
    have hbehind := h.stop_le_offset (Nat.lt_succ_self i) hentity hnext
    omega

/-- Each offset of the buffer is in an entity. -/
theorem exists_getElem?_contains (hoffset : offset < data.size) :
    ∃ (i : Nat) (entity : Entity), script.entities[i]? = some entity ∧
      entity.contains offset = true := by
  obtain ⟨entity, hmem, hcontains⟩ := h.exists_contains (Nat.zero_le offset) hoffset
  obtain ⟨i, hentity⟩ := List.mem_iff_getElem?.1 hmem
  exact ⟨i, entity, by rwa [Array.getElem?_toList] at hentity, hcontains⟩

/-- The offsets that an entity contains are in the buffer. -/
theorem lt_size_of_contains (hentity : script.entities[i]? = some entity)
    (hcontains : entity.contains offset = true) : offset < data.size := by
  rw [← Array.getElem?_toList] at hentity
  have hstop := (h.of_mem (List.mem_of_getElem? hentity)).2.2.1
  exact Nat.lt_of_lt_of_le (contains_iff.1 hcontains).2 hstop

end Entity.Tiles

namespace Script

/-- A look-up in the script of a buffer finds the entity whose range has the offset in it. -/
structure Locates (script : Script) (data : ByteArray) (offset : Nat) : Prop where
  /-- Nothing is found only behind the end of the buffer. -/
  entityAt?_eq_none_iff : script.entityAt? offset = none ↔ data.size ≤ offset
  /-- The index that is found is that of the entity that contains the offset. -/
  indexAt?_eq_some_iff : ∀ i, script.indexAt? offset = some i ↔
    ∃ entity, script.entities[i]? = some entity ∧ entity.contains offset = true
  /-- What is found is the only entity that contains the offset. -/
  entityAt?_eq_some_iff : ∀ entity, script.entityAt? offset = some entity ↔
    entity ∈ script.entities ∧ entity.offset ≤ offset ∧ offset < entity.stop
  /-- In the buffer, it is the entity with the greatest start that is not above the offset. -/
  entityAt?_eq_some_iff_greatest : offset < data.size → ∀ entity,
    script.entityAt? offset = some entity ↔ entity ∈ script.entities ∧ entity.offset ≤ offset ∧
      ∀ other ∈ script.entities, other.offset ≤ offset → other.offset ≤ entity.offset
  /-- An entity is found by its start, and only by this. -/
  startingAt?_eq_some_iff : ∀ entity, script.startingAt? offset = some entity ↔
    entity ∈ script.entities ∧ entity.offset = offset

end Script

namespace Entity.Tiles

variable {data : ByteArray} {script : Script} {entity : Entity} {offset : Nat}
  (h : Tiles data 0 script.entities.toList data.size) (hsize : script.size = data.size)
include h hsize

/-- The index of an entity is found by each offset that it contains. -/
theorem indexAt?_eq_some_iff {i : Nat} : script.indexAt? offset = some i ↔
    ∃ entity, script.entities[i]? = some entity ∧ entity.contains offset = true := by
  have hfound : ∀ {i entity}, script.entities[i]? = some entity → entity.contains offset = true →
      script.indexAt? offset = some i := by
    intro i entity hentity hcontains
    have hoffset := h.lt_size_of_contains hentity hcontains
    rw [Script.indexAt?, hsize, if_neg (Nat.not_le.2 hoffset), h.startedBy_eq hentity hcontains]
  constructor
  · intro hindex
    have hoffset : offset < data.size := by
      rw [← hsize]
      refine Nat.lt_of_not_le fun hle => ?_
      simp [Script.indexAt?, hle] at hindex
    -- The entity that contains the offset is found, so it is the one at the index.
    obtain ⟨j, entity, hentity, hcontains⟩ := h.exists_getElem?_contains hoffset
    obtain rfl : j = i := Option.some.inj ((hfound hentity hcontains).symm.trans hindex)
    exact ⟨entity, hentity, hcontains⟩
  · intro hexists
    obtain ⟨entity, hentity, hcontains⟩ := hexists
    exact hfound hentity hcontains

/-- An entity is found by each offset that it contains. -/
theorem entityAt?_eq_some_iff : script.entityAt? offset = some entity ↔
    entity ∈ script.entities ∧ entity.contains offset = true := by
  rw [Script.entityAt?, Option.bind_eq_some_iff]
  constructor
  · intro hexists
    obtain ⟨i, hindex, hentity⟩ := hexists
    obtain ⟨found, hfound, hcontains⟩ := (h.indexAt?_eq_some_iff hsize).1 hindex
    obtain rfl : found = entity := Option.some.inj (hfound.symm.trans hentity)
    exact ⟨Array.mem_of_getElem? hentity, hcontains⟩
  · intro hexists
    obtain ⟨hmem, hcontains⟩ := hexists
    obtain ⟨i, hentity⟩ := Array.mem_iff_getElem?.1 hmem
    exact ⟨i, (h.indexAt?_eq_some_iff hsize).2 ⟨entity, hentity, hcontains⟩, hentity⟩

/-- Nothing is found only behind the end of the buffer. -/
theorem entityAt?_eq_none_iff : script.entityAt? offset = none ↔ data.size ≤ offset := by
  rw [← Nat.not_lt, Option.eq_none_iff_forall_ne_some]
  constructor
  · intro hnone hoffset
    obtain ⟨i, entity, hentity, hcontains⟩ := h.exists_getElem?_contains hoffset
    exact hnone entity
      ((h.entityAt?_eq_some_iff hsize).2 ⟨Array.mem_of_getElem? hentity, hcontains⟩)
  · intro hoffset entity hfound
    obtain ⟨hmem, hcontains⟩ := (h.entityAt?_eq_some_iff hsize).1 hfound
    obtain ⟨i, hentity⟩ := Array.mem_iff_getElem?.1 hmem
    exact hoffset (h.lt_size_of_contains hentity hcontains)

omit hsize in
/-- An entity that contains an offset has the greatest start that is not above it, and it is the
only one. -/
theorem contains_iff_greatest (hoffset : offset < data.size) (hmem : entity ∈ script.entities) :
    entity.contains offset = true ↔ entity.offset ≤ offset ∧
      ∀ other ∈ script.entities, other.offset ≤ offset → other.offset ≤ entity.offset := by
  have hgreatest : ∀ {entity}, entity ∈ script.entities → entity.contains offset = true →
      ∀ other ∈ script.entities, other.offset ≤ offset → other.offset ≤ entity.offset := by
    intro entity hmem hcontains other hother hle
    obtain ⟨i, hentity⟩ := Array.mem_iff_getElem?.1 hmem
    obtain ⟨j, hother⟩ := Array.mem_iff_getElem?.1 hother
    have hcounted := (h.lt_startedBy_iff hother).2 hle
    rw [h.startedBy_eq hentity hcontains] at hcounted
    rcases Nat.eq_or_lt_of_le (Nat.le_of_lt_succ hcounted) with rfl | hlt
    · obtain rfl := Option.some.inj (hother.symm.trans hentity)
      exact Nat.le_refl _
    · exact Nat.le_of_lt (h.offset_lt_offset hlt hother hentity)
  constructor
  · intro hcontains
    exact ⟨(contains_iff.1 hcontains).1, hgreatest hmem hcontains⟩
  · intro hstart
    obtain ⟨hle, hmax⟩ := hstart
    -- Of the entity and the one that contains the offset, neither starts behind the other.
    obtain ⟨j, other, hother, hcontains⟩ := h.exists_getElem?_contains hoffset
    have hmemOther := Array.mem_of_getElem? hother
    have hfront := hmax other hmemOther (contains_iff.1 hcontains).1
    have hback := hgreatest hmemOther hcontains entity hmem hle
    obtain ⟨i, hentity⟩ := Array.mem_iff_getElem?.1 hmem
    rcases Nat.lt_trichotomy i j with hlt | rfl | hlt
    · have hless := h.offset_lt_offset hlt hentity hother
      omega
    · obtain rfl := Option.some.inj (hentity.symm.trans hother)
      exact hcontains
    · have hless := h.offset_lt_offset hlt hother hentity
      omega

omit hsize in
/-- An entity is found by its start. -/
theorem startingAt?_eq_some_iff : script.startingAt? offset = some entity ↔
    entity ∈ script.entities ∧ entity.offset = offset := by
  unfold Script.startingAt?
  constructor
  · intro hfound
    split at hfound
    · simp at hfound
    · obtain ⟨hentity, hstart⟩ := Option.filter_eq_some_iff.1 hfound
      exact ⟨Array.mem_of_getElem? hentity, of_decide_eq_true hstart⟩
  · intro hstart
    obtain ⟨hmem, rfl⟩ := hstart
    obtain ⟨i, hentity⟩ := Array.mem_iff_getElem?.1 hmem
    have hcontains := contains_iff.2 ⟨Nat.le_refl _, h.offset_lt_stop hentity⟩
    rw [h.startedBy_eq hentity hcontains]
    exact Option.filter_eq_some_iff.2 ⟨hentity, decide_eq_true rfl⟩

end Entity.Tiles

/-- A look-up in the script of a scan finds the one entity whose range has the offset in it, which
is the one with the greatest start that is not above the offset, and nothing only behind the end of
the buffer. A look-up by start finds the entity that starts at the offset. -/
theorem Scanner.scan_locates {scanner : Scanner} {data : ByteArray} {script : Script}
    (hscan : scanner.scan data = .ok script) (offset : Nat) : script.Locates data offset := by
  have h := Scanner.tiles_of_scan hscan
  have hsize : script.size = data.size := by
    obtain ⟨entities, -, rfl⟩ := Scanner.scan_eq_ok_iff.1 hscan
    exact Script.size_pushAll _ _
  constructor
  · exact h.entityAt?_eq_none_iff hsize
  · intro i
    exact h.indexAt?_eq_some_iff hsize
  · intro entity
    rw [h.entityAt?_eq_some_iff hsize, Entity.contains_iff]
  · intro hoffset entity
    rw [h.entityAt?_eq_some_iff hsize]
    exact and_congr_right fun hmem => h.contains_iff_greatest hoffset hmem
  · intro entity
    exact h.startingAt?_eq_some_iff

/-- The last byte of the padding behind a message that is cut off is found in the padding, which
starts in front of it. -/
theorem Scanner.scan_locates_messages :
    ∃ script, Scanner.messages.scan
        ⟨#[0x25, 7, 0, 0x12, 0x20, 1, 0, 0, 0, 0x25, 1, 0, 0, 0xAA]⟩ = .ok script ∧
      (script.entityAt? 11).map (fun entity => (entity.kind, entity.offset, entity.stop)) =
        some (.padding, 9, 12) ∧
      script.entityAt? 14 = none ∧ script.startingAt? 11 = none ∧
      script.Locates ⟨#[0x25, 7, 0, 0x12, 0x20, 1, 0, 0, 0, 0x25, 1, 0, 0, 0xAA]⟩ 11 := by
  have hseen : (Scanner.messages.scan
      ⟨#[0x25, 7, 0, 0x12, 0x20, 1, 0, 0, 0, 0x25, 1, 0, 0, 0xAA]⟩).toOption.map (fun script =>
        ((script.entityAt? 11).map (fun entity => (entity.kind, entity.offset, entity.stop)),
          script.entityAt? 14, script.startingAt? 11)) =
        some (some (.padding, 9, 12), none, none) := by decide +kernel
  obtain ⟨script, hscan, hview⟩ := Scanner.exists_script hseen
  simp only [Prod.mk.injEq] at hview
  obtain ⟨hinside, hbehind, hstart⟩ := hview
  exact ⟨script, hscan, hinside, hbehind, hstart, Scanner.scan_locates hscan 11⟩

end PacScript
