import Mathlib.Data.List.Nodup
import Mathlib.Tactic.Tauto
import PacScript.Flow.Graph

/-!
# Arrays that refer to each other by index

What the proofs on graphs need of the arrays of a graph, each by itself: that something holds of
every element and its index (`AtEach`), which edges an exit or an entry point should list
(`edgeIds`), which entry points a block should have (`EntryAt`), and that a block's own map has
exactly those (`Block.Indexes`).
-/

namespace PacScript.Flow

/-! ## Elements with their indices -/

/-- Every element of an array stands in a relation with its index. -/
def AtEach {α : Type} (xs : Array α) (P : Nat → α → Prop) : Prop :=
  ∀ i x, xs[i]? = some x → P i x

namespace AtEach

variable {α : Type} {xs : Array α} {P Q : Nat → α → Prop}

/-- Nothing has to be shown of the empty array. -/
theorem empty : AtEach #[] P := by
  intro i x hx
  simp at hx

/-- What follows of each element holds of each element. -/
theorem imp (h : AtEach xs P) (himp : ∀ i x, xs[i]? = some x → P i x → Q i x) : AtEach xs Q :=
  fun i x hx => himp i x hx (h i x hx)

/-- An element is appended: it has what the others come to have. -/
theorem push (h : AtEach xs P) {x : α} (hold : ∀ i y, xs[i]? = some y → P i y → Q i y)
    (hnew : Q xs.size x) : AtEach (xs.push x) Q := by
  intro i y hy
  rw [Array.getElem?_push] at hy
  split at hy
  case isTrue hi =>
    obtain rfl := Option.some.inj hy
    exact hi ▸ hnew
  case isFalse => exact hold i y hy (h i y hy)

/-- An element is changed: it comes to have what the others do. -/
theorem modify (h : AtEach xs P) {j : Nat} {f : α → α}
    (hf : ∀ i x, xs[i]? = some x → P i x → Q i (if j = i then f x else x)) :
    AtEach (xs.modify j f) Q := by
  intro i y hy
  rw [Array.getElem?_modify] at hy
  split at hy
  case isTrue hij =>
    obtain ⟨x, hx, rfl⟩ := Option.map_eq_some_iff.mp hy
    simpa [hij] using hf i x hx (h i x hx)
  case isFalse hij => simpa [hij] using hf i y hy (h i y hy)

end AtEach

/-- The index of an element is one of the array. -/
theorem lt_size_of_getElem? {α : Type} {xs : Array α} {i : Nat} {x : α} (h : xs[i]? = some x) :
    i < xs.size :=
  (Array.getElem?_eq_some_iff.mp h).1

/-- An element of an array stays where it is when another is appended. -/
theorem getElem?_push_of_getElem? {α : Type} {xs : Array α} {i : Nat} {x : α}
    (h : xs[i]? = some x) (y : α) : (xs.push y)[i]? = some x := by
  rw [Array.getElem?_push, if_neg (Nat.ne_of_lt (lt_size_of_getElem? h)), h]

/-- A change of an element is seen in a view of the array as a change of what is seen of it. -/
theorem map_modify {α β : Type} {view : α → β} {f : α → α} {f' : β → β}
    (hf : ∀ x, view (f x) = f' (view x)) (xs : Array α) (j : Nat) :
    (xs.modify j f).map view = (xs.map view).modify j f' := by
  apply Array.ext_getElem?
  intro i
  simp only [Array.getElem?_map, Array.getElem?_modify]
  split
  · simp [Function.comp_def, hf]
  · rfl

/-- A change that a view does not see leaves the view of the array. -/
theorem map_modify_of_eq {α β : Type} {view : α → β} {f : α → α} (hf : ∀ x, view (f x) = view x)
    (xs : Array α) (j : Nat) : (xs.modify j f).map view = xs.map view := by
  apply Array.ext_getElem?
  intro i
  simp only [Array.getElem?_map, Array.getElem?_modify]
  split
  · simp [Function.comp_def, hf]
  · rfl

/-! ## The indices of some edges -/

/-- An exit is known by its index. -/
theorem ExitId.eq_mk_iff {id : ExitId} {i : Nat} : id = ⟨i⟩ ↔ id.index = i := by
  rcases id with ⟨j⟩
  simp

/-- An entry point is known by its index. -/
theorem EntryId.eq_mk_iff {id : EntryId} {i : Nat} : id = ⟨i⟩ ↔ id.index = i := by
  rcases id with ⟨j⟩
  simp

/-- The indices of the edges that pass a test, in the order in which the edges were made. -/
def edgeIds (edges : Array Edge) (test : Edge → Bool) : List EdgeId :=
  (edges.toList.zipIdx.filter fun (edge, _) => test edge).map fun (_, index) => ⟨index⟩

section EdgeIds

variable {edges : Array Edge} {test : Edge → Bool}

/-- An edge that is appended comes last, if it passes the test. -/
theorem edgeIds_push (edge : Edge) :
    edgeIds (edges.push edge) test =
      edgeIds edges test ++ if test edge then [⟨edges.size⟩] else [] := by
  unfold edgeIds
  rw [Array.toList_push, List.zipIdx_append, List.filter_append, List.map_append]
  by_cases htest : test edge <;> simp [htest]

/-- The indices are those of edges that pass the test. -/
theorem mem_edgeIds_iff {id : EdgeId} :
    id ∈ edgeIds edges test ↔ ∃ edge, edges[id.index]? = some edge ∧ test edge := by
  rcases id with ⟨k⟩
  simp [edgeIds, List.mk_mem_zipIdx_iff_getElem?]

/-- No index is there twice. -/
theorem nodup_edgeIds : (edgeIds edges test).Nodup := by
  have hall : (edges.toList.zipIdx.map Prod.snd).Nodup := by
    rw [List.zipIdx_map_snd]
    exact List.nodup_range'
  have hsnd := hall.sublist ((List.filter_sublist (p := fun (edge, _) => test edge)).map _)
  have hmk : Function.Injective EdgeId.mk := fun _ _ h => congrArg EdgeId.index h
  have hids := hsnd.map hmk
  rw [List.map_map] at hids
  exact hids

/-- An index occurs once if its edge passes the test, and otherwise never. -/
theorem count_edgeIds {k : Nat} {edge : Edge} (hedge : edges[k]? = some edge) :
    (edgeIds edges test).count ⟨k⟩ = if test edge then 1 else 0 := by
  rw [List.Nodup.count nodup_edgeIds]
  simp [mem_edgeIds_iff, hedge]

/-- There are none when every edge fails the test. -/
theorem edgeIds_eq_nil (h : AtEach edges fun _ edge => test edge = false) :
    edgeIds edges test = [] := by
  refine List.eq_nil_iff_forall_not_mem.mpr fun id hid => ?_
  obtain ⟨edge, hedge, htest⟩ := mem_edgeIds_iff.mp hid
  simp [h _ _ hedge] at htest

/-- What is looked up for the indices, read off the edges themselves. -/
theorem filterMap_edgeIds {β : Type} {g : EdgeId → Option β} {f : Edge → β}
    (h : AtEach edges fun k edge => g ⟨k⟩ = some (f edge)) :
    (edgeIds edges test).filterMap g = (edges.toList.filter test).map f := by
  -- Both sides go through the pairs of an edge and its index.
  have hpairs : edges.toList.filter test =
      (edges.toList.zipIdx.filter fun (edge, _) => test edge).map Prod.fst := by
    conv_lhs => rw [← List.zipIdx_map_fst 0 edges.toList, List.filter_map]
    rfl
  rw [hpairs, edgeIds, List.filterMap_map, List.map_map]
  refine List.filterMap_eq_map_iff_forall_eq_some.mpr fun ⟨edge, k⟩ hmem => ?_
  have hedge := List.mk_mem_zipIdx_iff_getElem?.mp (List.mem_of_mem_filter hmem)
  rw [Array.getElem?_toList] at hedge
  exact h k edge hedge

end EdgeIds

/-! ## The entry points of a block -/

/-- An entry point belongs to a block and stands at an offset. -/
def EntryAt (entries : Array EntryPoint) (id : EntryId) (block : BlockId) (offset : Nat) : Prop :=
  ∃ entry, entries[id.index]? = some entry ∧ entry.block = block ∧ entry.offset = offset

section EntryAt

variable {entries : Array EntryPoint} {id : EntryId} {block : BlockId} {offset : Nat}

/-- When one is appended, there are those from before and the new one. -/
theorem entryAt_push_iff {entry : EntryPoint} :
    EntryAt (entries.push entry) id block offset ↔
      EntryAt entries id block offset ∨
        id = ⟨entries.size⟩ ∧ entry.block = block ∧ entry.offset = offset := by
  rcases id with ⟨e⟩
  by_cases he : e = entries.size
  · subst he
    simp [EntryAt]
  · simp [EntryAt, Array.getElem?_push, he]

/-- When edges are listed at one, it belongs where it did. -/
theorem entryAt_modify_iff {j : Nat} {f : EntryPoint → EntryPoint}
    (hf : ∀ entry, (f entry).block = entry.block ∧ (f entry).offset = entry.offset) :
    EntryAt (entries.modify j f) id block offset ↔ EntryAt entries id block offset := by
  unfold EntryAt
  rw [Array.getElem?_modify]
  split
  · simp [hf]
  · rfl

end EntryAt

namespace Block

variable {offset : Nat} {entry : EntryId} {entries : List (Nat × EntryId)}

/-- The new entry point is added, and none is lost. -/
theorem mem_insertEntry_iff {pair : Nat × EntryId} :
    pair ∈ insertEntry offset entry entries ↔ pair = (offset, entry) ∨ pair ∈ entries := by
  induction entries with
  | nil => simp [insertEntry]
  | cons other rest ih =>
    rw [insertEntry]
    split
    · simp
    · simp only [List.mem_cons, ih]
      tauto

/-- The offsets stay ascending when the new one is not there yet. -/
theorem pairwise_insertEntry (h : entries.Pairwise (·.1 < ·.1))
    (hnew : ∀ id, (offset, id) ∉ entries) :
    (insertEntry offset entry entries).Pairwise (·.1 < ·.1) := by
  induction entries with
  | nil => simp [insertEntry]
  | cons other rest ih =>
    obtain ⟨hother, hrest⟩ := List.pairwise_cons.mp h
    rw [insertEntry]
    split
    case isTrue hlt =>
      refine List.pairwise_cons.mpr ⟨fun pair hpair => ?_, h⟩
      rcases List.mem_cons.mp hpair with rfl | hpair
      · exact hlt
      · exact Nat.lt_trans hlt (hother pair hpair)
    case isFalse hge =>
      refine List.pairwise_cons.mpr ⟨fun pair hpair => ?_, ih hrest fun id hid =>
        hnew id (List.mem_cons_of_mem _ hid)⟩
      -- What comes behind `other` was there before, or is the new entry point.
      rcases mem_insertEntry_iff.mp hpair with rfl | hpair
      · have hne : other.1 ≠ offset := fun heq => hnew other.2 (by simp [← heq])
        show other.1 < offset
        omega
      · exact hother pair hpair

/-- A block's map of entry points agrees with the entry points themselves. -/
structure Indexes (block : Block) (i : Nat) (entries : Array EntryPoint) : Prop where
  /-- The start entry stands at the first instruction. -/
  start : ∃ first, block.offsets[0]? = some first ∧ (first, block.startEntry) ∈ block.entries
  /-- The offsets ascend, so there is at most one entry point at an offset. -/
  ascending : block.entries.Pairwise (·.1 < ·.1)
  /-- Control enters at instructions. -/
  mem_offsets : ∀ {offset id}, (offset, id) ∈ block.entries → offset ∈ block.offsets
  /-- The entry points in the map are those of the block. -/
  mem_iff : ∀ {offset id}, (offset, id) ∈ block.entries ↔ EntryAt entries id ⟨i⟩ offset

end Block

namespace Block.Indexes

variable {block : Block} {i : Nat} {entries : Array EntryPoint}

/-- An entry point of another block changes nothing. -/
theorem push (h : block.Indexes i entries) {other : EntryPoint} (hother : other.block ≠ ⟨i⟩) :
    block.Indexes i (entries.push other) where
  start := h.start
  ascending := h.ascending
  mem_offsets := h.mem_offsets
  mem_iff := by simp [h.mem_iff, entryAt_push_iff, hother]

/-- Edges that are listed at an entry point change nothing. -/
theorem modify (h : block.Indexes i entries) {j : Nat} {f : EntryPoint → EntryPoint}
    (hf : ∀ entry, (f entry).block = entry.block ∧ (f entry).offset = entry.offset) :
    block.Indexes i (entries.modify j f) where
  start := h.start
  ascending := h.ascending
  mem_offsets := h.mem_offsets
  mem_iff := by simp [h.mem_iff, entryAt_modify_iff hf]

/-- The block may get an entry point at an instruction that has none. -/
theorem insert (h : block.Indexes i entries) {offset : Nat} (hoffset : offset ∈ block.offsets)
    (hnew : ∀ id, (offset, id) ∉ block.entries) :
    Indexes { block with entries := insertEntry offset ⟨entries.size⟩ block.entries } i
      (entries.push { block := ⟨i⟩, offset }) where
  start := by
    obtain ⟨first, hfirst, hmem⟩ := h.start
    exact ⟨first, hfirst, mem_insertEntry_iff.mpr (.inr hmem)⟩
  ascending := pairwise_insertEntry h.ascending hnew
  mem_offsets := by
    intro other id hmem
    rcases mem_insertEntry_iff.mp hmem with heq | hmem
    · obtain ⟨rfl, -⟩ := Prod.mk.inj heq
      exact hoffset
    · exact h.mem_offsets hmem
  mem_iff := by
    intro other id
    rw [mem_insertEntry_iff, h.mem_iff, entryAt_push_iff]
    simp only [Prod.mk.injEq, true_and]
    tauto

/-- A block may have one entry point, at its first instruction, when none was its own before. -/
theorem single (hnone : AtEach entries fun _ entry => entry.block ≠ ⟨i⟩) {first : Nat}
    (hfirst : block.offsets[0]? = some first) (hstart : block.startEntry = ⟨entries.size⟩)
    (hentries : block.entries = [(first, ⟨entries.size⟩)]) :
    block.Indexes i (entries.push { block := ⟨i⟩, offset := first }) where
  start := ⟨first, hfirst, by simp [hstart, hentries]⟩
  ascending := by simp [hentries]
  mem_offsets := by
    intro offset id hmem
    obtain ⟨rfl, -⟩ : offset = first ∧ id = ⟨entries.size⟩ := by simpa [hentries] using hmem
    exact Array.mem_of_getElem? hfirst
  mem_iff := by
    intro offset id
    -- The new entry point is the only one that belongs to the block.
    have hbefore : ¬ EntryAt entries id ⟨i⟩ offset := fun ⟨entry, hentry, hblock, _⟩ =>
      hnone _ entry hentry hblock
    simp only [hentries, List.mem_singleton, Prod.mk.injEq, entryAt_push_iff, hbefore, false_or,
      true_and]
    tauto

/-- There is one entry point at an offset. -/
theorem eq_of_mem (h : block.Indexes i entries) {offset : Nat} {id other : EntryId}
    (hid : (offset, id) ∈ block.entries) (hother : (offset, other) ∈ block.entries) :
    id = other := by
  have hnodup : (block.entries.map Prod.fst).Nodup :=
    List.pairwise_map.mpr (h.ascending.imp Nat.ne_of_lt)
  exact congrArg Prod.snd (List.inj_on_of_nodup_map hnodup hid hother rfl)

/-- The entry point at which a jump arrives is in the map, if it is there already. -/
theorem exists_mem_of_entryFor? (h : block.Indexes i entries) {target : Nat} {entry : EntryId}
    (hentry : block.entryFor? target = some entry) : ∃ offset, (offset, entry) ∈ block.entries := by
  unfold entryFor? at hentry
  split at hentry
  · obtain ⟨before, behind, hsplit, -⟩ := List.lookup_eq_some_iff.mp hentry
    exact ⟨target, by simp [hsplit]⟩
  · obtain ⟨first, -, hmem⟩ := h.start
    exact ⟨first, Option.some.inj hentry ▸ hmem⟩

end Block.Indexes

/-- A jump whose entry point is not there yet goes to an instruction that has none. -/
theorem Block.of_entryFor?_eq_none {block : Block} {target : Nat}
    (h : block.entryFor? target = none) :
    block.startsInstruction target ∧ ∀ entry, (target, entry) ∉ block.entries := by
  unfold entryFor? at h
  split at h
  case isTrue hstarts =>
    refine ⟨hstarts, fun entry hmem => ?_⟩
    simpa using List.lookup_eq_none_iff.mp h _ hmem
  case isFalse => cases h

end PacScript.Flow
