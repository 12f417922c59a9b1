import Mathlib.Tactic.Tauto
import PacScript.Parameter

/-!
# When parameters form a set

A list of parameters is a set exactly when no two of them have the same label and name, and then
the set is the list. When two of them have, the failure tells the key that is the first to come a
second time (`ofList_eq_error_iff`).
-/

namespace PacScript.ParameterSet

/-- Nothing repeats exactly when the keys differ from each other and from those that were met. -/
theorem repeated?_eq_none_iff {parameters : List Parameter} {seen : Keys} :
    repeated? seen parameters = none ↔
      (parameters.map Parameter.key).Nodup ∧ ∀ p ∈ parameters, seen.contains p.key = false := by
  constructor
  · exact repeated?_eq_none
  · intro h
    induction parameters generalizing seen with
    | nil => rfl
    | cons parameter rest ih =>
      obtain ⟨hnodup, hfresh⟩ := h
      rw [List.map_cons, List.nodup_cons] at hnodup
      have hnew := hfresh parameter List.mem_cons_self
      simp only [repeated?, hnew, Bool.false_eq_true, if_false]
      apply ih
      refine ⟨hnodup.2, ?_⟩
      intro p hp
      -- A key behind the first one is neither that key nor one that was met before.
      have hne : parameter.key ≠ p.key := by
        intro heq
        rw [heq] at hnodup
        exact hnodup.1 (List.mem_map_of_mem hp)
      have hcompare : lexOrd.compare parameter.key p.key ≠ .eq := by
        intro heq
        exact hne (Std.LawfulEqCmp.eq_of_compare heq)
      rw [Std.TreeSet.contains_insert, hfresh p (List.mem_cons_of_mem _ hp), Bool.or_false]
      exact beq_eq_false_iff_ne.2 hcompare

/-- A key that was met is the one that was met last, or was met before. -/
theorem contains_insert_iff {seen : Keys} {key other : String × String} :
    (seen.insert key).contains other = true ↔ other = key ∨ seen.contains other = true := by
  rw [Std.TreeSet.contains_insert, Bool.or_eq_true, beq_iff_eq,
    Std.LawfulEqCmp.compare_eq_iff_eq, eq_comm]

/-- The parameter that repeats is the first one whose key was met before the list, or is that of a
parameter in front of it. -/
theorem repeated?_eq_some_iff {parameters : List Parameter} {seen : Keys} {parameter : Parameter} :
    repeated? seen parameters = some parameter ↔
      ∃ front back, parameters = front ++ parameter :: back ∧ repeated? seen front = none ∧
        (seen.contains parameter.key = true ∨ parameter.key ∈ front.map Parameter.key) := by
  induction parameters generalizing seen with
  | nil => simp [repeated?]
  | cons head rest ih =>
    by_cases hmet : seen.contains head.key = true
    · -- The head repeats, so that nothing stands in front of the first repetition.
      simp only [repeated?, hmet, if_true, Option.some.injEq]
      constructor
      · intro h
        subst h
        exact ⟨[], rest, rfl, rfl, Or.inl hmet⟩
      · intro hexists
        obtain ⟨front, back, hsplit, hnone, -⟩ := hexists
        cases front with
        | nil => exact (List.cons.inj hsplit).1
        | cons first front =>
          obtain ⟨rfl, -⟩ := List.cons.inj hsplit
          simp [repeated?, hmet] at hnone
    · -- The head does not repeat, and its key is met from here on.
      simp only [repeated?, hmet, Bool.false_eq_true, if_false]
      rw [ih]
      simp only [contains_insert_iff]
      constructor
      · intro hexists
        obtain ⟨front, back, rfl, hnone, hkey⟩ := hexists
        refine ⟨head :: front, back, rfl, ?_, ?_⟩
        · simp only [repeated?, hmet, Bool.false_eq_true, if_false]
          exact hnone
        · rw [List.map_cons, List.mem_cons]
          tauto
      · intro hexists
        obtain ⟨front, back, hsplit, hnone, hkey⟩ := hexists
        cases front with
        | nil =>
          obtain ⟨rfl, -⟩ := List.cons.inj hsplit
          exact absurd (hkey.resolve_right List.not_mem_nil) hmet
        | cons first front =>
          obtain ⟨rfl, hrest⟩ := List.cons.inj hsplit
          simp only [repeated?, hmet, Bool.false_eq_true, if_false] at hnone
          rw [List.map_cons, List.mem_cons] at hkey
          exact ⟨front, back, hrest, hnone, by tauto⟩

/-- Parameters without a repeated key form a set. -/
theorem ofList_of_nodup {parameters : List Parameter} (offset : Nat)
    (h : (parameters.map Parameter.key).Nodup) :
    ofList parameters offset = .ok ⟨parameters, h⟩ := by
  have hnone : repeated? ∅ parameters = none :=
    repeated?_eq_none_iff.2 ⟨h, fun p _ => Std.TreeSet.contains_emptyc⟩
  unfold ofList
  split
  · rename_i hsome
    rw [hnone] at hsome
    simp at hsome
  · rfl

/-- The key comes a second time in the list, and no other does before. -/
def FirstRepeated (keys : List (String × String)) (key : String × String) : Prop :=
  ∃ i j, i < j ∧ keys[i]? = some key ∧ keys[j]? = some key ∧ (keys.take j).Nodup

/-- The list up to the second time has different keys, and the key is one of them. -/
theorem firstRepeated_iff {keys : List (String × String)} {key : String × String} :
    FirstRepeated keys key ↔
      ∃ front back, keys = front ++ key :: back ∧ front.Nodup ∧ key ∈ front := by
  constructor
  · intro h
    obtain ⟨i, j, hlt, hfirst, hsecond, hnodup⟩ := h
    obtain ⟨hj, rfl⟩ := List.getElem?_eq_some_iff.1 hsecond
    refine ⟨keys.take j, keys.drop (j + 1), ?_, hnodup, ?_⟩
    · rw [List.getElem_cons_drop, List.take_append_drop]
    · apply List.mem_of_getElem? (i := i)
      rw [List.getElem?_take_of_lt hlt]
      exact hfirst
  · intro hexists
    obtain ⟨front, back, rfl, hnodup, hmem⟩ := hexists
    obtain ⟨i, hi⟩ := List.mem_iff_getElem?.1 hmem
    have hlt : i < front.length := (List.getElem?_eq_some_iff.1 hi).1
    refine ⟨i, front.length, hlt, ?_, ?_, ?_⟩
    · rw [List.getElem?_append_left hlt]
      exact hi
    · simp
    · rw [List.take_left]
      exact hnodup

/-- The parameter that is found to repeat has the first repeated key. -/
theorem firstRepeated_iff_repeated? {parameters : List Parameter} {key : String × String} :
    FirstRepeated (parameters.map Parameter.key) key ↔
      ∃ parameter, repeated? ∅ parameters = some parameter ∧ parameter.key = key := by
  rw [firstRepeated_iff]
  constructor
  · intro hexists
    obtain ⟨keys, others, hsplit, hnodup, hmem⟩ := hexists
    obtain ⟨front, rest, rfl, rfl, hrest⟩ := List.map_eq_append_iff.1 hsplit
    obtain ⟨parameter, back, rfl, rfl, rfl⟩ := List.map_eq_cons_iff.1 hrest
    refine ⟨parameter, repeated?_eq_some_iff.2 ⟨front, back, rfl, ?_, Or.inr hmem⟩, rfl⟩
    exact repeated?_eq_none_iff.2 ⟨hnodup, fun p _ => Std.TreeSet.contains_emptyc⟩
  · intro hexists
    obtain ⟨parameter, hrepeated, rfl⟩ := hexists
    obtain ⟨front, back, rfl, hnone, hkey⟩ := repeated?_eq_some_iff.1 hrepeated
    refine ⟨front.map Parameter.key, back.map Parameter.key, List.map_append,
      (repeated?_eq_none_iff.1 hnone).1, ?_⟩
    -- No key was met before the list.
    rw [Std.TreeSet.contains_emptyc] at hkey
    exact hkey.resolve_left Bool.false_ne_true

/-- Parameters form no set when a key repeats, and the failure has the first one that does. -/
theorem ofList_eq_error_iff {parameters : List Parameter} {offset : Nat} {failure : Failure} :
    ofList parameters offset = .error failure ↔
      ∃ label name, failure = .duplicateKey offset label name ∧
        FirstRepeated (parameters.map Parameter.key) (label, name) := by
  simp only [firstRepeated_iff_repeated?]
  unfold ofList
  split
  · rename_i parameter hrepeated
    rw [hrepeated, Except.error.injEq]
    constructor
    · intro h
      exact ⟨parameter.label, parameter.name, h.symm, parameter, rfl, rfl⟩
    · intro hexists
      obtain ⟨label, name, rfl, other, heq, hkey⟩ := hexists
      obtain rfl := Option.some.inj heq
      obtain ⟨rfl, rfl⟩ := Prod.mk.inj hkey
      rfl
  · rename_i hnone
    simp [hnone]

/-- The parameters of a set are those it was made of. -/
theorem ordered_of_ofList {parameters : List Parameter} {offset : Nat} {set : ParameterSet}
    (h : ofList parameters offset = .ok set) : set.ordered = parameters := by
  unfold ofList at h
  split at h
  · simp at h
  · rw [← Except.ok.inj h]

/-- A set is that of its parameters. -/
theorem ofList_of_ordered {parameters : List Parameter} {set : ParameterSet}
    (h : set.ordered = parameters) (offset : Nat) : ofList parameters offset = .ok set := by
  subst h
  exact ofList_of_nodup offset set.nodup_keys

end PacScript.ParameterSet
