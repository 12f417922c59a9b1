import Mathlib.Data.List.Induction
import Mathlib.Data.List.Nodup
import PacScript.Proofs.Parameter

/-!
# Looking parameters up

A set finds its parameters by label and name in an index of two levels, and by name alone with a
search. The index finds what a search for both would (`get?_eq_some_iff`), since a place is only
ever overwritten by a parameter with the same key, and a set has no two of these. Together with
when a list forms a set, this is all that can be observed of one (`ofList_faithful`).
-/

namespace PacScript.ParameterSet

section Places

variable {places : Places} {parameter : Parameter} {parameters : List Parameter}
  {label name : String}

/-- One more place is found under its own key, and hides no other. -/
theorem Places.find?_add (place : Nat) :
    (places.add parameter place).find? label name =
      if parameter.key = (label, name) then some place else places.find? label name := by
  unfold Places.find? Places.add Parameter.key
  rw [Std.TreeMap.getElem?_alter]
  simp only [Std.LawfulEqCmp.compare_eq_iff_eq, Prod.mk.injEq]
  by_cases hlabel : parameter.label = label
  · subst hlabel
    rw [if_pos rfl, Option.bind_some, Std.TreeMap.getElem?_insert]
    simp only [Std.LawfulEqCmp.compare_eq_iff_eq, true_and]
    congr 1
    -- A label that is new has no names so far.
    cases places[parameter.label]? with
    | none => exact Std.TreeMap.getElem?_emptyc
    | some names => rfl
  · rw [if_neg hlabel, if_neg (fun h => hlabel h.1)]

/-- Nothing is found among no parameters. -/
theorem Places.find?_nil : (Places.ofList []).find? label name = none := by
  show (∅ : Places)[label]?.bind (·[name]?) = none
  rw [Std.TreeMap.getElem?_emptyc]
  rfl

/-- The last parameter of a list is the last to be added. -/
theorem Places.ofList_append_singleton :
    Places.ofList (parameters ++ [parameter]) =
      (Places.ofList parameters).add parameter parameters.length := by
  unfold Places.ofList
  rw [List.zipIdx_append, List.foldl_append]
  simp

/-- A key is found at the place of the last parameter that has it. -/
theorem Places.find?_ofList_eq_some_iff {place : Nat} :
    (Places.ofList parameters).find? label name = some place ↔
      (parameters.map Parameter.key)[place]? = some (label, name) ∧
        (label, name) ∉ (parameters.map Parameter.key).drop (place + 1) := by
  induction parameters using List.reverseRecOn generalizing place with
  | nil =>
    rw [Places.find?_nil]
    simp
  | append_singleton front last ih =>
    rw [Places.ofList_append_singleton, Places.find?_add, List.map_append, List.map_singleton]
    have hlength : (front.map Parameter.key).length = front.length := List.length_map _
    by_cases hkey : last.key = (label, name)
    · -- The last parameter has the key, and stands behind every other that has it.
      rw [if_pos hkey, Option.some.injEq, hkey]
      constructor
      · intro h
        subst h
        rw [List.drop_eq_nil_of_le (by simp)]
        exact ⟨by simp, List.not_mem_nil⟩
      · intro h
        obtain ⟨hplace, hlast⟩ := h
        have hle : place ≤ front.length := by
          have := (List.getElem?_eq_some_iff.1 hplace).1
          simp at this
          omega
        rcases Nat.lt_or_eq_of_le hle with hlt | heq
        · rw [List.drop_append_of_le_length (by omega)] at hlast
          exact absurd (List.mem_append_right _ List.mem_cons_self) hlast
        · exact heq.symm
    · rw [if_neg hkey, ih]
      rcases Nat.lt_or_ge place front.length with hlt | hge
      · rw [List.getElem?_append_left (by omega), List.drop_append_of_le_length (by omega),
          List.mem_append, List.mem_singleton]
        have hne : (label, name) ≠ last.key := fun h => hkey h.symm
        tauto
      · rw [List.getElem?_append_right (by omega), List.getElem?_eq_none (by omega)]
        constructor
        · intro h
          simp at h
        · intro h
          have hmem := List.mem_of_getElem? h.1
          rw [List.mem_singleton] at hmem
          exact absurd hmem.symm hkey

/-- When no key repeats, a key is found at the place of the parameter that has it. -/
theorem Places.find?_of_nodup (hnodup : (parameters.map Parameter.key).Nodup) {place : Nat} :
    (Places.ofList parameters).find? label name = some place ↔
      (parameters.map Parameter.key)[place]? = some (label, name) := by
  rw [Places.find?_ofList_eq_some_iff, and_iff_left_iff_imp]
  intro hplace hmem
  -- The key would stand at a later place, too.
  obtain ⟨next, hnext⟩ := List.mem_iff_getElem?.1 hmem
  rw [List.getElem?_drop] at hnext
  have hlt : place < (parameters.map Parameter.key).length :=
    (List.getElem?_eq_some_iff.1 hplace).1
  have heq : place = place + 1 + next :=
    (List.getElem?_inj hlt hnodup).1 (hplace.trans hnext.symm)
  omega

end Places

variable {set : ParameterSet} {label name : String} {parameter : Parameter}

/-- A look-up finds the parameter of the set that has the label and the name. -/
theorem get?_eq_some_iff :
    set.get? label name = some parameter ↔
      parameter ∈ set.ordered ∧ parameter.key = (label, name) := by
  unfold get?
  simp only [Option.bind_eq_some_iff, Places.find?_of_nodup set.nodup_keys]
  constructor
  · intro hexists
    obtain ⟨place, hkey, hplace⟩ := hexists
    rw [List.getElem?_map, hplace, Option.map_some, Option.some.injEq] at hkey
    exact ⟨List.mem_of_getElem? hplace, hkey⟩
  · intro h
    obtain ⟨hmem, hkey⟩ := h
    obtain ⟨place, hplace⟩ := List.mem_iff_getElem?.1 hmem
    refine ⟨place, ?_, hplace⟩
    rw [List.getElem?_map, hplace, Option.map_some, hkey]

/-- The search by name finds the first parameter that has it. -/
theorem byName?_eq_some_iff :
    set.byName? name = some parameter ↔
      ∃ front back, set.ordered = front ++ parameter :: back ∧ parameter.name = name ∧
        ∀ p ∈ front, p.name ≠ name := by
  unfold byName?
  rw [List.find?_eq_some_iff_append]
  simp only [beq_iff_eq, Bool.not_eq_true', beq_eq_false_iff_ne]
  constructor
  · intro h
    obtain ⟨hname, front, back, hsplit, hfront⟩ := h
    exact ⟨front, back, hsplit, hname, hfront⟩
  · intro hexists
    obtain ⟨front, back, hsplit, hname, hfront⟩ := hexists
    exact ⟨hname, front, back, hsplit, hfront⟩

/-- The parameter at a place has the label and the name of one before it. -/
def Repeats (parameters : List Parameter) (place : Nat) : Prop :=
  ∃ before earlier later, before < place ∧ parameters[before]? = some earlier ∧
    parameters[place]? = some later ∧ earlier.label = later.label ∧ earlier.name = later.name

section Repeats

variable {parameters : List Parameter} {offset : Nat}

/-- The keys up to a place differ exactly when no parameter in front of it repeats. -/
theorem nodup_take_iff {place : Nat} :
    ((parameters.map Parameter.key).take place).Nodup ↔ ∀ j < place, ¬Repeats parameters j := by
  rw [List.nodup_iff_getElem?_ne_getElem?]
  constructor
  · intro h j hj hrepeats
    obtain ⟨i, earlier, later, hlt, hearlier, hlater, hlabel, hname⟩ := hrepeats
    have hbound : j < parameters.length := (List.getElem?_eq_some_iff.1 hlater).1
    apply h i j hlt
    · rw [List.length_take, List.length_map]
      exact Nat.lt_min.2 ⟨hj, hbound⟩
    · -- Both keys are in front of the place, since the later one is.
      have hkey : earlier.key = later.key := Prod.ext hlabel hname
      rw [List.getElem?_take_of_lt (Nat.lt_trans hlt hj), List.getElem?_take_of_lt hj,
        List.getElem?_map, List.getElem?_map, hearlier, hlater, Option.map_some, Option.map_some,
        hkey]
  · intro h i j hlt hj heq
    rw [List.length_take, List.length_map, Nat.lt_min] at hj
    rw [List.getElem?_take_of_lt (Nat.lt_trans hlt hj.1), List.getElem?_take_of_lt hj.1,
      List.getElem?_map, List.getElem?_map, List.getElem?_eq_getElem hj.2,
      List.getElem?_eq_getElem (Nat.lt_trans hlt hj.2)] at heq
    obtain ⟨hlabel, hname⟩ := Prod.mk.inj (Option.some.inj heq)
    exact h j hj.1 ⟨i, _, _, hlt, List.getElem?_eq_getElem _, List.getElem?_eq_getElem _, hlabel,
      hname⟩

/-- The first repeated key is that of the first parameter that repeats. -/
theorem firstRepeated_iff_repeats {label name : String} :
    FirstRepeated (parameters.map Parameter.key) (label, name) ↔
      ∃ place value, parameters[place]? = some ⟨label, name, value⟩ ∧
        Repeats parameters place ∧ ∀ j < place, ¬Repeats parameters j := by
  unfold FirstRepeated
  simp only [nodup_take_iff, List.getElem?_map, Option.map_eq_some_iff]
  constructor
  · intro hexists
    obtain ⟨i, j, hlt, ⟨earlier, hearlier, hkey⟩, ⟨later, hlater, hkey'⟩, hfirst⟩ := hexists
    obtain ⟨hlabel, hname⟩ := Prod.mk.inj (hkey.trans hkey'.symm)
    obtain ⟨rfl, rfl⟩ := Prod.mk.inj hkey'
    exact ⟨j, later.value, hlater, ⟨i, earlier, later, hlt, hearlier, hlater, hlabel, hname⟩,
      hfirst⟩
  · intro hexists
    obtain ⟨j, value, hvalue, ⟨i, earlier, later, hlt, hearlier, hlater, hlabel, hname⟩, hfirst⟩ :=
      hexists
    obtain rfl := Option.some.inj (hvalue.symm.trans hlater)
    exact ⟨i, j, hlt, ⟨earlier, hearlier, Prod.ext hlabel hname⟩, ⟨_, hvalue, rfl⟩, hfirst⟩

/-- All keys differ exactly when no parameter repeats. -/
theorem nodup_keys_iff :
    (parameters.map Parameter.key).Nodup ↔ ∀ place, ¬Repeats parameters place := by
  constructor
  · intro h place
    have htake := h.sublist (List.take_sublist (place + 1) _)
    exact nodup_take_iff.1 htake place (Nat.lt_succ_self place)
  · intro h
    have htake := nodup_take_iff.2 fun j (_ : j < parameters.length) => h j
    rwa [List.take_of_length_le (Nat.le_of_eq (List.length_map _))] at htake

/-- Parameters form a set exactly when none of them repeats. -/
theorem exists_ofList_iff :
    (∃ set, ofList parameters offset = .ok set) ↔ ∀ place, ¬Repeats parameters place := by
  rw [← nodup_keys_iff]
  constructor
  · intro hexists
    obtain ⟨set, hset⟩ := hexists
    rw [← ordered_of_ofList hset]
    exact set.nodup_keys
  · intro h
    exact ⟨_, ofList_of_nodup offset h⟩

end Repeats

/-- A set answers every question about a list of parameters as a search of the list would. -/
structure Answers (set : ParameterSet) (parameters : List Parameter) : Prop where
  /-- The parameters are there in their order. -/
  ordered : set.ordered = parameters
  /-- A label and a name are looked up to the parameter that has them. -/
  get : ∀ label name p, set.get? label name = some p ↔
    p ∈ parameters ∧ p.label = label ∧ p.name = name
  /-- There is one such parameter, at one place. -/
  unique : ∀ (i j : Nat) (p q : Parameter), parameters[i]? = some p → parameters[j]? = some q →
    p.label = q.label → p.name = q.name → i = j
  /-- A name alone is looked up to the first parameter that has it. -/
  byName : ∀ name p, set.byName? name = some p ↔
    ∃ front back, parameters = front ++ p :: back ∧ p.name = name ∧ ∀ q ∈ front, q.name ≠ name

/-- A set answers for its own list. -/
theorem answers (set : ParameterSet) : set.Answers set.ordered where
  ordered := rfl
  get label name p := by
    rw [get?_eq_some_iff, Parameter.key, Prod.mk.injEq]
  unique i j p q hi hj hlabel hname := by
    have hnever := nodup_keys_iff.1 set.nodup_keys
    rcases Nat.lt_trichotomy i j with hlt | heq | hgt
    · exact absurd ⟨i, p, q, hlt, hi, hj, hlabel, hname⟩ (hnever j)
    · exact heq
    · exact absurd ⟨j, q, p, hgt, hj, hi, hlabel.symm, hname.symm⟩ (hnever i)
  byName name p := byName?_eq_some_iff

/-- Parameters form no set exactly when one of them has the label and the name of one before it, and
the failure tells the offset and the key of the first that has. Otherwise the set answers for the
list. -/
theorem ofList_faithful (parameters : List Parameter) (offset : Nat) :
    ((∃ failure, ofList parameters offset = .error failure) ↔
        ∃ place, Repeats parameters place) ∧
      (∀ failure, ofList parameters offset = .error failure ↔
        ∃ place parameter, parameters[place]? = some parameter ∧ Repeats parameters place ∧
          (∀ j < place, ¬Repeats parameters j) ∧
          failure = .duplicateKey offset parameter.label parameter.name) ∧
      ∀ set, ofList parameters offset = .ok set → set.Answers parameters := by
  refine ⟨?_, ?_, ?_⟩
  · have hok : (∃ set, ofList parameters offset = .ok set) ↔
        ∀ place, ¬Repeats parameters place := exists_ofList_iff
    cases hresult : ofList parameters offset with
    | error failure => simpa [hresult] using hok
    | ok set => simpa [hresult] using hok
  · intro failure
    rw [ofList_eq_error_iff]
    simp only [firstRepeated_iff_repeats]
    constructor
    · intro hexists
      obtain ⟨label, name, rfl, place, value, hplace, hrepeats, hfirst⟩ := hexists
      exact ⟨place, _, hplace, hrepeats, hfirst, rfl⟩
    · intro hexists
      obtain ⟨place, parameter, hplace, hrepeats, hfirst, rfl⟩ := hexists
      exact ⟨_, _, rfl, place, parameter.value, hplace, hrepeats, hfirst⟩
  · intro set hset
    have hordered := ordered_of_ofList hset
    subst hordered
    exact set.answers

/-- A name under two labels is no repetition, and both parameters are found; of two keys that come
twice, the one that is the first to do so is reported. -/
theorem ofList_faithful_two_labels :
    (∃ set, ofList [⟨"offset", "a", .int 1⟩, ⟨"count", "a", .int 2⟩] 7 = .ok set ∧
        set.get? "count" "a" = some ⟨"count", "a", .int 2⟩ ∧
        set.byName? "a" = some ⟨"offset", "a", .int 1⟩) ∧
      ofList [⟨"count", "a", .int 1⟩, ⟨"count", "b", .int 2⟩, ⟨"count", "b", .int 3⟩,
        ⟨"count", "a", .int 4⟩] 7 = .error (.duplicateKey 7 "count" "b") := by
  constructor
  · have hkeys : ([⟨"offset", "a", .int 1⟩, ⟨"count", "a", .int 2⟩].map
        Parameter.key).Nodup := by decide
    have hset := ofList_of_nodup 7 hkeys
    have hanswers := (ofList_faithful _ _).2.2 _ hset
    refine ⟨_, hset, (hanswers.get _ _ _).2 ?_, (hanswers.byName _ _).2 ?_⟩
    · simp
    · exact ⟨[], [⟨"count", "a", .int 2⟩], rfl, rfl, by simp⟩
  · apply ((ofList_faithful _ _).2.1 _).2
    refine ⟨2, ⟨"count", "b", .int 3⟩, rfl, ?_, nodup_take_iff.1 (by decide), rfl⟩
    exact ⟨1, ⟨"count", "b", .int 2⟩, ⟨"count", "b", .int 3⟩, by decide, rfl, rfl, rfl, rfl⟩

end PacScript.ParameterSet
