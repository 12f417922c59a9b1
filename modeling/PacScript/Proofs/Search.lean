import PacScript.Search

/-!
# What a search finds

`Search.first` finds the least position of an interval that passes the test, and finds none exactly
when no position of the interval passes it. `Search.boundary` finds where a test stops holding, if
it holds up to some position and at none behind. In an array whose keys ascend it therefore counts
the elements with a key up to a bound (`Search.lt_boundary_key_iff`).
-/

namespace PacScript.Search

/-- The position found is the only one in the interval that passes the test with none before it
passing it. -/
theorem first_eq_some_iff {test : Nat → Bool} {start stop found : Nat} :
    first test start stop = some found ↔
      start ≤ found ∧ found < stop ∧ test found = true ∧
        ∀ i, start ≤ i → i < found → test i = false := by
  fun_induction first test start stop with
  | case1 start hlt htest =>
    constructor
    · intro h
      obtain rfl := Option.some.inj h
      exact ⟨Nat.le_refl _, hlt, htest, fun i hle hlt => by omega⟩
    · intro hexists
      obtain ⟨hle, -, -, hbefore⟩ := hexists
      -- The first position passes, so that nothing behind it is the first that does.
      rcases Nat.eq_or_lt_of_le hle with rfl | hlt'
      · rfl
      · rw [hbefore start (Nat.le_refl _) hlt'] at htest
        simp at htest
  | case2 start hlt htest ih =>
    rw [ih]
    constructor
    · intro hexists
      obtain ⟨hle, hstop, hfound, hbefore⟩ := hexists
      refine ⟨by omega, hstop, hfound, fun i hi hlt => ?_⟩
      rcases Nat.eq_or_lt_of_le hi with rfl | hi
      · exact Bool.eq_false_iff.2 htest
      · exact hbefore i hi hlt
    · intro hexists
      obtain ⟨hle, hstop, hfound, hbefore⟩ := hexists
      have hne : start ≠ found := by
        rintro rfl
        exact htest hfound
      exact ⟨by omega, hstop, hfound, fun i hi hlt => hbefore i (by omega) hlt⟩
  | case3 start hge =>
    constructor
    · intro h
      simp at h
    · intro hexists
      obtain ⟨hle, hlt, -⟩ := hexists
      omega

/-- A search finds nothing exactly when nothing in the interval passes the test. -/
theorem first_eq_none_iff {test : Nat → Bool} {start stop : Nat} :
    first test start stop = none ↔ ∀ i, start ≤ i → i < stop → test i = false := by
  fun_induction first test start stop with
  | case1 start hlt htest =>
    constructor
    · intro h
      simp at h
    · intro h
      rw [h start (Nat.le_refl _) hlt] at htest
      simp at htest
  | case2 start hlt htest ih =>
    rw [ih]
    constructor
    · intro h i hle hi
      rcases Nat.eq_or_lt_of_le hle with rfl | hle
      · exact Bool.eq_false_iff.2 htest
      · exact h i hle hi
    · intro h i hle hi
      exact h i (by omega) hi
  | case3 start hge =>
    simp only [true_iff]
    intro i hle hi
    omega

/-- A search that is as much further on finds a position that is as much further on. -/
theorem first_add (test : Nat → Bool) (distance start stop : Nat) :
    first test (distance + start) (distance + stop) =
      (first (fun position => test (distance + position)) start stop).map (distance + ·) := by
  fun_induction first (fun position => test (distance + position)) start stop with
  | case1 start hlt htest =>
    have hlt' : distance + start < distance + stop := by omega
    rw [first, if_pos hlt', if_pos htest]
    rfl
  | case2 start hlt htest ih =>
    have hlt' : distance + start < distance + stop := by omega
    rw [first, if_pos hlt', if_neg htest, Nat.add_assoc, ih]
  | case3 start hge =>
    have hge' : ¬ distance + start < distance + stop := by omega
    rw [first, if_neg hge']
    rfl

/-- A boundary is in the interval, or at its end. -/
theorem boundary_mem (test : Nat → Bool) {low high : Nat} (hle : low ≤ high) :
    low ≤ boundary test low high ∧ boundary test low high ≤ high := by
  fun_induction boundary test low high with
  | case1 low high hlt htest ih =>
    obtain ⟨hlow, hhigh⟩ := ih (by omega)
    exact ⟨by omega, hhigh⟩
  | case2 low high hlt htest ih =>
    obtain ⟨hlow, hhigh⟩ := ih (by omega)
    exact ⟨hlow, by omega⟩
  | case3 low high hge => exact ⟨Nat.le_refl _, hle⟩

/-- A test that holds in front of each position at which it holds does so exactly in front of its
boundary. -/
theorem lt_boundary_iff {test : Nat → Bool} {low high : Nat}
    (hdown : ∀ i j, low ≤ i → i ≤ j → j < high → test j = true → test i = true) {i : Nat}
    (hlow : low ≤ i) (hhigh : i < high) : i < boundary test low high ↔ test i = true := by
  fun_induction boundary test low high with
  | case1 low high hlt htest ih =>
    -- The test holds in the middle, and so does it in front of it.
    rcases Nat.lt_or_ge ((low + high) / 2) i with hbehind | hbefore
    · exact ih (fun i j hi hij hj => hdown i j (by omega) hij hj) hbehind hhigh
    · have hmem := boundary_mem test (by omega : (low + high) / 2 + 1 ≤ high)
      have hholds := hdown i ((low + high) / 2) hlow hbefore (by omega) htest
      exact iff_of_true (by omega) hholds
  | case2 low high hlt htest ih =>
    -- The test fails in the middle, and so does it behind.
    rcases Nat.lt_or_ge i ((low + high) / 2) with hbefore | hbehind
    · exact ih (fun i j hi hij hj => hdown i j hi hij (by omega)) hlow hbefore
    · have hmem := boundary_mem test (by omega : low ≤ (low + high) / 2)
      have hfails : test i ≠ true := fun hholds =>
        htest (hdown ((low + high) / 2) i (by omega) hbehind hhigh hholds)
      exact iff_of_false (by omega) hfails
  | case3 low high hge => omega

/-- A test that holds exactly in front of a position has its boundary there. -/
theorem boundary_eq {test : Nat → Bool} {low high position : Nat} (hlow : low ≤ position)
    (hhigh : position ≤ high)
    (htest : ∀ i, low ≤ i → i < high → (test i = true ↔ i < position)) :
    boundary test low high = position := by
  have hdown : ∀ i j, low ≤ i → i ≤ j → j < high → test j = true → test i = true := by
    intro i j hi hij hj hholds
    have hlt := (htest j (by omega) hj).1 hholds
    exact (htest i hi (by omega)).2 (by omega)
  have hmem := boundary_mem test (by omega : low ≤ high)
  rcases Nat.lt_trichotomy (boundary test low high) position with hless | heq | hmore
  · -- The test holds at the boundary, which would therefore be in front of itself.
    have hholds := (htest _ hmem.1 (by omega)).2 hless
    have hself := (lt_boundary_iff hdown hmem.1 (by omega)).2 hholds
    omega
  · exact heq
  · have hholds := (lt_boundary_iff hdown hlow (by omega)).1 hmore
    have hself := (htest position hlow (by omega)).1 hholds
    omega

/-- In an array whose keys ascend, the elements with a key up to a bound are those in front of the
boundary. -/
theorem lt_boundary_key_iff {α : Type} {xs : Array α} {key : α → Nat}
    (hascending : ∀ (i j : Nat) x y, i < j → xs[i]? = some x → xs[j]? = some y → key x < key y)
    {i : Nat} {x : α} (hx : xs[i]? = some x) (bound : Nat) :
    i < boundary (fun i => xs[i]?.any (key · ≤ bound)) 0 xs.size ↔ key x ≤ bound := by
  have hdown : ∀ i j, 0 ≤ i → i ≤ j → j < xs.size → xs[j]?.any (key · ≤ bound) = true →
      xs[i]?.any (key · ≤ bound) = true := by
    intro i j _ hle hj htest
    rcases Nat.eq_or_lt_of_le hle with rfl | hlt
    · exact htest
    · have hxi : xs[i]? = some xs[i] := Array.getElem?_eq_getElem (Nat.lt_trans hlt hj)
      have hxj : xs[j]? = some xs[j] := Array.getElem?_eq_getElem hj
      have hkeys := hascending i j _ _ hlt hxi hxj
      rw [hxj, Option.any_some, decide_eq_true_iff] at htest
      rw [hxi, Option.any_some, decide_eq_true_iff]
      exact Nat.le_trans (Nat.le_of_lt hkeys) htest
  have hi : i < xs.size := (Array.getElem?_eq_some_iff.1 hx).1
  rw [lt_boundary_iff hdown (Nat.zero_le i) hi, hx, Option.any_some, decide_eq_true_iff]

end PacScript.Search
