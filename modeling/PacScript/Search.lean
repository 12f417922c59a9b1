/-!
# Searching an interval of positions

Two searches that the rest of the library is built on: `Search.first`, the least position of an
interval at which a test holds, and `Search.boundary`, the position at which a test that holds
up to some point stops holding.
-/

namespace PacScript.Search

/-- The least position from `start` on and below `stop` at which `test` holds. -/
def first (test : Nat → Bool) (start stop : Nat) : Option Nat :=
  if start < stop then
    if test start then some start else first test (start + 1) stop
  else
    none
  termination_by stop - start

/-- A position that `first` finds lies in the interval and passes the test. -/
theorem first_eq_some {test : Nat → Bool} {start stop found : Nat}
    (h : first test start stop = some found) : start ≤ found ∧ found < stop ∧ test found = true := by
  fun_induction first test start stop with
  | case1 start hlt htest =>
    simp only [Option.some.injEq] at h
    subst h
    exact ⟨Nat.le_refl _, hlt, htest⟩
  | case2 start hlt htest ih =>
    have := ih h
    exact ⟨by omega, this.2⟩
  | case3 => simp at h

/-- The position in `[low, high]` at which `test` stops holding, by bisection. It is the only one
with that property when `test` holds below some position and nowhere from it on. -/
def boundary (test : Nat → Bool) (low high : Nat) : Nat :=
  if low < high then
    if test ((low + high) / 2) then boundary test ((low + high) / 2 + 1) high
    else boundary test low ((low + high) / 2)
  else
    low
  termination_by high - low

end PacScript.Search
