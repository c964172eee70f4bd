/-!
# Searching by halves

When a test holds of the first few indices and of none after them, the number of indices that pass
is found by halving the range again and again. `partitionPoint_le` says that the answer is never
beyond the range, whatever the test, and `lt_partitionPoint_iff` that the test holds of the indices
before the answer and of no other.
-/

set_option autoImplicit false

namespace Lindenmayer

/-- The place in the range from `low` to `high` where the test stops to hold. -/
def partitionPointFrom (test : Nat → Bool) (low high : Nat) : Nat :=
  if low < high then
    let middle := low + (high - low) / 2
    if test middle then partitionPointFrom test (middle + 1) high
    else partitionPointFrom test low middle
  else low
termination_by high - low

/-- The least index below `size` of which the test does not hold, or `size` if there is none,
provided that the test holds of an index only if it holds of all smaller ones. -/
def partitionPoint (size : Nat) (test : Nat → Bool) : Nat := partitionPointFrom test 0 size

theorem partitionPointFrom_le {test : Nat → Bool} {low high : Nat} (hle : low ≤ high) :
    partitionPointFrom test low high ≤ high := by
  fun_induction partitionPointFrom test low high with
  | case1 low high hlt middle htest ih => exact ih (by omega)
  | case2 low high hlt middle htest ih => exact Nat.le_trans (ih (by omega)) (by omega)
  | case3 low high hlt => exact hle

/-- The place where a test stops to hold is not beyond the range. -/
theorem partitionPoint_le (size : Nat) (test : Nat → Bool) : partitionPoint size test ≤ size :=
  partitionPointFrom_le (Nat.zero_le size)

/-- The indices below `low` pass and those from `high` on do not, which every halving preserves. -/
theorem lt_partitionPointFrom_iff {test : Nat → Bool} {low high size : Nat} (hle : low ≤ high)
    (hhigh : high ≤ size)
    (hdown : ∀ first second, first ≤ second → second < size → test second → test first)
    (hbelow : ∀ index < low, test index)
    (habove : ∀ index, high ≤ index → index < size → ¬ test index) {index : Nat}
    (hindex : index < size) : index < partitionPointFrom test low high ↔ test index := by
  fun_induction partitionPointFrom test low high with
  | case1 low high hlt middle htest ih =>
    refine ih (by omega) hhigh (fun index' hindex' ↦ ?_) habove
    exact hdown index' middle (by omega) (by omega) htest
  | case2 low high hlt middle htest ih =>
    refine ih (by omega) (by omega) hbelow fun index' hindex' hsize htest' ↦ ?_
    exact htest (hdown middle index' hindex' hsize htest')
  | case3 low high hlt =>
    obtain rfl : low = high := by omega
    refine ⟨hbelow index, fun htest ↦ Nat.lt_of_not_le fun hle' ↦ ?_⟩
    exact habove index hle' hindex htest

/-- When a test holds of every index before one of which it holds, it holds of the indices before
the place found, and of none from there on. -/
theorem lt_partitionPoint_iff {test : Nat → Bool} {size : Nat}
    (hdown : ∀ first second, first ≤ second → second < size → test second → test first)
    {index : Nat} (hindex : index < size) : index < partitionPoint size test ↔ test index :=
  lt_partitionPointFrom_iff (Nat.zero_le size) (Nat.le_refl size) hdown
    (fun _ h ↦ absurd h (Nat.not_lt_zero _)) (fun _ hge hlt ↦ absurd hlt (Nat.not_lt.mpr hge))
    hindex

end Lindenmayer
