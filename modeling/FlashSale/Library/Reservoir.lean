import Mathlib.Algebra.BigOperators.Intervals
import Mathlib.Algebra.Order.BigOperators.Group.Finset
import Mathlib.Algebra.Order.Group.MinMax
import Mathlib.Tactic.Abel

/-!
# Reservoirs

A reservoir holds at most `c`, starts full, is drained by `g n` at step `n` and
is then fed by what the inflow `a` has gained up to the next step; what does not
fit is lost. `level c a g n` is what it holds before step `n` drains it.

The level keeps only the last value, and yet it knows every window of the past:
`le_level_iff` says that an amount is available exactly when no window of the
history, with the amount added, takes more than `c` and the inflow of the window.
-/

namespace Reservoir

variable {α : Type*} [AddCommGroup α] [LinearOrder α]

/-- What the reservoir holds before step `n`. -/
def level (c : α) (a g : ℕ → α) : ℕ → α
  | 0 => c
  | n + 1 => min c (level c a g n - g n + (a (n + 1) - a n))

variable (c : α) (a g : ℕ → α)

@[simp] theorem level_zero : level c a g 0 = c := rfl

theorem level_succ (n : ℕ) :
    level c a g (n + 1) = min c (level c a g n - g n + (a (n + 1) - a n)) := rfl

variable {c a g}

/-- Emptying the reservoir at every step takes the most that can be taken
(`level_add_sum_le`). -/
theorem level_add_sum_eq {n : ℕ} (hg : ∀ i < n, g i = level c a g i) :
    level c a g n + ∑ j ∈ Finset.range n, g j =
      c + ∑ j ∈ Finset.range n, min c (a (j + 1) - a j) := by
  induction n with
  | zero => simp
  | succ n ih =>
      have hbefore := ih fun i hi => hg i (Nat.lt_succ_of_lt hi)
      have hfed : level c a g (n + 1) = min c (a (n + 1) - a n) := by
        rw [level_succ, hg n (Nat.lt_succ_self n), sub_self, zero_add]
      rw [Finset.sum_range_succ, Finset.sum_range_succ, hg n (Nat.lt_succ_self n), hfed,
        ← add_assoc c, ← hbefore]
      abel

section Ordered

variable [IsOrderedAddMonoid α]

/-- The amount `x` is available before step `n` if and only if no window that
ends there, with `x` added, takes more than the capacity and its inflow. -/
theorem le_level_iff {x : α} {n : ℕ} :
    x ≤ level c a g n ↔
      ∀ i ≤ n, (∑ j ∈ Finset.Ico i n, g j) + x ≤ c + (a n - a i) := by
  induction n generalizing x with
  | zero =>
      constructor
      · intro h i hi
        rw [Nat.le_zero.1 hi]
        simpa using h
      · intro h
        simpa using h 0 le_rfl
  | succ n ih =>
      rw [level_succ, le_min_iff]
      have hstep : x ≤ level c a g n - g n + (a (n + 1) - a n) ↔
          g n + (x - (a (n + 1) - a n)) ≤ level c a g n := by
        rw [← sub_le_iff_le_add, le_sub_iff_add_le']
      rw [hstep, ih]
      have hwindow : ∀ i ≤ n, ((∑ j ∈ Finset.Ico i n, g j) + (g n + (x - (a (n + 1) - a n))) ≤
          c + (a n - a i) ↔ (∑ j ∈ Finset.Ico i (n + 1), g j) + x ≤ c + (a (n + 1) - a i)) := by
        intro i hi
        rw [Finset.sum_Ico_succ_top hi, ← add_assoc, ← add_sub_assoc, sub_le_iff_le_add,
          add_assoc c]
        simp
      constructor
      · rintro ⟨hc, h⟩ i hi
        rcases Nat.le_succ_iff.1 hi with hi | rfl
        · exact (hwindow i hi).1 (h i hi)
        · simpa using hc
      · intro h
        refine ⟨by simpa using h (n + 1) le_rfl, fun i hi => ?_⟩
        exact (hwindow i hi).2 (h i (Nat.le_succ_of_le hi))

/-- A window takes no more than the capacity and its inflow. -/
theorem sum_window_le {n : ℕ} (hg : g n ≤ level c a g n) {i : ℕ} (hi : i ≤ n) :
    ∑ j ∈ Finset.Ico i (n + 1), g j ≤ c + (a n - a i) := by
  rw [Finset.sum_Ico_succ_top hi]
  exact le_level_iff.1 hg i hi

/-- What is taken from the start, when nothing is taken that is not there: each
time the reservoir is fed, it gains at most its capacity. -/
theorem level_add_sum_le {n : ℕ} (hg : ∀ i < n, g i ≤ level c a g i) :
    level c a g n + ∑ j ∈ Finset.range n, g j ≤
      c + ∑ j ∈ Finset.range n, min c (a (j + 1) - a j) := by
  induction n with
  | zero => simp
  | succ n ih =>
      have hrest : 0 ≤ level c a g n - g n := sub_nonneg.2 (hg n (Nat.lt_succ_self n))
      have hfed : level c a g (n + 1) ≤ level c a g n - g n + min c (a (n + 1) - a n) := by
        rw [level_succ, ← min_add_add_left]
        exact min_le_min_right _ (le_add_of_nonneg_left hrest)
      have hbefore := ih fun i hi => hg i (Nat.lt_succ_of_lt hi)
      rw [Finset.sum_range_succ, Finset.sum_range_succ]
      calc level c a g (n + 1) + (∑ j ∈ Finset.range n, g j + g n)
          ≤ level c a g n - g n + min c (a (n + 1) - a n) +
              (∑ j ∈ Finset.range n, g j + g n) := add_le_add_left hfed _
        _ = level c a g n + ∑ j ∈ Finset.range n, g j + min c (a (n + 1) - a n) := by abel
        _ ≤ c + ∑ j ∈ Finset.range n, min c (a (j + 1) - a j) + min c (a (n + 1) - a n) :=
            add_le_add_left hbefore _
        _ = _ := add_assoc _ _ _

end Ordered

end Reservoir
