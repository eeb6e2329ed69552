import Mathlib.Algebra.BigOperators.Intervals
import Mathlib.Algebra.Order.BigOperators.Group.Finset
import Mathlib.Tactic.Ring

/-!
Sums of step functions: a payout that is constant on consecutive stretches of
`d` indices. The sum over any initial segment is the sum over the complete
stretches plus a remainder taken at the current level.
-/

set_option autoImplicit false
set_option relaxedAutoImplicit false

namespace DigiByte.Library.StepSchedule

open Finset

theorem sum_range_partial_stretch (f : ℕ → ℤ) {d r : ℕ} (n : ℕ) (within : r ≤ d) :
    ∑ x ∈ range r, f ((n * d + x) / d) = r * f n := by
  have level : ∀ x ∈ range r, f ((n * d + x) / d) = f n := by
    intro x hx
    have hlt : x < d := (mem_range.mp hx).trans_le within
    rw [Nat.mul_comm, Nat.mul_add_div (by omega), Nat.div_eq_of_lt hlt, Nat.add_zero]
  rw [sum_congr rfl level, sum_const, card_range, nsmul_eq_mul]

theorem sum_range_stretches (f : ℕ → ℤ) (d n : ℕ) :
    ∑ x ∈ range (n * d), f (x / d) = d * ∑ k ∈ range n, f k := by
  induction n with
  | zero => simp
  | succ n ih =>
    rw [Nat.succ_mul, sum_range_add, ih, sum_range_partial_stretch f n le_rfl, sum_range_succ]
    ring

theorem sum_range_schedule (f : ℕ → ℤ) {d r : ℕ} (n : ℕ) (within : r ≤ d) :
    ∑ x ∈ range (n * d + r), f (x / d) = d * ∑ k ∈ range n, f k + r * f n := by
  rw [sum_range_add, sum_range_stretches, sum_range_partial_stretch f n within]

/-- For nonnegative terms an upper bound on partial sums fails for ever once it
fails, so one crossing point decides it everywhere. -/
theorem sum_range_le_iff_of_crossing {f : ℕ → ℤ} (nonneg : ∀ n, 0 ≤ f n) {bound : ℤ} {N : ℕ}
    (below : ∑ h ∈ range (N + 1), f h ≤ bound) (above : bound < ∑ h ∈ range (N + 2), f h)
    (H : ℕ) : ∑ h ∈ range (H + 1), f h ≤ bound ↔ H ≤ N := by
  have mono : ∀ {a b : ℕ}, a ≤ b → ∑ h ∈ range a, f h ≤ ∑ h ∈ range b, f h := fun hab =>
    sum_le_sum_of_subset_of_nonneg (range_mono hab) fun i _ _ => nonneg i
  constructor
  · intro hle
    by_contra hlt
    have := mono (show N + 2 ≤ H + 1 by omega)
    omega
  · intro hle
    exact (mono (show H + 1 ≤ N + 1 by omega)).trans below

end DigiByte.Library.StepSchedule
