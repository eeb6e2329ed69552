import Mathlib.Algebra.Group.Nat.Defs
import Mathlib.Order.Lattice

/-!
The greatest number in a range with a property that smaller numbers inherit, found by halving
the range.
-/

set_option autoImplicit false
set_option relaxedAutoImplicit false

namespace DigiByte.Library.Bisection

/-- The upper middle of a range. -/
def middle (low high : ℕ) : ℕ := low + (high - low) / 2 + 1

/-- The search in the range from `low` to `high`. -/
def search (p : ℕ → Bool) : ℕ → ℕ → ℕ → ℕ
  | 0, low, _ => low
  | rounds + 1, low, high =>
    if low < high then
      if p (middle low high) then search p rounds (middle low high) high
      else search p rounds low (middle low high - 1)
    else low

variable {p : ℕ → Bool} {rounds low high : ℕ}

theorem middle_bounds (open_range : low < high) :
    low < middle low high ∧ middle low high ≤ high := by
  unfold middle
  omega

theorem half_lt (open_range : low < high) (short : high - low < 2 ^ (rounds + 1)) :
    high - middle low high < 2 ^ rounds ∧ middle low high - 1 - low < 2 ^ rounds := by
  rw [Nat.pow_succ] at short
  unfold middle
  omega

theorem search_spec (inherited : ∀ {a b : ℕ}, a ≤ b → p b = true → p a = true)
    (holds : p low = true) (ordered : low ≤ high) (short : high - low < 2 ^ rounds) :
    p (search p rounds low high) = true ∧ low ≤ search p rounds low high ∧
      search p rounds low high ≤ high ∧
      ∀ m, search p rounds low high < m → m ≤ high → p m = false := by
  induction rounds generalizing low high with
  | zero =>
    rw [Nat.pow_zero] at short
    refine ⟨holds, Nat.le_refl low, ordered, ?_⟩
    intro m above below
    rw [search] at above
    omega
  | succ rounds ih =>
    rw [search]
    by_cases open_range : low < high
    · obtain ⟨above, within⟩ := middle_bounds open_range
      obtain ⟨upper, lower⟩ := half_lt open_range short
      rw [if_pos open_range]
      cases tried : p (middle low high) with
      | true =>
        obtain ⟨kept, raised, bounded, greatest⟩ := ih tried within upper
        rw [if_pos rfl]
        exact ⟨kept, by omega, bounded, greatest⟩
      | false =>
        obtain ⟨kept, raised, bounded, greatest⟩ := ih holds (by omega) lower
        rw [if_neg Bool.false_ne_true]
        refine ⟨kept, raised, by omega, ?_⟩
        intro m beyond below
        rcases Nat.lt_or_ge m (middle low high) with small | large
        · exact greatest m beyond (by omega)
        · -- what was tried fails, and everything above it fails with it
          cases holds' : p m with
          | false => rfl
          | true => rw [inherited large holds'] at tried; cases tried
    · rw [if_neg open_range]
      refine ⟨holds, Nat.le_refl low, ordered, ?_⟩
      intro m above below
      omega

end DigiByte.Library.Bisection
