import Mathlib.Algebra.Group.Nat.Defs
import Mathlib.Data.Nat.Size

/-!
Numbers cut to their leading bits.
-/

set_option autoImplicit false
set_option relaxedAutoImplicit false

namespace DigiByte.Library.LeadingBits

/-- The number with its lowest bits cleared. -/
def truncate (dropped x : ℕ) : ℕ := x / 2 ^ dropped * 2 ^ dropped

theorem truncate_le (dropped x : ℕ) : truncate dropped x ≤ x := Nat.div_mul_le_self x (2 ^ dropped)

theorem truncate_mono (dropped : ℕ) {x y : ℕ}
    (ordered : x ≤ y) : truncate dropped x ≤ truncate dropped y :=
  Nat.mul_le_mul_right _ (Nat.div_le_div_right ordered)

theorem le_truncate {dropped b x : ℕ} (divides : 2 ^ dropped ∣ b) (below : b ≤ x) :
    b ≤ truncate dropped x := by
  obtain ⟨c, rfl⟩ := divides
  rw [truncate, Nat.mul_comm (2 ^ dropped)]
  apply Nat.mul_le_mul_right
  rw [Nat.le_div_iff_mul_le (Nat.two_pow_pos dropped), Nat.mul_comm]
  exact below

theorem truncate_size_mono {dropped : ℕ → ℕ} (first : ∀ n, 0 < n → dropped n < n) {x y : ℕ}
    (ordered : x ≤ y) : truncate (dropped x.size) x ≤ truncate (dropped y.size) y := by
  rcases Nat.lt_or_ge x.size y.size with shorter | same
  · -- the power of two at the first bit of the longer number lies between the two
    have kept := first y.size (Nat.zero_lt_of_lt shorter)
    have left : x < 2 ^ (y.size - 1) := Nat.size_le.mp (Nat.le_sub_one_of_lt shorter)
    have right : 2 ^ (y.size - 1) ≤ truncate (dropped y.size) y := by
      apply le_truncate
      · exact Nat.pow_dvd_pow 2 (by omega)
      · exact Nat.lt_size.mp (by omega)
    have cut := truncate_le (dropped x.size) x
    omega
  · rw [Nat.le_antisymm same (Nat.size_le_size ordered)]
    exact truncate_mono _ ordered

end DigiByte.Library.LeadingBits
