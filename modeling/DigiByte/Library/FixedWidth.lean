import DigiByte.Library.SignMagnitude
import Mathlib.Algebra.Order.Ring.Int

/-!
Machine words as little-endian byte strings of a fixed width, and signed numbers as the
bit patterns of such words.
-/

set_option autoImplicit false
set_option relaxedAutoImplicit false

namespace DigiByte.Library.FixedWidth

open SignMagnitude (ofBytes ofBytes_lt)

/-- The low `width` bytes of `n`, least significant first. -/
def bytesOf : (width n : ℕ) → List UInt8
  | 0, _ => []
  | width + 1, n => UInt8.ofNat (n % 256) :: bytesOf width (n / 256)

@[simp]
theorem length_bytesOf (width n : ℕ) : (bytesOf width n).length = width := by
  induction width generalizing n with
  | zero => rfl
  | succ width ih => rw [bytesOf, List.length_cons, ih]

theorem ofBytes_bytesOf_eq_mod (width n : ℕ) : ofBytes (bytesOf width n) = n % 256 ^ width := by
  induction width generalizing n with
  | zero =>
    rw [pow_zero, Nat.mod_one]
    rfl
  | succ width ih =>
    rw [bytesOf, ofBytes, ih, UInt8.toNat_ofNat', Nat.mod_mod, pow_succ', Nat.mod_mul]

theorem ofBytes_bytesOf {width n : ℕ} (fits : n < 256 ^ width) :
    ofBytes (bytesOf width n) = n := by
  rw [ofBytes_bytesOf_eq_mod, Nat.mod_eq_of_lt fits]

theorem bytesOf_ofBytes (bytes : List UInt8) : bytesOf bytes.length (ofBytes bytes) = bytes := by
  induction bytes with
  | nil => rfl
  | cons b rest ih =>
    have low : (b.toNat + 256 * ofBytes rest) % 256 = b.toNat := by
      have := b.toNat_lt
      omega
    have high : (b.toNat + 256 * ofBytes rest) / 256 = ofBytes rest := by
      have := b.toNat_lt
      omega
    rw [List.length_cons, ofBytes, bytesOf, low, high, ih, UInt8.ofNat_toNat]

theorem eq_of_ofBytes_eq {as bs : List UInt8} (length : as.length = bs.length)
    (same : ofBytes as = ofBytes bs) : as = bs := by
  rw [← bytesOf_ofBytes as, ← bytesOf_ofBytes bs, length, same]

/-! Signed numbers. -/

/-- The pattern of a signed number. -/
def pattern (modulus : ℕ) (value : ℤ) : ℕ := (value % modulus).toNat

theorem pattern_lt {modulus : ℕ} (positive : 0 < modulus)
    (value : ℤ) : pattern modulus value < modulus := by
  have low := Int.emod_nonneg value (show (modulus : ℤ) ≠ 0 by omega)
  have high := Int.emod_lt_of_pos value (show (0 : ℤ) < modulus by omega)
  unfold pattern
  omega

theorem pattern_of_nonneg (modulus : ℕ) {value : ℤ} (nonneg : 0 ≤ value) :
    (pattern modulus value : ℤ) = value % modulus := by
  have remainder : 0 ≤ value % modulus := by
    rcases Nat.eq_zero_or_pos modulus with rfl | positive
    · simpa using nonneg
    · exact Int.emod_nonneg value (by omega)
  rw [pattern, Int.toNat_of_nonneg remainder]

theorem bmod_pattern {modulus : ℕ} (positive : 0 < modulus) {value : ℤ}
    (low : -(modulus / 2 : ℤ) ≤ value) (high : value < ((modulus : ℤ) + 1) / 2) :
    (pattern modulus value : ℤ).bmod modulus = value := by
  have nonneg := Int.emod_nonneg value (show (modulus : ℤ) ≠ 0 by omega)
  rw [pattern, Int.toNat_of_nonneg nonneg, Int.emod_bmod]
  exact Int.bmod_eq_of_le low high

theorem pattern_bmod {modulus word : ℕ} (fits : word < modulus) :
    pattern modulus ((word : ℤ).bmod modulus) = word := by
  rw [pattern, Int.bmod_emod, Int.emod_eq_of_lt (by omega) (by omega), Int.toNat_natCast]

end DigiByte.Library.FixedWidth
