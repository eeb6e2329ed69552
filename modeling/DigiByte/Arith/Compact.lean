import DigiByte.Arith.ArithUint256
import DigiByte.Library.LeadingBits
import Mathlib.Data.Nat.Bitwise
import Mathlib.Tactic.NormNum
import Mathlib.Tactic.Ring

/-!
The compact form keeps the leading bits of a number: reading it back gives the number with
its lowest bytes cleared, so the order of numbers survives.
-/

set_option autoImplicit false
set_option relaxedAutoImplicit false

namespace DigiByte.Arith

open Library.LeadingBits

theorem bits_eq_size (x : ArithUint256) : bits x = x.toNat.size := by
  unfold bits
  by_cases zero : x = 0
  · rw [if_pos zero, zero]
    rfl
  · have nonzero : x.toNat ≠ 0 := fun h => zero (BitVec.eq_of_toNat_eq h)
    rw [if_neg zero]
    apply le_antisymm
    · exact Nat.lt_size.mpr (Nat.log2_self_le nonzero)
    · exact Nat.size_le.mpr Nat.lt_log2_self

theorem size_le_width (x : ArithUint256) : x.toNat.size ≤ 256 := Nat.size_le.mpr x.isLt

section Word

variable {nSize mantissa : ℕ}

private theorem toNat_compactWord (small : mantissa < 2 ^ 23) (short : nSize < 256) :
    (UInt32.ofNat (mantissa ||| nSize <<< 24)).toNat = nSize * 2 ^ 24 + mantissa := by
  have joined : mantissa ||| nSize <<< 24 = nSize * 2 ^ 24 + mantissa := by
    rw [Nat.lor_comm, ← Nat.shiftLeft_add_eq_or_of_lt (by omega), Nat.shiftLeft_eq]
  rw [joined]
  apply UInt32.toNat_ofNat_of_lt'
  rw [show UInt32.size = 2 ^ 32 by rfl]
  omega

theorem target_compactWord (small : mantissa < 2 ^ 23) (short : nSize < 256) :
    (setCompact (UInt32.ofNat (mantissa ||| nSize <<< 24))).target =
      if nSize ≤ 3 then BitVec.ofNat 256 (mantissa / 2 ^ (8 * (3 - nSize)))
      else BitVec.ofNat 256 mantissa <<< (8 * (nSize - 3)) := by
  have high : (nSize * 2 ^ 24 + mantissa) >>> 24 = nSize := by
    rw [Nat.shiftRight_eq_div_pow]
    omega
  have low : (nSize * 2 ^ 24 + mantissa) &&& 0x007fffff = mantissa := by
    rw [show 0x007fffff = 2 ^ 23 - 1 by rfl, Nat.and_two_pow_sub_one_eq_mod]
    omega
  simp only [setCompact, toNat_compactWord small short, high, low, Nat.shiftRight_eq_div_pow]
  split <;> rfl

end Word

/-- The bits that the compact form of a number of so many bits drops. -/
def compactDrop (length : ℕ) : ℕ := 8 * (length / 8 - 2)

theorem compactDrop_lt (length : ℕ) (positive : 0 < length) : compactDrop length < length := by
  unfold compactDrop
  omega

/-- The three leading bytes of a number of `nSize` bytes, before the sign bit is freed. -/
def leadingBytes (x nSize : ℕ) : ℕ :=
  if nSize ≤ 3 then x * 2 ^ (8 * (3 - nSize)) else x / 2 ^ (8 * (nSize - 3))

section Leading

variable {x nSize : ℕ}

private theorem leadingBytes_lt (fits : x < 2 ^ (8 * nSize)) : leadingBytes x nSize < 2 ^ 24 := by
  unfold leadingBytes
  split
  · calc x * 2 ^ (8 * (3 - nSize)) < 2 ^ (8 * nSize) * 2 ^ (8 * (3 - nSize)) :=
          Nat.mul_lt_mul_of_pos_right fits (Nat.two_pow_pos _)
      _ = 2 ^ 24 := by
          rw [← pow_add]
          congr 1
          omega
  · rw [Nat.div_lt_iff_lt_mul (Nat.two_pow_pos _), ← pow_add]
    convert fits using 2
    omega

private theorem leadingBytes_ge_iff (positive : 0 < nSize) :
    2 ^ 23 ≤ leadingBytes x nSize ↔ 8 * nSize ≤ x.size := by
  have filled : 8 * nSize ≤ x.size ↔ 2 ^ (8 * nSize - 1) ≤ x := by
    rw [← Nat.lt_size]
    omega
  rw [filled]
  unfold leadingBytes
  split
  · have split23 : 2 ^ 23 = 2 ^ (8 * nSize - 1) * 2 ^ (8 * (3 - nSize)) := by
      rw [← pow_add]
      congr 1
      omega
    rw [split23]
    exact Nat.mul_le_mul_right_iff (Nat.two_pow_pos _)
  · rw [Nat.le_div_iff_mul_le (Nat.two_pow_pos _), ← pow_add]
    have sum : 23 + 8 * (nSize - 3) = 8 * nSize - 1 := by omega
    rw [sum]

end Leading

theorem getCompact_eq (x : ArithUint256) {nSize : ℕ} (size : nSize = (x.toNat.size + 7) / 8) :
    getCompact x =
      if 2 ^ 23 ≤ leadingBytes x.toNat nSize then
        UInt32.ofNat (leadingBytes x.toNat nSize / 2 ^ 8 ||| (nSize + 1) <<< 24)
      else UInt32.ofNat (leadingBytes x.toNat nSize ||| nSize <<< 24) := by
  have fits : x.toNat < 2 ^ (8 * nSize) := Nat.size_le.mp (by omega)
  have bounded := leadingBytes_lt fits
  have word : (if nSize ≤ 3 then (getLow64 x <<< (8 * (3 - nSize))) % 2 ^ 32
      else getLow64 (x >>> (8 * (nSize - 3))) % 2 ^ 32) = leadingBytes x.toNat nSize := by
    unfold leadingBytes at bounded ⊢
    by_cases short : nSize ≤ 3
    · rw [if_pos short] at bounded ⊢
      rw [if_pos short]
      have low : x.toNat < 2 ^ 64 := fits.trans_le (Nat.pow_le_pow_right (by norm_num) (by omega))
      rw [getLow64, Nat.mod_eq_of_lt low, Nat.shiftLeft_eq, Nat.mod_eq_of_lt (by omega)]
    · rw [if_neg short] at bounded ⊢
      rw [if_neg short]
      have low : x.toNat / 2 ^ (8 * (nSize - 3)) < 2 ^ 64 := bounded.trans (by norm_num)
      rw [getLow64, BitVec.toNat_ushiftRight, Nat.shiftRight_eq_div_pow, Nat.mod_eq_of_lt low,
        Nat.mod_eq_of_lt (bounded.trans (by norm_num))]
  have sign : leadingBytes x.toNat nSize &&& 0x00800000 ≠ 0 ↔
      2 ^ 23 ≤ leadingBytes x.toNat nSize := by
    rw [show 0x00800000 = 2 ^ 23 by rfl, Nat.and_two_pow, Nat.testBit_eq_decide_div_mod_eq]
    simp
    omega
  simp only [getCompact, bits_eq_size, ← size, word, sign, Nat.shiftRight_eq_div_pow]

theorem toNat_ofNat_shiftLeft {m k : ℕ} {x : ArithUint256} (below : m * 2 ^ k ≤ x.toNat) :
    (BitVec.ofNat 256 m <<< k).toNat = m * 2 ^ k := by
  have fits : m * 2 ^ k < 2 ^ 256 := below.trans_lt x.isLt
  have small : m < 2 ^ 256 := (Nat.le_mul_of_pos_right m (Nat.two_pow_pos k)).trans_lt fits
  rw [BitVec.toNat_shiftLeft, BitVec.toNat_ofNat, Nat.mod_eq_of_lt small, Nat.shiftLeft_eq,
    Nat.mod_eq_of_lt fits]

private theorem toNat_readBack (x : ArithUint256) (nSize freed : ℕ) :
    (if nSize + freed ≤ 3 then
        BitVec.ofNat 256 (leadingBytes x.toNat nSize / 2 ^ (8 * freed) /
          2 ^ (8 * (3 - (nSize + freed))))
      else BitVec.ofNat 256 (leadingBytes x.toNat nSize / 2 ^ (8 * freed)) <<<
        (8 * (nSize + freed - 3))).toNat = truncate (8 * (nSize + freed - 3)) x.toNat := by
  unfold leadingBytes
  by_cases short : nSize + freed ≤ 3
  · rw [if_pos short, if_pos (by omega), Nat.div_div_eq_div_mul, ← pow_add,
      show 8 * freed + 8 * (3 - (nSize + freed)) = 8 * (3 - nSize) by omega,
      Nat.mul_div_cancel _ (Nat.two_pow_pos _), BitVec.toNat_ofNat, Nat.mod_eq_of_lt x.isLt,
      show 8 * (nSize + freed - 3) = 0 by omega]
    simp [truncate]
  · rw [if_neg short]
    have quotient :
        (if nSize ≤ 3 then x.toNat * 2 ^ (8 * (3 - nSize)) else x.toNat / 2 ^ (8 * (nSize - 3))) /
        2 ^ (8 * freed) = x.toNat / 2 ^ (8 * (nSize + freed - 3)) := by
      by_cases few : nSize ≤ 3
      · rw [if_pos few, show 8 * freed =
          8 * (nSize + freed - 3) + 8 * (3 - nSize) by omega, pow_add,
          Nat.mul_div_mul_right _ _ (Nat.two_pow_pos _)]
      · rw [if_neg few, Nat.div_div_eq_div_mul, ← pow_add]
        congr 2
        omega
    rw [quotient]
    exact toNat_ofNat_shiftLeft (truncate_le _ _)

theorem toNat_target_getCompact (x : ArithUint256) :
    (setCompact (getCompact x)).target.toNat = truncate (compactDrop x.toNat.size) x.toNat := by
  obtain ⟨nSize, size⟩ : ∃ nSize, nSize = (x.toNat.size + 7) / 8 := ⟨_, rfl⟩
  have width := size_le_width x
  have bounded := leadingBytes_lt (show x.toNat < 2 ^ (8 * nSize) from Nat.size_le.mp (by omega))
  rw [getCompact_eq x size]
  by_cases taken : 2 ^ 23 ≤ leadingBytes x.toNat nSize
  · -- one byte more is dropped to free the sign bit
    rw [if_pos taken, target_compactWord (by omega) (by omega)]
    have filled : 0 < nSize → 8 * nSize ≤ x.toNat.size := fun positive =>
      (leadingBytes_ge_iff positive).mp taken
    have dropped : compactDrop x.toNat.size = 8 * (nSize + 1 - 3) := by
      unfold compactDrop
      omega
    rw [dropped]
    exact toNat_readBack x nSize 1
  · rw [if_neg taken, target_compactWord (by omega) (by omega)]
    have partly : 0 < nSize → x.toNat.size < 8 * nSize := fun positive =>
      not_le.mp (mt (leadingBytes_ge_iff positive).mpr taken)
    have dropped : compactDrop x.toNat.size = 8 * (nSize + 0 - 3) := by
      unfold compactDrop
      omega
    rw [dropped, ← toNat_readBack x nSize 0]
    simp

theorem target_getCompact_le (x : ArithUint256) : (setCompact (getCompact x)).target ≤ x := by
  rw [BitVec.le_def, toNat_target_getCompact]
  exact truncate_le _ _

theorem target_getCompact_mono {x y : ArithUint256} (ordered : x ≤ y) :
    (setCompact (getCompact x)).target ≤ (setCompact (getCompact y)).target := by
  rw [BitVec.le_def, toNat_target_getCompact, toNat_target_getCompact]
  exact truncate_size_mono compactDrop_lt (BitVec.le_def.mp ordered)

end DigiByte.Arith
