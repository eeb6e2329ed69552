import DigiByte.Arith.Compact
import DigiByte.Library.BitSearch
import Mathlib.Algebra.Order.Ring.Nat

/-!
`ApproxNthRoot`: the root of the leading bits, shifted back. It lies below the true root by less
than one unit of its shift, its 64-bit products do not wrap, and it keeps the order of numbers.
-/

set_option autoImplicit false
set_option relaxedAutoImplicit false

namespace DigiByte.Arith

open Library.BitSearch (search tried search_spec search_greatest tried_lt)

/-- The loop over the power, in 64-bit words: `nPower` after `j` rounds. -/
def powerRounds (nNext j : ℕ) : ℕ := (fun p => p * nNext % 2 ^ 64)^[j] nNext

/-- The candidates that `rootSearch` tries. -/
def rootCandidates (n nHead : ℕ) : ℕ → ℕ → List ℕ
  | 0, _ => []
  | i + 1, nRoot =>
    let nNext := nRoot ||| 2 ^ i
    nNext :: rootCandidates n nHead i (if powerRounds nNext (n - 1) ≤ nHead then nNext else nRoot)

/-- `nShifts` of `ApproxNthRoot`. -/
def rootShifts (x : ArithUint256) (n : ℕ) : ℕ :=
  (max 0 (((bits x : ℤ) - 1).tdiv n + 1 - (64 / n : ℕ))).toNat

/-- `nHead` of `ApproxNthRoot`. -/
def rootHead (x : ArithUint256) (n : ℕ) : ℕ := getLow64 (x >>> (n * rootShifts x n))

/-- `nRoot` at the end of `ApproxNthRoot`. -/
def headRoot (x : ArithUint256) (n : ℕ) : ℕ := rootSearch n (rootHead x n) (64 / n) 0

theorem approxNthRoot_eq (x : ArithUint256) (n : ℕ) :
    approxNthRoot x n = BitVec.ofNat 256 (headRoot x n) <<< rootShifts x n := rfl

theorem powerRounds_eq {nNext : ℕ} (word : nNext < 2 ^ 64) (j : ℕ) :
    powerRounds nNext j = nNext ^ (j + 1) % 2 ^ 64 := by
  induction j with
  | zero => rw [zero_add, pow_one, Nat.mod_eq_of_lt word, powerRounds, Function.iterate_zero_apply]
  | succ j ih =>
    rw [powerRounds, Function.iterate_succ_apply', ← powerRounds, ih, Nat.mod_mul_mod,
      pow_succ _ (j + 1)]

theorem pow_lt_word {n m j : ℕ} (short : m < 2 ^ (64 / n)) (few : j ≤ n) : m ^ j < 2 ^ 64 := by
  rcases Nat.eq_zero_or_pos j with rfl | positive
  · norm_num
  · calc m ^ j < (2 ^ (64 / n)) ^ j := Nat.pow_lt_pow_left short (by omega)
      _ = 2 ^ (64 / n * j) := (pow_mul _ _ _).symm
      _ ≤ 2 ^ 64 := by
        apply Nat.pow_le_pow_right (by norm_num)
        exact (Nat.mul_le_mul_left _ few).trans (Nat.div_mul_le_self 64 n)

theorem powerRounds_short {n nNext j : ℕ} (short : nNext < 2 ^ (64 / n)) (few : j < n) :
    powerRounds nNext j = nNext ^ (j + 1) := by
  have word : nNext < 2 ^ 64 := by simpa using pow_lt_word short (show 1 ≤ n by omega)
  rw [powerRounds_eq word, Nat.mod_eq_of_lt (pow_lt_word short few)]

private theorem or_bit {i nRoot : ℕ} (aligned : 2 ^ (i + 1) ∣ nRoot) :
    nRoot ||| 2 ^ i = nRoot + 2 ^ i := by
  obtain ⟨c, rfl⟩ := aligned
  exact (Nat.two_pow_add_eq_or_of_lt (Nat.pow_lt_pow_succ (by norm_num)) c).symm

section Search

variable {n nHead : ℕ} (atLeast : 1 ≤ n)

include atLeast

private theorem round_eq {i nRoot : ℕ} (aligned : 2 ^ (i + 1) ∣ nRoot)
    (room : nRoot + 2 ^ (i + 1) ≤ 2 ^ (64 / n)) :
    nRoot ||| 2 ^ i = nRoot + 2 ^ i ∧
      powerRounds (nRoot + 2 ^ i) (n - 1) = (nRoot + 2 ^ i) ^ n := by
  refine ⟨or_bit aligned, ?_⟩
  have half : (2 : ℕ) ^ (i + 1) = 2 ^ i + 2 ^ i := by ring
  have positive := Nat.two_pow_pos i
  rw [powerRounds_short (n := n) (by omega) (by omega), Nat.sub_add_cancel atLeast]

private theorem rootSearch_eq : ∀ (i : ℕ) {nRoot : ℕ}, 2 ^ i ∣ nRoot →
    nRoot + 2 ^ i ≤ 2 ^ (64 / n) →
    rootSearch n nHead i nRoot = search (fun m => m ^ n ≤ nHead) i nRoot ∧
      rootCandidates n nHead i nRoot = tried (fun m => m ^ n ≤ nHead) i nRoot
  | 0, _, _, _ => ⟨rfl, rfl⟩
  | i + 1, nRoot, aligned, room => by
    have half : (2 : ℕ) ^ (i + 1) = 2 ^ i + 2 ^ i := by ring
    have coarse : 2 ^ i ∣ nRoot := (pow_dvd_pow 2 (Nat.le_succ i)).trans aligned
    obtain ⟨next, power⟩ := round_eq atLeast aligned room
    have power' : (fun p => p * (nRoot + 2 ^ i) % 2 ^ 64)^[n - 1] (nRoot + 2 ^ i) =
        (nRoot + 2 ^ i) ^ n := power
    simp only [rootSearch, rootCandidates, search, tried, next, power, power', decide_eq_true_eq]
    by_cases low : (nRoot + 2 ^ i) ^ n ≤ nHead
    · obtain ⟨found, candidates⟩ := rootSearch_eq i (Nat.dvd_add coarse (Nat.dvd_refl _)) (by omega)
      simp only [if_pos low]
      exact ⟨found, by rw [candidates]⟩
    · obtain ⟨found, candidates⟩ := rootSearch_eq i coarse (by omega)
      simp only [if_neg low]
      exact ⟨found, by rw [candidates]⟩

theorem innerProduct_lt (x : ArithUint256) {nNext j : ℕ}
    (candidate : nNext ∈ rootCandidates n (rootHead x n) (64 / n) 0) (round : j < n - 1) :
    powerRounds nNext j * nNext < 2 ^ 64 := by
  rw [(rootSearch_eq atLeast (64 / n) (dvd_zero _) (by omega)).2] at candidate
  have short : nNext < 2 ^ (64 / n) := by simpa using tried_lt candidate
  rw [powerRounds_short short (by omega), ← pow_succ]
  exact pow_lt_word short (by omega)

theorem headRoot_spec (x : ArithUint256) :
    headRoot x n < 2 ^ (64 / n) ∧ headRoot x n ^ n ≤ rootHead x n ∧
      (rootHead x n < 2 ^ (64 / n * n) → rootHead x n < (headRoot x n + 1) ^ n) := by
  have found : headRoot x n = search (fun m => m ^ n ≤ rootHead x n) (64 / n) 0 :=
    (rootSearch_eq atLeast (64 / n) (dvd_zero _) (by omega)).1
  have zero : decide (0 ^ n ≤ rootHead x n) = true := by simp [zero_pow (show n ≠ 0 by omega)]
  have inherited : ∀ {a b : ℕ}, a ≤ b → decide (b ^ n ≤ rootHead x n) = true →
      decide (a ^ n ≤ rootHead x n) = true := by
    intro a b ordered holds
    simp only [decide_eq_true_eq] at holds ⊢
    exact (Nat.pow_le_pow_left ordered n).trans holds
  obtain ⟨kept, -, below⟩ := @search_spec (fun m => m ^ n ≤ rootHead x n) (64 / n) 0 zero
  rw [← found, zero_add] at below
  rw [← found] at kept
  refine ⟨below, by simpa using kept, ?_⟩
  intro short
  rcases Nat.lt_or_ge (headRoot x n + 1) (2 ^ (64 / n)) with inside | full
  · have fails :=
      @search_greatest (fun m => m ^ n ≤ rootHead x n) inherited (64 / n) 0 (headRoot x n + 1)
      (by rw [← found]; exact Nat.lt_succ_self _) (by omega)
    simpa using fails
  · calc rootHead x n < 2 ^ (64 / n * n) := short
      _ = (2 ^ (64 / n)) ^ n := pow_mul _ _ _
      _ ≤ (headRoot x n + 1) ^ n := Nat.pow_le_pow_left full n

end Search

/-! The whole number. -/

section Root

variable {n : ℕ} (range : 1 < n ∧ n < 64)

private theorem rootShifts_eq {x : ArithUint256} (positive : 0 < x.toNat) :
    rootShifts x n = (x.toNat.size - 1) / n + 1 - 64 / n := by
  have nonempty : 0 < x.toNat.size := Nat.size_pos.mpr positive
  rw [rootShifts, bits_eq_size, show ((x.toNat.size : ℤ) - 1) = (x.toNat.size - 1 : ℕ) by omega,
    ← Int.ofNat_tdiv]
  omega

include range

private theorem rootHead_spec {x : ArithUint256} (positive : 0 < x.toNat) :
    rootHead x n < 2 ^ (64 / n * n) ∧ rootHead x n * 2 ^ (n * rootShifts x n) ≤ x.toNat ∧
      x.toNat < (rootHead x n + 1) * 2 ^ (n * rootShifts x n) := by
  have shifts := rootShifts_eq (n := n) positive
  have length : x.toNat.size ≤ n * ((x.toNat.size - 1) / n) + n := by
    have remainder := Nat.mod_lt (x.toNat.size - 1) (show 0 < n by omega)
    have split := Nat.div_add_mod (x.toNat.size - 1) n
    omega
  have covered : x.toNat.size ≤ 64 / n * n + n * rootShifts x n := by
    have wide : (x.toNat.size - 1) / n + 1 ≤ 64 / n + rootShifts x n := by omega
    have scaled := Nat.mul_le_mul_left n wide
    rw [Nat.mul_add, Nat.mul_add, Nat.mul_one, Nat.mul_comm n (64 / n)] at scaled
    omega
  have short : x.toNat / 2 ^ (n * rootShifts x n) < 2 ^ (64 / n * n) := by
    rw [Nat.div_lt_iff_lt_mul (Nat.two_pow_pos _), ← pow_add]
    exact Nat.size_le.mp covered
  have word : 2 ^ (64 / n * n) ≤ 2 ^ 64 :=
    Nat.pow_le_pow_right (by norm_num) (Nat.div_mul_le_self 64 n)
  have head : rootHead x n = x.toNat / 2 ^ (n * rootShifts x n) := by
    rw [rootHead, getLow64, BitVec.toNat_ushiftRight, Nat.shiftRight_eq_div_pow,
      Nat.mod_eq_of_lt (short.trans_le word)]
  rw [head]
  refine ⟨short, Nat.div_mul_le_self _ _, ?_⟩
  rw [Nat.mul_comm]
  exact Nat.lt_mul_div_succ _ (Nat.two_pow_pos _)

theorem approxNthRoot_spec {x : ArithUint256} (positive : 0 < x.toNat) :
    (approxNthRoot x n).toNat = headRoot x n * 2 ^ rootShifts x n ∧
      (headRoot x n * 2 ^ rootShifts x n) ^ n ≤ x.toNat ∧
      x.toNat < ((headRoot x n + 1) * 2 ^ rootShifts x n) ^ n := by
  obtain ⟨short, lower, upper⟩ := rootHead_spec range positive
  obtain ⟨-, below, above⟩ := headRoot_spec (show 1 ≤ n by omega) x
  have shifted : ∀ m : ℕ, (m * 2 ^ rootShifts x n) ^ n = m ^ n * 2 ^ (n * rootShifts x n) := by
    intro m
    rw [mul_pow, ← pow_mul, Nat.mul_comm (rootShifts x n)]
  have atMost : (headRoot x n * 2 ^ rootShifts x n) ^ n ≤ x.toNat := by
    rw [shifted]
    exact (Nat.mul_le_mul_right _ below).trans lower
  refine ⟨?_, atMost, ?_⟩
  · rw [approxNthRoot_eq]
    exact toNat_ofNat_shiftLeft ((Nat.le_self_pow (by omega) _).trans atMost)
  · rw [shifted]
    exact upper.trans_le (Nat.mul_le_mul_right _ (above short))

private theorem approxNthRoot_size {x : ArithUint256} (positive : 0 < x.toNat) :
    2 ^ ((x.toNat.size - 1) / n) ≤ (approxNthRoot x n).toNat ∧
      (approxNthRoot x n).toNat < 2 ^ ((x.toNat.size - 1) / n + 1) := by
  obtain ⟨value, lower, upper⟩ := approxNthRoot_spec range positive
  have nonempty : 0 < x.toNat.size := Nat.size_pos.mpr positive
  have nonzero : n ≠ 0 := by omega
  have parts := Nat.div_add_mod (x.toNat.size - 1) n
  have remainder := Nat.mod_lt (x.toNat.size - 1) (show 0 < n by omega)
  obtain ⟨k, length⟩ : ∃ k, k = (x.toNat.size - 1) / n := ⟨_, rfl⟩
  rw [← length] at parts ⊢
  rw [value]
  constructor
  · have first : (2 ^ k) ^ n ≤ x.toNat := by
      rw [← pow_mul]
      apply Nat.lt_size.mp
      rw [Nat.mul_comm]
      omega
    have exceeds : 2 ^ k < (headRoot x n + 1) * 2 ^ rootShifts x n :=
      (Nat.pow_lt_pow_iff_left nonzero).mp (first.trans_lt upper)
    have fewer : rootShifts x n ≤ k := by
      have bits : 1 ≤ 64 / n := (Nat.one_le_div_iff (by omega)).mpr (by omega)
      have shifts := rootShifts_eq (n := n) positive
      omega
    obtain ⟨rest, rfl⟩ := Nat.exists_eq_add_of_le fewer
    rw [Nat.add_comm, pow_add] at exceeds ⊢
    have quotient := Nat.lt_of_mul_lt_mul_right exceeds
    exact Nat.mul_le_mul_right _ (by omega)
  · have last : x.toNat < (2 ^ (k + 1)) ^ n := by
      rw [← pow_mul]
      apply Nat.size_le.mp
      rw [Nat.mul_comm, Nat.mul_add, Nat.mul_one]
      omega
    exact (Nat.pow_lt_pow_iff_left nonzero).mp (lower.trans_lt last)

theorem approxNthRoot_pos {x : ArithUint256} (positive : 0 < x.toNat) :
    0 < (approxNthRoot x n).toNat :=
  (Nat.two_pow_pos _).trans_le (approxNthRoot_size range positive).1

theorem approxNthRoot_mono {x y : ArithUint256} (positive : 0 < x.toNat)
    (ordered : x.toNat ≤ y.toNat) :
    (approxNthRoot x n).toNat ≤ (approxNthRoot y n).toNat := by
  have positive' := positive.trans_le ordered
  have lengths : (x.toNat.size - 1) / n ≤ (y.toNat.size - 1) / n :=
    Nat.div_le_div_right (Nat.sub_le_sub_right (Nat.size_le_size ordered) 1)
  rcases Nat.lt_or_eq_of_le lengths with shorter | same
  · -- a power of two lies between roots of different lengths
    calc (approxNthRoot x n).toNat ≤ 2 ^ ((x.toNat.size - 1) / n + 1) :=
          (approxNthRoot_size range positive).2.le
      _ ≤ 2 ^ ((y.toNat.size - 1) / n) := Nat.pow_le_pow_right (by norm_num) shorter
      _ ≤ (approxNthRoot y n).toNat := (approxNthRoot_size range positive').1
  · have shifts : rootShifts x n = rootShifts y n := by
      rw [rootShifts_eq positive, rootShifts_eq positive', same]
    obtain ⟨value, lower, -⟩ := approxNthRoot_spec range positive
    obtain ⟨value', -, upper⟩ := approxNthRoot_spec range positive'
    have exceeds :=
      (Nat.pow_lt_pow_iff_left (show n ≠ 0 by omega)).mp (lower.trans_lt (ordered.trans_lt upper))
    rw [shifts] at exceeds
    rw [value, value', shifts]
    have quotient := Nat.lt_of_mul_lt_mul_right exceeds
    exact Nat.mul_le_mul_right _ (by omega)

end Root

end DigiByte.Arith
