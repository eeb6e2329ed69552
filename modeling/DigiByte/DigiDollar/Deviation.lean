import DigiByte.DigiDollar.Volatility
import DigiByte.Library.Bisection
import Mathlib.Algebra.BigOperators.Fin
import Mathlib.Algebra.Order.Chebyshev

/-!
The integer standard deviation in the machine's own numbers (`IntegerSqrtFloor`,
`CalculateStandardDeviationBps` of `volatility.cpp`).

The square root searches with 64-bit words, which wrap, and squares them in 128 bits. The sums
are signed 128-bit numbers, for which an overflow is undefined: here it gives no result.
-/

set_option autoImplicit false
set_option relaxedAutoImplicit false

namespace DigiByte.DigiDollar.Volatility

open Consensus (INT64_MAX)
open Library

/-! The square root. -/

/-- The midpoint of the search, in 64 bits. -/
def mid64 (low high : BitVec 64) : BitVec 64 := low + (high - low) / 2 + 1

/-- The square of a 64-bit number, in 128 bits. -/
def square128 (mid : BitVec 64) : BitVec 128 := mid.setWidth 128 * mid.setWidth 128

/-- The loop of `IntegerSqrtFloor`; `none` if it has not ended after so many rounds. -/
def sqrtLoop (value : BitVec 128) : ℕ → BitVec 64 → BitVec 64 → Option (BitVec 64)
  | 0, low, high => if low < high then none else some low
  | rounds + 1, low, high =>
    if low < high then
      if square128 (mid64 low high) ≤ value then sqrtLoop value rounds (mid64 low high) high
      else sqrtLoop value rounds low (mid64 low high - 1)
    else some low

/-- The rounds after which the search has surely ended. -/
def SQRT_ROUNDS : ℕ := 64

def integerSqrtFloor128 (value : BitVec 128) : Option (BitVec 64) :=
  sqrtLoop value SQRT_ROUNDS 0 (BitVec.allOnes 64)

/-- The integer part of the square root. -/
def IsRoot (value : BitVec 128) (s : BitVec 64) : Prop :=
  s.toNat ^ 2 ≤ value.toNat ∧ value.toNat < (s.toNat + 1) ^ 2

/-- The numbers whose square is at most the value. -/
def squareFits (value m : ℕ) : Bool := m * m ≤ value

section Root

variable {value : BitVec 128} {low high : BitVec 64}

theorem squareFits_iff {value m : ℕ} : squareFits value m = true ↔ m * m ≤ value :=
  decide_eq_true_iff

theorem squareFits_inherited {value a b : ℕ} (ordered : a ≤ b) (fits : squareFits value b = true) :
    squareFits value a = true := by
  rw [squareFits_iff] at fits ⊢
  exact (Nat.mul_le_mul ordered ordered).trans fits

theorem toNat_mid64 (open_range : low < high) :
    (mid64 low high).toNat = Bisection.middle low.toNat high.toNat := by
  have below := BitVec.lt_def.mp open_range
  have limit := high.isLt
  have difference : (high - low).toNat = high.toNat - low.toNat :=
    BitVec.toNat_sub_of_le (BitVec.le_of_lt open_range)
  have two : (2 : BitVec 64).toNat = 2 := rfl
  have one : (1 : BitVec 64).toNat = 1 := rfl
  simp only [mid64, BitVec.toNat_add, BitVec.toNat_udiv, difference, two, one, Bisection.middle]
  omega

theorem toNat_square128 (mid : BitVec 64) : (square128 mid).toNat = mid.toNat * mid.toNat := by
  have limit := mid.isLt
  have wide : (mid.setWidth 128).toNat = mid.toNat := BitVec.toNat_setWidth_of_le (by decide)
  have small : mid.toNat * mid.toNat < 2 ^ 128 := by
    calc mid.toNat * mid.toNat < 2 ^ 64 * 2 ^ 64 := Nat.mul_lt_mul'' limit limit
      _ = 2 ^ 128 := by decide
  rw [square128, BitVec.toNat_mul, wide, Nat.mod_eq_of_lt small]

theorem square128_le_iff (mid : BitVec 64) :
    square128 mid ≤ value ↔ squareFits value.toNat mid.toNat = true := by
  rw [BitVec.le_def, toNat_square128, squareFits_iff]

theorem sqrtLoop_eq {rounds : ℕ} (ordered : low ≤ high)
    (short : high.toNat - low.toNat < 2 ^ rounds) :
    ∃ s, sqrtLoop value rounds low high = some s ∧
      s.toNat = Bisection.search (squareFits value.toNat) rounds low.toNat high.toNat := by
  induction rounds generalizing low high with
  | zero =>
    have below := BitVec.le_def.mp ordered
    have closed : ¬low < high := by
      rw [BitVec.lt_def]
      omega
    exact ⟨low, by rw [sqrtLoop, if_neg closed], rfl⟩
  | succ rounds ih =>
    rw [sqrtLoop, Bisection.search]
    by_cases open_range : low < high
    · have open_nat := BitVec.lt_def.mp open_range
      have exact_mid := toNat_mid64 open_range
      obtain ⟨above, within⟩ := Bisection.middle_bounds open_nat
      obtain ⟨upper, lower⟩ := Bisection.half_lt open_nat short
      rw [if_pos open_range, if_pos open_nat, ← exact_mid]
      rw [← exact_mid] at above within upper lower
      by_cases fits : square128 (mid64 low high) ≤ value
      · rw [if_pos fits, if_pos ((square128_le_iff _).mp fits)]
        exact ih (BitVec.le_def.mpr within) upper
      · have before : (mid64 low high - 1).toNat = (mid64 low high).toNat - 1 := by
          apply BitVec.toNat_sub_of_le
          rw [BitVec.le_def]
          exact Nat.succ_le_of_lt (by omega)
        rw [if_neg fits, if_neg (mt (square128_le_iff _).mpr fits), ← before]
        apply ih
        · rw [BitVec.le_def, before]
          omega
        · rw [before]
          exact lower
    · rw [if_neg open_range, if_neg (mt BitVec.lt_def.mpr open_range)]
      exact ⟨low, rfl, rfl⟩

theorem search_eq_sqrt {rounds v : ℕ} (enough : 64 ≤ rounds) (small : v < 2 ^ 128) :
    Bisection.search (squareFits v) rounds 0 (2 ^ 64 - 1) = v.sqrt := by
  have short : 2 ^ 64 - 1 - 0 < 2 ^ rounds := by
    have grows : 2 ^ 64 ≤ 2 ^ rounds := Nat.pow_le_pow_right (by decide) enough
    omega
  obtain ⟨fits, -, bounded, greatest⟩ := Bisection.search_spec squareFits_inherited
    (by simp [squareFits] : squareFits v 0 = true) (Nat.zero_le (2 ^ 64 - 1)) short
  generalize Bisection.search (squareFits v) rounds 0 (2 ^ 64 - 1) = root at fits bounded greatest ⊢
  apply Nat.eq_sqrt.mpr
  refine ⟨by simpa [squareFits] using fits, ?_⟩
  rcases Nat.lt_or_ge root (2 ^ 64 - 1) with inside | top
  · have fails := greatest (root + 1) (Nat.lt_succ_self root) (by omega)
    simpa [squareFits] using fails
  · -- the value has 128 bits, so the greatest 64-bit number is never too small
    have whole : root + 1 = 2 ^ 64 := by omega
    rw [whole]
    exact small

theorem sqrtSearch_eq {v rounds low high : ℕ} :
    sqrtSearch v rounds low high = Bisection.search (squareFits v) rounds low high := by
  induction rounds generalizing low high with
  | zero => rfl
  | succ rounds ih =>
    rw [sqrtSearch, Bisection.search]
    simp only [ih, squareFits_iff, Bisection.middle]

theorem integerSqrtFloor_eq {v : ℕ} (small : v < 2 ^ 128) : integerSqrtFloor v = v.sqrt := by
  rw [integerSqrtFloor, sqrtSearch_eq]
  exact search_eq_sqrt (Nat.le_refl 64) small

theorem sqrtLoop_eq_sqrt {rounds : ℕ} (enough : 64 ≤ rounds) (value : BitVec 128) :
    sqrtLoop value rounds 0 (BitVec.allOnes 64) = some (BitVec.ofNat 64 value.toNat.sqrt) := by
  have top : (BitVec.allOnes 64).toNat = 2 ^ 64 - 1 := BitVec.toNat_allOnes
  have short : (BitVec.allOnes 64).toNat - (0 : BitVec 64).toNat < 2 ^ rounds := by
    have grows : 2 ^ 64 ≤ 2 ^ rounds := Nat.pow_le_pow_right (by decide) enough
    rw [top]
    omega
  have ordered : (0 : BitVec 64) ≤ BitVec.allOnes 64 := by decide
  have bottom : (0 : BitVec 64).toNat = 0 := rfl
  obtain ⟨s, ends, found⟩ := @sqrtLoop_eq value 0 (BitVec.allOnes 64) rounds ordered short
  rw [top, bottom, search_eq_sqrt enough value.isLt] at found
  rw [ends, ← found, BitVec.ofNat_toNat, BitVec.setWidth_eq]

theorem sqrt_lt_two_pow (value : BitVec 128) : value.toNat.sqrt < 2 ^ 64 := by
  rw [Nat.sqrt_lt]
  exact value.isLt

theorem isRoot_sqrt (value : BitVec 128) : IsRoot value (BitVec.ofNat 64 value.toNat.sqrt) := by
  rw [IsRoot, BitVec.toNat_ofNat, Nat.mod_eq_of_lt (sqrt_lt_two_pow value)]
  exact ⟨Nat.sqrt_le' _, Nat.lt_succ_sqrt' _⟩

theorem IsRoot.unique {s t : BitVec 64} (root : IsRoot value s)
    (other : IsRoot value t) : t = s := by
  apply BitVec.eq_of_toNat_eq
  have first : t.toNat = value.toNat.sqrt := Nat.eq_sqrt'.mpr other
  have second : s.toNat = value.toNat.sqrt := Nat.eq_sqrt'.mpr root
  rw [first, second]

end Root

/-! The deviation. -/

/-- A signed 128-bit result, if it is one. -/
def int128 (x : ℤ) : Option ℤ := if -2 ^ 127 ≤ x ∧ x < 2 ^ 127 then some x else none

/-- The loop over the values: their sum and the sum of their squares. -/
def accumulate128 : List ℤ → ℤ → ℤ → Option (ℤ × ℤ)
  | [], sum, sumSquares => some (sum, sumSquares)
  | value :: rest, sum, sumSquares => do
    let sum ← int128 (sum + value)
    let square ← int128 (value * value)
    let sumSquares ← int128 (sumSquares + square)
    accumulate128 rest sum sumSquares

/-- `CalculateStandardDeviationBps` in 128 bits. -/
def calculateStandardDeviation128 (values : List ℤ) : Option ℤ :=
  if values.length < 2 then some 0
  else do
    let (sum, sumSquares) ← accumulate128 values 0 0
    let count : ℤ := values.length
    let scaled ← int128 (count * sumSquares)
    let squared ← int128 (sum * sum)
    let numerator ← int128 (scaled - squared)
    if numerator ≤ 0 then some 0
    else
      let denominator ← int128 (count * (count - 1))
      let sqrt ← integerSqrtFloor128 (BitVec.ofInt 128 (numerator.tdiv denominator))
      some (if (sqrt.toNat : ℤ) > INT64_MAX then INT64_MAX else sqrt.toNat)

theorem int128_eq_some {x y : ℤ} : int128 x = some y ↔ (-2 ^ 127 ≤ x ∧ x < 2 ^ 127) ∧ x = y := by
  unfold int128
  split_ifs with inside
  · rw [Option.some.injEq, and_iff_right inside]
  · exact ⟨fun found => (by cases found), fun both => absurd both.1 inside⟩

theorem int128_of_bounds {x : ℤ} (nonneg : 0 ≤ x) (small : x < 2 ^ 127) : int128 x = some x :=
  int128_eq_some.mpr ⟨⟨by omega, small⟩, rfl⟩

theorem accumulate128_exact {values : List ℤ} {sum sumSquares : ℤ} {totals : ℤ × ℤ}
    (returned : accumulate128 values sum sumSquares = some totals) :
    totals = (sum + values.sum, sumSquares + (values.map fun value => value * value).sum) := by
  induction values generalizing sum sumSquares with
  | nil =>
    cases returned
    simp
  | cons value rest ih =>
    simp only [accumulate128, Option.bind_eq_bind, Option.bind_eq_some_iff, int128_eq_some]
      at returned
    obtain ⟨_, ⟨_, rfl⟩, _, ⟨_, rfl⟩, _, ⟨_, rfl⟩, later⟩ := returned
    rw [ih later, List.sum_cons, List.map_cons, List.sum_cons, add_assoc, add_assoc]

theorem integerSqrtFloor128_ofInt {x : ℤ} (nonneg : 0 ≤ x) (small : x < 2 ^ 128) :
    ∃ s, integerSqrtFloor128 (BitVec.ofInt 128 x) = some s ∧ s.toNat = x.toNat.sqrt := by
  have value : (BitVec.ofInt 128 x).toNat = x.toNat := by
    rw [BitVec.toNat_ofInt]
    congr 1
    exact Int.emod_eq_of_lt nonneg small
  have fits := sqrt_lt_two_pow (BitVec.ofInt 128 x)
  refine ⟨_, sqrtLoop_eq_sqrt (Nat.le_refl 64) _, ?_⟩
  rw [BitVec.toNat_ofNat, Nat.mod_eq_of_lt fits, value]

/-- The count times the sum of squares, less the square of the sum. -/
def deviationNumerator (values : List ℤ) : ℤ :=
  values.length * (values.map fun value => value * value).sum - values.sum * values.sum

section Deviation

variable {values : List ℤ}

/-- The numerator is never negative: the inequality of Cauchy and Schwarz. -/
theorem deviationNumerator_nonneg (values : List ℤ) : 0 ≤ deviationNumerator values := by
  have schwarz := @sq_sum_le_card_mul_sum_sq (Fin values.length) ℤ _ _ _ _ Finset.univ fun i =>
    values[i]
  have total : ∑ i : Fin values.length, values[i] = values.sum := Fin.sum_univ_getElem values
  have squares : ∑ i : Fin values.length, values[i] ^ 2 = (values.map fun value => value ^ 2).sum :=
    Fin.sum_univ_fun_getElem values (· ^ 2)
  rw [total, squares, Finset.card_univ, Fintype.card_fin] at schwarz
  simp only [pow_two] at schwarz
  rw [deviationNumerator]
  omega

theorem calculateStandardDeviation128_refines {result : ℤ}
    (returned : calculateStandardDeviation128 values = some result) :
    calculateStandardDeviationBps values = result := by
  unfold calculateStandardDeviation128 at returned
  unfold calculateStandardDeviationBps
  by_cases few : values.length < 2
  · rw [if_pos few] at returned ⊢
    exact Option.some.inj returned
  rw [if_neg few] at returned ⊢
  simp only [Option.bind_eq_bind, Option.bind_eq_some_iff] at returned
  obtain ⟨totals, summed, scaled, scales, squared, squares, numerator, subtracts, rest⟩ := returned
  rw [accumulate128_exact summed] at scales squares
  obtain ⟨-, rfl⟩ := int128_eq_some.mp scales
  obtain ⟨-, rfl⟩ := int128_eq_some.mp squares
  obtain ⟨⟨-, small⟩, rfl⟩ := int128_eq_some.mp subtracts
  simp only [zero_add] at rest small ⊢
  split_ifs at rest ⊢ with flat
  · exact Option.some.inj rest
  simp only [Option.bind_eq_some_iff] at rest
  obtain ⟨denominator, divides, sqrt, rooted, capped⟩ := rest
  obtain ⟨-, rfl⟩ := int128_eq_some.mp divides
  have count : (2 : ℤ) ≤ values.length := by omega
  have positive : (0 : ℤ) < values.length * (values.length - 1) := mul_pos (by omega) (by omega)
  have quotient := Int.tdiv_nonneg (not_le.mp flat).le positive.le
  have bounded := Int.tdiv_le_self (values.length * (values.length - 1) : ℤ) (not_le.mp flat).le
  obtain ⟨root, found, exactly⟩ := integerSqrtFloor128_ofInt quotient (by omega)
  rw [found] at rooted
  cases rooted
  rw [integerSqrtFloor_eq (by omega), ← exactly, ← Option.some.inj capped]
  split_ifs with large
  · exact min_eq_left large.le
  · exact min_eq_right (not_lt.mp large)

/-! Changes between prices in range. -/

/-- A bound for the changes between prices in range, in basis points. -/
def MAX_CHANGE_BPS : ℤ := 10 ^ 10

theorem change_bounds {first second : ℤ}
    (old : ORACLE_MIN_PRICE_MICRO_USD ≤ first ∧ first ≤ ORACLE_MAX_PRICE_MICRO_USD)
    (new : ORACLE_MIN_PRICE_MICRO_USD ≤ second ∧ second ≤ ORACLE_MAX_PRICE_MICRO_USD) :
    0 ≤ absBps (calculatePercentageChangeBps first second) ∧
      absBps (calculatePercentageChangeBps first second) ≤ MAX_CHANGE_BPS := by
  unfold ORACLE_MIN_PRICE_MICRO_USD ORACLE_MAX_PRICE_MICRO_USD at old new
  have positive : ¬first ≤ 0 := by omega
  have size : |((second - first) * 10000).tdiv first| ≤ MAX_CHANGE_BPS := by
    have scaled : ((second - first) * 10000).natAbs ≤ first.natAbs * 10 ^ 10 := by omega
    have divided : (((second - first) * 10000).tdiv first).natAbs ≤ 10 ^ 10 := by
      rw [Int.natAbs_tdiv]
      exact Nat.div_le_of_le_mul scaled
    rw [Int.abs_eq_natAbs, MAX_CHANGE_BPS]
    exact_mod_cast divided
  unfold MAX_CHANGE_BPS at size ⊢
  have range := abs_le.mp size
  have exactly : calculatePercentageChangeBps first second =
      ((second - first) * 10000).tdiv first := by
    rw [calculatePercentageChangeBps, if_neg positive]
    unfold saturatingInt64 INT64_MAX
    omega
  rw [exactly, absBps, if_neg (by unfold INT64_MAX; omega)]
  exact ⟨abs_nonneg _, size⟩

theorem sums_le (bounded : ∀ value ∈ values, 0 ≤ value ∧ value ≤ MAX_CHANGE_BPS) :
    (0 ≤ values.sum ∧ values.sum ≤ values.length * MAX_CHANGE_BPS) ∧
      0 ≤ (values.map fun value => value * value).sum ∧
      (values.map fun value => value * value).sum ≤
        values.length * (MAX_CHANGE_BPS * MAX_CHANGE_BPS) := by
  induction values with
  | nil => simp
  | cons value rest ih =>
    obtain ⟨⟨low, high⟩, squaresLow, squaresHigh⟩ :=
      ih fun other member => bounded other (List.mem_cons_of_mem _ member)
    obtain ⟨nonneg, small⟩ := bounded value List.mem_cons_self
    have square := mul_le_mul small small nonneg (nonneg.trans small)
    have squareNonneg := mul_nonneg nonneg nonneg
    simp only [List.sum_cons, List.map_cons, List.length_cons, Nat.cast_add, Nat.cast_one, add_mul,
      one_mul]
    omega

theorem accumulate128_eq {sum sumSquares : ℤ}
    (bounded : ∀ value ∈ values, 0 ≤ value ∧ value ≤ MAX_CHANGE_BPS)
    (sumLow : 0 ≤ sum) (squaresLow : 0 ≤ sumSquares)
    (sumHigh : sum + values.length * MAX_CHANGE_BPS < 2 ^ 127)
    (squaresHigh : sumSquares + values.length * (MAX_CHANGE_BPS * MAX_CHANGE_BPS) < 2 ^ 127) :
    accumulate128 values sum sumSquares =
      some (sum + values.sum, sumSquares + (values.map fun value => value * value).sum) := by
  induction values generalizing sum sumSquares with
  | nil => simp [accumulate128]
  | cons value rest ih =>
    obtain ⟨nonneg, small⟩ := bounded value List.mem_cons_self
    have square := mul_le_mul small small nonneg (nonneg.trans small)
    have squareNonneg := mul_nonneg nonneg nonneg
    have restNonneg : (0 : ℤ) ≤ rest.length * MAX_CHANGE_BPS := by
      unfold MAX_CHANGE_BPS
      omega
    have restSquares : (0 : ℤ) ≤ rest.length * (MAX_CHANGE_BPS * MAX_CHANGE_BPS) := by
      unfold MAX_CHANGE_BPS
      omega
    simp only [List.length_cons, Nat.cast_add, Nat.cast_one, add_mul, one_mul]
      at sumHigh squaresHigh
    have added := int128_of_bounds (add_nonneg sumLow nonneg) (by omega)
    have squared := int128_of_bounds squareNonneg (by omega)
    have summed := int128_of_bounds (add_nonneg squaresLow squareNonneg) (by omega)
    simp only [accumulate128, added, squared, summed, Option.bind_eq_bind, Option.bind_some]
    rw [ih (fun other member => bounded other (List.mem_cons_of_mem _ member)) (by omega) (by omega)
      (by omega) (by omega), List.sum_cons, List.map_cons, List.sum_cons, add_assoc, add_assoc]

/-- The integer part of the sample deviation. -/
def deviation (values : List ℤ) : ℕ :=
  (deviationNumerator values / (values.length * (values.length - 1))).toNat.sqrt

theorem calculateStandardDeviation128_eq (many : 2 ≤ values.length) (few : values.length ≤ 720)
    (bounded : ∀ value ∈ values, 0 ≤ value ∧ value ≤ MAX_CHANGE_BPS) :
    calculateStandardDeviation128 values = some (deviation values) := by
  obtain ⟨⟨sumLow, sumHigh⟩, squaresLow, squaresHigh⟩ := sums_le bounded
  have nonneg := deviationNumerator_nonneg values
  have accumulated := accumulate128_eq bounded (Int.le_refl 0) (Int.le_refl 0)
    (by unfold MAX_CHANGE_BPS; omega) (by unfold MAX_CHANGE_BPS; omega)
  have count : (2 : ℤ) ≤ values.length ∧ (values.length : ℤ) ≤ 720 := by omega
  unfold MAX_CHANGE_BPS at sumHigh squaresHigh
  have sumSmall : values.sum ≤ 720 * 10 ^ 10 := by omega
  have squaresSmall : (values.map fun value => value * value).sum ≤
      720 * (10 ^ 10 * 10 ^ 10) := by omega
  have scaled : values.length * (values.map fun value => value * value).sum ≤
      720 * (720 * (10 ^ 10 * 10 ^ 10) : ℤ) :=
        mul_le_mul count.2 squaresSmall squaresLow (by decide)
  have scaledLow := mul_nonneg (Int.natCast_nonneg values.length) squaresLow
  have squared := mul_le_mul sumSmall sumSmall sumLow (by decide)
  have squaredLow := mul_nonneg sumLow sumLow
  have denominatorLow : (0 : ℤ) < values.length * (values.length - 1) :=
    mul_pos (by omega) (by omega)
  have denominatorHigh : (values.length * (values.length - 1) : ℤ) ≤ 720 * 720 :=
    mul_le_mul count.2 (by omega) (by omega) (by decide)
  have numeratorSmall : deviationNumerator values < 2 ^ 126 := by
    unfold deviationNumerator
    omega
  have scales := int128_of_bounds scaledLow (by omega)
  have squares := int128_of_bounds squaredLow (by omega)
  have subtracts := int128_of_bounds nonneg (by omega)
  have divides := int128_of_bounds denominatorLow.le (by omega)
  rw [deviationNumerator] at subtracts
  simp only [calculateStandardDeviation128, if_neg (not_lt.mpr many), accumulated, zero_add,
    Option.bind_eq_bind, Option.bind_some, scales, squares, subtracts, divides]
  rw [← deviationNumerator]
  split_ifs with flat
  · have zero : deviationNumerator values = 0 := le_antisymm flat nonneg
    simp [deviation, zero]
  · have quotientLow := Int.ediv_nonneg nonneg denominatorLow.le
    have quotientHigh := Int.ediv_le_self (values.length * (values.length - 1) : ℤ) nonneg
    rw [Int.tdiv_eq_ediv_of_nonneg nonneg]
    obtain ⟨root, found, exactly⟩ := integerSqrtFloor128_ofInt quotientLow (by omega)
    have rootSmall : root.toNat < 2 ^ 63 := by
      rw [exactly, Nat.sqrt_lt]
      omega
    rw [found, Option.bind_some, if_neg (by unfold INT64_MAX; omega), exactly]
    rfl

/-- The square root is exact on all 128-bit numbers and its search ends; the deviation of 2 to 720
changes between prices in range is exact, with no overflow on the way. -/
theorem deviation_exact_and_overflow_free :
    (∀ value : BitVec 128, ∃ s : BitVec 64,
      (∀ rounds, 64 ≤ rounds → sqrtLoop value rounds 0 (BitVec.allOnes 64) = some s) ∧
      integerSqrtFloor value.toNat = s.toNat ∧ IsRoot value s ∧ ∀ t, IsRoot value t → t = s) ∧
    (∀ values : List ℤ, 2 ≤ values.length → values.length ≤ 720 →
      (∀ value ∈ values, 0 ≤ value ∧ value ≤ 10 ^ 10) →
      0 ≤ deviationNumerator values ∧
        calculateStandardDeviation128 values = some (deviation values) ∧
        calculateStandardDeviationBps values = deviation values) ∧
    ∀ first second : ℤ, ORACLE_MIN_PRICE_MICRO_USD ≤ first → first ≤ ORACLE_MAX_PRICE_MICRO_USD →
      ORACLE_MIN_PRICE_MICRO_USD ≤ second → second ≤ ORACLE_MAX_PRICE_MICRO_USD →
      0 ≤ absBps (calculatePercentageChangeBps first second) ∧
        absBps (calculatePercentageChangeBps first second) ≤ 10 ^ 10 := by
  refine ⟨?_, ?_, ?_⟩
  · intro value
    have root := isRoot_sqrt value
    refine ⟨BitVec.ofNat 64 value.toNat.sqrt, fun rounds enough => sqrtLoop_eq_sqrt enough value,
      ?_, root, fun t other => root.unique other⟩
    rw [integerSqrtFloor_eq value.isLt, BitVec.toNat_ofNat,
      Nat.mod_eq_of_lt (sqrt_lt_two_pow value)]
  · intro values many few bounded
    have exactly := calculateStandardDeviation128_eq many few bounded
    exact ⟨deviationNumerator_nonneg values, exactly, calculateStandardDeviation128_refines exactly⟩
  · intro first second oldLow oldHigh newLow newHigh
    exact change_bounds ⟨oldLow, oldHigh⟩ ⟨newLow, newHigh⟩

theorem deviation_of_extreme_changes :
    sqrtLoop (BitVec.allOnes 128) 64 0 (BitVec.allOnes 64) = some (BitVec.allOnes 64) ∧
      calculateStandardDeviation128 [0, 10 ^ 10] = some 7071067811 ∧
      calculateStandardDeviationBps [0, 10 ^ 10] = 7071067811 ∧
      absBps (calculatePercentageChangeBps 100 100000000) ≤ 10 ^ 10 := by
  obtain ⟨roots, deviations, changes⟩ := deviation_exact_and_overflow_free
  obtain ⟨s, ends, -, root, -⟩ := roots (BitVec.allOnes 128)
  have top : s = BitVec.allOnes 64 := by
    have extreme : IsRoot (BitVec.allOnes 128) (BitVec.allOnes 64) := by
      unfold IsRoot
      decide +kernel
    exact extreme.unique root
  obtain ⟨-, machine, exactly⟩ := deviations [0, 10 ^ 10] (by decide) (by decide) (by decide)
  have value : deviation [0, 10 ^ 10] = 7071067811 := by
    rw [deviation]
    exact (Nat.eq_sqrt.mpr (by decide +kernel)).symm
  rw [value] at machine exactly
  refine ⟨?_, machine, exactly, (changes 100 100000000 ?_ ?_ ?_ ?_).2⟩
  · have ended := ends 64 (Nat.le_refl 64)
    rwa [top] at ended
  · decide
  · decide
  · decide
  · decide

end Deviation

end DigiByte.DigiDollar.Volatility
