import DigiByte.Consensus.Params
import DigiByte.Library.StepSchedule

/-!
`GetBlockSubsidy` and the total it pays on the main network.

The schedule has six periods. The last one multiplies the reward by
98884/100000 every 175200 blocks, rounding down, until it falls below one DGB.
All operands are nonnegative at real heights, so `/` on `Int` is the source's
truncating division.
-/

set_option autoImplicit false
set_option relaxedAutoImplicit false

namespace DigiByte.Consensus.Subsidy

open Finset
open DigiByte.Library.StepSchedule

def BLOCK_TIME_SECONDS : Int := 15
def SECONDS_PER_MONTH : Int := 60 * 60 * 24 * 365 / 12

/-- One pass of the period IV loop: the reward falls by 0.5%. -/
def weeklyDecay (nSubsidy : Int) : Int := nSubsidy - nSubsidy / 200

/-- One pass of the period V loop: the reward falls by 1%. -/
def monthlyDecay (nSubsidy : Int) : Int := nSubsidy - nSubsidy / 100

/-- One pass of the period VI loop. -/
def finalDecay (nSubsidy : Int) : Int := nSubsidy * 98884 / 100000

/-- The final floor: a reward below one DGB is not paid. -/
def payable (nSubsidy : Int) : Int := if nSubsidy < COIN then 0 else nSubsidy

def getBlockSubsidy (nHeight : Int) (p : Params) : Int :=
  payable <|
    if nHeight < p.nDiffChangeTarget then
      if nHeight < 1440 then 72000 * COIN
      else if nHeight < 5760 then 16000 * COIN
      else 8000 * COIN
    else if nHeight < p.alwaysUpdateDiffChangeTarget then
      let blocks := nHeight - p.nDiffChangeTarget
      let weeks := blocks / p.patchBlockRewardDuration + 1
      weeklyDecay^[weeks.toNat] (8000 * COIN)
    else if nHeight < p.workComputationChangeTarget then
      let blocks := nHeight - p.alwaysUpdateDiffChangeTarget
      let weeks := blocks / p.patchBlockRewardDuration2 + 1
      monthlyDecay^[weeks.toNat] (2459 * COIN)
    else
      let blocks := nHeight - p.workComputationChangeTarget
      let months := blocks * BLOCK_TIME_SECONDS / SECONDS_PER_MONTH
      finalDecay^[months.toNat] (2157 * COIN / 2)

/-- Everything paid by the blocks `0, ..., H`. -/
def totalSubsidy (p : Params) (H : ℕ) : Int :=
  ∑ h ∈ range (H + 1), getBlockSubsidy h p

private theorem payable_nonneg (s : Int) : 0 ≤ payable s := by
  unfold payable COIN
  split <;> omega

theorem getBlockSubsidy_nonneg (nHeight : Int) (p : Params) : 0 ≤ getBlockSubsidy nHeight p :=
  payable_nonneg _

/-! One equation for each branch of the schedule. -/

section Periods

variable {p : Params} {nHeight : Int}

theorem getBlockSubsidy_launch (before : nHeight < p.nDiffChangeTarget) :
    getBlockSubsidy nHeight p = payable (if nHeight < 1440 then 72000 * COIN
      else if nHeight < 5760 then 16000 * COIN else 8000 * COIN) := by
  unfold getBlockSubsidy
  rw [if_pos before]

theorem getBlockSubsidy_weekly (start : p.nDiffChangeTarget ≤ nHeight)
    (before : nHeight < p.alwaysUpdateDiffChangeTarget) :
    getBlockSubsidy nHeight p = payable (weeklyDecay^[((nHeight - p.nDiffChangeTarget) /
      p.patchBlockRewardDuration + 1).toNat] (8000 * COIN)) := by
  unfold getBlockSubsidy
  rw [if_neg (not_lt.mpr start), if_pos before]

theorem getBlockSubsidy_monthly (first : p.nDiffChangeTarget ≤ nHeight)
    (start : p.alwaysUpdateDiffChangeTarget ≤ nHeight)
    (before : nHeight < p.workComputationChangeTarget) :
    getBlockSubsidy nHeight p = payable (monthlyDecay^[((nHeight -
      p.alwaysUpdateDiffChangeTarget) / p.patchBlockRewardDuration2 + 1).toNat] (2459 * COIN)) := by
  unfold getBlockSubsidy
  rw [if_neg (not_lt.mpr first), if_neg (not_lt.mpr start), if_pos before]

theorem getBlockSubsidy_final (first : p.nDiffChangeTarget ≤ nHeight)
    (second : p.alwaysUpdateDiffChangeTarget ≤ nHeight)
    (start : p.workComputationChangeTarget ≤ nHeight) :
    getBlockSubsidy nHeight p = payable (finalDecay^[((nHeight - p.workComputationChangeTarget) *
      BLOCK_TIME_SECONDS / SECONDS_PER_MONTH).toNat] (2157 * COIN / 2)) := by
  unfold getBlockSubsidy
  rw [if_neg (not_lt.mpr first), if_neg (not_lt.mpr second), if_neg (not_lt.mpr start)]

end Periods

section MainNetwork

private theorem subsidy_launch (h : ℕ) (before : h < 67200) :
    getBlockSubsidy h mainParams =
      if h < 1440 then 72000 * COIN else if h < 5760 then 16000 * COIN else 8000 * COIN := by
  rw [getBlockSubsidy_launch (p := mainParams) (show (h : Int) < 67200 by omega)]
  norm_cast
  split_ifs <;> decide

private theorem subsidy_weekly (x : ℕ) (inside : x < 332800) :
    getBlockSubsidy ((67200 + x : ℕ) : Int) mainParams =
      payable (weeklyDecay^[x / 10080 + 1] (8000 * COIN)) := by
  have weeks : ((((67200 + x : ℕ) : Int) - 67200) / 10080 + 1).toNat = x / 10080 + 1 := by
    push_cast
    omega
  rw [← weeks]
  exact getBlockSubsidy_weekly (show (67200 : Int) ≤ (67200 + x : ℕ) by omega)
    (show ((67200 + x : ℕ) : Int) < 400000 by omega)

private theorem subsidy_monthly (x : ℕ) (inside : x < 1030000) :
    getBlockSubsidy ((400000 + x : ℕ) : Int) mainParams =
      payable (monthlyDecay^[x / 80160 + 1] (2459 * COIN)) := by
  have weeks : ((((400000 + x : ℕ) : Int) - 400000) / 80160 + 1).toNat = x / 80160 + 1 := by
    push_cast
    omega
  rw [← weeks]
  exact getBlockSubsidy_monthly (show (67200 : Int) ≤ (400000 + x : ℕ) by omega)
    (show (400000 : Int) ≤ (400000 + x : ℕ) by omega)
    (show ((400000 + x : ℕ) : Int) < 1430000 by omega)

-- A month is 2628000 seconds, that is exactly 175200 blocks of 15 seconds.
private theorem subsidy_final (x : ℕ) :
    getBlockSubsidy ((1430000 + x : ℕ) : Int) mainParams =
      payable (finalDecay^[x / 175200] (2157 * COIN / 2)) := by
  have months : ((((1430000 + x : ℕ) : Int) - 1430000) * BLOCK_TIME_SECONDS /
      SECONDS_PER_MONTH).toNat = x / 175200 := by
    simp only [BLOCK_TIME_SECONDS, SECONDS_PER_MONTH]
    push_cast
    omega
  rw [← months]
  exact getBlockSubsidy_final (show (67200 : Int) ≤ (1430000 + x : ℕ) by omega)
    (show (400000 : Int) ≤ (1430000 + x : ℕ) by omega)
    (show (1430000 : Int) ≤ (1430000 + x : ℕ) by omega)

private theorem launch_total :
    ∑ h ∈ range 67200, getBlockSubsidy h mainParams = 664320000 * COIN := by
  rw [sum_congr rfl fun h hh => subsidy_launch h (mem_range.mp hh)]
  rw [show (67200 : ℕ) = 1440 + (4320 + 61440) from rfl, sum_range_add, sum_range_add]
  rw [sum_congr rfl fun h hh => if_pos (mem_range.mp hh)]
  have second : ∀ x ∈ range 4320, (if 1440 + x < 1440 then 72000 * COIN else
      if 1440 + x < 5760 then 16000 * COIN else 8000 * COIN) = 16000 * COIN := by
    intro x hx
    have := mem_range.mp hx
    rw [if_neg (by omega), if_pos (by omega)]
  have third : ∀ x ∈ range 61440, (if 1440 + (4320 + x) < 1440 then 72000 * COIN else
      if 1440 + (4320 + x) < 5760 then 16000 * COIN else 8000 * COIN) = 8000 * COIN := by
    intro x _
    rw [if_neg (by omega), if_neg (by omega)]
  rw [sum_congr rfl second, sum_congr rfl third]
  simp only [sum_const, card_range, nsmul_eq_mul, COIN]
  norm_num

private theorem weekly_total :
    ∑ x ∈ range 332800, getBlockSubsidy ((67200 + x : ℕ) : Int) mainParams =
      244761419636611680 := by
  rw [sum_congr rfl fun x hx => subsidy_weekly x (mem_range.mp hx)]
  rw [show (332800 : ℕ) = 33 * 10080 + 160 from rfl,
    sum_range_schedule (fun k => payable (weeklyDecay^[k + 1] (8000 * COIN))) 33 (by norm_num)]
  decide +kernel

private theorem monthly_total :
    ∑ x ∈ range 1030000, getBlockSubsidy ((400000 + x : ℕ) : Int) mainParams =
      236401647968760800 := by
  rw [sum_congr rfl fun x hx => subsidy_monthly x (mem_range.mp hx)]
  rw [show (1030000 : ℕ) = 12 * 80160 + 68080 from rfl,
    sum_range_schedule (fun k => payable (monthlyDecay^[k + 1] (2459 * COIN))) 12 (by norm_num)]
  decide +kernel

private theorem total_through_final {r : ℕ} (n : ℕ) (within : r ≤ 175200) :
    ∑ h ∈ range (1430000 + (n * 175200 + r)), getBlockSubsidy h mainParams =
      664320000 * COIN + 244761419636611680 + 236401647968760800 +
        (175200 * ∑ k ∈ range n, payable (finalDecay^[k] (2157 * COIN / 2)) +
          r * payable (finalDecay^[n] (2157 * COIN / 2))) := by
  rw [sum_range_add, show (1430000 : ℕ) = 67200 + 332800 + 1030000 from rfl, sum_range_add,
    sum_range_add, launch_total, weekly_total, monthly_total]
  have final := sum_range_schedule (fun k => payable (finalDecay^[k] (2157 * COIN / 2))) n within
  rw [sum_congr rfl fun x _ => subsidy_final x, final]
  norm_cast

/-- The last height at which the total is still at most `MAX_MONEY`. -/
def lastHeightWithinCap : ℕ := 40263490

private theorem total_at_lastHeightWithinCap :
    totalSubsidy mainParams lastHeightWithinCap = 2099999998241240372 := by
  unfold totalSubsidy lastHeightWithinCap
  rw [show 40263490 + 1 = 1430000 + (221 * 175200 + 114291) from rfl,
    total_through_final 221 (by norm_num)]
  decide +kernel

private theorem total_after_lastHeightWithinCap :
    totalSubsidy mainParams (lastHeightWithinCap + 1) = 2100000007270910384 := by
  unfold totalSubsidy lastHeightWithinCap
  rw [show 40263490 + 1 + 1 = 1430000 + (221 * 175200 + 114292) from rfl,
    total_through_final 221 (by norm_num)]
  decide +kernel

/-- The main network stays within `MAX_MONEY` exactly through height 40,263,490. -/
theorem totalSubsidy_le_maxMoney_iff (H : ℕ) :
    totalSubsidy mainParams H ≤ MAX_MONEY ↔ H ≤ lastHeightWithinCap := by
  have below : totalSubsidy mainParams lastHeightWithinCap ≤ MAX_MONEY := by
    rw [total_at_lastHeightWithinCap]
    decide
  have above : MAX_MONEY < totalSubsidy mainParams (lastHeightWithinCap + 1) := by
    rw [total_after_lastHeightWithinCap]
    decide
  exact sum_range_le_iff_of_crossing (fun h => getBlockSubsidy_nonneg h mainParams) below above H

/-- The first block whose subsidy carries the total past `MAX_MONEY`. -/
theorem totalSubsidy_exceeds_maxMoney :
    ¬ totalSubsidy mainParams 40263491 ≤ MAX_MONEY := by
  rw [show (40263491 : ℕ) = lastHeightWithinCap + 1 from rfl, total_after_lastHeightWithinCap]
  decide

end MainNetwork

end DigiByte.Consensus.Subsidy
