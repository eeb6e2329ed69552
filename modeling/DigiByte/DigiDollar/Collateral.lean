import DigiByte.DigiDollar.AcceptedMint
import Mathlib.Data.Rat.Floor
import Mathlib.Tactic.Linarith

/-!
An accepted mint is fully collateralised for a configured lock tier.

The requirement passes through two ceilings and a cap. Both ceilings are exact
over the integers, the cap refuses instead of clamping, and no step leaves the
range of the type it is computed in.
-/

set_option autoImplicit false
set_option relaxedAutoImplicit false

namespace DigiByte.DigiDollar

open Consensus Script
open Library.Checks
open Library.SignMagnitude (natAbs_decode_lt)

/-- The ratio that a base ratio rises to at a given health. -/
def adjustedRatio (baseRatio systemHealth : ℤ) : ℤ :=
  ⌈((baseRatio * getDCAMultiplierBps systemHealth : ℤ) : ℚ) / 10000⌉

/-- The `__int128` values of `ApplyDCAForHealth`, `CalculateRequiredCollateral` and
`ValidateCollateralRatio`, in the order of their computation. -/
def int128Values (baseRatio systemHealth ddAmount price dgbLocked : ℤ) : List ℤ :=
  let adjusted := baseRatio * getDCAMultiplierBps systemHealth
  let effectiveRatio := adjustedRatio baseRatio systemHealth
  let numerator := ddAmount * COIN * effectiveRatio * 100
  let value := dgbLocked * price / COIN
  [adjusted, adjusted + DCA_BPS_SCALE, (adjusted + DCA_BPS_SCALE - 1) / DCA_BPS_SCALE,
    ddAmount * COIN, ddAmount * COIN * effectiveRatio, numerator, numerator + price,
    (numerator + price - 1) / price, dgbLocked * price, value,
    min INT64_MAX value / 10000 * 100, min INT64_MAX value / 10000 * 100 / ddAmount]

/-- What an accepted mint of `d` cents until height `L` promises. -/
structure FullyCollateralised (tx : CTransaction) (ctx : ValidationContext) (node : NodeState)
    (pc : Bytes) (vault : CTxOut) (d L T r h : ℤ) : Prop where
  metadata : ddPayloads tx.vout = [pc]
  amount : taggedAmount pc = some d
  lock : mintLockField pc = some L
  collateral : tx.vout.filter isCollateralOutput = [vault]
  health : resolveCanonicalHealth ctx node = some h
  tier : ctx.params.digidollarParams.collateralRatios.lookup T = some r
  window : T ≤ L - ctx.nHeight ∧ L - ctx.nHeight ≤ T + 100
  covered : d * COIN * adjustedRatio r h * 100 ≤ vault.nValue * ctx.oraclePriceMicroUSD
  money : vault.nValue ≤ MAX_MONEY
  /-- A requirement above `MAX_MONEY` is refused. -/
  representable : d * COIN * adjustedRatio r h * 100 ≤ MAX_MONEY * ctx.oraclePriceMicroUSD
  ratioFits : 0 ≤ adjustedRatio r h ∧ adjustedRatio r h ≤ INT_MAX
  periodFits : 0 ≤ L - ctx.nHeight ∧ L - ctx.nHeight ≤ INT64_MAX
  valuesFit : ∀ value ∈ int128Values r h d ctx.oraclePriceMicroUSD vault.nValue,
    0 ≤ value ∧ value ≤ INT128_MAX

/-! The two ceilings. -/

private theorem adjustedRatio_eq (baseRatio systemHealth : ℤ) :
    adjustedRatio baseRatio systemHealth =
      (baseRatio * getDCAMultiplierBps systemHealth + DCA_BPS_SCALE - 1) / DCA_BPS_SCALE := by
  have exactly := Rat.ceil_intCast_div_natCast (baseRatio * getDCAMultiplierBps systemHealth) 10000
  rw [adjustedRatio, DCA_BPS_SCALE]
  push_cast at exactly ⊢
  rw [exactly]
  omega

theorem getDCAMultiplierBps_bounds (systemHealth : ℤ) :
    10000 ≤ getDCAMultiplierBps systemHealth ∧ getDCAMultiplierBps systemHealth ≤ 20000 := by
  unfold getDCAMultiplierBps
  dsimp only
  split
  · rename_i tier found
    have all : ∀ tier ∈ HEALTH_TIERS, 10000 ≤ tier.2.2 ∧ tier.2.2 ≤ 20000 := by decide
    exact all tier (List.mem_of_find?_eq_some found)
  · norm_num

theorem le_adjustedRatio {baseRatio : ℤ} (systemHealth : ℤ) (nonneg : 0 ≤ baseRatio) :
    baseRatio ≤ adjustedRatio baseRatio systemHealth := by
  have low := (getDCAMultiplierBps_bounds systemHealth).1
  have scaled : baseRatio * 10000 ≤ baseRatio * getDCAMultiplierBps systemHealth :=
    mul_le_mul_of_nonneg_left low nonneg
  rw [adjustedRatio_eq, DCA_BPS_SCALE]
  omega

private theorem applyDCAForHealth_usable {baseRatio systemHealth : ℤ}
    (positive : 0 < applyDCAForHealth baseRatio systemHealth)
    (finite : applyDCAForHealth baseRatio systemHealth ≠ INT_MAX) :
    applyDCAForHealth baseRatio systemHealth = adjustedRatio baseRatio systemHealth ∧
      0 < baseRatio ∧ adjustedRatio baseRatio systemHealth ≤ INT_MAX := by
  rw [adjustedRatio_eq]
  unfold applyDCAForHealth at positive finite ⊢
  dsimp only at positive finite ⊢
  split_ifs at positive finite ⊢ with out high
  · omega
  · exact absurd rfl finite
  · exact ⟨rfl, by omega, by omega⟩

private theorem calculateRequiredCollateral_pos {d T : ℤ} {ctx : ValidationContext}
    {node : NodeState}
    (active : ctx.canonical = true) (positive : 0 < calculateRequiredCollateral d T ctx node) :
    0 < d ∧ ∃ r h, ctx.params.digidollarParams.collateralRatios.lookup T = some r ∧ 0 < r ∧
      resolveCanonicalHealth ctx node = some h ∧ 0 < adjustedRatio r h ∧
      adjustedRatio r h ≤ INT_MAX ∧
      calculateRequiredCollateral d T ctx node =
        (d * COIN * adjustedRatio r h * 100 + ctx.oraclePriceMicroUSD - 1) /
          ctx.oraclePriceMicroUSD ∧
      calculateRequiredCollateral d T ctx node ≤ MAX_MONEY := by
  unfold calculateRequiredCollateral at positive ⊢
  dsimp only at positive ⊢
  split_ifs at positive ⊢ with empty base
  · omega
  · omega
  · cases health : resolveCanonicalHealth ctx node with
    | none => simp [health] at positive
    | some h =>
      simp only [health, getEffectiveCollateralRatio, active, if_true] at positive ⊢
      split_ifs at positive ⊢ with unusable excess
      · omega
      · omega
      · obtain ⟨r, found⟩ : ∃ r, ctx.params.digidollarParams.collateralRatios.lookup T =
          some r := by
          cases found : ctx.params.digidollarParams.collateralRatios.lookup T with
          | none => simp [getCollateralRatioForLockTime, found] at base
          | some r => exact ⟨r, rfl⟩
        have ratio : getCollateralRatioForLockTime T ctx.params.digidollarParams = r := by
          simp [getCollateralRatioForLockTime, found]
        rw [ratio] at unusable positive excess ⊢
        obtain ⟨exactly, low, high⟩ :=
          applyDCAForHealth_usable (show 0 < applyDCAForHealth r h by omega) (by omega)
        rw [exactly] at unusable excess ⊢
        exact ⟨by omega, r, h, found, low, rfl, by omega, high, rfl, by omega⟩

/-! The sizes of the intermediate values. -/

private theorem mul_bounds {x y a b : ℤ} (hx : 0 ≤ x) (hy : 0 ≤ y) (ha : x ≤ a) (hb : y ≤ b) :
    0 ≤ x * y ∧ x * y ≤ a * b :=
  ⟨mul_nonneg hx hy, mul_le_mul ha hb hy (hx.trans ha)⟩

private theorem ediv_bounds {x n bound : ℤ} (hx : 0 ≤ x) (hb : x ≤ bound) (hn : 0 < n) :
    0 ≤ x / n ∧ x / n ≤ bound :=
  ⟨Int.ediv_nonneg hx hn.le, (Int.ediv_le_self n hx).trans hb⟩

private theorem int128Values_fit {r h d price c : ℤ} (ratio : 0 < r) (amount : 0 < d)
    (small : d ≤ MAX_DIGIDOLLAR) (usable : adjustedRatio r h ≤ INT_MAX) (paid : 0 < price)
    (priced : price ≤ INT64_MAX) (locked : 0 ≤ c) (money : c ≤ MAX_MONEY) :
    ∀ value ∈ int128Values r h d price c, 0 ≤ value ∧ value ≤ INT128_MAX := by
  obtain ⟨low, high⟩ := getDCAMultiplierBps_bounds h
  have bounds : MAX_DIGIDOLLAR = 2100000000000 ∧ COIN = 100000000 ∧ INT_MAX = 2147483647 ∧
      INT64_MAX = 9223372036854775807 ∧ MAX_MONEY = 2100000000000000000 ∧ DCA_BPS_SCALE = 10000 ∧
      INT128_MAX = 170141183460469231731687303715884105727 := by decide
  obtain ⟨hD, hC, hI, hL, hM, hS, hX⟩ := bounds
  have exactly := adjustedRatio_eq r h
  have adjusted : 10000 * r ≤ r * getDCAMultiplierBps h := by nlinarith
  rw [hS] at exactly
  -- the multiplier is at least 1, so the base ratio is an `int` as well
  have base : r ≤ INT_MAX := by omega
  have effective₀ : 0 ≤ adjustedRatio r h := by omega
  obtain ⟨adjusted₀, adjusted₁⟩ := mul_bounds ratio.le (by omega) base high
  obtain ⟨coins₀, coins₁⟩ := mul_bounds amount.le (by omega : (0 : ℤ) ≤ COIN) small le_rfl
  obtain ⟨scaled₀, scaled₁⟩ := mul_bounds coins₀ effective₀ coins₁ usable
  obtain ⟨value₀, value₁⟩ := mul_bounds locked paid.le money priced
  simp only [int128Values, List.forall_mem_cons, List.not_mem_nil, false_implies, implies_true,
    and_true, exactly, hC, hD, hI, hS, hX, hL] at *
  generalize r * getDCAMultiplierBps h = ratio at *
  generalize (ratio + 10000 - 1) / 10000 = effective at *
  generalize d * 100000000 * effective = scaled at *
  generalize c * price = value at *
  have required := ediv_bounds (show 0 ≤ scaled * 100 + price - 1 by omega) le_rfl paid
  have percent := ediv_bounds
    (show 0 ≤ min 9223372036854775807 (value / 100000000) / 10000 * 100 by omega) le_rfl amount
  omega

/-! The mint. -/

theorem le_mul_of_ceil_le {n p c : ℤ} (positive : 0 < p) (h : (n + p - 1) / p ≤ c) :
    n ≤ c * p := by
  have step := Int.lt_ediv_add_one_mul_self (n + p - 1) positive
  have scaled := mul_le_mul_of_nonneg_right h positive.le
  rw [add_mul, one_mul] at step
  linarith

private theorem mintLockField_le {pc : Bytes} {L : ℤ} (lock : mintLockField pc = some L) :
    L ≤ INT64_MAX := by
  unfold mintLockField at lock
  split at lock
  · rename_i data _ _
    simp only [readAmount, scriptNum] at lock
    split_ifs at lock with _ long
    have bound := natAbs_decode_lt (show data.length ≤ 7 + 1 by omega)
    cases lock
    have : INT64_MAX = 0x80 * 256 ^ 7 - 1 := by decide
    omega
  · cases lock

private theorem mintLockPeriod_eq_ok {ctx : ValidationContext} {pc : Bytes} {s : MintScan} {T : ℤ}
    (read : MintPayload ctx pc s) (h : mintLockPeriod ctx s = .ok T) :
    0 < s.lockTime - ctx.nHeight ∧ T ≤ s.lockTime - ctx.nHeight ∧
      s.lockTime - ctx.nHeight ≤ T + 100 := by
  simp only [mintLockPeriod, bind_eq_ok, rejectIf_eq_ok] at h
  obtain ⟨_, running, h⟩ := h
  refine ⟨by omega, ?_⟩
  split_ifs at h with claimed
  · cases h
    exact read.tier claimed (by omega)
  · simp only [bind_eq_ok, rejectIf_eq_ok] at h
    obtain ⟨_, _, h⟩ := h
    cases h
    omega

theorem AcceptedMint.covered {curve : TaprootCurve} {tx : CTransaction} {ctx : ValidationContext}
    {node : NodeState} {pc : Bytes} {vault : CTxOut} {s : MintScan}
    (mint : AcceptedMint curve tx ctx node pc vault s) (active : ctx.canonical = true) :
    ∃ T r h, mintLockPeriod ctx s = .ok T ∧
      ctx.params.digidollarParams.collateralRatios.lookup T = some r ∧ 0 < r ∧
      resolveCanonicalHealth ctx node = some h ∧ 0 < adjustedRatio r h ∧
      adjustedRatio r h ≤ INT_MAX ∧
      s.totalDD * COIN * adjustedRatio r h * 100 ≤ vault.nValue * ctx.oraclePriceMicroUSD ∧
      s.totalDD * COIN * adjustedRatio r h * 100 ≤ MAX_MONEY * ctx.oraclePriceMicroUSD := by
  have funded := mint.funded
  simp only [checkMintCollateral, bind_eq_ok, rejectIf_eq_ok] at funded
  obtain ⟨health, _, T, period, _, positive, _, enough, _⟩ := funded
  rw [mint.totalCollateral] at enough
  obtain ⟨_, r, h, tier, base, resolved, usable, finite, exactly, money⟩ :=
    @calculateRequiredCollateral_pos _ _ { ctx with systemCollateral := health } node active
      (not_le.mp positive)
  rw [resolveCanonicalHealth_withHealth active] at resolved
  dsimp only at exactly
  rw [exactly] at money enough
  exact ⟨T, r, h, period, tier, base, resolved, usable, finite,
    le_mul_of_ceil_le mint.price (not_lt.mp enough), le_mul_of_ceil_le mint.price money⟩

/-- A mint that passes from Thaw Day on is covered at the exact ratio of a
configured tier. The price is a `CAmount`, and `CheckTransaction` has run. -/
theorem accepted_mint_fully_collateralised (curve : TaprootCurve) (tx : CTransaction)
    (ctx : ValidationContext) (node : NodeState)
    (active : isThawDayActive ctx.params.consensus ctx.nHeight = true)
    (int64Price : ctx.oraclePriceMicroUSD ≤ INT64_MAX) (checked : checkTransaction tx = .ok ())
    (accepted : validateMintTransaction curve tx ctx node = .ok ()) :
    ∃ pc vault d L T r h, FullyCollateralised tx ctx node pc vault d L T r h := by
  obtain ⟨pc, vault, s, mint⟩ := acceptedMint_of_ok accepted
  obtain ⟨T, r, h, period, tier, base, health, usable, finite, covered, representable⟩ :=
    mint.covered active
  obtain ⟨running, window⟩ := mintLockPeriod_eq_ok mint.read period
  have vaultMember : vault ∈ tx.vout := by
    have : vault ∈ tx.vout.filter isCollateralOutput := by simp [mint.collateral]
    exact (List.mem_filter.mp this).1
  have cap := checkTransaction_money checked vault vaultMember
  obtain ⟨_, _, _, _, _, _, _, _, amount, small⟩ := taggedAmount_eq_some mint.read.amount
  have started : 0 ≤ ctx.nHeight := (isThawDayActive_iff.mp active).1
  have lockBound := mintLockField_le mint.read.lock
  exact ⟨pc, vault, s.totalDD, s.lockTime, T, r, h,
    { metadata := mint.payload
      amount := mint.read.amount
      lock := mint.read.lock
      collateral := mint.collateral
      health := health
      tier := tier
      window := window
      covered := covered
      money := cap.2
      representable := representable
      ratioFits := ⟨usable.le, finite⟩
      periodFits := ⟨running.le, by omega⟩
      valuesFit := int128Values_fit base amount small finite mint.price int64Price cap.1 cap.2 }⟩

namespace Sample

theorem mint_fully_collateralised :
    ∃ pc vault d L T r h, FullyCollateralised mint mintCtx node pc vault d L T r h :=
  accepted_mint_fully_collateralised curve mint mintCtx node (by decide) (by decide)
    (by decide +kernel)
    (by decide +kernel)

/-- The sample mint with a vault above `MAX_MONEY`, which `CheckTransaction` refuses. -/
def vastMint : CTransaction := { mint with vout := ⟨3 * 10 ^ 18, p2tr 7⟩ :: mint.vout.tail }

theorem vast_vault_accepted :
    isThawDayActive mintCtx.params.consensus mintCtx.nHeight = true ∧
      validateMintTransaction curve vastMint mintCtx node = .ok () ∧
      vastMint.vout.filter isCollateralOutput = [⟨3 * 10 ^ 18, p2tr 7⟩] ∧
      MAX_MONEY < 3 * 10 ^ 18 := by
  decide +kernel

end Sample

end DigiByte.DigiDollar
