import DigiByte.DigiDollar.Collateral
import DigiByte.DigiDollar.MintReaders

/-!
A mint and the health of the system.

Health divides at a price in milli-cents, the requirement at a price in
micro-dollars; the first is a tenth of the second, rounded down. A threshold is
met exactly when a cross-product inequality holds, and such inequalities add up.
-/

set_option autoImplicit false
set_option relaxedAutoImplicit false

namespace DigiByte.DigiDollar

open Consensus Script

/-! Health. -/

private theorem tryMultiplyInt128_eq {a b : ℤ} (ha : 0 ≤ a) (hb : 0 ≤ b)
    (fits : a * b ≤ INT128_MAX) :
    tryMultiplyInt128 a b = some (a * b) := by
  unfold tryMultiplyInt128
  rw [if_neg (by omega)]
  split_ifs with zero high
  · rcases zero with rfl | rfl <;> simp
  · have positive : 0 < b := by omega
    have := (Int.le_ediv_iff_mul_le positive).mpr fits
    omega
  · rfl

theorem le_calculateSystemHealth_iff {k collateral principal price : ℤ} (low : 0 ≤ k)
    (high : k ≤ 30000) (positive : 0 < price) (small : price ≤ 10000000) (locked : 0 ≤ collateral)
    (money : collateral ≤ MAX_MONEY) (liable : 0 ≤ principal) :
    k ≤ calculateSystemHealth collateral principal price ↔
      k * (COIN * 1000 * principal) ≤ collateral * price * 100 := by
  have value₀ : 0 ≤ collateral * price := mul_nonneg locked positive.le
  have value₁ : collateral * price ≤ 2100000000000000000 * 10000000 :=
    mul_le_mul money small positive.le (by norm_num)
  have first := tryMultiplyInt128_eq locked positive.le (by unfold INT128_MAX; omega)
  have second := @tryMultiplyInt128_eq (collateral * price) 100 value₀ (by norm_num)
    (by unfold INT128_MAX; omega)
  unfold calculateSystemHealth
  rw [if_neg (by omega), if_neg (by omega), if_neg (by omega)]
  split_ifs with noDebt
  · subst noDebt
    simp only [mul_zero]
    exact ⟨fun _ => by omega, fun _ => high⟩
  · have divisor : 0 < COIN * 1000 * principal := by
      unfold COIN
      omega
    have quotient : 0 ≤ collateral * price * 100 / (COIN * 1000 * principal) :=
      Int.ediv_nonneg (by omega) divisor.le
    rw [first, Option.bind_some, second, ← Int.le_ediv_iff_mul_le divisor]
    dsimp only
    split_ifs <;> omega

theorem calculateSystemHealth_bounds (collateral principal price : ℤ) :
    0 ≤ calculateSystemHealth collateral principal price ∧
      calculateSystemHealth collateral principal price ≤ 30000 := by
  unfold calculateSystemHealth
  split_ifs
  · omega
  · omega
  · omega
  · omega
  · split
    · omega
    · dsimp only
      split_ifs <;> omega

theorem getDCAMultiplierBps_eq (systemHealth : ℤ) : getDCAMultiplierBps systemHealth =
    if systemHealth < 110 then 20000 else if systemHealth < 120 then 15000
    else if systemHealth < 150 then 12500 else 10000 := by
  have clamped : 0 ≤ clampHealth systemHealth ∧ clampHealth systemHealth ≤ 30000 := by
    unfold clampHealth
    omega
  have same : ∀ k, 0 < k → k ≤ 30000 → (clampHealth systemHealth < k ↔ systemHealth < k) := by
    intro k low high
    unfold clampHealth
    omega
  have below := same 110
  have critical := same 120
  have warning := same 150
  simp only [getDCAMultiplierBps, HEALTH_TIERS, List.find?_cons, List.find?_nil]
  generalize clampHealth systemHealth = health at *
  split_ifs <;> grind

/-! One mint. -/

/-- A coverage of 200 percent at the fine price is one of 183 at the coarse price:
the worst price is 109, which counts as 10. -/
private theorem coarse_coverage {d c price : ℤ} (locked : 0 ≤ c) (low : 100 ≤ price)
    (covered : d * COIN * 200 * 100 ≤ c * price) :
    183 * (COIN * 1000 * d) ≤ c * (price / 10) * 100 := by
  have rounding : 183 * price ≤ 2000 * (price / 10) := by omega
  have scaled : c * (183 * price) ≤ c * (2000 * (price / 10)) :=
    mul_le_mul_of_nonneg_left rounding locked
  have fine : c * (183 * price) = 183 * (c * price) := by ring
  have coarse : c * (2000 * (price / 10)) = 2000 * (c * (price / 10)) := by ring
  rw [fine, coarse] at scaled
  unfold COIN at covered ⊢
  omega

private theorem min_le_health_add {C D c d price : ℤ} (positive : 0 < price)
    (small : price ≤ 10000000)
    (locked : 0 ≤ C) (liable : 0 ≤ D) (minted : 0 ≤ d) (paid : 0 ≤ c) (money : C + c ≤ MAX_MONEY)
    (coverage : 183 * (COIN * 1000 * d) ≤ c * price * 100) :
    min (calculateSystemHealth C D price) 183 ≤ calculateSystemHealth (C + c) (D + d) price := by
  have bounds := calculateSystemHealth_bounds C D price
  have k₀ : 0 ≤ min (calculateSystemHealth C D price) 183 := by omega
  have k₁ : min (calculateSystemHealth C D price) 183 ≤ 30000 := by omega
  have before := (le_calculateSystemHealth_iff k₀ k₁ positive small locked (by omega) liable).mp
    (min_le_left _ _)
  rw [le_calculateSystemHealth_iff k₀ k₁ positive small (by omega) money (by omega)]
  have lower : min (calculateSystemHealth C D price) 183 * (COIN * 1000 * d) ≤
      183 * (COIN * 1000 * d) :=
    mul_le_mul_of_nonneg_right (min_le_right _ _) (by unfold COIN; omega)
  generalize min (calculateSystemHealth C D price) 183 = k at *
  calc k * (COIN * 1000 * (D + d))
      = k * (COIN * 1000 * D) + k * (COIN * 1000 * d) := by ring
    _ ≤ C * price * 100 + c * price * 100 := add_le_add before (lower.trans coverage)
    _ = (C + c) * price * 100 := by ring

private theorem addVault_eq_some {state next : ChainstateHealth} {principal value : ℤ}
    (h : state.addVault principal value = some next) :
    0 < principal ∧ 0 < value ∧ value ≤ MAX_MONEY - state.collateral ∧
      next = { state with
        open_vault_principal := state.open_vault_principal + principal
        collateral := state.collateral + value
        active_vaults := state.active_vaults + 1 } := by
  unfold ChainstateHealth.addVault at h
  split_ifs at h with refused
  cases h
  exact ⟨by omega, by omega, by omega, rfl⟩

private theorem isValid_addVault {state next : ChainstateHealth} {principal value : ℤ}
    (valid : state.isValid = true) (h : state.addVault principal value = some next) :
    next.isValid = true := by
  obtain ⟨positive, locked, room, rfl⟩ := addVault_eq_some h
  simp only [ChainstateHealth.isValid, moneyRange, Bool.and_eq_true, decide_eq_true_eq] at valid ⊢
  simp only [Nat.add_eq_zero_iff, one_ne_zero, and_false, if_false, Bool.and_eq_true,
    decide_eq_true_eq]
  obtain ⟨⟨⟨rest, liable⟩, money⟩, _⟩ := valid
  exact ⟨⟨⟨rest, by omega⟩, by omega⟩, by omega⟩

private theorem totals_of_isValid {state : ChainstateHealth} (valid : state.isValid = true) :
    0 ≤ state.open_vault_principal ∧ 0 ≤ state.collateral ∧ state.collateral ≤ MAX_MONEY := by
  simp only [ChainstateHealth.isValid, moneyRange, Bool.and_eq_true, decide_eq_true_eq] at valid
  omega

/-- A mint against a record leaves a health of at least the old one, or of 183
percent where the old one was higher. No network changes the ratios of
`ConsensusParams`, the lowest of which is 200. -/
theorem mint_never_worsens {curve : TaprootCurve} {tx : CTransaction} {ctx : ValidationContext}
    {node : NodeState} {state next : ChainstateHealth} {d c : ℤ}
    (active : isThawDayActive ctx.params.consensus ctx.nHeight = true)
    (ratios : ∀ tier ∈ ctx.params.digidollarParams.collateralRatios, 200 ≤ tier.2)
    (low : 100 ≤ ctx.oraclePriceMicroUSD) (high : ctx.oraclePriceMicroUSD ≤ 100000000)
    (record : contextHealthState ctx = some state)
    (valid : validateMintTransaction curve tx ctx node = .ok ())
    (amounts : extractMintAccountingAmounts (fun _ => none) tx false = some (d, c))
    (added : state.addVault d c = some next) :
    ∃ h h', calculateChainstateHealth state ctx.oraclePriceMicroUSD = some h ∧
      calculateChainstateHealth next ctx.oraclePriceMicroUSD = some h' ∧
      min h 183 ≤ h' ∧ getDCAMultiplierBps h' ≤ getDCAMultiplierBps h ∧ (100 ≤ h → 100 ≤ h') := by
  obtain ⟨pc, vault, s, mint⟩ := acceptedMint_of_ok valid
  obtain ⟨T, r, health, _, tier, base, _, _, _, covered, _⟩ := mint.covered active
  -- the pair that is added is the one that was priced
  have type := (extractMintAccountingAmounts_eq_some amounts).1
  rw [mint.accounting type, Option.some.injEq, Prod.mk.injEq] at amounts
  obtain ⟨rfl, rfl⟩ := amounts
  obtain ⟨_, _, same⟩ := isMatch_of_contextHealthState record
  have recordValid := ChainstateHealth.isValid_of_isMatch same
  have nextValid := isValid_addVault recordValid added
  obtain ⟨liable, locked, money⟩ := totals_of_isValid recordValid
  obtain ⟨_, _, money'⟩ := totals_of_isValid nextValid
  obtain ⟨positive, paid, _, rfl⟩ := addVault_eq_some added
  have ratio : 200 ≤ adjustedRatio r health := by
    obtain ⟨before, after, table, _⟩ := List.lookup_eq_some_iff.mp tier
    have listed : 200 ≤ r := ratios (T, r) (by simp [table])
    exact listed.trans (le_adjustedRatio health base.le)
  have fine : s.totalDD * COIN * 200 * 100 ≤ vault.nValue * ctx.oraclePriceMicroUSD := by
    have scaled : s.totalDD * COIN * 200 ≤ s.totalDD * COIN * adjustedRatio r health :=
      mul_le_mul_of_nonneg_left ratio (mul_nonneg positive.le (by decide))
    omega
  have coarse := coarse_coverage paid.le low fine
  have kept :=
    min_le_health_add (by omega) (by omega) locked liable positive.le paid.le money' coarse
  have priced : ¬ ctx.oraclePriceMicroUSD ≤ 0 := by omega
  refine ⟨_, _, ?_, ?_, kept, ?_, ?_⟩
  · simp [calculateChainstateHealth, recordValid, priced]
  · simp [calculateChainstateHealth, nextValid, priced]
  · rw [getDCAMultiplierBps_eq, getDCAMultiplierBps_eq]
    split_ifs <;> omega
  · omega

namespace Sample

/-- Two vaults that cover 130 percent at a price of one dollar. -/
def openingRecord : ChainstateHealth :=
  { genesis_hash := 1, activation_height := 10, digidollar_height := 5, best_block := 9
    open_vault_principal := 20000, collateral := 26000000000, active_vaults := 2 }

def indebtedCtx : ValidationContext :=
  { mintCtx with coins := mintCtx.coins.map fun view =>
      { view with digiDollarState := some openingRecord } }

/-- The sample mint with the collateral that the multiplier asks for, and more. -/
def coveringMint : CTransaction :=
  { mint with vout := ⟨150000000000, p2tr 7⟩ :: mint.vout.tail }

def mintedRecord : ChainstateHealth :=
  { openingRecord with
    open_vault_principal := 30000, collateral := 176000000000, active_vaults := 3 }

/-- The mint takes the health from 130 to 586 percent. -/
theorem mint_keeps_health :
    calculateChainstateHealth openingRecord 1000000 = some 130 ∧
      calculateChainstateHealth mintedRecord 1000000 = some 586 ∧
      ∃ h h', calculateChainstateHealth openingRecord 1000000 = some h ∧
        calculateChainstateHealth mintedRecord 1000000 = some h' ∧ min h 183 ≤ h' ∧
        getDCAMultiplierBps h' ≤ getDCAMultiplierBps h ∧ (100 ≤ h → 100 ≤ h') := by
  have record : contextHealthState indebtedCtx = some openingRecord := by decide
  have valid : validateMintTransaction curve coveringMint indebtedCtx node = .ok () := by
    decide +kernel
  have amounts : extractMintAccountingAmounts (fun _ => none) coveringMint false =
      some (10000, 150000000000) := by decide +kernel
  have added : openingRecord.addVault 10000 150000000000 = some mintedRecord := by decide
  exact ⟨by decide, by decide,
    @mint_never_worsens curve coveringMint indebtedCtx node _ _ _ _ (by decide) (by decide)
      (by decide) (by decide) record valid amounts added⟩

end Sample

end DigiByte.DigiDollar
