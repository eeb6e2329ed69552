import DigiByte.DigiDollar.Params

/-!
Health, the dynamic collateral adjustment, the emergency redemption ratio and
the mint price rule (`consensus/dca.cpp`, `consensus/err.cpp`,
`consensus/volatility.cpp`). The `__int128` intermediates are unbounded here;
the only place that tests for 128-bit overflow is kept.
-/

set_option autoImplicit false
set_option relaxedAutoImplicit false

namespace DigiByte.DigiDollar

open Consensus

def INT128_MAX : ℤ := 2 ^ 127 - 1

def tryMultiplyInt128 (a b : ℤ) : Option ℤ :=
  if a < 0 ∨ b < 0 then none
  else if a = 0 ∨ b = 0 then some 0
  else if a > INT128_MAX / b then none
  else some (a * b)

/-- Floor of the collateral value over the liabilities, in percent, at most 30000. -/
def calculateSystemHealth (totalCollateral totalDD oraclePrice : ℤ) : ℤ :=
  if oraclePrice ≤ 0 then 0
  else if totalCollateral < 0 then 0
  else if totalDD < 0 then 0
  else if totalDD = 0 then 30000
  else
    match (tryMultiplyInt128 totalCollateral oraclePrice).bind (tryMultiplyInt128 · 100) with
    | none => 0
    | some numerator =>
      let denominator := COIN * 1000 * totalDD
      let healthCalculation := numerator / denominator
      if healthCalculation ≤ 0 then 0
      else if healthCalculation > 30000 then 30000 else healthCalculation

/-- Lower end, upper end and multiplier of each health band. -/
def HEALTH_TIERS : List (ℤ × ℤ × ℤ) :=
  [(0, 109, 20000), (110, 119, 15000), (120, 149, 12500), (150, 30000, 10000)]

def DCA_BPS_SCALE : ℤ := 10000

def clampHealth (systemHealth : ℤ) : ℤ := max 0 (min 30000 systemHealth)

def getDCAMultiplierBps (systemHealth : ℤ) : ℤ :=
  let health := clampHealth systemHealth
  match HEALTH_TIERS.find? fun tier => tier.1 ≤ health && health ≤ tier.2.1 with
  | some tier => tier.2.2
  | none => 20000

def applyDCAForHealth (baseRatio systemHealth : ℤ) : ℤ :=
  if baseRatio ≤ 0 ∨ systemHealth < 0 ∨ systemHealth > 30000 then 0
  else
    let adjustedRatio := baseRatio * getDCAMultiplierBps systemHealth
    let finalRatio := (adjustedRatio + DCA_BPS_SCALE - 1) / DCA_BPS_SCALE
    if finalRatio > INT_MAX then INT_MAX else finalRatio

def applyDCA (baseRatio systemHealth : ℤ) : ℤ :=
  if baseRatio ≤ 0 then 0 else applyDCAForHealth baseRatio (clampHealth systemHealth)

/-! The emergency redemption ratio. -/

def shouldActivateERR (systemHealth : ℤ) : Bool := systemHealth < 100

def ERR_RATIO_NORMAL_BPS : ℤ := 10000

/-- Health threshold and ratio, highest threshold first. -/
def ERR_TIERS : List (ℤ × ℤ) := [(95, 9500), (90, 9000), (85, 8500), (0, 8000)]

def calculateERRRatioBps (systemHealth : ℤ) : ℤ :=
  if systemHealth ≥ 100 then ERR_RATIO_NORMAL_BPS
  else match ERR_TIERS.find? fun tier => tier.1 ≤ systemHealth with
    | some tier => tier.2
    | none => 8000

def getRequiredDDBurn (originalDDMinted systemHealth : ℤ) : ℤ :=
  if originalDDMinted ≤ 0 then 0
  else if systemHealth ≥ 100 then originalDDMinted
  else
    let ratioBps :=
      if calculateERRRatioBps systemHealth ≤ 0 then 8000 else calculateERRRatioBps systemHealth
    let required := (originalDDMinted * ERR_RATIO_NORMAL_BPS + ratioBps - 1) / ratioBps
    if required > INT64_MAX then INT64_MAX else required

theorem calculateERRRatioBps_bounds (systemHealth : ℤ) :
    8000 ≤ calculateERRRatioBps systemHealth ∧ calculateERRRatioBps systemHealth ≤ 10000 := by
  have tiers : ∀ tier ∈ ERR_TIERS, 8000 ≤ tier.2 ∧ tier.2 ≤ 10000 := by decide
  unfold calculateERRRatioBps
  split_ifs with healthy
  · decide
  · split
    · rename_i found
      exact tiers _ (List.mem_of_find?_eq_some found)
    · decide

private theorem calculateERRRatioBps_eq (systemHealth : ℤ) :
    calculateERRRatioBps systemHealth =
      if 100 ≤ systemHealth then 10000 else if 95 ≤ systemHealth then 9500
      else if 90 ≤ systemHealth then 9000
      else if 85 ≤ systemHealth then 8500 else 8000 := by
  unfold calculateERRRatioBps ERR_TIERS
  split_ifs with normal high middle low
  · rfl
  · simp [high]
  · simp [high, middle]
  · simp [high, middle, low]
  · by_cases negative : 0 ≤ systemHealth <;> simp [high, middle, low, negative]

theorem calculateERRRatioBps_mono {systemHealth systemHealth' : ℤ}
    (ordered : systemHealth ≤ systemHealth') :
    calculateERRRatioBps systemHealth ≤ calculateERRRatioBps systemHealth' := by
  rw [calculateERRRatioBps_eq, calculateERRRatioBps_eq]
  split_ifs <;> omega

theorem getRequiredDDBurn_le_iff {principal : ℤ} (systemHealth : ℤ) {burn : ℤ}
    (positive : 0 < principal) (below : burn < INT64_MAX) :
    getRequiredDDBurn principal systemHealth ≤ burn ↔
      principal * ERR_RATIO_NORMAL_BPS ≤ burn * calculateERRRatioBps systemHealth := by
  obtain ⟨low, -⟩ := calculateERRRatioBps_bounds systemHealth
  unfold getRequiredDDBurn
  rw [if_neg (by omega)]
  by_cases healthy : systemHealth ≥ 100
  · rw [if_pos healthy, calculateERRRatioBps, if_pos healthy]
    unfold ERR_RATIO_NORMAL_BPS
    omega
  · rw [if_neg healthy]
    simp only [if_neg (show ¬ calculateERRRatioBps systemHealth ≤ 0 by omega)]
    generalize calculateERRRatioBps systemHealth = bps at low
    have rounded : (principal * ERR_RATIO_NORMAL_BPS + bps - 1) / bps ≤ burn ↔
        principal * ERR_RATIO_NORMAL_BPS ≤ burn * bps := by
      rw [← Int.lt_add_one_iff, Int.ediv_lt_iff_lt_mul (by omega), Int.add_mul, Int.one_mul]
      omega
    rw [← rounded]
    -- saturation lies above every amount in question
    split_ifs <;> omega

theorem le_getRequiredDDBurn {principal : ℤ} (systemHealth : ℤ) (positive : 0 < principal)
    (bound : principal ≤ INT64_MAX) : principal ≤ getRequiredDDBurn principal systemHealth := by
  obtain ⟨-, high⟩ := calculateERRRatioBps_bounds systemHealth
  by_contra lower
  have covers :=
    (getRequiredDDBurn_le_iff systemHealth positive (show principal - 1 < INT64_MAX by omega)).mp
    (by omega)
  have scaled : (principal - 1) * calculateERRRatioBps systemHealth ≤ (principal - 1) * 10000 :=
    Int.mul_le_mul_of_nonneg_left high (by omega)
  unfold ERR_RATIO_NORMAL_BPS at covers
  omega

theorem getRequiredDDBurn_nonneg (principal systemHealth : ℤ) :
    0 ≤ getRequiredDDBurn principal systemHealth := by
  by_cases positive : 0 < principal
  · obtain ⟨low, -⟩ := calculateERRRatioBps_bounds systemHealth
    by_contra negative
    have covers :=
      (getRequiredDDBurn_le_iff systemHealth positive (show -1 < INT64_MAX by decide)).mp (by omega)
    unfold ERR_RATIO_NORMAL_BPS at covers
    omega
  · rw [getRequiredDDBurn, if_pos (by omega)]

theorem getRequiredDDBurn_le {principal : ℤ} (systemHealth : ℤ) (positive : 0 < principal) :
    getRequiredDDBurn principal systemHealth ≤ 2 * principal := by
  by_cases fits : 2 * principal < INT64_MAX
  · obtain ⟨low, -⟩ := calculateERRRatioBps_bounds systemHealth
    apply (getRequiredDDBurn_le_iff systemHealth positive fits).mpr
    have scaled : 2 * principal * 8000 ≤ 2 * principal * calculateERRRatioBps systemHealth :=
      Int.mul_le_mul_of_nonneg_left low (by omega)
    unfold ERR_RATIO_NORMAL_BPS
    omega
  · unfold getRequiredDDBurn
    dsimp only
    split_ifs <;> omega

private theorem burn_le_iff {a : ℤ} (health b : ℤ) (positive : 1 ≤ a)
    (atMost : a ≤ 2 * MAX_DIGIDOLLAR) :
    getRequiredDDBurn a health ≤ b ↔ a * 10000 ≤ b * calculateERRRatioBps health := by
  have doubled := getRequiredDDBurn_le health (show 0 < a by omega)
  obtain ⟨low, -⟩ := calculateERRRatioBps_bounds health
  have room : 4 * MAX_DIGIDOLLAR < INT64_MAX := by decide
  by_cases small : b < INT64_MAX
  · exact getRequiredDDBurn_le_iff health (by omega) small
  · have scaled : b * 8000 ≤ b * calculateERRRatioBps health :=
      Int.mul_le_mul_of_nonneg_left low (by omega)
    have wide : 40000 * MAX_DIGIDOLLAR ≤ INT64_MAX * 8000 := by decide
    constructor
    · intro _
      omega
    · intro _
      omega

/-- The burn is the least one that covers the principal at the ratio, and inherits from that its
bounds, its order in both arguments and that splitting a principal saves nothing. -/
theorem err_burn_least {a : ℤ} (health : ℤ) (positive : 1 ≤ a) (atMost : a ≤ MAX_DIGIDOLLAR) :
    (a * 10000 ≤ getRequiredDDBurn a health * calculateERRRatioBps health ∧
      ∀ b, a * 10000 ≤ b * calculateERRRatioBps health → getRequiredDDBurn a health ≤ b) ∧
    a ≤ getRequiredDDBurn a health ∧ (getRequiredDDBurn a health = a ↔ 100 ≤ health) ∧
    getRequiredDDBurn a health ≤ (5 * a + 3) / 4 ∧
    (∀ a', a ≤ a' → a' ≤ MAX_DIGIDOLLAR →
      getRequiredDDBurn a health ≤ getRequiredDDBurn a' health) ∧
    (∀ health', health ≤ health' → getRequiredDDBurn a health' ≤ getRequiredDDBurn a health) ∧
    ∀ a', 1 ≤ a' → a' ≤ MAX_DIGIDOLLAR →
      getRequiredDDBurn (a + a') health ≤
        getRequiredDDBurn a health + getRequiredDDBurn a' health := by
  have cap : 0 < MAX_DIGIDOLLAR := by decide
  have covers : ∀ {a : ℤ} (health : ℤ), 1 ≤ a → a ≤ MAX_DIGIDOLLAR →
      a * 10000 ≤ getRequiredDDBurn a health * calculateERRRatioBps health := by
    intro a health positive atMost
    exact (burn_le_iff health _ positive (by omega)).mp (Int.le_refl _)
  have least : ∀ b, getRequiredDDBurn a health ≤ b ↔
      a * 10000 ≤ b * calculateERRRatioBps health := by
    intro b
    exact burn_le_iff health b positive (by omega)
  obtain ⟨low, high⟩ := calculateERRRatioBps_bounds health
  have raised : a ≤ getRequiredDDBurn a health :=
    le_getRequiredDDBurn health (by omega) (atMost.trans (by decide))
  refine ⟨⟨covers health positive atMost, fun b => (least b).mpr⟩, raised, ?_, ?_, ?_, ?_, ?_⟩
  · have unchanged : getRequiredDDBurn a health = a ↔
        a * 10000 ≤ a * calculateERRRatioBps health := by
      rw [← least a]
      omega
    rw [unchanged, calculateERRRatioBps_eq]
    split_ifs <;> omega
  · rw [least]
    have scaled : (5 * a + 3) / 4 * 8000 ≤ (5 * a + 3) / 4 * calculateERRRatioBps health :=
      Int.mul_le_mul_of_nonneg_left low (by omega)
    omega
  · intro a' ordered atMost'
    rw [least]
    have larger := covers health (show 1 ≤ a' by omega) atMost'
    omega
  · intro health' ordered
    rw [burn_le_iff health' _ positive (by omega)]
    have scaled := Int.mul_le_mul_of_nonneg_left (calculateERRRatioBps_mono ordered)
      (getRequiredDDBurn_nonneg a health)
    exact (covers health positive atMost).trans scaled
  · intro a' positive' atMost'
    rw [burn_le_iff health _ (by omega) (by omega), Int.add_mul, Int.add_mul]
    exact Int.add_le_add (covers health positive atMost) (covers health positive' atMost')

theorem err_burn_of_sample :
    getRequiredDDBurn 100 (-7) = 125 ∧
      getRequiredDDBurn (100 + 1) (-7) ≤ getRequiredDDBurn 100 (-7) + getRequiredDDBurn 1 (-7) := by
  obtain ⟨-, -, -, -, -, -, splitting⟩ := @err_burn_least 100 (-7) (by decide) (by decide)
  exact ⟨by decide, splitting 1 (by decide) (by decide)⟩

/-! The mint price rule that replaces the volatility freezes. -/

def MINT_REFERENCE_RULE_VERSION : ℤ := 1
def MINT_REFERENCE_SAMPLES : ℕ := 15
def MINT_MAX_DEVIATION_BPS : ℤ := 2000

/-- The ancestor price reference of one candidate block. -/
structure MintReference where
  ready : Bool := false
  candidate_height : ℤ := 0
  parent_hash : ℕ := 0
  genesis_hash : ℕ := 0
  rules_version : ℤ := MINT_REFERENCE_RULE_VERSION
  price_micro_usd : ℤ := 0
  sample_count : ℕ := 0
  window_start_height : ℤ := 0
  window_end_height : ℤ := -1
  error : String := ""

structure MintPriceStatus where
  ready : Bool
  quote_available : Bool
  restricted : Bool := false
  deviation_bps : ℤ := 0
  reason : String

def saturatingInt64 (value : ℤ) : ℤ := max (-INT64_MAX - 1) (min INT64_MAX value)

def evaluateMintPrice (candidate : ℤ) (reference : MintReference) : MintPriceStatus :=
  let quote : Bool := 0 < candidate
  if ¬ 0 < candidate then ⟨reference.ready, quote, false, 0, "oracle_unavailable"⟩
  else if reference.ready = false ∨ reference.rules_version ≠ MINT_REFERENCE_RULE_VERSION then
    ⟨false, quote, false, 0, "volatility_state_not_ready"⟩
  else if reference.sample_count = 0 then ⟨reference.ready, quote, false, 0, "none"⟩
  else if reference.price_micro_usd ≤ 0 ∨ reference.sample_count > MINT_REFERENCE_SAMPLES then
    ⟨false, quote, false, 0, "volatility_state_not_ready"⟩
  else
    let difference := |candidate - reference.price_micro_usd|
    let restricted : Bool :=
      difference * 10000 ≥ reference.price_micro_usd * MINT_MAX_DEVIATION_BPS
    ⟨reference.ready, quote, restricted,
      saturatingInt64 (difference * 10000 / reference.price_micro_usd),
      if restricted then "volatility_pause" else "none"⟩

end DigiByte.DigiDollar
