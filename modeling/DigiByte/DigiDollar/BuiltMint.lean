import DigiByte.DigiDollar.BuiltScripts
import DigiByte.DigiDollar.MintHealth

/-!
Built mints against the mint rules.

The builder and `ValidateMintTransaction` compute tier, lock height, collateral and
scripts on their own. The output list of the builder is scanned symbolically, and the
two sides meet in one window of heights, prices and health values.
-/

set_option autoImplicit false
set_option relaxedAutoImplicit false

namespace DigiByte.DigiDollar

open Consensus Script
open Library.Checks (rejectIf bind_eq_ok rejectIf_eq_ok rejectIf_bind_of_not ok_bind
  toOption_eq_some)

/-- Outputs that the mint rules pass over. -/
def IsChange (out : CTxOut) : Prop :=
  0 < out.nValue ∧ isOpReturn out.scriptPubKey = false ∧
    isCanonicalP2TROutput out.scriptPubKey = false

/-- What a successful build gives. -/
structure BuiltMint (curve : TaprootCurve) (b : TxBuilder) (params : TxBuilderMintParams)
    (result : TxBuilderResult) : Prop where
  valid : b.validateMintParams params = true
  price : 0 < b.oraclePrice
  healthy : isThawDayActive b.chainParams.consensus b.currentHeight = true →
    100 ≤ b.getCurrentSystemCollateral
  collateral : result.collateralRequired =
    b.calculateRequiredCollateral params.ddAmount params.lockDays
  positive : 0 < result.collateralRequired
  inputs : result.tx.vin ≠ []
  spends : ∀ input ∈ result.tx.vin, input.prevout ∈ params.utxos
  outputs : ∃ change, (∀ out ∈ change, IsChange out) ∧
    result.tx.vout = (TxBuilder.mintSkeleton curve b params [] result.collateralRequired).vout ++
      change
  balance : (result.tx.vin.map fun input => b.getUTXOValueVirtual input.prevout).sum =
    result.collateralRequired + ((result.tx.vout.drop 3).map CTxOut.nValue).sum + result.totalFees

namespace TxBuilder

variable {curve : TaprootCurve} {b : TxBuilder} {params : TxBuilderMintParams}

/-! The build. -/

private theorem selectLoop_eq_some {value : COutPoint → ℤ} {utxos : List COutPoint}
    {target total total' : ℤ} {entries : List (ℤ × COutPoint)} {inputs inputs' : List CTxIn}
    (valued : ∀ e ∈ entries, e.1 = value e.2 ∧ e.2 ∈ utxos)
    (spends : ∀ input ∈ inputs, input.prevout ∈ utxos)
    (sum : (inputs.map fun input => value input.prevout).sum = total)
    (selected : selectLoop target entries inputs total = some (inputs', total')) :
    inputs' ≠ [] ∧ (∀ input ∈ inputs', input.prevout ∈ utxos) ∧
      (inputs'.map fun input => value input.prevout).sum = total' := by
  induction entries generalizing inputs total with
  | nil => cases selected
  | cons e rest ih =>
    obtain ⟨v, utxo⟩ := e
    obtain ⟨here, listed⟩ : v = value utxo ∧ utxo ∈ utxos := valued (v, utxo) (by simp)
    have next : ((inputs ++ [({ prevout := utxo } : CTxIn)]).map fun input =>
        value input.prevout).sum = total + v := by
      simp [sum, here]
    have next_spends : ∀ input ∈ inputs ++ [({ prevout := utxo } : CTxIn)],
        input.prevout ∈ utxos := by
      intro input member
      rcases List.mem_append.mp member with earlier | last
      · exact spends input earlier
      · rw [List.mem_singleton.mp last]
        exact listed
    unfold selectLoop at selected
    dsimp only at selected
    split_ifs at selected with enough full
    · cases selected
      exact ⟨by simp, next_spends, next⟩
    · exact ih (fun e' member => valued e' (by simp [member])) next_spends next selected

private theorem selectCoins_eq_some {utxos : List COutPoint} {target total : ℤ}
    {inputs : List CTxIn} (selected : b.selectCoins utxos target = some (inputs, total)) :
    inputs ≠ [] ∧ (∀ input ∈ inputs, input.prevout ∈ utxos) ∧
      (inputs.map fun input => b.getUTXOValueVirtual input.prevout).sum = total := by
  refine selectLoop_eq_some ?_ (by simp) rfl selected
  intro e member
  rw [List.mem_insertionSort, List.mem_filter] at member
  obtain ⟨utxo, listed, rfl⟩ := List.mem_map.mp member.1
  exact ⟨rfl, listed⟩

private theorem resolveDGBChangeScript_mint {dest : Option CTxDestination} {script : Bytes}
    (resolved : resolveDGBChangeScript dest false = .ok script) :
    isOpReturn script = false ∧ isCanonicalP2TROutput script = false := by
  obtain ⟨target, _, valid, rfl, ordinary⟩ := resolveDGBChangeScript_eq_ok resolved
  have notTaproot : isTaprootOutputScript (getScriptForDestination target) = false := by
    simpa using ordinary
  exact ⟨isOpReturn_getScriptForDestination valid, notTaproot⟩

private theorem addChange_eq_ok {tx : CMutableTransaction} {totalIn collateralRequired : ℤ}
    {result : TxBuilderResult}
    (added : addChange params tx totalIn collateralRequired = .ok result) :
    result.collateralRequired = collateralRequired ∧ result.tx.vin = tx.vin ∧
      ∃ change, (∀ out ∈ change, IsChange out) ∧ result.tx.vout = tx.vout ++ change ∧
        totalIn = collateralRequired + (change.map CTxOut.nValue).sum + result.totalFees := by
  unfold addChange at added
  dsimp only at added
  split_ifs at added with short large
  · simp only [bind_eq_ok, rejectIf_eq_ok] at added
    obtain ⟨script, resolved, _, _, _, enough, result⟩ := added
    obtain ⟨notReturn, notTaproot⟩ := resolveDGBChangeScript_mint resolved
    split_ifs at result with dust
    · cases result
      refine ⟨rfl, rfl, [], by simp, by simp, ?_⟩
      simp only [List.map_nil, List.sum_nil]
      ring
    · cases result
      refine ⟨rfl, rfl, [_], ?_, rfl, ?_⟩
      · intro out member
        rw [List.mem_singleton] at member
        subst member
        refine ⟨?_, notReturn, notTaproot⟩
        unfold DUST_THRESHOLD at dust
        dsimp only
        omega
      · simp only [List.map_cons, List.map_nil, List.sum_cons, List.sum_nil]
        ring
  · cases added
    refine ⟨rfl, rfl, [], by simp, by simp, ?_⟩
    simp only [List.map_nil, List.sum_nil]
    ring

theorem builtMint_of_ok {result : TxBuilderResult}
    (built : buildMintTransaction curve b params = .ok result) :
    BuiltMint curve b params result := by
  simp only [buildMintTransaction, bind_eq_ok, rejectIf_eq_ok] at built
  obtain ⟨_, valid, _, price, _, ready, _, healthy, _, positive, _, _, selected⟩ := built
  split at selected
  · cases selected
  · rename_i inputs totalIn coins
    obtain ⟨nonempty, spends, sum⟩ := selectCoins_eq_some coins
    obtain ⟨collateral, vin, change, isChange, vout, balance⟩ := addChange_eq_ok selected
    refine ⟨by simpa using valid, by omega, ?_, collateral, by omega, ?_, ?_, ?_, ?_⟩
    · intro active
      simp only [active, true_and, not_lt] at healthy
      exact healthy
    · rw [vin]
      exact nonempty
    · rw [vin]
      exact spends
    · refine ⟨change, isChange, ?_⟩
      rw [vout, collateral]
      rfl
    · rw [vin, collateral, vout]
      exact sum.trans balance

end TxBuilder

/-! The metadata output. -/

/-- The fields behind the tag. -/
def mintFields (amount lock tier : ℤ) (owner : Bytes) : Bytes :=
  pushData (serializeNum 1) ++ (pushData (serializeNum amount) ++ (pushData (serializeNum lock) ++
    (pushData (serializeNum tier) ++ pushData owner)))

/-- Fields that the rules take at a height: amount and tier in range, and a lock that ends
within the confirmation window of its tier. -/
structure FieldsFit (ctx : ValidationContext) (amount lock tier : ℤ) (owner : Bytes) : Prop where
  low : 1 ≤ amount
  high : amount ≤ MAX_DIGIDOLLAR
  locked : 0 < lock
  small : lock < 500000000
  tier_low : 0 ≤ tier
  tier_high : tier ≤ 9
  early : lockDaysToBlocks (TIER_LOCK_DAYS.getD tier.toNat 0) ≤ lock - ctx.nHeight
  late : lock - ctx.nHeight ≤ lockDaysToBlocks (TIER_LOCK_DAYS.getD tier.toNat 0) +
    MINT_LOCK_CONFIRMATION_BUFFER_BLOCKS
  size : owner.length = 32

section Fields

variable {amount lock tier : ℤ} {owner : Bytes}

private theorem readMintType_fields (pc : Bytes) :
    readMintType (pushData (serializeNum 1) ++ pc) = (1, pc) := by
  obtain ⟨opcode, read⟩ := @getScriptOp_pushNum 1 (by decide) pc
  have value : scriptNum (serializeNum 1) true 4 = some 1 := by decide
  simp [readMintType, read, value, getint]

private theorem readMintNumber_push {n : ℤ} (positive : 0 < n) (bound : n.natAbs < 0x80 * 256 ^ 7)
    (pc : Bytes) (reason missing malformed : String) :
    readMintNumber (pushData (serializeNum n) ++ pc) reason missing malformed = .ok (n, pc) := by
  obtain ⟨opcode, read⟩ := getScriptOp_pushNum bound pc
  have nonempty := serializeNum_ne_nil bound (by omega)
  have value := scriptNum_serializeNum_of_lt le_rfl bound le_rfl true
  simp [readMintNumber, read, nonempty, value]

private theorem readMintTier_push {ctx : ValidationContext} (low : 0 ≤ tier) (high : tier ≤ 9)
    (early : lockDaysToBlocks (TIER_LOCK_DAYS.getD tier.toNat 0) ≤ lock - ctx.nHeight)
    (late : lock - ctx.nHeight ≤ lockDaysToBlocks (TIER_LOCK_DAYS.getD tier.toNat 0) +
      MINT_LOCK_CONFIRMATION_BUFFER_BLOCKS) (pc : Bytes) :
    readMintTier ctx lock (pushData (serializeNum tier) ++ pc) =
      .ok (some (tier, lockDaysToBlocks (TIER_LOCK_DAYS.getD tier.toNat 0)), pc) := by
  obtain ⟨opcode, read⟩ := @getScriptOp_pushNum tier (by omega) pc
  have value := @scriptNum_serializeNum_of_lt tier 0 4 (by decide) (by omega) (by decide) true
  have small : getint tier = tier := by
    unfold getint
    omega
  have inRange : ¬ (tier < 0 ∨ tier > 9) := by omega
  simp only [readMintTier, read, value, small]
  rw [rejectIf_bind_of_not inRange, rejectIf_bind_of_not (by omega)]

private theorem readMintOwner_push (size : owner.length = 32) :
    readMintOwner (pushData owner) = .ok owner := by
  have read := @getScriptOp_pushData owner (by omega) []
  rw [List.append_nil] at read
  simp [readMintOwner, read, size]

private theorem taggedAmount_fields (low : 1 ≤ amount) (high : amount ≤ MAX_DIGIDOLLAR) :
    taggedAmount (mintFields amount lock tier owner) = some amount := by
  have bound : amount.natAbs < 0x80 * 256 ^ 7 := by
    unfold MAX_DIGIDOLLAR at high
    omega
  obtain ⟨_, type⟩ := @getScriptOp_pushNum 1 (by decide) (pushData (serializeNum amount) ++
    (pushData (serializeNum lock) ++ (pushData (serializeNum tier) ++ pushData owner)))
  obtain ⟨_, read⟩ := getScriptOp_pushNum bound
    (pushData (serializeNum lock) ++ (pushData (serializeNum tier) ++ pushData owner))
  have value := scriptNum_serializeNum_of_lt le_rfl bound le_rfl true
  simp [taggedAmount, mintFields, type, read, value, boundedAmount, low, high]

private theorem scanMintPayload_fields {ctx : ValidationContext} {s : MintScan}
    (first : s.ddOpReturnCount = 0) (fits : FieldsFit ctx amount lock tier owner) :
    scanMintPayload ctx (mintFields amount lock tier owner) s =
      .ok { s with
        ddOpReturnCount := 1
        totalDD := amount
        lockTime := lock
        claimedLockTier := tier
        claimedTierLockBlocks := lockDaysToBlocks (TIER_LOCK_DAYS.getD tier.toNat 0)
        ownerXOnlyPubKeyData := owner
        hasOwnerPubKey := true } := by
  obtain ⟨low, high, locked, small, tier_low, tier_high, early, late, size⟩ := fits
  have amount_bound : amount.natAbs < 0x80 * 256 ^ 7 := by
    unfold MAX_DIGIDOLLAR at high
    omega
  have lock_bound : lock.natAbs < 0x80 * 256 ^ 7 := by omega
  unfold scanMintPayload mintFields
  rw [rejectIf_bind_of_not (by omega)]
  simp only [readMintType_fields, readMintAmount, readMintLockHeight]
  rw [rejectIf_bind_of_not (by decide), readMintNumber_push (by omega) amount_bound, ok_bind]
  dsimp only
  rw [rejectIf_bind_of_not (by omega), readMintNumber_push locked lock_bound, ok_bind]
  dsimp only
  rw [rejectIf_bind_of_not (by omega), readMintTier_push tier_low tier_high early late, ok_bind]
  dsimp only
  rw [readMintOwner_push size, ok_bind, first]
  rfl

end Fields

/-! The output loop. -/

section Outputs

variable {ctx : ValidationContext} {registry : ScriptRegistry} {s : MintScan}

private theorem scanMintOutput_vault {c : ℤ} {vault : Bytes}
    (p2tr : isCanonicalP2TROutput vault = true)
    (positive : 0 < c) (first : s.collateralOutputCount = 0) :
    scanMintOutput ctx registry ⟨c, vault⟩ s =
      if c < DUST_THRESHOLD then .error (.invalid "collateral-dust")
      else .ok { s with
        collateralOutputCount := 1
        totalCollateral := s.totalCollateral + c
        hasCollateralOutput := true
        actualCollateralScript := vault } := by
  have notReturn := isOpReturn_eq_false_of_p2tr p2tr
  have untagged := ddPayload_eq_none_of_p2tr p2tr
  unfold scanMintOutput scanCollateral validateCollateralOutput
  dsimp only
  rw [if_neg (by simp [p2tr]), if_pos ⟨positive, notReturn⟩, rejectIf_bind_of_not (by simp [p2tr])]
  by_cases dust : c < DUST_THRESHOLD
  · rw [rejectIf, if_pos dust, if_pos dust]
    rfl
  · rw [rejectIf_bind_of_not dust, rejectIf_bind_of_not (by omega), ok_bind, untagged, ok_bind,
      if_neg (by omega), if_neg dust, first]

private theorem scanMintOutput_token {token : Bytes} (p2tr : isCanonicalP2TROutput token = true)
    (first : s.ddOutputCount = 0) :
    scanMintOutput ctx registry ⟨0, token⟩ s =
      .ok { s with ddOutputCount := 1, hasDDOutput := true } := by
  have untagged := ddPayload_eq_none_of_p2tr p2tr
  have unread := @extractDDAmount_eq_none_of_p2tr registry token p2tr
  unfold scanMintOutput scanToken validateDDOutput
  dsimp only
  rw [if_neg (by omega), if_neg (by omega), ok_bind, untagged, ok_bind, if_pos ⟨p2tr, rfl⟩,
    rejectIf_bind_of_not (by omega)]
  simp [rejectIf, p2tr, unread, first, bind, Except.bind]

private theorem scanMintOutput_tagged {fields : Bytes} :
    scanMintOutput ctx registry ⟨0, OP_RETURN :: (pushData DD_TAG ++ fields)⟩ s =
      scanMintPayload ctx fields s := by
  have plain : isCanonicalP2TROutput (OP_RETURN :: (pushData DD_TAG ++ fields)) = false := by
    by_contra p2tr
    have := isOpReturn_eq_false_of_p2tr (Bool.not_eq_false _ ▸ p2tr)
    simp [isOpReturn] at this
  have tagged := ddPayload_tagged fields
  simp only [scanMintOutput, tagged, plain]
  cases scanned : scanMintPayload ctx fields s with
  | error e => simp [scanned, bind, Except.bind]
  | ok s' => simp [scanned, bind, Except.bind]

private theorem scanMintOutputs_change {change : List CTxOut}
    (isChange : ∀ out ∈ change, IsChange out) :
    scanMintOutputs ctx registry change s = .ok s := by
  induction change with
  | nil => rfl
  | cons out rest ih =>
    obtain ⟨positive, notReturn, notTaproot⟩ := isChange out (by simp)
    have skipped : scanMintOutput ctx registry out s = .ok s := by
      simp [scanMintOutput, positive, notReturn, notTaproot]
    rw [scanMintOutputs, skipped, ok_bind]
    exact ih fun out' member => isChange out' (by simp [member])

private theorem checkEarlyAmounts_change {change : List CTxOut}
    (isChange : ∀ out ∈ change, IsChange out) : checkEarlyAmounts registry ctx change = .ok () := by
  induction change with
  | nil => rfl
  | cons out rest ih =>
    have positive := (isChange out (by simp)).1
    rw [checkEarlyAmounts, rejectIf_bind_of_not (by omega)]
    exact ih fun out' member => isChange out' (by simp [member])

end Outputs

/-! The requirement on both sides. -/

private theorem ceil_mono {n n' p p' : ℤ} (positive : 0 < p) (nonneg : 0 ≤ n) (smaller : n' ≤ n)
    (dearer : p ≤ p') : (n' + p' - 1) / p' ≤ (n + p - 1) / p := by
  have quotient : 0 ≤ (n + p - 1) / p := Int.ediv_nonneg (by omega) positive.le
  have covered : n' ≤ (n + p - 1) / p * p' := calc
    n' ≤ n := smaller
    _ ≤ (n + p - 1) / p * p := le_mul_of_ceil_le positive le_rfl
    _ ≤ (n + p - 1) / p * p' := mul_le_mul_of_nonneg_left dearer quotient
  have below : (n' + p' - 1) / p' < (n + p - 1) / p + 1 := by
    rw [Int.ediv_lt_iff_lt_mul (by omega), add_mul]
    omega
  omega

private theorem applyDCAForHealth_eq {base h : ℤ} (positive : 0 < base) (low : 0 ≤ h)
    (high : h ≤ 30000) : applyDCAForHealth base h =
      min INT_MAX ((base * getDCAMultiplierBps h + 9999) / 10000) := by
  unfold applyDCAForHealth DCA_BPS_SCALE
  rw [if_neg (by omega)]
  generalize base * getDCAMultiplierBps h = adjusted
  dsimp only
  split_ifs <;> omega

private theorem applyDCAForHealth_mono {base g g' : ℤ} (positive : 0 < applyDCAForHealth base g)
    (finite : applyDCAForHealth base g ≠ INT_MAX) (low : 0 ≤ g') (high : g' ≤ 30000)
    (calmer : getDCAMultiplierBps g' ≤ getDCAMultiplierBps g) :
    0 < base ∧ 0 < applyDCAForHealth base g' ∧ applyDCAForHealth base g' ≠ INT_MAX ∧
      applyDCAForHealth base g' ≤ applyDCAForHealth base g := by
  have usable : 0 < base ∧ 0 ≤ g ∧ g ≤ 30000 := by
    by_contra out
    rw [applyDCAForHealth, if_pos (by omega)] at positive
    omega
  obtain ⟨base_pos, g_low, g_high⟩ := usable
  have scaled : base * getDCAMultiplierBps g' ≤ base * getDCAMultiplierBps g :=
    mul_le_mul_of_nonneg_left calmer base_pos.le
  have least : base * 10000 ≤ base * getDCAMultiplierBps g' :=
    mul_le_mul_of_nonneg_left (getDCAMultiplierBps_bounds g').1 base_pos.le
  rw [applyDCAForHealth_eq base_pos g_low g_high] at positive finite ⊢
  rw [applyDCAForHealth_eq base_pos low high]
  have large : 0 < INT_MAX := by decide
  refine ⟨base_pos, ?_, ?_, ?_⟩ <;> omega

theorem resolveCanonicalHealth_le {ctx : ValidationContext} {node : NodeState} {g : ℤ}
    (active : ctx.canonical = true) (health : resolveCanonicalHealth ctx node = some g) :
    g ≤ 30000 := by
  rw [resolveCanonicalHealth_canonical active, Option.bind_eq_some_iff] at health
  obtain ⟨state, _, computed⟩ := health
  unfold calculateChainstateHealth at computed
  split_ifs at computed
  cases computed
  exact (calculateSystemHealth_bounds _ _ _).2

private theorem applyCollateralSafetyMargin_pos {r : ℤ}
    (positive : 0 < TxBuilder.applyCollateralSafetyMargin r) :
    0 < r ∧ TxBuilder.applyCollateralSafetyMargin r = r * 101 / 100 := by
  unfold TxBuilder.applyCollateralSafetyMargin at positive ⊢
  dsimp only at positive ⊢
  split_ifs at positive ⊢ with empty high
  · exact absurd positive (lt_irrefl 0)
  · exact absurd positive (lt_irrefl 0)
  · exact ⟨by omega, rfl⟩

private theorem getCurrentSystemCollateral_eq {b : TxBuilder} {g : ℤ}
    (active : isThawDayActive b.chainParams.consensus b.currentHeight = true)
    (known : b.candidateHealth = some g) (ready : ¬ b.getCurrentSystemCollateral < 0) :
    b.getCurrentSystemCollateral = g := by
  unfold TxBuilder.getCurrentSystemCollateral at ready ⊢
  rw [if_pos active, known] at ready ⊢
  dsimp only at ready ⊢
  split_ifs at ready ⊢ with inRange
  · rfl
  · exact absurd (by decide) ready

private theorem required_of_pos {b : TxBuilder} {d days g : ℤ}
    (active : isThawDayActive b.chainParams.consensus b.currentHeight = true)
    (known : b.candidateHealth = some g) (positive : 0 < b.calculateRequiredCollateral d days) :
    ∃ ratio r, ratio = applyDCAForHealth
        (getCollateralRatioForLockTime (lockDaysToBlocks days) b.chainParams.digidollarParams) g ∧
      0 < ratio ∧ ratio ≠ INT_MAX ∧
      r = (d * COIN * ratio * 100 + b.oraclePrice - 1) / b.oraclePrice ∧ 0 < r ∧ r ≤ MAX_MONEY ∧
      b.calculateRequiredCollateral d days = r * 101 / 100 := by
  unfold TxBuilder.calculateRequiredCollateral at positive ⊢
  dsimp only at positive ⊢
  split_ifs at positive ⊢ with amount price ready unusable high
  · exact absurd positive (lt_irrefl 0)
  · exact absurd positive (lt_irrefl 0)
  · exact absurd positive (lt_irrefl 0)
  · exact absurd positive (lt_irrefl 0)
  · exact absurd positive (lt_irrefl 0)
  · obtain ⟨r_pos, margin⟩ := applyCollateralSafetyMargin_pos positive
    rw [getCurrentSystemCollateral_eq active known ready, getEffectiveCollateralRatio,
      if_pos active]
      at unusable high r_pos margin ⊢
    exact ⟨_, _, rfl, by omega, by omega, rfl, r_pos, by omega, margin⟩

private theorem getLockTierIndex_eq_some {params : ConsensusParams} {blocks : ℤ} {t : ℕ}
    (tiers : params.collateralRatios = ({} : ConsensusParams).collateralRatios)
    (found : getLockTierIndex blocks params = some t) :
    t ≤ 9 ∧ 0 < blocks ∧ lockDaysToBlocks (TIER_LOCK_DAYS.getD t 0) = blocks := by
  unfold getLockTierIndex at found
  rw [tiers, List.findIdx?_eq_some_iff_getElem] at found
  obtain ⟨inside, here, _⟩ := found
  have table : ∀ i : Fin 10, lockDaysToBlocks (TIER_LOCK_DAYS.getD i 0) =
      (({} : ConsensusParams).collateralRatios.get i).1 := by decide
  have positive : ∀ i : Fin 10, 0 < (({} : ConsensusParams).collateralRatios.get i).1 := by decide
  have bound : t < 10 := inside
  have same : blocks = (({} : ConsensusParams).collateralRatios.get ⟨t, bound⟩).1 :=
    of_decide_eq_true here
  refine ⟨by omega, ?_, ?_⟩
  · rw [same]
    exact positive ⟨t, bound⟩
  · rw [same]
    exact table ⟨t, bound⟩

/-- The contexts in which a built mint is to be accepted: 101 heights, prices that are not
lower and health values that are not worse. -/
structure MintWindow (b : TxBuilder) (g : ℤ) (ctx : ValidationContext) (node : NodeState) (g' : ℤ) :
    Prop where
  chain : ctx.params = b.chainParams
  opened : b.currentHeight ≤ ctx.nHeight
  closes : ctx.nHeight ≤ b.currentHeight + 100
  price : b.oraclePrice ≤ ctx.oraclePriceMicroUSD
  reference : checkMintReference ctx = .ok ()
  health : resolveCanonicalHealth ctx node = some g'
  healthy : 100 ≤ g'
  multiplier : getDCAMultiplierBps g' ≤ getDCAMultiplierBps g

theorem MintWindow.canonical {b : TxBuilder} {g g' : ℤ} {ctx : ValidationContext} {node : NodeState}
    (window : MintWindow b g ctx node g')
    (active : isThawDayActive b.chainParams.consensus b.currentHeight = true) :
    ctx.canonical = true := by
  have later := window.opened
  rw [ValidationContext.canonical, window.chain]
  rw [isThawDayActive_iff] at active ⊢
  omega

private theorem calculateRequiredCollateral_window {b : TxBuilder} {d blocks ratio r g g' : ℤ}
    {ctx : ValidationContext} {node : NodeState} (window : MintWindow b g ctx node g')
    (active : isThawDayActive b.chainParams.consensus b.currentHeight = true)
    (amount : 0 < d) (price : 0 < b.oraclePrice)
    (ratio_eq : ratio = applyDCAForHealth
      (getCollateralRatioForLockTime blocks b.chainParams.digidollarParams) g)
    (usable : 0 < ratio) (finite : ratio ≠ INT_MAX)
    (rounded : r = (d * COIN * ratio * 100 + b.oraclePrice - 1) / b.oraclePrice)
    (money : r ≤ MAX_MONEY) :
    0 < calculateRequiredCollateral d blocks ctx node ∧
      calculateRequiredCollateral d blocks ctx node ≤ r := by
  have canonical := window.canonical active
  have dearer := window.price
  have low := window.healthy
  have high := resolveCanonicalHealth_le canonical window.health
  subst ratio_eq
  obtain ⟨base, positive, bounded, smaller⟩ :=
    applyDCAForHealth_mono usable finite (by omega) high window.multiplier
  unfold calculateRequiredCollateral
  simp only [window.chain, window.health, getEffectiveCollateralRatio, canonical, if_true]
  rw [if_neg (by omega), if_neg (by omega), if_neg (by omega)]
  generalize applyDCAForHealth
    (getCollateralRatioForLockTime blocks b.chainParams.digidollarParams) g' =
    ratio' at *
  generalize applyDCAForHealth
    (getCollateralRatioForLockTime blocks b.chainParams.digidollarParams) g =
    ratio at *
  have unit : 0 < d * COIN := mul_pos amount (by decide)
  have product : d * COIN * ratio' ≤ d * COIN * ratio := mul_le_mul_of_nonneg_left smaller unit.le
  have product_pos : 0 < d * COIN * ratio' := mul_pos unit positive
  have ceiling := ceil_mono price (show 0 ≤ d * COIN * ratio * 100 by omega)
    (show d * COIN * ratio' * 100 ≤ d * COIN * ratio * 100 by omega) dearer
  have ceiling_pos : 1 ≤ (d * COIN * ratio' * 100 + ctx.oraclePriceMicroUSD - 1) /
      ctx.oraclePriceMicroUSD := by
    rw [Int.le_ediv_iff_mul_le (by omega)]
    omega
  rw [if_neg (by omega)]
  exact ⟨by omega, by omega⟩

/-! The whole transaction. -/

/-- The scan of vault, token and metadata. -/
def builtScan (c : ℤ) (vault : Bytes) (amount lock tier : ℤ) (owner : Bytes) : MintScan :=
  { totalDD := amount
    totalCollateral := c
    hasCollateralOutput := true
    hasDDOutput := true
    ddOutputCount := 1
    collateralOutputCount := 1
    ddOpReturnCount := 1
    lockTime := lock
    claimedLockTier := tier
    claimedTierLockBlocks := lockDaysToBlocks (TIER_LOCK_DAYS.getD tier.toNat 0)
    ownerXOnlyPubKeyData := owner
    hasOwnerPubKey := true
    actualCollateralScript := vault }

private theorem createCollateralP2TR_p2tr {curve : TaprootCurve} (laws : CurveLaws curve)
    {params : MintParams} (amount : 0 < params.ddAmount) (lock : 0 ≤ params.lockHeight)
    (nums : params.internalKey = COLLATERAL_NUMS_POINT_BYTES) :
    isCanonicalP2TROutput (createCollateralP2TR curve params) = true := by
  have point : curve.isFullyValid params.internalKey = true := nums ▸ laws.nums
  obtain ⟨output, tweaked, size⟩ := laws.tweaks params.internalKey
    ([createNormalRedemptionPath params, createERRPath params].filter (· ≠ [])) point
  unfold createCollateralP2TR
  rw [if_neg (by simp [point]; omega)]
  dsimp only
  rw [tweaked]
  exact isCanonicalP2TROutput_push size

section Whole

variable {curve : TaprootCurve} {b : TxBuilder} {ctx : ValidationContext} {node : NodeState}
  {c amount lock tier : ℤ} {vault token owner : Bytes} {change : List CTxOut}

/-- The outputs of a build. -/
def builtOutputs (c : ℤ) (vault token : Bytes) (amount lock tier : ℤ) (owner : Bytes)
    (change : List CTxOut) : List CTxOut :=
  ⟨c, vault⟩ :: ⟨0, token⟩ ::
    ⟨0, OP_RETURN :: (pushData DD_TAG ++ mintFields amount lock tier owner)⟩ :: change

private theorem checkEarlyAmounts_built (token_p2tr : isCanonicalP2TROutput token = true)
    (positive : 0 < c) (fits : FieldsFit ctx amount lock tier owner)
    (minted : validateMintAmount amount ctx.params ctx.nHeight = true)
    (isChange : ∀ out ∈ change, IsChange out) :
    checkEarlyAmounts node.registry ctx (builtOutputs c vault token amount lock tier owner change) =
        .ok () ↔ ctx.params.digidollarParams.minOutputAmount ≤ amount := by
  have read : extractDDAmount node.registry
      (OP_RETURN :: (pushData DD_TAG ++ mintFields amount lock tier owner)) false =
        some amount := by
    rw [extractDDAmount_of_ddPayload (ddPayload_tagged _), taggedAmount_fields fits.low fits.high]
  have unread := @extractDDAmount_eq_none_of_p2tr node.registry token token_p2tr
  simp only [builtOutputs, checkEarlyAmounts]
  rw [rejectIf_bind_of_not (by omega), rejectIf_bind_of_not (by simp [unread]), bind_eq_ok]
  simp only [rejectIf_eq_ok, read, checkEarlyAmounts_change isChange]
  simp [minted, validateOutputAmount, fits.high]

private theorem scanMintOutputs_built (vault_p2tr : isCanonicalP2TROutput vault = true)
    (token_p2tr : isCanonicalP2TROutput token = true) (positive : 0 < c)
    (fits : FieldsFit ctx amount lock tier owner) (isChange : ∀ out ∈ change, IsChange out) :
    scanMintOutputs ctx node.registry
      (builtOutputs c vault token amount lock tier owner change) {} =
      if c < DUST_THRESHOLD then .error (.invalid "collateral-dust")
      else .ok (builtScan c vault amount lock tier owner) := by
  unfold builtOutputs scanMintOutputs
  rw [scanMintOutput_vault vault_p2tr positive rfl]
  split_ifs with dust
  · rfl
  · rw [ok_bind, scanMintOutputs, scanMintOutput_token token_p2tr rfl, ok_bind, scanMintOutputs,
      scanMintOutput_tagged, scanMintPayload_fields rfl fits, ok_bind,
      scanMintOutputs_change isChange]
    simp [builtScan]

private theorem MintWindow.withHealth {g g' : ℤ} (window : MintWindow b g ctx node g')
    (active : isThawDayActive b.chainParams.consensus b.currentHeight = true)
    (systemCollateral : ℤ) :
    MintWindow b g { ctx with systemCollateral := systemCollateral } node g' := by
  have canonical := window.canonical active
  refine ⟨window.chain, window.opened, window.closes, window.price, window.reference, ?_,
    window.healthy, window.multiplier⟩
  exact (resolveCanonicalHealth_withHealth canonical systemCollateral).trans window.health

private theorem checkMintScan_built {g g' : ℤ} (window : MintWindow b g ctx node g')
    (active : isThawDayActive b.chainParams.consensus b.currentHeight = true)
    (fits : FieldsFit ctx amount lock tier owner) (point : curve.isFullyValid owner = true)
    (vault_eq : vault = createCollateralP2TR curve
      { ddAmount := amount, lockHeight := lock, ownerKey := owner
        internalKey := COLLATERAL_NUMS_POINT_BYTES })
    (vault_p2tr : isCanonicalP2TROutput vault = true)
    (minted : validateMintAmount amount ctx.params ctx.nHeight = true)
    (blocks : 0 < lockDaysToBlocks (TIER_LOCK_DAYS.getD tier.toNat 0))
    (price : 0 < ctx.oraclePriceMicroUSD)
    (required : ∀ ctx', MintWindow b g ctx' node g' →
      0 < calculateRequiredCollateral amount (lockDaysToBlocks (TIER_LOCK_DAYS.getD tier.toNat 0))
          ctx' node ∧
        calculateRequiredCollateral amount (lockDaysToBlocks (TIER_LOCK_DAYS.getD tier.toNat 0))
          ctx' node ≤ c) :
    checkMintScan curve ctx node (builtScan c vault amount lock tier owner) = .ok () := by
  obtain ⟨required_pos, enough⟩ := required _ (window.withHealth active g')
  obtain ⟨positive, _, locked, _, tier_low, _, early, _, _⟩ := fits
  have nonempty : vault ≠ [] := by
    rintro rfl
    cases vault_p2tr
  have total : mintTotalDD ctx (builtScan c vault amount lock tier owner) = .ok amount := by
    unfold mintTotalDD builtScan
    rw [if_neg (by simp; omega)]
  have vaulted : verifyNUMS curve amount (builtScan c vault amount lock tier owner) = .ok () := by
    unfold verifyNUMS builtScan
    dsimp only
    rw [if_pos ⟨rfl, rfl, locked, positive⟩, ← vault_eq]
    simp [rejectIf, point, nonempty, bind, Except.bind]
  have collateral : checkMintCollateral ctx node amount (builtScan c vault amount lock tier owner) =
      .ok () := by
    have period : mintLockPeriod ctx (builtScan c vault amount lock tier owner) =
        .ok (lockDaysToBlocks (TIER_LOCK_DAYS.getD tier.toNat 0)) := by
      unfold mintLockPeriod builtScan
      dsimp only
      rw [rejectIf_bind_of_not (by omega), if_pos tier_low]
    have ratio : validateCollateralRatio c amount
        (lockDaysToBlocks (TIER_LOCK_DAYS.getD tier.toNat 0))
        { ctx with systemCollateral := g' } node = true := by
      unfold validateCollateralRatio
      dsimp only
      rw [if_neg (by omega), if_neg (by omega)]
      simpa using enough
    unfold checkMintCollateral mintHealth
    rw [window.health]
    dsimp only
    rw [ok_bind, period, ok_bind, rejectIf_bind_of_not (by omega),
      rejectIf_bind_of_not (by simpa [builtScan] using enough)]
    exact rejectIf_eq_ok.mpr (by simpa [builtScan] using ratio)
  unfold checkMintScan
  rw [total, ok_bind, rejectIf_bind_of_not (by simp [builtScan]),
    rejectIf_bind_of_not (by simp [builtScan]),
    rejectIf_bind_of_not (by simpa [builtScan] using locked),
    rejectIf_bind_of_not (by simp [builtScan]), vaulted, ok_bind,
    rejectIf_bind_of_not (by simp [minted])]
  exact collateral

end Whole

private theorem margin_dust_iff {n p r : ℤ} (positive : 0 < p) (rounded : r = (n + p - 1) / p) :
    ¬ r * 101 / 100 < DUST_THRESHOLD ↔ 540 * p < n := by
  have least : 541 ≤ (n + p - 1) / p ↔ 541 * p ≤ n + p - 1 := Int.le_ediv_iff_mul_le positive
  unfold DUST_THRESHOLD
  omega

theorem validateMintParams_iff {b : TxBuilder} {params : TxBuilderMintParams} :
    b.validateMintParams params = true ↔
      0 < params.ddAmount ∧ isValidMintAmount params.ddAmount
        b.chainParams.digidollarParams = true ∧
        getLockTierIndex (lockDaysToBlocks params.lockDays) b.chainParams.digidollarParams =
          some params.lockTier ∧
        params.ownerKey.isValid = true ∧ TxBuilder.validateFeeRate params.feeRate = true ∧
        params.utxos ≠ [] ∧ params.ddAmount ≤ MAX_DIGIDOLLAR := by
  simp [TxBuilder.validateMintParams, and_assoc]

private theorem validateMintAmount_of_valid {d h : ℤ} {params : CChainParams} (positive : 0 < d)
    (valid : isValidMintAmount d params.digidollarParams = true) :
    validateMintAmount d params h = true := by
  simp only [isValidMintAmount, Bool.and_eq_true, decide_eq_true_eq] at valid
  simp only [validateMintAmount, Bool.and_eq_true, decide_eq_true_eq]
  refine ⟨?_, valid.2⟩
  split_ifs
  · exact valid.1
  · omega

private theorem validateMintTransaction_eq_ok_iff {curve : TaprootCurve} {tx : CTransaction}
    {ctx : ValidationContext} {node : NodeState} {s : MintScan} {dust : Prop} [Decidable dust]
    (inputs : tx.vin ≠ []) (outputs : 2 ≤ tx.vout.length) (price : 0 < ctx.oraclePriceMicroUSD)
    (canonical : ctx.canonical = true) (reference : checkMintReference ctx = .ok ())
    (scanned : scanMintOutputs ctx node.registry tx.vout {} =
      if dust then .error (.invalid "collateral-dust") else .ok s)
    (checked : checkMintScan curve ctx node s = .ok ()) :
    validateMintTransaction curve tx ctx node = .ok () ↔
      checkEarlyAmounts node.registry ctx tx.vout = .ok () ∧ ¬ dust := by
  unfold validateMintTransaction
  rw [rejectIf_bind_of_not inputs]
  cases checkEarlyAmounts node.registry ctx tx.vout with
  | error e => simp [bind, Except.bind]
  | ok _ =>
    rw [ok_bind, rejectIf_bind_of_not (by omega), rejectIf_bind_of_not (by omega),
      rejectIf_bind_of_not (by simp [canonical]), rejectIf_bind_of_not (by simp [canonical]),
      if_pos canonical, reference, ok_bind, scanned]
    by_cases bad : dust
    · simp [bad, bind, Except.bind]
    · rw [if_neg bad, ok_bind, checked]
      simp [bad]

private theorem validateMintTransaction_built {curve : TaprootCurve} {b : TxBuilder}
    {params : TxBuilderMintParams} {result : TxBuilderResult} {ctx : ValidationContext}
    {node : NodeState} {g g' : ℤ} (laws : CurveLaws curve) (onCurve : params.ownerKey.OnCurve curve)
    (tiers : b.chainParams.digidollarParams.collateralRatios =
      ({} : ConsensusParams).collateralRatios)
    (active : isThawDayActive b.chainParams.consensus b.currentHeight = true)
    (known : b.candidateHealth = some g) (mint : BuiltMint curve b params result)
    (small : b.lockHeight params < 500000000) (window : MintWindow b g ctx node g') (hash : ℕ) :
    validateMintTransaction curve (result.tx.toTransaction hash) ctx node = .ok () ↔
      b.chainParams.digidollarParams.minOutputAmount ≤ params.ddAmount ∧
        ¬ result.collateralRequired < DUST_THRESHOLD := by
  obtain ⟨amount, limits, tier, valid_key, _, _, high⟩ := validateMintParams_iff.mp mint.valid
  obtain ⟨point, size⟩ := onCurve valid_key
  obtain ⟨tier_high, blocks_pos, blocks_eq⟩ := getLockTierIndex_eq_some tiers tier
  obtain ⟨change, isChange, vout⟩ := mint.outputs
  obtain ⟨ratio, r, ratio_eq, usable, finite, rounded, r_pos, money, margin⟩ :=
    required_of_pos active known (mint.collateral ▸ mint.positive)
  have canonical := window.canonical active
  have opened := window.opened
  have closes := window.closes
  have dearer := window.price
  have price := mint.price
  have height : 0 ≤ b.currentHeight := (isThawDayActive_iff.mp active).1
  have lock_eq : b.lockHeight params = b.currentHeight + lockDaysToBlocks params.lockDays + 100 :=
    rfl
  have locked : 0 < b.lockHeight params := by omega
  have minted : validateMintAmount params.ddAmount ctx.params ctx.nHeight = true :=
    validateMintAmount_of_valid amount (window.chain ▸ limits)
  have vault_p2tr : isCanonicalP2TROutput (TxBuilder.createCollateralScript curve b params) =
      true :=
    createCollateralP2TR_p2tr laws amount locked.le rfl
  have token_p2tr := createDigiDollarP2TR_p2tr laws amount point
  have outputs : (result.tx.toTransaction hash).vout = builtOutputs result.collateralRequired
      (TxBuilder.createCollateralScript curve b params)
      (createDigiDollarP2TR curve params.ownerKey.xOnlyPubKey params.ddAmount) params.ddAmount
      (b.lockHeight params) params.lockTier params.ownerKey.xOnlyPubKey change := vout
  have tier_blocks : lockDaysToBlocks (TIER_LOCK_DAYS.getD (params.lockTier : ℤ).toNat 0) =
      lockDaysToBlocks params.lockDays := blocks_eq
  have fits : FieldsFit ctx params.ddAmount (b.lockHeight params) params.lockTier
      params.ownerKey.xOnlyPubKey := by
    refine ⟨by omega, high, locked, small, by omega, by omega, ?_, ?_, size⟩
    · rw [tier_blocks]
      omega
    · rw [tier_blocks]
      unfold MINT_LOCK_CONFIRMATION_BUFFER_BLOCKS
      omega
  have early := @checkEarlyAmounts_built ctx node result.collateralRequired params.ddAmount
    (b.lockHeight params) params.lockTier (TxBuilder.createCollateralScript curve b params) _
    params.ownerKey.xOnlyPubKey change token_p2tr mint.positive fits minted isChange
  have scanned := @scanMintOutputs_built ctx node result.collateralRequired params.ddAmount
    (b.lockHeight params) params.lockTier _ _ params.ownerKey.xOnlyPubKey change vault_p2tr
      token_p2tr
    mint.positive fits isChange
  have checked : checkMintScan curve ctx node (builtScan result.collateralRequired
      (TxBuilder.createCollateralScript curve b params) params.ddAmount (b.lockHeight params)
      params.lockTier params.ownerKey.xOnlyPubKey) = .ok () := by
    refine checkMintScan_built window active fits point rfl vault_p2tr minted
      (by rw [tier_blocks]; exact blocks_pos) (by omega) ?_
    intro ctx' window'
    rw [tier_blocks, mint.collateral, margin]
    obtain ⟨positive, below⟩ :=
      calculateRequiredCollateral_window window' active amount price ratio_eq
      usable finite rounded money
    exact ⟨positive, by omega⟩
  rw [← window.chain, ← early, ← outputs]
  exact validateMintTransaction_eq_ok_iff mint.inputs (by rw [outputs]; simp [builtOutputs])
    (by omega) canonical window.reference (outputs ▸ scanned) checked

/-- A built mint spends what it locks, returns and pays. The rules accept it in its
window exactly if the amount reaches the minimum of an output and the vault is not dust. -/
theorem built_mint_balances_and_validates {curve : TaprootCurve} {b : TxBuilder}
    {params : TxBuilderMintParams} {result : TxBuilderResult} {value : COutPoint → ℤ} {g : ℤ}
    (laws : CurveLaws curve) (onCurve : params.ownerKey.OnCurve curve)
    (tiers : b.chainParams.digidollarParams.collateralRatios =
      ({} : ConsensusParams).collateralRatios)
    (true_values : ∀ utxo ∈ params.utxos, b.getUTXOValueVirtual utxo = value utxo)
    (active : isThawDayActive b.chainParams.consensus b.currentHeight = true)
    (known : b.candidateHealth = some g)
    (built : TxBuilder.buildMintTransaction curve b params = .ok result)
    (small : b.lockHeight params < 500000000) :
    (result.tx.vin.map fun input => value input.prevout).sum =
        result.collateralRequired + ((result.tx.vout.drop 3).map CTxOut.nValue).sum +
          result.totalFees ∧
      (result.tx.vout.map CTxOut.nValue).sum =
        result.collateralRequired + ((result.tx.vout.drop 3).map CTxOut.nValue).sum ∧
      ∀ (ctx : ValidationContext) (node : NodeState) (hash : ℕ) (g' : ℤ),
      MintWindow b g ctx node g' →
        (validateMintTransaction curve (result.tx.toTransaction hash) ctx node = .ok () ↔
          b.chainParams.digidollarParams.minOutputAmount ≤ params.ddAmount ∧
            540 * b.oraclePrice < params.ddAmount * COIN * applyDCAForHealth
              (getCollateralRatioForLockTime (lockDaysToBlocks params.lockDays)
                b.chainParams.digidollarParams) g * 100) := by
  have mint := TxBuilder.builtMint_of_ok built
  obtain ⟨change, isChange, vout⟩ := mint.outputs
  have values : result.tx.vin.map (fun input => value input.prevout) =
      result.tx.vin.map fun input => b.getUTXOValueVirtual input.prevout :=
    List.map_congr_left fun input member => (true_values _ (mint.spends input member)).symm
  refine ⟨by rw [values]; exact mint.balance, by rw [vout]; simp [TxBuilder.mintSkeleton], ?_⟩
  intro ctx node hash g' window
  obtain ⟨ratio, r, rfl, _, _, rounded, _, _, margin⟩ :=
    required_of_pos active known (mint.collateral ▸ mint.positive)
  rw [validateMintTransaction_built laws onCurve tiers active known mint small window hash,
    mint.collateral, margin, margin_dust_iff mint.price rounded]

namespace Sample

/-- The amount limits of regtest: mints from one cent on, outputs from one dollar on. -/
def regtest : CChainParams :=
  { consensus := params.consensus
    digidollarParams := { minMintAmount := 1, maxMintAmount := 100000 } }

def regtestCtx : ValidationContext := { mintCtx with params := regtest }

/-- A wallet whose coins hold 2000 DGB each, at the same tip. -/
def builder : TxBuilder :=
  { chainParams := regtest
    currentHeight := 10
    oraclePrice := 1000000
    candidateHealth := some 30000
    getUTXOValueVirtual := fun _ => 200000000000
    metrics := ⟨false, 0, 0, 0, 0⟩ }

/-- A mint that is locked for an hour. -/
def hourMint (ddAmount : ℤ) : TxBuilderMintParams :=
  { ddAmount := ddAmount
    lockDays := 0
    lockTier := 0
    ownerKey := ⟨true, List.replicate 32 9⟩
    feeRate := 10000000
    utxos := [⟨1, 0⟩]
    dgbChangeDest := some (.witnessV0KeyHash (List.replicate 20 3)) }

theorem regtestWindow : MintWindow builder 30000 regtestCtx node 30000 where
  chain := rfl
  opened := by decide
  closes := by decide
  price := by decide
  reference := by decide
  health := by decide
  healthy := by decide
  multiplier := le_rfl

theorem curve_laws : CurveLaws curve := ⟨rfl, fun _ _ _ => ⟨_, rfl, by decide⟩⟩

/-- A mint of 50 cents is built and then refused in its own window. -/
theorem half_dollar_mint_built_and_refused :
    ∃ result, TxBuilder.buildMintTransaction curve builder (hourMint 50) = .ok result ∧
      MintWindow builder 30000 regtestCtx node 30000 ∧
      builder.lockHeight (hourMint 50) < 500000000 ∧
      validateMintTransaction curve (result.tx.toTransaction 2) regtestCtx node =
        .error (.invalid "bad-dd-mint-amount") := by
  have refused : (TxBuilder.buildMintTransaction curve builder (hourMint 50)).toOption.map
      (fun result => validateMintTransaction curve (result.tx.toTransaction 2) regtestCtx node) =
        some (.error (.invalid "bad-dd-mint-amount")) := by decide +kernel
  obtain ⟨result, built, refused⟩ := Option.map_eq_some_iff.mp refused
  exact ⟨result, toOption_eq_some.mp built, regtestWindow, by decide, refused⟩

/-- A mint of 100 dollars is built and validates. -/
theorem hundred_dollar_mint_built_and_validates :
    ∃ result, TxBuilder.buildMintTransaction curve builder (hourMint 10000) = .ok result ∧
      200000000000 = result.collateralRequired +
        ((result.tx.vout.drop 3).map CTxOut.nValue).sum + result.totalFees ∧
      validateMintTransaction curve (result.tx.toTransaction 2) regtestCtx node = .ok () := by
  have succeeds : (TxBuilder.buildMintTransaction curve builder (hourMint 10000)).toOption.map
      (fun result => result.tx.vin.length) = some 1 := by decide +kernel
  obtain ⟨result, succeeded, one⟩ := Option.map_eq_some_iff.mp succeeds
  have built := toOption_eq_some.mp succeeded
  obtain ⟨balance, _, validates⟩ :=
    @built_mint_balances_and_validates curve builder (hourMint 10000) result
      (fun _ => 200000000000) 30000 curve_laws (fun _ => ⟨rfl, rfl⟩) rfl (fun _ _ => rfl)
      (by decide) rfl built (by decide)
  refine ⟨result, built, ?_, (validates regtestCtx node 2 30000 regtestWindow).mpr (by decide)⟩
  rw [← balance]
  simp [one]

end Sample

end DigiByte.DigiDollar
