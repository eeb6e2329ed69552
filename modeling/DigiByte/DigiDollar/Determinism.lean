import DigiByte.DigiDollar.RedemptionLaw

/-!
From Thaw Day on the verdict is a function of consensus data.

Two nodes that agree on the candidate block's context, the coins view and the
answers of their lookups give the same verdict, whatever their sync flag, their
cached totals, their monitors, their transaction index and their script
registry. Every function that a validator calls is shown to agree on two such
contexts; the legacy branches drop out because both contexts are canonical.
-/

set_option autoImplicit false
set_option relaxedAutoImplicit false

namespace DigiByte.DigiDollar

open Consensus Script
open Library.Checks (rejectIf)

/-- Agreement on everything the block and its chain determine. The sync flag and
the caller's health figure are free; a lookup counts by its answers. -/
structure SameConsensusInputs (ctx ctx' : ValidationContext) : Prop where
  nHeight : ctx.nHeight = ctx'.nHeight
  params : ctx.params = ctx'.params
  oraclePriceMicroUSD : ctx.oraclePriceMicroUSD = ctx'.oraclePriceMicroUSD
  candidateParent : ctx.candidateParent = ctx'.candidateParent
  mintReference : ctx.mintReference = ctx'.mintReference
  coins : ctx.coins = ctx'.coins
  mempool : ctx.mempool = ctx'.mempool
  txLookup : ∀ hash height, (ctx.txLookup.bind fun lookup => lookup hash height) =
    ctx'.txLookup.bind fun lookup => lookup hash height

theorem extractDDAmount_registry (registry registry' : ScriptRegistry) (script : Bytes) :
    extractDDAmount registry script false = extractDDAmount registry' script false := rfl

section

variable {ctx ctx' : ValidationContext} (same : SameConsensusInputs ctx ctx')
variable (node node' : NodeState)

include same

theorem SameConsensusInputs.withHealth (health : ℤ) :
    SameConsensusInputs { ctx with systemCollateral := health }
      { ctx' with systemCollateral := health } := by
  exact ⟨same.nHeight, same.params, same.oraclePriceMicroUSD, same.candidateParent,
    same.mintReference, same.coins, same.mempool, same.txLookup⟩

private theorem canonical_eq : ctx.canonical = ctx'.canonical := by
  simp only [ValidationContext.canonical, same.params, same.nHeight]

private theorem getCoin_eq : ctx.getCoin = ctx'.getCoin := by
  funext outpoint
  simp only [ValidationContext.getCoin, same.coins]

private theorem contextTransactionLookup_eq :
    contextTransactionLookup ctx = contextTransactionLookup ctx' := by
  funext hash height
  simp only [contextTransactionLookup, same.mempool, same.txLookup]

private theorem contextHealthState_eq : contextHealthState ctx = contextHealthState ctx' := by
  simp only [contextHealthState, same.coins, same.candidateParent, same.params]

private theorem checkVaultInputs_eq (view : CoinsView) (inputs : List CTxIn) (spends : Bool) :
    checkVaultInputs ctx view inputs spends = checkVaultInputs ctx' view inputs spends := by
  induction inputs generalizing spends with
  | nil => rfl
  | cons input rest ih =>
    simp only [checkVaultInputs, same.params, contextTransactionLookup_eq same, ih]

private theorem checkCanonicalVaultInputs_eq (tx : CTransaction) :
    checkCanonicalVaultInputs tx ctx = checkCanonicalVaultInputs tx ctx' := by
  simp only [checkCanonicalVaultInputs, same.coins, checkVaultInputs_eq same]

private theorem coinHeightMayCreateDigiDollar_eq (coin : Coin) :
    coinHeightMayCreateDigiDollar coin ctx = coinHeightMayCreateDigiDollar coin ctx' := by
  simp only [coinHeightMayCreateDigiDollar, canonical_eq same, same.params]

private theorem readCanonicalTokenAmount_eq (outpoint : COutPoint) (coin : Coin) :
    readCanonicalTokenAmount outpoint coin ctx = readCanonicalTokenAmount outpoint coin ctx' := by
  simp only [readCanonicalTokenAmount, coinHeightMayCreateDigiDollar_eq same,
    contextTransactionLookup_eq same]

private theorem checkTokenInputs_eq (view : CoinsView) (inputs : List CTxIn) :
    checkTokenInputs ctx view inputs = checkTokenInputs ctx' view inputs := by
  induction inputs with
  | nil => rfl
  | cons input rest ih =>
    simp only [checkTokenInputs, readCanonicalTokenAmount_eq same, ih]

private theorem checkCanonicalInputs_eq (tx : CTransaction) :
    checkCanonicalInputs tx ctx = checkCanonicalInputs tx ctx' := by
  simp only [checkCanonicalInputs, contextHealthState_eq same, checkCanonicalVaultInputs_eq same,
    same.coins, checkTokenInputs_eq same]

private theorem checkMintReference_eq : checkMintReference ctx = checkMintReference ctx' := by
  simp only [checkMintReference, same.candidateParent, same.nHeight, same.mintReference,
    same.params, same.oraclePriceMicroUSD]

private theorem checkEarlyAmounts_eq (vout : List CTxOut) :
    checkEarlyAmounts node.registry ctx vout = checkEarlyAmounts node'.registry ctx' vout := by
  induction vout with
  | nil => rfl
  | cons output rest ih =>
    simp only [checkEarlyAmounts, extractDDAmount_registry node.registry node'.registry,
      same.params, same.nHeight, ih]

private theorem scanMintPayload_eq (pc : Bytes) (s : MintScan) :
    scanMintPayload ctx pc s = scanMintPayload ctx' pc s := by
  simp only [scanMintPayload, readMintTier, same.nHeight]

private theorem scanMintOutputs_eq (vout : List CTxOut) (s : MintScan) :
    scanMintOutputs ctx node.registry vout s = scanMintOutputs ctx' node'.registry vout s := by
  induction vout generalizing s with
  | nil => rfl
  | cons output rest ih =>
    simp only [scanMintOutputs, scanMintOutput, scanToken, scanMintPayload_eq same,
      extractDDAmount_registry node.registry node'.registry, ih]

private theorem mintLockPeriod_eq (s : MintScan) :
    mintLockPeriod ctx s = mintLockPeriod ctx' s := by
  simp only [mintLockPeriod, same.nHeight, same.params]

private theorem redeemOutputsFrom_eq (tx : CTransaction) (found : Option ℤ) (vout : List CTxOut)
    (outIdx : ℕ) (o : RedeemOutputs) :
    redeemOutputsFrom tx ctx found vout outIdx o =
      redeemOutputsFrom tx ctx' found vout outIdx o := by
  induction vout generalizing outIdx o with
  | nil => rfl
  | cons output rest ih =>
    simp only [redeemOutputsFrom, redeemChange, canonical_eq same, ih]

variable (active : ctx.canonical = true)

include active

private theorem active_eq : ctx'.canonical = true := by
  rw [← canonical_eq same, active]

private theorem oracleChecksSkipped_eq : oracleChecksSkipped ctx = oracleChecksSkipped ctx' := by
  simp [oracleChecksSkipped, active, active_eq same active]

private theorem resolveCanonicalHealth_eq :
    resolveCanonicalHealth ctx node = resolveCanonicalHealth ctx' node' := by
  simp only [resolveCanonicalHealth, active, active_eq same active, if_true,
    contextHealthState_eq same, same.oraclePriceMicroUSD]

private theorem spendsDigiDollarCollateralVault_eq (tx : CTransaction) :
    spendsDigiDollarCollateralVault tx ctx node =
      spendsDigiDollarCollateralVault tx ctx' node' := by
  simp only [spendsDigiDollarCollateralVault, active, active_eq same active, if_true,
    checkCanonicalVaultInputs_eq same]

private theorem calculateRequiredCollateral_eq (ddAmount lockTime : ℤ) :
    calculateRequiredCollateral ddAmount lockTime ctx node =
      calculateRequiredCollateral ddAmount lockTime ctx' node' := by
  simp only [calculateRequiredCollateral, same.oraclePriceMicroUSD, same.params,
    resolveCanonicalHealth_eq same node node' active, canonical_eq same]

private theorem validateCollateralRatio_eq (dgbLocked ddMinted lockTime : ℤ) :
    validateCollateralRatio dgbLocked ddMinted lockTime ctx node =
      validateCollateralRatio dgbLocked ddMinted lockTime ctx' node' := by
  simp only [validateCollateralRatio, same.oraclePriceMicroUSD,
    calculateRequiredCollateral_eq same node node' active]

private theorem checkMintCollateral_eq (totalDD : ℤ) (s : MintScan) :
    checkMintCollateral ctx node totalDD s = checkMintCollateral ctx' node' totalDD s := by
  have required := fun health => calculateRequiredCollateral_eq (same.withHealth health) node node'
    active totalDD
  have ratio := fun health => validateCollateralRatio_eq (same.withHealth health) node node'
    active s.totalCollateral totalDD
  simp only [checkMintCollateral, mintHealth, resolveCanonicalHealth_eq same node node' active,
    canonical_eq same, mintLockPeriod_eq same, required, ratio]

private theorem checkMintScan_eq (curve : TaprootCurve) (s : MintScan) :
    checkMintScan curve ctx node s = checkMintScan curve ctx' node' s := by
  simp only [checkMintScan, mintTotalDD, oracleChecksSkipped_eq same active,
    same.oraclePriceMicroUSD, same.params, same.nHeight,
    checkMintCollateral_eq same node node' active]

private theorem validateMintTransaction_eq (curve : TaprootCurve) (tx : CTransaction) :
    validateMintTransaction curve tx ctx node = validateMintTransaction curve tx ctx' node' := by
  simp only [validateMintTransaction, checkEarlyAmounts_eq same node node', active,
    active_eq same active, same.oraclePriceMicroUSD, checkMintReference_eq same,
    scanMintOutputs_eq same node node', checkMintScan_eq same node node' active,
    Bool.true_eq_false, false_and]

private theorem checkMintAllowed_eq : checkMintAllowed ctx node = checkMintAllowed ctx' node' := by
  simp only [checkMintAllowed, shouldBlockMintingDuringERR, active, active_eq same active,
    same.oraclePriceMicroUSD, resolveCanonicalHealth_eq same node node' active, if_true,
    Bool.true_eq_false, false_and]

private theorem transferInputsFrom_eq (vin : List CTxIn) (total : ℤ × ℕ) :
    transferInputsFrom ctx node vin total = transferInputsFrom ctx' node' vin total := by
  induction vin generalizing total with
  | nil => rfl
  | cons txin rest ih =>
    simp only [transferInputsFrom, canonicalTransferInput, active, active_eq same active, if_true,
      getCoin_eq same, readCanonicalTokenAmount_eq same, ih]

private theorem validateTransferTransaction_eq (tx : CTransaction) :
    validateTransferTransaction tx ctx node = validateTransferTransaction tx ctx' node' := by
  simp only [validateTransferTransaction, checkTransferInputs, active, active_eq same active,
    same.params, transferInputsFrom_eq same node node' active, Bool.true_eq_false, false_and]

private theorem redeemInputs_eq (vin : List CTxIn) (acc : Bool × ℤ) :
    redeemInputs ctx node vin acc = redeemInputs ctx' node' vin acc := by
  induction vin generalizing acc with
  | nil => rfl
  | cons input rest ih =>
    simp only [redeemInputs, redeemInput, same.coins, active, active_eq same active, if_true,
      coinHeightMayCreateDigiDollar_eq same, readCanonicalTokenAmount_eq same, ih]

private theorem validateRedemptionConditions_eq (tx : CTransaction)
    (health : ctx.systemCollateral = ctx'.systemCollateral) :
    validateRedemptionConditions tx ctx = validateRedemptionConditions tx ctx' := by
  simp only [validateRedemptionConditions, validateEmergencyRedemptionConditions,
    validateNormalRedemptionConditions, health, same.nHeight, oracleChecksSkipped_eq same active]

private theorem feeInputsFrom_eq (view : CoinsView) (vin : List CTxIn) (i : ℕ) (total : ℤ) :
    feeInputsFrom ctx node view vin i total = feeInputsFrom ctx' node' view vin i total := by
  induction vin generalizing i total with
  | nil => rfl
  | cons input rest ih =>
    simp only [feeInputsFrom, isCollateralFeeInput, active, active_eq same active, if_true,
      same.params, contextTransactionLookup_eq same, ih]

private theorem checkReleasedVault_eq (prevout : COutPoint) (coin : Coin) :
    checkReleasedVault ctx node prevout coin = checkReleasedVault ctx' node' prevout coin := by
  simp only [checkReleasedVault, same.params, active, active_eq same active, if_true,
    contextTransactionLookup_eq same]

private theorem originalMintMetadata_eq (prevout : COutPoint) (coinHeight : ℕ) :
    originalMintMetadata ctx node prevout coinHeight =
      originalMintMetadata ctx' node' prevout coinHeight := by
  simp only [originalMintMetadata, active, active_eq same active, if_true, same.txLookup]

private theorem validateCollateralReleaseAmount_eq (tx : CTransaction) (ddBurned : ℤ) :
    validateCollateralReleaseAmount tx ctx node ddBurned =
      validateCollateralReleaseAmount tx ctx' node' ddBurned := by
  simp only [validateCollateralReleaseAmount, checkRelease, active, active_eq same active, if_true,
    same.coins, resolveCanonicalHealth_eq same node node' active,
    checkReleasedVault_eq same node node' active, originalMintMetadata_eq same node node' active,
    feeInputsFrom_eq same node node' active]

private theorem checkRedemption_eq (tx : CTransaction) (totalDDInputs totalDDOutputs : ℤ) :
    checkRedemption tx ctx node totalDDInputs totalDDOutputs =
      checkRedemption tx ctx' node' totalDDInputs totalDDOutputs := by
  have conditions := fun health =>
    validateRedemptionConditions_eq (same.withHealth health) active tx rfl
  have release := fun health =>
    validateCollateralReleaseAmount_eq (same.withHealth health) node node' active tx
  simp only [checkRedemption, redemptionHealth, canonical_eq same,
    resolveCanonicalHealth_eq same node node' active, conditions, release]
  simp only [same.coins]

private theorem validateRedemptionTransaction_eq (tx : CTransaction) :
    validateRedemptionTransaction tx ctx node = validateRedemptionTransaction tx ctx' node' := by
  simp only [validateRedemptionTransaction, active, active_eq same active,
    redeemInputs_eq same node node' active, redeemOutputsFrom_eq same,
    checkRedemption_eq same node node' active, Bool.true_eq_false, false_and]

end

/-- No node-local state decides validity from Thaw Day on. -/
theorem validateDigiDollarTransaction_nodeLocal_irrelevant (curve : TaprootCurve)
    (tx : CTransaction) (ctx ctx' : ValidationContext) (node node' : NodeState)
    (same : SameConsensusInputs ctx ctx')
    (active : isThawDayActive ctx.params.consensus ctx.nHeight = true) :
    validateDigiDollarTransaction curve tx ctx node =
      validateDigiDollarTransaction curve tx ctx' node' := by
  have canonical : ctx.canonical = true := active
  simp only [validateDigiDollarTransaction, validateMarked, canonical, active_eq same canonical,
    if_true, checkCanonicalInputs_eq same,
    spendsDigiDollarCollateralVault_eq same node node' canonical,
    checkMintAllowed_eq same node node' canonical,
    validateMintTransaction_eq same node node' canonical,
    validateTransferTransaction_eq same node node' canonical,
    validateRedemptionTransaction_eq same node node' canonical]

namespace Sample

/-- The view of a node in initial download, which was handed another health figure. -/
def downloading (ctx : ValidationContext) : ValidationContext :=
  { ctx with skipOracleValidation := true, systemCollateral := 7 }

/-- A node with a transaction index, whose monitors have frozen everything. -/
def frozenNode : NodeState :=
  { txindex := some fun _ => some mint
    metrics := ⟨7, 7⟩
    volatility := ⟨[1], true, true⟩
    errActive := true
    latestPrice := 1
    registry := fun _ => some ⟨.collateralLock, 1, 1⟩ }

/-- The frozen node accepts the sample mint at the Thaw Day height and the redemption of its
vault later, since a synced node without an index does. -/
theorem frozen_node_accepts :
    validateDigiDollarTransaction curve mint (downloading mintCtx) frozenNode = .ok () ∧
      validateDigiDollarTransaction curve (redeem 250) (downloading (redeemCtx 250)) frozenNode =
        .ok () := by
  have same : ∀ ctx, SameConsensusInputs ctx (downloading ctx) := by
    intro ctx
    exact ⟨rfl, rfl, rfl, rfl, rfl, rfl, rfl, fun _ _ => rfl⟩
  have minted := validateDigiDollarTransaction_nodeLocal_irrelevant curve mint mintCtx
    (downloading mintCtx) node frozenNode (same mintCtx) (by decide)
  have redeemed := validateDigiDollarTransaction_nodeLocal_irrelevant curve (redeem 250)
    (redeemCtx 250) (downloading (redeemCtx 250)) node frozenNode (same _) (by decide)
  exact ⟨minted.symm.trans (by decide +kernel), redeemed.symm.trans (by decide +kernel)⟩

end Sample

end DigiByte.DigiDollar
