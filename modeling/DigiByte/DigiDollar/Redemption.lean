import DigiByte.DigiDollar.Context

/-!
`ValidateRedemptionTransaction` of `digidollar/validation.cpp` with its
condition checks and the collateral release rule.
-/

set_option autoImplicit false
set_option relaxedAutoImplicit false

namespace DigiByte.DigiDollar

open Consensus Script
open Library.Checks (rejectIf)

/-- One input after the collateral: whether a token input was seen, and the sum. -/
def redeemInput (ctx : ValidationContext) (node : NodeState) (input : CTxIn) (acc : Bool × ℤ) :
    Except Failure (Bool × ℤ) :=
  match ctx.coins with
  | none => .ok (true, acc.2)
  | some view =>
    match view.getCoin input.prevout with
    | none => .ok acc
    | some coin =>
      if coin.out.nValue ≠ 0 then .ok acc
      else do
        rejectIf (coin.nHeight = MEMPOOL_HEIGHT)
          (.invalid "dd-input-amounts-unknown" "Cannot redeem unconfirmed DD inputs")
        rejectIf (coinHeightMayCreateDigiDollar coin ctx = false)
          (.invalid "dd-input-before-activation"
            "Cannot redeem pre-activation DD-looking data as DigiDollar")
        if ctx.canonical then do
          let ddAmount ← readCanonicalTokenAmount input.prevout coin ctx
          match addDDAmount acc.2 ddAmount with
          | none => .error (.invalid "bad-redeem-dd-input-amount")
          | some total => .ok (true, total)
        else
          let indexed := (extractDDAmountFromPrevTx node input.prevout).filter (0 < ·)
          let stored := (ctx.txLookup.bind fun lookup =>
            extractDDAmountFromBlockDb input.prevout coin.nHeight lookup).filter (0 < ·)
          match indexed.or stored with
          | none => .ok (true, acc.2)
          | some ddAmount =>
            match addDDAmount acc.2 ddAmount with
            | none => .error (.invalid "bad-redeem-dd-input-amount"
                "Redemption DD input amount exceeds per-output serialization bounds")
            | some total => .ok (true, total)

def redeemInputs (ctx : ValidationContext) (node : NodeState) :
    List CTxIn → Bool × ℤ → Except Failure (Bool × ℤ)
  | [], acc => .ok acc
  | input :: rest, acc => do
    let acc ← redeemInput ctx node input acc
    redeemInputs ctx node rest acc

/-! Metadata and change. -/

/-- Type and amount after the tag. -/
def readRedeemPayload (pc : Bytes) : Except Failure ℤ :=
  match getScriptOp pc with
  | (none, _) => .error (.invalid "bad-redeem-opreturn-type"
      "Redemption OP_RETURN missing transaction type")
  | (some (_, data), pc) => do
    rejectIf (data = []) (.invalid "bad-redeem-opreturn-type"
      "Redemption OP_RETURN missing transaction type")
    match scriptNum data true 4 with
    | none => .error (.invalid "bad-redeem-opreturn-type"
        "Malformed redemption OP_RETURN transaction type")
    | some opReturnTxType =>
      rejectIf (opReturnTxType ≠ DigiDollarTxType.redeem.toInt) (.invalid "bad-redeem-opreturn-type"
        "Redemption OP_RETURN type must match nVersion type")
      match getScriptOp pc with
      | (none, _) => .error (.invalid "bad-redeem-opreturn-amount"
          "Redemption OP_RETURN missing DD amount")
      | (some (_, data), _) =>
        rejectIf (data = []) (.invalid "bad-redeem-opreturn-amount"
          "Redemption OP_RETURN missing DD amount")
        match scriptNum data true 8 with
        | none => .error (.invalid "bad-redeem-opreturn-amount"
            "Malformed redemption OP_RETURN DD amount")
        | some ddAmount =>
          rejectIf (ddAmount ≤ 0 ∨ ddAmount > MAX_DIGIDOLLAR) (.invalid "bad-redeem-opreturn-amount"
            "Redemption OP_RETURN DD amount outside per-output serialization bounds")
          .ok ddAmount

/-- The local variables of the metadata loop. -/
structure RedeemMetadata where
  ddOpReturnCount : ℕ := 0
  ddAmountFromOpReturn : Option ℤ := none
  foundLegacyDDOpReturn : Bool := false

/-- One output of the metadata loop; only zero-value outputs are read. -/
def scanRedeemMetadata (output : CTxOut) (m : RedeemMetadata) : Except Failure RedeemMetadata :=
  if output.nValue ≠ 0 ∨ isOpReturn output.scriptPubKey = false then .ok m
  else match getScriptOp output.scriptPubKey with
    | (none, _) => .ok m
    | (some _, pc) =>
      match getScriptOp pc with
      | (none, _) => .ok m
      | (some (opcode, data), pc) =>
        if opcode = OP_DIGIDOLLAR then do
          rejectIf (m.ddOpReturnCount + 1 > 1) (.invalid "bad-redeem-multiple-dd-opreturn"
            "Redemption transaction has conflicting DD OP_RETURN metadata")
          .ok { m with
            ddOpReturnCount := m.ddOpReturnCount + 1
            foundLegacyDDOpReturn := true }
        else if data = DD_TAG then do
          rejectIf (m.ddOpReturnCount + 1 > 1) (.invalid "bad-redeem-multiple-dd-opreturn"
            "Redemption transaction has conflicting DD OP_RETURN metadata")
          let ddAmount ← readRedeemPayload pc
          .ok { m with
            ddOpReturnCount := m.ddOpReturnCount + 1
            ddAmountFromOpReturn := some ddAmount }
        else .ok m

def scanRedeemMetadatas : List CTxOut → RedeemMetadata → Except Failure RedeemMetadata
  | [], m => .ok m
  | output :: rest, m => do
    let m ← scanRedeemMetadata output m
    scanRedeemMetadatas rest m

/-- The local variables of the output loop. -/
structure RedeemOutputs where
  hasDGBOutput : Bool := false
  totalDDOutputs : ℤ := 0
  ddChangeOutputCount : ℕ := 0

/-- The change amount: from Thaw Day on as later spends will read it, before
that from the metadata, where a missing amount counts nothing. -/
def redeemChange (tx : CTransaction) (ctx : ValidationContext) (ddAmountFromOpReturn : Option ℤ)
    (outIdx : ℕ) (totalDDOutputs : ℤ) : Except Failure ℤ :=
  if ctx.canonical then
    match (extractDDAmountFromTxRef tx outIdx).bind (addDDAmount totalDDOutputs) with
    | none => .error (.invalid "bad-redeem-dd-output-amount"
        "Redemption DD change requires an unambiguous serialized amount")
    | some total => .ok total
  else match ddAmountFromOpReturn with
    | none => .ok totalDDOutputs
    | some ddAmount =>
      if 0 < ddAmount then
        match addDDAmount totalDDOutputs ddAmount with
        | none => .error (.invalid "bad-redeem-dd-output-amount"
            "Redemption DD output amount exceeds per-output serialization bounds")
        | some total => .ok total
      else .ok totalDDOutputs

def redeemOutputsFrom (tx : CTransaction) (ctx : ValidationContext)
    (ddAmountFromOpReturn : Option ℤ) :
    List CTxOut → ℕ → RedeemOutputs → Except Failure RedeemOutputs
  | [], _, o => .ok o
  | output :: rest, outIdx, o =>
    if 0 < output.nValue then
      redeemOutputsFrom tx ctx ddAmountFromOpReturn rest (outIdx + 1)
        { o with hasDGBOutput := true }
    else if isOpReturn output.scriptPubKey = true ∨
        isCanonicalP2TROutput output.scriptPubKey = false then
      redeemOutputsFrom tx ctx ddAmountFromOpReturn rest (outIdx + 1) o
    else do
      rejectIf (o.ddChangeOutputCount + 1 > 1) (.invalid "bad-redeem-multiple-dd-change-outputs"
        "Redemption transactions may have at most one DD change output")
      let total ← redeemChange tx ctx ddAmountFromOpReturn outIdx o.totalDDOutputs
      redeemOutputsFrom tx ctx ddAmountFromOpReturn rest (outIdx + 1)
        { o with totalDDOutputs := total, ddChangeOutputCount := o.ddChangeOutputCount + 1 }

/-! Lock time conditions of the two redemption paths. -/

def validateNormalRedemptionConditions (tx : CTransaction) (ctx : ValidationContext) :
    Except Failure Unit := do
  let height := ctx.nHeight
  let lockTime := tx.nLockTime
  let health := ctx.systemCollateral
  rejectIf (ctx.nHeight < toInt32 tx.nLockTime) (.invalid "redemption-timelock-active"
    s!"Timelock not expired (current height {height}, required {lockTime})")
  rejectIf (oracleChecksSkipped ctx = false ∧ ctx.systemCollateral < 100)
    (.invalid "redemption-err-active"
      s!"ERR active - system health {health}% (normal redemptions blocked)")

def validateEmergencyRedemptionConditions (tx : CTransaction) (ctx : ValidationContext) :
    Except Failure Unit := do
  let height := ctx.nHeight
  let lockTime := tx.nLockTime
  let health := ctx.systemCollateral
  rejectIf (tx.vin = []) (.invalid "err-no-inputs")
  rejectIf (0 < tx.nLockTime ∧ ctx.nHeight < toInt32 tx.nLockTime) (.invalid "err-timelock-active"
    s!"Timelock not expired (current height {height}, required {lockTime})")
  rejectIf (ctx.systemCollateral ≥ 100) (.invalid "err-not-required"
    s!"ERR not needed - system health {health}% (ERR requires < 100%)")

def validateRedemptionConditions (tx : CTransaction) (ctx : ValidationContext) :
    Except Failure Unit :=
  if ctx.systemCollateral < 100 then validateEmergencyRedemptionConditions tx ctx
  else validateNormalRedemptionConditions tx ctx

/-! The collateral release rule. -/

/-- Input 0 must be a vault, by the coin itself and by its creating mint. -/
def checkReleasedVault (ctx : ValidationContext) (node : NodeState) (prevout : COutPoint)
    (coin : Coin) : Except Failure Unit := do
  let activation := earliestActivationFloor ctx.params.consensus
  rejectIf (0 < activation ∧ coin.nHeight < toUint32 activation)
    (.invalid "bad-collateral-release-not-vault"
      "Redemption input 0 must spend the canonical DigiDollar collateral vault output")
  if ctx.canonical then
    match lookupCanonicalVault prevout coin ctx.params.consensus (contextTransactionLookup ctx) with
    | .notReady reason => .error (.error reason)
    | .notVault => .error (.invalid "bad-collateral-release-not-vault")
    | .vault _ => .ok ()
  else
    rejectIf (∃ prev_tx ∈ lookupPreviousTransaction prevout coin.nHeight ctx node,
        isMintCollateralOutput node.registry prev_tx prevout.n = false)
      (.invalid "bad-collateral-release-not-vault"
        "Redemption input 0 must spend the canonical DigiDollar collateral vault output")

/-- Principal and lock height of the creating mint. -/
def originalMintMetadata (ctx : ValidationContext) (node : NodeState) (prevout : COutPoint)
    (coinHeight : ℕ) : ℤ × Option ℤ :=
  let indexed :=
    match (if ctx.canonical then none else node.txindex.bind fun find => find prevout.hash) with
    | some prev_tx => extractMintMetadataFromTx prev_tx 0
    | none => (0, none)
  if indexed.2.isSome then indexed
  else match ctx.txLookup.bind fun lookup => lookup prevout.hash coinHeight with
    | some prev_tx => extractMintMetadataFromTx prev_tx indexed.1
    | none => indexed

/-- The original amount and lock height, checked against the lock time. -/
def checkOriginalMint (tx : CTransaction) (metadata : ℤ × Option ℤ) : Except Failure ℤ :=
  match metadata with
  | (_, none) => .error (.invalid "bad-collateral-release-unknown-dd-amount"
      "Cannot verify proportional collateral release: original DD amount undetermined")
  | (originalDDMinted, some originalLockHeight) => do
    rejectIf (originalDDMinted ≤ 0) (.invalid "bad-collateral-release-unknown-dd-amount"
      "Cannot verify proportional collateral release: original DD amount undetermined")
    rejectIf (originalLockHeight < 0 ∨ originalLockHeight > 0xffffffff)
      (.invalid "bad-collateral-release-unknown-lock-height"
        "Cannot verify collateral timelock: original lock height undetermined")
    let lockTime := tx.nLockTime
    rejectIf (tx.nLockTime.toNat < toUint32 originalLockHeight)
      (.invalid "redemption-timelock-active"
      s!"Timelock not expired (tx locktime {lockTime}, required {originalLockHeight})")
    .ok originalDDMinted

def checkRequiredBurn (health originalDDMinted ddBurned : ℤ) : Except Failure Unit := do
  let requiredDDBurn :=
    if health < 100 then getRequiredDDBurn originalDDMinted health else originalDDMinted
  rejectIf (requiredDDBurn ≤ 0) (.invalid "bad-collateral-release-invalid-required-burn")
  rejectIf (ddBurned < requiredDDBurn) (.invalid "bad-collateral-release-partial-burn"
    s!"Must burn required DD for this collateral: burned {ddBurned} < required {requiredDDBurn}")

/-- Whether a positive input after input 0 is another vault. -/
def isCollateralFeeInput (ctx : ValidationContext) (node : NodeState) (prevout : COutPoint)
    (coin : Coin) : Except Failure Bool :=
  if ctx.canonical then
    match lookupCanonicalVault prevout coin ctx.params.consensus (contextTransactionLookup ctx) with
    | .notReady reason => .error (.error reason)
    | .notVault => .ok false
    | .vault _ => .ok true
  else
    let activation := earliestActivationFloor ctx.params.consensus
    if activation ≤ 0 ∨ toUint32 activation ≤ coin.nHeight then
      .ok ((lookupPreviousTransaction prevout coin.nHeight ctx node).any fun prev_tx =>
        isMintCollateralOutput node.registry prev_tx prevout.n)
    else .ok false

/-- The fee input loop from input `i` on. -/
def feeInputsFrom (ctx : ValidationContext) (node : NodeState) (view : CoinsView) :
    List CTxIn → ℕ → ℤ → Except Failure ℤ
  | [], _, totalFeeInputs => .ok totalFeeInputs
  | input :: rest, i, totalFeeInputs =>
    match view.getCoin input.prevout with
    | none => feeInputsFrom ctx node view rest (i + 1) totalFeeInputs
    | some coin =>
      if 0 < coin.out.nValue then do
        let isCollateral ← isCollateralFeeInput ctx node input.prevout coin
        rejectIf (isCollateral = true) (.invalid "bad-redeem-collateral-as-fee-input"
          s!"Input {i} is collateral from another DD mint — must redeem separately")
        feeInputsFrom ctx node view rest (i + 1) (totalFeeInputs + coin.out.nValue)
      else feeInputsFrom ctx node view rest (i + 1) totalFeeInputs

/-- Sum of the positive output values. -/
def totalDGBOutputs (vout : List CTxOut) : ℤ :=
  ((vout.map CTxOut.nValue).filter (0 < ·)).sum

def checkReleasedValue (lockedCollateral totalFeeInputs outputs : ℤ) : Except Failure Unit := do
  rejectIf (outputs > lockedCollateral + totalFeeInputs)
    (.invalid "bad-collateral-release-excessive"
      (s!"DGB outputs {outputs} exceed allowed collateral {lockedCollateral} " ++
        s!"plus regular fee inputs {totalFeeInputs}"))
  rejectIf (outputs < lockedCollateral) (.invalid "bad-collateral-release-incomplete"
    s!"DGB outputs {outputs} below required full collateral {lockedCollateral}")

/-- The part of the release rule that has a coins view and an input 0. -/
def checkRelease (tx : CTransaction) (ctx : ValidationContext) (node : NodeState)
    (view : CoinsView) (health ddBurned : ℤ) (input : CTxIn) (rest : List CTxIn) :
    Except Failure Unit :=
  match view.getCoin input.prevout with
  | none => .error (.invalid "bad-collateral-release-utxo-not-found")
  | some collateralCoin => do
    let lockedCollateral := collateralCoin.out.nValue
    rejectIf (lockedCollateral ≤ 0) (.invalid "bad-collateral-release-zero-collateral")
    checkReleasedVault ctx node input.prevout collateralCoin
    let originalDDMinted ← checkOriginalMint tx
      (originalMintMetadata ctx node input.prevout collateralCoin.nHeight)
    checkRequiredBurn health originalDDMinted ddBurned
    let totalFeeInputs ← feeInputsFrom ctx node view rest 1 0
    checkReleasedValue lockedCollateral totalFeeInputs (totalDGBOutputs tx.vout)

def validateCollateralReleaseAmount (tx : CTransaction) (ctx : ValidationContext)
    (node : NodeState) (ddBurned : ℤ) : Except Failure Unit :=
  let notReady : Failure := .error "DigiDollar state not ready: canonical health unavailable"
  match (if ctx.canonical then resolveCanonicalHealth ctx node else some ctx.systemCollateral) with
  | none => .error notReady
  | some health =>
    match ctx.coins with
    | none =>
      if ctx.canonical then
        .error (.error "DigiDollar state not ready: collateral UTXO view unavailable")
      else .ok ()
    | some view =>
      match tx.vin with
      | [] => .error (.invalid "bad-collateral-release-no-inputs")
      | input :: rest => checkRelease tx ctx node view health ddBurned input rest

/-! The validator. -/

def redemptionHealth (ctx : ValidationContext) (node : NodeState) : Except Failure ℤ :=
  match resolveCanonicalHealth ctx node with
  | some health => .ok health
  | none =>
    if ctx.canonical then .error (.error "DigiDollar state not ready: canonical health unavailable")
    else .error (.invalid "bad-system-health"
      "Missing deterministic system health for redemption validation")

/-- From the resolved token totals on. -/
def checkRedemption (tx : CTransaction) (ctx : ValidationContext) (node : NodeState)
    (totalDDInputs totalDDOutputs : ℤ) : Except Failure Unit := do
  let txType := getDigiDollarTxType tx
  rejectIf (ctx.coins.isSome = true ∧ 0 < totalDDInputs ∧ txType = .redeem ∧
    totalDDInputs ≤ totalDDOutputs) (.invalid "bad-redeem-dd-not-burned")
  rejectIf (txType ≠ .redeem) (.invalid "bad-redeem-invalid-type"
    "Only DD_TX_REDEEM type is valid for redemption")
  let health ← redemptionHealth ctx node
  let redemptionCtx := { ctx with systemCollateral := health }
  validateRedemptionConditions tx redemptionCtx
  let ddBurned := if totalDDInputs > totalDDOutputs then totalDDInputs - totalDDOutputs else 0
  validateCollateralReleaseAmount tx redemptionCtx node ddBurned

/-- The source marks input 0 as the collateral input unread, and its script path
check accepts everything. -/
def validateRedemptionTransaction (tx : CTransaction) (ctx : ValidationContext)
    (node : NodeState) : Except Failure Unit := do
  rejectIf (tx.vin = []) (.invalid "bad-redeem-no-inputs")
  rejectIf (ctx.canonical = false ∧ ctx.skipOracleValidation = false ∧
    node.volatility.allOperationsFrozen = true) (.invalid "all-operations-frozen")
  rejectIf (tx.vout = []) (.invalid "bad-redeem-no-outputs")
  rejectIf (tx.vin.length < 2) (.invalid "bad-redeem-insufficient-inputs")
  let inputs ← redeemInputs ctx node tx.vin.tail (false, 0)
  rejectIf (inputs.1 = false) (.invalid "bad-redeem-no-dd-inputs")
  let metadata ← scanRedeemMetadatas tx.vout {}
  rejectIf (metadata.foundLegacyDDOpReturn = true) (.invalid "bad-redeem-legacy-dd-opreturn"
    "Legacy OP_DIGIDOLLAR OP_RETURN is not valid redemption metadata")
  let outputs ← redeemOutputsFrom tx ctx metadata.ddAmountFromOpReturn tx.vout 0 {}
  rejectIf (outputs.hasDGBOutput = false) (.invalid "bad-redeem-no-dgb-output")
  checkRedemption tx ctx node inputs.2 outputs.totalDDOutputs

end DigiByte.DigiDollar
