import DigiByte.DigiDollar.Vault

/-!
The validation context and the static helpers of `digidollar/validation.cpp`
that read it.

Everything that belongs to the node and not to the chain sits in `NodeState`:
the transaction index, the cached system metrics, the volatility monitor, the
ERR flag, the latest oracle price and the wallet's script registry.
-/

set_option autoImplicit false
set_option relaxedAutoImplicit false

namespace DigiByte.DigiDollar

open Consensus Script
open Library.Checks (rejectIf)

/-- The parts of a `CBlockIndex` that the validators read. -/
structure BlockRef where
  hash : ℕ
  nHeight : ℤ
  deriving DecidableEq, Repr

/-- The content of a coins view: unspent coins and the DigiDollar record. -/
structure CoinsView where
  getCoin : COutPoint → Option Coin
  digiDollarState : Option ChainstateHealth

structure ValidationContext where
  nHeight : ℤ
  oraclePriceMicroUSD : ℤ
  systemCollateral : ℤ
  params : CChainParams
  coins : Option CoinsView
  skipOracleValidation : Bool
  txLookup : Option CanonicalTxLookup
  mempool : Option (ℕ → Option CTransaction)
  candidateParent : Option BlockRef
  mintReference : MintReference

/-- Totals cached by the system health monitor. -/
structure SystemMetrics where
  totalDDSupply : ℤ
  totalCollateral : ℤ

/-- The parts of the volatility monitor that decide a freeze: the recorded
prices, newest last, and the two flags of its current state. -/
structure VolatilityMonitor where
  priceHistory : List ℤ
  mintingFrozen : Bool
  allOperationsFrozen : Bool

structure NodeState where
  txindex : Option (ℕ → Option CTransaction)
  metrics : SystemMetrics
  volatility : VolatilityMonitor
  errActive : Bool
  latestPrice : ℤ
  registry : ScriptRegistry

/-! Legacy decisions that read node state. -/

/-- `__int128` division truncates toward zero. -/
def calculatePercentageChangeBps (oldPrice newPrice : ℤ) : ℤ :=
  if oldPrice ≤ 0 then 0 else saturatingInt64 (((newPrice - oldPrice) * 10000).tdiv oldPrice)

def absBps (value : ℤ) : ℤ := if value = -INT64_MAX - 1 then INT64_MAX else |value|

def wouldCandidateFreezeMinting (monitor : VolatilityMonitor) (price : ℤ) : Bool :=
  match monitor.priceHistory.getLast? with
  | none => false
  | some last =>
    if price < 100 ∨ price > 100000000 then false
    else 2000 ≤ absBps (calculatePercentageChangeBps last price)

/-- `EmergencyRedemptionRatio::ShouldBlockMinting`. -/
def shouldBlockMinting (node : NodeState) (oraclePriceOverride : ℤ) : Bool :=
  if node.errActive then true
  else if node.metrics.totalDDSupply ≤ 0 then false
  else
    let price := if oraclePriceOverride ≤ 0 then node.latestPrice else oraclePriceOverride
    if price ≤ 0 then true
    else shouldActivateERR
      (calculateSystemHealth node.metrics.totalCollateral node.metrics.totalDDSupply (price / 10))

namespace ValidationContext

/-- The Thaw Day rules apply to the candidate block. -/
def canonical (ctx : ValidationContext) : Bool := isThawDayActive ctx.params.consensus ctx.nHeight

def getCoin (ctx : ValidationContext) (outpoint : COutPoint) : Option Coin :=
  ctx.coins.bind fun view => view.getCoin outpoint

end ValidationContext

def coinHeightMayCreateDigiDollar (coin : Coin) (ctx : ValidationContext) : Bool :=
  if coin.nHeight = MEMPOOL_HEIGHT then false
  else
    let activation_height :=
      if ctx.canonical then ctx.params.consensus.DigiDollarHeight
      else earliestActivationFloor ctx.params.consensus
    activation_height ≤ 0 || toUint32 activation_height ≤ coin.nHeight

def contextHealthState (ctx : ValidationContext) : Option ChainstateHealth :=
  match ctx.coins, ctx.candidateParent with
  | some view, some parent =>
    match view.digiDollarState with
    | none => none
    | some state =>
      let params := ctx.params.consensus
      if state.isMatch params.hashGenesisBlock parent.hash params.nDDThawDayHeight
          params.DigiDollarHeight = false ∨
          (isThawDayActive params parent.nHeight ∧ state.history_checked = false) then none
      else some state
  | _, _ => none

def contextTransactionLookup (ctx : ValidationContext) : CanonicalTxLookup := fun hash height =>
  match ctx.mempool with
  | some mempool =>
    if height = MEMPOOL_HEIGHT then mempool hash else ctx.txLookup.bind fun lookup =>
      lookup hash height
  | none => ctx.txLookup.bind fun lookup => lookup hash height

/-- The input loop of `CheckCanonicalVaultInputs`: whether some input spends a
vault, or the readiness error. Inputs missing from the view are passed over. -/
def checkVaultInputs (ctx : ValidationContext) (view : CoinsView) :
    List CTxIn → Bool → Except String Bool
  | [], spends_vault => .ok spends_vault
  | input :: rest, spends_vault =>
    match view.getCoin input.prevout with
    | none => checkVaultInputs ctx view rest spends_vault
    | some coin =>
      match lookupCanonicalVault input.prevout coin ctx.params.consensus
          (contextTransactionLookup ctx) with
      | .notReady error => .error error
      | .vault _ => checkVaultInputs ctx view rest true
      | .notVault => checkVaultInputs ctx view rest spends_vault

def checkCanonicalVaultInputs (tx : CTransaction) (ctx : ValidationContext) : Except String Bool :=
  match ctx.coins with
  | none => .error "DigiDollar state not ready: UTXO view unavailable"
  | some view => checkVaultInputs ctx view tx.vin false

/-- `ExtractDDAmountFromBlockDb` with a lookup that is present. -/
def extractDDAmountFromBlockDb (prevout : COutPoint) (coinHeight : ℕ) (lookup : CanonicalTxLookup) :
    Option ℤ :=
  (lookup prevout.hash coinHeight).bind fun prev_tx => extractDDAmountFromTxRef prev_tx prevout.n

/-- `ExtractDDAmountFromPrevTx`: the transaction index, when the node has one. -/
def extractDDAmountFromPrevTx (node : NodeState) (prevout : COutPoint) : Option ℤ :=
  (node.txindex.bind fun find => find prevout.hash).bind fun prev_tx =>
    extractDDAmountFromTxRef prev_tx prevout.n

def readCanonicalTokenAmount (outpoint : COutPoint) (coin : Coin) (ctx : ValidationContext) :
    Except Failure ℤ := do
  rejectIf (coin.nHeight = MEMPOOL_HEIGHT)
    (.invalid "dd-input-amounts-unknown" "Cannot spend unconfirmed DD inputs")
  rejectIf (coinHeightMayCreateDigiDollar coin ctx = false ∨ coin.fCoinBase)
    (.invalid "dd-input-before-activation")
  match creatingTransaction (contextTransactionLookup ctx) outpoint coin with
  | none => .error (.error "DigiDollar state not ready: restore token creating transaction")
  | some _ =>
    match extractDDAmountFromBlockDb outpoint coin.nHeight (contextTransactionLookup ctx) with
    | none => .error (.invalid "dd-input-amounts-unknown")
    | some amount => .ok amount

def oracleChecksSkipped (ctx : ValidationContext) : Bool :=
  ctx.skipOracleValidation && !ctx.canonical

/-- The health that mint and redemption rules use. Below the Thaw Day height it
comes from node state, from there on from the coins view alone. -/
def resolveCanonicalHealth (ctx : ValidationContext) (node : NodeState) : Option ℤ :=
  if ctx.canonical then
    (contextHealthState ctx).bind fun state =>
      calculateChainstateHealth state ctx.oraclePriceMicroUSD
  else if 0 < node.metrics.totalDDSupply then
    if 0 < ctx.oraclePriceMicroUSD ∧ 0 < node.metrics.totalCollateral then
      some (calculateSystemHealth node.metrics.totalCollateral node.metrics.totalDDSupply
        (ctx.oraclePriceMicroUSD / 10))
    else none
  else if 0 < ctx.systemCollateral then some ctx.systemCollateral
  else some 30000

theorem resolveCanonicalHealth_canonical {ctx : ValidationContext} {node : NodeState}
    (active : ctx.canonical = true) :
    resolveCanonicalHealth ctx node = (contextHealthState ctx).bind fun state =>
      calculateChainstateHealth state ctx.oraclePriceMicroUSD :=
  if_pos active

/-- The validators write the resolved health into the context and resolve it again: the field is not
read. -/
theorem resolveCanonicalHealth_withHealth {ctx : ValidationContext} {node : NodeState}
    (active : ctx.canonical = true) (systemCollateral : ℤ) :
    resolveCanonicalHealth { ctx with systemCollateral := systemCollateral } node =
      resolveCanonicalHealth ctx node := by
  rw [resolveCanonicalHealth_canonical active]
  exact if_pos active

def addDDAmount (total amount : ℤ) : Option ℤ :=
  if amount ≤ 0 ∨ amount > MAX_DIGIDOLLAR then none
  else if total > INT64_MAX - amount then none
  else some (total + amount)

def lookupPreviousTransaction (prevout : COutPoint) (coinHeight : ℕ) (ctx : ValidationContext)
    (node : NodeState) : Option CTransaction :=
  let pooled := if coinHeight = MEMPOOL_HEIGHT then ctx.mempool.bind (· prevout.hash) else none
  (pooled.or (node.txindex.bind (· prevout.hash))).or
    (ctx.txLookup.bind fun lookup => lookup prevout.hash coinHeight)

def spendsDigiDollarCollateralVault (tx : CTransaction) (ctx : ValidationContext)
    (node : NodeState) : Bool :=
  if ctx.canonical then
    match checkCanonicalVaultInputs tx ctx with
    | .error _ => true
    | .ok spends => spends
  else match ctx.coins with
    | none => false
    | some view =>
      let activation_height := earliestActivationFloor ctx.params.consensus
      tx.vin.any fun txin =>
        match view.getCoin txin.prevout with
        | none => false
        | some coin =>
          if 0 < activation_height ∧ coin.nHeight < toUint32 activation_height then false
          else (lookupPreviousTransaction txin.prevout coin.nHeight ctx node).any fun prev_tx =>
            isMintCollateralOutput node.registry prev_tx txin.prevout.n

/-! Amount limits and the collateral requirement. -/

def validateMintAmount (amount : ℤ) (params : CChainParams) (nHeight : ℤ) : Bool :=
  let ddParams := params.digidollarParams
  let effectiveMinMint :=
    if nHeight ≥ ddParams.minMintAmountActivationHeight ∧
        ddParams.minMintAmountActivationHeight > 0 then ddParams.minMintAmount else 1
  effectiveMinMint ≤ amount && amount ≤ ddParams.maxMintAmount

def validateOutputAmount (amount : ℤ) (params : CChainParams) : Bool :=
  params.digidollarParams.minOutputAmount ≤ amount && amount ≤ MAX_DIGIDOLLAR

def getEffectiveCollateralRatio (baseRatio systemCollateral : ℤ) (canonical_health : Bool) : ℤ :=
  if canonical_health then applyDCAForHealth baseRatio systemCollateral
  else applyDCA baseRatio systemCollateral

/-- 0 stands for "no requirement can be computed", which callers reject. -/
def calculateRequiredCollateral (ddAmount lockTime : ℤ) (ctx : ValidationContext)
    (node : NodeState) : ℤ :=
  if ddAmount ≤ 0 ∨ ctx.oraclePriceMicroUSD ≤ 0 then 0
  else
    let baseRatio := getCollateralRatioForLockTime lockTime ctx.params.digidollarParams
    if baseRatio ≤ 0 then 0
    else match resolveCanonicalHealth ctx node with
      | none => 0
      | some systemHealth =>
        let effectiveRatio := getEffectiveCollateralRatio baseRatio systemHealth ctx.canonical
        if effectiveRatio ≤ 0 ∨ effectiveRatio = INT_MAX then 0
        else
          let numerator := ddAmount * COIN * effectiveRatio * 100
          let result := (numerator + ctx.oraclePriceMicroUSD - 1) / ctx.oraclePriceMicroUSD
          if result > MAX_MONEY then 0 else result

def validateCollateralRatio (dgbLocked ddMinted lockTime : ℤ) (ctx : ValidationContext)
    (node : NodeState) : Bool :=
  if ddMinted ≤ 0 ∨ dgbLocked ≤ 0 ∨ ctx.oraclePriceMicroUSD ≤ 0 ∨ lockTime ≤ 0 then false
  else
    let requiredCollateral := calculateRequiredCollateral ddMinted lockTime ctx node
    if requiredCollateral ≤ 0 then false else requiredCollateral ≤ dgbLocked

def shouldBlockMintingDuringERR (ctx : ValidationContext) (node : NodeState) : Bool :=
  if ctx.canonical then
    match resolveCanonicalHealth ctx node with
    | none => true
    | some health => shouldActivateERR health
  else shouldBlockMinting node ctx.oraclePriceMicroUSD

end DigiByte.DigiDollar
