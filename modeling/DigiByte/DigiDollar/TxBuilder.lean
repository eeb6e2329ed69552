import DigiByte.DigiDollar.Mint
import Mathlib.Data.List.Sort

/-!
The mint builder of the wallet (`digidollar/txbuilder.cpp`), with the scripts of
destinations (`addresstype.cpp`).

The value of an outpoint is what the overridden `GetUTXOValueVirtual` of a wallet
returns. Log lines and the registration of scripts in the wallet's metadata are left out.
-/

set_option autoImplicit false
set_option relaxedAutoImplicit false

namespace DigiByte.DigiDollar

open Consensus Script
open Library.Checks (rejectIf)

def OP_DUP : UInt8 := 0x76
def OP_EQUAL : UInt8 := 0x87
def OP_EQUALVERIFY : UInt8 := 0x88
def OP_HASH160 : UInt8 := 0xa9

inductive CTxDestination
  | noDestination (script : Bytes)
  | pubKey (pubkey : Bytes)
  | pkHash (hash : Bytes)
  | scriptHash (hash : Bytes)
  | witnessV0ScriptHash (hash : Bytes)
  | witnessV0KeyHash (hash : Bytes)
  | witnessV1Taproot (key : Bytes)
  | witnessUnknown (version : Fin 17) (program : Bytes)
  deriving DecidableEq, Repr

/-- `CScript::EncodeOP_N`, whose argument is at most 16. -/
def encodeOpN (n : Fin 17) : UInt8 := if n = 0 then OP_0 else 0x50 + UInt8.ofNat n

def getScriptForDestination : CTxDestination → Bytes
  | .noDestination script => script
  | .pubKey pubkey => pushData pubkey ++ [OP_CHECKSIG]
  | .pkHash hash => [OP_DUP, OP_HASH160] ++ pushData hash ++ [OP_EQUALVERIFY, OP_CHECKSIG]
  | .scriptHash hash => [OP_HASH160] ++ pushData hash ++ [OP_EQUAL]
  | .witnessV0ScriptHash hash => OP_0 :: pushData hash
  | .witnessV0KeyHash hash => OP_0 :: pushData hash
  | .witnessV1Taproot key => OP_1 :: pushData key
  | .witnessUnknown version program => encodeOpN version :: pushData program

def isValidDestination : CTxDestination → Bool
  | .noDestination _ => false
  | .pubKey _ => false
  | _ => true

/-- A transaction that has no identifier yet. -/
structure CMutableTransaction where
  nVersion : UInt32 := 2
  vin : List CTxIn := []
  vout : List CTxOut := []
  nLockTime : UInt32 := 0
  deriving DecidableEq, Repr

/-- The transaction with its identifier. -/
def CMutableTransaction.toTransaction (tx : CMutableTransaction) (hash : ℕ) : CTransaction :=
  ⟨hash, tx.nVersion, tx.vin, tx.vout, tx.nLockTime⟩

def DD_TX_VERSION : UInt32 := 0x0D1D0770
def DD_VERSION_MASK : UInt32 := 0x0000FFFF

def makeDigiDollarVersion (type : UInt32) (flags : UInt8) : UInt32 :=
  (type <<< 24) ||| (flags.toUInt32 <<< 16) ||| (DD_TX_VERSION &&& DD_VERSION_MASK)

/-- A secret key by its validity and its x-only public key. -/
structure CKey where
  isValid : Bool
  xOnlyPubKey : Bytes

structure TxBuilderMintParams where
  ddAmount : ℤ
  lockDays : ℤ
  lockTier : ℕ
  ownerKey : CKey
  feeRate : ℤ
  utxos : List COutPoint
  dgbChangeDest : Option CTxDestination

structure TxBuilderResult where
  tx : CMutableTransaction
  totalFees : ℤ
  collateralRequired : ℤ
  deriving DecidableEq, Repr

/-- The cached metrics that the builder reads below the Thaw Day height. -/
structure CachedMetrics where
  hasCanonicalHealth : Bool
  systemHealth : ℤ
  totalDDSupply : ℤ
  totalCollateral : ℤ
  lastOraclePrice : ℤ

structure TxBuilder where
  chainParams : CChainParams
  currentHeight : ℤ
  oraclePrice : ℤ
  candidateHealth : Option ℤ
  getUTXOValueVirtual : COutPoint → ℤ
  metrics : CachedMetrics

/-- `DynamicCollateralAdjustment::GetCurrentSystemHealth`. -/
def getCurrentSystemHealth (metrics : CachedMetrics) : ℤ :=
  if metrics.hasCanonicalHealth = true ∧ 0 < metrics.systemHealth then metrics.systemHealth
  else if metrics.totalDDSupply = 0 then 30000
  else if 0 < metrics.lastOraclePrice ∧ 0 < metrics.totalCollateral ∧ 0 < metrics.totalDDSupply then
    calculateSystemHealth metrics.totalCollateral metrics.totalDDSupply
      (metrics.lastOraclePrice / 10)
  else -1

def isValidMintAmount (amount : ℤ) (params : ConsensusParams) : Bool :=
  params.minMintAmount ≤ amount && amount ≤ params.maxMintAmount

/-- `GetLockTierIndex`; `none` stands for -1. -/
def getLockTierIndex (lockBlocks : ℤ) (params : ConsensusParams) : Option ℕ :=
  params.collateralRatios.findIdx? fun tier => lockBlocks = tier.1

/-- `CreateDigiDollarP2TR`: a taproot output with no tree. -/
def createDigiDollarP2TR (curve : TaprootCurve) (owner : Bytes) (ddAmount : ℤ) : Bytes :=
  if ddAmount ≤ 0 ∨ curve.isFullyValid owner = false then []
  else match curve.taprootOutput owner [] with
    | none => []
    | some output => OP_1 :: pushData output

/-- Conversion of a natural number to `double`: the nearest number of 53 significant
bits, the even one of two. -/
def toDouble (n : ℕ) : ℕ :=
  let unit := 2 ^ (Nat.log2 n - 52)
  let rest := n % unit
  if 2 * rest > unit ∨ (2 * rest = unit ∧ n / unit % 2 = 1) then (n / unit + 1) * unit
  else n / unit * unit

namespace TxBuilder

def DUST_THRESHOLD : ℤ := 1000
def ESTIMATED_TX_VSIZE : ℤ := 500
def MAX_TX_INPUTS : ℕ := 400
def MIN_DD_TX_FEE : ℤ := 10000000

/-- `static_cast<CAmount>(totalIn * MAX_FEE_RATIO)` with the ratio 0.5. -/
def maxFees (totalIn : ℤ) : ℤ := (toDouble totalIn.toNat / 2 : ℕ)

def isTaprootOutputScript (script : Bytes) : Bool :=
  match isWitnessProgram script with
  | some (witnessVersion, witnessProgram) => witnessVersion == 1 && witnessProgram.length == 32
  | none => false

def resolveDGBChangeScript (changeDest : Option CTxDestination) (allowTaproot : Bool) :
    Except String Bytes :=
  match changeDest.filter isValidDestination with
  | none => .error ("No wallet change address is available for the leftover DGB. " ++
      "Unlock the wallet, or check that it can still hand out addresses, then try again.")
  | some dest => do
    let script := getScriptForDestination dest
    rejectIf (script = []) "The wallet change address for the leftover DGB could not be used."
    rejectIf (allowTaproot = false ∧ isTaprootOutputScript script = true)
      ("A mint cannot send its leftover DGB to a taproot address. " ++
        "A mint may hold DGB in only one taproot output, the locked collateral, " ++
        "so the change must go to an ordinary bech32 address.")
    .ok script

def applyCollateralSafetyMargin (requiredCollateral : ℤ) : ℤ :=
  if requiredCollateral ≤ 0 then 0
  else
    let padded := requiredCollateral * 101 / 100
    if padded > MAX_MONEY then 0 else padded

def estimateTransactionVSize (tx : CMutableTransaction) : ℕ :=
  let baseSize := (tx.toTransaction 0).baseSize
  let witnessSize := 110 * tx.vin.length
  let totalSize := baseSize + witnessSize
  let vsize := (baseSize * 3 + totalSize) / 4
  vsize + vsize * 35 / 100

def calculateFee (tx : CMutableTransaction) (feeRate : ℤ) : ℤ :=
  estimateTransactionVSize tx * feeRate / 1000

/-- The order of `std::greater` on values with their outpoints. -/
def Greater (a b : ℤ × COutPoint) : Prop :=
  b.1 < a.1 ∨ (b.1 = a.1 ∧ (b.2.hash < a.2.hash ∨ (b.2.hash = a.2.hash ∧ b.2.n ≤ a.2.n)))

instance : DecidableRel Greater := fun _ _ => inferInstanceAs (Decidable (_ ∨ _))

/-- The greedy loop of `SelectCoins`. -/
def selectLoop (target : ℤ) : List (ℤ × COutPoint) → List CTxIn → ℤ → Option (List CTxIn × ℤ)
  | [], _, _ => none
  | (value, utxo) :: rest, inputs, total =>
    let inputs := inputs ++ [{ prevout := utxo }]
    let total := total + value
    if target ≤ total then some (inputs, total)
    else if MAX_TX_INPUTS ≤ inputs.length then none
    else selectLoop target rest inputs total

def selectCoins (b : TxBuilder) (utxos : List COutPoint) (target : ℤ) : Option (List CTxIn × ℤ) :=
  let valued := (utxos.map fun utxo => (b.getUTXOValueVirtual utxo, utxo)).filter (0 < ·.1)
  selectLoop target (valued.insertionSort Greater) [] 0

def validateFeeRate (feeRate : ℤ) : Bool := 100000 ≤ feeRate && feeRate ≤ 100000000

/-- -1 where no health is known. -/
def getCurrentSystemCollateral (b : TxBuilder) : ℤ :=
  if isThawDayActive b.chainParams.consensus b.currentHeight then
    match b.candidateHealth with
    | some health => if 0 ≤ health ∧ health ≤ 30000 then health else -1
    | none => -1
  else
    let systemHealth := getCurrentSystemHealth b.metrics
    if 0 ≤ systemHealth then systemHealth
    else if b.metrics.totalDDSupply = 0 then 30000
    else if 0 < b.metrics.totalCollateral ∧ 0 < b.metrics.totalDDSupply ∧ 0 < b.oraclePrice then
      calculateSystemHealth b.metrics.totalCollateral b.metrics.totalDDSupply (b.oraclePrice / 10)
    else -1

/-- 0 stands for failure. -/
def calculateRequiredCollateral (b : TxBuilder) (ddAmount lockDays : ℤ) : ℤ :=
  if ddAmount ≤ 0 then 0
  else if b.oraclePrice ≤ 0 then 0
  else
    let baseRatio :=
      getCollateralRatioForLockTime (lockDaysToBlocks lockDays) b.chainParams.digidollarParams
    let systemCollateral := b.getCurrentSystemCollateral
    if systemCollateral < 0 then 0
    else
      let effectiveRatio := getEffectiveCollateralRatio baseRatio systemCollateral
        (isThawDayActive b.chainParams.consensus b.currentHeight)
      if effectiveRatio ≤ 0 ∨ effectiveRatio = INT_MAX then 0
      else
        let numerator := ddAmount * COIN * effectiveRatio * 100
        let result := (numerator + b.oraclePrice - 1) / b.oraclePrice
        if result > MAX_MONEY then 0 else applyCollateralSafetyMargin result

def validateMintParams (b : TxBuilder) (params : TxBuilderMintParams) : Bool :=
  let ddParams := b.chainParams.digidollarParams
  0 < params.ddAmount && isValidMintAmount params.ddAmount ddParams &&
    getLockTierIndex (lockDaysToBlocks params.lockDays) ddParams = some params.lockTier &&
    params.ownerKey.isValid && validateFeeRate params.feeRate && params.utxos ≠ [] &&
    params.ddAmount ≤ MAX_DIGIDOLLAR

/-- The height at which the vault opens. -/
def lockHeight (b : TxBuilder) (params : TxBuilderMintParams) : ℤ :=
  b.currentHeight + lockDaysToBlocks params.lockDays + MINT_LOCK_CONFIRMATION_BUFFER_BLOCKS

/-- The oracle keys of the source's record are used by no script. -/
def createCollateralScript (curve : TaprootCurve) (b : TxBuilder) (params : TxBuilderMintParams) :
    Bytes :=
  createCollateralP2TR curve
    { ddAmount := params.ddAmount
      lockHeight := b.lockHeight params
      ownerKey := params.ownerKey.xOnlyPubKey
      internalKey := COLLATERAL_NUMS_POINT_BYTES }

/-- Type 1, amount, lock height, tier and owner behind the tag. -/
def metadataScript (b : TxBuilder) (params : TxBuilderMintParams) : Bytes :=
  OP_RETURN :: (pushData DD_TAG ++ (pushData (serializeNum 1) ++
    (pushData (serializeNum params.ddAmount) ++ (pushData (serializeNum (b.lockHeight params)) ++
      (pushData (serializeNum params.lockTier) ++ pushData params.ownerKey.xOnlyPubKey)))))

/-- The transaction before the change: vault, token and metadata. -/
def mintSkeleton (curve : TaprootCurve) (b : TxBuilder) (params : TxBuilderMintParams)
    (inputs : List CTxIn) (collateralRequired : ℤ) : CMutableTransaction :=
  { nVersion := makeDigiDollarVersion 1 0
    vin := inputs
    vout := [⟨collateralRequired, createCollateralScript curve b params⟩,
      ⟨0, createDigiDollarP2TR curve params.ownerKey.xOnlyPubKey params.ddAmount⟩,
      ⟨0, metadataScript b params⟩] }

/-- The fee iteration. Change below the dust threshold goes to the fee. -/
def addChange (params : TxBuilderMintParams) (tx : CMutableTransaction)
    (totalIn collateralRequired : ℤ) : Except String TxBuilderResult :=
  let feeWithoutChange := max (calculateFee tx params.feeRate) MIN_DD_TX_FEE
  let change := totalIn - collateralRequired - feeWithoutChange
  if change < 0 then .error "Insufficient funds after fee calculation"
  else if DUST_THRESHOLD ≤ change then do
    let changeScript ← resolveDGBChangeScript params.dgbChangeDest false
    let withChange := { tx with vout := tx.vout ++ [⟨change, changeScript⟩] }
    let totalFees := max (calculateFee withChange params.feeRate) MIN_DD_TX_FEE
    rejectIf (totalFees > maxFees totalIn) "Transaction fees too high"
    let change := totalIn - collateralRequired - totalFees
    rejectIf (change < 0) "Insufficient funds after final fee calculation"
    if change < DUST_THRESHOLD then .ok ⟨tx, totalFees + change, collateralRequired⟩
    else .ok ⟨{ tx with vout := tx.vout ++ [⟨change, changeScript⟩] }, totalFees,
      collateralRequired⟩
  else .ok ⟨tx, feeWithoutChange + change, collateralRequired⟩

def buildMintTransaction (curve : TaprootCurve) (b : TxBuilder) (params : TxBuilderMintParams) :
    Except String TxBuilderResult := do
  rejectIf (b.validateMintParams params = false) "Invalid mint parameters"
  rejectIf (b.oraclePrice ≤ 0) "Oracle price unavailable or invalid"
  let active := isThawDayActive b.chainParams.consensus b.currentHeight
  rejectIf (active = true ∧ b.getCurrentSystemCollateral < 0)
    "DigiDollar candidate health state not ready"
  rejectIf (active = true ∧ b.getCurrentSystemCollateral < 100)
    "Minting blocked by candidate emergency health"
  let collateralRequired := b.calculateRequiredCollateral params.ddAmount params.lockDays
  rejectIf (collateralRequired ≤ 0) "Failed to calculate required collateral"
  let estimatedFees := max (ESTIMATED_TX_VSIZE * params.feeRate / 1000) MIN_DD_TX_FEE
  rejectIf (collateralRequired > MAX_MONEY - estimatedFees) "Required collateral amount too large"
  match b.selectCoins params.utxos (collateralRequired + estimatedFees) with
  | none => .error (if params.utxos.length > MAX_TX_INPUTS then
        "Too many small UTXOs - please consolidate your wallet first. " ++
          "A regular DGB transaction can combine UTXOs before minting."
      else "Insufficient funds for collateral and fees")
  | some (inputs, totalIn) =>
    addChange params (mintSkeleton curve b params inputs collateralRequired) totalIn
      collateralRequired

end TxBuilder

end DigiByte.DigiDollar
