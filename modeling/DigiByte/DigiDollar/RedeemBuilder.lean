import DigiByte.DigiDollar.TransferBuilder

/-!
The redemption builder of the wallet (`digidollar/txbuilder.cpp`).

The build is cut where it has fixed its fee, which is where the fee estimate stops.
Log lines and the registration of scripts in the wallet's metadata are left out.
-/

set_option autoImplicit false
set_option relaxedAutoImplicit false

namespace DigiByte.DigiDollar

open Consensus Script
open Library.Checks (rejectIf bind_eq_ok rejectIf_eq_ok)

inductive RedemptionPath
  | normal
  | err
  deriving DecidableEq, Repr

def RedemptionPath.toInt : RedemptionPath → ℤ
  | .normal => 0
  | .err => 1

structure TxBuilderRedeemParams where
  collateralOutpoint : COutPoint
  ddToRedeem : ℤ
  path : RedemptionPath
  ownerKey : CKey
  feeRate : ℤ
  minimumFee : ℤ := 0
  ddUtxos : List COutPoint
  ddAmounts : List ℤ
  feeUtxos : List COutPoint
  feeAmounts : List ℤ
  collateralDest : Option CTxDestination
  dgbChangeDest : Option CTxDestination
  collateralAmount : ℤ := 0
  ddMinted : ℤ := 0
  unlockHeight : UInt32 := 0

/-- The parts of a position that the builder reads. -/
structure CCollateralPosition where
  dgbLocked : ℤ
  ddMinted : ℤ
  unlockHeight : ℤ
  deriving DecidableEq, Repr

structure RedeemBuilderResult extends TxBuilderResult where
  ddChange : ℤ
  deriving DecidableEq, Repr

/-- The transaction, the fee inputs and the fee at the point where the fee is fixed. -/
structure PreparedRedemption where
  tx : CMutableTransaction
  totalFeeIn : ℤ
  totalFees : ℤ
  ddChange : ℤ
  deriving DecidableEq, Repr

/-- `TxBuilder::GetUTXOValue`, a placeholder. -/
def getUTXOValue (_ : COutPoint) : ℤ := 100 * COIN

/-- What `GetCollateralPosition` makes of the empty coin it never looks up: the value
of a null output, no amount, and the default of `ExtractLockTime`. -/
def getCollateralPosition (_ : COutPoint) : CCollateralPosition := ⟨-1, 0, 30 * 24 * 60 * 4⟩

def resolveCollateralReturnScript (collateralDest : Option CTxDestination) : Except String Bytes :=
  match collateralDest.filter isValidDestination with
  | none => .error ("No address is available for the collateral this redemption unlocks. " ++
      "Unlock the wallet, or check that it can still hand out addresses, then try again.")
  | some dest => do
    let script := getScriptForDestination dest
    rejectIf (script = [])
      "The address for the collateral this redemption unlocks could not be used."
    .ok script

theorem resolveCollateralReturnScript_eq_ok {dest : Option CTxDestination} {script : Bytes}
    (resolved : resolveCollateralReturnScript dest = .ok script) :
    ∃ target, dest = some target ∧ isValidDestination target = true ∧
      script = getScriptForDestination target := by
  unfold resolveCollateralReturnScript at resolved
  split at resolved
  · cases resolved
  · rename_i target valid
    simp only [bind_eq_ok, rejectIf_eq_ok] at resolved
    obtain ⟨_, _, result⟩ := resolved
    cases result
    obtain ⟨given, usable⟩ := Option.filter_eq_some_iff.mp valid
    exact ⟨target, given, usable, rfl⟩

/-- 0 stands for failure. A redemption returns the whole collateral on both paths. -/
def calculateCollateralReturn (ddAmount originalCollateral currentPrice : ℤ) : ℤ :=
  if ddAmount ≤ 0 ∨ originalCollateral ≤ 0 ∨ currentPrice ≤ 0 then 0 else originalCollateral

theorem calculateCollateralReturn_of_pos {ddAmount originalCollateral currentPrice : ℤ}
    (positive : 0 < calculateCollateralReturn ddAmount originalCollateral currentPrice) :
    calculateCollateralReturn ddAmount originalCollateral currentPrice = originalCollateral := by
  unfold calculateCollateralReturn at positive ⊢
  split_ifs at positive ⊢ with bad
  · exact absurd positive (lt_irrefl 0)
  · rfl

/-- The sum of the given amounts, or placeholders where their number does not match. -/
def redemptionFeeIn (params : TxBuilderRedeemParams) : ℤ :=
  if params.feeUtxos = [] then 0
  else if params.feeAmounts ≠ [] ∧ params.feeAmounts.length = params.feeUtxos.length then
    params.feeAmounts.sum
  else (params.feeUtxos.map getUTXOValue).sum

/-- The vault, the tokens and the fee coins, in this order. -/
def redemptionInputs (params : TxBuilderRedeemParams) : List CTxIn :=
  { prevout := params.collateralOutpoint, nSequence := 0xfffffffe } ::
    ((params.ddUtxos.map fun utxo => { prevout := utxo, nSequence := 0xfffffffe }) ++
      params.feeUtxos.map fun utxo => { prevout := utxo })

namespace TxBuilder

def validateRedeemParams (params : TxBuilderRedeemParams) : Bool :=
  0 < params.ddToRedeem && params.ownerKey.isValid && validateFeeRate params.feeRate &&
    !params.collateralOutpoint.isNull && params.ddUtxos ≠ []

/-- The data of the caller, or the fallback where it gave none. -/
def redemptionPosition (params : TxBuilderRedeemParams) : Except String CCollateralPosition :=
  if 0 < params.collateralAmount then do
    rejectIf (params.ddMinted ≤ 0) "Original DD minted amount unavailable for redemption"
    .ok ⟨params.collateralAmount, params.ddMinted, params.unlockHeight.toNat⟩
  else .ok (getCollateralPosition params.collateralOutpoint)

/-- The path must be the one of the candidate's health, from Thaw Day on. -/
def checkRedemptionPath (b : TxBuilder) (params : TxBuilderRedeemParams) : Except String Unit :=
  if isThawDayActive b.chainParams.consensus b.currentHeight then do
    let health := b.getCurrentSystemCollateral
    rejectIf (health < 0) "DigiDollar candidate health state not ready"
    let expected : RedemptionPath := if health < 100 then .err else .normal
    rejectIf (params.path ≠ expected) ("Candidate emergency health changed; " ++
      "rebuild the redemption with the current required burn")
  else .ok ()

/-- The amount to burn: the caller's, or the one the health asks for. -/
def redemptionBurn (b : TxBuilder) (params : TxBuilderRedeemParams) (ddMinted : ℤ) :
    Except String ℤ :=
  match params.path with
  | .normal => .ok params.ddToRedeem
  | .err => do
    rejectIf (b.getCurrentSystemCollateral < 0) "ERR system health unavailable"
    rejectIf (ddMinted ≤ 0) "Original DD minted amount unavailable for ERR redemption"
    .ok (getRequiredDDBurn ddMinted b.getCurrentSystemCollateral)

def verifyRedemptionConditions (b : TxBuilder) (path : RedemptionPath)
    (position : CCollateralPosition) : Bool :=
  if b.currentHeight < position.unlockHeight then false
  else match path with
    | .normal => true
    | .err => b.getCurrentSystemCollateral < 100 && 0 < b.oraclePrice

/-- The change token with its record. -/
def redemptionChange (curve : TaprootCurve) (params : TxBuilderRedeemParams) (ddChange : ℤ) :
    List CTxOut :=
  if 0 < ddChange then
    [⟨0, createDigiDollarP2TR curve params.ownerKey.xOnlyPubKey ddChange⟩,
      ⟨0, amountsScript 3 [ddChange]⟩]
  else []

/-- The fee before dust is added. -/
def redemptionFee (b : TxBuilder) (params : TxBuilderRedeemParams) (tx : CMutableTransaction) :
    Except String ℤ :=
  let totalFees := max (calculateFee tx params.feeRate) MIN_DD_TX_FEE
  if isThawDayActive b.chainParams.consensus b.currentHeight then do
    rejectIf (moneyRange params.minimumFee = false) "Invalid redemption fee requirement"
    .ok (max totalFees params.minimumFee)
  else .ok totalFees

theorem redemptionFee_eq_ok {b : TxBuilder} {params : TxBuilderRedeemParams}
    {tx : CMutableTransaction} {fee : ℤ} (charged : b.redemptionFee params tx = .ok fee) :
    0 ≤ fee ∧
      (params.minimumFee = 0 → fee = max (calculateFee tx params.feeRate) MIN_DD_TX_FEE) := by
  have floor : 0 ≤ max (calculateFee tx params.feeRate) MIN_DD_TX_FEE :=
    le_max_of_le_right (by decide)
  unfold redemptionFee at charged
  dsimp only at charged
  split_ifs at charged with active
  · simp only [bind_eq_ok, rejectIf_eq_ok] at charged
    obtain ⟨_, _, result⟩ := charged
    cases result
    refine ⟨le_max_of_le_left floor, ?_⟩
    intro noMinimum
    rw [noMinimum, max_eq_left floor]
  · cases charged
    exact ⟨floor, fun _ => rfl⟩

/-- `BuildRedemptionTransaction` up to its fee. -/
def prepareRedemption (curve : TaprootCurve) (b : TxBuilder) (params : TxBuilderRedeemParams) :
    Except String PreparedRedemption := do
  rejectIf (validateRedeemParams params = false) "Invalid redemption parameters"
  let position ← redemptionPosition params
  b.checkRedemptionPath params
  let ddToBurn ← b.redemptionBurn params position.ddMinted
  let path := params.path.toInt
  rejectIf (b.verifyRedemptionConditions params.path position = false)
    s!"Redemption conditions not met for path {path}"
  let dgbToRelease := calculateCollateralReturn
    (if 0 < position.ddMinted then position.ddMinted else params.ddToRedeem) position.dgbLocked
    b.oraclePrice
  rejectIf (dgbToRelease ≤ 0) "Failed to calculate collateral return"
  let collateralReturnScript ← resolveCollateralReturnScript params.collateralDest
  let totalDDInput := params.ddAmounts.sum
  let ddChange := totalDDInput - ddToBurn
  let ddToRedeem := params.ddToRedeem
  rejectIf (ddChange < 0)
    s!"Insufficient DD selected (input: {totalDDInput}, need: {ddToRedeem})"
  let tx : CMutableTransaction :=
    { nVersion := makeDigiDollarVersion 3 0
      vin := redemptionInputs params
      vout := ⟨dgbToRelease, collateralReturnScript⟩ :: redemptionChange curve params ddChange
      nLockTime := UInt32.ofNat (toUint32 position.unlockHeight) }
  let totalFees ← b.redemptionFee params tx
  .ok ⟨tx, redemptionFeeIn params, totalFees, ddChange⟩

/-- The rest of the build. Fee change below the dust threshold goes to the fee. -/
def finishRedemption (params : TxBuilderRedeemParams) (p : PreparedRedemption) :
    Except String RedeemBuilderResult := do
  rejectIf (p.totalFeeIn ≤ 0) "Insufficient fee inputs for DD redemption fee"
  let feeChange := p.totalFeeIn - p.totalFees
  rejectIf (feeChange < 0) "Insufficient fee inputs for DD redemption fee"
  let ddChange := if 0 < p.ddChange then p.ddChange else 0
  if DUST_THRESHOLD ≤ feeChange then
    let changeScript ← resolveDGBChangeScript (params.dgbChangeDest.or params.collateralDest) true
    .ok ⟨⟨{ p.tx with vout := p.tx.vout ++ [⟨feeChange, changeScript⟩] }, p.totalFees, 0⟩, ddChange⟩
  else .ok ⟨⟨p.tx, p.totalFees + feeChange, 0⟩, ddChange⟩

def buildRedemptionTransaction (curve : TaprootCurve) (b : TxBuilder)
    (params : TxBuilderRedeemParams) : Except String RedeemBuilderResult := do
  let prepared ← prepareRedemption curve b params
  finishRedemption params prepared

/-- What a build that reaches its fee has found. -/
structure Prepares (curve : TaprootCurve) (b : TxBuilder) (params : TxBuilderRedeemParams)
    (position : CCollateralPosition) (ddToBurn : ℤ) (script : Bytes) (p : PreparedRedemption) :
    Prop where
  valid : validateRedeemParams params = true
  found : redemptionPosition params = .ok position
  path : b.checkRedemptionPath params = .ok ()
  burn : b.redemptionBurn params position.ddMinted = .ok ddToBurn
  conditions : b.verifyRedemptionConditions params.path position = true
  returned : resolveCollateralReturnScript params.collateralDest = .ok script
  enough : ddToBurn ≤ params.ddAmounts.sum
  tx : p.tx =
    { nVersion := makeDigiDollarVersion 3 0
      vin := redemptionInputs params
      vout := ⟨position.dgbLocked, script⟩ ::
        redemptionChange curve params (params.ddAmounts.sum - ddToBurn)
      nLockTime := UInt32.ofNat (toUint32 position.unlockHeight) }
  feeIn : p.totalFeeIn = redemptionFeeIn params
  charged : b.redemptionFee params p.tx = .ok p.totalFees
  change : p.ddChange = params.ddAmounts.sum - ddToBurn

theorem prepares_of_ok {curve : TaprootCurve} {b : TxBuilder} {params : TxBuilderRedeemParams}
    {p : PreparedRedemption} (prepared : prepareRedemption curve b params = .ok p) :
    ∃ position ddToBurn script, Prepares curve b params position ddToBurn script p := by
  simp only [prepareRedemption, bind_eq_ok, rejectIf_eq_ok] at prepared
  obtain ⟨_, valid, position, found, _, path, ddToBurn, burn, _, conditions, _, released, script,
    returned, _, enough, totalFees, charged, result⟩ := prepared
  cases result
  have whole := calculateCollateralReturn_of_pos (not_le.mp released)
  simp only [whole] at charged ⊢
  exact ⟨position, ddToBurn, script,
    by simpa using valid, found, path, burn, by simpa using conditions,
    returned, by omega, rfl, rfl, charged, rfl⟩

end TxBuilder

end DigiByte.DigiDollar
