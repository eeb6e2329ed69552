import DigiByte.DigiDollar.Transfer
import DigiByte.DigiDollar.TxBuilder

/-!
The transfer builder of the wallet (`digidollar/txbuilder.cpp`).

The address codec of `base58.cpp` and the overridable `GetDDFromUTXO` belong to the
builder. Log lines and the registration of scripts in the wallet's metadata are left out.
-/

set_option autoImplicit false
set_option relaxedAutoImplicit false

namespace DigiByte.DigiDollar

open Consensus Script
open Library.Checks (rejectIf)

structure TxBuilderTransferParams where
  recipients : List (String × ℤ)
  feeRate : ℤ
  ddUtxos : List COutPoint
  ddAmounts : List ℤ
  feeUtxos : List COutPoint
  feeAmounts : List ℤ
  spenderKey : CKey
  dgbChangeDest : Option CTxDestination

structure TransferTxBuilder extends TxBuilder where
  isValidDigiDollarAddressForCurrentNetwork : String → Bool
  decodeDigiDollarAddress : String → CTxDestination
  getDDFromUTXO : COutPoint → ℤ

def getMinimumDDOutput (params : ConsensusParams) : ℤ := params.minOutputAmount

/-- Amounts of fee coins for which the caller gave none. -/
def getDGBFromUTXO (_ : COutPoint) : ℤ := 100 * COIN

/-- Fee coin `i` counts with `feeAmounts[i]`. -/
def feeInputAmounts : List COutPoint → List ℤ → List ℤ
  | [], _ => []
  | utxo :: utxos, [] => getDGBFromUTXO utxo :: feeInputAmounts utxos []
  | _ :: utxos, amount :: amounts => amount :: feeInputAmounts utxos amounts

/-- Tag, type and one number per token output. -/
def amountsScript (type : ℤ) (amounts : List ℤ) : Bytes :=
  OP_RETURN :: (pushData DD_TAG ++
    (pushData (serializeNum type) ++ (amounts.map serializeNum).flatMap pushData))

namespace TransferTxBuilder

def validateTransferParams (b : TransferTxBuilder) (params : TxBuilderTransferParams) : Bool :=
  let minOutput := getMinimumDDOutput b.chainParams.digidollarParams
  params.recipients ≠ [] &&
    (params.recipients.all fun recipient =>
      b.isValidDigiDollarAddressForCurrentNetwork recipient.1 && 0 < recipient.2 &&
        minOutput ≤ recipient.2 && recipient.2 ≤ 10000000) &&
    params.ddUtxos ≠ [] && params.spenderKey.isValid && TxBuilder.validateFeeRate params.feeRate

/-- The amounts that the builder counts for the token inputs. -/
def ddInputAmounts (b : TransferTxBuilder) (params : TxBuilderTransferParams) : List ℤ :=
  if params.ddAmounts ≠ [] ∧ params.ddAmounts.length = params.ddUtxos.length then params.ddAmounts
  else params.ddUtxos.map b.getDDFromUTXO

def calculateTotalDDOutputs (recipients : List (String × ℤ)) : ℤ := (recipients.map Prod.snd).sum

/-- One zero-value taproot output per recipient, to the decoded key as it is. -/
def recipientOutputs (b : TransferTxBuilder) : List (String × ℤ) → Except String (List CTxOut)
  | [] => .ok []
  | (address, _) :: rest =>
    match b.decodeDigiDollarAddress address with
    | .witnessV1Taproot key => do
      let outputs ← recipientOutputs b rest
      .ok (⟨0, OP_1 :: pushData key⟩ :: outputs)
    | _ => .error ("Failed to decode DD address: " ++ address)

/-- The token change goes to the tweaked key of the spender. -/
def ddChangeOutputs (curve : TaprootCurve) (params : TxBuilderTransferParams)
    (totalDDIn totalDDOut : ℤ) : Except String (List CTxOut) :=
  let ddChange := totalDDIn - totalDDOut
  if 0 < ddChange then
    match curve.taprootOutput params.spenderKey.xOnlyPubKey [] with
    | none => .error "Failed to create Taproot tweak for DD change output"
    | some tweaked => .ok [⟨0, OP_1 :: pushData tweaked⟩]
  else if ddChange < 0 then
    .error s!"Insufficient DD: need {totalDDOut} cents, have {totalDDIn} cents"
  else .ok []

def dgbChangeOutputs (params : TxBuilderTransferParams) (dgbChange : ℤ) :
    Except String (List CTxOut) :=
  if 0 < dgbChange ∧ TxBuilder.DUST_THRESHOLD ≤ dgbChange then do
    let dgbChangeScript ← TxBuilder.resolveDGBChangeScript params.dgbChangeDest true
    .ok [⟨dgbChange, dgbChangeScript⟩]
  else .ok []

/-- The amounts that the metadata states: the recipients', then the change. -/
def ddOutputAmounts (params : TxBuilderTransferParams) (ddChange : ℤ) : List ℤ :=
  params.recipients.map Prod.snd ++ if 0 < ddChange then [ddChange] else []

def buildTransferTransaction (curve : TaprootCurve) (b : TransferTxBuilder)
    (params : TxBuilderTransferParams) : Except String TxBuilderResult := do
  rejectIf (b.validateTransferParams params = false) "Invalid transfer parameters"
  let totalDDIn := (b.ddInputAmounts params).sum
  let totalDDOut := calculateTotalDDOutputs params.recipients
  rejectIf (totalDDIn < totalDDOut) "Insufficient DD balance for transfer"
  rejectIf (∃ recipient ∈ params.recipients,
      recipient.2 < getMinimumDDOutput b.chainParams.digidollarParams)
    "Transfer amount below dust threshold"
  let vin := (params.ddUtxos ++ params.feeUtxos).map fun utxo => ({ prevout := utxo } : CTxIn)
  let totalFeeIn := (feeInputAmounts params.feeUtxos params.feeAmounts).sum
  let recipients ← b.recipientOutputs params.recipients
  let ddChange := totalDDIn - totalDDOut
  let change ← ddChangeOutputs curve params totalDDIn totalDDOut
  let tx : CMutableTransaction :=
    { nVersion := makeDigiDollarVersion 2 0, vin := vin, vout := recipients ++ change }
  let actualFee := max (TxBuilder.calculateFee tx params.feeRate) TxBuilder.MIN_DD_TX_FEE
  rejectIf (totalFeeIn ≤ 0) "Insufficient DGB fee input: no fee inputs selected"
  rejectIf (totalFeeIn < actualFee)
    s!"Insufficient DGB fee input: selected={totalFeeIn} sats, required={actualFee} sats"
  let dgbChange ← dgbChangeOutputs params (totalFeeIn - actualFee)
  let amounts := ddOutputAmounts params ddChange
  let finalDDOut := amounts.sum
  let diff := totalDDIn - finalDDOut
  rejectIf (totalDDIn ≠ finalDDOut)
    s!"DD conservation violation: input={totalDDIn} output={finalDDOut} diff={diff}"
  let tx := { tx with
    nVersion := 0x02000770
    vout := tx.vout ++ dgbChange ++ [⟨0, amountsScript 2 amounts⟩]
    nLockTime := 0 }
  rejectIf (tx.vin = []) "Transaction has no inputs"
  rejectIf (tx.vout = []) "Transaction has no outputs"
  let totalDDOutCheck := totalDDOut + if 0 < ddChange then ddChange else 0
  rejectIf (totalDDIn ≠ totalDDOutCheck)
    s!"DD amount mismatch: in={totalDDIn}, out={totalDDOutCheck}"
  .ok ⟨tx, actualFee, 0⟩

end TransferTxBuilder

end DigiByte.DigiDollar
