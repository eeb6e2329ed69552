import DigiByte.DigiDollar.Context

/-!
`ValidateTransferTransaction` of `digidollar/validation.cpp`.
-/

set_option autoImplicit false
set_option relaxedAutoImplicit false

namespace DigiByte.DigiDollar

open Consensus Script
open Library.Checks (rejectIf)

/-- The amounts of one metadata output; empty pushes are passed over. -/
def readTransferAmounts : List (UInt8 × Bytes) → Except Failure (List ℤ)
  | [] => .ok []
  | (_, data) :: rest =>
    if data = [] then readTransferAmounts rest
    else match scriptNum data true 8 with
      | none => .error (.invalid "transfer-malformed-op-return"
          "Malformed transfer OP_RETURN DD amount")
      | some amount => do
        let amounts ← readTransferAmounts rest
        .ok (amount :: amounts)

/-- Type and amounts after the tag. -/
def readTransferPayload (pc : Bytes) : Except Failure (List ℤ) :=
  match getScriptOp pc with
  | (none, _) => .error (.invalid "transfer-malformed-op-return")
  | (some (_, data), pc) =>
    match scriptNum data true 4 with
    | none => .error (.invalid "transfer-malformed-op-return"
        "Malformed transfer OP_RETURN transaction type")
    | some txType => do
      rejectIf (txType ≠ DigiDollarTxType.transfer.toInt)
        (.invalid "transfer-opreturn-type-mismatch"
          "Transfer OP_RETURN type must match transaction version")
      readTransferAmounts (scriptOps pc)

/-- The metadata loop, from a count of metadata outputs and the amounts so far. -/
def transferAmountsFrom : List CTxOut → ℕ → List ℤ → Except Failure (List ℤ)
  | [], _, dd_amounts => .ok dd_amounts
  | output :: rest, ddOpReturnCount, dd_amounts =>
    match ddPayload output.scriptPubKey with
    | none => transferAmountsFrom rest ddOpReturnCount dd_amounts
    | some pc => do
      rejectIf (ddOpReturnCount + 1 > 1) (.invalid "transfer-multiple-dd-opreturn"
        "Transfer transactions must have exactly one DD OP_RETURN")
      let amounts ← readTransferPayload pc
      transferAmountsFrom rest (ddOpReturnCount + 1) (dd_amounts ++ amounts)

def MAX_TRANSFER_AMOUNT : ℤ := 10000000

def checkTransferAmount (params : CChainParams) (ddAmount : ℤ) : Except Failure Unit := do
  rejectIf (ddAmount ≤ 0) (.invalid "transfer-zero-or-negative-dd-amount")
  rejectIf (validateOutputAmount ddAmount params = false)
    (.invalid "transfer-dd-amount-below-minimum")
  rejectIf (ddAmount > MAX_TRANSFER_AMOUNT) (.invalid "transfer-dd-amount-exceeds-maximum")

/-- The output loop: token outputs take the amounts in order. Returns the amounts
left over, the number of token outputs and their sum. -/
def transferOutputsFrom (params : CChainParams) :
    List CTxOut → List ℤ → ℕ → ℤ → Except Failure (List ℤ × ℕ × ℤ)
  | [], dd_amounts, ddOutputCount, outputDD => .ok (dd_amounts, ddOutputCount, outputDD)
  | output :: rest, dd_amounts, ddOutputCount, outputDD =>
    if isOpReturn output.scriptPubKey = true ∨ output.nValue ≠ 0 then
      transferOutputsFrom params rest dd_amounts ddOutputCount outputDD
    else if output.scriptPubKey.length = 34 ∧ output.scriptPubKey.head? = some OP_1 ∧
        isCanonicalP2TROutput output.scriptPubKey = false then
      .error (.invalid "bad-dd-script" "DD output must be canonical P2TR")
    else if isCanonicalP2TROutput output.scriptPubKey then
      match dd_amounts with
      | [] => .error (.invalid "transfer-dd-output-amount-mismatch")
      | ddAmount :: dd_amounts => do
        checkTransferAmount params ddAmount
        transferOutputsFrom params rest dd_amounts (ddOutputCount + 1) (outputDD + ddAmount)
    else transferOutputsFrom params rest dd_amounts ddOutputCount outputDD

/-- One input from Thaw Day on: the new total and count. -/
def canonicalTransferInput (ctx : ValidationContext) (txin : CTxIn) (total : ℤ × ℕ) :
    Except Failure (ℤ × ℕ) :=
  match ctx.getCoin txin.prevout with
  | none => .error (.error "DigiDollar state not ready: token UTXO unavailable")
  | some coin =>
    if coin.out.nValue ≠ 0 then .ok total
    else do
      let ddAmt ← readCanonicalTokenAmount txin.prevout coin ctx
      match addDDAmount total.1 ddAmt with
      | none => .error (.invalid "bad-transfer-dd-input-amount")
      | some inputDD => .ok (inputDD, total.2 + 1)

/-- One input below Thaw Day: the transaction index first, then the block files. -/
def legacyTransferInput (ctx : ValidationContext) (node : NodeState) (txin : CTxIn)
    (total : ℤ × ℕ) : Except Failure (ℤ × ℕ) := do
  let token := (ctx.getCoin txin.prevout).filter fun coin => coin.out.nValue = 0
  rejectIf (∃ coin ∈ token, coin.nHeight = MEMPOOL_HEIGHT)
    (.invalid "dd-input-amounts-unknown" "Cannot spend unconfirmed DD inputs")
  rejectIf (∃ coin ∈ token, coinHeightMayCreateDigiDollar coin ctx = false)
    (.invalid "dd-input-before-activation"
      "Cannot spend pre-activation DD-looking data as DigiDollar")
  let indexed := (extractDDAmountFromPrevTx node txin.prevout).filter (0 < ·)
  let stored := (ctx.txLookup.bind fun lookup => token.bind fun coin =>
    extractDDAmountFromBlockDb txin.prevout coin.nHeight lookup).filter (0 < ·)
  match indexed.or stored with
  | some ddAmt => .ok (total.1 + ddAmt, total.2 + 1)
  | none => do
    rejectIf (token.isSome = true) (.invalid "dd-input-amounts-unknown"
      "Cannot verify DD conservation: input DD amount undetermined")
    .ok total

/-- The input loop; null prevouts are passed over here and rejected later. -/
def transferInputsFrom (ctx : ValidationContext) (node : NodeState) :
    List CTxIn → ℤ × ℕ → Except Failure (ℤ × ℕ)
  | [], total => .ok total
  | txin :: rest, total =>
    if txin.prevout.isNull then transferInputsFrom ctx node rest total
    else do
      let total ← if ctx.canonical then canonicalTransferInput ctx txin total
        else legacyTransferInput ctx node txin total
      transferInputsFrom ctx node rest total

/-- The two sides of the conservation law. -/
def checkTransferInputs (tx : CTransaction) (ctx : ValidationContext) (node : NodeState)
    (outputDD : ℤ) : Except Failure Unit := do
  rejectIf (tx.vin = []) (.invalid "transfer-no-inputs")
  let input ← transferInputsFrom ctx node tx.vin (0, 0)
  rejectIf (input.2 = 0) (.invalid "dd-input-amounts-unknown"
    "Cannot verify DD conservation: input DD amounts undetermined")
  let inputDD := input.1
  rejectIf (inputDD ≠ outputDD) (.invalid "transfer-dd-conservation-violation"
    s!"DD not conserved: input={inputDD}, output={outputDD}")
  rejectIf (∃ txin ∈ tx.vin, txin.prevout.isNull = true) (.invalid "transfer-invalid-input")

def validateTransferTransaction (tx : CTransaction) (ctx : ValidationContext) (node : NodeState) :
    Except Failure Unit := do
  rejectIf (hasDigiDollarMarker tx = false) (.invalid "transfer-missing-dd-marker")
  rejectIf (getDigiDollarTxType tx ≠ .transfer) (.invalid "transfer-wrong-tx-type")
  rejectIf (ctx.canonical = false ∧ ctx.skipOracleValidation = false ∧
    node.volatility.allOperationsFrozen = true) (.invalid "all-operations-frozen")
  let dd_amounts ← transferAmountsFrom tx.vout 0 []
  rejectIf (dd_amounts = []) (.invalid "transfer-no-op-return-data")
  let output ← transferOutputsFrom ctx.params tx.vout dd_amounts 0 0
  rejectIf (output.1 ≠ []) (.invalid "transfer-dd-output-amount-mismatch"
    "Transfer OP_RETURN amount count must match DD output count")
  rejectIf (output.2.1 = 0) (.invalid "transfer-no-dd-outputs")
  checkTransferInputs tx ctx node output.2.2

end DigiByte.DigiDollar
