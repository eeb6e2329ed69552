import DigiByte.DigiDollar.Mint
import DigiByte.DigiDollar.Transfer
import DigiByte.DigiDollar.Redemption

/-!
`ValidateDigiDollarTransaction` of `digidollar/validation.cpp`.

The source also catches `scriptnum_error` around the three validators; each of
them catches it at every place that can throw, so no such branch remains.
-/

set_option autoImplicit false
set_option relaxedAutoImplicit false

namespace DigiByte.DigiDollar

open Consensus Script
open Library.Checks (rejectIf)

/-- Every confirmed token input of a marked transaction has a readable amount. -/
def checkTokenInputs (ctx : ValidationContext) (view : CoinsView) : List CTxIn → Except Failure Unit
  | [] => .ok ()
  | input :: rest =>
    match view.getCoin input.prevout with
    | none => checkTokenInputs ctx view rest
    | some coin =>
      if coin.out.nValue ≠ 0 ∨ isCanonicalP2TROutput coin.out.scriptPubKey = false ∨
          coin.nHeight = MEMPOOL_HEIGHT then checkTokenInputs ctx view rest
      else do
        let _ ← readCanonicalTokenAmount input.prevout coin ctx
        checkTokenInputs ctx view rest

/-- The readiness checks that precede everything from Thaw Day on. -/
def checkCanonicalInputs (tx : CTransaction) (ctx : ValidationContext) : Except Failure Unit := do
  rejectIf (contextHealthState ctx = none)
    (.error "DigiDollar state not ready: verify accounting for the candidate parent")
  match checkCanonicalVaultInputs tx ctx with
  | .error error => .error (.error error)
  | .ok _ =>
    match ctx.coins with
    | some view => if hasDigiDollarMarker tx then checkTokenInputs ctx view tx.vin else .ok ()
    | none => .ok ()

/-- Collateral may leave its vault only through a redemption. -/
def collateralSpendFailure : Failure :=
  .invalid "bad-collateral-spend-missing-dd-burn"
    "Collateral vault spends must be DigiDollar redemptions and burn the required DD"

/-- The checks on a mint that precede its validator. -/
def checkMintAllowed (ctx : ValidationContext) (node : NodeState) : Except Failure Unit := do
  rejectIf (0 < ctx.oraclePriceMicroUSD ∧ shouldBlockMintingDuringERR ctx node = true)
    (.invalid "minting-blocked-during-err")
  rejectIf (ctx.canonical = false ∧ 0 < ctx.oraclePriceMicroUSD ∧
      wouldCandidateFreezeMinting node.volatility ctx.oraclePriceMicroUSD = true)
    (.invalid "minting-frozen-volatility-candidate"
      "Candidate oracle price crosses mint volatility freeze threshold")

/-- A transaction with the marker, by type. -/
def validateMarked (curve : TaprootCurve) (tx : CTransaction) (ctx : ValidationContext)
    (node : NodeState) : Except Failure Unit :=
  match getDigiDollarTxType tx with
  | .mint => do
    checkMintAllowed ctx node
    validateMintTransaction curve tx ctx node
  | .transfer => validateTransferTransaction tx ctx node
  | .redeem => validateRedemptionTransaction tx ctx node
  | .none => .error (.invalid "bad-dd-tx-type")

def validateDigiDollarTransaction (curve : TaprootCurve) (tx : CTransaction)
    (ctx : ValidationContext) (node : NodeState) : Except Failure Unit := do
  (if ctx.canonical then checkCanonicalInputs tx ctx else .ok ())
  if hasDigiDollarMarker tx = false then
    rejectIf (spendsDigiDollarCollateralVault tx ctx node = true) collateralSpendFailure
  else do
    rejectIf (getDigiDollarTxType tx ≠ .redeem ∧ spendsDigiDollarCollateralVault tx ctx node = true)
      collateralSpendFailure
    validateMarked curve tx ctx node

end DigiByte.DigiDollar
