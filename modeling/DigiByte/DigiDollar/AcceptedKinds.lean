import DigiByte.DigiDollar.AcceptedMint
import DigiByte.DigiDollar.AcceptedRedemption
import DigiByte.DigiDollar.Dispatch

/-!
The four kinds of transactions that the dispatcher accepts from Thaw Day on.
Only a redemption may spend a vault.
-/

set_option autoImplicit false
set_option relaxedAutoImplicit false

namespace DigiByte.DigiDollar

open Consensus Script
open Library.Checks (rejectIf bind_eq_ok rejectIf_eq_ok)

/-- No input of the context is a vault, and none is undecided. -/
def SpendsNoVault (tx : CTransaction) (ctx : ValidationContext) : Prop :=
  ∀ txin ∈ tx.vin, ∀ coin, ctx.getCoin txin.prevout = some coin →
    lookupCanonicalVault txin.prevout coin ctx.params.consensus (contextTransactionLookup ctx) =
      .notVault

inductive AcceptedKind (curve : TaprootCurve) (tx : CTransaction) (ctx : ValidationContext)
    (node : NodeState) : Prop
  | plain (unmarked : hasDigiDollarMarker tx = false) (noVault : SpendsNoVault tx ctx)
  | mint (type : getDigiDollarTxType tx = .mint) (noVault : SpendsNoVault tx ctx)
      (valid : validateMintTransaction curve tx ctx node = .ok ())
  | transfer (type : getDigiDollarTxType tx = .transfer) (noVault : SpendsNoVault tx ctx)
      (valid : validateTransferTransaction tx ctx node = .ok ())
  | redeem (type : getDigiDollarTxType tx = .redeem)
      (valid : validateRedemptionTransaction tx ctx node = .ok ())

private theorem checkVaultInputs_mono {ctx : ValidationContext} {view : CoinsView}
    {vin : List CTxIn} {spends : Bool} (h : checkVaultInputs ctx view vin true = .ok spends) :
    spends = true := by
  induction vin with
  | nil =>
    cases h
    rfl
  | cons input rest ih =>
    unfold checkVaultInputs at h
    split at h
    · exact ih h
    · split at h
      · cases h
      · exact ih h
      · exact ih h

private theorem checkVaultInputs_eq_false {ctx : ValidationContext} {view : CoinsView}
    {vin : List CTxIn} (h : checkVaultInputs ctx view vin false = .ok false) :
    ∀ txin ∈ vin, ∀ coin, view.getCoin txin.prevout = some coin →
      lookupCanonicalVault txin.prevout coin ctx.params.consensus (contextTransactionLookup ctx) =
        .notVault := by
  induction vin with
  | nil => simp
  | cons input rest ih =>
    unfold checkVaultInputs at h
    intro txin member coin found
    split at h
    · rename_i missing
      rcases List.mem_cons.mp member with rfl | member
      · rw [missing] at found
        cases found
      · exact ih h txin member coin found
    · rename_i held
      split at h
      · cases h
      · cases checkVaultInputs_mono h
      · rename_i notVault
        rcases List.mem_cons.mp member with rfl | member
        · rw [held] at found
          cases found
          exact notVault
        · exact ih h txin member coin found

private theorem spendsNoVault_of_eq_false {tx : CTransaction} {ctx : ValidationContext}
    {node : NodeState} (active : ctx.canonical = true)
    (h : spendsDigiDollarCollateralVault tx ctx node = false) : SpendsNoVault tx ctx := by
  intro txin member coin found
  simp only [spendsDigiDollarCollateralVault, active, if_true] at h
  unfold checkCanonicalVaultInputs at h
  cases coins : ctx.coins with
  | none => simp [ValidationContext.getCoin, coins] at found
  | some view =>
    simp only [coins] at h
    have found : view.getCoin txin.prevout = some coin := by
      simpa [ValidationContext.getCoin, coins] using found
    split at h
    · cases h
    · rename_i spends checked
      subst h
      exact checkVaultInputs_eq_false checked txin member coin found

theorem acceptedKind_of_ok {curve : TaprootCurve} {tx : CTransaction} {ctx : ValidationContext}
    {node : NodeState} (active : ctx.canonical = true)
    (h : validateDigiDollarTransaction curve tx ctx node = .ok ()) :
    contextHealthState ctx ≠ none ∧ AcceptedKind curve tx ctx node := by
  simp only [validateDigiDollarTransaction, active, if_true, bind_eq_ok] at h
  obtain ⟨_, inputs, h⟩ := h
  constructor
  · simp only [checkCanonicalInputs, bind_eq_ok, rejectIf_eq_ok] at inputs
    exact inputs.choose_spec.1
  · split_ifs at h with unmarked
    · have noVault := spendsNoVault_of_eq_false active (by simpa using rejectIf_eq_ok.mp h)
      exact .plain unmarked noVault
    · simp only [bind_eq_ok, rejectIf_eq_ok, not_and, Bool.not_eq_true] at h
      obtain ⟨_, spends, h⟩ := h
      unfold validateMarked at h
      split at h
      · rename_i type
        obtain ⟨_, _, valid⟩ := bind_eq_ok.mp h
        exact .mint type (spendsNoVault_of_eq_false active (spends (by simp [type]))) valid
      · rename_i type
        exact .transfer type (spendsNoVault_of_eq_false active (spends (by simp [type]))) h
      · rename_i type
        exact .redeem type h
      · cases h

theorem isMatch_of_contextHealthState {ctx : ValidationContext} {state : ChainstateHealth}
    (record : contextHealthState ctx = some state) :
    ∃ parent, ctx.candidateParent = some parent ∧
      state.isMatch ctx.params.consensus.hashGenesisBlock parent.hash
        ctx.params.consensus.nDDThawDayHeight ctx.params.consensus.DigiDollarHeight = true := by
  unfold contextHealthState at record
  split at record
  · rename_i parent _ found
    split at record
    · cases record
    · dsimp only at record
      split_ifs at record with mismatch
      cases record
      rw [not_or, Bool.not_eq_false] at mismatch
      exact ⟨parent, found, mismatch.1⟩
  · cases record

theorem digidollarHeight_nonneg {ctx : ValidationContext} (ready : contextHealthState ctx ≠ none) :
    0 ≤ ctx.params.consensus.DigiDollarHeight := by
  obtain ⟨state, record⟩ := Option.ne_none_iff_exists'.mp ready
  obtain ⟨_, _, same⟩ := isMatch_of_contextHealthState record
  exact ChainstateHealth.digidollar_height_of_isMatch same

end DigiByte.DigiDollar
