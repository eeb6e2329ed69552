import DigiByte.DigiDollar.Economics

/-!
The `ChainstateHealth` record and its checked arithmetic
(`consensus/digidollar_state.h`). `addVault` and `removeVault` return the new
record, or `none` where the source returns false and leaves the record alone.
-/

set_option autoImplicit false
set_option relaxedAutoImplicit false

namespace DigiByte.DigiDollar

open Consensus

def UINT64_MAX : ℕ := 2 ^ 64 - 1

structure ChainstateHealth where
  format_version : ℕ := 1
  genesis_hash : ℕ := 0
  rules_version : ℕ := 1
  activation_height : ℤ := INT_MAX
  digidollar_height : ℤ := INT_MAX
  best_block : ℕ := 0
  open_vault_principal : ℤ := 0
  collateral : ℤ := 0
  active_vaults : ℕ := 0
  history_checked : Bool := false
  deriving DecidableEq, Repr

namespace ChainstateHealth

def isValid (s : ChainstateHealth) : Bool :=
  s.format_version = 1 && s.rules_version = 1 && 0 ≤ s.activation_height &&
    0 ≤ s.digidollar_height && s.genesis_hash ≠ 0 && s.best_block ≠ 0 &&
    0 ≤ s.open_vault_principal && moneyRange s.collateral &&
    (if s.active_vaults = 0 then s.open_vault_principal = 0 && s.collateral = 0
      else 0 < s.open_vault_principal && 0 < s.collateral)

/-- `Matches` with a genesis hash, a block and both activation heights. -/
def isMatch (s : ChainstateHealth) (genesis block : ℕ) (activation dd_activation : ℤ) : Bool :=
  s.isValid && s.genesis_hash = genesis && s.best_block = block &&
    s.activation_height = activation && s.digidollar_height = dd_activation

def addVault (s : ChainstateHealth) (principal value : ℤ) : Option ChainstateHealth :=
  if principal ≤ 0 ∨ value ≤ 0 ∨ moneyRange value = false ∨
      s.open_vault_principal < 0 ∨ s.collateral < 0 ∨
      principal > INT64_MAX - s.open_vault_principal ∨
      s.collateral > MAX_MONEY - value ∨ s.active_vaults = UINT64_MAX then none
  else some { s with
    open_vault_principal := s.open_vault_principal + principal
    collateral := s.collateral + value
    active_vaults := s.active_vaults + 1 }

/-- The last vault has to leave empty totals and any other one nonempty totals. -/
def removeVault (s : ChainstateHealth) (principal value : ℤ) : Option ChainstateHealth :=
  if principal ≤ 0 ∨ value ≤ 0 ∨ s.active_vaults = 0 ∨
      principal > s.open_vault_principal ∨ value > s.collateral then none
  else if (if s.active_vaults - 1 = 0 then
      principal ≠ s.open_vault_principal ∨ value ≠ s.collateral
      else principal = s.open_vault_principal ∨ value = s.collateral) then none
  else some { s with
    open_vault_principal := s.open_vault_principal - principal
    collateral := s.collateral - value
    active_vaults := s.active_vaults - 1 }

theorem digidollar_height_of_isMatch {s : ChainstateHealth} {genesis block : ℕ}
    {activation dd_activation : ℤ} (h : s.isMatch genesis block activation dd_activation = true) :
    0 ≤ dd_activation := by
  simp only [isMatch, isValid, Bool.and_eq_true, decide_eq_true_eq] at h
  omega

theorem isValid_of_isMatch {s : ChainstateHealth} {genesis block : ℕ}
    {activation dd_activation : ℤ} (h : s.isMatch genesis block activation dd_activation = true) :
    s.isValid = true := by
  simp only [isMatch, Bool.and_eq_true] at h
  exact h.1.1.1.1

end ChainstateHealth

end DigiByte.DigiDollar
