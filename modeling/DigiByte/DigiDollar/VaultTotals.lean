import DigiByte.DigiDollar.Chain
import Mathlib.Algebra.Group.Submonoid.BigOperators
import Mathlib.Algebra.Group.Prod

/-!
What the health accounting computes, as sums.

The three totals of a record form one sum over the vaults. A sum of vaults has
no zero total beside a nonzero one, so the consistency checks of `RemoveVault`
never refuse a vault that was counted, and `AddVault` refuses exactly the totals
that do not fit their fields.
-/

set_option autoImplicit false
set_option relaxedAutoImplicit false

namespace DigiByte.DigiDollar

open Consensus Script
open Library.FinmapTotal

/-- Principal, collateral and number of some vaults. -/
abbrev Totals := ℤ × ℤ × ℕ

def oneVault (principal collateral : ℤ) : Totals := (principal, collateral, 1)

/-- The sums of vaults with positive amounts. -/
def vaultTotals : AddSubmonoid Totals where
  carrier := {t | (t.2.2 : ℤ) ≤ t.1 ∧ (t.2.2 : ℤ) ≤ t.2.1 ∧ (t.2.2 = 0 → t.1 = 0 ∧ t.2.1 = 0)}
  zero_mem' := by simp
  add_mem' := by
    rintro ⟨p, c, n⟩ ⟨p', c', n'⟩ ⟨hp, hc, hz⟩ ⟨hp', hc', hz'⟩
    simp only [Set.mem_ofPred_eq, Prod.mk_add_mk] at *
    omega

theorem mem_vaultTotals {p c : ℤ} {n : ℕ} :
    (p, c, n) ∈ vaultTotals ↔ (n : ℤ) ≤ p ∧ (n : ℤ) ≤ c ∧ (n = 0 → p = 0 ∧ c = 0) :=
  Iff.rfl

/-- The principal fits `CAmount` and the collateral is in the money range. -/
def Fits (t : Totals) : Prop := t.1 ≤ INT64_MAX ∧ t.2.1 ≤ MAX_MONEY

instance (t : Totals) : Decidable (Fits t) := inferInstanceAs (Decidable (_ ∧ _))

theorem Fits.of_add {t u : Totals} (sound : t ∈ vaultTotals) (fits : Fits (t + u)) : Fits u := by
  obtain ⟨p, c, n⟩ := t
  obtain ⟨hp, hc, _⟩ := mem_vaultTotals.mp sound
  simp only [Fits, Prod.fst_add, Prod.snd_add] at fits ⊢
  omega

namespace ChainstateHealth

def totals (s : ChainstateHealth) : Totals :=
  (s.open_vault_principal, s.collateral, s.active_vaults)

def withTotals (s : ChainstateHealth) (t : Totals) : ChainstateHealth :=
  { s with open_vault_principal := t.1, collateral := t.2.1, active_vaults := t.2.2 }

@[simp] theorem totals_withTotals (s : ChainstateHealth)
    (t : Totals) : (s.withTotals t).totals = t :=
  rfl

@[simp] theorem withTotals_withTotals (s : ChainstateHealth) (t u : Totals) :
    (s.withTotals t).withTotals u = s.withTotals u :=
  rfl

@[simp] theorem withTotals_totals (s : ChainstateHealth) : s.withTotals s.totals = s := rfl

variable {s : ChainstateHealth} {principal value : ℤ}

theorem addVault_eq (positive : 0 < principal ∧ 0 < value) (sound : s.totals ∈ vaultTotals) :
    s.addVault principal value =
      if Fits (oneVault principal value + s.totals) then
        some (s.withTotals (oneVault principal value + s.totals))
      else none := by
  obtain ⟨hp, hc, _⟩ := mem_vaultTotals.mp sound
  have bounds : INT64_MAX = 9223372036854775807 ∧ MAX_MONEY = 2100000000000000000 ∧
      UINT64_MAX = 18446744073709551615 := by decide
  have refused : (principal ≤ 0 ∨ value ≤ 0 ∨ moneyRange value = false ∨
      s.open_vault_principal < 0 ∨ s.collateral < 0 ∨
      principal > INT64_MAX - s.open_vault_principal ∨
      s.collateral > MAX_MONEY - value ∨ s.active_vaults = UINT64_MAX) ↔
      ¬ Fits (oneVault principal value + s.totals) := by
    rw [← Bool.not_eq_true (moneyRange value), moneyRange_iff]
    simp only [Fits, oneVault, totals, Prod.mk_add_mk]
    omega
  unfold addVault
  simp only [refused, ite_not]
  simp [withTotals, oneVault, totals, add_comm]

theorem removeVault_eq {rest : Totals} (positive : 0 < principal ∧ 0 < value)
    (sound : rest ∈ vaultTotals) (held : s.totals = oneVault principal value + rest) :
    s.removeVault principal value = some (s.withTotals rest) := by
  obtain ⟨p, c, n⟩ := rest
  obtain ⟨hp, hc, hz⟩ := mem_vaultTotals.mp sound
  simp only [totals, oneVault, Prod.mk_add_mk, Prod.mk.injEq] at held
  obtain ⟨held_p, held_c, held_n⟩ := held
  unfold removeVault
  rw [if_neg (by omega), if_neg (by split_ifs <;> omega)]
  simp only [withTotals, Option.some.injEq, ChainstateHealth.mk.injEq, true_and, and_true]
  omega

private theorem isValid_iff : s.isValid = true ↔
    (s.format_version = 1 ∧ s.rules_version = 1 ∧ 0 ≤ s.activation_height ∧
      0 ≤ s.digidollar_height ∧ s.genesis_hash ≠ 0 ∧ s.best_block ≠ 0) ∧
    0 ≤ s.totals.1 ∧ 0 ≤ s.totals.2.1 ∧ s.totals.2.1 ≤ MAX_MONEY ∧
      if s.totals.2.2 = 0 then s.totals.1 = 0 ∧ s.totals.2.1 = 0
      else 0 < s.totals.1 ∧ 0 < s.totals.2.1 := by
  simp only [isValid, Bool.and_eq_true, decide_eq_true_eq, moneyRange_iff, totals]
  by_cases empty : s.active_vaults = 0
  · simp only [empty, if_true, Bool.and_eq_true, decide_eq_true_eq]
    tauto
  · simp only [empty, if_false, Bool.and_eq_true, decide_eq_true_eq]
    tauto

theorem isValid_withTotals {t : Totals} {block : ℕ} (valid : s.isValid = true) (nonnull : block ≠ 0)
    (sound : t ∈ vaultTotals) (fits : Fits t) :
    ({ s with best_block := block }.withTotals t).isValid = true := by
  obtain ⟨p, c, n⟩ := t
  obtain ⟨hp, hc, hz⟩ := mem_vaultTotals.mp sound
  have high : c ≤ MAX_MONEY := fits.2
  obtain ⟨⟨format, rules, activation, digidollar, genesis, _⟩, _⟩ := isValid_iff.mp valid
  refine isValid_iff.mpr ⟨⟨format, rules, activation, digidollar, genesis, nonnull⟩, ?_⟩
  change 0 ≤ p ∧ 0 ≤ c ∧ c ≤ MAX_MONEY ∧ if n = 0 then p = 0 ∧ c = 0 else 0 < p ∧ 0 < c
  split_ifs with empty
  · have := hz empty
    omega
  · omega

theorem collateral_le_of_isValid {t : Totals} (valid : (s.withTotals t).isValid = true) :
    t.2.1 ≤ MAX_MONEY :=
  (isValid_iff.mp valid).2.2.2.1

end ChainstateHealth

/-! The readers and the loops. -/

section Loops

variable (params : Params) (lookup : CanonicalTxLookup)

/-- The totals that one coin contributes. -/
def coinTotals (outpoint : COutPoint) (coin : Coin) : Totals :=
  vaultWeight oneVault params lookup outpoint coin

/-- No lookup of the entry asks for a block that is not there. -/
def Ready (e : COutPoint × Coin) : Prop :=
  ∀ error, lookupCanonicalVault e.1 e.2 params lookup ≠ .notReady error

variable {params lookup}

theorem ready_of_created {e : COutPoint × Coin} {creating : CTransaction}
    (created : creatingTransaction lookup e.1 e.2 = some creating) : Ready params lookup e := by
  intro error notReady
  unfold lookupCanonicalVault at notReady
  split_ifs at notReady
  rw [created] at notReady
  dsimp only at notReady
  split_ifs at notReady
  split at notReady
  · cases notReady
  · split_ifs at notReady

theorem canonicalVault_positive {outpoint : COutPoint} {coin : Coin} {vault : CanonicalVault}
    (h : lookupCanonicalVault outpoint coin params lookup = .vault vault) :
    0 < vault.principal ∧ 0 < vault.collateral := by
  obtain ⟨positive, value, creating, _, _, accounted⟩ := canonicalVault_cases h
  exact ⟨(extractMintAccountingAmounts_eq_some accounted).2.1, by omega⟩

theorem oneVault_mem {principal collateral : ℤ} (positive : 0 < principal ∧ 0 < collateral) :
    oneVault principal collateral ∈ vaultTotals :=
  mem_vaultTotals.mpr (by omega)

theorem coinTotals_mem (outpoint : COutPoint) (coin : Coin) :
    coinTotals params lookup outpoint coin ∈ vaultTotals := by
  unfold coinTotals vaultWeight
  split
  · rename_i isVault
    exact oneVault_mem (canonicalVault_positive isVault)
  · exact vaultTotals.zero_mem

theorem sum_coinTotals_mem (coins : List (COutPoint × Coin)) :
    (coins.map fun e => coinTotals params lookup e.1 e.2).sum ∈ vaultTotals :=
  vaultTotals.list_sum_mem fun t member => by
    obtain ⟨e, _, rfl⟩ := List.mem_map.mp member
    exact coinTotals_mem e.1 e.2

theorem coinTotals_congr {lookup' : CanonicalTxLookup} {outpoint : COutPoint} {coin : Coin}
    (same : lookup outpoint.hash coin.nHeight = lookup' outpoint.hash coin.nHeight) :
    coinTotals params lookup outpoint coin = coinTotals params lookup' outpoint coin := by
  simp only [coinTotals, vaultWeight, lookupCanonicalVault_congr same]

private theorem coinTotals_vault {outpoint : COutPoint} {coin : Coin} {vault : CanonicalVault}
    (h : lookupCanonicalVault outpoint coin params lookup = .vault vault) :
    coinTotals params lookup outpoint coin = oneVault vault.principal vault.collateral := by
  simp only [coinTotals, vaultWeight, h]

private theorem coinTotals_notVault {outpoint : COutPoint} {coin : Coin}
    (h : lookupCanonicalVault outpoint coin params lookup = .notVault) :
    coinTotals params lookup outpoint coin = 0 := by
  simp only [coinTotals, vaultWeight, h]

theorem rebuildFrom_eq {coins : List (COutPoint × Coin)} {s : ChainstateHealth}
    (ready : ∀ e ∈ coins, Ready params lookup e) (sound : s.totals ∈ vaultTotals)
    (fits : Fits s.totals) :
    rebuildFrom params lookup coins s =
      let sum := (coins.map fun e => coinTotals params lookup e.1 e.2).sum + s.totals
      if Fits sum then some (s.withTotals sum) else none := by
  induction coins generalizing s with
  | nil => simp [rebuildFrom, fits]
  | cons e coins ih =>
    obtain ⟨outpoint, coin⟩ := e
    have later : ∀ e ∈ coins, Ready params lookup e := fun e member => ready e (by simp [member])
    unfold rebuildFrom
    cases classified : lookupCanonicalVault outpoint coin params lookup with
    | notReady error => exact absurd classified (ready (outpoint, coin) (by simp) error)
    | notVault =>
      simp only [ih later sound fits, List.map_cons, List.sum_cons, coinTotals_notVault classified,
        zero_add]
    | vault v =>
      have positive := canonicalVault_positive classified
      have total :
          ((((outpoint, coin) :: coins).map fun e => coinTotals params lookup e.1 e.2).sum +
          s.totals) = (coins.map fun e => coinTotals params lookup e.1 e.2).sum +
            (oneVault v.principal v.collateral + s.totals) := by
        rw [List.map_cons, List.sum_cons, coinTotals_vault classified]
        ac_rfl
      simp only [ChainstateHealth.addVault_eq positive sound, total]
      by_cases one : Fits (oneVault v.principal v.collateral + s.totals)
      · simp only [if_pos one]
        exact ih later (vaultTotals.add_mem (oneVault_mem positive) sound) one
      · simp only [if_neg one]
        rw [if_neg fun all => one (all.of_add (sum_coinTotals_mem coins))]

/-- Undoing the inputs is a rebuild over the restored coins. -/
theorem updateInputs_undo (inputs : List (CTxIn × Coin)) (s : ChainstateHealth) :
    updateInputs params lookup true inputs s =
      rebuildFrom params lookup (inputs.map fun e => (e.1.prevout, e.2)) s := by
  induction inputs generalizing s with
  | nil => rfl
  | cons e inputs ih =>
    obtain ⟨input, coin⟩ := e
    simp only [updateInputs, List.map_cons, rebuildFrom, ih, if_true]

theorem updateInputs_spend {inputs : List (CTxIn × Coin)} {s : ChainstateHealth} {rest : Totals}
    (ready : ∀ e ∈ inputs, Ready params lookup (e.1.prevout, e.2)) (sound : rest ∈ vaultTotals)
    (held : s.totals =
      (inputs.map fun e => coinTotals params lookup e.1.prevout e.2).sum + rest) :
    updateInputs params lookup false inputs s = some (s.withTotals rest) := by
  induction inputs generalizing s with
  | nil =>
    simp only [List.map_nil, List.sum_nil, zero_add] at held
    simp [updateInputs, ← held]
  | cons e inputs ih =>
    obtain ⟨input, coin⟩ := e
    have later : ∀ e ∈ inputs, Ready params lookup (e.1.prevout, e.2) :=
      fun e member => ready e (by simp [member])
    rw [List.map_cons, List.sum_cons, add_assoc] at held
    unfold updateInputs
    cases classified : lookupCanonicalVault input.prevout coin params lookup with
    | notReady error => exact absurd classified (ready (input, coin) (by simp) error)
    | notVault =>
      rw [coinTotals_notVault classified, zero_add] at held
      exact ih later held
    | vault v =>
      rw [coinTotals_vault classified] at held
      have left : (inputs.map fun e => coinTotals params lookup e.1.prevout e.2).sum + rest ∈
          vaultTotals := by
        refine vaultTotals.add_mem ?_ sound
        simpa [Function.comp_def] using
          @sum_coinTotals_mem params lookup (inputs.map fun e => (e.1.prevout, e.2))
      simp only [if_neg Bool.false_ne_true,
        ChainstateHealth.removeVault_eq (canonicalVault_positive classified) left held]
      rw [ih later (ChainstateHealth.totals_withTotals _ _), ChainstateHealth.withTotals_withTotals]

end Loops

section Mints

variable {params : Params} {lookup : CanonicalTxLookup} {tx : CTransaction} {height : ℕ}

/-- The totals that a transaction adds by its outputs. -/
def mintTotals (params : Params) (tx : CTransaction) (height : ℕ) : Totals :=
  if params.DigiDollarHeight = INT_MAX ∨ height < toUint32 params.DigiDollarHeight then 0
  else mintWeight oneVault tx

/-- The accounting reader can read the transaction if it is a mint. -/
def Accounted (tx : CTransaction) : Prop :=
  getDigiDollarTxType tx = .mint → extractMintAccountingAmounts (fun _ => none) tx false ≠ none

private theorem accountedAmounts_positive {principal collateral : ℤ}
    (h : extractMintAccountingAmounts (fun _ => none) tx false = some (principal, collateral)) :
    0 < principal ∧ 0 < collateral := by
  obtain ⟨_, positive, out, single, rfl⟩ := extractMintAccountingAmounts_eq_some h
  have member : out ∈ tx.vout.filter isCollateralOutput := by simp [single]
  exact ⟨positive, (isCollateralOutput_iff.mp (List.mem_filter.mp member).2).1⟩

private theorem updateMint_cases (accounted : Accounted tx) :
    (mintTotals params tx height = 0 ∧
      ∀ undo s, updateMint tx params undo height s = some s) ∨
    ∃ principal collateral, 0 < principal ∧ 0 < collateral ∧
      mintTotals params tx height = oneVault principal collateral ∧
      ∀ undo s, updateMint tx params undo height s =
        if undo then s.removeVault principal collateral else s.addVault principal collateral := by
  by_cases early : params.DigiDollarHeight = INT_MAX ∨ height < toUint32 params.DigiDollarHeight
  · exact .inl ⟨if_pos early, fun _ _ => if_pos early⟩
  · simp only [mintTotals, updateMint, mintWeight, if_neg early]
    by_cases mint : getDigiDollarTxType tx = .mint
    · have marked := hasDigiDollarMarker_of_type mint (by simp)
      obtain ⟨⟨principal, collateral⟩, amounts⟩ := Option.ne_none_iff_exists'.mp (accounted mint)
      obtain ⟨hp, hc⟩ := accountedAmounts_positive amounts
      exact .inr ⟨principal, collateral, hp, hc,
        by simp only [amounts], by simp [marked, mint, amounts]⟩
    · exact .inl ⟨by simp only [extractMintAccountingAmounts_other mint], by simp [mint]⟩

theorem mintTotals_mem (accounted : Accounted tx) : mintTotals params tx height ∈ vaultTotals := by
  rcases @updateMint_cases params tx height accounted with ⟨zero, _⟩ | ⟨_, _, hp, hc, one, _⟩
  · rw [zero]
    exact vaultTotals.zero_mem
  · rw [one]
    exact oneVault_mem ⟨hp, hc⟩

theorem updateMint_add {s : ChainstateHealth} (accounted : Accounted tx)
    (sound : s.totals ∈ vaultTotals) (fits : Fits s.totals) :
    updateMint tx params false height s =
      let sum := mintTotals params tx height + s.totals
      if Fits sum then some (s.withTotals sum) else none := by
  rcases @updateMint_cases params tx height accounted with ⟨zero, step⟩ | ⟨_, _, hp, hc, one, step⟩
  · simp [zero, step, fits]
  · rw [one, step]
    exact ChainstateHealth.addVault_eq ⟨hp, hc⟩ sound

theorem updateMint_undo {s : ChainstateHealth} {rest : Totals} (accounted : Accounted tx)
    (sound : rest ∈ vaultTotals) (held : s.totals = mintTotals params tx height + rest) :
    updateMint tx params true height s = some (s.withTotals rest) := by
  rcases @updateMint_cases params tx height accounted with ⟨zero, step⟩ | ⟨_, _, hp, hc, one, step⟩
  · rw [zero, zero_add] at held
    rw [step, ← held, ChainstateHealth.withTotals_totals]
  · rw [one] at held
    rw [step, if_pos rfl]
    exact ChainstateHealth.removeVault_eq ⟨hp, hc⟩ sound held

theorem coinTotals_eq_zero {outpoint : COutPoint} {coin : Coin}
    (cannot : coinMayContainDigiDollar coin params = false) :
    coinTotals params lookup outpoint coin = 0 :=
  coinTotals_notVault (if_pos (.inl cannot))

theorem sum_coinTotals_newCoins (recorded : lookup tx.hash height = some tx) :
    ((newCoins tx height).map fun e => coinTotals params lookup e.1 e.2).sum =
      if tx.isCoinBase then 0 else mintTotals params tx height := by
  have vanish : (∀ e ∈ newCoins tx height, coinMayContainDigiDollar e.2 params = false) →
      ((newCoins tx height).map fun e => coinTotals params lookup e.1 e.2).sum = 0 := by
    intro cannot
    refine List.sum_eq_zero fun t member => ?_
    obtain ⟨e, listed, rfl⟩ := List.mem_map.mp member
    exact coinTotals_eq_zero (cannot e listed)
  split_ifs with coinbase
  · refine vanish fun e listed => ?_
    obtain ⟨_, flag, _⟩ := mem_newCoins.mp listed
    simp [coinMayContainDigiDollar, flag, coinbase]
  · by_cases early : params.DigiDollarHeight = INT_MAX ∨ height < toUint32 params.DigiDollarHeight
    · rw [mintTotals, if_pos early]
      refine vanish fun e listed => ?_
      obtain ⟨_, _, at_height, _⟩ := mem_newCoins.mp listed
      rw [← Bool.not_eq_true]
      simp only [coinMayContainDigiDollar, Bool.and_eq_true, decide_eq_true_eq, at_height]
      omega
    · rw [mintTotals, if_neg early]
      rw [not_or, not_lt] at early
      exact sum_vaultWeight_newCoins recorded oneVault (by simpa using coinbase) early.1 early.2

end Mints

end DigiByte.DigiDollar
