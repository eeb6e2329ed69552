import DigiByte.DigiDollar.VaultTotals
import DigiByte.DigiDollar.Dispatch
import Mathlib.Data.List.Forall2

/-!
Incremental accounting against the rebuild.

A ledger is a UTXO set, the health record kept beside it and the undo data of the
transactions applied so far. Applying and undoing follow `ConnectBlock` and
`DisconnectBlock` for one transaction; a failed update keeps the ledger.
-/

set_option autoImplicit false
set_option relaxedAutoImplicit false

namespace DigiByte.DigiDollar

open Consensus Script
open Library.FinmapTotal Library.Checks

/-- A connected transaction with its height and its `CTxUndo` coins. -/
structure AppliedTx where
  tx : CTransaction
  height : ℕ
  spent : List Coin

structure Ledger where
  utxo : UtxoSet
  health : ChainstateHealth
  applied : List AppliedTx := []

/-- The coins that `UpdateCoins` moves to the undo data. -/
def spentCoins (utxo : UtxoSet) (tx : CTransaction) : List Coin :=
  (spentOutpoints tx).filterMap utxo.lookup

/-- Remove the outputs, then restore the inputs from the last one on. -/
def disconnect (utxo : UtxoSet) (entry : AppliedTx) : UtxoSet :=
  insertAll (eraseAll utxo ((newCoins entry.tx entry.height).map Prod.fst))
    ((spentOutpoints entry.tx).zip entry.spent).reverse

namespace Ledger

def applyTx (params : Params) (lookup : CanonicalTxLookup) (s : Ledger) (tx : CTransaction)
    (height : ℕ) : Ledger × Bool :=
  let spent := spentCoins s.utxo tx
  match updateChainstateHealth tx spent params lookup s.health false height with
  | (health, true) => (⟨connect s.utxo tx height, health, ⟨tx, height, spent⟩ :: s.applied⟩, true)
  | (health, false) => ({ s with health }, false)

def undoTx (params : Params) (lookup : CanonicalTxLookup) (s : Ledger) (last : AppliedTx) :
    Ledger × Bool :=
  match updateChainstateHealth last.tx last.spent params lookup s.health true last.height with
  | (health, true) => (⟨disconnect s.utxo last, health, s.applied.tail⟩, true)
  | (health, false) => ({ s with health }, false)

end Ledger

/-- A transaction that may be applied: a new identifier, distinct inputs from the
set, known to the lookup at its height, and accepted unless it is a coinbase. -/
structure Applicable (curve : TaprootCurve) (params : Params) (lookup : CanonicalTxLookup)
    (utxo : UtxoSet) (tx : CTransaction) (height : ℕ) : Prop where
  fresh : ∀ n, utxo.lookup ⟨tx.hash, n⟩ = none
  present : ∀ outpoint ∈ spentOutpoints tx, outpoint ∈ utxo
  distinct : (spentOutpoints tx).Nodup
  recorded : lookup tx.hash height = some tx
  accepted : tx.isCoinBase = false → params.DigiDollarHeight ≤ height ∧
    ∃ (ctx : ValidationContext) (node : NodeState), ctx.params.consensus = params ∧
      ctx.nHeight = height ∧ validateDigiDollarTransaction curve tx ctx node = .ok ()

/-- One step, with the set it leads to when it succeeds and its outcome. -/
inductive LedgerStep (curve : TaprootCurve) (params : Params) (lookup : CanonicalTxLookup) :
    Ledger → UtxoSet → Ledger × Bool → Prop
  | apply {s : Ledger} {tx : CTransaction} {height : ℕ}
      (applicable : Applicable curve params lookup s.utxo tx height) :
      LedgerStep curve params lookup s (connect s.utxo tx height)
        (s.applyTx params lookup tx height)
  | undo {s : Ledger} {last : AppliedTx} {rest : List AppliedTx}
      (latest : s.applied = last :: rest) :
      LedgerStep curve params lookup s (disconnect s.utxo last) (s.undoTx params lookup last)

inductive LedgerRun (curve : TaprootCurve) (params : Params) (lookup : CanonicalTxLookup)
    (start : Ledger) : Ledger → Prop
  | refl : LedgerRun curve params lookup start start
  | step {s : Ledger} {target : UtxoSet} {outcome : Ledger × Bool}
      (before : LedgerRun curve params lookup start s)
      (step : LedgerStep curve params lookup s target outcome) :
      LedgerRun curve params lookup start outcome.1

/-- Every coin's creating transaction can be looked up. -/
def CreatorsKnown (lookup : CanonicalTxLookup) (utxo : UtxoSet) : Prop :=
  ∀ outpoint coin, utxo.lookup outpoint = some coin →
    ∃ creating, creatingTransaction lookup outpoint coin = some creating

/-- A cursor order of the set. -/
def Enumerates (coins : List (COutPoint × Coin)) (utxo : UtxoSet) : Prop :=
  utxo.entries = coins.map fun e => (⟨e.1, e.2⟩ : Sigma fun _ : COutPoint => Coin)

/-- The totals over all coins of the set. -/
def utxoTotals (params : Params) (lookup : CanonicalTxLookup) (utxo : UtxoSet) : Totals :=
  total (coinTotals params lookup) utxo

section Runs

variable {curve : TaprootCurve} {params : Params} {lookup : CanonicalTxLookup}

/-! The update of one transaction. -/

private theorem accounted_of_ok {tx : CTransaction} {ctx : ValidationContext} {node : NodeState}
    (accepted : validateDigiDollarTransaction curve tx ctx node = .ok ()) : Accounted tx := by
  intro mint
  have marked := hasDigiDollarMarker_of_type mint (by simp)
  simp only [validateDigiDollarTransaction, validateMarked, marked, mint, Bool.true_eq_false,
    if_false, bind_eq_ok] at accepted
  obtain ⟨_, _, _, _, _, _, valid⟩ := accepted
  obtain ⟨_, _, _, acceptedMint⟩ := acceptedMint_of_ok valid
  simp [acceptedMint.accounting mint]

private theorem Applicable.accounted {utxo : UtxoSet} {tx : CTransaction} {height : ℕ}
    (applicable : Applicable curve params lookup utxo tx height)
    (notCoinbase : tx.isCoinBase = false) :
    Accounted tx := by
  obtain ⟨_, _, _, _, _, accepted⟩ := applicable.accepted notCoinbase
  exact accounted_of_ok accepted

theorem utxoTotals_mem (utxo : UtxoSet) : utxoTotals params lookup utxo ∈ vaultTotals :=
  vaultTotals.multiset_sum_mem _ fun t member => by
    obtain ⟨e, _, rfl⟩ := Multiset.mem_map.mp member
    exact coinTotals_mem e.1 e.2

theorem spentCoins_paired {utxo : UtxoSet} {tx : CTransaction}
    (notCoinbase : tx.isCoinBase = false)
    (present : ∀ outpoint ∈ spentOutpoints tx, outpoint ∈ utxo) :
    List.Forall₂ (fun (input : CTxIn) coin => utxo.lookup input.prevout = some coin) tx.vin
      (spentCoins utxo tx) := by
  simp only [spentCoins, spentOutpoints, notCoinbase, Bool.false_eq_true, if_false] at present ⊢
  generalize tx.vin = vin at present
  induction vin with
  | nil => exact .nil
  | cons input vin ih =>
    obtain ⟨coin, held⟩ := Finmap.mem_iff.mp (present input.prevout (by simp))
    simp only [List.map_cons, List.filterMap_cons, held]
    exact .cons held (ih fun outpoint member => present outpoint (by simp_all))

section Update

variable {utxo : UtxoSet} {tx : CTransaction} {height : ℕ} (health : ChainstateHealth)

theorem sum_spentCoins {M : Type} [AddCommMonoid M] (weight : COutPoint → Coin → M)
    {vin : List CTxIn} {spent : List Coin}
    (paired : List.Forall₂ (fun (input : CTxIn) coin => utxo.lookup input.prevout = some coin)
      vin spent) :
    ((vin.zip spent).map fun e => weight e.1.prevout e.2).sum =
      ((vin.map CTxIn.prevout).map (weightAt weight utxo)).sum := by
  induction paired with
  | nil => rfl
  | cons held _ ih => simp [ih, weightAt, held]

theorem sum_spent_mem (inputs : List (CTxIn × Coin)) :
    (inputs.map fun e => coinTotals params lookup e.1.prevout e.2).sum ∈ vaultTotals :=
  vaultTotals.list_sum_mem fun t member => by
    obtain ⟨e, _, rfl⟩ := List.mem_map.mp member
    exact coinTotals_mem e.1.prevout e.2

private theorem ready_of_paired {vin : List CTxIn} {spent : List Coin}
    (known : CreatorsKnown lookup utxo)
    (paired : List.Forall₂ (fun (input : CTxIn) coin => utxo.lookup input.prevout = some coin)
      vin spent) :
    ∀ e ∈ vin.zip spent, Ready params lookup (e.1.prevout, e.2) := by
  intro e member
  obtain ⟨creating, created⟩ := known _ _ (List.forall₂_iff_zip.mp paired |>.2 member)
  exact ready_of_created created

theorem utxoTotals_coinbase (fresh : ∀ n, utxo.lookup ⟨tx.hash, n⟩ = none)
    (recorded : lookup tx.hash height = some tx) (coinbase : tx.isCoinBase = true) :
    utxoTotals params lookup (connect utxo tx height) = utxoTotals params lookup utxo := by
  rw [utxoTotals, total_connect_new _ height fresh, sum_coinTotals_newCoins recorded,
    if_pos coinbase, zero_add, spentOutpoints, if_pos coinbase]
  rfl

theorem utxoTotals_parts (fresh : ∀ n, utxo.lookup ⟨tx.hash, n⟩ = none)
    (present : ∀ outpoint ∈ spentOutpoints tx, outpoint ∈ utxo)
    (distinct : (spentOutpoints tx).Nodup)
    (recorded : lookup tx.hash height = some tx) (notCoinbase : tx.isCoinBase = false) :
    ∃ rest ∈ vaultTotals,
      utxoTotals params lookup (connect utxo tx height) = mintTotals params tx height + rest ∧
      utxoTotals params lookup utxo = ((tx.vin.zip (spentCoins utxo tx)).map fun e =>
        coinTotals params lookup e.1.prevout e.2).sum + rest := by
  have paired := spentCoins_paired notCoinbase present
  refine ⟨utxoTotals params lookup (eraseAll utxo (spentOutpoints tx)), utxoTotals_mem _, ?_, ?_⟩
  · rw [utxoTotals, total_connect_new _ height fresh, sum_coinTotals_newCoins recorded,
      if_neg (by simp [notCoinbase])]
    rfl
  · rw [utxoTotals, total_eraseAll _ distinct present, sum_spentCoins _ paired]
    simp only [spentOutpoints, notCoinbase, Bool.false_eq_true, if_false]
    rfl

private theorem update_apply (known : CreatorsKnown lookup utxo)
    (applicable : Applicable curve params lookup utxo tx height)
    (exactly : health.totals = utxoTotals params lookup utxo) (fits : Fits health.totals) :
    updateChainstateHealth tx (spentCoins utxo tx) params lookup health false height =
      let next := utxoTotals params lookup (connect utxo tx height)
      if Fits next then (health.withTotals next, true) else (health, false) := by
  unfold updateChainstateHealth
  by_cases coinbase : tx.isCoinBase = true
  · simp [coinbase, utxoTotals_coinbase applicable.fresh applicable.recorded coinbase,
      ← exactly, fits]
  · rw [Bool.not_eq_true] at coinbase
    have paired := spentCoins_paired coinbase applicable.present
    obtain ⟨rest, sound, after, held⟩ := utxoTotals_parts applicable.fresh applicable.present
      applicable.distinct applicable.recorded coinbase
    rw [← exactly] at held
    have restFits : Fits rest := by
      rw [held] at fits
      exact fits.of_add (sum_spent_mem _)
    simp only [coinbase, Bool.false_eq_true, if_false]
    rw [if_neg (by simp [paired.length_eq]),
      updateInputs_spend (ready_of_paired known paired) sound held, Option.bind_some,
      updateMint_add (applicable.accounted coinbase) (by simpa using sound)
        (by simpa using restFits),
      after]
    simp only [ChainstateHealth.totals_withTotals, ChainstateHealth.withTotals_withTotals]
    split_ifs with next <;> simp [next]

private theorem update_undo (known : CreatorsKnown lookup utxo)
    (applicable : Applicable curve params lookup utxo tx height)
    (exactly : health.totals = utxoTotals params lookup (connect utxo tx height))
    (fits : Fits health.totals) :
    updateChainstateHealth tx (spentCoins utxo tx) params lookup health true height =
      let next := utxoTotals params lookup utxo
      if Fits next then (health.withTotals next, true) else (health, false) := by
  unfold updateChainstateHealth
  by_cases coinbase : tx.isCoinBase = true
  · simp [coinbase, ← utxoTotals_coinbase applicable.fresh applicable.recorded coinbase, ← exactly,
      fits]
  · rw [Bool.not_eq_true] at coinbase
    have paired := spentCoins_paired coinbase applicable.present
    have accounted := applicable.accounted coinbase
    obtain ⟨rest, sound, held, before⟩ := utxoTotals_parts applicable.fresh applicable.present
      applicable.distinct applicable.recorded coinbase
    rw [← exactly] at held
    have restFits : Fits rest := by
      rw [held] at fits
      exact fits.of_add (mintTotals_mem accounted)
    have ready : ∀ e ∈ (tx.vin.zip (spentCoins utxo tx)).map fun e => (e.1.prevout, e.2),
        Ready params lookup e := by
      intro e member
      obtain ⟨input, listed, rfl⟩ := List.mem_map.mp member
      exact ready_of_paired known paired input listed
    simp only [coinbase, Bool.false_eq_true, if_false]
    rw [if_neg (by simp [paired.length_eq]), if_pos trivial, updateMint_undo accounted sound held,
      Option.bind_some, updateInputs_undo,
      rebuildFrom_eq ready (by simpa using sound) (by simpa using restFits), before]
    simp only [ChainstateHealth.totals_withTotals, ChainstateHealth.withTotals_withTotals,
      List.map_map, Function.comp_def]
    split_ifs <;> rfl

end Update

/-! Disconnecting restores the set. -/

private theorem disconnect_connect {utxo : UtxoSet} {tx : CTransaction} {height : ℕ}
    (applicable : Applicable curve params lookup utxo tx height) :
    disconnect (connect utxo tx height) ⟨tx, height, spentCoins utxo tx⟩ = utxo := by
  have unused : ∀ e ∈ newCoins tx height, (eraseAll utxo (spentOutpoints tx)).lookup e.1 =
      none := by
    rintro ⟨⟨hash, n⟩, coin⟩ member
    obtain ⟨rfl, _⟩ := mem_newCoins.mp member
    rw [lookup_eraseAll]
    split_ifs
    · rfl
    · exact applicable.fresh n
  have paired : List.Forall₂ (fun outpoint coin => utxo.lookup outpoint = some coin)
      (spentOutpoints tx) (spentCoins utxo tx) := by
    cases coinbase : tx.isCoinBase with
    | true => simp [spentCoins, spentOutpoints, coinbase]
    | false =>
      simpa [spentOutpoints, coinbase, List.forall₂_map_left_iff] using
        spentCoins_paired coinbase applicable.present
  have keys : ((spentOutpoints tx).zip (spentCoins utxo tx)).map Prod.fst = spentOutpoints tx := by
    rw [List.map_fst_zip]
    exact paired.length_eq.le
  unfold disconnect connect
  rw [eraseAll_insertAll unused]
  refine insertAll_eraseAll ?_ ?_ ?_
  · rw [List.map_reverse, keys, List.nodup_reverse]
    exact applicable.distinct
  · intro k
    rw [List.map_reverse, keys, List.mem_reverse]
  · intro e member
    exact (List.forall₂_iff_zip.mp paired).2 (List.mem_reverse.mp member)

/-! Runs. -/

/-- Undo data that leads back through sets from which it was taken. -/
inductive Restorable (curve : TaprootCurve) (params : Params) (lookup : CanonicalTxLookup) :
    UtxoSet → List AppliedTx → Prop
  | nil {utxo : UtxoSet} : Restorable curve params lookup utxo []
  | cons {utxo : UtxoSet} {tx : CTransaction} {height : ℕ} {stack : List AppliedTx}
      (known : CreatorsKnown lookup utxo)
      (applicable : Applicable curve params lookup utxo tx height)
      (below : Restorable curve params lookup utxo stack) :
      Restorable curve params lookup (connect utxo tx height)
        (⟨tx, height, spentCoins utxo tx⟩ :: stack)

private theorem Restorable.top {utxo : UtxoSet} {last : AppliedTx} {rest : List AppliedTx}
    (h : Restorable curve params lookup utxo (last :: rest)) :
    ∃ previous, CreatorsKnown lookup previous ∧
      Applicable curve params lookup previous last.tx last.height ∧
      Restorable curve params lookup previous rest ∧
      utxo = connect previous last.tx last.height ∧ last.spent = spentCoins previous last.tx := by
  cases h with
  | cons known applicable below => exact ⟨_, known, applicable, below, rfl, rfl⟩

structure LedgerInvariant (curve : TaprootCurve) (params : Params) (lookup : CanonicalTxLookup)
    (s : Ledger) : Prop where
  known : CreatorsKnown lookup s.utxo
  exactly : s.health.totals = utxoTotals params lookup s.utxo
  fits : Fits s.health.totals
  restorable : Restorable curve params lookup s.utxo s.applied

theorem CreatorsKnown.connect {utxo : UtxoSet} {tx : CTransaction} {height : ℕ}
    (known : CreatorsKnown lookup utxo) (recorded : lookup tx.hash height = some tx) :
    CreatorsKnown lookup (connect utxo tx height) := by
  rintro ⟨hash, n⟩ ⟨out, coinbase, at_height⟩ found
  rcases lookup_connect found with added | kept
  · obtain ⟨rfl, rfl, rfl, at_n, _⟩ := mem_newCoins.mp added
    exact ⟨tx, creatingTransaction_new recorded at_n⟩
  · exact known _ _ kept

private theorem ledgerStep_cases {s : Ledger} {target : UtxoSet} {outcome : Ledger × Bool}
    (invariant : LedgerInvariant curve params lookup s)
    (step : LedgerStep curve params lookup s target outcome) :
    (¬ Fits (utxoTotals params lookup target) ∧ outcome = (s, false)) ∨
    ∃ stack, Fits (utxoTotals params lookup target) ∧ CreatorsKnown lookup target ∧
      Restorable curve params lookup target stack ∧
      outcome = (⟨target, s.health.withTotals (utxoTotals params lookup target), stack⟩, true) := by
  obtain ⟨known, exactly, fits, restorable⟩ := invariant
  cases step with
  | @apply tx height applicable =>
    have update := update_apply s.health known applicable exactly fits
    unfold Ledger.applyTx
    by_cases next : Fits (utxoTotals params lookup (connect s.utxo tx height))
    · simp only [next, if_true] at update
      exact .inr ⟨_, next, known.connect applicable.recorded, .cons known applicable restorable,
        by simp only [update]⟩
    · simp only [next, if_false] at update
      exact .inl ⟨next, by simp only [update]⟩
  | @undo last _ latest =>
    rw [latest] at restorable
    obtain ⟨previous, before, applicable, below, same, spent⟩ := restorable.top
    have back : disconnect s.utxo last = previous := by
      have restored := disconnect_connect applicable
      rwa [← spent, ← same] at restored
    have update := update_undo s.health before applicable (exactly.trans (by rw [same])) fits
    rw [← spent] at update
    unfold Ledger.undoTx
    rw [back]
    by_cases next : Fits (utxoTotals params lookup previous)
    · simp only [next, if_true] at update
      exact .inr ⟨_, next, before, below, by simp only [update, latest, List.tail_cons]⟩
    · simp only [next, if_false] at update
      exact .inl ⟨next, by simp only [update]⟩

private theorem ledgerInvariant_step {s : Ledger} {target : UtxoSet} {outcome : Ledger × Bool}
    (invariant : LedgerInvariant curve params lookup s)
    (step : LedgerStep curve params lookup s target outcome) :
    LedgerInvariant curve params lookup outcome.1 := by
  rcases ledgerStep_cases invariant step with ⟨_, rfl⟩ | ⟨stack, fits, known, restorable, rfl⟩
  · exact invariant
  · exact ⟨known, rfl, fits, restorable⟩

private theorem ledgerInvariant_run {start s : Ledger}
    (initial : LedgerInvariant curve params lookup start)
    (run : LedgerRun curve params lookup start s) : LedgerInvariant curve params lookup s := by
  induction run with
  | refl => exact initial
  | step _ step ih => exact ledgerInvariant_step ih step

/-! The rebuild. -/

theorem sum_of_enumerates {M : Type} [AddCommMonoid M] (weight : COutPoint → Coin → M)
    {coins : List (COutPoint × Coin)} {utxo : UtxoSet} (order : Enumerates coins utxo) :
    (coins.map fun e => weight e.1 e.2).sum = total weight utxo := by
  rw [total, order, Multiset.map_coe, Multiset.sum_coe, List.map_map]
  rfl

theorem lookup_of_enumerates {coins : List (COutPoint × Coin)} {utxo : UtxoSet}
    (order : Enumerates coins utxo) {outpoint : COutPoint} {coin : Coin} :
    (outpoint, coin) ∈ coins ↔ utxo.lookup outpoint = some coin := by
  rw [Finmap.lookup_eq_some_iff, order, Multiset.mem_coe, List.mem_map]
  constructor
  · intro member
    exact ⟨(outpoint, coin), member, rfl⟩
  · rintro ⟨e, member, same⟩
    cases same
    exact member

private theorem ready_of_enumerates {coins : List (COutPoint × Coin)} {utxo : UtxoSet}
    (known : CreatorsKnown lookup utxo) (order : Enumerates coins utxo) :
    ∀ e ∈ coins, Ready params lookup e := by
  intro e member
  obtain ⟨creating, created⟩ := known _ _ ((lookup_of_enumerates order).mp member)
  exact ready_of_created created

/-- The record that the rebuild starts from. -/
def emptyRecord (params : Params) (best_block : ℕ) : ChainstateHealth :=
  { genesis_hash := params.hashGenesisBlock
    activation_height := params.nDDThawDayHeight
    digidollar_height := params.DigiDollarHeight
    best_block := best_block }

/-- The rebuild, whatever the cursor order, is the empty record with the totals of
the set; it fails when they do not fit or the record is not valid. -/
theorem reconstructChainstateHealth_eq {coins : List (COutPoint × Coin)} {utxo : UtxoSet}
    (known : CreatorsKnown lookup utxo) (order : Enumerates coins utxo) (best_block : ℕ) :
    reconstructChainstateHealth coins best_block params lookup =
      let rebuilt := (emptyRecord params best_block).withTotals (utxoTotals params lookup utxo)
      if best_block ≠ 0 ∧ Fits (utxoTotals params lookup utxo) ∧ rebuilt.isValid = true then
        some rebuilt
      else none := by
  have ready : ∀ e ∈ coins, Ready params lookup e := ready_of_enumerates known order
  have loop := rebuildFrom_eq ready
    (show (emptyRecord params best_block).totals ∈ vaultTotals from vaultTotals.zero_mem)
    (by decide : Fits (0, 0, 0))
  rw [sum_of_enumerates _ order, ← utxoTotals,
    show (emptyRecord params best_block).totals = 0 from rfl, add_zero] at loop
  simp only [emptyRecord] at loop ⊢
  simp only [reconstructChainstateHealth, loop]
  by_cases null : best_block = 0 <;> by_cases fits : Fits (utxoTotals params lookup utxo) <;>
    simp [null, fits]

end Runs

/-- Along every run the record holds the totals that a rebuild finds, in any
cursor order and at any block. A step succeeds when the totals of the set it leads
to are valid (and the principal is a `CAmount`), and a failed step keeps the
record. -/
theorem accounting_matches_reconstruction (curve : TaprootCurve) (params : Params)
    (lookup : CanonicalTxLookup) {start s : Ledger} {coins : List (COutPoint × Coin)}
    {best_block : ℕ} {rebuilt : ChainstateHealth} (unapplied : start.applied = [])
    (known : CreatorsKnown lookup start.utxo) (order : Enumerates coins start.utxo)
    (reconstructed : reconstructChainstateHealth coins best_block params lookup = some rebuilt)
    (same : start.health.totals = rebuilt.totals) (run : LedgerRun curve params lookup start s) :
    (∀ coins' block, Enumerates coins' s.utxo → block ≠ 0 →
      ∃ found, reconstructChainstateHealth coins' block params lookup = some found ∧
        s.health.totals = found.totals) ∧
    ∀ target outcome, LedgerStep curve params lookup s target outcome →
      ((rebuilt.withTotals (utxoTotals params lookup target)).isValid = true ∧
        (utxoTotals params lookup target).1 ≤ INT64_MAX → outcome.2 = true) ∧
      (outcome.2 = false → outcome.1.health = s.health) := by
  rw [reconstructChainstateHealth_eq known order] at reconstructed
  dsimp only at reconstructed
  split_ifs at reconstructed with first
  cases reconstructed
  obtain ⟨_, fits, valid⟩ := first
  rw [ChainstateHealth.totals_withTotals] at same
  have invariant : LedgerInvariant curve params lookup s := by
    have fitsStart : Fits start.health.totals := by
      rw [same]
      exact fits
    refine ledgerInvariant_run ⟨known, same, fitsStart, ?_⟩ run
    rw [unapplied]
    exact .nil
  constructor
  · intro coins' block order' nonnull
    have now := invariant.fits
    rw [invariant.exactly] at now
    have validNow :
        ((emptyRecord params block).withTotals (utxoTotals params lookup s.utxo)).isValid =
        true :=
      ChainstateHealth.isValid_withTotals valid nonnull (utxoTotals_mem s.utxo) now
    refine ⟨(emptyRecord params block).withTotals (utxoTotals params lookup s.utxo), ?_,
      invariant.exactly⟩
    rw [reconstructChainstateHealth_eq invariant.known order']
    exact if_pos ⟨nonnull, now, validNow⟩
  · intro target outcome step
    rcases ledgerStep_cases invariant step with ⟨excess, rfl⟩ | ⟨_, _, _, _, rfl⟩
    · refine ⟨fun ⟨valid, small⟩ => absurd ⟨small, ?_⟩ excess, fun _ => rfl⟩
      exact ChainstateHealth.collateral_le_of_isValid valid
    · exact ⟨fun _ => rfl, fun failed => by cases failed⟩

namespace Sample

/-- The coinbase whose output pays for the sample mint. -/
def coinbase : CTransaction :=
  { hash := 1
    nVersion := 1
    vin := [{ prevout := ⟨0, 0xffffffff⟩ }]
    vout := [⟨200000000000, []⟩]
    nLockTime := 0 }

def chainLookup : CanonicalTxLookup := fun hash height =>
  if hash = 1 ∧ height = 6 then some coinbase else lookup hash height

/-- An empty chain with its record. -/
def ledger : Ledger := ⟨∅, emptyRecord params.consensus 5, []⟩

def funded : Ledger := (ledger.applyTx params.consensus chainLookup coinbase 6).1
def minted : Ledger := (funded.applyTx params.consensus chainLookup mint 10).1

private theorem coinbase_applicable :
    Applicable curve params.consensus chainLookup ledger.utxo coinbase 6 where
  fresh n := by simp [ledger]
  present := by decide
  distinct := by decide
  recorded := rfl
  accepted spends := absurd spends (by decide)

private theorem funded_lookup (n : ℕ) : funded.utxo.lookup ⟨2, n⟩ = none := by
  have apart : (⟨2, n⟩ : COutPoint) ≠ ⟨1, 0⟩ := by simp
  change ((∅ : UtxoSet).insert ⟨1, 0⟩ _).lookup ⟨2, n⟩ = none
  rw [Finmap.lookup_insert_of_ne _ apart, Finmap.lookup_empty]

private theorem mint_applicable :
    Applicable curve params.consensus chainLookup funded.utxo mint 10 where
  fresh := funded_lookup
  present := by decide +kernel
  distinct := by decide
  recorded := rfl
  accepted _ := ⟨by decide, mintCtx, node, rfl, rfl, by decide +kernel⟩

/-- After the sample mint the rebuild finds the recorded vault, and the mint can be
undone. -/
theorem minted_matches_reconstruction :
    (∃ found, reconstructChainstateHealth
        [(⟨2, 0⟩, ⟨⟨100000000000, p2tr 7⟩, false, 10⟩), (⟨2, 1⟩, ⟨⟨0, p2tr 8⟩, false, 10⟩)] 9
        params.consensus chainLookup = some found ∧ minted.health.totals = found.totals) ∧
    minted.health.totals = (10000, 100000000000, 1) ∧
    (minted.undoTx params.consensus chainLookup ⟨mint, 10, spentCoins funded.utxo mint⟩).2 =
      true := by
  have run : LedgerRun curve params.consensus chainLookup ledger minted :=
    .step (.step .refl (.apply coinbase_applicable)) (.apply mint_applicable)
  have conclusion := accounting_matches_reconstruction curve params.consensus chainLookup rfl
    (by intro _ _ held; simp [ledger] at held) (show Enumerates [] ledger.utxo from rfl)
    (show reconstructChainstateHealth [] 5 params.consensus chainLookup =
      some (emptyRecord params.consensus 5) by decide +kernel) rfl run
  refine ⟨conclusion.1 _ 9 ?_ (by decide), by decide +kernel, ?_⟩
  · unfold Enumerates
    decide +kernel
  · exact (conclusion.2 _ _ (.undo rfl)).1 (by decide +kernel)

end Sample

end DigiByte.DigiDollar
