import DigiByte.DigiDollar.AcceptedMint
import DigiByte.DigiDollar.AcceptedTransfer
import DigiByte.Library.FinmapTotal

/-!
The UTXO set as transactions act on it (`UpdateCoins`, `AddCoins`), and what its
entries weigh: the principal and collateral of canonical vaults and the readable
amounts of tokens.

`lookup` gives the creating transaction of a coin; a weight reads nothing else
of the chain.
-/

set_option autoImplicit false
set_option relaxedAutoImplicit false

namespace DigiByte.DigiDollar

open Consensus Script
open Library.FinmapTotal

universe u

abbrev UtxoSet := Finmap fun _ : COutPoint => Coin

/-- The outputs of a transaction that enter the set; unspendable ones do not. -/
def newCoins (tx : CTransaction) (height : ℕ) : List (COutPoint × Coin) :=
  (tx.vout.zipIdx.filter fun p => !isUnspendable p.1.scriptPubKey).map fun p =>
    (⟨tx.hash, p.2⟩, ⟨p.1, tx.isCoinBase, height⟩)

def spentOutpoints (tx : CTransaction) : List COutPoint :=
  if tx.isCoinBase then [] else tx.vin.map CTxIn.prevout

/-- Spend the inputs, then add the outputs. -/
def connect (utxo : UtxoSet) (tx : CTransaction) (height : ℕ) : UtxoSet :=
  insertAll (eraseAll utxo (spentOutpoints tx)) (newCoins tx height)

section Weights

variable {M : Type u} [AddCommMonoid M]

/-- A measure of principal and collateral, on canonical vaults. -/
def vaultWeight (measure : ℤ → ℤ → M) (params : Params) (lookup : CanonicalTxLookup)
    (outpoint : COutPoint) (coin : Coin) : M :=
  match lookupCanonicalVault outpoint coin params lookup with
  | .vault v => measure v.principal v.collateral
  | _ => 0

/-- The same measure on what a new transaction locks. -/
def mintWeight (measure : ℤ → ℤ → M) (tx : CTransaction) : M :=
  match extractMintAccountingAmounts (fun _ => none) tx false with
  | some (principal, collateral) => measure principal collateral
  | none => 0

end Weights

/-- The readable amount of a token coin: a zero-value P2TR output, created at or
above the DigiDollar height by a marked transaction that is no coinbase. -/
def tokenWeight (params : Params) (lookup : CanonicalTxLookup) (outpoint : COutPoint)
    (coin : Coin) : ℤ :=
  if toUint32 params.DigiDollarHeight ≤ coin.nHeight ∧ isTokenOutput coin.out = true then
    match creatingTransaction lookup outpoint coin with
    | some creating => readableAmount creating outpoint.n
    | none => 0
  else 0

def principalTotal (params : Params) (lookup : CanonicalTxLookup) (utxo : UtxoSet) : ℤ :=
  total (vaultWeight (fun principal _ => principal) params lookup) utxo

def tokenTotal (params : Params) (lookup : CanonicalTxLookup) (utxo : UtxoSet) : ℤ :=
  total (tokenWeight params lookup) utxo

/-! Vaults. -/

theorem canonicalVault_cases {outpoint : COutPoint} {coin : Coin} {params : Params}
    {lookup : CanonicalTxLookup} {vault : CanonicalVault}
    (h : lookupCanonicalVault outpoint coin params lookup = .vault vault) :
    0 < coin.out.nValue ∧ vault.collateral = coin.out.nValue ∧
      ∃ creating, creatingTransaction lookup outpoint coin = some creating ∧
        getDigiDollarTxType creating = .mint ∧
        extractMintAccountingAmounts (fun _ => none) creating false =
          some (vault.principal, coin.out.nValue) := by
  unfold lookupCanonicalVault at h
  split_ifs at h with skip
  split at h
  · cases h
  · rename_i creating created
    split_ifs at h with other
    split at h
    · cases h
    · rename_i accounted
      split_ifs at h with value
      cases h
      refine ⟨by omega, not_not.mp value, creating, created, ?_, ?_⟩
      · exact (extractMintAccountingAmounts_eq_some accounted).1
      · rw [accounted, not_not.mp value]

theorem creatingTransaction_congr {lookup lookup' : CanonicalTxLookup} {outpoint : COutPoint}
    {coin : Coin} (same : lookup outpoint.hash coin.nHeight = lookup' outpoint.hash coin.nHeight) :
    creatingTransaction lookup outpoint coin = creatingTransaction lookup' outpoint coin := by
  simp only [creatingTransaction, same]

theorem lookupCanonicalVault_congr {lookup lookup' : CanonicalTxLookup} {outpoint : COutPoint}
    {coin : Coin} {params : Params}
    (same : lookup outpoint.hash coin.nHeight = lookup' outpoint.hash coin.nHeight) :
    lookupCanonicalVault outpoint coin params lookup =
      lookupCanonicalVault outpoint coin params lookup' := by
  simp only [lookupCanonicalVault, creatingTransaction_congr same]

/-! The new entries. -/

theorem mem_newCoins {tx : CTransaction} {height : ℕ} {e : COutPoint × Coin} :
    e ∈ newCoins tx height ↔ e.1.hash = tx.hash ∧ e.2.fCoinBase = tx.isCoinBase ∧
      e.2.nHeight = height ∧ tx.vout[e.1.n]? = some e.2.out ∧
      isUnspendable e.2.out.scriptPubKey = false := by
  obtain ⟨⟨hash, n⟩, ⟨out, coinbase, nHeight⟩⟩ := e
  simp only [newCoins, List.mem_map, List.mem_filter, Bool.not_eq_true', Prod.exists, Prod.mk.injEq,
    COutPoint.mk.injEq, Coin.mk.injEq, List.mem_zipIdx_iff_getElem?]
  constructor
  · rintro ⟨out', i, ⟨at_i, spendable⟩, ⟨rfl, rfl⟩, rfl, rfl, rfl⟩
    exact ⟨rfl, rfl, rfl, at_i, spendable⟩
  · rintro ⟨rfl, rfl, rfl, at_n, spendable⟩
    exact ⟨out, n, ⟨at_n, spendable⟩, ⟨rfl, rfl⟩, rfl, rfl, rfl⟩

theorem newCoins_distinct (tx : CTransaction) (height : ℕ) :
    ((newCoins tx height).map Prod.fst).Nodup := by
  have indices : ((tx.vout.zipIdx.filter fun p => !isUnspendable p.1.scriptPubKey).map
      Prod.snd).Nodup := by
    refine List.Nodup.sublist (List.filter_sublist.map Prod.snd) ?_
    rw [List.zipIdx_map_snd]
    exact List.nodup_range'
  have keys : (newCoins tx height).map Prod.fst =
      ((tx.vout.zipIdx.filter fun p => !isUnspendable p.1.scriptPubKey).map Prod.snd).map
        fun n => (⟨tx.hash, n⟩ : COutPoint) := by
    simp [newCoins, Function.comp_def]
  rw [keys]
  exact indices.map fun a b same => by simpa using same

/-- A sum over the new entries is a sum over all outputs, when the weights are a
function of the position that vanishes at unspendable outputs. -/
theorem sum_newCoins {M : Type u} [AddCommMonoid M] (tx : CTransaction) (height : ℕ)
    (weight : COutPoint → Coin → M) (value : CTxOut → ℕ → M)
    (spendable : ∀ n out, tx.vout[n]? = some out → isUnspendable out.scriptPubKey = false →
      weight ⟨tx.hash, n⟩ ⟨out, tx.isCoinBase, height⟩ = value out n)
    (unspendable : ∀ n out, tx.vout[n]? = some out → isUnspendable out.scriptPubKey = true →
      value out n = 0) :
    ((newCoins tx height).map fun e => weight e.1 e.2).sum =
      (tx.vout.zipIdx.map fun p => value p.1 p.2).sum := by
  have filtered : ∀ l : List (CTxOut × ℕ), (∀ p ∈ l, tx.vout[p.2]? = some p.1) →
      ((l.filter fun p => !isUnspendable p.1.scriptPubKey).map fun p =>
        weight ⟨tx.hash, p.2⟩ ⟨p.1, tx.isCoinBase, height⟩).sum =
      (l.map fun p => value p.1 p.2).sum := by
    intro l held
    induction l with
    | nil => rfl
    | cons p l ih =>
      have rest := ih fun q member => held q (by simp [member])
      have at_p := held p (by simp)
      cases shape : isUnspendable p.1.scriptPubKey with
      | false => simp [shape, rest, spendable p.2 p.1 at_p shape]
      | true => simp [shape, rest, unspendable p.2 p.1 at_p shape]
  have all := filtered tx.vout.zipIdx fun p member => List.mem_zipIdx_iff_getElem?.mp member
  rw [← all]
  simp [newCoins, Function.comp_def]

private theorem sum_ite_eq_sum_filter {α : Type} {M : Type u} [AddCommMonoid M] (l : List α)
    (p : α → Bool) (m : M) :
    (l.map fun a => if p a = true then m else 0).sum = ((l.filter p).map fun _ => m).sum := by
  induction l with
  | nil => rfl
  | cons a l ih =>
    cases h : p a <;> simp [h, ih]

section Connect

variable {M : Type u} [AddCommMonoid M] (weight : COutPoint → Coin → M) {utxo : UtxoSet}
  {tx : CTransaction} (height : ℕ)

theorem total_connect_new (fresh : ∀ n, utxo.lookup ⟨tx.hash, n⟩ = none) :
    total weight (connect utxo tx height) = ((newCoins tx height).map fun e => weight e.1 e.2).sum +
      total weight (eraseAll utxo (spentOutpoints tx)) := by
  refine total_insertAll weight (newCoins_distinct tx height) ?_
  rintro ⟨⟨hash, n⟩, coin⟩ member
  obtain ⟨rfl, _⟩ := mem_newCoins.mp member
  rw [← Finmap.lookup_eq_none, lookup_eraseAll]
  split_ifs
  · rfl
  · exact fresh n

theorem total_connect (distinct : (spentOutpoints tx).Nodup)
    (present : ∀ outpoint ∈ spentOutpoints tx, outpoint ∈ utxo)
    (fresh : ∀ n, utxo.lookup ⟨tx.hash, n⟩ = none) :
    total weight (connect utxo tx height) + ((spentOutpoints tx).map (weightAt weight utxo)).sum =
      total weight utxo + ((newCoins tx height).map fun e => weight e.1 e.2).sum := by
  rw [total_connect_new weight height fresh, total_eraseAll weight distinct present]
  ac_rfl

end Connect

theorem lookup_connect {utxo : UtxoSet} {tx : CTransaction} {height : ℕ} {outpoint : COutPoint}
    {coin : Coin} (found : (connect utxo tx height).lookup outpoint = some coin) :
    (outpoint, coin) ∈ newCoins tx height ∨ utxo.lookup outpoint = some coin := by
  rcases lookup_insertAll_cases (newCoins_distinct tx height) found with added | kept
  · exact .inl added
  · rw [lookup_eraseAll] at kept
    split_ifs at kept
    exact .inr kept

theorem lookup_connect_of_kept {utxo : UtxoSet} {tx : CTransaction} {height : ℕ}
    {outpoint : COutPoint} {coin : Coin} (fresh : ∀ n, utxo.lookup ⟨tx.hash, n⟩ = none)
    (unspent : outpoint ∉ spentOutpoints tx) (held : utxo.lookup outpoint = some coin) :
    (connect utxo tx height).lookup outpoint = some coin := by
  have old : outpoint ∉ (newCoins tx height).map Prod.fst := by
    intro member
    obtain ⟨⟨⟨hash, n⟩, coin'⟩, listed, rfl⟩ := List.mem_map.mp member
    obtain ⟨rfl, _⟩ := mem_newCoins.mp listed
    rw [fresh n] at held
    cases held
  rw [connect, lookup_insertAll_of_notMem old, lookup_eraseAll, if_neg unspent, held]

section NewWeights

variable {params : Params} {lookup : CanonicalTxLookup} {tx : CTransaction} {height : ℕ}
  (recorded : lookup tx.hash height = some tx)

include recorded

theorem creatingTransaction_new {n : ℕ} {out : CTxOut} (at_n : tx.vout[n]? = some out) :
    creatingTransaction lookup ⟨tx.hash, n⟩ ⟨out, tx.isCoinBase, height⟩ = some tx := by
  simp [creatingTransaction, recorded, at_n]

theorem sum_tokenWeight_newCoins (reached : toUint32 params.DigiDollarHeight ≤ height) :
    ((newCoins tx height).map fun e => tokenWeight params lookup e.1 e.2).sum =
      readableOutputs tx := by
  have indexed :=
    sum_newCoins tx height (tokenWeight params lookup) (fun _ n => readableAmount tx n)
    (by
      intro n out at_n _
      cases token : isTokenOutput out with
      | false => simp [tokenWeight, token, readableAmount_eq_zero at_n token]
      | true => simp [tokenWeight, token, reached, creatingTransaction_new recorded at_n])
    (by
      intro n out at_n shape
      refine readableAmount_eq_zero at_n ?_
      rw [← Bool.not_eq_true, isTokenOutput_iff]
      rintro ⟨_, p2tr⟩
      rw [isUnspendable_eq_false_of_p2tr p2tr] at shape
      cases shape)
  rw [indexed, readableOutputs, List.range_eq_range', ← List.zipIdx_map_snd, List.map_map]
  rfl

private theorem lookupCanonicalVault_new {n : ℕ} {out : CTxOut} (at_n : tx.vout[n]? = some out)
    (notCoinbase : tx.isCoinBase = false) (scheduled : params.DigiDollarHeight ≠ INT_MAX)
    (reached : toUint32 params.DigiDollarHeight ≤ height) :
    lookupCanonicalVault ⟨tx.hash, n⟩ ⟨out, tx.isCoinBase, height⟩ params lookup =
      match extractMintAccountingAmounts (fun _ => none) tx false with
      | some (principal, collateral) =>
        if isCollateralOutput out = true ∧ collateral = out.nValue then
          .vault ⟨⟨tx.hash, n⟩, principal, collateral⟩
        else .notVault
      | none => .notVault := by
  unfold lookupCanonicalVault
  by_cases shape : isCollateralOutput out = true
  · obtain ⟨positive, p2tr⟩ := isCollateralOutput_iff.mp shape
    have may : coinMayContainDigiDollar ⟨out, tx.isCoinBase, height⟩ params = true := by
      simp [coinMayContainDigiDollar, Coin.isSpent, notCoinbase, scheduled, reached, p2tr]
      omega
    rw [if_neg (by simp [may, positive]), creatingTransaction_new recorded at_n]
    cases accounted : extractMintAccountingAmounts (fun _ => none) tx false with
    | none =>
      simp only [accounted]
      split_ifs <;> rfl
    | some amounts =>
      obtain ⟨principal, collateral⟩ := amounts
      obtain ⟨mint, _, _⟩ := extractMintAccountingAmounts_eq_some accounted
      have marked := hasDigiDollarMarker_of_type mint (by simp)
      dsimp only
      rw [if_neg (by simp [marked, notCoinbase, mint])]
      by_cases same : collateral = out.nValue
      · simp [accounted, shape, same]
      · simp [accounted, same]
  · have skip : coinMayContainDigiDollar ⟨out, tx.isCoinBase, height⟩ params = false ∨
        out.nValue ≤ 0 := by
      by_contra candidate
      rw [not_or, Bool.not_eq_false, not_le] at candidate
      simp only [coinMayContainDigiDollar, Bool.and_eq_true] at candidate
      exact shape (isCollateralOutput_iff.mpr ⟨candidate.2, candidate.1.2⟩)
    rw [if_pos skip]
    split
    · simp [shape]
    · rfl

theorem sum_vaultWeight_newCoins {M : Type u} [AddCommMonoid M] (measure : ℤ → ℤ → M)
    (notCoinbase : tx.isCoinBase = false) (scheduled : params.DigiDollarHeight ≠ INT_MAX)
    (reached : toUint32 params.DigiDollarHeight ≤ height) :
    ((newCoins tx height).map fun e => vaultWeight measure params lookup e.1 e.2).sum =
      mintWeight measure tx := by
  unfold mintWeight
  have weigh := fun n out (at_n : tx.vout[n]? = some out) =>
    lookupCanonicalVault_new recorded at_n notCoinbase scheduled reached
  cases accounted : extractMintAccountingAmounts (fun _ => none) tx false with
  | none =>
    rw [sum_newCoins tx height (vaultWeight measure params lookup) (fun _ _ => 0)]
    · simp
    · intro n out at_n _
      simp [vaultWeight, weigh n out at_n, accounted]
    · intros
      rfl
  | some amounts =>
    obtain ⟨principal, collateral⟩ := amounts
    obtain ⟨_, _, vault, single, value⟩ := extractMintAccountingAmounts_eq_some accounted
    have unique : ∀ out ∈ tx.vout, isCollateralOutput out = true → collateral = out.nValue := by
      intro out member shape
      have : out ∈ tx.vout.filter isCollateralOutput := List.mem_filter.mpr ⟨member, shape⟩
      rw [single, List.mem_singleton] at this
      rw [this, value]
    rw [sum_newCoins tx height (vaultWeight measure params lookup)
      (fun out _ => if isCollateralOutput out = true then measure principal collateral else 0)]
    · have first : (tx.vout.zipIdx.map fun p =>
          if isCollateralOutput p.1 = true then measure principal collateral else 0) =
          tx.vout.map fun out =>
            if isCollateralOutput out = true then measure principal collateral else 0 := by
        conv_rhs => rw [← List.zipIdx_map_fst 0 tx.vout, List.map_map]
        rfl
      rw [first, sum_ite_eq_sum_filter, single]
      simp
    · intro n out at_n _
      have same := unique out (List.mem_of_getElem? at_n)
      by_cases shape : isCollateralOutput out = true
      · simp [vaultWeight, weigh n out at_n, accounted, shape, same shape]
      · simp [vaultWeight, weigh n out at_n, accounted, shape]
    · intro n out at_n unspendable
      refine if_neg fun shape => ?_
      rw [isUnspendable_eq_false_of_p2tr (isCollateralOutput_iff.mp shape).2] at unspendable
      cases unspendable

end NewWeights

end DigiByte.DigiDollar
