import DigiByte.Index.StatsIndex

/-!
The coins of a branch and what they count for: a known supply, and the collateral and
number of the vaults. The lemmas follow the loops of the index through the
transactions of one block.
-/

set_option autoImplicit false
set_option relaxedAutoImplicit false

namespace DigiByte.Index

open Consensus DigiDollar SupplyVerification
open Library.FinmapTotal

/-! Branches and their coins. -/

def connectTxs (utxo : UtxoSet) (height : ℕ) (txs : List CTransaction) : UtxoSet :=
  txs.foldl (fun utxo tx => connect utxo tx height) utxo

/-- The coins after the newest block; the outputs of genesis are none. -/
def branchUtxo : Branch → UtxoSet
  | [] => ∅
  | block :: parent => connectTxs (branchUtxo parent) (parent.length + 1) block.vtx

/-- Transactions that connect one after the other, with the coins they spend. -/
inductive Spends (height : ℕ) : UtxoSet → List (CTransaction × List Coin) → Prop
  | nil {utxo : UtxoSet} : Spends height utxo []
  | cons {utxo : UtxoSet} {tx : CTransaction} {rest : List (CTransaction × List Coin)}
      (spending : tx.isCoinBase = false) (fresh : ∀ n, utxo.lookup ⟨tx.hash, n⟩ = none)
      (present : ∀ outpoint ∈ spentOutpoints tx, outpoint ∈ utxo)
      (distinct : (spentOutpoints tx).Nodup) (later : Spends height (connect utxo tx height) rest) :
      Spends height utxo ((tx, spentCoins utxo tx) :: rest)

/-- A block that connects to a set of coins, with the undo data of doing so. -/
structure ValidBlock (utxo : UtxoSet) (height : ℕ) (block : StoredBlock) : Prop where
  range : (height : ℤ) < INT_MAX
  ids : (block.vtx.map CTransaction.hash).Nodup
  complete : block.vtxundo.length + 1 = block.vtx.length
  coinbase : ∃ tx rest, block.vtx = tx :: rest ∧ tx.isCoinBase = true ∧
    (∀ n, utxo.lookup ⟨tx.hash, n⟩ = none) ∧
    Spends height (connect utxo tx height) (rest.zip block.vtxundo)

inductive ValidBranch : Branch → Prop
  | genesis : ValidBranch []
  | extend {block : StoredBlock} {parent : Branch} (before : ValidBranch parent)
      (valid : ValidBlock (branchUtxo parent) (parent.length + 1) block) :
      ValidBranch (block :: parent)

/-! What the values count. -/

section Counts

variable (params : Params) (lookup : CanonicalTxLookup) (utxo : UtxoSet)

/-- A known supply is the tokens of a readable set. -/
def CountsSupply (state : ℤ × Bool) : Prop :=
  state.2 = true → AllReadable params lookup utxo ∧ state.1 = utxoTokens params lookup utxo ∧
    state.1 ≤ INT64_MAX

/-- Collateral and number of the vaults of the set. -/
def CountsVaults (state : ℤ × ℕ) : Prop :=
  state = (utxoTotals params lookup utxo).2 ∧ state.1 ≤ MAX_MONEY

end Counts

section Blocks

variable {params : Params} {lookup : CanonicalTxLookup} {utxo : UtxoSet} {tx : CTransaction}
  {height : ℕ}

/-! One transaction. -/

theorem counts_coinbase (coinbase : tx.isCoinBase = true)
    (fresh : ∀ n, utxo.lookup ⟨tx.hash, n⟩ = none) (recorded : lookup tx.hash height = some tx) :
    (∀ state, CountsSupply params lookup (connect utxo tx height) state ↔
      CountsSupply params lookup utxo state) ∧
    ∀ state, CountsVaults params lookup (connect utxo tx height) state ↔
      CountsVaults params lookup utxo state := by
  unfold CountsSupply CountsVaults
  rw [utxoTotals_coinbase fresh recorded coinbase, utxoTokens_coinbase fresh coinbase,
    allReadable_coinbase fresh coinbase]
  exact ⟨fun _ => Iff.rfl, fun _ => Iff.rfl⟩

private theorem appendInputs_eq_some {inputs : List (CTxIn × Coin)} {state next : ℤ × ℕ}
    (appended : appendInputs params lookup inputs state = some next) :
    state = (inputs.map fun e => coinTotals params lookup e.1.prevout e.2).sum.2 + next := by
  induction inputs generalizing state with
  | nil =>
    cases appended
    simp
  | cons e rest ih =>
    obtain ⟨txin, coin⟩ := e
    obtain ⟨collateral, vaults⟩ := state
    unfold appendInputs at appended
    rw [List.map_cons, List.sum_cons, Prod.snd_add, add_assoc]
    cases classified : lookupCanonicalVault txin.prevout coin params lookup with
    | notReady error => simp [classified] at appended
    | notVault =>
      simp only [classified] at appended
      simp only [coinTotals, vaultWeight, classified, Prod.snd_zero, zero_add]
      exact ih appended
    | vault v =>
      simp only [classified] at appended
      split_ifs at appended with short
      rw [← ih appended]
      simp only [coinTotals, vaultWeight, classified, oneVault, Prod.mk_add_mk, Prod.mk.injEq]
      omega

private theorem appendMint_eq_some {state next : ℤ × ℕ}
    (appended : appendMint tx state = some next) :
    next = (mintWeight oneVault tx).2 + state ∧ (state.1 ≤ MAX_MONEY → next.1 ≤ MAX_MONEY) := by
  obtain ⟨collateral, vaults⟩ := state
  unfold appendMint at appended
  unfold mintWeight
  by_cases mint : getDigiDollarTxType tx = .mint
  · simp only [hasDigiDollarMarker_of_type mint (by simp), mint, and_self, if_true] at appended
    cases accounted : extractMintAccountingAmounts (fun _ => none) tx false with
    | none => simp [accounted] at appended
    | some amounts =>
      simp only [accounted] at appended
      split_ifs at appended with range
      cases appended
      simp only [oneVault, Prod.mk_add_mk, Prod.mk.injEq]
      omega
  · simp only [mint, and_false, if_false] at appended
    cases appended
    simp [extractMintAccountingAmounts_other mint]

section Transaction

variable (spending : tx.isCoinBase = false) (fresh : ∀ n, utxo.lookup ⟨tx.hash, n⟩ = none)
  (present : ∀ outpoint ∈ spentOutpoints tx, outpoint ∈ utxo) (distinct : (spentOutpoints tx).Nodup)
  (recorded : lookup tx.hash height = some tx)

include spending fresh present distinct recorded

private theorem countsVaults_append (scheduled : params.DigiDollarHeight ≠ INT_MAX)
    (reached : toUint32 params.DigiDollarHeight ≤ height) {state spent next : ℤ × ℕ}
    (inputs : appendInputs params lookup (tx.vin.zip (spentCoins utxo tx)) state = some spent)
    (mint : appendMint tx spent = some next) (counts : CountsVaults params lookup utxo state) :
    CountsVaults params lookup (connect utxo tx height) next := by
  obtain ⟨rest, sound, after, before⟩ :=
    @utxoTotals_parts params lookup utxo tx height fresh present distinct recorded spending
  obtain ⟨exactly, bound⟩ := counts
  have spent_eq : spent = rest.2 := by
    have taken := appendInputs_eq_some inputs
    rw [exactly, before, Prod.snd_add] at taken
    exact (add_left_cancel taken).symm
  have spentBound : spent.1 ≤ MAX_MONEY := by
    have sums := appendInputs_eq_some inputs
    obtain ⟨_, low, _⟩ := @sum_spent_mem params lookup (tx.vin.zip (spentCoins utxo tx))
    have first := congrArg Prod.fst sums
    rw [Prod.fst_add] at first
    omega
  obtain ⟨minted, small⟩ := appendMint_eq_some mint
  refine ⟨?_, small spentBound⟩
  rw [after, minted, spent_eq, Prod.snd_add, mintTotals, if_neg]
  omega

private theorem countsSupply_append {state next : ℤ × Bool}
    (appended : appendSupply (getCirculatingSupplyChange tx (spentCoins utxo tx) height
      params lookup)
      state = some next)
    (counts : CountsSupply params lookup utxo state) :
    CountsSupply params lookup (connect utxo tx height) next := by
  obtain ⟨supply, known⟩ := state
  cases report : getCirculatingSupplyChange tx (spentCoins utxo tx) height params lookup with
  | failure error => simp [report, appendSupply] at appended
  | unknownMetadata error =>
    simp only [report, appendSupply, Option.some.injEq] at appended
    subst appended
    intro known
    cases known
  | known delta =>
    simp only [report, appendSupply] at appended
    split_ifs at appended with isKnown range
    · cases appended
      intro _
      obtain ⟨readable, exactly, _⟩ := counts isKnown
      rw [allReadable_connect fresh recorded present spending report,
        utxoTokens_connect fresh recorded present distinct spending report]
      dsimp only at exactly ⊢
      exact ⟨readable, by rw [exactly], by omega⟩
    · cases appended
      intro known
      cases known

end Transaction

/-! The transactions of a block. -/

theorem creatorsKnown_connectTxs {txs : List CTransaction} (known : CreatorsKnown lookup utxo)
    (recorded : ∀ tx ∈ txs, lookup tx.hash height = some tx) :
    CreatorsKnown lookup (connectTxs utxo height txs) := by
  induction txs generalizing utxo with
  | nil => exact known
  | cons tx rest ih =>
    exact ih (known.connect (recorded tx (by simp))) fun tx' member =>
      recorded tx' (by simp [member])

section Transactions

variable {entries : List (CTransaction × List Coin)}
  (recorded : ∀ e ∈ entries, lookup e.1.hash height = some e.1)
    (spends : Spends height utxo entries)

include recorded spends

theorem counts_appendTxs (scheduled : params.DigiDollarHeight ≠ INT_MAX)
    (reached : toUint32 params.DigiDollarHeight ≤ height) {supply supply' : ℤ × Bool}
    {vaults vaults' : ℤ × ℕ}
    (appended : appendTxs params lookup height entries (supply, vaults) = some (supply', vaults'))
    (countsSupply : CountsSupply params lookup utxo supply)
    (countsVaults : CountsVaults params lookup utxo vaults) :
    CountsSupply params lookup (connectTxs utxo height (entries.map Prod.fst)) supply' ∧
      CountsVaults params lookup (connectTxs utxo height (entries.map Prod.fst)) vaults' := by
  induction spends generalizing supply vaults with
  | nil =>
    cases appended
    exact ⟨countsSupply, countsVaults⟩
  | @cons utxo tx rest spending fresh present distinct later ih =>
    have here := recorded (tx, spentCoins utxo tx) (by simp)
    simp only [appendTxs, Option.bind_eq_bind, Option.bind_eq_some_iff] at appended
    obtain ⟨nextSupply, supplied, spent, inputs, nextVaults, mint, tail⟩ := appended
    exact ih (fun e member => recorded e (by simp [member])) tail
      (countsSupply_append spending fresh present distinct here supplied countsSupply)
      (countsVaults_append spending fresh present distinct here scheduled reached inputs mint
        countsVaults)

theorem changeLoop_known {change change' : ℤ} {known : Bool}
    (loop : changeLoop params lookup height entries (change, known) = some (change', true)) :
    known = true ∧
      (AllReadable params lookup (connectTxs utxo height (entries.map Prod.fst)) ↔
        AllReadable params lookup utxo) ∧
      utxoTokens params lookup (connectTxs utxo height (entries.map Prod.fst)) =
        utxoTokens params lookup utxo + (change' - change) := by
  induction spends generalizing change known with
  | nil =>
    cases loop
    simp [connectTxs]
  | @cons utxo tx rest spending fresh present distinct later ih =>
    have here := recorded (tx, spentCoins utxo tx) (by simp)
    have tail := fun e member => recorded e (List.mem_cons_of_mem (tx, spentCoins utxo tx) member)
    unfold changeLoop at loop
    cases report : getCirculatingSupplyChange tx (spentCoins utxo tx) height params lookup with
    | failure error => simp [report] at loop
    | unknownMetadata error =>
      simp only [report] at loop
      exact absurd (ih tail loop).1 (by simp)
    | known delta =>
      simp only [report] at loop
      obtain ⟨isKnown, readable, tokens⟩ := ih tail loop
      refine ⟨isKnown, ?_, ?_⟩
      · exact readable.trans (allReadable_connect fresh here present spending report)
      · rw [utxoTokens_connect fresh here present distinct spending report] at tokens
        rw [List.map_cons, connectTxs, List.foldl_cons, ← connectTxs, tokens]
        ring

end Transactions

end Blocks

/-! Lookups on a branch. -/

section Lookups

variable {genesis block : StoredBlock} {index parent : Branch}

private theorem branchLookup_above {txid height : ℕ} (above : index.length < height) :
    branchLookup genesis index txid height = none := by
  induction index with
  | nil => exact if_neg (by simp only [List.length_nil] at above; omega)
  | cons block parent ih =>
    rw [List.length_cons] at above
    rw [branchLookup, if_neg (by omega)]
    exact ih (by omega)

private theorem find_hash {txs : List CTransaction} {tx : CTransaction}
    (ids : (txs.map CTransaction.hash).Nodup) (member : tx ∈ txs) :
    txs.find? (fun tx' => tx'.hash = tx.hash) = some tx := by
  induction txs with
  | nil => simp at member
  | cons first rest ih =>
    obtain ⟨apart, ids⟩ := List.nodup_cons.mp ids
    rcases List.mem_cons.mp member with rfl | later
    · simp
    · have other : first.hash ≠ tx.hash := fun same => apart (same ▸ List.mem_map_of_mem later)
      rw [List.find?_cons_of_neg (by simpa using other)]
      exact ih ids later

private theorem branchLookup_recorded {tx : CTransaction}
    (ids : (block.vtx.map CTransaction.hash).Nodup) (member : tx ∈ block.vtx) :
    branchLookup genesis (block :: parent) tx.hash (parent.length + 1) = some tx := by
  rw [branchLookup, if_pos rfl]
  exact find_hash ids member

private theorem height_le {utxo : UtxoSet} {outpoint : COutPoint} {coin : Coin}
    (known : CreatorsKnown (branchLookup genesis index) utxo)
    (held : utxo.lookup outpoint = some coin) : coin.nHeight ≤ index.length := by
  obtain ⟨creating, created⟩ := known _ _ held
  by_contra above
  have found := (creatingTransaction_eq_some created).1
  rw [branchLookup_above (by omega)] at found
  cases found

private theorem branchLookup_parent {utxo : UtxoSet} {outpoint : COutPoint} {coin : Coin}
    (known : CreatorsKnown (branchLookup genesis parent) utxo)
    (held : utxo.lookup outpoint = some coin) :
    branchLookup genesis (block :: parent) outpoint.hash coin.nHeight =
      branchLookup genesis parent outpoint.hash coin.nHeight :=
  if_neg (by have := height_le known held; omega)

private theorem creatorsKnown_parent {utxo : UtxoSet}
    (known : CreatorsKnown (branchLookup genesis parent) utxo) :
    CreatorsKnown (branchLookup genesis (block :: parent)) utxo := by
  intro outpoint coin held
  rw [creatingTransaction_congr (branchLookup_parent known held)]
  exact known outpoint coin held

theorem creatorsKnown_branch (valid : ValidBranch index) :
    CreatorsKnown (branchLookup genesis index) (branchUtxo index) := by
  induction valid with
  | genesis =>
    intro outpoint coin held
    simp [branchUtxo] at held
  | extend _ valid ih =>
    refine creatorsKnown_connectTxs (creatorsKnown_parent ih) ?_
    intro tx member
    exact branchLookup_recorded valid.ids member

variable {params : Params}

private theorem counts_parent {utxo : UtxoSet}
    (known : CreatorsKnown (branchLookup genesis parent) utxo) :
    (∀ state, CountsSupply params (branchLookup genesis (block :: parent)) utxo state ↔
      CountsSupply params (branchLookup genesis parent) utxo state) ∧
    ∀ state, CountsVaults params (branchLookup genesis (block :: parent)) utxo state ↔
      CountsVaults params (branchLookup genesis parent) utxo state := by
  have totals : utxoTotals params (branchLookup genesis (block :: parent)) utxo =
      utxoTotals params (branchLookup genesis parent) utxo :=
    total_congr fun _ _ held => coinTotals_congr (branchLookup_parent known held)
  have tokens : utxoTokens params (branchLookup genesis (block :: parent)) utxo =
      utxoTokens params (branchLookup genesis parent) utxo :=
    total_congr fun _ _ held => coinTokens_congr (branchLookup_parent known held)
  have readable : AllReadable params (branchLookup genesis (block :: parent)) utxo ↔
      AllReadable params (branchLookup genesis parent) utxo :=
    forall₂_congr fun _ _ =>
      forall_congr' fun held => readableToken_congr (branchLookup_parent known held)
  unfold CountsSupply CountsVaults
  rw [totals, tokens, readable]
  exact ⟨fun _ => Iff.rfl, fun _ => Iff.rfl⟩

theorem validBranch_block (valid : ValidBranch (block :: parent)) :
    ∃ utxo, Spends (parent.length + 1) utxo (block.vtx.tail.zip block.vtxundo) ∧
      branchUtxo (block :: parent) =
        connectTxs utxo (parent.length + 1) ((block.vtx.tail.zip block.vtxundo).map Prod.fst) ∧
      (∀ e ∈ block.vtx.tail.zip block.vtxundo,
        branchLookup genesis (block :: parent) e.1.hash (parent.length + 1) = some e.1) ∧
      (∀ state, CountsSupply params (branchLookup genesis (block :: parent)) utxo state ↔
        CountsSupply params (branchLookup genesis parent) (branchUtxo parent) state) ∧
      ∀ state, CountsVaults params (branchLookup genesis (block :: parent)) utxo state ↔
        CountsVaults params (branchLookup genesis parent) (branchUtxo parent) state := by
  obtain ⟨before, connects⟩ : ValidBranch parent ∧
      ValidBlock (branchUtxo parent) (parent.length + 1) block := by
    cases valid with
    | extend before connects => exact ⟨before, connects⟩
  obtain ⟨_, ids, complete, tx, rest, vtx, coinbase, fresh, spends⟩ := connects
  have recorded := fun tx (member : tx ∈ block.vtx) =>
    @branchLookup_recorded genesis block parent tx ids member
  have known := @creatorsKnown_branch genesis parent before
  obtain ⟨supply, vaults⟩ :=
    @counts_coinbase params _ _ _ _ coinbase fresh (recorded tx (by simp [vtx]))
  obtain ⟨supply', vaults'⟩ := @counts_parent genesis block parent params _ known
  refine ⟨connect (branchUtxo parent) tx (parent.length + 1), ?_, ?_, ?_, ?_, ?_⟩
  · rwa [vtx]
  · rw [List.map_fst_zip (by
      simp only [vtx, List.tail_cons, List.length_cons] at complete ⊢; omega)]
    simp only [branchUtxo, connectTxs, vtx, List.foldl_cons, List.tail_cons]
  · intro e member
    exact recorded e.1 (List.mem_of_mem_tail (List.of_mem_zip member).1)
  · exact fun state => (supply state).trans (supply' state)
  · exact fun state => (vaults state).trans (vaults' state)

/-! Below the DigiDollar height. -/

section Below

variable (nonneg : 0 ≤ params.DigiDollarHeight) (bounded : params.DigiDollarHeight ≤ INT_MAX)

include nonneg bounded

private theorem cannot_of_below (valid : ValidBranch index) (below : index.Below params)
    {outpoint : COutPoint} {coin : Coin} (held : (branchUtxo index).lookup outpoint = some coin) :
    coinMayContainDigiDollar coin params = false := by
  have low := height_le (@creatorsKnown_branch ⟨0, [], []⟩ index valid) held
  rcases below with genesis | early
  · rw [List.length_eq_zero_iff] at genesis
    subst genesis
    simp [branchUtxo] at held
  · have late : ¬ toUint32 params.DigiDollarHeight ≤ coin.nHeight := by
      unfold toUint32
      simp only [INT_MAX] at bounded
      omega
    simp [coinMayContainDigiDollar, late]

theorem counts_below (valid : ValidBranch index) (below : index.Below params) :
    AllReadable params (branchLookup genesis index) (branchUtxo index) ∧
      utxoTokens params (branchLookup genesis index) (branchUtxo index) = 0 ∧
      utxoTotals params (branchLookup genesis index) (branchUtxo index) = 0 := by
  have cannot := fun outpoint coin (held : (branchUtxo index).lookup outpoint = some coin) =>
    cannot_of_below nonneg bounded valid below held
  refine ⟨?_, ?_, ?_⟩
  · intro outpoint coin held may
    rw [cannot outpoint coin held] at may
    cases may
  · refine total_eq_zero ?_
    intro outpoint coin held
    simp [coinTokens, cannot outpoint coin held]
  · refine total_eq_zero ?_
    intro outpoint coin held
    exact coinTotals_eq_zero (cannot outpoint coin held)

end Below

end Lookups

end DigiByte.Index
