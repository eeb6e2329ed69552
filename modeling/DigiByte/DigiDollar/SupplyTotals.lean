import DigiByte.DigiDollar.Accounting
import DigiByte.DigiDollar.Supply

/-!
The token total of a coin set: how `ReconstructChainstateHealth` counts it, and how
the change reported for a transaction moves it in either direction.
-/

set_option autoImplicit false
set_option relaxedAutoImplicit false

namespace DigiByte.DigiDollar

open Consensus Script
open Library.FinmapTotal

/-- What one coin adds to `supply` and `supply_known`; `none` is a failed rebuild. -/
def countToken (params : Params) (lookup : CanonicalTxLookup) (outpoint : COutPoint) (coin : Coin) :
    ℤ × Bool → Option (ℤ × Bool)
  | (supply, supply_known) =>
    if coinMayContainDigiDollar coin params = true ∧ coin.out.nValue = 0 then
      match creatingTransaction lookup outpoint coin with
      | none => none
      | some creating =>
        if hasDigiDollarMarker creating = true then
          match (extractDDAmountFromBlockDb outpoint coin.nHeight lookup).filter (0 < ·) with
          | none => some (supply, false)
          | some amount =>
            if amount > INT64_MAX - supply then none else some (supply + amount, supply_known)
        else some (supply, supply_known)
    else some (supply, supply_known)

/-- The coin loop of `ReconstructChainstateHealth` with the supply. -/
def rebuildSupplyFrom (params : Params) (lookup : CanonicalTxLookup) :
    List (COutPoint × Coin) → ChainstateHealth → ℤ × Bool → Option (ChainstateHealth × ℤ × Bool)
  | [], rebuilt, count => some (rebuilt, count)
  | (outpoint, coin) :: rest, rebuilt, count =>
    match lookupCanonicalVault outpoint coin params lookup with
    | .notReady _ => none
    | .notVault =>
      match countToken params lookup outpoint coin count with
      | none => none
      | some count => rebuildSupplyFrom params lookup rest rebuilt count
    | .vault v =>
      match rebuilt.addVault v.principal v.collateral with
      | none => none
      | some rebuilt =>
        match countToken params lookup outpoint coin count with
        | none => none
        | some count => rebuildSupplyFrom params lookup rest rebuilt count

/-- `ReconstructChainstateHealth` with both supply pointers: the record and, when it
is known, the supply. -/
def reconstructSupply (coins : List (COutPoint × Coin)) (best_block : ℕ) (params : Params)
    (lookup : CanonicalTxLookup) : Option (ChainstateHealth × Option ℤ) :=
  let rebuilt : ChainstateHealth :=
    { genesis_hash := params.hashGenesisBlock
      activation_height := params.nDDThawDayHeight
      digidollar_height := params.DigiDollarHeight
      best_block := best_block }
  if best_block = 0 then none
  else match rebuildSupplyFrom params lookup coins rebuilt (0, true) with
    | none => none
    | some (rebuilt, supply, supply_known) =>
      if rebuilt.isValid then some (rebuilt, if supply_known then some supply else none) else none

/-- The tokens that all coins of a set hold. -/
def utxoTokens (params : Params) (lookup : CanonicalTxLookup) (utxo : UtxoSet) : ℤ :=
  total (coinTokens params lookup) utxo

/-- Every coin of a set has a readable amount. -/
def AllReadable (params : Params) (lookup : CanonicalTxLookup) (utxo : UtxoSet) : Prop :=
  ∀ outpoint coin, utxo.lookup outpoint = some coin → ReadableToken params lookup outpoint coin

variable {params : Params} {lookup : CanonicalTxLookup}

/-! The count. -/

/-- The count of the rebuild alone. -/
def countTokens (params : Params) (lookup : CanonicalTxLookup) :
    List (COutPoint × Coin) → ℤ × Bool → Option (ℤ × Bool)
  | [], count => some count
  | (outpoint, coin) :: rest, count =>
    (countToken params lookup outpoint coin count).bind (countTokens params lookup rest)

private theorem rebuildSupplyFrom_eq_some {coins : List (COutPoint × Coin)}
    {rebuilt rebuilt' : ChainstateHealth} {count count' : ℤ × Bool} :
    rebuildSupplyFrom params lookup coins rebuilt count = some (rebuilt', count') ↔
      rebuildFrom params lookup coins rebuilt = some rebuilt' ∧
        countTokens params lookup coins count = some count' := by
  induction coins generalizing rebuilt count with
  | nil => simp [rebuildSupplyFrom, rebuildFrom, countTokens]
  | cons e rest ih =>
    obtain ⟨outpoint, coin⟩ := e
    simp only [rebuildSupplyFrom, rebuildFrom, countTokens]
    cases lookupCanonicalVault outpoint coin params lookup with
    | notReady error => simp
    | notVault =>
      cases countToken params lookup outpoint coin count with
      | none => simp
      | some next => simp only [ih, Option.bind_some]
    | vault v =>
      dsimp only
      cases rebuilt.addVault v.principal v.collateral with
      | none => simp
      | some added =>
        cases countToken params lookup outpoint coin count with
        | none => simp
        | some next => simp only [ih, Option.bind_some]

private theorem countToken_readable {outpoint : COutPoint} {coin : Coin} {supply : ℤ} {known : Bool}
    (readable : ReadableToken params lookup outpoint coin)
    (fits : supply + coinTokens params lookup outpoint coin ≤ INT64_MAX) :
    countToken params lookup outpoint coin (supply, known) =
      some (supply + coinTokens params lookup outpoint coin, known) := by
  unfold countToken coinTokens at *
  by_cases candidate : coinMayContainDigiDollar coin params = true ∧ coin.out.nValue = 0
  · obtain ⟨creating, created, amounts⟩ := readable candidate.1 candidate.2
    have found := (creatingTransaction_eq_some created).1
    simp only [if_pos candidate, created] at fits ⊢
    by_cases marked : hasDigiDollarMarker creating = true
    · obtain ⟨amount, extracted⟩ := Option.isSome_iff_exists.mp (amounts marked)
      obtain ⟨_, _, _, _, _, _, entry⟩ := readPayload_of_extract extracted
      have positive := (tokenAmounts_eq_some entry).1
      simp only [readableAmount, extracted, Option.getD_some] at fits ⊢
      simp [marked, extractDDAmountFromBlockDb, found, extracted, Option.filter, positive]
      omega
    · simp [marked, readableAmount, extractDDAmountFromTxRef]
  · simp [candidate]

private theorem readable_of_countToken {outpoint : COutPoint} {coin : Coin} {count : ℤ × Bool}
    {supply : ℤ} (counted : countToken params lookup outpoint coin count = some (supply, true)) :
    count.2 = true ∧ ReadableToken params lookup outpoint coin ∧
      supply = count.1 + coinTokens params lookup outpoint coin ∧
      (count.1 ≤ INT64_MAX → supply ≤ INT64_MAX) := by
  obtain ⟨before, known⟩ := count
  unfold countToken at counted
  unfold ReadableToken coinTokens
  by_cases candidate : coinMayContainDigiDollar coin params = true ∧ coin.out.nValue = 0
  · simp only [if_pos candidate] at counted ⊢
    cases created : creatingTransaction lookup outpoint coin with
    | none => simp [created] at counted
    | some creating =>
      have found := (creatingTransaction_eq_some created).1
      simp only [created] at counted
      split_ifs at counted with marked
      · simp only [extractDDAmountFromBlockDb, found, Option.bind_some] at counted
        cases extracted : extractDDAmountFromTxRef creating outpoint.n with
        | none => simp [extracted] at counted
        | some amount =>
          have positive : 0 < amount := by
            obtain ⟨_, _, _, _, _, _, entry⟩ := readPayload_of_extract extracted
            exact (tokenAmounts_eq_some entry).1
          simp only [extracted, Option.filter, positive, decide_true, if_true] at counted
          split_ifs at counted with excess
          cases counted
          refine ⟨rfl, fun _ _ => ⟨creating, rfl, fun _ => by simp [extracted]⟩, ?_,
            fun _ => by omega⟩
          simp [readableAmount, extracted]
      · cases counted
        refine ⟨rfl, fun _ _ => ⟨creating, rfl, fun held => absurd held marked⟩, ?_, id⟩
        simp [readableAmount, extractDDAmountFromTxRef, marked]
  · simp only [if_neg candidate] at counted
    cases counted
    refine ⟨rfl, fun may zero => absurd ⟨may, zero⟩ candidate, ?_, id⟩
    simp [candidate]

private theorem countTokens_known {coins : List (COutPoint × Coin)} {count : ℤ × Bool} {supply : ℤ}
    (counted : countTokens params lookup coins count = some (supply, true)) :
    count.2 = true ∧ (∀ e ∈ coins, ReadableToken params lookup e.1 e.2) ∧
      supply = count.1 + (coins.map fun e => coinTokens params lookup e.1 e.2).sum ∧
      (count.1 ≤ INT64_MAX → supply ≤ INT64_MAX) := by
  induction coins generalizing count with
  | nil =>
    cases counted
    simp
  | cons e rest ih =>
    obtain ⟨⟨next, known⟩, first, later⟩ := Option.bind_eq_some_iff.mp counted
    obtain ⟨rfl, readable, exactly, bound⟩ := ih later
    obtain ⟨before, here, one, small⟩ := readable_of_countToken first
    refine ⟨before, ?_, ?_, fun start => bound (small start)⟩
    · intro e' member
      rcases List.mem_cons.mp member with rfl | member
      · exact here
      · exact readable e' member
    · rw [List.map_cons, List.sum_cons]
      dsimp only at exactly
      omega

private theorem countTokens_readable {coins : List (COutPoint × Coin)} {supply : ℤ}
    (readable : ∀ e ∈ coins, ReadableToken params lookup e.1 e.2)
    (fits : supply + (coins.map fun e => coinTokens params lookup e.1 e.2).sum ≤ INT64_MAX) :
    countTokens params lookup coins (supply, true) =
      some (supply + (coins.map fun e => coinTokens params lookup e.1 e.2).sum, true) := by
  induction coins generalizing supply with
  | nil => simp [countTokens]
  | cons e rest ih =>
    rw [List.map_cons, List.sum_cons, ← add_assoc] at fits ⊢
    have nonneg : 0 ≤ (rest.map fun e => coinTokens params lookup e.1 e.2).sum := by
      refine List.sum_nonneg ?_
      intro amount member
      obtain ⟨e', _, rfl⟩ := List.mem_map.mp member
      exact coinTokens_nonneg _ _ _ _
    rw [countTokens, countToken_readable (readable e (by simp)) (by omega), Option.bind_some]
    exact ih (fun e' member => readable e' (by simp [member])) fits

theorem reconstructSupply_eq_some {coins : List (COutPoint × Coin)} {utxo : UtxoSet}
    {best_block : ℕ}
    {rebuilt : ChainstateHealth} {supply : Option ℤ} (order : Enumerates coins utxo)
    (found : reconstructSupply coins best_block params lookup = some (rebuilt, supply)) :
    reconstructChainstateHealth coins best_block params lookup = some rebuilt ∧
      ∀ amount, supply = some amount → AllReadable params lookup utxo ∧
        amount = utxoTokens params lookup utxo ∧ amount ≤ INT64_MAX := by
  unfold reconstructSupply at found
  unfold reconstructChainstateHealth
  dsimp only at found ⊢
  split_ifs at found ⊢ with null
  split at found
  · cases found
  · rename_i record amount known loop
    obtain ⟨vaults, tokens⟩ := rebuildSupplyFrom_eq_some.mp loop
    split_ifs at found with valid isKnown
    · cases found
      refine ⟨by simp [vaults, valid], ?_⟩
      intro amount' same
      cases same
      rw [isKnown] at tokens
      obtain ⟨_, readable, exactly, bound⟩ := countTokens_known tokens
      refine ⟨?_, ?_, bound (by decide)⟩
      · intro outpoint coin held
        exact readable (outpoint, coin) ((lookup_of_enumerates order).mpr held)
      · rw [exactly, sum_of_enumerates _ order, zero_add]
        rfl
    · cases found
      exact ⟨by simp [vaults, valid], fun _ same => by cases same⟩

theorem reconstructSupply_known {coins : List (COutPoint × Coin)} {utxo : UtxoSet} {best_block : ℕ}
    {rebuilt : ChainstateHealth} (order : Enumerates coins utxo)
    (vaults : reconstructChainstateHealth coins best_block params lookup = some rebuilt)
    (readable : AllReadable params lookup utxo)
    (fits : utxoTokens params lookup utxo ≤ INT64_MAX) :
    reconstructSupply coins best_block params lookup =
      some (rebuilt, some (utxoTokens params lookup utxo)) := by
  unfold reconstructChainstateHealth at vaults
  unfold reconstructSupply
  dsimp only at vaults ⊢
  have sum : (coins.map fun e => coinTokens params lookup e.1 e.2).sum =
      utxoTokens params lookup utxo :=
    sum_of_enumerates _ order
  have tokens := @countTokens_readable params lookup coins 0
    (fun e member => readable e.1 e.2 ((lookup_of_enumerates order).mp member))
    (by rwa [sum, zero_add])
  rw [sum, zero_add] at tokens
  split_ifs at vaults ⊢ with null
  split at vaults
  · cases vaults
  · rename_i record loop
    split_ifs at vaults with valid
    cases vaults
    rw [rebuildSupplyFrom_eq_some.mpr ⟨loop, tokens⟩]
    simp [valid]

/-! The change of a transaction. -/

private theorem readable_of_supplyTokenAmount {outpoint : COutPoint} {coin : Coin} {amount : ℤ}
    (read : supplyTokenAmount params lookup outpoint coin = .ok (some amount)) :
    ReadableToken params lookup outpoint coin := by
  intro may zero
  unfold supplyTokenAmount at read
  rw [if_neg (by simp [may, zero])] at read
  cases created : creatingTransaction lookup outpoint coin with
  | none => simp [created] at read
  | some creating =>
    refine ⟨creating, rfl, ?_⟩
    intro marked
    simp only [created, marked, Bool.true_eq_false, if_false] at read
    cases extracted : extractDDAmountFromTxRef creating outpoint.n with
    | none => simp [extractDDAmountFromBlockDb, extracted] at read
    | some amount' => rfl

private theorem supplyLoop_known {source : CanonicalTxLookup} {sign delta : ℤ}
    {entries : List (COutPoint × Coin)} {state : ℤ × Bool}
    (loop : supplyLoop params source sign entries state = .ok (delta, false)) :
    state.2 = false ∧ ∀ e ∈ entries, ReadableToken params source e.1 e.2 := by
  induction entries generalizing state with
  | nil =>
    cases loop
    simp
  | cons e rest ih =>
    obtain ⟨outpoint, coin⟩ := e
    obtain ⟨before, unknown⟩ := state
    unfold supplyLoop at loop
    cases read : supplyTokenAmount params source outpoint coin with
    | error error => simp [read] at loop
    | ok amount =>
      cases amount with
      | none =>
        simp only [read] at loop
        exact absurd (ih loop).1 (by simp)
      | some amount =>
        simp only [read] at loop
        obtain ⟨known, later⟩ := ih loop
        refine ⟨known, ?_⟩
        intro e member
        rcases List.mem_cons.mp member with rfl | member
        · exact readable_of_supplyTokenAmount read
        · exact later e member

/-- The tokens of the outputs of a transaction. -/
def createdTokens (params : Params) (tx : CTransaction) (height : ℕ) : ℤ :=
  ((createdCoins tx height).map fun e => coinTokens params (createdLookup tx height) e.1 e.2).sum

theorem getCirculatingSupplyChange_known {tx : CTransaction} {inputs : List Coin} {height : ℕ}
    {change : ℤ} (coinbase : tx.isCoinBase = false)
    (reported : getCirculatingSupplyChange tx inputs height params lookup = .known change) :
    (∀ e ∈ (tx.vin.map CTxIn.prevout).zip inputs, ReadableToken params lookup e.1 e.2) ∧
      (∀ e ∈ createdCoins tx height, ReadableToken params (createdLookup tx height) e.1 e.2) ∧
      change = createdTokens params tx height - spentTokens params lookup tx inputs := by
  unfold getCirculatingSupplyChange at reported
  rw [coinbase, if_neg (by simp)] at reported
  split_ifs at reported
  cases spent : supplyLoop params lookup (-1) ((tx.vin.map CTxIn.prevout).zip inputs) (0,
    false) with
  | error error => simp [spent] at reported
  | ok state =>
    simp only [spent] at reported
    cases made : supplyLoop params (createdLookup tx height) 1 (createdCoins tx height) state with
    | error error => simp [made] at reported
    | ok result =>
      obtain ⟨delta, unknown⟩ := result
      simp only [made] at reported
      split_ifs at reported with flag range
      cases reported
      rw [Bool.not_eq_true] at flag
      rw [flag] at made
      obtain ⟨known, outputs⟩ := supplyLoop_known made
      obtain ⟨before, isKnown⟩ := state
      dsimp only at known
      rw [known] at spent made
      have inputs' := (supplyLoop_known spent).2
      rw [supplyLoop_eq inputs'] at spent
      cases spent
      rw [supplyLoop_eq outputs] at made
      cases made
      refine ⟨inputs', outputs, ?_⟩
      unfold createdTokens spentTokens
      ring

section Connect

variable {utxo : UtxoSet} {tx : CTransaction} {height : ℕ}

private theorem sum_coinTokens_newCoins (recorded : lookup tx.hash height = some tx)
    (coinbase : tx.isCoinBase = false) :
    ((newCoins tx height).map fun e => coinTokens params lookup e.1 e.2).sum =
      createdTokens params tx height := by
  have indexed := sum_newCoins tx height (coinTokens params lookup)
    (fun out n => coinTokens params (createdLookup tx height) ⟨tx.hash, n⟩ ⟨out, false, height⟩)
    (by
      intro n out at_n _
      have created := creatingTransaction_new recorded at_n
      rw [coinbase] at created ⊢
      unfold coinTokens
      rw [created, creatingTransaction_created at_n])
    (by
      intro n out at_n shape
      refine if_neg ?_
      rintro ⟨may, _⟩
      simp only [coinMayContainDigiDollar, Bool.and_eq_true] at may
      rw [isUnspendable_eq_false_of_p2tr may.2] at shape
      cases shape)
  rw [indexed, createdTokens, createdCoins, List.map_map]
  rfl

private theorem readable_newCoins (recorded : lookup tx.hash height = some tx)
    (coinbase : tx.isCoinBase = false)
    (created : ∀ e ∈ createdCoins tx height,
      ReadableToken params (createdLookup tx height) e.1 e.2) :
    ∀ e ∈ newCoins tx height, ReadableToken params lookup e.1 e.2 := by
  rintro ⟨⟨hash, n⟩, ⟨out, flag, at_height⟩⟩ member
  obtain ⟨rfl, rfl, rfl, at_n, _⟩ := mem_newCoins.mp member
  have listed : ((⟨tx.hash, n⟩, ⟨out, false, at_height⟩) : COutPoint × Coin) ∈
      createdCoins tx at_height :=
    List.mem_map.mpr ⟨(out, n), List.mk_mem_zipIdx_iff_getElem?.mpr at_n, rfl⟩
  intro may zero
  rw [coinbase] at may
  obtain ⟨creating, found, amounts⟩ := created _ listed may zero
  rw [creatingTransaction_created at_n] at found
  cases found
  exact ⟨tx, creatingTransaction_new recorded at_n, amounts⟩

private theorem mem_zip_spentCoins (coinbase : tx.isCoinBase = false)
    (present : ∀ outpoint ∈ spentOutpoints tx, outpoint ∈ utxo) {outpoint : COutPoint} {coin : Coin}
    (spent : outpoint ∈ spentOutpoints tx) (held : utxo.lookup outpoint = some coin) :
    (outpoint, coin) ∈ (tx.vin.map CTxIn.prevout).zip (spentCoins utxo tx) := by
  have paired := spentCoins_paired coinbase present
  simp only [spentOutpoints, coinbase, Bool.false_eq_true, if_false] at spent
  generalize tx.vin = vin, spentCoins utxo tx = coins at spent paired ⊢
  induction paired with
  | nil => simp at spent
  | cons here _ ih =>
    rw [List.map_cons] at spent ⊢
    rcases List.mem_cons.mp spent with rfl | later
    · rw [held] at here
      cases here
      simp
    · exact List.mem_cons_of_mem _ (ih later)

private theorem spentTokens_eq_sum (coinbase : tx.isCoinBase = false)
    (present : ∀ outpoint ∈ spentOutpoints tx, outpoint ∈ utxo) :
    spentTokens params lookup tx (spentCoins utxo tx) =
      ((spentOutpoints tx).map (weightAt (coinTokens params lookup) utxo)).sum := by
  have sum := sum_spentCoins (coinTokens params lookup) (spentCoins_paired coinbase present)
  rw [spentTokens, List.zip_map_left, List.map_map]
  simpa [spentOutpoints, coinbase, Function.comp_def] using sum

variable (fresh : ∀ n, utxo.lookup ⟨tx.hash, n⟩ = none) (recorded : lookup tx.hash height = some tx)

include fresh recorded

theorem utxoTokens_connect (present : ∀ outpoint ∈ spentOutpoints tx, outpoint ∈ utxo)
    (distinct : (spentOutpoints tx).Nodup) (coinbase : tx.isCoinBase = false) {change : ℤ}
    (reported : getCirculatingSupplyChange tx (spentCoins utxo tx) height params lookup =
      .known change) :
    utxoTokens params lookup (connect utxo tx height) = utxoTokens params lookup utxo + change := by
  obtain ⟨_, _, rfl⟩ := getCirculatingSupplyChange_known coinbase reported
  have moved := total_connect (coinTokens params lookup) height distinct present fresh
  rw [sum_coinTokens_newCoins recorded coinbase, ← spentTokens_eq_sum coinbase present] at moved
  unfold utxoTokens
  omega

theorem allReadable_connect (present : ∀ outpoint ∈ spentOutpoints tx, outpoint ∈ utxo)
    (coinbase : tx.isCoinBase = false) {change : ℤ}
    (reported : getCirculatingSupplyChange tx (spentCoins utxo tx) height params lookup =
      .known change) :
    AllReadable params lookup (connect utxo tx height) ↔ AllReadable params lookup utxo := by
  obtain ⟨inputs, outputs, _⟩ := getCirculatingSupplyChange_known coinbase reported
  constructor
  · intro readable outpoint coin held
    by_cases spent : outpoint ∈ spentOutpoints tx
    · exact inputs _ (mem_zip_spentCoins coinbase present spent held)
    · exact readable outpoint coin (lookup_connect_of_kept fresh spent held)
  · intro readable outpoint coin held
    rcases lookup_connect held with added | kept
    · exact readable_newCoins recorded coinbase outputs _ added
    · exact readable outpoint coin kept

omit recorded in
theorem utxoTokens_coinbase (coinbase : tx.isCoinBase = true) :
    utxoTokens params lookup (connect utxo tx height) = utxoTokens params lookup utxo := by
  have none_new : ((newCoins tx height).map fun e => coinTokens params lookup e.1 e.2).sum = 0 := by
    refine List.sum_eq_zero ?_
    intro amount member
    obtain ⟨e, listed, rfl⟩ := List.mem_map.mp member
    obtain ⟨_, flag, _⟩ := mem_newCoins.mp listed
    simp [coinTokens, coinMayContainDigiDollar, flag, coinbase]
  rw [utxoTokens, total_connect_new _ height fresh, none_new, zero_add, spentOutpoints,
    if_pos coinbase]
  rfl

omit recorded in
theorem allReadable_coinbase (coinbase : tx.isCoinBase = true) :
    AllReadable params lookup (connect utxo tx height) ↔ AllReadable params lookup utxo := by
  have nothing : spentOutpoints tx = [] := if_pos coinbase
  constructor
  · intro readable outpoint coin held
    exact readable outpoint coin (lookup_connect_of_kept fresh (by simp [nothing]) held)
  · intro readable outpoint coin held
    rcases lookup_connect held with added | kept
    · obtain ⟨_, flag, _⟩ := mem_newCoins.mp added
      dsimp only at flag
      intro may
      simp [coinMayContainDigiDollar, flag, coinbase] at may
    · exact readable outpoint coin kept

end Connect

end DigiByte.DigiDollar
