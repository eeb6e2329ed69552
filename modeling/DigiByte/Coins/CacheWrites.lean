import DigiByte.Coins.CacheReads

/-!
Writes of the topmost coin cache to the view below it.

The flags of an entry are true of the view below. So an entry that is dropped because it is fresh
hides no coin, and one that is passed over because it is clean repeats the coin below.
-/

set_option autoImplicit false
set_option relaxedAutoImplicit false

namespace DigiByte.Coins

open DigiDollar (ChainstateHealth)
open Library.WriteBack

/-! Writes to the view below. -/

section Writes

variable {db : CoinsDB}

private theorem writeEntry_merges {cacheCoins : CacheCoins}
    {it : Sigma fun _ : CoinKey => Entry UnspentCoin}
    {below : Option UnspentCoin} (above : Sound (read below (cacheCoins.lookup it.1)) it.2) :
    ∃ written, writeEntry cacheCoins it = .ok written ∧
      ∀ key, written.lookup key = if key = it.1 then merge it.2 (cacheCoins.lookup key)
        else cacheCoins.lookup key := by
  have cells : ∀ (written : CacheCoins) cell, merge it.2 (cacheCoins.lookup it.1) = cell →
      (∀ key, written.lookup key = if key = it.1 then cell else cacheCoins.lookup key) →
      ∀ key, written.lookup key = if key = it.1 then merge it.2 (cacheCoins.lookup key)
        else cacheCoins.lookup key := by
    rintro written cell rfl found key
    rw [found]
    split_ifs with here
    · rw [here]
    · rfl
  have untouched : ∀ key, cacheCoins.lookup key = if key = it.1 then cacheCoins.lookup it.1
      else cacheCoins.lookup key := by
    intro key
    split_ifs with here
    · rw [here]
    · rfl
  unfold writeEntry
  cases held : cacheCoins.lookup it.1 with
  | none =>
    rw [held] at cells untouched
    dsimp only
    split_ifs with clean dropped
    · exact ⟨_, rfl, cells _ _ (if_pos clean) untouched⟩
    · exact ⟨_, rfl, cells _ _ ((if_neg clean).trans (if_pos dropped)) untouched⟩
    · exact ⟨_, rfl, cells _ _ ((if_neg clean).trans (if_neg dropped))
        (fun key => lookup_insert_eq _ _ _ _)⟩
  | some itUs =>
    rw [held] at above cells untouched
    dsimp only
    split_ifs with clean misapplied dropped
    · exact ⟨_, rfl, cells _ _ (if_pos clean) untouched⟩
    · rw [Bool.and_eq_true] at misapplied
      rw [value_of_fresh_above above misapplied.1] at misapplied
      cases misapplied.2
    · exact ⟨_, rfl, cells _ _ ((if_neg clean).trans (if_pos dropped))
        (fun key => lookup_erase_eq _ _ _)⟩
    · exact ⟨_, rfl, cells _ _ ((if_neg clean).trans (if_neg dropped))
        (fun key => lookup_insert_eq _ _ _ _)⟩

/-- The state that a write leaves in the view below. -/
def writtenState (below : CoinsState) (mapCoins : CacheCoins) (hashBlock : ℕ)
    (dd_state : Option ChainstateHealth) : CoinsState where
  coins key := read (below.coins key) (mapCoins.lookup key)
  best := hashBlock
  record := dd_state

variable {mapCoins : CacheCoins} {hashBlock : ℕ} {dd_state : Option ChainstateHealth}

private theorem batchWrite_writes {below : CoinsState} {cache : CCoinsViewCache}
    (cells : ∀ key, SoundCell (below.coins key) (cache.cacheCoins.lookup key))
    (above : ∀ key, SoundCell ((cache.state below).coins key) (mapCoins.lookup key))
    (accepted : ∀ record ∈ dd_state, record.isValid = true ∧ record.best_block = hashBlock)
    (null : hashBlock = 0 → (cache.state below).best = 0) :
    ∃ written, cache.batchWrite mapCoins hashBlock dd_state = .ok written ∧
      (∀ key, SoundCell (below.coins key) (written.cacheCoins.lookup key)) ∧
      written.state below = writtenState (cache.state below) mapCoins hashBlock dd_state := by
  obtain ⟨coins, folded, kept, merged⟩ :=
    @lookup_foldlM _ _ _ _ writeEntry merge _ mapCoins.nodupKeys cache.cacheCoins (by
      intro m key entry held untouched
      refine @writeEntry_merges m ⟨key, entry⟩ (below.coins key) ?_
      rw [untouched]
      exact above key entry (AList.mem_lookup_iff.mpr held))
  refine ⟨CCoinsViewCache.setDigiDollarState { cache with hashBlock, cacheCoins := coins } dd_state,
    ?_, ?_, ?_⟩
  · rw [CCoinsViewCache.batchWrite, if_neg (passes_of_accepted accepted), folded]
    rfl
  · intro key
    change SoundCell _ (coins.lookup key)
    cases held : mapCoins.lookup key with
    | none =>
      rw [kept key (AList.lookup_eq_none.mp held)]
      exact cells key
    | some child =>
      rw [merged key child (AList.mem_lookup_iff.mp held)]
      exact soundCell_merge (cells key) (above key child held)
  · ext1
    · funext key
      change read _ (coins.lookup key) = read _ (mapCoins.lookup key)
      cases held : mapCoins.lookup key with
      | none =>
        rw [kept key (AList.lookup_eq_none.mp held)]
        rfl
      | some child =>
        rw [merged key child (AList.mem_lookup_iff.mp held)]
        exact read_merge (cells key) (above key child held)
    · change (if hashBlock = 0 then below.best else hashBlock) = hashBlock
      split_ifs with zero
      · have best : (if cache.hashBlock = 0 then below.best else cache.hashBlock) = 0 := null zero
        split_ifs at best with unset
        · rw [best, zero]
        · exact absurd best unset
      · rfl
    · rfl

theorem mem_toMap {key : CoinKey} {entry : CCoinsCacheEntry} :
    (key, entry) ∈ mapCoins.toMap.entries ↔
      ∃ it ∈ mapCoins.lookup key,
      entry = ⟨(it.value.map Subtype.val).getD coinEmpty, it.dirty⟩ := by
  unfold CacheCoins.toMap
  rw [List.mem_map]
  constructor
  · rintro ⟨⟨other, it⟩, member, same⟩
    cases same
    exact ⟨it, AList.mem_lookup_iff.mpr member, rfl⟩
  · rintro ⟨it, held, rfl⟩
    exact ⟨⟨key, it⟩, AList.mem_lookup_iff.mp held, rfl⟩

private theorem unspentOf_written (value : Option UnspentCoin) (dirty : Bool) :
    (CCoinsCacheEntry.unspent ⟨(value.map Subtype.val).getD coinEmpty, dirty⟩).bind unspentOf =
      value := by
  cases value with
  | none => rfl
  | some coin => simp [CCoinsCacheEntry.unspent, unspentOf, coin.property]

variable (sizeEstimate : List DbOp → ℕ) (batch_write_bytes : ℕ)

private theorem database_writes (finished : db.headBlocks = none)
    (above : ∀ key, SoundCell (db.state.coins key) (mapCoins.lookup key))
    (accepted : ∀ record ∈ dd_state, record.isValid = true ∧ record.best_block = hashBlock)
    (block : hashBlock ≠ 0) :
    ∃ written, writeBelow sizeEstimate batch_write_bytes db [] mapCoins hashBlock dd_state =
      .ok (written, []) ∧
      written.headBlocks = none ∧
        written.state = writtenState db.state mapCoins hashBlock dd_state := by
  obtain ⟨batches, coins, folded, stored, kept⟩ :=
    @CoinsDB.batchWrite_written sizeEstimate batch_write_bytes db
    ⟨mapCoins.toMap, hashBlock, dd_state⟩ finished block accepted
  refine ⟨⟨coins, some hashBlock, none, dd_state⟩, ?_, rfl, ?_⟩
  · rw [writeBelow, ← folded]
    exact if_neg batches
  ext1
  · funext key
    change (coins key).bind unspentOf = read (db.state.coins key) (mapCoins.lookup key)
    cases held : mapCoins.lookup key with
    | none =>
      rw [kept key (by
        intro entry member
        obtain ⟨it, found, _⟩ := mem_toMap.mp member
        rw [held] at found
        cases found)]
      rfl
    | some it =>
      cases dirty : it.dirty with
      | true =>
        rw [stored key _ (mem_toMap.mpr ⟨it, held, rfl⟩) dirty]
        exact unspentOf_written it.value it.dirty
      | false =>
        rw [kept key (by
          intro entry member
          obtain ⟨other, found, rfl⟩ := mem_toMap.mp member
          rw [held] at found
          cases found
          exact dirty)]
        exact ((above key it held).clean dirty).symm
  · rfl
  · change Option.filter _ dd_state = dd_state
    cases dd_state with
    | none => rfl
    | some record => simp [Option.filter, CoinsDB.getBestBlock, accepted record rfl]

theorem writeBelow_writes {below : List CCoinsViewCache} (coherent : Coherent db below)
    (above : ∀ key, SoundCell ((stateOf db below).coins key) (mapCoins.lookup key))
    (accepted : ∀ record ∈ dd_state, record.isValid = true ∧ record.best_block = hashBlock)
    (block : below = [] → hashBlock ≠ 0) (null : hashBlock = 0 → (stateOf db below).best = 0) :
    ∃ db' below', writeBelow sizeEstimate batch_write_bytes db below mapCoins hashBlock dd_state =
      .ok (db', below') ∧
      Coherent db' below' ∧
      statesOf db' below' =
        writtenState (stateOf db below) mapCoins hashBlock dd_state ::
          (statesOf db below).tail := by
  cases below with
  | nil =>
    obtain ⟨written, ok, finished, state⟩ :=
      database_writes sizeEstimate batch_write_bytes coherent above accepted (block rfl)
    exact ⟨written, [], ok, finished, by rw [statesOf, state]; rfl⟩
  | cons next rest =>
    obtain ⟨written, ok, cells, state⟩ := batchWrite_writes coherent.1 above accepted null
    refine ⟨db, written :: rest, ?_, ⟨cells, coherent.2⟩, ?_⟩
    · rw [writeBelow, ok]
      rfl
    · rw [statesOf, stateOf, state]
      rfl

theorem CoinsState.answer_accepted (state : CoinsState) :
    ∀ record ∈ state.answer, record.isValid = true ∧ record.best_block = state.best := by
  intro record given
  have passed := (Option.filter_eq_some_iff.mp given).2
  simpa using passed

end Writes

end DigiByte.Coins
