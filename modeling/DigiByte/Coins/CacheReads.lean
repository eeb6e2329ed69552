import DigiByte.Coins.CacheViews

/-!
Readings through a stack of coin caches. They fill the caches that they pass, and no cache stands
for anything else afterwards.
-/

set_option autoImplicit false
set_option relaxedAutoImplicit false

namespace DigiByte.Coins

open DigiDollar (ChainstateHealth)
open Library.WriteBack

section States

variable {db : CoinsDB} {below : CoinsState} {cache cache' : CCoinsViewCache} {key : CoinKey}
  {levels levels' : List CCoinsViewCache}

theorem head_statesOf (db : CoinsDB) (levels : List CCoinsViewCache) :
    (statesOf db levels).head? = some (stateOf db levels) := by
  cases levels with
  | nil => rfl
  | cons cache rest => rfl

theorem stateOf_eq_of_states (same : statesOf db levels' = statesOf db levels) :
    stateOf db levels' = stateOf db levels := by
  have heads := congrArg List.head? same
  rw [head_statesOf, head_statesOf] at heads
  exact Option.some.inj heads

theorem length_statesOf (db : CoinsDB) (levels : List CCoinsViewCache) :
    (statesOf db levels).length = levels.length + 1 := by
  induction levels with
  | nil => rfl
  | cons cache rest ih => rw [statesOf, List.length_cons, ih, List.length_cons]

theorem best_below (null : (stateOf db (cache :: levels)).best = 0) :
    (stateOf db levels).best = 0 := by
  have best : (if cache.hashBlock = 0 then (stateOf db levels).best else cache.hashBlock) = 0 :=
    null
  split_ifs at best with unset
  · exact best
  · exact absurd best unset

theorem state_insert (below : CoinsState) (cache : CCoinsViewCache) (key : CoinKey)
    (entry : Entry UnspentCoin) :
    CCoinsViewCache.state below { cache with cacheCoins := cache.cacheCoins.insert key entry } =
      { cache.state below with
        coins := Function.update (cache.state below).coins key entry.value } := by
  ext1
  · funext other
    dsimp only [CCoinsViewCache.state]
    rw [lookup_insert_eq, Function.update_apply]
    split_ifs with same
    · rfl
    · rfl
  · rfl
  · rfl

theorem state_erase (below : CoinsState) (cache : CCoinsViewCache) (key : CoinKey) :
    CCoinsViewCache.state below { cache with cacheCoins := cache.cacheCoins.erase key } =
      { cache.state below with
        coins := Function.update (cache.state below).coins key (below.coins key) } := by
  ext1
  · funext other
    dsimp only [CCoinsViewCache.state]
    rw [lookup_erase_eq, Function.update_apply]
    split_ifs with same
    · rw [same]
      rfl
    · rfl
  · rfl
  · rfl

theorem soundCells_insert {entry : Entry UnspentCoin}
    (sound : ∀ key, SoundCell (below.coins key) (cache.cacheCoins.lookup key))
    (new : Sound (below.coins key) entry) (other : CoinKey) :
    SoundCell (below.coins other) ((cache.cacheCoins.insert key entry).lookup other) := by
  rw [lookup_insert_eq]
  split_ifs with same
  · rw [same]
    exact soundCell_some.mpr new
  · exact sound other

theorem soundCells_erase (sound : ∀ key, SoundCell (below.coins key) (cache.cacheCoins.lookup key))
    (other : CoinKey) : SoundCell (below.coins other)
    ((cache.cacheCoins.erase key).lookup other) := by
  rw [lookup_erase_eq]
  split_ifs with same
  · exact soundCell_none
  · exact sound other

/-- Caches that were filled or have kept what they read stand for the same states. -/
structure Unchanged (db : CoinsDB) (levels levels' : List CCoinsViewCache) : Prop where
  states : statesOf db levels' = statesOf db levels
  coherent : Coherent db levels → Coherent db levels'

theorem Unchanged.refl (db : CoinsDB) (levels : List CCoinsViewCache) :
    Unchanged db levels levels :=
  ⟨rfl, id⟩

theorem Unchanged.trans {levels'' : List CCoinsViewCache} (first : Unchanged db levels levels')
    (second : Unchanged db levels' levels'') : Unchanged db levels levels'' :=
  ⟨second.states.trans first.states, fun coherent => second.coherent (first.coherent coherent)⟩

theorem Unchanged.cons (rest : Unchanged db levels levels')
    (state : cache'.state (stateOf db levels) = cache.state (stateOf db levels))
    (sound : (∀ key, SoundCell ((stateOf db levels).coins key) (cache.cacheCoins.lookup key)) →
      ∀ key, SoundCell ((stateOf db levels).coins key) (cache'.cacheCoins.lookup key)) :
    Unchanged db (cache :: levels) (cache' :: levels') := by
  have same := stateOf_eq_of_states rest.states
  refine ⟨?_, ?_⟩
  · rw [statesOf, statesOf, stateOf, stateOf, same, state, rest.states]
  · rintro ⟨cells, coherent⟩
    refine ⟨?_, rest.coherent coherent⟩
    rw [same]
    exact sound cells

theorem Unchanged.cons_of_coins (rest : Unchanged db levels levels')
    (coins : cache'.cacheCoins = cache.cacheCoins)
    (best : (cache'.state (stateOf db levels)).best = (cache.state (stateOf db levels)).best)
    (record : (cache'.state (stateOf db levels)).record =
      (cache.state (stateOf db levels)).record) :
    Unchanged db (cache :: levels) (cache' :: levels') := by
  refine rest.cons ?_ ?_
  · ext1
    · dsimp only [CCoinsViewCache.state]
      rw [coins]
    · exact best
    · exact record
  · intro sound
    rw [coins]
    exact sound

end States

/-! Readings. -/

section Reads

variable (db : CoinsDB) (cache : CCoinsViewCache) {below below' : List CCoinsViewCache}

theorem fetchCoin_reads (key : CoinKey) {tmp : Option (Option UnspentCoin)}
    (rest : Unchanged db below below') (value : tmp.join = (stateOf db below).coins key) :
    Unchanged db (cache :: below)
        ((cache.fetchCoin key below (tmp, below')).2.1 ::
          (cache.fetchCoin key below (tmp, below')).2.2) ∧
      (cache.fetchCoin key below (tmp, below')).2.1.cacheCoins.lookup key =
      (cache.fetchCoin key below (tmp, below')).1 ∧
      (cache.fetchCoin key below (tmp, below')).1.bind Entry.value =
      (stateOf db (cache :: below)).coins key := by
  unfold CCoinsViewCache.fetchCoin
  dsimp only [stateOf, CCoinsViewCache.state]
  cases held : cache.cacheCoins.lookup key with
  | some entry => exact ⟨Unchanged.refl _ _, held, rfl⟩
  | none =>
    cases tmp with
    | none => exact ⟨rest.cons rfl id, held, value⟩
    | some tmp =>
      have value : tmp = (stateOf db below).coins key := value
      refine ⟨rest.cons ?_ fun sound => soundCells_insert sound ?_, AList.lookup_insert _, value⟩
      · have kept : (fetchedEntry tmp).value = (cache.state (stateOf db below)).coins key := by
          dsimp only [CCoinsViewCache.state]
          rw [held]
          exact value
        rw [state_insert, kept, Function.update_eq_self]
      · rw [value]
        exact sound_fetched _

theorem getCoin_reads (key : CoinKey) (levels : List CCoinsViewCache) :
    Unchanged db levels (getCoin db key levels).2 ∧
      (getCoin db key levels).1.join = (stateOf db levels).coins key := by
  induction levels with
  | nil =>
    refine ⟨Unchanged.refl _ _, ?_⟩
    cases stored : db.coins key with
    | none => simp [getCoin, stateOf, CoinsDB.state, stored]
    | some coin => simp [getCoin, stateOf, CoinsDB.state, stored]
  | cons cache below ih =>
    obtain ⟨unchanged, _, value⟩ := fetchCoin_reads db cache key ih.1 ih.2
    refine ⟨unchanged, ?_⟩
    rw [← value]
    dsimp only [getCoin]
    cases Option.bind _ Entry.value with
    | none => rfl
    | some coin => rfl

theorem getBestBlock_reads {best : ℕ} (rest : Unchanged db below below')
    (read : best = (stateOf db below).best) :
    (cache.getBestBlock below (best, below')).1 = (stateOf db (cache :: below)).best ∧
      (cache.getBestBlock below (best, below')).2.1 =
      { cache with hashBlock := (stateOf db (cache :: below)).best } ∧
      Unchanged db (cache :: below)
        ((cache.getBestBlock below (best, below')).2.1 ::
          (cache.getBestBlock below (best, below')).2.2) := by
  subst read
  unfold CCoinsViewCache.getBestBlock
  dsimp only [stateOf, CCoinsViewCache.state]
  split_ifs with null
  · refine ⟨rfl, rfl, rest.cons_of_coins rfl ?_ rfl⟩
    dsimp only [CCoinsViewCache.state]
    rw [if_pos null, ite_self]
  · exact ⟨rfl, rfl, Unchanged.refl _ _⟩

theorem bestBlock_levels (levels : List CCoinsViewCache) :
    (getBestBlock db levels).1 = (stateOf db levels).best ∧ Unchanged db levels
    (getBestBlock db levels).2 := by
  induction levels with
  | nil => exact ⟨rfl, Unchanged.refl _ _⟩
  | cons cache below ih =>
    obtain ⟨best, _, unchanged⟩ := getBestBlock_reads db cache ih.2 ih.1
    exact ⟨best, unchanged⟩

theorem CoinsDB.state_answer : db.state.answer = db.getDigiDollarState := by
  unfold CoinsState.answer CoinsDB.state
  dsimp only
  unfold CoinsDB.getDigiDollarState
  split_ifs
  · rfl
  · rw [Option.filter_filter]
    simp

private theorem loadState_reads {record : Option ChainstateHealth}
    (rest : Unchanged db below below') (read : record = (stateOf db below).answer) :
    (cache.loadState below (record, below')).1.m_dd_state = (stateOf db (cache :: below)).record ∧
      (cache.loadState below (record, below')).1.m_dd_state_loaded = true ∧
      Unchanged db (cache :: below)
        ((cache.loadState below (record, below')).1 ::
          (cache.loadState below (record, below')).2) := by
  subst read
  unfold CCoinsViewCache.loadState
  dsimp only [stateOf, CCoinsViewCache.state]
  split_ifs with loaded
  · exact ⟨rfl, loaded, Unchanged.refl _ _⟩
  · exact ⟨rfl, rfl, rest.cons_of_coins rfl rfl (if_neg loaded).symm⟩

theorem getDigiDollarState_reads {record : Option ChainstateHealth}
    (rest : Unchanged db below below') (read : record = (stateOf db below).answer) :
    (cache.getDigiDollarState db below (record, below')).1 = (stateOf db (cache :: below)).answer ∧
      (cache.getDigiDollarState db below (record, below')).2.1.m_dd_state_loaded = true ∧
      Unchanged db (cache :: below) ((cache.getDigiDollarState db below (record, below')).2.1 ::
        (cache.getDigiDollarState db below (record, below')).2.2) := by
  obtain ⟨kept, loaded, unchanged⟩ := loadState_reads db cache rest read
  unfold CCoinsViewCache.getDigiDollarState CoinsState.answer
  rw [← kept]
  dsimp only
  generalize cache.loadState below (record, below') = result at kept loaded unchanged
  obtain ⟨next, levels⟩ := result
  dsimp only at kept loaded unchanged ⊢
  cases next.m_dd_state with
  | none => exact ⟨rfl, loaded, unchanged⟩
  | some state =>
    obtain ⟨known, again⟩ := bestBlock_levels db levels
    obtain ⟨best, same, still⟩ := getBestBlock_reads db next again known
    rw [stateOf_eq_of_states unchanged.states] at best
    dsimp only
    split_ifs with invalid stale
    · exact ⟨by simp [Option.filter, invalid], loaded, unchanged⟩
    · rw [best] at stale
      exact ⟨by simp [Option.filter, stale], by rw [same]; exact loaded, unchanged.trans still⟩
    · rw [best, not_not] at stale
      rw [Bool.not_eq_false] at invalid
      exact ⟨by simp [Option.filter, stale, invalid], by rw [same]; exact loaded,
        unchanged.trans still⟩

theorem digiDollarState_levels (levels : List CCoinsViewCache) :
    (getDigiDollarState db levels).1 = (stateOf db levels).answer ∧ Unchanged db levels
    (getDigiDollarState db levels).2 := by
  induction levels with
  | nil => exact ⟨db.state_answer.symm, Unchanged.refl _ _⟩
  | cons cache below ih =>
    obtain ⟨answer, _, unchanged⟩ := getDigiDollarState_reads db cache ih.2 ih.1
    exact ⟨answer, unchanged⟩

end Reads

end DigiByte.Coins
