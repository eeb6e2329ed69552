import DigiByte.Coins.KeyOrder
import DigiByte.Library.Arrivals
import DigiByte.Library.Overlay

/-!
The walk over the coins of a cache: the cursor of the view below, merged with the changed
entries of the cache (`coins.cpp`).
-/

set_option autoImplicit false
set_option relaxedAutoImplicit false

namespace DigiByte.Coins

open Library.Arrivals (Agree lookup_of_mem mem_of_lookup)
open Library.Overlay (Increasing Merged increasing_cons)

/-- A cursor, by what it answers in each of its states. -/
structure CCoinsViewCursor : Type 1 where
  State : Type
  start : State
  valid : State → Bool
  getKey : State → Option CoinKey
  getValue : State → Option Coin
  next : State → State

structure CCoinsCacheEntry where
  coin : Coin
  dirty : Bool
  deriving DecidableEq, Repr

/-- The entries of a cache, in the order in which the hash table holds them. -/
structure CCoinsMap where
  entries : List (CoinKey × CCoinsCacheEntry)
  nodup : (entries.map Prod.fst).Nodup

/-- The state of a `CacheCoinsCursor`: of the sorted changed entries, those from `m_pos` on. -/
structure CacheState (σ : Type) where
  m_base : σ
  m_changed : List (CoinKey × Coin)
  m_from_cache : Bool

/-- Move to the next coin to hand out, or leave nothing to hand out. -/
def seek (base : CCoinsViewCursor) (m_base : base.State) :
    List (CoinKey × Coin) → CacheState base.State
  | [] => ⟨m_base, [], false⟩
  | (key, coin) :: rest =>
    let base_key := if base.valid m_base then base.getKey m_base else none
    -- a base that has a coin but not its outpoint stops the walk there
    if base.valid m_base = true ∧ base_key = none then ⟨m_base, (key, coin) :: rest, false⟩
    else if (base_key.any fun base_key =>
      coinDatabaseKeyLess base_key.toCOutPoint key.toCOutPoint) = true then
      ⟨m_base, (key, coin) :: rest, false⟩
    else
      let m_base := if base_key = some key then base.next m_base else m_base
      if coin.isSpent = false then ⟨m_base, (key, coin) :: rest, true⟩ else seek base m_base rest

/-- The changed entries, sorted in database key order. -/
def changedEntries (cache : CCoinsMap) : List (CoinKey × Coin) :=
  ((cache.entries.filter fun entry => entry.2.dirty).map fun entry =>
    (entry.1, entry.2.coin)).insertionSort
    fun a b => coinDatabaseKeyLess b.1.toCOutPoint a.1.toCOutPoint = false

def cacheCoinsCursor (base : CCoinsViewCursor) (cache : CCoinsMap) : CCoinsViewCursor where
  State := CacheState base.State
  start := seek base base.start (changedEntries cache)
  valid s := s.m_from_cache || base.valid s.m_base
  getKey s :=
    if s.m_from_cache then s.m_changed.head?.map Prod.fst
    else if base.valid s.m_base then base.getKey s.m_base else none
  getValue s :=
    if s.m_from_cache then s.m_changed.head?.map Prod.snd
    else if base.valid s.m_base then base.getValue s.m_base else none
  next s :=
    if s.m_from_cache then seek base s.m_base s.m_changed.tail
    else if base.valid s.m_base then seek base (base.next s.m_base) s.m_changed
    else seek base s.m_base s.m_changed

/-- The part of a coins view that the walk concerns. -/
structure CCoinsView : Type 1 where
  getCoin : CoinKey → Option Coin
  cursor : Option CCoinsViewCursor

def CCoinsMap.find (cache : CCoinsMap) (key : CoinKey) : Option CCoinsCacheEntry :=
  cache.entries.lookup key

/-- Reading a coin also adds it to the cache, as an entry that is not dirty. -/
def cCoinsViewCache (base : CCoinsView) (cacheCoins : CCoinsMap) : CCoinsView where
  getCoin key :=
    match cacheCoins.find key with
    | some entry => if entry.coin.isSpent then none else some entry.coin
    | none => (base.getCoin key).filter fun coin => !coin.isSpent
  cursor := base.cursor.map fun cursor => cacheCoinsCursor cursor cacheCoins

/-- The cursor over a list of records. -/
def recordsCursor (records : List (CoinKey × Coin)) : CCoinsViewCursor where
  State := List (CoinKey × Coin)
  start := records
  valid s := !s.isEmpty
  getKey s := s.head?.map Prod.fst
  getValue s := s.head?.map Prod.snd
  next s := s.tail

/-- The database, which keeps its records in the order of their keys. -/
def cCoinsViewDB (records : List (CoinKey × Coin)) : CCoinsView where
  getCoin key := records.lookup key
  cursor := some (recordsCursor records)

/-! What a walk is meant to be. -/

/-- The coins that the cursor hands out from a state on. -/
def CCoinsViewCursor.Yields (cursor : CCoinsViewCursor) :
    cursor.State → List (CoinKey × Coin) → Prop
  | s, [] => cursor.valid s = false
  | s, (key, coin) :: rest =>
    cursor.valid s = true ∧ cursor.getKey s = some key ∧ cursor.getValue s = some coin ∧
      cursor.Yields (cursor.next s) rest

/-- The unspent coin of a view under a key. -/
def CCoinsView.unspentCoin (view : CCoinsView) (key : CoinKey) : Option Coin :=
  (view.getCoin key).filter fun coin => !coin.isSpent

/-- The list of the view's unspent coins in increasing key order. -/
structure CCoinsView.Lists (view : CCoinsView) (coins : List (CoinKey × Coin)) : Prop where
  increasing : Increasing coins
  mem_iff : ∀ key coin, (key, coin) ∈ coins ↔ view.unspentCoin key = some coin

/-- The cursor of the view hands out exactly its unspent coins, once each and in key order. -/
def CCoinsView.WalksExactly (view : CCoinsView) : Prop :=
  ∃ cursor coins, view.cursor = some cursor ∧ cursor.Yields cursor.start coins ∧ view.Lists coins

/-- What an entry says about its coin. -/
def CCoinsCacheEntry.unspent (entry : CCoinsCacheEntry) : Option Coin :=
  if entry.coin.isSpent then none else some entry.coin

/-- An entry that is not dirty says what the view below says. -/
def CCoinsMap.Agrees (cache : CCoinsMap) (base : CCoinsView) : Prop :=
  ∀ key entry, (key, entry) ∈ cache.entries → entry.dirty = false →
    entry.unspent = base.unspentCoin key

/-- A stack of caches, the lowest one first. -/
def stackView (base : CCoinsView) (caches : List CCoinsMap) : CCoinsView :=
  caches.foldl cCoinsViewCache base

def StackAgrees (base : CCoinsView) : List CCoinsMap → Prop
  | [] => True
  | cache :: above => cache.Agrees base ∧ StackAgrees (cCoinsViewCache base cache) above

section Walk

variable {base : CCoinsViewCursor} {cache : CCoinsMap}

/-- The changes that the entries of the cache make. -/
private def changesOf (entries : List (CoinKey × Coin)) : List (CoinKey × Option Coin) :=
  entries.map fun entry => (entry.1, if entry.2.isSpent then none else some entry.2)

private theorem changesOf_cons {key : CoinKey} {coin : Coin} {rest : List (CoinKey × Coin)} :
    changesOf ((key, coin) :: rest) =
      (key, if coin.isSpent then none else some coin) :: changesOf rest := rfl

private theorem first_of_increasing {key : CoinKey} {coin : Coin} {rest : List (CoinKey × Coin)}
    (increasing : Increasing ((key, coin) :: rest)) : ∀ entry ∈ changesOf rest, key < entry.1 := by
  intro entry member
  obtain ⟨source, inside, rfl⟩ := List.mem_map.mp member
  exact (increasing_cons.mp increasing).1 source inside

/-- What the merged walk hands out from one of its states on. -/
private def HandsOut (base : CCoinsViewCursor) (cache : CCoinsMap) (s : CacheState base.State)
    (coins : List (CoinKey × Coin)) : Prop :=
  (cacheCoinsCursor base cache).Yields s coins

private theorem yields_from_cache {b : base.State} {key : CoinKey} {coin : Coin}
    {rest result : List (CoinKey × Coin)} (later : HandsOut base cache (seek base b rest) result) :
    HandsOut base cache ⟨b, (key, coin) :: rest, true⟩ ((key, coin) :: result) :=
  ⟨rfl, rfl, rfl, later⟩

private theorem yields_from_base {b : base.State} {key : CoinKey} {coin : Coin}
    {changed coins result : List (CoinKey × Coin)} (walk : base.Yields b ((key, coin) :: coins))
    (later : HandsOut base cache (seek base (base.next b) changed) result) :
    HandsOut base cache ⟨b, changed, false⟩ ((key, coin) :: result) := by
  obtain ⟨valid, foundKey, foundCoin, _⟩ := walk
  refine ⟨valid, ?_, ?_, ?_⟩
  · exact (if_pos valid).trans foundKey
  · exact (if_pos valid).trans foundCoin
  · have next : (cacheCoinsCursor base cache).next ⟨b, changed, false⟩ =
        seek base (base.next b) changed :=
      if_pos valid
    exact next ▸ later

private theorem seek_of_invalid {b : base.State} (ended : base.valid b = false) {key : CoinKey}
    {coin : Coin} {rest : List (CoinKey × Coin)} : seek base b ((key, coin) :: rest) =
      if coin.isSpent = false then ⟨b, (key, coin) :: rest, true⟩ else seek base b rest := by
  simp [seek, ended]

private theorem seek_of_valid {b : base.State} {key baseKey : CoinKey} {coin : Coin}
    (valid : base.valid b = true)
    (found : base.getKey b = some baseKey) {rest : List (CoinKey × Coin)} :
    seek base b ((key, coin) :: rest) =
      if baseKey < key then ⟨b, (key, coin) :: rest, false⟩
      else
        let b := if baseKey = key then base.next b else b
        if coin.isSpent = false then ⟨b, (key, coin) :: rest, true⟩ else seek base b rest := by
  simp [seek, valid, found, coinDatabaseKeyLess_iff]

private theorem seek_yields {b : base.State} {coins changed : List (CoinKey × Coin)}
    (walk : base.Yields b coins) (increasing : Increasing coins) (sorted : Increasing changed) :
    ∃ result, Merged coins (changesOf changed) result ∧
      HandsOut base cache (seek base b changed) result := by
  induction changed generalizing b coins with
  | nil =>
    refine ⟨coins, .nil increasing, ?_⟩
    induction coins generalizing b with
    | nil => exact walk
    | cons entry coins ih =>
      exact yields_from_base walk (ih walk.2.2.2 (increasing_cons.mp increasing).2)
  | cons entry rest ihChanged =>
    obtain ⟨key, coin⟩ := entry
    have first := first_of_increasing sorted
    have sorted' := (increasing_cons.mp sorted).2
    -- the entry of the cache is handed out or skipped when it comes before the rest of the base
    have takeEntry : ∀ {b : base.State} {coins : List (CoinKey × Coin)}, base.Yields b coins →
        Increasing coins →
        (∀ entry ∈ coins, key < entry.1) → ∃ result,
        Merged coins (changesOf ((key, coin) :: rest)) result ∧
          HandsOut base cache
            (if coin.isSpent = false then ⟨b, (key, coin) :: rest, true⟩ else seek base b rest)
            result := by
      intro b coins walk increasing before
      obtain ⟨result, merged, later⟩ := ihChanged walk increasing sorted'
      rw [changesOf_cons]
      by_cases spent : coin.isSpent = true
      · rw [if_pos spent, if_neg (by simp [spent])]
        exact ⟨result, merged.remove before, later⟩
      · rw [if_neg spent, if_pos (by simpa using spent)]
        exact ⟨(key, coin) :: result, merged.set before first, yields_from_cache later⟩
    induction coins generalizing b with
    | nil =>
      rw [seek_of_invalid walk]
      exact takeEntry walk increasing (by simp)
    | cons baseEntry coins ihCoins =>
      obtain ⟨baseKey, baseCoin⟩ := baseEntry
      obtain ⟨above, increasing'⟩ := increasing_cons.mp increasing
      rw [seek_of_valid walk.1 walk.2.1]
      rcases lt_trichotomy baseKey key with less | same | greater
      · rw [if_pos less]
        obtain ⟨result, merged, later⟩ := ihCoins walk.2.2.2 increasing'
        refine ⟨(baseKey, baseCoin) :: result, merged.keep above ?_, yields_from_base walk later⟩
        intro entry member
        rcases List.mem_cons.mp member with rfl | inside
        · exact less
        · exact less.trans (first entry inside)
      · subst same
        obtain ⟨result, merged, yields⟩ := takeEntry walk.2.2.2 increasing' above
        rw [if_neg (lt_irrefl _)]
        dsimp only
        rw [if_pos rfl]
        exact ⟨result, merged.hide, yields⟩
      · rw [if_neg (not_lt_of_gt greater)]
        dsimp only
        rw [if_neg (ne_of_gt greater)]
        apply takeEntry walk increasing
        intro entry member
        rcases List.mem_cons.mp member with rfl | inside
        · exact greater
        · exact greater.trans (above entry inside)

end Walk

section Cache

variable {cache : CCoinsMap} {base : CCoinsView} {key : CoinKey} {entry : CCoinsCacheEntry}
  {coin : Coin}

theorem CCoinsMap.agree (cache : CCoinsMap) : Agree cache.entries := by
  intro key a b memberA memberB
  have same := List.inj_on_of_nodup_map cache.nodup memberA memberB rfl
  exact (Prod.mk.inj same).2

theorem CCoinsMap.find_eq_some : cache.find key = some entry ↔ (key, entry) ∈ cache.entries :=
  ⟨mem_of_lookup, lookup_of_mem cache.agree⟩

private theorem mem_changes {change : Option Coin} :
    (key, change) ∈ changesOf (changedEntries cache) ↔
    ∃ entry, cache.find key = some entry ∧ entry.dirty = true ∧ entry.unspent = change := by
  unfold changesOf changedEntries
  rw [List.mem_map]
  constructor
  · rintro ⟨changed, member, same⟩
    obtain ⟨⟨other, entry⟩, inside, rfl⟩ := List.mem_map.mp ((List.mem_insertionSort _).mp member)
    obtain ⟨present, dirty⟩ := List.mem_filter.mp inside
    cases same
    exact ⟨entry, CCoinsMap.find_eq_some.mpr present, dirty, rfl⟩
  · rintro ⟨entry, found, dirty, rfl⟩
    refine ⟨(key, entry.coin),
      (List.mem_insertionSort _).mpr (List.mem_map.mpr ⟨(key, entry), ?_, rfl⟩), rfl⟩
    exact List.mem_filter.mpr ⟨CCoinsMap.find_eq_some.mp found, dirty⟩

private theorem increasing_changedEntries (cache : CCoinsMap) :
    Increasing (changedEntries cache) := by
  have ordered : ∀ a b : CoinKey × Coin, coinDatabaseKeyLess b.1.toCOutPoint a.1.toCOutPoint =
      false ↔ a.1 ≤ b.1 := by
    intro a b
    rw [← not_lt, ← coinDatabaseKeyLess_iff, Bool.not_eq_true]
  have total : Std.Total fun a b : CoinKey × Coin =>
      coinDatabaseKeyLess b.1.toCOutPoint a.1.toCOutPoint = false :=
    ⟨fun a b => by rw [ordered, ordered]; exact le_total a.1 b.1⟩
  have trans : IsTrans (CoinKey × Coin) fun a b =>
      coinDatabaseKeyLess b.1.toCOutPoint a.1.toCOutPoint = false := by
    refine ⟨fun a b c => ?_⟩
    rw [ordered, ordered, ordered]
    exact le_trans
  have distinct : ((changedEntries cache).map Prod.fst).Nodup := by
    have perm := List.perm_insertionSort
      (fun a b : CoinKey × Coin => coinDatabaseKeyLess b.1.toCOutPoint a.1.toCOutPoint = false)
      ((cache.entries.filter fun entry => entry.2.dirty).map fun entry => (entry.1, entry.2.coin))
    unfold changedEntries
    rw [(perm.map Prod.fst).nodup_iff, List.map_map]
    exact (List.filter_sublist.map Prod.fst).nodup cache.nodup
  have sorted : (changedEntries cache).Pairwise fun a b =>
      coinDatabaseKeyLess b.1.toCOutPoint a.1.toCOutPoint = false := List.pairwise_insertionSort _ _
  refine (sorted.and (List.pairwise_map.mp distinct)).imp ?_
  rintro a b ⟨atMost, different⟩
  exact lt_of_le_of_ne ((ordered a b).mp atMost) different

theorem unspentCoin_cache (base : CCoinsView) (cache : CCoinsMap) (key : CoinKey) :
    (cCoinsViewCache base cache).unspentCoin key =
    ((cache.find key).map CCoinsCacheEntry.unspent).getD
      (base.unspentCoin key) := by
  unfold CCoinsView.unspentCoin cCoinsViewCache
  dsimp only
  cases cache.find key with
  | none => simp
  | some entry =>
    dsimp only [Option.map_some, Option.getD_some]
    unfold CCoinsCacheEntry.unspent
    split_ifs with spent
    · rfl
    · simp [spent]

private theorem walksExactly_cache (walks : base.WalksExactly) (agrees : cache.Agrees base) :
    (cCoinsViewCache base cache).WalksExactly := by
  obtain ⟨cursor, coins, opened, walk, lists⟩ := walks
  obtain ⟨result, merged, yields⟩ :=
    @seek_yields cursor cache cursor.start coins _ walk lists.increasing
    (increasing_changedEntries cache)
  refine ⟨cacheCoinsCursor cursor cache, result, ?_, yields, merged.increasing, ?_⟩
  · exact congrArg (Option.map fun cursor => cacheCoinsCursor cursor cache) opened
  intro key coin
  rw [merged.mem_iff, unspentCoin_cache, lists.mem_iff]
  simp only [mem_changes]
  cases found : cache.find key with
  | none => simp
  | some entry =>
    by_cases dirty : entry.dirty = true
    · simp [dirty]
    · have below := agrees key entry (CCoinsMap.find_eq_some.mp found) (by simpa using dirty)
      simp [dirty, below]

theorem walksExactly_stack {caches : List CCoinsMap} (walks : base.WalksExactly)
    (agrees : StackAgrees base caches) :
    (stackView base caches).WalksExactly := by
  induction caches generalizing base with
  | nil => exact walks
  | cons cache above ih =>
    rw [stackView, List.foldl_cons]
    exact ih (walksExactly_cache walks agrees.1) agrees.2

end Cache

private theorem Yields.unique {cursor : CCoinsViewCursor} {s : cursor.State}
    {coins coins' : List (CoinKey × Coin)}
    (walk : cursor.Yields s coins) (walk' : cursor.Yields s coins') : coins = coins' := by
  induction coins generalizing s coins' with
  | nil =>
    cases coins' with
    | nil => rfl
    | cons entry rest =>
      rw [CCoinsViewCursor.Yields] at walk
      rw [walk'.1] at walk
      cases walk
  | cons entry rest ih =>
    cases coins' with
    | nil =>
      rw [CCoinsViewCursor.Yields] at walk'
      rw [walk.1] at walk'
      cases walk'
    | cons entry' rest' =>
      obtain ⟨_, key, coin, later⟩ := walk
      obtain ⟨_, key', coin', later'⟩ := walk'
      rw [key, Option.some.injEq] at key'
      rw [coin, Option.some.injEq] at coin'
      rw [ih later later', Prod.ext key' coin']

theorem walksExactly_cCoinsViewDB {records : List (CoinKey × Coin)}
    (increasing : Increasing records)
    (unspent : ∀ record ∈ records, record.2.isSpent = false) :
    (cCoinsViewDB records).WalksExactly := by
  refine ⟨recordsCursor records, records, rfl, ?_, increasing, ?_⟩
  · have walk : ∀ rest, (recordsCursor records).Yields rest rest := by
      intro rest
      induction rest with
      | nil => rfl
      | cons record rest ih => exact ⟨rfl, rfl, rfl, ih⟩
    exact walk records
  · intro key coin
    have agree : Agree records := fun key a b memberA memberB => increasing.value_eq memberA memberB
    rw [CCoinsView.unspentCoin, Option.filter_eq_some_iff]
    constructor
    · intro member
      exact ⟨lookup_of_mem agree member, by simp [unspent _ member]⟩
    · rintro ⟨found, _⟩
      exact mem_of_lookup found

/-- The walk over a stack of caches hands out exactly the unspent coins of the stack, once each
and in database key order, and a stack of the same content hands out the same sequence. -/
theorem merged_walk_exact (base : CCoinsView) (caches : List CCoinsMap) (walks : base.WalksExactly)
    (agrees : StackAgrees base caches) :
    (stackView base caches).WalksExactly ∧
    ∀ base' caches', base'.WalksExactly → StackAgrees base' caches' →
      (∀ key, (stackView base' caches').unspentCoin key = (stackView base caches).unspentCoin key) →
      ∀ cursor cursor' coins coins', (stackView base caches).cursor = some cursor →
        (stackView base' caches').cursor = some cursor' → cursor.Yields cursor.start coins →
        cursor'.Yields cursor'.start coins' → coins' = coins := by
  refine ⟨walksExactly_stack walks agrees, ?_⟩
  intro base' caches' walks' agrees' same cursor cursor' coins coins' opened opened' walk walk'
  obtain ⟨_, listed, found, yields, lists⟩ := walksExactly_stack walks agrees
  obtain ⟨_, listed', found', yields', lists'⟩ := walksExactly_stack walks' agrees'
  obtain rfl := Option.some.inj (found.symm.trans opened)
  obtain rfl := Option.some.inj (found'.symm.trans opened')
  rw [Yields.unique walk yields, Yields.unique walk' yields']
  apply lists'.increasing.ext lists.increasing
  intro key coin
  rw [lists'.mem_iff, lists.mem_iff, same]

namespace WalkSample

def spentKey : CoinKey := ⟨⟨1, 0⟩, by norm_num, by norm_num⟩

def readKey : CoinKey := ⟨⟨1, 16511⟩, by norm_num, by norm_num⟩

def newKey : CoinKey := ⟨⟨1, 16512⟩, by norm_num, by norm_num⟩

def coin (value : ℤ) : Coin := ⟨⟨value, []⟩, false, 7⟩

/-- Output 16512 comes before output 16511 in the order of the keys. -/
def database : CCoinsView := cCoinsViewDB [(spentKey, coin 5), (readKey, coin 6)]

/-- The first coin is spent, the second one was only read, and a third one is new. -/
def cache : CCoinsMap where
  entries := [(readKey, ⟨coin 6, false⟩), (newKey, ⟨coin 8, true⟩),
    (spentKey, ⟨coin (-1), true⟩)]
  nodup := by decide

theorem walk_hides_spent :
    (stackView database [cache]).WalksExactly ∧
      (stackView database [cache]).unspentCoin spentKey = none ∧
      (stackView database [cache]).unspentCoin newKey = some (coin 8) := by
  have walks : database.WalksExactly := by
    apply walksExactly_cCoinsViewDB
    · refine Library.Overlay.increasing_cons.mpr ⟨?_,
        Library.Overlay.increasing_cons.mpr ⟨by simp, .nil⟩⟩
      intro entry member
      rw [List.mem_singleton.mp member, ← coinDatabaseKeyLess_iff]
      decide +kernel
    · decide
  have agrees : cache.Agrees database := by
    intro key entry member clean
    have only : (key, entry) = (readKey, ⟨coin 6, false⟩) := by
      simp only [cache, List.mem_cons, List.not_mem_nil, or_false] at member
      rcases member with same | same | same
      · exact same
      · cases same
        cases clean
      · cases same
        cases clean
    cases only
    decide +kernel
  exact ⟨(merged_walk_exact database [cache] walks ⟨agrees, trivial⟩).1,
    by decide +kernel, by decide +kernel⟩

end WalkSample

end DigiByte.Coins
