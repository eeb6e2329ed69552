import DigiByte.Coins.Database
import DigiByte.Library.WriteBack
import DigiByte.Script.Script

/-!
Coin caches over one another and over the coin database (`coins.cpp`).

A reading fills every cache that it passes, so that each operation gives the caches below back
as well. An entry without a value stands for a cleared coin. The memory accounting is left out.
-/

set_option autoImplicit false
set_option relaxedAutoImplicit false

namespace DigiByte.Coins

open DigiDollar (ChainstateHealth)
open Library.WriteBack (Entry)

/-- A coin object that is not cleared. -/
abbrev UnspentCoin := { coin : Coin // coin.isSpent = false }

/-- What a coin object holds, nothing where it is cleared. -/
def unspentOf (coin : Coin) : Option UnspentCoin :=
  if unspent : coin.isSpent = false then some ⟨coin, unspent⟩ else none

abbrev CacheCoins := AList fun _ : CoinKey => Entry UnspentCoin

structure CCoinsViewCache where
  hashBlock : ℕ := 0
  m_dd_state : Option ChainstateHealth := none
  m_dd_state_loaded : Bool := false
  cacheCoins : CacheCoins := ∅

/-- The caches, the topmost first, and the database that they end in. -/
structure CoinsStack where
  top : CCoinsViewCache
  below : List CCoinsViewCache
  db : CoinsDB

inductive CoinsError where
  | spentCoin
  | overwritesUnspent
  | freshMisapplied
  | notWritten
  deriving DecidableEq, Repr

def coinEmpty : Coin where
  out := ⟨-1, []⟩
  fCoinBase := false
  nHeight := 0

/-- The entry that a coin read from below is given. -/
def fetchedEntry (tmp : Option UnspentCoin) : Entry UnspentCoin where
  value := tmp
  dirty := false
  fresh := tmp.isNone

/-- `FetchCoin`: the entry under a key, with the cache and those below it after the reading. It
asks `GetCoin` of the view below only for a key that the cache does not have. -/
def CCoinsViewCache.fetchCoin (cache : CCoinsViewCache) (key : CoinKey)
    (below : List CCoinsViewCache) (base : Option (Option UnspentCoin) × List CCoinsViewCache) :
    Option (Entry UnspentCoin) × CCoinsViewCache × List CCoinsViewCache :=
  match cache.cacheCoins.lookup key with
  | some entry => (some entry, cache, below)
  | none =>
    match base.1 with
    | none => (none, cache, base.2)
    | some tmp =>
      (some (fetchedEntry tmp),
        { cache with cacheCoins := cache.cacheCoins.insert key (fetchedEntry tmp) }, base.2)

/-- `GetCoin` of the view below: the coin object where it returns true. A cache gives only unspent
coins, the database whatever it reads. -/
def getCoin (db : CoinsDB) (key : CoinKey) :
    List CCoinsViewCache → Option (Option UnspentCoin) × List CCoinsViewCache
  | [] => ((db.coins key).map unspentOf, [])
  | cache :: below =>
    let fetched := cache.fetchCoin key below (getCoin db key below)
    ((fetched.1.bind Entry.value).map some, fetched.2.1 :: fetched.2.2)

def CoinsStack.fetchCoin (stack : CoinsStack)
    (key : CoinKey) : Option (Entry UnspentCoin) × CoinsStack :=
  let fetched := stack.top.fetchCoin key stack.below (getCoin stack.db key stack.below)
  (fetched.1, { stack with top := fetched.2.1, below := fetched.2.2 })

def CCoinsViewCache.addCoin (cache : CCoinsViewCache) (key : CoinKey) (coin : Coin)
    (possible_overwrite : Bool) :
    Except CoinsError CCoinsViewCache :=
  match unspentOf coin with
  | none => .error .spentCoin
  | some coin =>
    if Script.isUnspendable coin.val.out.scriptPubKey then .ok cache
    else
      let it := (cache.cacheCoins.lookup key).getD ⟨none, false, false⟩
      if possible_overwrite = false ∧ it.value.isSome then .error .overwritesUnspent
      else
        let fresh := !possible_overwrite && !it.dirty
        .ok { cache with
          cacheCoins := cache.cacheCoins.insert key ⟨some coin, true, it.fresh || fresh⟩ }

/-- `SpendCoin`: what it returns, and the coin that it moves out. -/
def CoinsStack.spendCoin (stack : CoinsStack)
    (key : CoinKey) : (Bool × Option UnspentCoin) × CoinsStack :=
  let fetched := stack.fetchCoin key
  match fetched.1 with
  | none => ((false, none), fetched.2)
  | some it =>
    let top := fetched.2.top
    let cacheCoins :=
      if it.fresh then top.cacheCoins.erase key
      else top.cacheCoins.insert key { it with value := none, dirty := true }
    ((true, it.value), { fetched.2 with top := { top with cacheCoins } })

def CCoinsViewCache.uncache (cache : CCoinsViewCache) (key : CoinKey) : CCoinsViewCache :=
  match cache.cacheCoins.lookup key with
  | some it => if it.dirty || it.fresh then cache
      else { cache with cacheCoins := cache.cacheCoins.erase key }
  | none => cache

/-- `GetBestBlock`, which keeps the block it has read from below. -/
def CCoinsViewCache.getBestBlock (cache : CCoinsViewCache) (below : List CCoinsViewCache)
    (base : ℕ × List CCoinsViewCache) : ℕ × CCoinsViewCache × List CCoinsViewCache :=
  if cache.hashBlock = 0 then (base.1, { cache with hashBlock := base.1 }, base.2)
  else (cache.hashBlock, cache, below)

def getBestBlock (db : CoinsDB) : List CCoinsViewCache → ℕ × List CCoinsViewCache
  | [] => (db.getBestBlock, [])
  | cache :: below =>
    let best := cache.getBestBlock below (getBestBlock db below)
    (best.1, best.2.1 :: best.2.2)

/-- The record that `GetDigiDollarState` keeps, read from below where it is not loaded. -/
def CCoinsViewCache.loadState (cache : CCoinsViewCache) (below : List CCoinsViewCache)
    (base : Option ChainstateHealth × List CCoinsViewCache) :
    CCoinsViewCache × List CCoinsViewCache :=
  if cache.m_dd_state_loaded then (cache, below)
  else ({ cache with m_dd_state := base.1, m_dd_state_loaded := true }, base.2)

/-- `GetDigiDollarState`: a record is given only if it is valid and of the best block. -/
def CCoinsViewCache.getDigiDollarState (db : CoinsDB) (cache : CCoinsViewCache)
    (below : List CCoinsViewCache) (base : Option ChainstateHealth × List CCoinsViewCache) :
    Option ChainstateHealth × CCoinsViewCache × List CCoinsViewCache :=
  let loaded := cache.loadState below base
  match loaded.1.m_dd_state with
  | none => (none, loaded)
  | some state =>
    if state.isValid = false then (none, loaded)
    else
      let best := loaded.1.getBestBlock loaded.2 (Coins.getBestBlock db loaded.2)
      (if state.best_block ≠ best.1 then none else some state, best.2)

def getDigiDollarState (db : CoinsDB) : List CCoinsViewCache →
    Option ChainstateHealth × List CCoinsViewCache
  | [] => (db.getDigiDollarState, [])
  | cache :: below =>
    let state := cache.getDigiDollarState db below (getDigiDollarState db below)
    (state.1, state.2.1 :: state.2.2)

def CCoinsViewCache.setBestBlock (cache : CCoinsViewCache) (hashBlockIn : ℕ) : CCoinsViewCache :=
  { cache with hashBlock := hashBlockIn }

def CCoinsViewCache.setDigiDollarState (cache : CCoinsViewCache)
    (state : Option ChainstateHealth) : CCoinsViewCache :=
  { cache with m_dd_state := state, m_dd_state_loaded := true }

/-! `BatchWrite`. -/

/-- The loop body: an entry of the cache above. -/
def writeEntry (cacheCoins : CacheCoins) (it : Sigma fun _ : CoinKey => Entry UnspentCoin) :
    Except CoinsError CacheCoins :=
  if it.2.dirty = false then .ok cacheCoins
  else
    match cacheCoins.lookup it.1 with
    | none =>
      if it.2.fresh && it.2.value.isNone then .ok cacheCoins
      else .ok (cacheCoins.insert it.1 ⟨it.2.value, true, it.2.fresh⟩)
    | some itUs =>
      if it.2.fresh && itUs.value.isSome then .error .freshMisapplied
      else if itUs.fresh && it.2.value.isNone then .ok (cacheCoins.erase it.1)
      else .ok (cacheCoins.insert it.1 { itUs with value := it.2.value, dirty := true })

def CCoinsViewCache.batchWrite (cache : CCoinsViewCache) (mapCoins : CacheCoins) (hashBlockIn : ℕ)
    (dd_state : Option ChainstateHealth) : Except CoinsError CCoinsViewCache :=
  if (dd_state.any fun state => !state.isValid || state.best_block ≠ hashBlockIn) = true then
    .error .notWritten
  else do
    let cacheCoins ← mapCoins.entries.foldlM writeEntry cache.cacheCoins
    .ok (CCoinsViewCache.setDigiDollarState
      { cache with hashBlock := hashBlockIn, cacheCoins } dd_state)

/-- The map as the database takes it. -/
def CacheCoins.toMap (cacheCoins : CacheCoins) : CCoinsMap where
  entries := cacheCoins.entries.map fun it =>
    (it.1, ⟨(it.2.value.map Subtype.val).getD coinEmpty, it.2.dirty⟩)
  nodup := by
    have keys := cacheCoins.nodupKeys
    rw [List.map_map]
    exact keys

/-- The attributes of an entry that `SanityCheck` adds up: dirty, fresh and spent. -/
def entryAttr (entry : Entry UnspentCoin) : ℕ :=
  (if entry.dirty then 1 else 0) + (if entry.fresh then 2 else 0) +
    (if entry.value.isNone then 4 else 0)

/-- The assertion of `SanityCheck` on the flags. -/
def CCoinsViewCache.sanityCheck (cache : CCoinsViewCache) : Bool :=
  cache.cacheCoins.entries.all fun it =>
    entryAttr it.2 != 2 && entryAttr it.2 != 4 && entryAttr it.2 != 7

section Write

variable (sizeEstimate : List DbOp → ℕ) (batch_write_bytes : ℕ)

/-- `BatchWrite` of the view below, with all batches written where that is the database. -/
def writeBelow (db : CoinsDB) (below : List CCoinsViewCache) (mapCoins : CacheCoins) (hashBlock : ℕ)
    (dd_state : Option ChainstateHealth) : Except CoinsError (CoinsDB × List CCoinsViewCache) :=
  match below with
  | [] =>
    let batches := db.batchWrite sizeEstimate batch_write_bytes ⟨mapCoins.toMap, hashBlock,
      dd_state⟩
    if batches = [] then .error .notWritten else .ok (batches.foldl CoinsDB.writeBatch db, [])
  | next :: rest => do
    let next ← next.batchWrite mapCoins hashBlock dd_state
    .ok (db, next :: rest)

/-- What `Flush` and `Sync` share: the record, the block and the write. -/
def CoinsStack.write (stack : CoinsStack) : Except CoinsError CoinsStack := do
  let state :=
    stack.top.getDigiDollarState stack.db stack.below (getDigiDollarState stack.db stack.below)
  let best := state.2.1.getBestBlock state.2.2 (getBestBlock stack.db state.2.2)
  let written ← writeBelow sizeEstimate batch_write_bytes stack.db best.2.2 best.2.1.cacheCoins
    best.1 state.1
  .ok { top := best.2.1, below := written.2, db := written.1 }

def CoinsStack.flush (stack : CoinsStack) : Except CoinsError CoinsStack := do
  let stack ← stack.write sizeEstimate batch_write_bytes
  .ok { stack with top := { stack.top with cacheCoins := ∅ } }

/-- The loop body of `Sync` after the write. -/
def syncEntry (cacheCoins : CacheCoins) (it : Sigma fun _ : CoinKey => Entry UnspentCoin) :
    Except CoinsError CacheCoins :=
  if it.2.value.isNone then .ok (cacheCoins.erase it.1)
  else .ok (cacheCoins.insert it.1 { it.2 with dirty := false, fresh := false })

def CoinsStack.sync (stack : CoinsStack) : Except CoinsError CoinsStack := do
  let stack ← stack.write sizeEstimate batch_write_bytes
  let cacheCoins ← stack.top.cacheCoins.entries.foldlM syncEntry stack.top.cacheCoins
  .ok { stack with top := { stack.top with cacheCoins } }

/-! Runs of operations. -/

inductive CoinsOp where
  /-- Also `AccessCoin` and `HaveCoin`, which differ in how they give back the coin. -/
  | getCoin (key : CoinKey)
  | addCoin (key : CoinKey) (coin : Coin) (possible_overwrite : Bool)
  | spendCoin (key : CoinKey)
  | uncache (key : CoinKey)
  | getBestBlock
  | setBestBlock (hashBlock : ℕ)
  | getDigiDollarState
  | setDigiDollarState (state : Option ChainstateHealth)
  | flush
  | sync
  /-- A new cache over the topmost one. -/
  | layer
  /-- The topmost cache is dropped with what it was not asked to write. -/
  | discard

inductive CoinsReply where
  | done
  | coin (coin : Option UnspentCoin)
  | spent (returned : Bool) (moveout : Option UnspentCoin)
  | block (hash : ℕ)
  | state (state : Option ChainstateHealth)

def CoinsStack.step (stack : CoinsStack) : CoinsOp → Except CoinsError (CoinsReply × CoinsStack)
  | .getCoin key => .ok (.coin ((stack.fetchCoin key).1.bind Entry.value), (stack.fetchCoin key).2)
  | .addCoin key coin possible_overwrite => do
    let top ← stack.top.addCoin key coin possible_overwrite
    .ok (.done, { stack with top })
  | .spendCoin key =>
    let spent := stack.spendCoin key
    .ok (.spent spent.1.1 spent.1.2, spent.2)
  | .uncache key => .ok (.done, { stack with top := stack.top.uncache key })
  | .getBestBlock =>
    let best := stack.top.getBestBlock stack.below (Coins.getBestBlock stack.db stack.below)
    .ok (.block best.1, { stack with top := best.2.1, below := best.2.2 })
  | .setBestBlock hashBlock => .ok (.done, { stack with top := stack.top.setBestBlock hashBlock })
  | .getDigiDollarState =>
    let state := stack.top.getDigiDollarState stack.db stack.below
      (Coins.getDigiDollarState stack.db stack.below)
    .ok (.state state.1, { stack with top := state.2.1, below := state.2.2 })
  | .setDigiDollarState state =>
    .ok (.done, { stack with top := stack.top.setDigiDollarState state })
  | .flush => do
    let stack ← stack.flush sizeEstimate batch_write_bytes
    .ok (.done, stack)
  | .sync => do
    let stack ← stack.sync sizeEstimate batch_write_bytes
    .ok (.done, stack)
  | .layer => .ok (.done, { stack with top := {}, below := stack.top :: stack.below })
  | .discard =>
    match stack.below with
    | [] => .ok (.done, stack)
    | next :: rest => .ok (.done, { stack with top := next, below := rest })

def CoinsStack.run (stack : CoinsStack) : List CoinsOp →
    Except CoinsError (List CoinsReply × CoinsStack)
  | [] => .ok ([], stack)
  | op :: ops => do
    let stepped ← stack.step sizeEstimate batch_write_bytes op
    let rest ← CoinsStack.run stepped.2 ops
    .ok (stepped.1 :: rest.1, rest.2)

end Write

end DigiByte.Coins
