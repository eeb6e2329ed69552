import DigiByte.Coins.Cache

/-!
What a stack of coin caches stands for: for each cache a whole map of unspent coins, a best block
and a record, without flags and without sharing.
-/

set_option autoImplicit false
set_option relaxedAutoImplicit false

namespace DigiByte.Coins

open DigiDollar (ChainstateHealth)
open Library.WriteBack

@[ext]
structure CoinsState where
  coins : CoinKey → Option UnspentCoin
  best : ℕ
  record : Option ChainstateHealth

/-- The record that is given out. -/
def CoinsState.answer (state : CoinsState) : Option ChainstateHealth :=
  state.record.filter fun record => record.isValid && record.best_block = state.best

def CoinsDB.state (db : CoinsDB) : CoinsState where
  coins key := (db.coins key).bind unspentOf
  best := db.getBestBlock
  record := db.getDigiDollarState

/-- A cache over what the view below stands for. -/
def CCoinsViewCache.state (below : CoinsState) (cache : CCoinsViewCache) : CoinsState where
  coins key := read (below.coins key) (cache.cacheCoins.lookup key)
  best := if cache.hashBlock = 0 then below.best else cache.hashBlock
  record := if cache.m_dd_state_loaded then cache.m_dd_state else below.answer

/-- The states of the caches and of the database, the topmost first. -/
def stateOf (db : CoinsDB) : List CCoinsViewCache → CoinsState
  | [] => db.state
  | cache :: below => cache.state (stateOf db below)

def statesOf (db : CoinsDB) : List CCoinsViewCache → List CoinsState
  | [] => [db.state]
  | cache :: below => stateOf db (cache :: below) :: statesOf db below

/-- The flags of every entry are true of the view below its cache. -/
def Coherent (db : CoinsDB) : List CCoinsViewCache → Prop
  | [] => db.headBlocks = none
  | cache :: below =>
    (∀ key, SoundCell ((stateOf db below).coins key) (cache.cacheCoins.lookup key)) ∧
    Coherent db below

/-! The operations on plain states. -/

/-- The states of the topmost cache, of the view below it and of those further down. -/
structure PlainStack where
  top : CoinsState
  next : CoinsState
  rest : List CoinsState

def PlainStack.states (plain : PlainStack) : List CoinsState :=
  plain.top :: plain.next :: plain.rest

/-- Both `Flush` and `Sync` make the view below equal to the topmost one. -/
def PlainStack.write (plain : PlainStack) : PlainStack :=
  { plain with next := { plain.top with record := plain.top.answer } }

def PlainStack.step (plain : PlainStack) : CoinsOp → CoinsReply × PlainStack
  | .getCoin key => (.coin (plain.top.coins key), plain)
  | .addCoin key coin _ =>
    if Script.isUnspendable coin.out.scriptPubKey then (.done, plain)
    else (.done, { plain with top.coins := Function.update plain.top.coins key (unspentOf coin) })
  | .spendCoin key =>
    (.spent (plain.top.coins key).isSome (plain.top.coins key),
      { plain with top.coins := Function.update plain.top.coins key none })
  | .uncache _ => (.done, plain)
  | .getBestBlock => (.block plain.top.best, plain)
  | .setBestBlock hashBlock =>
    (.done, { plain with top.best := if hashBlock = 0 then plain.next.best else hashBlock })
  | .getDigiDollarState => (.state plain.top.answer, plain)
  | .setDigiDollarState state => (.done, { plain with top.record := state })
  | .flush | .sync => (.done, plain.write)
  | .layer =>
    (.done, ⟨{ plain.top with record := plain.top.answer }, plain.top, plain.next :: plain.rest⟩)
  | .discard =>
    match plain.rest with
    | [] => (.done, plain)
    | first :: rest => (.done, ⟨plain.next, first, rest⟩)

def PlainStack.run (plain : PlainStack) : List CoinsOp → List CoinsReply × PlainStack
  | [] => ([], plain)
  | op :: ops =>
    let stepped := plain.step op
    let rest := PlainStack.run stepped.2 ops
    (stepped.1 :: rest.1, rest.2)

/-- What the caller has to see to. A coin that is added without `possible_overwrite` must not be
there yet, and a write to the database needs a block. -/
def PlainStack.Permits (plain : PlainStack) : CoinsOp → Prop
  | .addCoin key coin possible_overwrite => coin.isSpent = false ∧
      (possible_overwrite = true ∨ Script.isUnspendable coin.out.scriptPubKey = true ∨
        plain.top.coins key = none)
  | .flush | .sync => plain.rest = [] → plain.top.best ≠ 0
  | _ => True

def PlainStack.PermitsAll (plain : PlainStack) : List CoinsOp → Prop
  | [] => True
  | op :: ops => plain.Permits op ∧ PlainStack.PermitsAll (plain.step op).2 ops

/-- Replies agree, but that `SpendCoin` may also return true for a coin that the cache knows to be
spent. The coin that it moves out is then a cleared one. -/
def CoinsReply.Agrees : CoinsReply → CoinsReply → Prop
  | .spent returned moveout, .spent returned' moveout' =>
    moveout = moveout' ∧ (returned' = true → returned = true)
  | reply, reply' => reply = reply'

/-- A stack of caches and the plain states that it stands for. -/
structure Represents (stack : CoinsStack) (plain : PlainStack) : Prop where
  coherent : Coherent stack.db (stack.top :: stack.below)
  states : statesOf stack.db (stack.top :: stack.below) = plain.states

end DigiByte.Coins
