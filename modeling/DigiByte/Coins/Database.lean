import DigiByte.Coins.Cursor
import DigiByte.DigiDollar.State

/-!
The coin database and its DigiDollar record, written in batches (`txdb.cpp`, `coins.cpp`).

A batch is written as a whole or not at all. A call of `BatchWrite` may end after any of its
batches, because a write fails or because the process stops.
-/

set_option autoImplicit false
set_option relaxedAutoImplicit false

namespace DigiByte.Coins

open DigiDollar (ChainstateHealth)

/-- An operation of a batch. -/
inductive DbOp where
  | writeCoin (key : CoinKey) (coin : Coin)
  | eraseCoin (key : CoinKey)
  | writeBestBlock (hash : ℕ)
  | eraseBestBlock
  | writeHeadBlocks (hashes : List ℕ)
  | eraseHeadBlocks
  | writeHealth (record : ChainstateHealth)
  | eraseHealth

/-- What the database holds under its keys. -/
structure CoinsDB where
  coins : CoinKey → Option Coin := fun _ => none
  bestBlock : Option ℕ := none
  headBlocks : Option (List ℕ) := none
  ddHealth : Option ChainstateHealth := none

def CoinsDB.apply (db : CoinsDB) : DbOp → CoinsDB
  | .writeCoin key coin => { db with coins := Function.update db.coins key (some coin) }
  | .eraseCoin key => { db with coins := Function.update db.coins key none }
  | .writeBestBlock hash => { db with bestBlock := some hash }
  | .eraseBestBlock => { db with bestBlock := none }
  | .writeHeadBlocks hashes => { db with headBlocks := some hashes }
  | .eraseHeadBlocks => { db with headBlocks := none }
  | .writeHealth record => { db with ddHealth := some record }
  | .eraseHealth => { db with ddHealth := none }

def CoinsDB.writeBatch (db : CoinsDB) (batch : List DbOp) : CoinsDB := batch.foldl CoinsDB.apply db

/-- A missing block is the null hash. -/
def CoinsDB.getBestBlock (db : CoinsDB) : ℕ := db.bestBlock.getD 0

def CoinsDB.getHeadBlocks (db : CoinsDB) : List ℕ := db.headBlocks.getD []

def CoinsDB.getDigiDollarState (db : CoinsDB) : Option ChainstateHealth :=
  if db.headBlocks.isSome then none
  else db.ddHealth.filter fun state => state.isValid && state.best_block = db.getBestBlock

/-- The arguments of a call of `BatchWrite`. -/
structure WriteCall where
  mapCoins : CCoinsMap
  hashBlock : ℕ
  dd_state : Option ChainstateHealth

/-- What an entry of the map adds to the batch. -/
def entryOps (entry : CoinKey × CCoinsCacheEntry) : List DbOp :=
  if entry.2.dirty = false then []
  else if entry.2.coin.isSpent then [.eraseCoin entry.1] else [.writeCoin entry.1 entry.2.coin]

/-- The end of the last batch. -/
def finalOps (call : WriteCall) : List DbOp :=
  [.eraseHeadBlocks, .writeBestBlock call.hashBlock] ++
    match call.dd_state with
    | some record => [.writeHealth record]
    | none => [.eraseHealth]

section BatchWrite

variable (sizeEstimate : List DbOp → ℕ) (batch_write_bytes : ℕ)

/-- The batches that the loop over the map writes, from the batch that it has begun. -/
def splitBatches (final : List DbOp) : List (CoinKey × CCoinsCacheEntry) → List DbOp →
    List (List DbOp)
  | [], batch => [batch ++ final]
  | entry :: rest, batch =>
    let batch := batch ++ entryOps entry
    if sizeEstimate batch > batch_write_bytes then batch :: splitBatches final rest []
    else splitBatches final rest batch

/-- The tip that the transition starts from; `none` for the assertion that a write interrupted
before is finished with its own block. -/
def CoinsDB.oldTip (db : CoinsDB) (hashBlock : ℕ) : Option ℕ :=
  if db.getBestBlock ≠ 0 then some db.getBestBlock
  else match db.getHeadBlocks with
    | [head, old] => if head = hashBlock then some old else none
    | _ => some 0

/-- The batches of a call; none where it returns or stops at an assertion before it writes. -/
def CoinsDB.batchWrite (db : CoinsDB) (call : WriteCall) : List (List DbOp) :=
  if (call.dd_state.any fun state =>
      !state.isValid || state.best_block ≠ call.hashBlock) = true then []
  else if call.hashBlock = 0 then []
  else match db.oldTip call.hashBlock with
    | none => []
    | some old_tip =>
      splitBatches sizeEstimate batch_write_bytes (finalOps call) call.mapCoins.entries
        [.eraseBestBlock, .writeHeadBlocks [call.hashBlock, old_tip]]

/-- The database after some calls, and the last call that wrote anything with whether it wrote
its final batch. -/
structure WriteRun where
  db : CoinsDB := {}
  last : Option (WriteCall × Bool) := none

/-- A call that ends after so many batches, or after all of them where there are fewer. -/
def WriteRun.call (run : WriteRun) (call : WriteCall × ℕ) : WriteRun :=
  let batches := run.db.batchWrite sizeEstimate batch_write_bytes call.1
  if batches.take call.2 = [] then run
  else
    { db := (batches.take call.2).foldl CoinsDB.writeBatch run.db
      last := some (call.1, batches.length ≤ call.2) }

/-- The calls on a new database. -/
def writeRun (calls : List (WriteCall × ℕ)) : WriteRun :=
  calls.foldl (WriteRun.call sizeEstimate batch_write_bytes) {}

end BatchWrite

/-! The cache on top of the database, as far as the record goes. -/

structure CacheRecord where
  hashBlock : ℕ := 0
  m_dd_state : Option ChainstateHealth := none
  m_dd_state_loaded : Bool := false

def CacheRecord.getBestBlock (cache : CacheRecord) (base : CoinsDB) : ℕ :=
  if cache.hashBlock = 0 then base.getBestBlock else cache.hashBlock

def CacheRecord.getDigiDollarState (cache : CacheRecord)
    (base : CoinsDB) : Option ChainstateHealth :=
  let state := if cache.m_dd_state_loaded then cache.m_dd_state else base.getDigiDollarState
  state.filter fun state => state.isValid && state.best_block = cache.getBestBlock base

/-- The record that a node reads after the database is opened again. -/
def CoinsDB.reopenedState (db : CoinsDB) : Option ChainstateHealth :=
  ({} : CacheRecord).getDigiDollarState db

section Batches

variable {db : CoinsDB} {final batch : List DbOp} {entries : List (CoinKey × CCoinsCacheEntry)}

theorem CoinsDB.writeBatch_append (db : CoinsDB) (batch batch' : List DbOp) :
    db.writeBatch (batch ++ batch') = (db.writeBatch batch).writeBatch batch' := List.foldl_append

private theorem writeBatch_entryOps (db : CoinsDB) (entry : CoinKey × CCoinsCacheEntry) :
    db.writeBatch (entryOps entry) = { db with
      coins := if entry.2.dirty then Function.update db.coins entry.1 entry.2.unspent
        else db.coins } := by
  unfold entryOps CCoinsCacheEntry.unspent
  cases entry.2.dirty with
  | false => rfl
  | true =>
    cases entry.2.coin.isSpent with
    | false => rfl
    | true => rfl

private theorem headBlocks_entryOps (db : CoinsDB) (entry : CoinKey × CCoinsCacheEntry) :
    (db.writeBatch (batch ++ entryOps entry)).headBlocks = (db.writeBatch batch).headBlocks := by
  rw [CoinsDB.writeBatch_append, writeBatch_entryOps]

variable (sizeEstimate : List DbOp → ℕ) (batch_write_bytes : ℕ)

private theorem headBlocks_unfinished {n : ℕ} (begun : 0 < n)
    (stopped : n < (splitBatches sizeEstimate batch_write_bytes final entries batch).length) :
    (((splitBatches sizeEstimate batch_write_bytes final entries batch).take n).foldl
      CoinsDB.writeBatch db).headBlocks =
      (db.writeBatch batch).headBlocks := by
  induction entries generalizing db batch n with
  | nil =>
    rw [splitBatches, List.length_singleton] at stopped
    omega
  | cons entry rest ih =>
    unfold splitBatches at stopped ⊢
    dsimp only at stopped ⊢
    split_ifs at stopped ⊢ with large
    · obtain ⟨m, rfl⟩ := Nat.exists_eq_succ_of_ne_zero (Nat.ne_of_gt begun)
      rw [List.take_succ_cons, List.foldl_cons]
      rcases Nat.eq_zero_or_pos m with rfl | more
      · rw [List.take_zero, List.foldl_nil, headBlocks_entryOps]
      · rw [List.length_cons] at stopped
        rw [ih more (by omega)]
        exact headBlocks_entryOps db entry
    · rw [ih begun stopped, headBlocks_entryOps]

private theorem foldl_splitBatches (db : CoinsDB) :
    (splitBatches sizeEstimate batch_write_bytes final entries batch).foldl CoinsDB.writeBatch db =
      db.writeBatch (batch ++ entries.flatMap entryOps ++ final) := by
  induction entries generalizing db batch with
  | nil => rw [splitBatches, List.foldl_cons, List.foldl_nil, List.flatMap_nil, List.append_nil]
  | cons entry rest ih =>
    unfold splitBatches
    dsimp only
    split_ifs with large
    · rw [List.foldl_cons, ih, ← CoinsDB.writeBatch_append, List.flatMap_cons]
      simp only [List.nil_append, List.append_assoc]
    · rw [ih, List.flatMap_cons]
      simp only [List.append_assoc]

private theorem writeBatch_entries (distinct : (entries.map Prod.fst).Nodup) (db : CoinsDB) :
    ∃ coins, db.writeBatch (entries.flatMap entryOps) = { db with coins } ∧
      (∀ key entry, (key, entry) ∈ entries → entry.dirty = true → coins key = entry.unspent) ∧
      ∀ key, key ∉ entries.map Prod.fst → coins key = db.coins key := by
  induction entries generalizing db with
  | nil => exact ⟨db.coins, rfl, by simp, by simp⟩
  | cons first rest ih =>
    rw [List.map_cons, List.nodup_cons] at distinct
    rw [List.flatMap_cons, CoinsDB.writeBatch_append, writeBatch_entryOps]
    obtain ⟨coins, written, stored, kept⟩ := ih distinct.2 { db with
      coins := if first.2.dirty then Function.update db.coins first.1 first.2.unspent
        else db.coins }
    refine ⟨coins, written, ?_, ?_⟩
    · intro key entry member dirty
      rcases List.mem_cons.mp member with rfl | later
      · rw [kept key distinct.1]
        dsimp only
        rw [if_pos dirty, Function.update_self]
      · exact stored key entry later dirty
    · intro key absent
      rw [List.map_cons, List.mem_cons, not_or] at absent
      rw [kept key absent.2]
      dsimp only
      split_ifs
      · rw [Function.update_of_ne absent.1]
      · rfl

end Batches

section Consistency

variable {sizeEstimate : List DbOp → ℕ} {batch_write_bytes : ℕ} {db : CoinsDB} {call : WriteCall}

/-- The database after a call that wrote its final batch. -/
structure Committed (db : CoinsDB) (call : WriteCall) : Prop where
  headBlocks : db.headBlocks = none
  bestBlock : db.bestBlock = some call.hashBlock
  ddHealth : db.ddHealth = call.dd_state
  accepted : ∀ record ∈ call.dd_state, record.isValid = true ∧ record.best_block = call.hashBlock
  coins : ∀ key entry, (key, entry) ∈ call.mapCoins.entries → entry.dirty = true →
    db.coins key = entry.unspent

/-- The database in front of a call, by the last call that wrote anything. -/
def WriteRun.Consistent (run : WriteRun) : Prop :=
  match run.last with
  | none => run.db.headBlocks = none ∧ run.db.ddHealth = none
  | some (call, true) => Committed run.db call
  | some (_, false) => run.db.headBlocks.isSome

private theorem batchWrite_eq (db : CoinsDB) (call : WriteCall) :
    db.batchWrite sizeEstimate batch_write_bytes call = [] ∨
      (∀ record ∈ call.dd_state, record.isValid = true ∧ record.best_block = call.hashBlock) ∧
        ∃ old_tip, db.batchWrite sizeEstimate batch_write_bytes call =
          splitBatches sizeEstimate batch_write_bytes (finalOps call) call.mapCoins.entries
            [.eraseBestBlock, .writeHeadBlocks [call.hashBlock, old_tip]] := by
  unfold CoinsDB.batchWrite
  split_ifs with refused null
  · exact .inl rfl
  · exact .inl rfl
  · cases db.oldTip call.hashBlock with
    | none => exact .inl rfl
    | some old_tip =>
      refine .inr ⟨?_, old_tip, rfl⟩
      intro record carried
      rw [carried] at refused
      simpa using refused

private theorem committed_of_batches {old_tip : ℕ}
    (accepted : ∀ record ∈ call.dd_state, record.isValid = true ∧
      record.best_block = call.hashBlock) :
    Committed (db.writeBatch ([.eraseBestBlock, .writeHeadBlocks [call.hashBlock, old_tip]] ++
      call.mapCoins.entries.flatMap entryOps ++ finalOps call)) call := by
  rw [CoinsDB.writeBatch_append, CoinsDB.writeBatch_append]
  obtain ⟨coins, written, stored, _⟩ := writeBatch_entries call.mapCoins.nodup
    (db.writeBatch [.eraseBestBlock, .writeHeadBlocks [call.hashBlock, old_tip]])
  rw [written]
  unfold finalOps
  cases record : call.dd_state with
  | none => exact ⟨rfl, rfl, record.symm, accepted, stored⟩
  | some state => exact ⟨rfl, rfl, record.symm, accepted, stored⟩

private theorem consistent_call {run : WriteRun} (consistent : run.Consistent)
    (next : WriteCall × ℕ) :
    (run.call sizeEstimate batch_write_bytes next).Consistent := by
  unfold WriteRun.call
  dsimp only
  split_ifs with nothing
  · exact consistent
  rcases batchWrite_eq run.db next.1 with refused | ⟨accepted, old_tip, batches⟩
  · rw [refused, List.take_nil] at nothing
    exact absurd rfl nothing
  rw [batches] at nothing ⊢
  unfold WriteRun.Consistent
  dsimp only
  by_cases finished :
    (splitBatches sizeEstimate batch_write_bytes (finalOps next.1) next.1.mapCoins.entries
      [.eraseBestBlock, .writeHeadBlocks [next.1.hashBlock, old_tip]]).length ≤ next.2
  · rw [decide_eq_true finished, List.take_of_length_le finished, foldl_splitBatches]
    exact committed_of_batches accepted
  · have begun : 0 < next.2 := by
      rcases Nat.eq_zero_or_pos next.2 with zero | positive
      · rw [zero, List.take_zero] at nothing
        exact absurd rfl nothing
      · exact positive
    rw [decide_eq_false finished]
    dsimp only
    rw [headBlocks_unfinished sizeEstimate batch_write_bytes begun (not_le.mp finished)]
    rfl

private theorem consistent_calls {run : WriteRun} (consistent : run.Consistent)
    (calls : List (WriteCall × ℕ)) :
    (calls.foldl (WriteRun.call sizeEstimate batch_write_bytes) run).Consistent := by
  induction calls generalizing run with
  | nil => exact consistent
  | cons next rest ih =>
    rw [List.foldl_cons]
    exact ih (consistent_call consistent next)

theorem reopenedState_eq (db : CoinsDB) : db.reopenedState = db.getDigiDollarState := by
  change db.getDigiDollarState.filter _ = db.getDigiDollarState
  unfold CoinsDB.getDigiDollarState
  split_ifs
  · rfl
  · rw [Option.filter_filter]
    congr 1
    funext state
    exact Bool.and_self _

private theorem Committed.reopenedState (committed : Committed db call) :
    db.reopenedState = call.dd_state := by
  rw [reopenedState_eq, CoinsDB.getDigiDollarState, committed.headBlocks, committed.ddHealth,
    CoinsDB.getBestBlock, committed.bestBlock]
  cases carried : call.dd_state with
  | none => rfl
  | some record =>
    obtain ⟨valid, block⟩ := committed.accepted record carried
    simp [valid, block]

private theorem reopenedState_of_heads (interrupted : db.headBlocks.isSome) :
    db.reopenedState = none := by
  rw [reopenedState_eq, CoinsDB.getDigiDollarState, if_pos interrupted]

end Consistency

/-- Wherever the calls on a new database end, a node that opens it again reads the record of
the last call that wrote anything if that call wrote its final batch, and none otherwise. With
the final batch the dirty entries of the call and its block are in the database. -/
theorem dd_record_crash_consistent (sizeEstimate : List DbOp → ℕ) (batch_write_bytes : ℕ)
    (calls : List (WriteCall × ℕ)) :
    (∀ record, (writeRun sizeEstimate batch_write_bytes calls).db.reopenedState = some record ↔
      ∃ call, (writeRun sizeEstimate batch_write_bytes calls).last = some (call, true) ∧
        call.dd_state = some record) ∧
    ∀ call, (writeRun sizeEstimate batch_write_bytes calls).last = some (call, true) →
      (writeRun sizeEstimate batch_write_bytes calls).db.getBestBlock = call.hashBlock ∧
      (∀ record ∈ call.dd_state,
        record.best_block = (writeRun sizeEstimate batch_write_bytes calls).db.getBestBlock) ∧
      ∀ key entry, (key, entry) ∈ call.mapCoins.entries → entry.dirty = true →
        (writeRun sizeEstimate batch_write_bytes calls).db.coins key = entry.unspent := by
  have consistent : (writeRun sizeEstimate batch_write_bytes calls).Consistent :=
    consistent_calls (show WriteRun.Consistent {} from ⟨rfl, rfl⟩) calls
  generalize writeRun sizeEstimate batch_write_bytes calls = run at consistent ⊢
  unfold WriteRun.Consistent at consistent
  rcases last : run.last with _ | ⟨call, finished⟩
  · rw [last] at consistent
    have nothing : run.db.reopenedState = none := by
      rw [reopenedState_eq, CoinsDB.getDigiDollarState, consistent.1, consistent.2]
      rfl
    simp [nothing]
  · rw [last] at consistent
    cases finished with
    | false =>
      rw [reopenedState_of_heads consistent]
      simp
    | true =>
      have committed : Committed run.db call := consistent
      have block : run.db.getBestBlock = call.hashBlock := by
        rw [CoinsDB.getBestBlock, committed.bestBlock]
        rfl
      constructor
      · intro record
        rw [committed.reopenedState]
        simp
      · rintro other same
        cases same
        refine ⟨block, ?_, committed.coins⟩
        intro record carried
        rw [block, (committed.accepted record carried).2]

section Written

variable {sizeEstimate : List DbOp → ℕ} {batch_write_bytes : ℕ} {db : CoinsDB} {call : WriteCall}

private theorem splitBatches_ne_nil (final : List DbOp)
    (entries : List (CoinKey × CCoinsCacheEntry)) (batch : List DbOp) :
    splitBatches sizeEstimate batch_write_bytes final entries batch ≠ [] := by
  induction entries generalizing batch with
  | nil => simp [splitBatches]
  | cons entry rest ih =>
    unfold splitBatches
    dsimp only
    split_ifs
    · exact List.cons_ne_nil _ _
    · exact ih _

private theorem flatMap_entryOps_dirty (entries : List (CoinKey × CCoinsCacheEntry)) :
    (entries.filter fun entry => entry.2.dirty).flatMap entryOps = entries.flatMap entryOps := by
  induction entries with
  | nil => rfl
  | cons entry rest ih =>
    cases dirty : entry.2.dirty with
    | false => simp [dirty, ih, entryOps]
    | true => simp [dirty, ih]

theorem passes_of_accepted {hashBlock : ℕ} {dd_state : Option ChainstateHealth}
    (accepted : ∀ record ∈ dd_state, record.isValid = true ∧ record.best_block = hashBlock) :
    ¬ (dd_state.any fun state => !state.isValid || state.best_block ≠ hashBlock) = true := by
  intro refused
  obtain ⟨record, carried, refused⟩ := Option.any_eq_true _ _ |>.mp refused
  simp [accepted record carried] at refused

/-- A call with a block and a record of it, on a database without an unfinished write, is written
as a whole. Coins without a dirty entry stay. -/
theorem CoinsDB.batchWrite_written (finished : db.headBlocks = none) (block : call.hashBlock ≠ 0)
    (accepted : ∀ record ∈ call.dd_state, record.isValid = true ∧
      record.best_block = call.hashBlock) :
    db.batchWrite sizeEstimate batch_write_bytes call ≠ [] ∧
      ∃ coins, (db.batchWrite sizeEstimate batch_write_bytes call).foldl CoinsDB.writeBatch db =
          { coins, bestBlock := some call.hashBlock, headBlocks := none
            ddHealth := call.dd_state } ∧
        (∀ key entry, (key, entry) ∈ call.mapCoins.entries → entry.dirty = true →
          coins key = entry.unspent) ∧
        ∀ key, (∀ entry, (key, entry) ∈ call.mapCoins.entries → entry.dirty = false) →
        coins key = db.coins key := by
  have begun : ∃ old_tip, db.oldTip call.hashBlock = some old_tip := by
    unfold CoinsDB.oldTip CoinsDB.getHeadBlocks
    rw [finished]
    split_ifs
    · exact ⟨_, rfl⟩
    · exact ⟨0, rfl⟩
  obtain ⟨old_tip, begun⟩ := begun
  have batches : db.batchWrite sizeEstimate batch_write_bytes call =
      splitBatches sizeEstimate batch_write_bytes (finalOps call) call.mapCoins.entries
        [.eraseBestBlock, .writeHeadBlocks [call.hashBlock, old_tip]] := by
    rw [CoinsDB.batchWrite, if_neg (passes_of_accepted accepted), if_neg block, begun]
  rw [batches]
  constructor
  · exact splitBatches_ne_nil _ _ _
  rw [foldl_splitBatches, CoinsDB.writeBatch_append, CoinsDB.writeBatch_append,
    ← flatMap_entryOps_dirty]
  have distinct : ((call.mapCoins.entries.filter fun entry => entry.2.dirty).map Prod.fst).Nodup :=
    call.mapCoins.nodup.sublist (List.filter_sublist.map _)
  obtain ⟨coins, written, stored, kept⟩ := writeBatch_entries distinct
    (db.writeBatch [.eraseBestBlock, .writeHeadBlocks [call.hashBlock, old_tip]])
  rw [written]
  refine ⟨coins, ?_, ?_, ?_⟩
  · unfold finalOps
    cases call.dd_state with
    | none => rfl
    | some state => rfl
  · intro key entry member dirty
    exact stored key entry (List.mem_filter.mpr ⟨member, dirty⟩) dirty
  · intro key clean
    refine kept key ?_
    intro changed
    obtain ⟨⟨other, entry⟩, listed, same⟩ := List.mem_map.mp changed
    obtain ⟨member, dirty⟩ := List.mem_filter.mp listed
    subst same
    rw [clean entry member] at dirty
    cases dirty

end Written

namespace RecordSample

/-- The record of an empty vault set at block 3. -/
def record : ChainstateHealth :=
  { genesis_hash := 1, activation_height := 0, digidollar_height := 0, best_block := 3 }

def call : WriteCall := ⟨WalkSample.cache, 3, some record⟩

/-- Every operation fills a batch: the call writes one batch for each entry and the final one. -/
theorem record_after_final_batch :
    (writeRun List.length 0 [(call, 1), (call, 4)]).db.reopenedState = some record ∧
      (writeRun List.length 0 [(call, 4), (call, 1)]).db.reopenedState = none := by
  constructor
  · exact ((dd_record_crash_consistent List.length 0 [(call, 1), (call, 4)]).1 record).mpr ⟨call,
    rfl, rfl⟩
  · rw [Option.eq_none_iff_forall_ne_some]
    intro found same
    obtain ⟨_, last, _⟩ :=
      ((dd_record_crash_consistent List.length 0 [(call, 4), (call, 1)]).1 found).mp same
    cases last

end RecordSample

end DigiByte.Coins
