import DigiByte.Consensus.Subsidy
import DigiByte.Library.Dependents
import DigiByte.Oracle.BundleScript

/-!
Taking price-dependent DigiDollar transactions out of a block template
(`node/miner.cpp`).

The transaction hash, the witness commitment and the block weight are computed from
serialized data and are parameters, as is what the oracle code has ready for the miner.
Witness data, the merkle root and the statistics of the last template are left out.
-/

set_option autoImplicit false
set_option relaxedAutoImplicit false

namespace DigiByte.Node

open Consensus (Params)
open Consensus.Subsidy (getBlockSubsidy)
open DigiDollar (hasDigiDollarMarker getDigiDollarTxType)
open Script (Bytes OP_RETURN OP_CHECKSIG isUnspendable scriptOps)
open Oracle (OracleEnv CBlock COracleBundle ORACLE_MAX_AGE_SECONDS blockNeedsOraclePrice
  getCurrentEpoch isDigiDollarEnabled)
open Library

structure CBlockTemplate where
  block : CBlock
  vTxFees : List ℤ
  vTxSigOpsCost : List ℤ
  vchCoinbaseCommitment : Bytes

structure BlockAssembler where
  pblocktemplate : CBlockTemplate
  nHeight : ℤ
  nBlockTx : ℕ
  nFees : ℤ
  nBlockWeight : ℕ
  nBlockSigOpsCost : ℤ

/-- What the oracle code has ready for the miner: the completed signing session of an epoch
(signature, bitmap, price and time stamp) and its cached bundle. -/
structure OracleBundleManager where
  enabled : Bool
  completedSession : (epoch : ℤ) → Option (Bytes × Bytes × ℕ × ℤ)
  currentBundle : (epoch : ℤ) → COracleBundle
  time : ℤ

structure MinerEnv where
  oracle : OracleEnv
  manager : OracleBundleManager
  transactionHash : CTransaction → ℕ
  /-- The hash of the witness root with the reserved value, 32 bytes. -/
  witnessCommitment : CBlock → Bytes
  blockWeight : CBlock → ℕ

/-! Which transactions are taken out. -/

def transactionNeedsOraclePriceForMiner (tx : CTransaction) : Bool :=
  if hasDigiDollarMarker tx = false then false
  else getDigiDollarTxType tx == .mint || getDigiDollarTxType tx == .redeem

def blockNeedsOraclePriceForMiner (block : CBlock) : Bool :=
  (block.vtx.drop 1).any transactionNeedsOraclePriceForMiner

/-- The kind of transaction that is taken out. -/
def removeDD (mint_only : Bool) (tx : CTransaction) : Bool :=
  if mint_only then hasDigiDollarMarker tx && getDigiDollarTxType tx == .mint
  else transactionNeedsOraclePriceForMiner tx

/-- The hashes of the transactions that a transaction spends from. -/
def spentHashes (tx : CTransaction) : List ℕ := tx.vin.map fun input => input.prevout.hash

/-- The vectors that the loop builds. -/
structure Kept where
  vtx : List CTransaction
  fees : List ℤ
  sigops : List ℤ
  fee_total : ℤ
  removed : ℕ
  removed_txids : List ℕ

/-- The loop body for the transaction at one index. -/
def keepOrRemove (mint_only : Bool) (vTxFees vTxSigOpsCost : List ℤ) (kept : Kept)
    (entry : CTransaction × ℕ) : Kept :=
  let tx := entry.1
  let spends_removed := (spentHashes tx).any (· ∈ kept.removed_txids)
  if removeDD mint_only tx || spends_removed then
    { kept with removed_txids := tx.hash :: kept.removed_txids, removed := kept.removed + 1 }
  else
    { kept with
      vtx := kept.vtx ++ [tx]
      fees := kept.fees ++ [vTxFees.getD entry.2 0]
      sigops := kept.sigops ++ [vTxSigOpsCost.getD entry.2 0]
      fee_total := kept.fee_total + vTxFees.getD entry.2 0 }

/-- What the loop visits, each transaction with its index. -/
def visited (coinbase : CTransaction) (rest : List CTransaction) : List (CTransaction × ℕ) :=
  (coinbase :: rest).zipIdx.drop 1

/-- The loop over a template with a coinbase. -/
def CBlockTemplate.sweep (t : CBlockTemplate) (mint_only : Bool) (coinbase : CTransaction)
    (rest : List CTransaction) : Kept :=
  (visited coinbase rest).foldl (keepOrRemove mint_only t.vTxFees t.vTxSigOpsCost)
    { vtx := [coinbase], fees := [t.vTxFees.getD 0 0], sigops := [t.vTxSigOpsCost.getD 0 0]
      fee_total := 0, removed := 0, removed_txids := [] }

/-! Signature operations. -/

def OP_CHECKSIGVERIFY : UInt8 := 0xad
def OP_CHECKMULTISIG : UInt8 := 0xae
def OP_CHECKMULTISIGVERIFY : UInt8 := 0xaf

def MAX_PUBKEYS_PER_MULTISIG : ℕ := 20

/-- `GetSigOpCount(false)`. -/
def getSigOpCount (script : Bytes) : ℕ :=
  ((scriptOps script).map fun op =>
    if op.1 = OP_CHECKSIG ∨ op.1 = OP_CHECKSIGVERIFY then 1
    else if op.1 = OP_CHECKMULTISIG ∨ op.1 = OP_CHECKMULTISIGVERIFY then MAX_PUBKEYS_PER_MULTISIG
    else 0).sum

def getLegacySigOpCount (tx : CTransaction) : ℕ :=
  (tx.vin.map fun txin => getSigOpCount txin.scriptSig).sum +
    (tx.vout.map fun txout => getSigOpCount txout.scriptPubKey).sum

/-! The coinbase. -/

section Coinbase

variable (env : MinerEnv)

/-- `block.vtx[0] = MakeTransactionRef(tx)`. -/
def MinerEnv.setCoinbase (block : CBlock) (tx : CTransaction) : CBlock :=
  { block with vtx := block.vtx.set 0 { tx with hash := env.transactionHash tx } }

def MinerEnv.appendCoinbaseOutput (block : CBlock) (out : CTxOut) : CBlock :=
  match block.vtx with
  | [] => block
  | coinbase :: _ => env.setCoinbase block { coinbase with vout := coinbase.vout ++ [out] }

def MINIMUM_WITNESS_COMMITMENT : ℕ := 38

def isWitnessCommitment (script : Bytes) : Bool :=
  MINIMUM_WITNESS_COMMITMENT ≤
    script.length && script.take 6 == [OP_RETURN, 0x24, 0xaa, 0x21, 0xa9, 0xed]

/-- `GetWitnessCommitmentIndex(block) != NO_WITNESS_COMMITMENT`. -/
def hasWitnessCommitment (block : CBlock) : Bool :=
  match block.vtx with
  | [] => false
  | coinbase :: _ => coinbase.vout.any fun out => isWitnessCommitment out.scriptPubKey

/-- The commitment, empty if the block has one already, and the block with it. -/
def MinerEnv.generateCoinbaseCommitment (block : CBlock) : Bytes × CBlock :=
  if hasWitnessCommitment block then ([], block)
  else
    let commitment := [OP_RETURN, 0x24, 0xaa, 0x21, 0xa9, 0xed] ++ env.witnessCommitment block
    (commitment, env.appendCoinbaseOutput block ⟨0, commitment⟩)

/-- The lambda `bundle_is_fresh`. -/
def MinerEnv.bundleIsFresh (nTime : UInt32) (bundle : COracleBundle) : Bool :=
  let now := max env.manager.time nTime.toNat
  !(bundle.timestamp ≤ 0 || bundle.timestamp > now + 60 ||
    now - bundle.timestamp > ORACLE_MAX_AGE_SECONDS)

/-- The block with a bundle in its coinbase, if the bundle is valid and fresh. -/
def MinerEnv.blockWithBundle (block : CBlock) (block_height : ℤ)
    (bundle : COracleBundle) : Option CBlock :=
  match env.oracle.validateMuSig2Bundle bundle block_height with
  | .error _ => none
  | .ok () =>
    if env.bundleIsFresh block.nTime bundle = false then none
    else
      let oracle_script := env.oracle.createOracleScript bundle
      if oracle_script = [] then none else some (env.appendCoinbaseOutput block ⟨0, oracle_script⟩)

/-- The completed session is tried first, then the cached bundle. -/
def MinerEnv.addOracleBundleToBlock (block : CBlock) (block_height : ℤ) : Bool × CBlock :=
  if env.manager.enabled = false then (false, block)
  else
    let epoch := getCurrentEpoch env.oracle.params block_height
    let session_bundle := (env.manager.completedSession epoch).map
      fun (aggregate_sig, participation_bitmap, signed_price, signed_timestamp) =>
        ({ version := 3, epoch, median_price_micro_usd := signed_price
           timestamp := signed_timestamp, participation_bitmap, aggregate_sig } : COracleBundle)
    match session_bundle.bind (env.blockWithBundle block block_height) with
    | some block' => (true, block')
    | none =>
      match env.blockWithBundle block block_height (env.manager.currentBundle epoch) with
      | some block' => (true, block')
      | none => (!blockNeedsOraclePrice block, block)

end Coinbase

/-! The template. -/

section Template

variable (env : MinerEnv)

/-- The part after the coinbase has been paid: commitment, oracle bundle and totals. -/
def BlockAssembler.rebuild (a : BlockAssembler) (prev_height : ℤ)
    (stripped : CBlock) : BlockAssembler :=
  let committed := env.generateCoinbaseCommitment stripped
  let block :=
    if isDigiDollarEnabled env.oracle.params prev_height &&
      blockNeedsOraclePriceForMiner committed.2 then
      (env.addOracleBundleToBlock committed.2 a.nHeight).2
    else committed.2
  let vTxFees := a.pblocktemplate.vTxFees.set 0 (-a.nFees)
  let vTxSigOpsCost := a.pblocktemplate.vTxSigOpsCost.set 0
    (WITNESS_SCALE_FACTOR * (block.vtx.head?.map getLegacySigOpCount).getD 0)
  { a with
    pblocktemplate := { block, vTxFees, vTxSigOpsCost, vchCoinbaseCommitment := committed.1 }
    nBlockWeight := env.blockWeight block
    nBlockSigOpsCost := (vTxSigOpsCost.filter (0 < ·)).sum }

/-- The answer and the assembler afterwards; an answer of `false` may leave it changed. -/
def BlockAssembler.removeDDTransactionsFromBlock (a : BlockAssembler) (prev_height : ℤ)
    (mint_only : Bool) :
    Bool × BlockAssembler :=
  let t := a.pblocktemplate
  match t.block.vtx with
  | [] => (false, a)
  | [_] => (false, a)
  | coinbase :: rest =>
    let kept := t.sweep mint_only coinbase rest
    if kept.removed = 0 then (false, a)
    else
      let block := { t.block with vtx := kept.vtx }
      let a := { a with
        pblocktemplate := { t with block, vTxFees := kept.fees, vTxSigOpsCost := kept.sigops }
        nBlockTx := kept.vtx.length - 1
        nFees := kept.fee_total }
      match coinbase.vout with
      | [] => (false, a)
      | first :: others =>
        let paid := { first with nValue := a.nFees + getBlockSubsidy a.nHeight env.oracle.params }
        let vout := (paid :: others).filter fun txout => !isUnspendable txout.scriptPubKey
        (true, a.rebuild env prev_height (env.setCoinbase block { coinbase with vout }))

end Template

/-! The loop. -/

section Loop

variable {mint_only : Bool} {vTxFees vTxSigOpsCost : List ℤ}

/-- The entries that the loop keeps. -/
def keptEntries (mint_only : Bool) (removed_txids : List ℕ) (entries : List (CTransaction × ℕ)) :
    List (CTransaction × ℕ) :=
  Dependents.survivors (fun entry => entry.1.hash) (fun entry => spentHashes entry.1)
    (fun entry => removeDD mint_only entry.1) removed_txids entries

private theorem keptEntries_cons (removed_txids : List ℕ) (entry : CTransaction × ℕ)
    (entries : List (CTransaction × ℕ)) :
    keptEntries mint_only removed_txids (entry :: entries) =
      if removeDD mint_only entry.1 || (spentHashes entry.1).any (· ∈ removed_txids) then
        keptEntries mint_only (entry.1.hash :: removed_txids) entries
      else entry :: keptEntries mint_only removed_txids entries := rfl

theorem foldl_keepOrRemove (kept : Kept) (entries : List (CTransaction × ℕ)) :
    let rest := keptEntries mint_only kept.removed_txids entries
    let final := entries.foldl (keepOrRemove mint_only vTxFees vTxSigOpsCost) kept
    final.vtx = kept.vtx ++ rest.map Prod.fst ∧
      final.fees = kept.fees ++ rest.map (fun entry => vTxFees.getD entry.2 0) ∧
      final.sigops = kept.sigops ++ rest.map (fun entry => vTxSigOpsCost.getD entry.2 0) ∧
      final.fee_total = kept.fee_total + (rest.map fun entry => vTxFees.getD entry.2 0).sum := by
  induction entries generalizing kept with
  | nil => simp [keptEntries, Dependents.survivors]
  | cons entry entries ih =>
    have next := ih (keepOrRemove mint_only vTxFees vTxSigOpsCost kept entry)
    dsimp only at next ⊢
    rw [List.foldl_cons, keptEntries_cons]
    by_cases drop :
      (removeDD mint_only entry.1 || (spentHashes entry.1).any (· ∈ kept.removed_txids)) = true
    · have step : keepOrRemove mint_only vTxFees vTxSigOpsCost kept entry =
          { kept with
            removed_txids := entry.1.hash :: kept.removed_txids
            removed := kept.removed + 1 } := if_pos drop
      rw [if_pos drop]
      rw [step] at next ⊢
      exact next
    · have step : keepOrRemove mint_only vTxFees vTxSigOpsCost kept entry =
          { kept with
            vtx := kept.vtx ++ [entry.1]
            fees := kept.fees ++ [vTxFees.getD entry.2 0]
            sigops := kept.sigops ++ [vTxSigOpsCost.getD entry.2 0]
            fee_total := kept.fee_total + vTxFees.getD entry.2 0 } := if_neg drop
      rw [if_neg drop]
      rw [step] at next ⊢
      obtain ⟨vtx, fees, sigops, total⟩ := next
      refine ⟨?_, ?_, ?_, ?_⟩
      · rw [vtx, List.map_cons, List.append_assoc, List.singleton_append]
      · rw [fees, List.map_cons, List.append_assoc, List.singleton_append]
      · rw [sigops, List.map_cons, List.append_assoc, List.singleton_append]
      · rw [total, List.map_cons, List.sum_cons, add_assoc]

theorem map_fst_keptEntries (entries : List (CTransaction × ℕ)) :
    (keptEntries mint_only [] entries).map Prod.fst =
      Dependents.survivors CTransaction.hash spentHashes (removeDD mint_only) []
        (entries.map Prod.fst) := by
  rw [Dependents.survivors_map]
  rfl

end Loop

/-! The coinbase after the loop. -/

/-- Only outputs of the coinbase were added. -/
structure Extends (before after : CBlock) : Prop where
  others : after.vtx.tail = before.vtx.tail
  coinbase : ∀ tx, before.vtx.head? = some tx → ∃ tx' added, after.vtx.head? = some tx' ∧
    tx'.vout = tx.vout ++ added

section Coinbase

variable {env : MinerEnv} {block : CBlock}

theorem Extends.refl (block : CBlock) : Extends block block where
  others := rfl
  coinbase tx head := ⟨tx, [], head, (List.append_nil _).symm⟩

theorem Extends.trans {first second third : CBlock} (one : Extends first second)
    (two : Extends second third) :
    Extends first third where
  others := two.others.trans one.others
  coinbase tx head := by
    obtain ⟨tx', added, head', outputs⟩ := one.coinbase tx head
    obtain ⟨tx'', added', head'', outputs'⟩ := two.coinbase tx' head'
    exact ⟨tx'', added ++ added', head'', by rw [outputs', outputs, List.append_assoc]⟩

theorem setCoinbase_vtx {old : CTransaction} {rest : List CTransaction}
    (txs : block.vtx = old :: rest) (tx : CTransaction) :
    (env.setCoinbase block tx).vtx = { tx with hash := env.transactionHash tx } :: rest := by
  rw [MinerEnv.setCoinbase, txs]
  rfl

theorem appendCoinbaseOutput_extends (out : CTxOut) :
    Extends block (env.appendCoinbaseOutput block out) := by
  unfold MinerEnv.appendCoinbaseOutput
  cases txs : block.vtx with
  | nil => exact .refl block
  | cons coinbase rest =>
    have changed := @setCoinbase_vtx env _ _ _ txs { coinbase with vout := coinbase.vout ++ [out] }
    refine ⟨?_, ?_⟩
    · rw [changed, txs, List.tail_cons, List.tail_cons]
    · intro tx head
      rw [txs, List.head?_cons, Option.some.injEq] at head
      rw [changed, ← head]
      exact ⟨_, [out], rfl, rfl⟩

theorem generateCoinbaseCommitment_extends :
    Extends block (env.generateCoinbaseCommitment block).2 := by
  unfold MinerEnv.generateCoinbaseCommitment
  split_ifs
  · exact .refl block
  · exact appendCoinbaseOutput_extends _

theorem blockWithBundle_extends {height : ℤ} {bundle : COracleBundle} {block' : CBlock}
    (added : env.blockWithBundle block height bundle = some block') : Extends block block' := by
  unfold MinerEnv.blockWithBundle at added
  split at added
  · cases added
  · dsimp only at added
    split_ifs at added
    rw [← Option.some.inj added]
    exact appendCoinbaseOutput_extends _

theorem addOracleBundleToBlock_extends (height : ℤ) :
    Extends block (env.addOracleBundleToBlock block height).2 := by
  unfold MinerEnv.addOracleBundleToBlock
  split_ifs
  · exact .refl block
  · dsimp only
    split
    · next completed =>
      obtain ⟨bundle, _, added⟩ := Option.bind_eq_some_iff.mp completed
      exact blockWithBundle_extends added
    · split
      · next added => exact blockWithBundle_extends added
      · exact .refl block

theorem rebuild_extends (a : BlockAssembler) (prev_height : ℤ) (stripped : CBlock) :
    Extends stripped (a.rebuild env prev_height stripped).pblocktemplate.block := by
  unfold BlockAssembler.rebuild
  dsimp only
  split_ifs
  · exact generateCoinbaseCommitment_extends.trans (addOracleBundleToBlock_extends _)
  · exact generateCoinbaseCommitment_extends

theorem rebuild_eq {base : BlockAssembler} {stripped : CBlock} {coinbase : CTransaction}
    {txs : List CTransaction}
    {fee cost : ℤ} {fees costs : List ℤ} (prev_height : ℤ) (vtx : stripped.vtx = coinbase :: txs)
    (vTxFees : base.pblocktemplate.vTxFees = fee :: fees)
    (vTxSigOpsCost : base.pblocktemplate.vTxSigOpsCost = cost :: costs) :
    ∃ coinbase' added cost', (base.rebuild env prev_height stripped).pblocktemplate.block.vtx =
      coinbase' :: txs ∧
      coinbase'.vout = coinbase.vout ++ added ∧
      (base.rebuild env prev_height stripped).pblocktemplate.vTxFees = -base.nFees :: fees ∧
      (base.rebuild env prev_height stripped).pblocktemplate.vTxSigOpsCost = cost' :: costs ∧
      (base.rebuild env prev_height stripped).nFees = base.nFees := by
  have extension := @rebuild_extends env base prev_height stripped
  obtain ⟨coinbase', added, head, outputs⟩ :=
    extension.coinbase coinbase (by rw [vtx, List.head?_cons])
  obtain ⟨cost', replaced⟩ :
    ∃ cost', (base.rebuild env prev_height stripped).pblocktemplate.vTxSigOpsCost =
      cost' :: costs := by
    rw [BlockAssembler.rebuild, vTxSigOpsCost]
    exact ⟨_, rfl⟩
  refine ⟨coinbase', added, cost', ?_, outputs, ?_, replaced, rfl⟩
  · rw [List.eq_cons_of_mem_head? head, extension.others, vtx, List.tail_cons]
  · rw [BlockAssembler.rebuild, vTxFees, List.set_cons_zero]

end Coinbase

/-! The pruned template. -/

/-- The transactions with their fees and signature costs. -/
def CBlockTemplate.entries (t : CBlockTemplate) : List (CTransaction × ℤ × ℤ) :=
  t.block.vtx.zip (t.vTxFees.zip t.vTxSigOpsCost)

/-- Distinct transactions, each behind those it spends from, with aligned vectors, and a first
coinbase output that can be spent. -/
structure CBlockTemplate.WellFormed (t : CBlockTemplate) : Prop where
  distinct : (t.block.vtx.map CTransaction.hash).Nodup
  ordered : Dependents.ParentsFirst CTransaction.hash spentHashes t.block.vtx
  fees : t.vTxFees.length = t.block.vtx.length
  sigops : t.vTxSigOpsCost.length = t.block.vtx.length
  payable : ∀ coinbase output, t.block.vtx.head? = some coinbase →
    coinbase.vout.head? = some output →
    isUnspendable output.scriptPubKey = false

/-- The transactions behind the coinbase. -/
def BlockAssembler.txs (a : BlockAssembler) : List CTransaction := a.pblocktemplate.block.vtx.tail

/-- A template without the transactions of a kind and their descendants. -/
structure Pruned (kind : CTransaction → Bool) (subsidy : ℤ)
    (before after : BlockAssembler) : Prop where
  order : after.txs.Sublist before.txs
  survivors : ∀ tx ∈ before.txs, tx ∈ after.txs ↔
    kind tx = false ∧ ∀ a, Dependents.Ancestor CTransaction.hash spentHashes before.txs a tx →
    kind a = false
  entries : after.pblocktemplate.entries.tail.Sublist before.pblocktemplate.entries.tail
  fees_aligned : after.pblocktemplate.vTxFees.length = after.pblocktemplate.block.vtx.length
  sigops_aligned : after.pblocktemplate.vTxSigOpsCost.length = after.pblocktemplate.block.vtx.length
  fees : after.nFees = after.pblocktemplate.vTxFees.tail.sum
  paid : ∃ coinbase output, after.pblocktemplate.block.vtx.head? = some coinbase ∧
    coinbase.vout.head? = some output ∧ output.nValue = after.nFees + subsidy

section Pruned

variable {env : MinerEnv} {a result : BlockAssembler} {prev_height : ℤ} {mint_only : Bool}

theorem removeDDTransactionsFromBlock_true
    (removed : a.removeDDTransactionsFromBlock env prev_height mint_only = (true, result)) :
    ∃ coinbase rest first others base stripped,
      a.pblocktemplate.block.vtx = coinbase :: rest ∧ coinbase.vout = first :: others ∧
      result = BlockAssembler.rebuild env base prev_height stripped ∧
      base.pblocktemplate.vTxFees = (a.pblocktemplate.sweep mint_only coinbase rest).fees ∧
      base.pblocktemplate.vTxSigOpsCost = (a.pblocktemplate.sweep mint_only coinbase rest).sigops ∧
      base.nFees = (a.pblocktemplate.sweep mint_only coinbase rest).fee_total ∧
      stripped = env.setCoinbase
        { a.pblocktemplate.block with vtx := (a.pblocktemplate.sweep mint_only coinbase rest).vtx }
        { coinbase with
          vout := (
            { first with nValue := base.nFees + getBlockSubsidy a.nHeight env.oracle.params } ::
              others).filter fun txout => !isUnspendable txout.scriptPubKey } := by
  unfold BlockAssembler.removeDDTransactionsFromBlock at removed
  dsimp only at removed
  split at removed
  · cases removed
  · cases removed
  · next coinbase rest _ txs =>
    by_cases unchanged : (a.pblocktemplate.sweep mint_only coinbase rest).removed = 0
    · rw [if_pos unchanged] at removed
      cases removed
    rw [if_neg unchanged] at removed
    split at removed
    · cases removed
    · next first others outputs =>
      exact ⟨coinbase, rest, first, others, _, _, txs, outputs, (Prod.mk.inj removed).2.symm, rfl,
        rfl, rfl, rfl⟩

theorem sweep_eq (t : CBlockTemplate) (coinbase : CTransaction) (rest : List CTransaction) :
    (t.sweep mint_only coinbase rest).vtx =
        coinbase :: (keptEntries mint_only [] (visited coinbase rest)).map Prod.fst ∧
      (t.sweep mint_only coinbase rest).fees =
        t.vTxFees.getD 0 0 :: (keptEntries mint_only [] (visited coinbase rest)).map
          (fun e => t.vTxFees.getD e.2 0) ∧
      (t.sweep mint_only coinbase rest).sigops =
        t.vTxSigOpsCost.getD 0 0 ::
          (keptEntries mint_only [] (visited coinbase rest)).map
          (fun e => t.vTxSigOpsCost.getD e.2 0) ∧
      (t.sweep mint_only coinbase rest).fee_total =
        ((keptEntries mint_only [] (visited coinbase rest)).map fun e =>
          t.vTxFees.getD e.2 0).sum := by
  obtain ⟨vtx, fees, sigops, total⟩ := @foldl_keepOrRemove mint_only t.vTxFees t.vTxSigOpsCost
    { vtx := [coinbase], fees := [t.vTxFees.getD 0 0], sigops := [t.vTxSigOpsCost.getD 0 0]
      fee_total := 0, removed := 0, removed_txids := [] } (visited coinbase rest)
  exact ⟨vtx, fees, sigops, total.trans (zero_add _)⟩

theorem map_fst_visited (coinbase : CTransaction) (rest : List CTransaction) :
    (visited coinbase rest).map Prod.fst = rest := by
  rw [visited, List.map_drop, List.zipIdx_map_fst]
  rfl

theorem entries_tail {t : CBlockTemplate} {coinbase : CTransaction} {rest : List CTransaction}
    (txs : t.block.vtx = coinbase :: rest) (fees : t.vTxFees.length = t.block.vtx.length)
    (sigops : t.vTxSigOpsCost.length = t.block.vtx.length) :
    t.entries.tail =
      (visited coinbase rest).map fun e =>
      (e.1, t.vTxFees.getD e.2 0, t.vTxSigOpsCost.getD e.2 0) := by
  have whole : t.entries =
      t.block.vtx.zipIdx.map fun e => (e.1, t.vTxFees.getD e.2 0, t.vTxSigOpsCost.getD e.2 0) := by
    apply List.ext_getElem
    · simp [CBlockTemplate.entries, fees, sigops]
    · intro i inside _
      simp only [CBlockTemplate.entries, List.length_zip] at inside
      simp [CBlockTemplate.entries, List.getElem?_eq_getElem (show i < t.vTxFees.length by omega),
        List.getElem?_eq_getElem (show i < t.vTxSigOpsCost.length by omega)]
  rw [whole, txs, visited, ← List.drop_one, List.map_drop]

theorem mem_kept_iff {coinbase : CTransaction} {rest : List CTransaction} {tx : CTransaction}
    (distinct : (rest.map CTransaction.hash).Nodup)
    (ordered : Dependents.ParentsFirst CTransaction.hash spentHashes rest) (listed : tx ∈ rest) :
    tx ∈ (keptEntries mint_only [] (visited coinbase rest)).map Prod.fst ↔
      removeDD mint_only tx = false ∧
        ∀ a, Dependents.Ancestor CTransaction.hash spentHashes rest a tx →
        removeDD mint_only a = false := by
  rw [map_fst_keptEntries, map_fst_visited,
    Dependents.mem_survivors_iff distinct.of_map ordered listed, Dependents.Tainted, not_or]
  simp

/-- If the pass takes something out of a well-formed template, the rest are the transactions that
are neither of the kind nor descend from one of it, in their order and with their own fees and
costs, and the first coinbase output pays the remaining fees and the subsidy. -/
theorem pruned_template_consistent (env : MinerEnv) (a result : BlockAssembler) (prev_height : ℤ)
    (mint_only : Bool) (wellFormed : a.pblocktemplate.WellFormed)
    (removed : a.removeDDTransactionsFromBlock env prev_height mint_only = (true, result)) :
    Pruned (removeDD mint_only) (getBlockSubsidy a.nHeight env.oracle.params) a result := by
  obtain ⟨coinbase, rest, first, others, base, stripped, txs, outputs, rebuilt, baseFees,
    baseSigops, baseTotal, strippedBlock⟩ := removeDDTransactionsFromBlock_true removed
  obtain ⟨sweptVtx, sweptFees, sweptSigops, sweptTotal⟩ :=
    @sweep_eq mint_only a.pblocktemplate coinbase rest
  set kept := keptEntries mint_only [] (visited coinbase rest)
  set paid : CTxOut :=
    { first with nValue := base.nFees + getBlockSubsidy a.nHeight env.oracle.params }
  have spendable : isUnspendable paid.scriptPubKey = false :=
    wellFormed.payable coinbase first (by rw [txs, List.head?_cons])
      (by rw [outputs, List.head?_cons])
  have strippedVtx := strippedBlock ▸ setCoinbase_vtx sweptVtx _
  obtain ⟨coinbase', added, cost, vtx, vout, vTxFees, vTxSigOpsCost, nFees⟩ :=
    rebuild_eq prev_height strippedVtx (baseFees.trans sweptFees) (baseSigops.trans sweptSigops)
  rw [← rebuilt] at vtx vTxFees vTxSigOpsCost nFees
  have before : a.txs = rest := by rw [BlockAssembler.txs, txs, List.tail_cons]
  have after : result.txs = kept.map Prod.fst := by rw [BlockAssembler.txs, vtx, List.tail_cons]
  have subset : kept.Sublist (visited coinbase rest) := Dependents.survivors_sublist _ _
  have distinct : (rest.map CTransaction.hash).Nodup := by
    have := wellFormed.distinct
    rw [txs, List.map_cons, List.nodup_cons] at this
    exact this.2
  have ordered : Dependents.ParentsFirst CTransaction.hash spentHashes rest := by
    have := wellFormed.ordered
    rw [txs] at this
    exact (List.pairwise_cons.mp this).2
  refine ⟨?_, ?_, ?_, ?_, ?_, ?_, ?_⟩
  · rw [before, after]
    conv_rhs => rw [← map_fst_visited coinbase rest]
    exact subset.map _
  · intro tx listed
    rw [before] at listed ⊢
    rw [after]
    exact mem_kept_iff distinct ordered listed
  · rw [entries_tail txs wellFormed.fees wellFormed.sigops, CBlockTemplate.entries, vtx, vTxFees,
      vTxSigOpsCost,
      List.zip_cons_cons, List.zip_cons_cons, List.tail_cons, List.zip_map', List.zip_map']
    exact subset.map _
  · rw [vTxFees, vtx]
    simp
  · rw [vTxSigOpsCost, vtx]
    simp
  · rw [nFees, vTxFees, List.tail_cons, baseTotal, sweptTotal]
  · refine ⟨coinbase', paid, ?_, ?_, ?_⟩
    · rw [vtx, List.head?_cons]
    · rw [vout, List.filter_cons_of_pos (by rw [spendable]; rfl)]
      rfl
    · rw [nFees]

end Pruned

namespace MinerSample

/-- No oracle data is ready, and hashes are of no interest. -/
def env : MinerEnv where
  oracle := Oracle.BlockSample.env
  manager :=
    { enabled := false
      completedSession := fun _ => none
      currentBundle := fun epoch => ⟨3, epoch, 0, 0, [], []⟩
      time := 0 }
  transactionHash _ := 1
  witnessCommitment _ := List.replicate 32 0
  blockWeight _ := 0

def tx (hash : ℕ) (nVersion : UInt32) (parent : ℕ) : CTransaction where
  hash
  nVersion
  vin := [{ prevout := ⟨parent, 0⟩ }]
  vout := [⟨1, [0x51]⟩]
  nLockTime := 0

/-- A coinbase with a commitment, a mint, a transaction that spends from it, and an unrelated
one. -/
def assembler : BlockAssembler where
  pblocktemplate :=
    { block :=
        { nTime := 0
          vtx :=
            [{ tx 1 1 0 with vout := [⟨100, [0x51]⟩, ⟨0, [OP_RETURN]⟩] }, tx 2 0x01000770 90,
              tx 3 1 2, tx 4 1 91] }
      vTxFees := [-60, 10, 20, 30]
      vTxSigOpsCost := [0, 4, 4, 8]
      vchCoinbaseCommitment := [] }
  nHeight := 41
  nBlockTx := 3
  nFees := 60
  nBlockWeight := 0
  nBlockSigOpsCost := 16

theorem mint_and_child_removed :
    (assembler.removeDDTransactionsFromBlock env 40 true).2.txs = [tx 4 1 91] ∧
      Pruned (removeDD true) (getBlockSubsidy 41 env.oracle.params) assembler
        (assembler.removeDDTransactionsFromBlock env 40 true).2 := by
  have wellFormed : assembler.pblocktemplate.WellFormed := by
    refine ⟨by decide, ?_, rfl, rfl, ?_⟩
    · unfold Dependents.ParentsFirst
      decide
    · intro coinbase output head first
      cases head
      cases first
      rfl
  refine ⟨by decide +kernel, ?_⟩
  exact pruned_template_consistent env assembler _ 40 true wellFormed
    (Prod.ext (by decide +kernel) rfl)

end MinerSample

end DigiByte.Node
