import DigiByte.Library.Bitmap
import DigiByte.Library.Checks
import DigiByte.Oracle.Price

/-!
Participation bitmaps, key aggregation and the validation of a v0x03 bundle
(`musig2_aggregator.cpp`, `bundle_manager.cpp`).

The aggregator's memory of earlier results is left out: it returns what the
computation returns.
-/

set_option autoImplicit false
set_option relaxedAutoImplicit false

namespace DigiByte.Oracle

open Consensus (Params)
open Script (Bytes)
open Library
open Library.Checks (rejectIf rejectIf_eq_ok rejectIf_bind_eq_ok)

/-- Sorted and without duplicates. -/
def sortedIds (ids : List OracleId) : List OracleId := (List.finRange 256).filter (· ∈ ids)

def ORACLE_CONSENSUS_REQUIRED : ℤ := 7

def configuredMuSig2Threshold (params : Params) : ℤ :=
  if params.nOracleConsensusRequired > 0 then params.nOracleConsensusRequired
  else ORACLE_CONSENSUS_REQUIRED

/-- Slots of the bitmap, 0 if the configuration has too many or none. -/
def configuredMuSig2BitmapSlots (params : Params) : ℕ :=
  let configured_total := max params.nOracleTotalOracles params.nOraclePubkeyCount
  if configured_total ≤ 0 ∨ configured_total > 256 then 0 else configured_total.toNat

/-- `BuildRawParticipationBitmap`, empty on failure. -/
def buildRawParticipationBitmap (ids : List OracleId) (total_oracles : ℕ) : Bytes :=
  if ids = [] then []
  else if total_oracles = 0 ∨ total_oracles > 256 then []
  else if ∃ id ∈ ids, id.val ≥ total_oracles then []
  else Bitmap.build ((total_oracles + 7) / 8) (ids.map Fin.val)

/-- `DecodeBitmap`, empty on failure. -/
def decodeBitmap (bitmap : Bytes) (total_oracles : ℕ) : List OracleId :=
  if bitmap = [] then []
  else if total_oracles = 0 ∨ total_oracles > 256 then []
  else if bitmap.length ≠ (total_oracles + 7) / 8 then []
  else if total_oracles % 8 ≠ 0 ∧
      bitmap.getLastD 0 &&& UInt8.ofNat (0xff <<< (total_oracles % 8)) ≠ 0 then []
  else (List.finRange 256).filter fun i => i.val < total_oracles && Bitmap.testBit bitmap i

/-- The key of one participant, checked against both key tables. -/
def OracleEnv.participantKey (env : OracleEnv) (id : OracleId) : Option Bytes :=
  if (id.val : ℤ) ≥ env.params.nOraclePubkeyCount then none
  else
    match env.params.vOracleCompressedPublicKeys[id.val]?,
      env.params.vOraclePublicKeys[id.val]? with
    | some compressed, some key =>
      if compressed.length ≠ 33 ∨
        (compressed.head? ≠ some 0x02 ∧ compressed.head? ≠ some 0x03) then none
      else if key.length ≠ 32 ∨ key ≠ compressed.drop 1 then none
      else env.secp.pubkeyParse compressed
    | _, _ => none

/-- `ComputeAggregatePubkey`: the aggregate key and its cache. -/
def OracleEnv.computeAggregatePubkey (env : OracleEnv) (oracle_ids : List OracleId) :
    Option (Bytes × Bytes) :=
  let sorted_ids := sortedIds oracle_ids
  let total := configuredMuSig2BitmapSlots env.params
  if (sorted_ids.length : ℤ) < max 1 (configuredMuSig2Threshold env.params) then none
  else if total = 0 then none
  else if env.params.vOracleCompressedPublicKeys.length < total then none
  else if env.params.nOraclePubkeyCount ≤ 0 ∨
      (env.params.vOraclePublicKeys.length : ℤ) < env.params.nOraclePubkeyCount then none
  else if buildRawParticipationBitmap sorted_ids total = [] then none
  else (sorted_ids.mapM env.participantKey).bind env.secp.pubkeyAgg

structure COracleBundle where
  version : ℕ
  epoch : ℤ
  median_price_micro_usd : ℕ
  timestamp : ℤ
  participation_bitmap : Bytes
  aggregate_sig : Bytes
  deriving DecidableEq, Repr

/-- Both signer and validator hash this for a bundle. -/
def OracleEnv.oracleMessageHash (env : OracleEnv) (epoch : ℤ) (price : ℕ) (timestamp : ℤ) : Hash :=
  env.sha (.oracleBundle env.genesis epoch price timestamp)

def epochLength (params : Params) : ℤ :=
  if params.nDDOracleEpochBlocks > 0 then params.nDDOracleEpochBlocks else 1440

def getCurrentEpoch (params : Params) (block_height : ℤ) : ℤ :=
  block_height.tdiv (epochLength params)

def isMuSig2OracleActive (params : Params) (block_height : ℤ) : Bool :=
  block_height ≥ params.nDigiDollarMuSig2Height

def OracleEnv.validateMuSig2Bundle (env : OracleEnv) (bundle : COracleBundle) (block_height : ℤ) :
    Except String Unit := do
  let params := env.params
  rejectIf (bundle.version ≠ 3)
    ("ValidateMuSig2Bundle called with non-v0x03 bundle (version=" ++
      toString bundle.version ++ ")")
  rejectIf (isMuSig2OracleActive params block_height = false)
    "v0x03 roster activation height not reached"
  rejectIf (bundle.median_price_micro_usd < ORACLE_MIN_PRICE_MICRO_USD ∨
      bundle.median_price_micro_usd > ORACLE_MAX_PRICE_MICRO_USD)
    ("v0x03 consensus price out of range (" ++ toString bundle.median_price_micro_usd ++ ")")
  rejectIf (bundle.aggregate_sig.length ≠ 64)
    ("Invalid v0x03 aggregate signature size (" ++ toString bundle.aggregate_sig.length ++
      " bytes, expected 64)")
  rejectIf (bundle.participation_bitmap = []) "v0x03 bitmap cannot be empty"
  let expected_epoch := getCurrentEpoch params block_height
  rejectIf (bundle.epoch ≠ expected_epoch)
    ("v0x03 bundle epoch mismatch (payload=" ++ toString bundle.epoch ++ ", expected=" ++
      toString expected_epoch ++ ")")
  rejectIf (params.nOracleTotalOracles ≤ 0 ∨ params.nOracleTotalOracles > 256)
    "v0x03 bitmap decoding failed (invalid oracle slot count)"
  let oracle_ids := decodeBitmap bundle.participation_bitmap params.nOracleTotalOracles.toNat
  rejectIf (oracle_ids = []) "v0x03 bitmap decoding failed (malformed bitmap or size mismatch)"
  rejectIf ((oracle_ids.length : ℤ) < params.nOracleConsensusRequired)
    ("v0x03 bundle below minimum oracle threshold (" ++ toString oracle_ids.length ++
      " signers, need " ++ toString params.nOracleConsensusRequired ++ ")")
  match oracle_ids.find? fun id => (id.val : ℤ) ≥ params.nOraclePubkeyCount with
  | some oracle_id =>
    .error ("v0x03 signer outside active oracle roster (id=" ++ toString oracle_id.val ++ ")")
  | none =>
    match env.computeAggregatePubkey oracle_ids with
    | none => .error "Failed to compute aggregate pubkey from bitmap"
    | some (agg_pk, _) =>
      rejectIf (env.secp.schnorrsigVerify bundle.aggregate_sig
          (env.oracleMessageHash bundle.epoch bundle.median_price_micro_usd bundle.timestamp)
            agg_pk =
          false)
        "v0x03 aggregate signature verification failed"

/-! Sorted numbers and their bitmaps. -/

theorem mem_sortedIds {ids : List OracleId} {id : OracleId} : id ∈ sortedIds ids ↔ id ∈ ids := by
  simp [sortedIds]

theorem sortedIds_filter (p : OracleId → Bool) :
    sortedIds ((List.finRange 256).filter p) = (List.finRange 256).filter p := by
  simp [sortedIds]

private theorem getLastD_eq_getD (bitmap : Bytes) :
    bitmap.getLastD 0 = bitmap.getD (bitmap.length - 1) 0 := by
  rw [List.getLastD_eq_getLast?, List.getLast?_eq_getElem?, List.getD_eq_getElem?_getD]

theorem decodeBitmap_build {ids : List OracleId} {total : ℕ} (low : 0 < total) (high : total ≤ 256)
    (inside : ∀ id ∈ ids, id.val < total) :
    decodeBitmap (Bitmap.build ((total + 7) / 8) (ids.map Fin.val)) total = sortedIds ids := by
  have within : ∀ i ∈ ids.map Fin.val, i / 8 < (total + 7) / 8 := by
    intro i member
    obtain ⟨id, picked, rfl⟩ := List.mem_map.mp member
    have := inside id picked
    omega
  have bits := Bitmap.testBit_build within
  have length := Bitmap.length_build within
  have shown : Bitmap.build ((total + 7) / 8) (ids.map Fin.val) ≠ [] := by
    intro empty
    rw [empty] at length
    simp at length
    omega
  -- no oracle has a number in the unused bits of the last byte
  have unused : ¬ (total % 8 ≠ 0 ∧
      (Bitmap.build ((total + 7) / 8) (ids.map Fin.val)).getLastD 0 &&&
        UInt8.ofNat (0xff <<< (total % 8)) ≠ 0) := by
    rintro ⟨partialByte, nonzero⟩
    refine nonzero (Bitmap.and_mask_eq_zero fun j above small => ?_)
    have bit := bits (total / 8 * 8 + j)
    have outside : total / 8 * 8 + j ∉ ids.map Fin.val := by
      intro member
      obtain ⟨id, picked, same⟩ := List.mem_map.mp member
      have := inside id picked
      omega
    have index : (total / 8 * 8 + j) / 8 = (total + 7) / 8 - 1 := by omega
    have position : (total / 8 * 8 + j) % 8 = j := by omega
    rw [Bitmap.testBit, index, position, decide_eq_false outside] at bit
    rw [getLastD_eq_getD, length]
    exact bit
  unfold decodeBitmap
  rw [if_neg shown, if_neg (by omega), if_neg (by simp [length]), if_neg unused, sortedIds]
  apply List.filter_congr
  intro id _
  rw [bits]
  have same : id.val ∈ ids.map Fin.val ↔ id ∈ ids := List.mem_map_of_injective Fin.val_injective
  by_cases member : id ∈ ids
  · simp [same, member, inside id member]
  · simp only [same, member, decide_false, Bool.and_false]

theorem decodeBitmap_ne_nil {bitmap : Bytes} {total : ℕ}
    (decoded : decodeBitmap bitmap total ≠ []) :
    (0 < total ∧ total ≤ 256) ∧ bitmap.length = (total + 7) / 8 ∧
      (total % 8 ≠ 0 → bitmap.getLastD 0 &&& UInt8.ofNat (0xff <<< (total % 8)) = 0) ∧
      decodeBitmap bitmap total =
        (List.finRange 256).filter fun i : OracleId =>
          i.val < total && Bitmap.testBit bitmap i := by
  unfold decodeBitmap at decoded ⊢
  split_ifs at decoded ⊢ with empty slots sized unused
  any_goals exact absurd rfl decoded
  refine ⟨by omega, not_not.mp sized, ?_, rfl⟩
  intro partialByte
  by_contra nonzero
  exact unused ⟨partialByte, nonzero⟩

theorem decodeBitmap_val {bitmap : Bytes} {total : ℕ} (decoded : decodeBitmap bitmap total ≠ []) :
    (decodeBitmap bitmap total).map Fin.val = Bitmap.members bitmap := by
  obtain ⟨slots, sized, unused, shape⟩ := decodeBitmap_ne_nil decoded
  -- a set bit above the slots would be in the last byte, where the mask excludes it
  have inside : ∀ i, i < 8 * bitmap.length → Bitmap.testBit bitmap i = true → i < total := by
    intro i within set
    by_contra outside
    have bit :=
      Bitmap.testBit_of_and_mask (unused (by omega)) (show total % 8 ≤ i % 8 by omega) (by omega)
    rw [getLastD_eq_getD, show bitmap.length - 1 = i / 8 by omega] at bit
    rw [Bitmap.testBit, bit] at set
    cases set
  rw [shape]
  apply List.Pairwise.eq_of_mem_iff (r := (· < ·))
  · rw [List.pairwise_map]
    exact (List.pairwise_lt_finRange 256).filter _
  · exact List.pairwise_lt_range.filter _
  · intro i
    simp only [List.mem_map, List.mem_filter, List.mem_finRange, true_and, Bitmap.members,
      List.mem_range, Bool.and_eq_true, decide_eq_true_eq]
    constructor
    · rintro ⟨id, ⟨low, set⟩, rfl⟩
      exact ⟨by omega, set⟩
    · rintro ⟨within, set⟩
      have low := inside i within set
      exact ⟨⟨i, by omega⟩, ⟨low, set⟩, rfl⟩

/-! Key aggregation. -/

theorem OracleEnv.participantKey_eq_some {env : OracleEnv} {id : OracleId} {key : Bytes}
    (found : env.participantKey id = some key) :
    (id.val : ℤ) < env.params.nOraclePubkeyCount ∧
      ∃ oracle, env.chain.getOracleNode id = some oracle ∧
        env.secp.pubkeyParse oracle.pubkey = some key := by
  unfold OracleEnv.participantKey at found
  split_ifs at found with outside
  have active : (id.val : ℤ) < env.params.nOraclePubkeyCount := by omega
  obtain ⟨oracle, node, _, compressed, _⟩ := env.chain.getOracleNode_active active
  refine ⟨active, oracle, node, ?_⟩
  split at found
  · next listed key' atSlot _ =>
    split_ifs at found
    rw [Option.some.inj (compressed.symm.trans atSlot)]
    exact found
  · cases found

private theorem map_of_mapM_eq_some {α β : Type} {f : α → Option β} {xs : List α} {ys : List β}
    (mapped : xs.mapM f = some ys) (default : β) : ys = xs.map fun x => (f x).getD default := by
  induction xs generalizing ys with
  | nil =>
    rw [List.mapM_nil] at mapped
    exact (Option.some.inj mapped).symm
  | cons x rest ih =>
    rw [List.mapM_cons, Option.bind_eq_bind, Option.bind_eq_some_iff] at mapped
    obtain ⟨y, head, mapped⟩ := mapped
    rw [Option.bind_eq_bind, Option.bind_eq_some_iff] at mapped
    obtain ⟨ys', tail, mapped⟩ := mapped
    rw [← Option.some.inj mapped, List.map_cons, ← ih tail, head]
    rfl

private theorem isSome_of_mapM_eq_some {α β : Type} {f : α → Option β} {xs : List α} {ys : List β}
    (mapped : xs.mapM f = some ys) : ∀ x ∈ xs, (f x).isSome := by
  induction xs generalizing ys with
  | nil => simp
  | cons x rest ih =>
    rw [List.mapM_cons, Option.bind_eq_bind, Option.bind_eq_some_iff] at mapped
    obtain ⟨y, head, mapped⟩ := mapped
    rw [Option.bind_eq_bind, Option.bind_eq_some_iff] at mapped
    obtain ⟨ys', tail, _⟩ := mapped
    intro z member
    rcases List.mem_cons.mp member with rfl | later
    · rw [head]
      rfl
    · exact ih tail z later

theorem OracleEnv.computeAggregatePubkey_eq_some {env : OracleEnv} {ids : List OracleId}
    {aggregate : Bytes × Bytes} (computed : env.computeAggregatePubkey ids = some aggregate) :
    configuredMuSig2BitmapSlots env.params ≠ 0 ∧
      (∀ id ∈ sortedIds ids, (env.participantKey id).isSome) ∧
      env.secp.pubkeyAgg ((sortedIds ids).map fun id => (env.participantKey id).getD []) =
        some aggregate := by
  unfold OracleEnv.computeAggregatePubkey at computed
  dsimp only at computed
  split_ifs at computed with few slots
  obtain ⟨keys, mapped, aggregated⟩ := Option.bind_eq_some_iff.mp computed
  refine ⟨slots, isSome_of_mapM_eq_some mapped, ?_⟩
  rw [← map_of_mapM_eq_some mapped]
  exact aggregated

/-! Acceptance. -/

theorem OracleEnv.bitmapSlots_ne_zero {env : OracleEnv}
    (slots : configuredMuSig2BitmapSlots env.params ≠ 0) :
    configuredMuSig2BitmapSlots env.params = env.params.nOracleTotalOracles.toNat ∧
      0 < env.params.nOracleTotalOracles ∧ env.params.nOracleTotalOracles ≤ 256 := by
  have bounds := env.chain.config_bounds
  unfold configuredMuSig2BitmapSlots at slots ⊢
  dsimp only at slots ⊢
  rw [max_eq_left bounds.2.2.1] at slots ⊢
  split_ifs at slots ⊢ with outside
  · exact absurd rfl slots
  · exact ⟨rfl, not_le.mp fun low => outside (.inl low), not_lt.mp fun high => outside (.inr high)⟩

theorem OracleEnv.validateMuSig2Bundle_ok {env : OracleEnv} {bundle : COracleBundle} {height : ℤ}
    {ids : List OracleId} {aggregate : Bytes × Bytes} (version : bundle.version = 3)
    (active : isMuSig2OracleActive env.params height = true)
    (price : ORACLE_MIN_PRICE_MICRO_USD ≤ bundle.median_price_micro_usd ∧
      bundle.median_price_micro_usd ≤ ORACLE_MAX_PRICE_MICRO_USD)
    (size : bundle.aggregate_sig.length = 64)
    (epoch : getCurrentEpoch env.params height = bundle.epoch)
    (decoded : decodeBitmap bundle.participation_bitmap env.params.nOracleTotalOracles.toNat = ids)
    (nonempty : ids ≠ []) (enough : env.params.nOracleConsensusRequired ≤ ids.length)
    (roster : ∀ id ∈ ids, (id.val : ℤ) < env.params.nOraclePubkeyCount)
    (aggregated : env.computeAggregatePubkey ids = some aggregate)
    (verified : env.secp.schnorrsigVerify bundle.aggregate_sig
      (env.oracleMessageHash bundle.epoch bundle.median_price_micro_usd bundle.timestamp)
        aggregate.1 = true) :
    env.validateMuSig2Bundle bundle height = .ok () := by
  have slots := env.bitmapSlots_ne_zero (env.computeAggregatePubkey_eq_some aggregated).1
  have bitmap : bundle.participation_bitmap ≠ [] := by
    intro empty
    rw [empty] at decoded
    exact nonempty decoded.symm
  have inside : ids.find? (fun id => (id.val : ℤ) ≥ env.params.nOraclePubkeyCount) = none := by
    rw [List.find?_eq_none]
    intro id member
    have := roster id member
    simpa using this
  unfold OracleEnv.validateMuSig2Bundle
  simp only [rejectIf_bind_eq_ok, decoded, inside, aggregated, rejectIf_eq_ok, verified, epoch]
  refine ⟨by simp [version], by simp [active], by omega, by simp [size], bitmap, by simp, by omega,
    nonempty, by omega, by simp⟩

end DigiByte.Oracle
