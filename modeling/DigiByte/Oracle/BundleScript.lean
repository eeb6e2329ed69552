import DigiByte.Library.FixedWidth
import DigiByte.Oracle.BlockData
import DigiByte.Script.VaultLeaves

/-!
The coinbase script of an oracle bundle and its way back
(`CreateOracleScript`, `ExtractOracleBundle`, `SerializeV03Data`).

The extractor has a push parser of its own, which the format check repeats.
-/

set_option autoImplicit false
set_option relaxedAutoImplicit false

namespace DigiByte.Oracle

open Script (Bytes OP_RETURN OP_PUSHDATA1 OP_PUSHDATA2 readPushSize pushData)
open Library
open Library.SignMagnitude (ofBytes ofBytes_lt)
open Library.FixedWidth (bytesOf length_bytesOf ofBytes_bytesOf bytesOf_ofBytes pattern pattern_lt
  bmod_pattern pattern_bmod)

/-- The payload after its length byte. -/
def COracleBundle.v03Fields (bundle : COracleBundle) : Bytes :=
  bundle.participation_bitmap ++
    (bytesOf 4 (pattern (2 ^ 32) bundle.epoch) ++ (bytesOf 8 bundle.median_price_micro_usd ++
      (bytesOf 8 (pattern (2 ^ 64) bundle.timestamp) ++ bundle.aggregate_sig)))

/-- Empty on failure. The bitmap's length is stored in one byte. -/
def COracleBundle.serializeV03Data (bundle : COracleBundle) : Bytes :=
  if bundle.aggregate_sig.length ≠ 64 then []
  else if bundle.participation_bitmap = [] then []
  else UInt8.ofNat bundle.participation_bitmap.length :: bundle.v03Fields

/-- The answer and the version that it reports. -/
def validateV03BundleFormat (script : Bytes) : Bool × UInt8 :=
  if script.length < 4 then (false, 0)
  else if isOracleOutput script = false then (false, 0)
  else
    match pushedData (script.drop 2) with
    | none => (false, 0)
    | some [] => (false, 0)
    | some (version :: data) =>
      if version ≠ 0x03 then (false, version)
      else if data.length + 1 < 87 then (false, version)
      else if data.headD 0 = 0 then (false, version)
      else (data.length + 1 = 1 + 1 + (data.headD 0).toNat + 4 + 8 + 8 + 64, version)

section Roster

variable (env : OracleEnv)

/-- The slots that the bitmap of a bundle is read with. -/
def OracleEnv.totalOracles : ℕ := (max 1 env.params.nOracleTotalOracles).toNat % 2 ^ 16

/-- Empty on failure. -/
def OracleEnv.createOracleScript (bundle : COracleBundle) : Bytes :=
  if bundle.version = 3 then
    if bundle.aggregate_sig.length ≠ 64 then []
    else if bundle.participation_bitmap = [] then []
    else
      let participants := decodeBitmap bundle.participation_bitmap env.totalOracles
      if participants = [] then []
      else if (participants.length : ℤ) < max 1 env.params.nOracleConsensusRequired then []
      else
        let v03_data := bundle.serializeV03Data
        if v03_data = [] then []
        else [OP_RETURN, OP_ORACLE] ++ (pushData [0x03] ++ pushData v03_data)
  else []

/-- The message made up for one participant: the bundle's price and time stamp, no signature,
and the key of the oracle if it is configured. -/
def OracleEnv.syntheticMessage (bundle : COracleBundle) (oracle_id : ℕ) : COraclePriceMessage where
  oracle_id
  price_micro_usd := bundle.median_price_micro_usd
  timestamp := bundle.timestamp
  block_height := 0
  nonce := 0
  oracle_pubkey :=
    match env.chain.getOracleNode oracle_id with
    | some oracle_info => xonly oracle_info.pubkey
    | none => List.replicate 32 0
  schnorr_sig := []

/-- `bundle.messages` after `ExtractOracleBundle`. -/
def OracleEnv.bundleMessages (bundle : COracleBundle) : List COraclePriceMessage :=
  (decodeBitmap bundle.participation_bitmap env.totalOracles).map fun oracle_id =>
    env.syntheticMessage bundle oracle_id.val

/-- `ExtractOracleBundle` with the messages that it makes up. -/
def OracleEnv.extractBundleAndMessages (coinbase_tx : CTransaction) :
    Option (COracleBundle × List COraclePriceMessage) :=
  (env.extractOracleBundle coinbase_tx).map fun bundle => (bundle, env.bundleMessages bundle)

end Roster

/-! The payload. -/

/-- The field ranges of the source's record. -/
structure COracleBundle.Fits (bundle : COracleBundle) : Prop where
  epoch : -2 ^ 31 ≤ bundle.epoch ∧ bundle.epoch < 2 ^ 31
  price : bundle.median_price_micro_usd < 2 ^ 64
  timestamp : -2 ^ 63 ≤ bundle.timestamp ∧ bundle.timestamp < 2 ^ 63

private theorem take_field {width : ℕ} {field : Bytes} (sized : field.length = width)
    (rest : Bytes) :
    (field ++ rest).take width = field := by
  rw [← sized]
  exact List.take_left

private theorem drop_field {width : ℕ} {field : Bytes} (sized : field.length = width)
    (rest : Bytes) :
    (field ++ rest).drop width = rest := by
  rw [← sized]
  exact List.drop_left

private theorem fields_at_offsets {epoch price timestamp : Bytes} (epoch_size : epoch.length = 4)
    (price_size : price.length = 8) (timestamp_size : timestamp.length = 8) (sig : Bytes) :
    (epoch ++ (price ++ (timestamp ++ sig))).take 4 = epoch ∧
      ((epoch ++ (price ++ (timestamp ++ sig))).drop 4).take 8 = price ∧
      ((epoch ++ (price ++ (timestamp ++ sig))).drop 12).take 8 = timestamp ∧
      (epoch ++ (price ++ (timestamp ++ sig))).drop 20 = sig := by
  have after_epoch := drop_field epoch_size (price ++ (timestamp ++ sig))
  have after_price : (epoch ++ (price ++ (timestamp ++ sig))).drop 12 = timestamp ++ sig := by
    rw [show 12 = 4 + 8 from rfl, ← List.drop_drop, after_epoch, drop_field price_size]
  refine ⟨take_field epoch_size _, ?_, ?_, ?_⟩
  · rw [after_epoch, take_field price_size]
  · rw [after_price, take_field timestamp_size]
  · rw [show 20 = 12 + 8 from rfl, ← List.drop_drop, after_price, drop_field timestamp_size]

theorem toInt32_epoch {epoch : ℤ} (low : -2 ^ 31 ≤ epoch) (high : epoch < 2 ^ 31) :
    toInt32 (ofBytes (bytesOf 4 (pattern (2 ^ 32) epoch))) = epoch := by
  have small := pattern_lt (Nat.two_pow_pos 32) epoch
  rw [ofBytes_bytesOf (by omega)]
  exact bmod_pattern (Nat.two_pow_pos 32) (by omega) (by omega)

theorem toInt64_timestamp {timestamp : ℤ} (low : -2 ^ 63 ≤ timestamp) (high : timestamp < 2 ^ 63) :
    toInt64 (ofBytes (bytesOf 8 (pattern (2 ^ 64) timestamp))) = timestamp := by
  have small := pattern_lt (Nat.two_pow_pos 64) timestamp
  rw [ofBytes_bytesOf (by omega)]
  exact bmod_pattern (Nat.two_pow_pos 64) (by omega) (by omega)

theorem COracleBundle.length_v03Fields {bundle : COracleBundle}
    (signed : bundle.aggregate_sig.length = 64) :
    bundle.v03Fields.length = bundle.participation_bitmap.length + 84 := by
  simp only [COracleBundle.v03Fields, List.length_append, length_bytesOf, signed]

theorem COracleBundle.serializeV03Data_eq {bundle : COracleBundle}
    (signed : bundle.aggregate_sig.length = 64) (shown : bundle.participation_bitmap ≠ []) :
    bundle.serializeV03Data =
      UInt8.ofNat bundle.participation_bitmap.length :: bundle.v03Fields := by
  rw [COracleBundle.serializeV03Data, if_neg (not_not.mpr signed), if_neg shown]

private theorem bitmapLength {bitmap : Bytes} (shown : bitmap ≠ []) (short : bitmap.length < 256) :
    (UInt8.ofNat bitmap.length).toNat = bitmap.length ∧ UInt8.ofNat bitmap.length ≠ 0 := by
  have byte : (UInt8.ofNat bitmap.length).toNat = bitmap.length := by
    rw [UInt8.toNat_ofNat']
    omega
  refine ⟨byte, ?_⟩
  intro zero
  rw [zero] at byte
  exact shown (List.length_eq_zero_iff.mp byte.symm)

theorem deserializeV03Data_serializeV03Data {bundle : COracleBundle} (fits : bundle.Fits)
    (version : bundle.version = 3) (signed : bundle.aggregate_sig.length = 64)
    (shown : bundle.participation_bitmap ≠ []) (short : bundle.participation_bitmap.length < 256) :
    deserializeV03Data bundle.serializeV03Data = some bundle := by
  obtain ⟨byte, nonzero⟩ := bitmapLength shown short
  have positive := List.length_pos_iff.mpr shown
  have sized := COracleBundle.length_v03Fields signed
  have price : ofBytes (bytesOf 8 bundle.median_price_micro_usd) =
      bundle.median_price_micro_usd := by
    have := fits.price
    exact ofBytes_bytesOf (by omega)
  obtain ⟨at_epoch, at_price, at_timestamp, at_sig⟩ :=
    fields_at_offsets (length_bytesOf 4 (pattern (2 ^ 32) bundle.epoch))
      (length_bytesOf 8 bundle.median_price_micro_usd)
        (length_bytesOf 8 (pattern (2 ^ 64) bundle.timestamp))
      bundle.aggregate_sig
  rw [COracleBundle.serializeV03Data_eq signed shown, deserializeV03Data]
  simp only [List.length_cons, sized, byte]
  rw [if_neg (by omega), if_neg nonzero, if_neg (by omega)]
  unfold COracleBundle.v03Fields
  rw [drop_field rfl, take_field rfl, at_epoch, at_price,
    at_timestamp, at_sig, price, toInt32_epoch fits.epoch.1 fits.epoch.2,
    toInt64_timestamp fits.timestamp.1 fits.timestamp.2, List.take_of_length_le signed.le,
    ← version]

private theorem field_append_drop (bytes : Bytes) (offset width : ℕ) :
    (bytes.drop offset).take width ++ bytes.drop (offset + width) = bytes.drop offset := by
  rw [← List.drop_drop]
  exact List.take_append_drop width _

private theorem deserializeV03Data_eq_some {data : Bytes} {bundle : COracleBundle}
    (accepted : deserializeV03Data data = some bundle) :
    ∃ bitmap_len bitmap epoch price timestamp sig,
      data = bitmap_len :: (bitmap ++ (epoch ++ (price ++ (timestamp ++ sig)))) ∧
      bitmap_len ≠ 0 ∧ bitmap.length = bitmap_len.toNat ∧ epoch.length = 4 ∧ price.length = 8 ∧
      timestamp.length = 8 ∧ sig.length = 64 ∧
      bundle =
        { version := 3
          participation_bitmap := bitmap
          epoch := toInt32 (ofBytes epoch)
          median_price_micro_usd := ofBytes price
          timestamp := toInt64 (ofBytes timestamp)
          aggregate_sig := sig } := by
  cases data with
  | nil => cases accepted
  | cons bitmap_len fields =>
    rw [deserializeV03Data] at accepted
    by_cases small : (bitmap_len :: fields).length < 86
    · rw [if_pos small] at accepted
      cases accepted
    by_cases zero : bitmap_len = 0
    · rw [if_neg small, if_pos zero] at accepted
      cases accepted
    by_cases sized : (bitmap_len :: fields).length ≠ 1 + bitmap_len.toNat + 4 + 8 + 8 + 64
    · rw [if_neg small, if_neg zero, if_pos sized] at accepted
      cases accepted
    rw [if_neg small, if_neg zero, if_neg sized] at accepted
    rw [not_not, List.length_cons] at sized
    set rest := fields.drop bitmap_len.toNat with rest_def
    have rest_size : rest.length = 84 := by
      rw [rest_def, List.length_drop]
      omega
    refine ⟨bitmap_len, fields.take bitmap_len.toNat, rest.take 4, (rest.drop 4).take 8,
      (rest.drop 12).take 8,
      (rest.drop 20).take 64, ?_, zero, ?_, ?_, ?_, ?_, ?_, (Option.some.inj accepted).symm⟩
    · have sig : (rest.drop 20).take 64 = rest.drop 20 :=
        List.take_of_length_le (by rw [List.length_drop]; omega)
      have from_timestamp : (rest.drop 12).take 8 ++ rest.drop 20 = rest.drop 12 :=
        field_append_drop rest 12 8
      have from_price : (rest.drop 4).take 8 ++ rest.drop 12 = rest.drop 4 :=
        field_append_drop rest 4 8
      rw [sig, from_timestamp, from_price, List.take_append_drop, List.take_append_drop]
    all_goals
      simp only [List.length_take, List.length_drop]
      omega

private theorem bytesOf_ofBytes_of_length {bytes : Bytes} {width : ℕ}
    (sized : bytes.length = width) :
    bytesOf width (ofBytes bytes) = bytes := by
  rw [← sized]
  exact bytesOf_ofBytes bytes

theorem serializeV03Data_of_deserialized {data : Bytes} {bundle : COracleBundle}
    (accepted : deserializeV03Data data = some bundle) : bundle.serializeV03Data = data := by
  obtain ⟨bitmap_len, bitmap, epoch, price, timestamp, sig, rfl, nonzero, bitmap_size, epoch_size,
    price_size, timestamp_size, sig_size, rfl⟩ := deserializeV03Data_eq_some accepted
  have shown : bitmap ≠ [] := by
    rintro rfl
    exact nonzero (UInt8.toNat.inj bitmap_size.symm)
  have epoch_bytes : bytesOf 4 (pattern (2 ^ 32) (toInt32 (ofBytes epoch))) = epoch := by
    have small := ofBytes_lt epoch
    rw [epoch_size] at small
    unfold toInt32
    rw [pattern_bmod (by omega), bytesOf_ofBytes_of_length epoch_size]
  have timestamp_bytes : bytesOf 8 (pattern (2 ^ 64) (toInt64 (ofBytes timestamp))) =
      timestamp := by
    have small := ofBytes_lt timestamp
    rw [timestamp_size] at small
    unfold toInt64
    rw [pattern_bmod (by omega), bytesOf_ofBytes_of_length timestamp_size]
  rw [COracleBundle.serializeV03Data_eq sig_size shown, COracleBundle.v03Fields]
  dsimp only
  rw [epoch_bytes, timestamp_bytes, bytesOf_ofBytes_of_length price_size, bitmap_size,
    UInt8.ofNat_toNat]

/-! The pushes. -/

private theorem pushData_cases {data : Bytes} (short : data.length ≤ 0xffff) :
    ∃ opcode operand, pushData data = opcode :: (operand ++ data) ∧ opcode ≤ OP_PUSHDATA2 ∧
      ∀ pc, readPushSize opcode (operand ++ pc) = some (data.length, pc) := by
  unfold pushData
  by_cases direct : data.length < 0x4c
  · obtain ⟨byte, low, _⟩ := Script.lengthByte direct
    refine ⟨UInt8.ofNat data.length, [], if_pos direct, ?_, ?_⟩
    · rw [UInt8.le_iff_toNat_le, byte]
      exact (direct.trans (by decide)).le
    · intro pc
      unfold readPushSize
      rw [List.nil_append, if_pos low, byte]
  by_cases one : data.length ≤ 0xff
  · refine ⟨OP_PUSHDATA1, [UInt8.ofNat data.length], ?_, by decide, ?_⟩
    · rw [if_neg direct, if_pos one]
      rfl
    · intro pc
      have byte : (UInt8.ofNat data.length).toNat = data.length := by
        rw [UInt8.toNat_ofNat']
        omega
      simp [readPushSize, byte]
  · refine ⟨OP_PUSHDATA2, [UInt8.ofNat data.length, UInt8.ofNat (data.length / 0x100)], ?_,
      by decide, ?_⟩
    · rw [if_neg direct, if_neg one, if_pos short]
      rfl
    · intro pc
      have bytes : ofBytes [UInt8.ofNat data.length, UInt8.ofNat (data.length / 0x100)] =
          data.length := by
        simp only [ofBytes, UInt8.toNat_ofNat']
        omega
      simp [readPushSize, bytes, show ¬ OP_PUSHDATA2 < OP_PUSHDATA1 by decide,
        show OP_PUSHDATA2 ≠ OP_PUSHDATA1 by decide]

private theorem pushedDataUpTo_pushData {data : Bytes} (short : data.length ≤ 0xffff) (fuel : ℕ)
    (pc : Bytes) :
    pushedDataUpTo (fuel + 1) (pushData data ++ pc) = (pushedDataUpTo fuel pc).map (data ++ ·) := by
  obtain ⟨opcode, operand, shape, low, size⟩ := pushData_cases short
  rw [shape, List.cons_append, List.append_assoc, pushedDataUpTo,
    if_neg (show ¬ opcode > OP_PUSHDATA2 from UInt8.not_lt.mpr low), size]
  dsimp only
  rw [if_neg (by simp), List.drop_left, List.take_left]

theorem pushedDataUpTo_flatMap (chunks : List Bytes)
    (short : ∀ chunk ∈ chunks, chunk.length ≤ 0xffff) {fuel : ℕ} (enough : chunks.length ≤ fuel) :
    pushedDataUpTo fuel (chunks.flatMap pushData) = some chunks.flatten := by
  induction chunks generalizing fuel with
  | nil => cases fuel <;> rfl
  | cons chunk rest ih =>
    obtain ⟨fuel, rfl⟩ : ∃ smaller, fuel = smaller + 1 := ⟨fuel - 1, by simp at enough; omega⟩
    have later : ∀ chunk ∈ rest, chunk.length ≤ 0xffff :=
      fun c member => short c (List.mem_cons_of_mem _ member)
    rw [List.flatMap_cons, pushedDataUpTo_pushData (short chunk List.mem_cons_self),
      ih later (by simpa using enough)]
    rfl

theorem length_pushData_pos (data : Bytes) : 0 < (pushData data).length := by
  unfold pushData
  split_ifs <;> simp

/-! The script. -/

section Script

variable {env : OracleEnv} {bundle : COracleBundle}

theorem createOracleScript_ne_nil (created : env.createOracleScript bundle ≠ []) :
    bundle.version = 3 ∧ bundle.aggregate_sig.length = 64 ∧
      decodeBitmap bundle.participation_bitmap env.totalOracles ≠ [] ∧
      env.createOracleScript bundle =
        OP_RETURN :: OP_ORACLE :: [[0x03], bundle.serializeV03Data].flatMap pushData := by
  unfold OracleEnv.createOracleScript at created ⊢
  dsimp only at created ⊢
  split_ifs at created ⊢ with version unsigned empty undecoded few failed
  any_goals exact absurd rfl created
  refine ⟨version, not_not.mp unsigned, undecoded, ?_⟩
  simp

theorem bitmap_of_decoded
    (decoded : decodeBitmap bundle.participation_bitmap env.totalOracles ≠ []) :
    bundle.participation_bitmap ≠ [] ∧ bundle.participation_bitmap.length ≤ 32 := by
  obtain ⟨slots, sized, _, _⟩ := decodeBitmap_ne_nil decoded
  refine ⟨?_, by omega⟩
  intro empty
  rw [empty] at sized
  change 0 = (env.totalOracles + 7) / 8 at sized
  omega

theorem pushedData_created (created : env.createOracleScript bundle ≠ []) :
    pushedData ((env.createOracleScript bundle).drop 2) =
      some (0x03 :: bundle.serializeV03Data) := by
  obtain ⟨_, signed, decoded, shape⟩ := createOracleScript_ne_nil created
  obtain ⟨shown, small⟩ := bitmap_of_decoded decoded
  have short : ∀ chunk ∈ [[0x03], bundle.serializeV03Data], chunk.length ≤ 0xffff := by
    intro chunk member
    rcases List.mem_pair.mp member with rfl | rfl
    · decide
    · rw [COracleBundle.serializeV03Data_eq signed shown, List.length_cons,
        COracleBundle.length_v03Fields signed]
      omega
  have enough : [[0x03], bundle.serializeV03Data].length ≤
      ([[0x03], bundle.serializeV03Data].flatMap pushData).length := by
    have version := length_pushData_pos [0x03]
    have data := length_pushData_pos bundle.serializeV03Data
    simp only [List.flatMap_cons, List.flatMap_nil, List.length_append, List.length_cons,
      List.length_nil]
    omega
  rw [shape]
  change pushedData ([[0x03], bundle.serializeV03Data].flatMap pushData) = _
  rw [pushedData, pushedDataUpTo_flatMap _ short enough]
  simp

theorem isOracleOutput_created (created : env.createOracleScript bundle ≠ []) :
    isOracleOutput (env.createOracleScript bundle) = true ∧
      4 ≤ (env.createOracleScript bundle).length := by
  obtain ⟨_, _, _, shape⟩ := createOracleScript_ne_nil created
  have version := length_pushData_pos [0x03]
  have data := length_pushData_pos bundle.serializeV03Data
  rw [shape]
  refine ⟨by simp [isOracleOutput], ?_⟩
  simp only [List.flatMap_cons, List.flatMap_nil, List.length_append, List.length_cons,
    List.length_nil]
  omega

theorem validateV03BundleFormat_created (created : env.createOracleScript bundle ≠ []) :
    validateV03BundleFormat (env.createOracleScript bundle) = (true, 3) := by
  obtain ⟨_, signed, decoded, _⟩ := createOracleScript_ne_nil created
  obtain ⟨shown, small⟩ := bitmap_of_decoded decoded
  obtain ⟨marked, long⟩ := isOracleOutput_created created
  obtain ⟨byte, nonzero⟩ := bitmapLength shown (by omega)
  have positive := List.length_pos_iff.mpr shown
  have sized := COracleBundle.length_v03Fields signed
  rw [validateV03BundleFormat, if_neg (by omega), if_neg (by rw [marked]; decide),
    pushedData_created created, COracleBundle.serializeV03Data_eq signed shown]
  dsimp only [List.headD_cons, List.length_cons]
  rw [if_neg (by decide), if_neg (by omega)]
  refine (if_neg nonzero).trans (Prod.ext (decide_eq_true ?_) rfl)
  omega

theorem extractOracleBundle_created (fits : bundle.Fits)
    (created : env.createOracleScript bundle ≠ [])
    {coinbase : CTransaction} {before after : List CTxOut} {nValue : ℤ}
    (outputs : coinbase.vout = before ++ ⟨nValue, env.createOracleScript bundle⟩ :: after)
    (others : ∀ output ∈ before ++ after, isOracleOutput output.scriptPubKey = false) :
    env.extractOracleBundle coinbase = some bundle := by
  obtain ⟨version, signed, decoded, _⟩ := createOracleScript_ne_nil created
  obtain ⟨shown, small⟩ := bitmap_of_decoded decoded
  obtain ⟨marked, long⟩ := isOracleOutput_created created
  have unmarked_before : ∀ output ∈ before, isOracleOutput output.scriptPubKey = false :=
    fun output member => others output (List.mem_append_left _ member)
  have unmarked_after : ∀ output ∈ after, isOracleOutput output.scriptPubKey = false :=
    fun output member => others output (List.mem_append_right _ member)
  have single : (coinbase.vout.countP fun output => isOracleOutput output.scriptPubKey) = 1 := by
    have none_before : (before.countP fun output => isOracleOutput output.scriptPubKey) = 0 := by
      rw [List.countP_eq_zero]
      simpa using unmarked_before
    have none_after : (after.countP fun output => isOracleOutput output.scriptPubKey) = 0 := by
      rw [List.countP_eq_zero]
      simpa using unmarked_after
    rw [outputs, List.countP_append, List.countP_cons, none_before, none_after]
    simp [marked]
  have found : (coinbase.vout.find? fun output =>
      isOracleOutput output.scriptPubKey && decide (4 ≤ output.scriptPubKey.length)) =
        some ⟨nValue, env.createOracleScript bundle⟩ := by
    have none_before : (before.find? fun output =>
        isOracleOutput output.scriptPubKey && decide (4 ≤ output.scriptPubKey.length)) = none := by
      rw [List.find?_eq_none]
      intro output member
      rw [unmarked_before output member]
      simp
    rw [outputs, List.find?_append, none_before, Option.none_or, List.find?_cons_of_pos]
    rw [marked, decide_eq_true long]
    rfl
  have read := deserializeV03Data_serializeV03Data fits version signed shown (by omega)
  rw [OracleEnv.extractOracleBundle, if_neg (by omega), found]
  simp only [OracleEnv.parseOracleScript, pushedData_created created, read]
  exact if_neg decoded

theorem bundleMessages_eq
    (decoded : decodeBitmap bundle.participation_bitmap env.totalOracles ≠ []) :
    env.bundleMessages bundle =
      (Bitmap.members bundle.participation_bitmap).map (env.syntheticMessage bundle) := by
  rw [← decodeBitmap_val decoded, List.map_map]
  rfl

end Script

/-- A created script in the only marked output of a coinbase gives back the bundle and one message
for each set bit in increasing order, and it passes the format check. A payload that is decoded is
the encoding of its bundle, so that different payloads have different bundles. -/
theorem bundle_script_round_trip :
    (∀ (env : OracleEnv) (bundle : COracleBundle), bundle.Fits →
      env.createOracleScript bundle ≠ [] →
      (∀ (coinbase : CTransaction) (before after : List CTxOut) (nValue : ℤ),
        coinbase.vout = before ++ ⟨nValue, env.createOracleScript bundle⟩ :: after →
        (∀ output ∈ before ++ after, isOracleOutput output.scriptPubKey = false) →
          env.extractBundleAndMessages coinbase =
            some (bundle, (Bitmap.members bundle.participation_bitmap).map
              (env.syntheticMessage bundle))) ∧
      validateV03BundleFormat (env.createOracleScript bundle) = (true, 3)) ∧
    (∀ (data : Bytes) (bundle : COracleBundle), deserializeV03Data data = some bundle →
      bundle.serializeV03Data = data) ∧
    (∀ (data data' : Bytes) (bundle : COracleBundle), deserializeV03Data data = some bundle →
      deserializeV03Data data' = some bundle → data = data') := by
  refine ⟨?_, fun data bundle accepted => serializeV03Data_of_deserialized accepted, ?_⟩
  · intro env bundle fits created
    refine ⟨?_, validateV03BundleFormat_created created⟩
    intro coinbase before after nValue outputs others
    obtain ⟨_, _, decoded, _⟩ := createOracleScript_ne_nil created
    rw [OracleEnv.extractBundleAndMessages, extractOracleBundle_created fits created outputs others,
      Option.map_some, bundleMessages_eq decoded]
  · intro data data' bundle accepted accepted'
    rw [← serializeV03Data_of_deserialized accepted, serializeV03Data_of_deserialized accepted']

namespace BlockSample

/-- A coinbase that pays a miner and carries a bundle. -/
def coinbase : CTransaction where
  hash := 1
  nVersion := 1
  vin := []
  vout := [⟨100, [0x51]⟩, ⟨0, env.createOracleScript (bundle 1700000000)⟩]
  nLockTime := 0

theorem sample_bundle_read_back :
    env.createOracleScript (bundle 1700000000) ≠ [] ∧
      env.extractBundleAndMessages coinbase =
        some (bundle 1700000000, [env.syntheticMessage (bundle 1700000000) 0,
          env.syntheticMessage (bundle 1700000000) 2]) := by
  have created : env.createOracleScript (bundle 1700000000) ≠ [] := by decide +kernel
  refine ⟨created, ?_⟩
  exact (bundle_script_round_trip.1 env (bundle 1700000000) ⟨by decide, by decide, by decide⟩
    created).1 coinbase
    [⟨100, [0x51]⟩] [] 0 rfl (by decide)

end BlockSample

end DigiByte.Oracle
