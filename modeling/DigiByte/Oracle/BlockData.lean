import DigiByte.DigiDollar.Params
import DigiByte.Oracle.Bundle

/-!
The oracle bundle in the coinbase of a block, and its validation
(`ValidateBlockOracleData`).

The bundle is pushed in chunks after the marker and decoded from a fixed layout. The
messages that the source makes up for each participant of a decoded bundle, which the
validation does not read, are in `BundleScript`.
-/

set_option autoImplicit false
set_option relaxedAutoImplicit false

namespace DigiByte.Oracle

open Consensus (Params)
open DigiDollar (hasDigiDollarMarker getDigiDollarTxType)
open Script (Bytes OP_RETURN OP_PUSHDATA2 readPushSize getScriptOp scriptNum getint)
open Library.SignMagnitude (ofBytes)
open Library.Checks (rejectIf bind_eq_ok rejectIf_eq_ok)

def OP_ORACLE : UInt8 := 0xbf

structure CBlock where
  nTime : UInt32
  vtx : List CTransaction

/-- The 32-bit pattern as a signed number. -/
def toInt32 (value : ℕ) : ℤ := (value : ℤ).bmod (2 ^ 32)

/-- The 64-bit pattern as a signed number. -/
def toInt64 (value : ℤ) : ℤ := value.bmod (2 ^ 64)

/-! The payload. -/

/-- The chunks of a script put together, if they are plain pushes of at most two length
bytes and none is cut off. -/
def pushedDataUpTo : ℕ → Bytes → Option Bytes
  | _, [] => some []
  | 0, _ :: _ => none
  | fuel + 1, opcode :: pc =>
    if opcode > OP_PUSHDATA2 then none
    else
      match readPushSize opcode pc with
      | none => none
      | some (chunk_size, pc) =>
        if pc.length < chunk_size then none
        else (pushedDataUpTo fuel (pc.drop chunk_size)).map (pc.take chunk_size ++ ·)

def pushedData (pc : Bytes) : Option Bytes := pushedDataUpTo pc.length pc

/-- The fields of a v0x03 payload: bitmap length and bitmap, epoch, price, time stamp and
aggregate signature, numbers with the least significant byte first. -/
def deserializeV03Data (data : Bytes) : Option COracleBundle :=
  match data with
  | [] => none
  | bitmap_len :: fields =>
    if data.length < 86 then none
    else if bitmap_len = 0 then none
    else if data.length ≠ 1 + bitmap_len.toNat + 4 + 8 + 8 + 64 then none
    else
      let after_bitmap := fields.drop bitmap_len.toNat
      some
        { version := 3
          participation_bitmap := fields.take bitmap_len.toNat
          epoch := toInt32 (ofBytes (after_bitmap.take 4))
          median_price_micro_usd := ofBytes ((after_bitmap.drop 4).take 8)
          timestamp := toInt64 (ofBytes ((after_bitmap.drop 12).take 8))
          aggregate_sig := (after_bitmap.drop 20).take 64 }

def isOracleOutput (script : Bytes) : Bool :=
  script.head? == some OP_RETURN && script[1]? == some OP_ORACLE

section Validation

variable (env : OracleEnv)

/-- The bundle in the pushes after the marker. -/
def OracleEnv.parseOracleScript (pc : Bytes) : Option COracleBundle :=
  match pushedData pc with
  | some (0x03 :: v03_data) =>
    match deserializeV03Data v03_data with
    | none => none
    | some bundle =>
      let total_oracles := (max 1 env.params.nOracleTotalOracles).toNat % 2 ^ 16
      if decodeBitmap bundle.participation_bitmap total_oracles = [] then none else some bundle
  | _ => none

/-- `ExtractOracleBundle`: the first marked output long enough to hold data decides. -/
def OracleEnv.extractOracleBundle (coinbase_tx : CTransaction) : Option COracleBundle :=
  if (coinbase_tx.vout.countP fun output => isOracleOutput output.scriptPubKey) > 1 then none
  else
    match coinbase_tx.vout.find? fun output =>
        isOracleOutput output.scriptPubKey && decide (4 ≤ output.scriptPubKey.length) with
    | none => none
    | some output => env.parseOracleScript (output.scriptPubKey.drop 2)

/-- A mint or a redemption after the coinbase. -/
def blockNeedsOraclePrice (block : CBlock) : Bool :=
  (block.vtx.drop 1).any fun tx =>
    hasDigiDollarMarker tx && (getDigiDollarTxType tx == .mint || getDigiDollarTxType tx == .redeem)

/-- The height that the coinbase declares, 0 if it declares none. -/
def coinbaseHeight (coinbase : CTransaction) : Except Failure ℤ :=
  match coinbase.vin with
  | [] => .ok 0
  | input :: _ =>
    match (getScriptOp input.scriptSig).1 with
    | none => .ok 0
    | some (_, data) =>
      if data = [] then .ok 0
      else
        match scriptNum data true 4 with
        | some height => .ok (getint height)
        | none => .error (.invalid "bad-cb-bip34-height-encoding"
            "coinbase BIP34 height push is non-minimal or overflows")

/-- `IsDigiDollarEnabled` for the block after one of this height. -/
def isDigiDollarEnabled (params : Params) (prev_height : ℤ) : Bool :=
  prev_height + 1 ≥ params.DigiDollarHeight

/-- The height of the block and whether DigiDollar is enabled there. -/
def OracleEnv.blockHeight (prev_height : Option ℤ)
    (coinbase : CTransaction) : Except Failure (ℤ × Bool) :=
  match prev_height with
  | some height => .ok (height + 1, isDigiDollarEnabled env.params height)
  | none => do
    let height ← coinbaseHeight coinbase
    .ok (height, decide (env.params.nDDActivationHeight ≤ height))

/-- The age is a wrapping 64-bit difference; the clock skew allowed is 60 seconds. -/
def checkOracleTimestamp (nTime : UInt32) (timestamp : ℤ) : Except Failure Unit := do
  let oracle_age := toInt64 (nTime.toNat - timestamp)
  rejectIf (oracle_age > ORACLE_MAX_AGE_SECONDS)
    (.invalid "bad-oracle-timestamp"
      ("Oracle timestamp too old: age=" ++ toString oracle_age ++ " seconds (max=3600)"))
  rejectIf (timestamp > (nTime.toNat : ℤ) + 60)
    (.invalid "bad-oracle-timestamp" "Oracle timestamp is in the future")

/-- The checks of a block with one marked output. -/
def OracleEnv.validateOracleOutput (block_height : ℤ) (nTime : UInt32) (coinbase : CTransaction) :
    Except Failure COracleBundle :=
  match env.extractOracleBundle coinbase with
  | none => .error (.invalid "bad-oracle-malformed" "Oracle output must be a valid MuSig2 bundle")
  | some bundle => do
    rejectIf (bundle.version ≠ 3)
      (.invalid "bad-oracle-legacy" "DigiDollar V1 accepts only MuSig2 oracle bundles")
    match env.validateMuSig2Bundle bundle block_height with
    | .error musig_error =>
      .error (.invalid "bad-oracle-musig2"
        ("MuSig2 oracle bundle validation failed: " ++ musig_error))
    | .ok () =>
      checkOracleTimestamp nTime bundle.timestamp
      .ok bundle

/-- `ValidateBlockOracleData`: the validated bundle, if the block carries one and DigiDollar
is enabled. -/
def OracleEnv.validateBlockOracleData (block : CBlock) (prev_height : Option ℤ) :
    Except Failure (Option COracleBundle) :=
  match block.vtx with
  | [] => .ok none
  | coinbase :: _ => do
    let placed ← env.blockHeight prev_height coinbase
    if placed.2 = false then .ok none
    else do
      let oracle_output_count := coinbase.vout.countP fun output =>
        isOracleOutput output.scriptPubKey
      rejectIf (oracle_output_count > 1)
        (.invalid "bad-oracle-multiple-outputs"
          ("Block contains " ++ toString oracle_output_count ++
            " oracle outputs, expected at most 1"))
      if oracle_output_count = 0 then do
        rejectIf (blockNeedsOraclePrice block = true)
          (.invalid "bad-oracle-missing"
            "DigiDollar mint/redeem blocks must include a valid MuSig2 oracle bundle")
        .ok none
      else do
        let bundle ← env.validateOracleOutput placed.1 block.nTime coinbase
        .ok (some bundle)

end Validation

/-! The time stamp. -/

theorem checkOracleTimestamp_ok {nTime : UInt32} {timestamp : ℤ}
    (accepted : checkOracleTimestamp nTime timestamp = .ok ()) :
    toInt64 (nTime.toNat - timestamp) ≤ 3600 ∧ timestamp ≤ nTime.toNat + 60 := by
  unfold checkOracleTimestamp ORACLE_MAX_AGE_SECONDS at accepted
  simp only [bind_eq_ok, rejectIf_eq_ok] at accepted
  obtain ⟨_, young, past⟩ := accepted
  exact ⟨not_lt.mp young, not_lt.mp past⟩

theorem toInt64_of_fits {value : ℤ} (low : -2 ^ 63 ≤ value)
    (high : value < 2 ^ 63) : toInt64 value = value := by
  unfold toInt64
  exact Int.bmod_eq_of_le (by omega) (by omega)

/-- The accepted time stamps are those of the window, but for those so far in the past that
the age wraps around. -/
theorem window_iff_of_accepted {nTime : UInt32} {timestamp : ℤ}
    (accepted : checkOracleTimestamp nTime timestamp = .ok ()) :
    ((nTime.toNat : ℤ) - 3600 ≤ timestamp ∧ timestamp ≤ nTime.toNat + 60) ↔
      (nTime.toNat : ℤ) - timestamp < 2 ^ 63 := by
  obtain ⟨young, past⟩ := checkOracleTimestamp_ok accepted
  constructor
  · rintro ⟨recent, _⟩
    omega
  · intro fits
    rw [toInt64_of_fits (by omega) fits] at young
    exact ⟨by omega, past⟩

section Accepted

variable {env : OracleEnv} {block : CBlock} {prev_height : Option ℤ} {bundle : COracleBundle}

theorem validateOracleOutput_ok {height : ℤ} {nTime : UInt32} {coinbase : CTransaction}
    (accepted : env.validateOracleOutput height nTime coinbase = .ok bundle) :
    env.extractOracleBundle coinbase = some bundle ∧
      env.validateMuSig2Bundle bundle height = .ok () ∧
    checkOracleTimestamp nTime bundle.timestamp = .ok () := by
  unfold OracleEnv.validateOracleOutput at accepted
  cases extracted : env.extractOracleBundle coinbase with
  | none =>
    rw [extracted] at accepted
    cases accepted
  | some found =>
    rw [extracted] at accepted
    obtain ⟨_, _, checked⟩ := bind_eq_ok.mp accepted
    cases valid : env.validateMuSig2Bundle found height with
    | error musig_error =>
      rw [valid] at checked
      cases checked
    | ok _ =>
      rw [valid] at checked
      obtain ⟨_, stamped, same⟩ := bind_eq_ok.mp checked
      cases same
      exact ⟨rfl, valid, stamped⟩

theorem validateBlockOracleData_some
    (accepted : env.validateBlockOracleData block prev_height = .ok (some bundle)) :
    ∃ coinbase rest height, block.vtx = coinbase :: rest ∧
      env.blockHeight prev_height coinbase = .ok (height, true) ∧
      env.validateOracleOutput height block.nTime coinbase = .ok bundle := by
  unfold OracleEnv.validateBlockOracleData at accepted
  cases txs : block.vtx with
  | nil =>
    rw [txs] at accepted
    cases accepted
  | cons coinbase rest =>
    rw [txs] at accepted
    obtain ⟨⟨height, enabled⟩, placed, accepted⟩ := bind_eq_ok.mp accepted
    dsimp only at accepted
    cases enabled with
    | false => cases accepted
    | true =>
      rw [if_neg (show ¬ true = false by decide)] at accepted
      obtain ⟨_, _, accepted⟩ := bind_eq_ok.mp accepted
      split at accepted
      · obtain ⟨_, _, same⟩ := bind_eq_ok.mp accepted
        cases same
      · obtain ⟨found, valid, same⟩ := bind_eq_ok.mp accepted
        cases same
        exact ⟨coinbase, rest, height, rfl, placed, valid⟩

/-- The oracle's time stamp of an accepted block is within the window exactly when it is less
than `2 ^ 63` seconds before the block's. -/
theorem oracle_window_iff (env : OracleEnv) (block : CBlock) (prev_height : Option ℤ)
    (bundle : COracleBundle)
    (accepted : env.validateBlockOracleData block prev_height = .ok (some bundle)) :
    ((block.nTime.toNat : ℤ) - 3600 ≤ bundle.timestamp ∧
      bundle.timestamp ≤ block.nTime.toNat + 60) ↔
      (block.nTime.toNat : ℤ) - bundle.timestamp < 2 ^ 63 := by
  obtain ⟨coinbase, _, _, _, _, valid⟩ := validateBlockOracleData_some accepted
  exact window_iff_of_accepted (validateOracleOutput_ok valid).2.2

end Accepted

namespace BlockSample

/-- Three oracles, two of which are needed for a bundle. -/
def env : OracleEnv where
  chain :=
    { consensus :=
        { DigiDollarHeight := 10, nDigiDollarMuSig2Height := 10, nDDOracleEpochBlocks := 40
          nOracleTotalOracles := 3, nOraclePubkeyCount := 3, nOracleConsensusRequired := 2
          vOraclePublicKeys := [List.replicate 32 7, List.replicate 32 8, List.replicate 32 9]
          vOracleCompressedPublicKeys :=
            [2 :: List.replicate 32 7, 2 :: List.replicate 32 8, 2 :: List.replicate 32 9] }
      vOracleNodes :=
        [⟨0, 2 :: List.replicate 32 7, true⟩, ⟨1, 2 :: List.replicate 32 8, true⟩,
          ⟨2, 2 :: List.replicate 32 9, true⟩]
      configured := by decide +kernel
      aligned := by decide +kernel
      compressed := by decide +kernel }
  secp := .transparent
  sha _ := 0

/-- A block at height 41 whose bundle of oracles 0 and 2 has the price 20000 and these bytes of a
time stamp. -/
def block (nTime : UInt32) (timestamp : Bytes) : CBlock where
  nTime
  vtx :=
    [{ hash := 1, nVersion := 1, vin := [], nLockTime := 0
       vout :=
        [⟨0, [OP_RETURN, OP_ORACLE, 0x4c, 87, 3, 1, 5, 1, 0, 0, 0, 0x20, 0x4e, 0, 0, 0, 0, 0, 0] ++
          timestamp ++ List.replicate 64 9⟩] }]

def bundle (timestamp : ℤ) : COracleBundle where
  version := 3
  epoch := 1
  median_price_micro_usd := 20000
  timestamp
  participation_bitmap := [5]
  aggregate_sig := List.replicate 64 9

/-- The least time stamp there is passes as young. -/
theorem ancient_bundle_accepted :
    env.validateBlockOracleData (block 1700000000 [0, 0, 0, 0, 0, 0, 0, 0x80]) (some 40) =
      .ok (some (bundle (-2 ^ 63))) ∧
    ¬ ((block 1700000000 [0, 0, 0, 0, 0, 0, 0, 0x80]).nTime.toNat : ℤ) - 3600 ≤
      (bundle (-2 ^ 63)).timestamp :=
  ⟨by decide +kernel, by decide +kernel⟩

theorem recent_bundle_in_window :
    ((1700000000 : ℤ) - 3600 ≤ 1699999936 ∧ (1699999936 : ℤ) ≤ 1700000000 + 60) ↔
      (1700000000 : ℤ) - 1699999936 < 2 ^ 63 :=
  oracle_window_iff env (block 1700000000 [0xc0, 0xf0, 0x53, 0x65, 0, 0, 0, 0]) (some 40)
    (bundle 1699999936) (by decide +kernel)

end BlockSample

end DigiByte.Oracle
