import DigiByte.Script.Script

/-!
The two leaf scripts of a collateral vault and its P2TR output
(`digidollar/scripts.cpp`). Point validity and the taproot output key come from
the curve library and the taproot builder and are parameters.
-/

set_option autoImplicit false
set_option relaxedAutoImplicit false

namespace DigiByte.Script

open DigiByte.Library

def OP_VERIFY : UInt8 := 0x69
def OP_DROP : UInt8 := 0x75
def OP_NOT : UInt8 := 0x91
def OP_CHECKSIG : UInt8 := 0xac
def OP_CHECKLOCKTIMEVERIFY : UInt8 := 0xb1
def OP_DDVERIFY : UInt8 := 0xbc
def OP_CHECKCOLLATERAL : UInt8 := 0xbe

/-- `CScript::operator<<` of a byte vector. -/
def pushData (b : Bytes) : Bytes :=
  if b.length < 0x4c then UInt8.ofNat b.length :: b
  else if b.length ≤ 0xff then OP_PUSHDATA1 :: UInt8.ofNat b.length :: b
  else if b.length ≤ 0xffff then
    OP_PUSHDATA2 :: UInt8.ofNat b.length :: UInt8.ofNat (b.length / 0x100) :: b
  else
    OP_PUSHDATA4 :: UInt8.ofNat b.length :: UInt8.ofNat (b.length / 0x100) ::
      UInt8.ofNat (b.length / 0x10000) :: UInt8.ofNat (b.length / 0x1000000) :: b

/-! Reading a push back. -/

theorem lengthByte {data : Bytes} (short : data.length < 0x4c) :
    (UInt8.ofNat data.length).toNat = data.length ∧ UInt8.ofNat data.length < OP_PUSHDATA1 ∧
      UInt8.ofNat data.length ≤ OP_PUSHDATA4 := by
  have byte : (UInt8.ofNat data.length).toNat = data.length := by
    rw [UInt8.toNat_ofNat']
    omega
  refine ⟨byte, ?_, ?_⟩
  · rw [UInt8.lt_iff_toNat_lt, byte]
    exact short
  · rw [UInt8.le_iff_toNat_le, byte]
    change data.length ≤ 0x4e
    omega

theorem getScriptOp_pushData {data : Bytes} (short : data.length < 0x4c) (pc : Bytes) :
    getScriptOp (pushData data ++ pc) = (some (UInt8.ofNat data.length, data), pc) := by
  obtain ⟨byte, direct, low⟩ := lengthByte short
  simp [pushData, short, getScriptOp, low, readPushSize, direct, byte]

theorem length_serializeNum_le {n : ℤ} {k : ℕ} (width : k ≤ 7) (bound : n.natAbs < 0x80 * 256 ^ k) :
    (serializeNum n).length ≤ k + 1 := by
  have power : 256 ^ k ≤ 256 ^ 7 := Nat.pow_le_pow_right (by decide) width
  exact SignMagnitude.length_encode_le (by omega) bound

theorem scriptNum_serializeNum_of_lt {n : ℤ} {k size : ℕ} (width : k ≤ 7)
    (bound : n.natAbs < 0x80 * 256 ^ k) (wide : k + 1 ≤ size) (minimal : Bool) :
    scriptNum (serializeNum n) minimal size = some n := by
  have short := length_serializeNum_le width bound
  have power : 256 ^ k ≤ 256 ^ 7 := Nat.pow_le_pow_right (by decide) width
  have small : n.natAbs < 256 ^ 8 := by omega
  unfold scriptNum
  rw [if_neg (by omega), serializeNum, SignMagnitude.minimal_encode small,
    SignMagnitude.decode_encode small]
  simp

/-- `push_int64`: small integers have an opcode of their own. -/
def pushInt64 (n : ℤ) : Bytes :=
  if n = -1 then [OP_1NEGATE]
  else if 1 ≤ n ∧ n ≤ 16 then [UInt8.ofNat (0x50 + n.toNat)]
  else if n = 0 then [OP_0]
  else pushData (serializeNum n)

/-- The mint parameters that the leaf scripts commit to. -/
structure MintParams where
  ddAmount : ℤ
  lockHeight : ℤ
  ownerKey : Bytes
  internalKey : Bytes

def createNormalRedemptionPath (params : MintParams) : Bytes :=
  if params.ddAmount ≤ 0 ∨ params.lockHeight < 0 then []
  else pushInt64 params.lockHeight ++ [OP_CHECKLOCKTIMEVERIFY, OP_DROP] ++
    [OP_DIGIDOLLAR] ++ pushData (serializeNum params.ddAmount) ++ [OP_DDVERIFY] ++
    pushData params.ownerKey ++ [OP_CHECKSIG]

def createERRPath (params : MintParams) : Bytes :=
  if params.ddAmount ≤ 0 ∨ params.lockHeight < 0 then []
  else pushInt64 params.lockHeight ++ [OP_CHECKLOCKTIMEVERIFY, OP_DROP] ++
    pushData (serializeNum 100) ++ [OP_CHECKCOLLATERAL, OP_NOT, OP_VERIFY] ++
    [OP_DIGIDOLLAR] ++ pushData (serializeNum params.ddAmount) ++ [OP_DDVERIFY] ++
    pushData params.ownerKey ++ [OP_CHECKSIG]

/-- Point validity of x-only keys and the output key of a taproot tree whose
leaves all have depth 1; `none` when the builder does not complete. -/
structure TaprootCurve where
  isFullyValid : Bytes → Bool
  taprootOutput : (internalKey : Bytes) → (leaves : List Bytes) → Option Bytes

/-- The empty script stands for failure, as in the source. -/
def createCollateralP2TR (curve : TaprootCurve) (params : MintParams) : Bytes :=
  if params.ddAmount ≤ 0 ∨ params.lockHeight < 0 ∨
      curve.isFullyValid params.internalKey = false then []
  else
    let leaves := [createNormalRedemptionPath params, createERRPath params].filter (· ≠ [])
    match curve.taprootOutput params.internalKey leaves with
    | none => []
    | some output => OP_1 :: pushData output

end DigiByte.Script
