import DigiByte.DigiDollar.Params

/-!
The readers of DigiDollar `OP_RETURN` metadata in `digidollar/validation.cpp`.

Five readers of the source take the same fields apart in slightly different
ways. Each keeps its own definition; what they share is the position after the
tag, `ddPayload`, and the laws below say when they agree.
-/

set_option autoImplicit false
set_option relaxedAutoImplicit false

namespace DigiByte.DigiDollar

open Consensus Script

/-- The two bytes 'D', 'D'. -/
def DD_TAG : Bytes := [0x44, 0x44]

/-- The position after `OP_RETURN` and a push of the tag. -/
def ddPayload (script : Bytes) : Option Bytes :=
  if isOpReturn script then
    match getScriptOp script with
    | (none, _) => none
    | (some _, pc) =>
      match getScriptOp pc with
      | (some (_, data), pc) => if data = DD_TAG then some pc else none
      | (none, _) => none
  else none

/-- Local wallet records about scripts. -/
inductive ScriptType
  | notDigiDollar | ddTokenOutput | collateralLock
  deriving DecidableEq, Repr

structure ScriptMetadata where
  type : ScriptType
  ddAmount : ℤ
  lockHeight : ℤ

abbrev ScriptRegistry := Bytes → Option ScriptMetadata

/-- The registry branch of `ExtractDDAmount`, which consensus code disables. -/
def registryAmount (registry : ScriptRegistry) (script : Bytes) : Option ℤ :=
  match registry script with
  | some metadata =>
    if metadata.type = .ddTokenOutput ∨ metadata.type = .collateralLock then some metadata.ddAmount
    else none
  | none => none

/-- A serialized amount is between one cent and `MAX_DIGIDOLLAR`. -/
def boundedAmount (amount : ℤ) : Option ℤ :=
  if 1 ≤ amount ∧ amount ≤ MAX_DIGIDOLLAR then some amount else none

/-- `OP_RETURN OP_DIGIDOLLAR <8-byte little-endian amount>` with nothing after it. -/
def legacyAmount (pc : Bytes) : Option ℤ :=
  match getScriptOp pc with
  | (some (_, data), pc) =>
    if data.length = 8 then
      match getScriptOp pc with
      | (some _, _) => none
      | (none, _) => boundedAmount (Library.SignMagnitude.ofBytes data)
    else none
  | (none, _) => none

/-- The amount field after the tag, with the type field skipped unread. -/
def taggedAmount (pc : Bytes) : Option ℤ :=
  match getScriptOp pc with
  | (none, _) => none
  | (some _, pc) =>
    match getScriptOp pc with
    | (none, _) => none
    | (some (_, data), _) => (scriptNum data true 8).bind boundedAmount

def extractDDAmount (registry : ScriptRegistry) (script : Bytes) (allow_registry : Bool) :
    Option ℤ :=
  match (if allow_registry then registryAmount registry script else none) with
  | some amount => some amount
  | none =>
    match getScriptOp script with
    | (none, _) => none
    | (some (opcode, _), pc) =>
      if opcode ≠ OP_RETURN then none
      else match getScriptOp pc with
        | (none, _) => none
        | (some (opcode, data), pc) =>
          if opcode = OP_DIGIDOLLAR then legacyAmount pc
          else if data = DD_TAG then taggedAmount pc
          else none

/-- The first tagged output wins; the first legacy output is the fallback. -/
def findDDOpReturnFrom : List CTxOut → ℕ → Option ℕ → Option ℕ
  | [], _, legacyIdx => legacyIdx
  | out :: rest, i, legacyIdx =>
    let script := out.scriptPubKey
    if script.length < 2 ∨ isOpReturn script = false then findDDOpReturnFrom rest (i + 1) legacyIdx
    else if script[1]? = some OP_DIGIDOLLAR then
      findDDOpReturnFrom rest (i + 1) (legacyIdx.or (some i))
    else match ddPayload script with
      | some _ => some i
      | none => findDDOpReturnFrom rest (i + 1) legacyIdx

def findDDOpReturn (tx : CTransaction) : Option ℕ := findDDOpReturnFrom tx.vout 0 none

/-- A vault candidate: spendable, positive and P2TR. -/
def isCollateralOutput (out : CTxOut) : Bool :=
  0 < out.nValue && !isUnspendable out.scriptPubKey && isCanonicalP2TROutput out.scriptPubKey

/-- Principal and collateral of a mint with one readable amount and one vault. -/
def extractMintAccountingAmounts (registry : ScriptRegistry) (tx : CTransaction)
    (allow_registry : Bool) : Option (ℤ × ℤ) :=
  if getDigiDollarTxType tx ≠ .mint then none
  else match findDDOpReturn tx with
    | none => none
    | some ddIdx =>
      match (tx.vout[ddIdx]?).bind fun out =>
          extractDDAmount registry out.scriptPubKey allow_registry with
      | none => none
      | some ddAmount =>
        if ddAmount ≤ 0 then none
        else match tx.vout.filter isCollateralOutput with
          | [out] => some (ddAmount, out.nValue)
          | _ => none

/-- Whether one output is the unique positive P2TR output of a readable mint. -/
def isMintCollateralOutput (registry : ScriptRegistry) (prev_tx : CTransaction)
    (outputIndex : ℕ) : Bool :=
  let positive := fun out : CTxOut => 0 < out.nValue && isCanonicalP2TROutput out.scriptPubKey
  !prev_tx.isCoinBase && hasDigiDollarMarker prev_tx && getDigiDollarTxType prev_tx = .mint &&
    ((prev_tx.vout[outputIndex]?).any positive) &&
    ((findDDOpReturn prev_tx).bind fun i => (prev_tx.vout[i]?).bind fun out =>
      extractDDAmount registry out.scriptPubKey false).any (0 < ·) &&
    ((prev_tx.vout.zipIdx.filter fun p => positive p.1).map Prod.snd = [outputIndex])

/-! The reader that later spends use. -/

/-- The type field, 0 when the push is empty; `none` is a bad encoding. -/
def readTxType (data : Bytes) : Option ℤ :=
  if data = [] then some 0 else scriptNum data true 4

/-- A readable nonempty push of an amount list. -/
def readAmount (data : Bytes) : Option ℤ := if data = [] then none else scriptNum data true 8

/-- Mint and redeem metadata hold one amount; transfer metadata one per output. -/
def payloadAmounts (type : DigiDollarTxType) (pc : Bytes) : List ℤ :=
  if type = .mint ∨ type = .redeem then
    match getScriptOp pc with
    | (some (_, data), _) => (readAmount data).toList
    | (none, _) => []
  else (scriptOps pc).filterMap fun op => readAmount op.2

/-- The output loop of `ExtractDDAmountFromTxRef`; `none` is its `return false`. -/
def collectDDAmounts (type : DigiDollarTxType) : List CTxOut → ℕ → List ℤ → Option (List ℤ)
  | [], _, dd_amounts => some dd_amounts
  | vout :: rest, ddOpReturnCount, dd_amounts =>
    match ddPayload vout.scriptPubKey with
    | none => collectDDAmounts type rest ddOpReturnCount dd_amounts
    | some pc =>
      if ddOpReturnCount + 1 > 1 then none
      else match getScriptOp pc with
        | (none, _) => collectDDAmounts type rest (ddOpReturnCount + 1) dd_amounts
        | (some (_, data), pc) =>
          match readTxType data with
          | none => none
          | some txType =>
            if txType ≠ type.toInt then none
            else collectDDAmounts type rest (ddOpReturnCount + 1)
              (dd_amounts ++ payloadAmounts type pc)

/-- A DigiDollar token output: zero value and P2TR. -/
def isTokenOutput (out : CTxOut) : Bool :=
  !isOpReturn out.scriptPubKey && out.nValue == 0 && isCanonicalP2TROutput out.scriptPubKey

/-- The second loop: the amount at the output's position among the token outputs. -/
def matchDDOutput (dd_amounts : List ℤ) (target : ℕ) : List CTxOut → ℕ → ℕ → Option ℤ
  | [], _, _ => none
  | txout :: rest, n, dd_output_idx =>
    if isTokenOutput txout then
      if n = target then
        match dd_amounts[dd_output_idx]? with
        | some amount => if 0 < amount then some amount else none
        | none => matchDDOutput dd_amounts target rest (n + 1) (dd_output_idx + 1)
      else matchDDOutput dd_amounts target rest (n + 1) (dd_output_idx + 1)
    else matchDDOutput dd_amounts target rest (n + 1) dd_output_idx

/-- `ExtractDDAmountFromTxRef`, the amount of output `n` of its creating transaction. -/
def extractDDAmountFromTxRef (prev_tx : CTransaction) (n : ℕ) : Option ℤ :=
  if prev_tx.isCoinBase then none
  else if !hasDigiDollarMarker prev_tx then none
  else match collectDDAmounts (getDigiDollarTxType prev_tx) prev_tx.vout 0 [] with
    | none => none
    | some [] => none
    | some dd_amounts => matchDDOutput dd_amounts n prev_tx.vout 0 0

/-- The reader inside `ValidateCollateralReleaseAmount`: amount and lock height
of the first tagged output that has both. The amount is an in-out argument: it
keeps its last value when the reader goes on or gives up. -/
def mintMetadataFrom : List CTxOut → ℤ → ℤ × Option ℤ
  | [], ddOut => (ddOut, none)
  | vout :: rest, ddOut =>
    match ddPayload vout.scriptPubKey with
    | none => mintMetadataFrom rest ddOut
    | some pc =>
      match getScriptOp pc with
      | (none, _) => mintMetadataFrom rest ddOut
      | (some (_, data), pc) =>
        if readTxType data ≠ some 1 then mintMetadataFrom rest ddOut
        else match getScriptOp pc with
          | (none, _) => mintMetadataFrom rest ddOut
          | (some (_, data), pc) =>
            if data = [] then mintMetadataFrom rest ddOut
            else
              let ddOut := (scriptNum data true 8).getD ddOut
              if ddOut ≤ 0 then mintMetadataFrom rest ddOut
              else match getScriptOp pc with
                | (none, _) => mintMetadataFrom rest ddOut
                | (some (_, data), _) =>
                  match readAmount data with
                  | some lockHeight =>
                    (ddOut, if 0 ≤ lockHeight then some lockHeight else none)
                  | none => mintMetadataFrom rest ddOut

def extractMintMetadataFromTx (prev_tx : CTransaction) (ddOut : ℤ) : ℤ × Option ℤ :=
  if !hasDigiDollarMarker prev_tx then (ddOut, none)
  else if getDigiDollarTxType prev_tx ≠ .mint then (ddOut, none)
  else mintMetadataFrom prev_tx.vout ddOut

end DigiByte.DigiDollar
