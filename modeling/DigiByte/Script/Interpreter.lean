import DigiByte.Library.Consuming
import DigiByte.DigiDollar.Params
import DigiByte.Script.VaultLeaves

/-!
Script execution under the tapscript rules (`script/interpreter.cpp`):
`EvalScript` with `SigVersion::TAPSCRIPT` and `ExecuteWitnessScript`.

Stacks are lists with the top first. The hash functions, the signature hash and
Schnorr verification are parameters. The flags are the ones that tapscript
execution reads.
-/

set_option autoImplicit false
set_option relaxedAutoImplicit false

namespace DigiByte.Script

open Library
open Library.Checks (rejectIf bind_eq_ok)
open DigiDollar (MAX_DIGIDOLLAR)

def MAX_SCRIPT_ELEMENT_SIZE : ℕ := 520
def MAX_STACK_SIZE : ℕ := 1000
def LOCKTIME_THRESHOLD : ℤ := 500000000
def VALIDATION_WEIGHT_PER_SIGOP_PASSED : ℤ := 50
def VALIDATION_WEIGHT_OFFSET : ℤ := 50
def SEQUENCE_FINAL : ℕ := 0xffffffff
def SEQUENCE_LOCKTIME_DISABLE_FLAG : ℕ := 2 ^ 31
def SEQUENCE_LOCKTIME_TYPE_FLAG : ℕ := 2 ^ 22
def SEQUENCE_LOCKTIME_MASK : ℕ := 0xffff

inductive ScriptError
  | unknownError | evalFalse | opReturn | pushSize | stackSize | verify | equalVerify
  | numEqualVerify | checkSigVerify | badOpcode | disabledOpcode | invalidStackOperation
  | invalidAltstackOperation | unbalancedConditional | negativeLocktime | unsatisfiedLocktime
  | minimalData | cleanStack | discourageUpgradableNops | discourageOpSuccess
  | discourageUpgradablePubkeyType | schnorrSigSize | schnorrSigHashtype | schnorrSig
  | tapscriptValidationWeight | tapscriptCheckMultiSig | tapscriptMinimalIf | pubkeyType
  | invalidDDAmount | ddVerify
  deriving DecidableEq, Repr

inductive UnaryOp
  | add1 | sub1 | negate | abs | not | notEqual0
  deriving DecidableEq, Repr

inductive BinaryOp
  | add | sub | boolAnd | boolOr | numEqual | numNotEqual | lessThan | greaterThan
  | lessThanOrEqual | greaterThanOrEqual | min | max
  deriving DecidableEq, Repr

inductive HashOp
  | ripemd160 | sha1 | sha256 | hash160 | hash256
  deriving DecidableEq, Repr

/-- The operations that only move or compare stack elements. -/
inductive StackOp
  | drop2 | dup2 | dup3 | over2 | rot2 | swap2 | ifDup | depth | drop | dup | nip | over |
      rot | swap
  | tuck | size | equal
  deriving DecidableEq, Repr

/-- The operations that read numbers from the stack. -/
inductive NumericOp
  | unary (op : UnaryOp) | binary (op : BinaryOp) | within | pick | roll
  deriving DecidableEq, Repr

/-- The operations above the data pushes. -/
inductive Opcode
  | number (n : ℤ)
  | nop | upgradableNop | checkLockTimeVerify | checkSequenceVerify
  | digidollar | ddVerify | checkPrice | checkCollateral
  | condition (negated : Bool) | otherwise | endIf | verify | opReturn
  | toAltStack | fromAltStack
  | stack (op : StackOp) | equalVerify
  | numeric (op : NumericOp) | numEqualVerify
  | hash (op : HashOp) | codeSeparator | checkSig | checkSigVerify | checkSigAdd | checkMultiSig
  | disabled | unknown
  deriving DecidableEq, Repr

/-- The `opcodetype` numbers, for bytes above `OP_PUSHDATA4`. -/
def Opcode.ofByte (opcode : UInt8) : Opcode :=
  match opcode.toNat with
  | 0x4f => .number (-1)
  | 0x51 => .number 1 | 0x52 => .number 2 | 0x53 => .number 3 | 0x54 => .number 4
  | 0x55 => .number 5 | 0x56 => .number 6 | 0x57 => .number 7 | 0x58 => .number 8
  | 0x59 => .number 9 | 0x5a => .number 10 | 0x5b => .number 11 | 0x5c => .number 12
  | 0x5d => .number 13 | 0x5e => .number 14 | 0x5f => .number 15 | 0x60 => .number 16
  | 0x61 => .nop
  | 0x63 => .condition false | 0x64 => .condition true | 0x67 => .otherwise | 0x68 => .endIf
  | 0x69 => .verify | 0x6a => .opReturn
  | 0x6b => .toAltStack | 0x6c => .fromAltStack
  | 0x6d => .stack .drop2 | 0x6e => .stack .dup2 | 0x6f => .stack .dup3 | 0x70 => .stack .over2
  | 0x71 => .stack .rot2 | 0x72 => .stack .swap2
  | 0x73 => .stack .ifDup | 0x74 => .stack .depth | 0x75 => .stack .drop | 0x76 => .stack .dup
  | 0x77 => .stack .nip | 0x78 => .stack .over
  | 0x79 => .numeric .pick | 0x7a => .numeric .roll | 0x7b => .stack .rot | 0x7c => .stack .swap
  | 0x7d => .stack .tuck
  | 0x7e | 0x7f | 0x80 | 0x81 => .disabled
  | 0x82 => .stack .size
  | 0x83 | 0x84 | 0x85 | 0x86 => .disabled
  | 0x87 => .stack .equal | 0x88 => .equalVerify
  | 0x8b => .numeric (.unary .add1) | 0x8c => .numeric (.unary .sub1)
  | 0x8d | 0x8e => .disabled
  | 0x8f => .numeric (.unary .negate) | 0x90 => .numeric (.unary .abs)
  | 0x91 => .numeric (.unary .not) | 0x92 => .numeric (.unary .notEqual0)
  | 0x93 => .numeric (.binary .add) | 0x94 => .numeric (.binary .sub)
  | 0x95 | 0x96 | 0x97 | 0x98 | 0x99 => .disabled
  | 0x9a => .numeric (.binary .boolAnd) | 0x9b => .numeric (.binary .boolOr)
  | 0x9c => .numeric (.binary .numEqual)
  | 0x9d => .numEqualVerify | 0x9e => .numeric (.binary .numNotEqual)
  | 0x9f => .numeric (.binary .lessThan)
  | 0xa0 => .numeric (.binary .greaterThan) | 0xa1 => .numeric (.binary .lessThanOrEqual)
  | 0xa2 => .numeric (.binary .greaterThanOrEqual) | 0xa3 => .numeric (.binary .min)
  | 0xa4 => .numeric (.binary .max)
  | 0xa5 => .numeric .within
  | 0xa6 => .hash .ripemd160 | 0xa7 => .hash .sha1 | 0xa8 => .hash .sha256 | 0xa9 => .hash .hash160
  | 0xaa => .hash .hash256
  | 0xab => .codeSeparator | 0xac => .checkSig | 0xad => .checkSigVerify
  | 0xae | 0xaf => .checkMultiSig
  | 0xb0 => .upgradableNop | 0xb1 => .checkLockTimeVerify | 0xb2 => .checkSequenceVerify
  | 0xb3 | 0xb4 | 0xb5 | 0xb6 | 0xb7 | 0xb8 | 0xb9 => .upgradableNop
  | 0xba => .checkSigAdd
  | 0xbb => .digidollar | 0xbc => .ddVerify | 0xbd => .checkPrice | 0xbe => .checkCollateral
  | _ => .unknown

structure ScriptFlags where
  checkLockTimeVerify : Bool
  checkSequenceVerify : Bool
  digidollar : Bool
  minimalData : Bool
  discourageUpgradableNops : Bool
  discourageOpSuccess : Bool
  discourageUpgradablePubkeyType : Bool
  deriving DecidableEq, Repr

/-- The spending transaction and the input under check, with the signature hash of
a hash type and code separator position (`none` for a bad hash type). -/
structure SignatureChecker where
  tx : CTransaction
  input : CTxIn
  signatureHash : (hashtype : UInt8) → (codeseparator_pos : ℕ) → Option Bytes
  verifySchnorr : (pubkey sighash sig : Bytes) → Bool

structure ScriptEnv where
  flags : ScriptFlags
  checker : SignatureChecker
  hash : HashOp → Bytes → Bytes

structure EvalState where
  pc : Bytes
  stack : List Bytes
  altstack : List Bytes := []
  /-- `vfExec`, the innermost condition first. -/
  conditions : List Bool := []
  opcode_pos : ℕ := 0
  codeseparator_pos : ℕ := 0xffffffff
  validation_weight_left : ℤ
  /-- An early `set_success`. -/
  returned : Bool := false
  deriving DecidableEq, Repr

/-! Values. -/

def vchFalse : Bytes := []
def vchTrue : Bytes := [1]

def ofBool (b : Bool) : Bytes := if b then vchTrue else vchFalse

/-- Some byte is nonzero, unless it is the sign bit of a negative zero. -/
def castToBool : Bytes → Bool
  | [] => false
  | [b] => b ≠ 0 && b ≠ 0x80
  | b :: rest => b ≠ 0 || castToBool rest

/-- A numeric operand; the thrown `scriptnum_error` is caught as unknown error. -/
def operand (env : ScriptEnv) (vch : Bytes) : Except ScriptError ℤ :=
  match scriptNum vch env.flags.minimalData 4 with
  | some n => .ok n
  | none => .error .unknownError

def checkMinimalPush (data : Bytes) (opcode : UInt8) : Bool :=
  match data with
  | [] => opcode = OP_0
  | [b] =>
    if 1 ≤ b.toNat ∧ b.toNat ≤ 16 then false
    else if b = 0x81 then false
    else opcode = 1
  | _ =>
    if data.length ≤ 75 then opcode.toNat = data.length
    else if data.length ≤ 255 then opcode = OP_PUSHDATA1
    else if data.length ≤ 65535 then opcode = OP_PUSHDATA2
    else true

/-! Checks against the spending transaction. -/

def checkLockTime (checker : SignatureChecker) (nLockTime : ℤ) : Bool :=
  let txLockTime : ℤ := checker.tx.nLockTime.toNat
  if ¬ ((txLockTime < LOCKTIME_THRESHOLD ∧ nLockTime < LOCKTIME_THRESHOLD) ∨
      (txLockTime ≥ LOCKTIME_THRESHOLD ∧ nLockTime ≥ LOCKTIME_THRESHOLD)) then false
  else if nLockTime > txLockTime then false
  else if SEQUENCE_FINAL = checker.input.nSequence then false
  else true

/-- `CheckSequence` of a nonnegative number. -/
def checkSequence (checker : SignatureChecker) (nSequence : ℕ) : Bool :=
  let txToSequence := checker.input.nSequence
  let nLockTimeMask := SEQUENCE_LOCKTIME_TYPE_FLAG ||| SEQUENCE_LOCKTIME_MASK
  let txToSequenceMasked := txToSequence &&& nLockTimeMask
  let nSequenceMasked := nSequence &&& nLockTimeMask
  if checker.tx.nVersion.toNat < 2 then false
  else if txToSequence &&& SEQUENCE_LOCKTIME_DISABLE_FLAG ≠ 0 then false
  else if ¬ ((txToSequenceMasked < SEQUENCE_LOCKTIME_TYPE_FLAG ∧
        nSequenceMasked < SEQUENCE_LOCKTIME_TYPE_FLAG) ∨
      (txToSequenceMasked ≥ SEQUENCE_LOCKTIME_TYPE_FLAG ∧
        nSequenceMasked ≥ SEQUENCE_LOCKTIME_TYPE_FLAG)) then false
  else if nSequenceMasked > txToSequenceMasked then false
  else true

/-- A 64-byte signature, or one with its hash type appended. -/
def checkSchnorrSignature (checker : SignatureChecker) (sig pubkey : Bytes)
    (codeseparator_pos : ℕ) :
    Except ScriptError Unit := do
  rejectIf (sig.length ≠ 64 ∧ sig.length ≠ 65) .schnorrSigSize
  let hashtype := if sig.length = 65 then sig.getLastD 0 else 0
  rejectIf (sig.length = 65 ∧ hashtype = 0) .schnorrSigHashtype
  match checker.signatureHash hashtype codeseparator_pos with
  | none => .error .schnorrSigHashtype
  | some sighash =>
    rejectIf (checker.verifySchnorr pubkey sighash (sig.take 64) = false) .schnorrSig

/-- Whether the signature passes, and the validation weight that is left. -/
def evalChecksigTapscript (env : ScriptEnv) (s : EvalState) (sig pubkey : Bytes) :
    Except ScriptError (Bool × ℤ) := do
  let success := !sig.isEmpty
  let weight :=
    if success then s.validation_weight_left - VALIDATION_WEIGHT_PER_SIGOP_PASSED
    else s.validation_weight_left
  rejectIf (success = true ∧ weight < 0) .tapscriptValidationWeight
  if pubkey.length = 0 then .error .pubkeyType
  else if pubkey.length = 32 then do
    (if success then checkSchnorrSignature env.checker sig pubkey s.codeseparator_pos else .ok ())
    .ok (success, weight)
  else do
    rejectIf (env.flags.discourageUpgradablePubkeyType = true) .discourageUpgradablePubkeyType
    .ok (success, weight)

/-! Numeric operations. -/

def UnaryOp.eval : UnaryOp → ℤ → ℤ
  | .add1, bn => bn + 1
  | .sub1, bn => bn - 1
  | .negate, bn => -bn
  | .abs, bn => |bn|
  | .not, bn => if bn = 0 then 1 else 0
  | .notEqual0, bn => if bn ≠ 0 then 1 else 0

def BinaryOp.eval : BinaryOp → ℤ → ℤ → ℤ
  | .add, bn1, bn2 => bn1 + bn2
  | .sub, bn1, bn2 => bn1 - bn2
  | .boolAnd, bn1, bn2 => if bn1 ≠ 0 ∧ bn2 ≠ 0 then 1 else 0
  | .boolOr, bn1, bn2 => if bn1 ≠ 0 ∨ bn2 ≠ 0 then 1 else 0
  | .numEqual, bn1, bn2 => if bn1 = bn2 then 1 else 0
  | .numNotEqual, bn1, bn2 => if bn1 ≠ bn2 then 1 else 0
  | .lessThan, bn1, bn2 => if bn1 < bn2 then 1 else 0
  | .greaterThan, bn1, bn2 => if bn1 > bn2 then 1 else 0
  | .lessThanOrEqual, bn1, bn2 => if bn1 ≤ bn2 then 1 else 0
  | .greaterThanOrEqual, bn1, bn2 => if bn1 ≥ bn2 then 1 else 0
  | .min, bn1, bn2 => if bn1 < bn2 then bn1 else bn2
  | .max, bn1, bn2 => if bn1 > bn2 then bn1 else bn2

/-- `none` is an invalid stack operation. -/
def StackOp.eval : StackOp → List Bytes → Option (List Bytes)
  | .drop2, _ :: _ :: rest => some rest
  | .dup2, x2 :: x1 :: rest => some (x2 :: x1 :: x2 :: x1 :: rest)
  | .dup3, x3 :: x2 :: x1 :: rest => some (x3 :: x2 :: x1 :: x3 :: x2 :: x1 :: rest)
  | .over2, x4 :: x3 :: x2 :: x1 :: rest => some (x2 :: x1 :: x4 :: x3 :: x2 :: x1 :: rest)
  | .rot2, x6 :: x5 :: x4 :: x3 :: x2 :: x1 :: rest =>
    some (x2 :: x1 :: x6 :: x5 :: x4 :: x3 :: rest)
  | .swap2, x4 :: x3 :: x2 :: x1 :: rest => some (x2 :: x1 :: x4 :: x3 :: rest)
  | .ifDup, x :: rest => some (if castToBool x then x :: x :: rest else x :: rest)
  | .depth, stack => some (serializeNum stack.length :: stack)
  | .drop, _ :: rest => some rest
  | .dup, x :: rest => some (x :: x :: rest)
  | .nip, x2 :: _ :: rest => some (x2 :: rest)
  | .over, x2 :: x1 :: rest => some (x1 :: x2 :: x1 :: rest)
  | .rot, x3 :: x2 :: x1 :: rest => some (x1 :: x3 :: x2 :: rest)
  | .swap, x2 :: x1 :: rest => some (x1 :: x2 :: rest)
  | .tuck, x2 :: x1 :: rest => some (x2 :: x1 :: x2 :: rest)
  | .size, x :: rest => some (serializeNum x.length :: x :: rest)
  | .equal, x2 :: x1 :: rest => some (ofBool (x1 = x2) :: rest)
  | _, _ => none

/-- The element that `OP_PICK` and `OP_ROLL` address below their operand. -/
def addressed (env : ScriptEnv) : List Bytes → Except ScriptError (ℕ × Bytes × List Bytes)
  | top :: below :: rest => do
    let n := getint (← operand env top)
    let stack := below :: rest
    match stack[n.toNat]? with
    | some vch => if n < 0 then .error .invalidStackOperation else .ok (n.toNat, vch, stack)
    | none => .error .invalidStackOperation
  | _ => .error .invalidStackOperation

def NumericOp.eval (env : ScriptEnv) : NumericOp → List Bytes → Except ScriptError (List Bytes)
  | .unary op, x :: rest => do
    let bn ← operand env x
    .ok (serializeNum (op.eval bn) :: rest)
  | .binary op, x2 :: x1 :: rest => do
    let bn1 ← operand env x1
    let bn2 ← operand env x2
    .ok (serializeNum (op.eval bn1 bn2) :: rest)
  | .within, x3 :: x2 :: x1 :: rest => do
    let bn1 ← operand env x1
    let bn2 ← operand env x2
    let bn3 ← operand env x3
    .ok (ofBool (bn2 ≤ bn1 && bn1 < bn3) :: rest)
  | .pick, stack => do
    let (_, vch, stack) ← addressed env stack
    .ok (vch :: stack)
  | .roll, stack => do
    let (n, vch, stack) ← addressed env stack
    .ok (vch :: stack.eraseIdx n)
  | _, _ => .error .invalidStackOperation

/-! Time locks and the DigiDollar operations. -/

def evalCheckLockTimeVerify (env : ScriptEnv) (s : EvalState) : Except ScriptError EvalState :=
  if env.flags.checkLockTimeVerify = false then .ok s
  else match s.stack with
    | [] => .error .invalidStackOperation
    | top :: _ =>
      match scriptNum top env.flags.minimalData 5 with
      | none => .error .unknownError
      | some nLockTime => do
        rejectIf (nLockTime < 0) .negativeLocktime
        rejectIf (checkLockTime env.checker nLockTime = false) .unsatisfiedLocktime
        .ok s

def evalCheckSequenceVerify (env : ScriptEnv) (s : EvalState) : Except ScriptError EvalState :=
  if env.flags.checkSequenceVerify = false then .ok s
  else match s.stack with
    | [] => .error .invalidStackOperation
    | top :: _ =>
      match scriptNum top env.flags.minimalData 5 with
      | none => .error .unknownError
      | some nSequence => do
        rejectIf (nSequence < 0) .negativeLocktime
        if nSequence.toNat &&& SEQUENCE_LOCKTIME_DISABLE_FLAG ≠ 0 then .ok s
        else do
          rejectIf (checkSequence env.checker nSequence.toNat = false) .unsatisfiedLocktime
          .ok s

/-- Reads the amount from the script and leaves true. -/
def evalDigidollar (env : ScriptEnv) (s : EvalState) : Except ScriptError EvalState :=
  if env.flags.digidollar = false then .ok { s with returned := true }
  else match getScriptOp s.pc with
    | (none, _) => .error .invalidDDAmount
    | (some (_, vchAmount), pc) =>
      match scriptNum vchAmount env.flags.minimalData 4 with
      | none => .error .invalidDDAmount
      | some amount => do
        rejectIf (amount ≤ 0 ∨ amount > MAX_DIGIDOLLAR) .invalidDDAmount
        .ok { s with pc, stack := vchTrue :: s.stack }

def evalDDVerify (env : ScriptEnv) (s : EvalState) : Except ScriptError EvalState :=
  if env.flags.digidollar = false then .ok { s with returned := true }
  else match s.stack with
    | [] => .error .invalidStackOperation
    | top :: rest => do
      rejectIf (castToBool top = false) .ddVerify
      .ok { s with stack := rest }

/-- Disabled: consumes its operand and leaves false. -/
def evalCheckPrice (env : ScriptEnv) (s : EvalState) : Except ScriptError EvalState :=
  if env.flags.digidollar = false then .ok { s with returned := true }
  else match s.stack with
    | [] => .error .invalidStackOperation
    | _ :: rest => .ok { s with stack := vchFalse :: rest }

/-- Malformed numbers count as an insufficient ratio. -/
def evalCheckCollateral (env : ScriptEnv) (s : EvalState) : Except ScriptError EvalState :=
  if env.flags.digidollar = false then .ok { s with returned := true }
  else match s.stack with
    | top :: below :: rest =>
      match scriptNum below env.flags.minimalData 4, scriptNum top env.flags.minimalData 4 with
      | some ratio, some threshold => .ok { s with stack := ofBool (threshold ≤ ratio) :: rest }
      | _, _ => .ok { s with stack := vchFalse :: rest }
    | _ => .error .invalidStackOperation

/-! Signatures and control. -/

/-- `OP_CHECKSIG`: the state with the signature's verdict on the stack. -/
def evalCheckSig (env : ScriptEnv) (s : EvalState) : Except ScriptError (Bool × EvalState) :=
  match s.stack with
  | pubkey :: sig :: rest => do
    let (success, weight) ← evalChecksigTapscript env s sig pubkey
    .ok (success, { s with stack := rest, validation_weight_left := weight })
  | _ => .error .invalidStackOperation

def evalCheckSigAdd (env : ScriptEnv) (s : EvalState) : Except ScriptError EvalState :=
  match s.stack with
  | pubkey :: top :: sig :: rest => do
    let num ← operand env top
    let (success, weight) ← evalChecksigTapscript env s sig pubkey
    .ok { s with
      stack := serializeNum (num + if success then 1 else 0) :: rest
      validation_weight_left := weight }
  | _ => .error .invalidStackOperation

/-- `OP_IF` and `OP_NOTIF`; tapscript asks for a minimal condition. -/
def evalCondition (negated fExec : Bool) (s : EvalState) : Except ScriptError EvalState :=
  if fExec then
    match s.stack with
    | [] => .error .unbalancedConditional
    | vch :: rest => do
      rejectIf (vch.length > 1 ∨ (vch.length = 1 ∧ vch ≠ [1])) .tapscriptMinimalIf
      .ok { s with stack := rest, conditions := (castToBool vch ^^ negated) :: s.conditions }
  else .ok { s with conditions := false :: s.conditions }

/-- Replace the stack, or stop with an invalid stack operation. -/
def withStack (s : EvalState) : Option (List Bytes) → Except ScriptError EvalState
  | some stack => .ok { s with stack }
  | none => .error .invalidStackOperation

/-- The switch of `EvalScript`; `s.pc` is the position after the operation. -/
def evalOpcode (env : ScriptEnv) (fExec : Bool) (s : EvalState) :
    Opcode → Except ScriptError EvalState
  | .number n => .ok { s with stack := serializeNum n :: s.stack }
  | .nop => .ok s
  | .upgradableNop => do
    rejectIf (env.flags.discourageUpgradableNops = true) .discourageUpgradableNops
    .ok s
  | .checkLockTimeVerify => evalCheckLockTimeVerify env s
  | .checkSequenceVerify => evalCheckSequenceVerify env s
  | .digidollar => evalDigidollar env s
  | .ddVerify => evalDDVerify env s
  | .checkPrice => evalCheckPrice env s
  | .checkCollateral => evalCheckCollateral env s
  | .condition negated => evalCondition negated fExec s
  | .otherwise =>
    match s.conditions with
    | [] => .error .unbalancedConditional
    | f :: outer => .ok { s with conditions := (!f) :: outer }
  | .endIf =>
    match s.conditions with
    | [] => .error .unbalancedConditional
    | _ :: outer => .ok { s with conditions := outer }
  | .verify =>
    match s.stack with
    | [] => .error .invalidStackOperation
    | top :: rest => do
      rejectIf (castToBool top = false) .verify
      .ok { s with stack := rest }
  | .opReturn => .error .opReturn
  | .toAltStack =>
    match s.stack with
    | [] => .error .invalidStackOperation
    | top :: rest => .ok { s with stack := rest, altstack := top :: s.altstack }
  | .fromAltStack =>
    match s.altstack with
    | [] => .error .invalidAltstackOperation
    | top :: rest => .ok { s with stack := top :: s.stack, altstack := rest }
  | .stack op => withStack s (op.eval s.stack)
  | .equalVerify =>
    match s.stack with
    | x2 :: x1 :: rest => do
      rejectIf (x1 ≠ x2) .equalVerify
      .ok { s with stack := rest }
    | _ => .error .invalidStackOperation
  | .numeric op => do
    let stack ← op.eval env s.stack
    .ok { s with stack }
  | .numEqualVerify => do
    let stack ← NumericOp.eval env (.binary .numEqual) s.stack
    match stack with
    | [] => .error .invalidStackOperation
    | top :: rest => do
      rejectIf (castToBool top = false) .numEqualVerify
      .ok { s with stack := rest }
  | .hash op =>
    match s.stack with
    | [] => .error .invalidStackOperation
    | top :: rest => .ok { s with stack := env.hash op top :: rest }
  | .codeSeparator => .ok { s with codeseparator_pos := s.opcode_pos }
  | .checkSig => do
    let (success, s) ← evalCheckSig env s
    .ok { s with stack := ofBool success :: s.stack }
  | .checkSigVerify => do
    let (success, s) ← evalCheckSig env s
    rejectIf (success = false) .checkSigVerify
    .ok s
  | .checkSigAdd => evalCheckSigAdd env s
  | .checkMultiSig => .error .tapscriptCheckMultiSig
  | .disabled => .error .disabledOpcode
  | .unknown => .error .badOpcode

def OP_IF : UInt8 := 0x63
def OP_ENDIF : UInt8 := 0x68

/-- What one operation does before the limits are checked. -/
def evalOperation (env : ScriptEnv) (s : EvalState) (opcode : UInt8) (vchPushValue : Bytes) :
    Except ScriptError EvalState :=
  let fExec := s.conditions.all id
  if fExec = true ∧ opcode ≤ OP_PUSHDATA4 then do
    rejectIf (env.flags.minimalData = true ∧ checkMinimalPush vchPushValue opcode = false)
      .minimalData
    .ok { s with stack := vchPushValue :: s.stack }
  else if fExec = true ∨ (OP_IF ≤ opcode ∧ opcode ≤ OP_ENDIF) then
    evalOpcode env fExec s (Opcode.ofByte opcode)
  else .ok s

/-- One round of the loop of `EvalScript`. -/
def evalStep (env : ScriptEnv) (s : EvalState) : Except ScriptError EvalState :=
  match getScriptOp s.pc with
  | (none, _) => .error .badOpcode
  | (some (opcode, vchPushValue), pc) => do
    rejectIf (vchPushValue.length > MAX_SCRIPT_ELEMENT_SIZE) .pushSize
    rejectIf (Opcode.ofByte opcode = .disabled) .disabledOpcode
    let s ← evalOperation env { s with pc } opcode vchPushValue
    rejectIf (s.returned = false ∧ s.stack.length + s.altstack.length > MAX_STACK_SIZE) .stackSize
    .ok { s with opcode_pos := s.opcode_pos + 1 }

/-- The loop ends with the script or with an early success. -/
def EvalState.size (s : EvalState) : ℕ := if s.returned then 0 else s.pc.length

/-- `EvalScript` from an initial stack; the final stack on success. -/
def evalScript (env : ScriptEnv) (stack : List Bytes) (script : Bytes) (weight : ℤ) :
    Except ScriptError (List Bytes) := do
  let s ← Consuming.run EvalState.size (evalStep env)
    { pc := script, stack, validation_weight_left := weight }
  rejectIf (s.returned = false ∧ s.conditions ≠ []) .unbalancedConditional
  .ok s.stack

/-! Witness scripts. -/

def isOpSuccess (opcode : UInt8) : Bool :=
  let n := opcode.toNat
  n = 80 || n = 98 || (126 ≤ n && n ≤ 129) || (131 ≤ n && n ≤ 134) || (137 ≤ n && n ≤ 138) ||
    (141 ≤ n && n ≤ 142) || (149 ≤ n && n ≤ 153) || (187 ≤ n && n ≤ 254)

/-- With the DigiDollar flag its operations are executed. -/
def isOpSuccessForFlags (opcode : UInt8) (flags : ScriptFlags) : Bool :=
  if 0xbb ≤ opcode.toNat ∧ opcode.toNat ≤ 0xbf ∧ flags.digidollar = true then false
  else isOpSuccess opcode

/-- Position and whether an `OP_SUCCESS` was met. -/
abbrev ScanState := Bytes × Bool

def ScanState.size (s : ScanState) : ℕ := if s.2 then 0 else s.1.length

def scanStep (flags : ScriptFlags) (s : ScanState) : Except ScriptError ScanState :=
  match getScriptOp s.1 with
  | (none, _) => .error .badOpcode
  | (some (opcode, _), pc) => .ok (pc, isOpSuccessForFlags opcode flags)

/-- The sigop budget that `VerifyWitnessProgram` sets from the whole witness stack. -/
def validationWeight (witness : List Bytes) : ℤ :=
  (compactSizeLength witness.length +
    (witness.map fun elem => compactSizeLength elem.length + elem.length).sum : ℕ) +
    VALIDATION_WEIGHT_OFFSET

/-- `ExecuteWitnessScript` under tapscript; the witness has its top last. -/
def executeWitnessScript (env : ScriptEnv) (witness : List Bytes) (script : Bytes) (weight : ℤ) :
    Except ScriptError Unit := do
  let (_, success) ← Consuming.run ScanState.size (scanStep env.flags) (script, false)
  if success then rejectIf (env.flags.discourageOpSuccess = true) .discourageOpSuccess
  else do
    rejectIf (witness.length > MAX_STACK_SIZE) .stackSize
    rejectIf (∃ elem ∈ witness, elem.length > MAX_SCRIPT_ELEMENT_SIZE) .pushSize
    let stack ← evalScript env witness.reverse script weight
    match stack with
    | [top] => rejectIf (castToBool top = false) .evalFalse
    | _ => .error .cleanStack

/-! The two loops end: every operation takes at least its own byte. -/

theorem getScriptOp_length_lt {pc rest : Bytes} {op : UInt8 × Bytes}
    (h : getScriptOp pc = (some op, rest)) : rest.length < pc.length := by
  unfold getScriptOp at h
  cases pc with
  | nil => simp at h
  | cons opcode pc =>
    dsimp only at h
    split_ifs at h
    · cases sized : readPushSize opcode pc with
      | none => simp [sized] at h
      | some size =>
        obtain ⟨nSize, pc'⟩ := size
        have shorter : pc'.length ≤ pc.length := by
          unfold readPushSize at sized
          split_ifs at sized
          · simp_all
          · split at sized <;> simp_all
          · split at sized <;> simp_all
            omega
          · split at sized <;> simp_all
            omega
        simp only [sized] at h
        split_ifs at h
        · simp at h
        · simp only [Prod.mk.injEq] at h
          rw [← h.2, List.length_drop, List.length_cons]
          omega
    · simp only [Prod.mk.injEq] at h
      simp [← h.2]

private theorem evalDigidollar_pc {env : ScriptEnv} {s s' : EvalState}
    (h : evalDigidollar env s = .ok s') : s'.pc.length ≤ s.pc.length := by
  unfold evalDigidollar at h
  split_ifs at h
  · cases h
    exact Nat.le_refl _
  · rcases read : getScriptOp s.pc with ⟨_ | ⟨opcode, data⟩, pc⟩
    · simp [read] at h
    · simp only [read] at h
      split at h
      · cases h
      · simp only [bind_eq_ok, Except.ok.injEq] at h
        obtain ⟨_, _, rfl⟩ := h
        exact (getScriptOp_length_lt read).le

private theorem evalChecked_pc {bad : Prop} [Decidable bad] {e : ScriptError} {s s' t : EvalState}
    (h : (do rejectIf bad e; .ok t : Except ScriptError EvalState) = .ok s') (same : t.pc = s.pc) :
    s'.pc = s.pc := by
  simp only [bind_eq_ok, Except.ok.injEq] at h
  obtain ⟨_, _, rfl⟩ := h
  exact same

private theorem evalCheckSig_pc {env : ScriptEnv} {s s' : EvalState} {success : Bool}
    (h : evalCheckSig env s = .ok (success, s')) : s'.pc = s.pc := by
  unfold evalCheckSig at h
  split at h
  · simp only [bind_eq_ok, Except.ok.injEq, Prod.mk.injEq] at h
    obtain ⟨_, _, _, rfl⟩ := h
    rfl
  · cases h

private theorem evalCheckLockTimeVerify_pc {env : ScriptEnv} {s s' : EvalState}
    (h : evalCheckLockTimeVerify env s = .ok s') : s'.pc = s.pc := by
  unfold evalCheckLockTimeVerify at h
  split_ifs at h
  · cases h
    rfl
  · split at h
    · cases h
    · split at h
      · cases h
      · obtain ⟨_, _, h⟩ := bind_eq_ok.mp h
        exact evalChecked_pc h rfl

private theorem evalCheckSequenceVerify_pc {env : ScriptEnv} {s s' : EvalState}
    (h : evalCheckSequenceVerify env s = .ok s') : s'.pc = s.pc := by
  unfold evalCheckSequenceVerify at h
  split_ifs at h
  · cases h
    rfl
  · split at h
    · cases h
    · split at h
      · cases h
      · obtain ⟨_, _, h⟩ := bind_eq_ok.mp h
        split_ifs at h
        · cases h
          rfl
        · exact evalChecked_pc h rfl

private theorem evalDigiDollarStack_pc {env : ScriptEnv} {s s' : EvalState}
    (h : evalDDVerify env s = .ok s' ∨ evalCheckPrice env s = .ok s' ∨
      evalCheckCollateral env s = .ok s') : s'.pc = s.pc := by
  simp only [evalDDVerify, evalCheckPrice, evalCheckCollateral] at h
  rcases h with h | h | h
  · split_ifs at h
    · cases h
      rfl
    · split at h
      · cases h
      · exact evalChecked_pc h rfl
  · split_ifs at h
    · cases h
      rfl
    · split at h <;> cases h
      rfl
  · split_ifs at h
    · cases h
      rfl
    · split at h
      · split at h <;> cases h <;> rfl
      · cases h

private theorem evalCheckSigAdd_pc {env : ScriptEnv} {s s' : EvalState}
    (h : evalCheckSigAdd env s = .ok s') : s'.pc = s.pc := by
  unfold evalCheckSigAdd at h
  split at h
  · simp only [bind_eq_ok, Except.ok.injEq] at h
    obtain ⟨_, _, _, _, rfl⟩ := h
    rfl
  · cases h

private theorem evalOpcode_pc {env : ScriptEnv} {fExec : Bool} {s s' : EvalState} {op : Opcode}
    (h : evalOpcode env fExec s op = .ok s') (other : op ≠ .digidollar) : s'.pc = s.pc := by
  cases op with
  | digidollar => exact absurd rfl other
  | upgradableNop => exact evalChecked_pc h rfl
  | checkLockTimeVerify => exact evalCheckLockTimeVerify_pc h
  | checkSequenceVerify => exact evalCheckSequenceVerify_pc h
  | ddVerify => exact evalDigiDollarStack_pc (.inl h)
  | checkPrice => exact evalDigiDollarStack_pc (.inr (.inl h))
  | checkCollateral => exact evalDigiDollarStack_pc (.inr (.inr h))
  | condition negated =>
    simp only [evalOpcode, evalCondition] at h
    split_ifs at h
    · split at h
      · cases h
      · exact evalChecked_pc h rfl
    · cases h
      rfl
  | verify =>
    simp only [evalOpcode] at h
    split at h
    · cases h
    · exact evalChecked_pc h rfl
  | equalVerify =>
    simp only [evalOpcode] at h
    split at h
    · exact evalChecked_pc h rfl
    · cases h
  | stack op =>
    simp only [evalOpcode, withStack] at h
    split at h <;> cases h
    rfl
  | numeric op =>
    simp only [evalOpcode, bind_eq_ok, Except.ok.injEq] at h
    obtain ⟨_, _, rfl⟩ := h
    rfl
  | numEqualVerify =>
    obtain ⟨_, _, h⟩ := bind_eq_ok.mp h
    split at h
    · cases h
    · exact evalChecked_pc h rfl
  | checkSig =>
    obtain ⟨⟨_, t⟩, sig, h⟩ := bind_eq_ok.mp h
    cases h
    exact show t.pc = s.pc from evalCheckSig_pc sig
  | checkSigVerify =>
    obtain ⟨⟨_, t⟩, sig, h⟩ := bind_eq_ok.mp h
    exact evalChecked_pc h (evalCheckSig_pc sig)
  | checkSigAdd => exact evalCheckSigAdd_pc h
  | number | nop | codeSeparator =>
    cases h
    rfl
  | otherwise | endIf | toAltStack | fromAltStack | hash =>
    simp only [evalOpcode] at h
    split at h <;> cases h
    rfl
  | opReturn | checkMultiSig | disabled | unknown => cases h

private theorem evalOperation_pc {env : ScriptEnv} {s s' : EvalState} {opcode : UInt8}
    {data : Bytes} (h : evalOperation env s opcode data = .ok s') : s'.pc.length ≤ s.pc.length := by
  unfold evalOperation at h
  dsimp only at h
  split_ifs at h
  · rw [evalChecked_pc h rfl]
  · by_cases amount : Opcode.ofByte opcode = .digidollar
    · rw [amount] at h
      exact evalDigidollar_pc h
    · rw [evalOpcode_pc h amount]
  · cases h
    exact Nat.le_refl _

theorem evalStep_shrinking (env : ScriptEnv) :
    Consuming.Shrinking EvalState.size (evalStep env) := by
  intro s s' running h
  unfold evalStep at h
  rcases read : getScriptOp s.pc with ⟨_ | ⟨opcode, data⟩, pc⟩
  · simp [read] at h
  · simp only [read, bind_eq_ok] at h
    obtain ⟨_, _, _, _, t, operation, _, _, result⟩ := h
    cases result
    have taken := getScriptOp_length_lt read
    have kept : t.pc.length ≤ pc.length := evalOperation_pc operation
    have left : EvalState.size { t with opcode_pos := t.opcode_pos + 1 } ≤ t.pc.length := by
      unfold EvalState.size
      split_ifs
      · exact Nat.zero_le _
      · exact Nat.le_refl _
    have size : s.size = s.pc.length := by
      unfold EvalState.size at running ⊢
      split_ifs at running ⊢ with returned
      · exact absurd rfl running
      · rfl
    omega

theorem scanStep_shrinking (flags : ScriptFlags) :
    Consuming.Shrinking ScanState.size (scanStep flags) := by
  rintro ⟨pc, found⟩ s' running h
  unfold scanStep at h
  rcases read : getScriptOp pc with ⟨_ | ⟨opcode, data⟩, rest⟩
  · simp [read] at h
  · simp only [read, Except.ok.injEq] at h
    have taken := getScriptOp_length_lt read
    subst h
    cases found with
    | true => exact absurd rfl running
    | false =>
      unfold ScanState.size
      dsimp only
      split_ifs <;> simp_all
      omega

end DigiByte.Script
