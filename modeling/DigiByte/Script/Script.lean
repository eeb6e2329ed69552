import DigiByte.Library.SignMagnitude

/-!
Serialized scripts, script numbers and the operation reader of `script.cpp`.

`getScriptOp` returns the position after the attempt together with the result:
the source advances its iterator past the opcode and the size bytes also when
the push is truncated, and one caller goes on reading from there.
-/

set_option autoImplicit false
set_option relaxedAutoImplicit false

namespace DigiByte.Script

open DigiByte.Library

abbrev Bytes := List UInt8

def OP_0 : UInt8 := 0x00
def OP_PUSHDATA1 : UInt8 := 0x4c
def OP_PUSHDATA2 : UInt8 := 0x4d
def OP_PUSHDATA4 : UInt8 := 0x4e
def OP_1NEGATE : UInt8 := 0x4f
def OP_1 : UInt8 := 0x51
def OP_16 : UInt8 := 0x60
def OP_RETURN : UInt8 := 0x6a
def OP_DIGIDOLLAR : UInt8 := 0xbb

def MAX_SCRIPT_SIZE : ℕ := 10000

/-- The size operand of a push and the position after it. -/
def readPushSize (opcode : UInt8) (pc : Bytes) : Option (ℕ × Bytes) :=
  if opcode < OP_PUSHDATA1 then some (opcode.toNat, pc)
  else if opcode = OP_PUSHDATA1 then
    match pc with
    | b :: pc => some (b.toNat, pc)
    | [] => none
  else if opcode = OP_PUSHDATA2 then
    match pc with
    | b₀ :: b₁ :: pc => some (SignMagnitude.ofBytes [b₀, b₁], pc)
    | _ => none
  else
    match pc with
    | b₀ :: b₁ :: b₂ :: b₃ :: pc => some (SignMagnitude.ofBytes [b₀, b₁, b₂, b₃], pc)
    | _ => none

/-- One `GetScriptOp` call: the operation with its immediate data, or a failed
read, and the advanced position. -/
def getScriptOp (pc : Bytes) : Option (UInt8 × Bytes) × Bytes :=
  match pc with
  | [] => (none, [])
  | opcode :: pc =>
    if opcode ≤ OP_PUSHDATA4 then
      match readPushSize opcode pc with
      | none => (none, pc)
      | some (nSize, pc) =>
        if pc.length < nSize then (none, pc)
        else (some (opcode, pc.take nSize), pc.drop nSize)
    else (some (opcode, []), pc)

/-- All operations from `pc` on, up to the first failed read: what a
`while (GetOp(...))` loop visits. -/
def scriptOpsUpTo : ℕ → Bytes → List (UInt8 × Bytes)
  | 0, _ => []
  | fuel + 1, pc =>
    match getScriptOp pc with
    | (none, _) => []
    | (some op, rest) => op :: scriptOpsUpTo fuel rest

def scriptOps (pc : Bytes) : List (UInt8 × Bytes) := scriptOpsUpTo pc.length pc

/-- `CScriptNum(vch, fRequireMinimal, nMaxNumSize)`; `none` is `scriptnum_error`. -/
def scriptNum (vch : Bytes) (fRequireMinimal : Bool) (nMaxNumSize : ℕ) : Option ℤ :=
  if vch.length > nMaxNumSize then none
  else if fRequireMinimal && !SignMagnitude.minimal vch then none
  else some (SignMagnitude.decode vch)

/-- `CScriptNum::serialize` of an `int64_t`. -/
def serializeNum (value : ℤ) : Bytes := SignMagnitude.encode 8 value

/-- `CScriptNum::getint`: saturation to a 32-bit `int`. -/
def getint (value : ℤ) : ℤ := max (-2147483648) (min 2147483647 value)

/-- `IsWitnessProgram`: the version and the program. -/
def isWitnessProgram (script : Bytes) : Option (ℕ × Bytes) :=
  if script.length < 4 || 42 < script.length then none
  else match script with
    | v :: size :: program =>
      if v ≠ OP_0 ∧ (v < OP_1 ∨ OP_16 < v) then none
      else if size.toNat + 2 = script.length then
        some (if v = OP_0 then 0 else v.toNat - 0x50, program)
      else none
    | _ => none

/-- `IsCanonicalP2TROutput` and `IsCanonicalTaproot`: a version 1 witness
program of 32 bytes. `Solver` reports `WITNESS_V1_TAPROOT` for the same scripts. -/
def isCanonicalP2TROutput (script : Bytes) : Bool :=
  match isWitnessProgram script with
  | some (version, program) => version == 1 && program.length == 32
  | none => false

/-- `script.size() > 0 && script[0] == OP_RETURN`. -/
def isOpReturn (script : Bytes) : Bool := script.head? == some OP_RETURN

def isUnspendable (script : Bytes) : Bool := isOpReturn script || MAX_SCRIPT_SIZE < script.length

/-! The two shapes that the validators tell apart are disjoint. -/

theorem isWitnessProgram_length {script program : Bytes} {version : ℕ}
    (h : isWitnessProgram script = some (version, program)) : script.length ≤ 42 := by
  unfold isWitnessProgram at h
  split at h
  · cases h
  · rename_i size
    simp only [Bool.or_eq_true, decide_eq_true_eq, not_or, not_lt] at size
    exact size.2

theorem isOpReturn_eq_false_of_p2tr {script : Bytes} (h : isCanonicalP2TROutput script = true) :
    isOpReturn script = false := by
  match script with
  | [] => rfl
  | v :: tail =>
    by_contra hne
    have hv : v = OP_RETURN := by simpa [isOpReturn] using hne
    subst hv
    have : isWitnessProgram (OP_RETURN :: tail) = none := by
      unfold isWitnessProgram
      split
      · rfl
      · match tail with
        | [] => rfl
        | size :: program => exact if_pos (by decide)
    simp [isCanonicalP2TROutput, this] at h

theorem isUnspendable_eq_false_of_p2tr {script : Bytes}
    (h : isCanonicalP2TROutput script = true) : isUnspendable script = false := by
  have hr := isOpReturn_eq_false_of_p2tr h
  unfold isCanonicalP2TROutput at h
  split at h
  · rename_i found
    have := isWitnessProgram_length found
    have small : ¬ MAX_SCRIPT_SIZE < script.length := by unfold MAX_SCRIPT_SIZE; omega
    simp [isUnspendable, hr, small]
  · cases h

end DigiByte.Script
