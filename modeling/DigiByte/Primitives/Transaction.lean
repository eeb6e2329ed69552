import DigiByte.Consensus.Params
import DigiByte.Library.Checks
import DigiByte.Script.Script

/-!
Transactions, coins and the context-free transaction check.

A transaction carries its identifier as the source's cached `hash` member does;
that different transactions have different identifiers is a property of the
runs that use it, not of the type. `nVersion` is the 32-bit pattern of the
source's `int32_t`.
-/

set_option autoImplicit false
set_option relaxedAutoImplicit false

namespace DigiByte

open Consensus Script
open Library.Checks (rejectIf bind_eq_ok rejectIf_eq_ok)

/-- What `TxValidationState` records: a consensus rejection with its reason and
debug message, or a node that is not ready to decide. -/
inductive Failure
  | invalid (reason : String) (debug : String := "")
  | error (reason : String)
  deriving DecidableEq, Repr

structure COutPoint where
  hash : ℕ
  n : ℕ
  deriving DecidableEq, Repr

def COutPoint.isNull (o : COutPoint) : Bool := o.hash == 0 && o.n == 0xffffffff

structure CTxOut where
  nValue : ℤ
  scriptPubKey : Bytes
  deriving DecidableEq, Repr

structure CTxIn where
  prevout : COutPoint
  scriptSig : Bytes := []
  nSequence : ℕ := 0xffffffff
  deriving DecidableEq, Repr

structure CTransaction where
  hash : ℕ
  nVersion : UInt32
  vin : List CTxIn
  vout : List CTxOut
  nLockTime : UInt32
  deriving DecidableEq, Repr

def CTransaction.isCoinBase (tx : CTransaction) : Bool :=
  match tx.vin with
  | [input] => input.prevout.isNull
  | _ => false

structure Coin where
  out : CTxOut
  fCoinBase : Bool
  nHeight : ℕ
  deriving DecidableEq, Repr

/-- `CTxOut::IsNull`: the value of a cleared output is -1. -/
def Coin.isSpent (coin : Coin) : Bool := coin.out.nValue == -1

/-- Height given to coins of transactions that are not in a block yet. -/
def MEMPOOL_HEIGHT : ℕ := 0x7fffffff

def MAX_BLOCK_WEIGHT : ℕ := 4000000
def WITNESS_SCALE_FACTOR : ℕ := 4

/-- Bytes of a `CompactSize` length. -/
def compactSizeLength (n : ℕ) : ℕ :=
  if n < 253 then 1 else if n ≤ 0xffff then 3 else if n ≤ 0xffffffff then 5 else 9

/-- Serialized size without witness data. -/
def CTransaction.baseSize (tx : CTransaction) : ℕ :=
  4 + compactSizeLength tx.vin.length +
    (tx.vin.map fun i => 36 + compactSizeLength i.scriptSig.length + i.scriptSig.length + 4).sum +
    compactSizeLength tx.vout.length +
    (tx.vout.map fun o => 8 + compactSizeLength o.scriptPubKey.length + o.scriptPubKey.length).sum +
    4

/-- The output loop of `CheckTransaction` from the running total `nValueOut`. -/
def checkOutputValues : List CTxOut → ℤ → Except Failure Unit
  | [], _ => .ok ()
  | txout :: rest, nValueOut => do
    rejectIf (txout.nValue < 0) (.invalid "bad-txns-vout-negative")
    rejectIf (txout.nValue > MAX_MONEY) (.invalid "bad-txns-vout-toolarge")
    rejectIf (moneyRange (nValueOut + txout.nValue) = false)
      (.invalid "bad-txns-txouttotal-toolarge")
    checkOutputValues rest (nValueOut + txout.nValue)

def checkTransaction (tx : CTransaction) : Except Failure Unit := do
  rejectIf (tx.vin = []) (.invalid "bad-txns-vin-empty")
  rejectIf (tx.vout = []) (.invalid "bad-txns-vout-empty")
  rejectIf (tx.baseSize * WITNESS_SCALE_FACTOR > MAX_BLOCK_WEIGHT) (.invalid "bad-txns-oversize")
  checkOutputValues tx.vout 0
  rejectIf (¬ (tx.vin.map CTxIn.prevout).Nodup) (.invalid "bad-txns-inputs-duplicate")
  if tx.isCoinBase then
    rejectIf (∃ i ∈ tx.vin.head?, i.scriptSig.length < 2 ∨ i.scriptSig.length > 100)
      (.invalid "bad-cb-length")
  else
    rejectIf (∃ i ∈ tx.vin, i.prevout.isNull = true) (.invalid "bad-txns-prevout-null")

private theorem checkOutputValues_money {vout : List CTxOut} {nValueOut : ℤ}
    (h : checkOutputValues vout nValueOut = .ok ()) :
    ∀ out ∈ vout, 0 ≤ out.nValue ∧ out.nValue ≤ MAX_MONEY := by
  induction vout generalizing nValueOut with
  | nil => simp
  | cons txout rest ih =>
    simp only [checkOutputValues, bind_eq_ok, rejectIf_eq_ok] at h
    obtain ⟨_, low, _, high, _, _, h⟩ := h
    intro out member
    rcases List.mem_cons.mp member with rfl | member
    · omega
    · exact ih h out member

theorem checkTransaction_money {tx : CTransaction} (h : checkTransaction tx = .ok ()) :
    ∀ out ∈ tx.vout, 0 ≤ out.nValue ∧ out.nValue ≤ MAX_MONEY := by
  simp only [checkTransaction, bind_eq_ok] at h
  obtain ⟨_, _, _, _, _, _, _, values, _⟩ := h
  exact checkOutputValues_money values

end DigiByte
