import Mathlib.Algebra.Group.Int.Defs
import Mathlib.Algebra.Group.Nat.Defs
import Mathlib.Data.Int.Notation
import Mathlib.Logic.Function.Iterate

/-!
The 256-bit unsigned integers of `arith_uint256.cpp` and their compact form.

Sums, products, complements and shifts are those of `BitVec 256`. Multiplying or
dividing by a signed 64-bit number picks the 32-bit overload in the source, so the
number is reduced to 32 bits first; the source throws where that gives a zero
divisor.
-/

set_option autoImplicit false
set_option relaxedAutoImplicit false

namespace DigiByte.Arith

abbrev ArithUint256 := BitVec 256

/-- `static_cast<uint32_t>`, widened again. -/
def word (b : ℤ) : ArithUint256 := (BitVec.ofInt 32 b).setWidth 256

theorem toNat_word {b : ℤ} (nonneg : 0 ≤ b) (small : b < 2 ^ 32) : (word b).toNat = b.toNat := by
  rw [word, BitVec.toNat_setWidth, BitVec.toNat_ofInt]
  omega

/-- The position of the highest bit set plus one, or zero. -/
def bits (x : ArithUint256) : ℕ := if x = 0 then 0 else x.toNat.log2 + 1

def getLow64 (x : ArithUint256) : ℕ := x.toNat % 2 ^ 64

/-- A target read from its compact form, with the two range flags. -/
structure Compact where
  target : ArithUint256
  fNegative : Bool
  fOverflow : Bool
  deriving DecidableEq, Repr

def setCompact (nCompact : UInt32) : Compact :=
  let nSize := nCompact.toNat >>> 24
  let mantissa := nCompact.toNat &&& 0x007fffff
  let nWord := if nSize ≤ 3 then mantissa >>> (8 * (3 - nSize)) else mantissa
  { target :=
      if nSize ≤ 3 then BitVec.ofNat 256 nWord
      else BitVec.ofNat 256 nWord <<< (8 * (nSize - 3))
    fNegative := nWord ≠ 0 && nCompact.toNat &&& 0x00800000 ≠ 0
    fOverflow := nWord ≠ 0 &&
      (nSize > 34 || (nWord > 0xff && nSize > 33) || (nWord > 0xffff && nSize > 32)) }

/-- `GetCompact` of a nonnegative number. -/
def getCompact (x : ArithUint256) : UInt32 :=
  let nSize := (bits x + 7) / 8
  let nCompact :=
    if nSize ≤ 3 then (getLow64 x <<< (8 * (3 - nSize))) % 2 ^ 32
    else getLow64 (x >>> (8 * (nSize - 3))) % 2 ^ 32
  -- the sign bit is not part of the mantissa
  if nCompact &&& 0x00800000 ≠ 0 then UInt32.ofNat (nCompact >>> 8 ||| (nSize + 1) <<< 24)
  else UInt32.ofNat (nCompact ||| nSize <<< 24)

/-- The binary search of `ApproxNthRoot` over the bits below `i`, in 64-bit words. -/
def rootSearch (n nHead : ℕ) : ℕ → ℕ → ℕ
  | 0, nRoot => nRoot
  | i + 1, nRoot =>
    let nNext := nRoot ||| 2 ^ i
    let nPower := (fun p => p * nNext % 2 ^ 64)^[n - 1] nNext
    rootSearch n nHead i (if nPower ≤ nHead then nNext else nRoot)

def approxNthRoot (x : ArithUint256) (n : ℕ) : ArithUint256 :=
  let nShifts := (max 0 (((bits x : ℤ) - 1).tdiv n + 1 - (64 / n : ℕ))).toNat
  let nHead := getLow64 (x >>> (n * nShifts))
  BitVec.ofNat 256 (rootSearch n nHead (64 / n) 0) <<< nShifts

/-- The work of a target, `2 ** 256 / (target + 1)` without leaving the width. -/
def workOf (target : ArithUint256) : ArithUint256 := ~~~target / (target + 1) + 1

end DigiByte.Arith
