import DigiByte.Primitives.Transaction

/-!
DigiDollar parameters, transaction types and activation heights
(`consensus/digidollar.*`, `digidollar/digidollar.*`).
-/

set_option autoImplicit false
set_option relaxedAutoImplicit false

namespace DigiByte.DigiDollar

open Consensus

/-- 21 billion dollars in cents. -/
def MAX_DIGIDOLLAR : ℤ := 21000000000 * 100

def BLOCKS_PER_DAY : ℤ := 24 * 60 * 4

/-- Blocks that a mint may lock above its claimed tier. -/
def MINT_LOCK_CONFIRMATION_BUFFER_BLOCKS : ℤ := 100

/-- Economic parameters. The oracle counts and the display-only DCA levels of
the source record are read by no modelled function. -/
structure ConsensusParams where
  collateralRatios : List (ℤ × ℤ) :=
    [(240, 1000), (30 * 24 * 60 * 4, 500), (90 * 24 * 60 * 4, 400), (180 * 24 * 60 * 4, 350),
      (365 * 24 * 60 * 4, 300), (2 * 365 * 24 * 60 * 4, 275), (3 * 365 * 24 * 60 * 4, 250),
      (5 * 365 * 24 * 60 * 4, 225), (7 * 365 * 24 * 60 * 4, 212), (10 * 365 * 24 * 60 * 4, 200)]
  minMintAmount : ℤ := 10000
  maxMintAmount : ℤ := 10000000
  minOutputAmount : ℤ := 100
  minMintAmountActivationHeight : ℤ := 0

/-- The chain parameters seen by the validators. -/
structure CChainParams where
  consensus : Params
  digidollarParams : ConsensusParams := {}

inductive DigiDollarTxType
  | none | mint | transfer | redeem
  deriving DecidableEq, Repr

/-- The number of the type in the version field and in `OP_RETURN` data. -/
def DigiDollarTxType.toInt : DigiDollarTxType → ℤ
  | .none => 0
  | .mint => 1
  | .transfer => 2
  | .redeem => 3

/-- The lower 16 bits of the version are 0x0770. -/
def hasDigiDollarMarker (tx : CTransaction) : Bool := tx.nVersion &&& 0xffff == 0x0770

/-- Bits 24-31 of the version, for a transaction with the marker. -/
def getDigiDollarTxType (tx : CTransaction) : DigiDollarTxType :=
  if hasDigiDollarMarker tx then
    match (tx.nVersion >>> 24).toNat with
    | 1 => .mint
    | 2 => .transfer
    | 3 => .redeem
    | _ => .none
  else .none

theorem hasDigiDollarMarker_of_type {tx : CTransaction} {t : DigiDollarTxType}
    (h : getDigiDollarTxType tx = t) (known : t ≠ .none) : hasDigiDollarMarker tx = true := by
  by_contra unmarked
  simp only [getDigiDollarTxType, unmarked] at h
  exact known h.symm

/-- 0 when `lockBlocks` is not one of the configured tiers. -/
def getCollateralRatioForLockTime (lockBlocks : ℤ) (params : ConsensusParams) : ℤ :=
  (params.collateralRatios.lookup lockBlocks).getD 0

def isCanonicalLockTier (lockBlocks : ℤ) (params : ConsensusParams) : Bool :=
  (params.collateralRatios.lookup lockBlocks).isSome

/-- 0 days stand for one hour. -/
def lockDaysToBlocks (days : ℤ) : ℤ := if days = 0 then 240 else days * BLOCKS_PER_DAY

def TIER_LOCK_DAYS : List ℤ := [0, 30, 90, 180, 365, 730, 1095, 1825, 2555, 3650]

/-- `static_cast<uint32_t>` of an `int`. -/
def toUint32 (x : ℤ) : ℕ := (x % 2 ^ 32).toNat

/-- `static_cast<int>` of a `uint32_t`. -/
def toInt32 (x : UInt32) : ℤ := x.toBitVec.toInt

/-- First height at which a DigiDollar output can exist; 0 when there is none. -/
def earliestActivationFloor (params : Params) : ℤ :=
  if params.DigiDollarHeight = INT_MAX then 0
  else min params.nDDActivationHeight params.DigiDollarHeight

def isThawDayActive (params : Params) (candidate_height : ℤ) : Bool :=
  0 ≤ candidate_height && params.nDDThawDayHeight ≠ INT_MAX && params.DigiDollarHeight ≠ INT_MAX &&
    params.DigiDollarHeight ≤ candidate_height && params.nDDThawDayHeight ≤ candidate_height

theorem isThawDayActive_iff {params : Params} {h : ℤ} :
    isThawDayActive params h = true ↔
      0 ≤ h ∧ params.nDDThawDayHeight ≠ INT_MAX ∧ params.DigiDollarHeight ≠ INT_MAX ∧
        params.DigiDollarHeight ≤ h ∧ params.nDDThawDayHeight ≤ h := by
  simp [isThawDayActive, and_assoc]

theorem toUint32_of_nonneg {x : ℤ} (nonneg : 0 ≤ x) (bound : x < 2 ^ 32) :
    (toUint32 x : ℤ) = x := by
  unfold toUint32
  omega

theorem toUint32_toNat (n : UInt32) : toUint32 (n.toNat : ℤ) = n.toNat := by
  have bound := n.toNat_lt
  unfold toUint32
  omega

end DigiByte.DigiDollar
