import Mathlib.Data.Int.Notation
import Mathlib.Tactic.NormNum

/-!
Amounts and the consensus parameters that the modelled code reads.

A `CAmount` is a signed 64-bit integer in the source; it is an `Int` here, and
the places where a 32- or 64-bit width decides the outcome say so explicitly.
`Params` keeps the field names of `Consensus::Params`. Fields that no modelled
function reads (deployment bits, message start bytes, seeds) are left out.
-/

set_option autoImplicit false
set_option relaxedAutoImplicit false

namespace DigiByte.Consensus

/-- The amount of satoshis in one DGB. -/
def COIN : Int := 100000000

/-- No amount larger than this (in satoshi) is valid. -/
def MAX_MONEY : Int := 21000000000 * COIN

def moneyRange (nValue : Int) : Bool := 0 ≤ nValue && nValue ≤ MAX_MONEY

/-- `std::numeric_limits<int>::max()`, also the "not scheduled" height. -/
def INT_MAX : Int := 2147483647

/-- `std::numeric_limits<int64_t>::max()`. -/
def INT64_MAX : Int := 9223372036854775807

theorem moneyRange_iff {nValue : Int} :
    moneyRange nValue = true ↔ 0 ≤ nValue ∧ nValue ≤ MAX_MONEY := by
  simp [moneyRange]

/-- The fields of `Consensus::Params` that the modelled functions read. -/
structure Params where
  hashGenesisBlock : Nat := 0
  OdoHeight : Int := INT_MAX
  ReserveAlgoBitsHeight : Int := INT_MAX
  nGroestlDeactivationHeight : Int := INT_MAX
  DigiDollarHeight : Int := INT_MAX
  AlgoLockHeight : Int := INT_MAX
  nDDThawDayHeight : Int := INT_MAX
  powLimit : Nat := 0
  initialTarget : List (Int × Nat) := []
  fPowAllowMinDifficultyBlocks : Bool := false
  fEasyPow : Bool := false
  fPowNoRetargeting : Bool := false
  nPowTargetSpacing : Int := 15
  nTargetTimespan : Int := 8640
  nTargetSpacing : Int := 60
  nInterval : Int := 144
  nDiffChangeTarget : Int := 0
  nTargetTimespanRe : Int := 60
  nTargetSpacingRe : Int := 60
  nIntervalRe : Int := 1
  patchBlockRewardDuration : Int := 10080
  patchBlockRewardDuration2 : Int := 80160
  nAveragingInterval : Int := 10
  multiAlgoTargetSpacing : Int := 150
  multiAlgoTargetSpacingV4 : Int := 75
  nAveragingTargetTimespan : Int := 1500
  nAveragingTargetTimespanV4 : Int := 750
  nMinActualTimespan : Int := 1200
  nMaxActualTimespan : Int := 2100
  nMinActualTimespanV3 : Int := 1380
  nMaxActualTimespanV3 : Int := 1740
  nMinActualTimespanV4 : Int := 690
  nMaxActualTimespanV4 : Int := 870
  nLocalTargetAdjustment : Int := 4
  nLocalDifficultyAdjustment : Int := 4
  multiAlgoDiffChangeTarget : Int := 0
  alwaysUpdateDiffChangeTarget : Int := 0
  workComputationChangeTarget : Int := 0
  algoSwapChangeTarget : Int := 0
  nDDOracleEpochBlocks : Int := 100
  nDDActivationHeight : Int := 0
  nOracleTotalOracles : Int := 1
  vOraclePublicKeys : List (List UInt8) := []
  vOracleCompressedPublicKeys : List (List UInt8) := []
  nDigiDollarMuSig2Height : Int := INT_MAX
  nOraclePubkeyCount : Int := 0
  nOracleConsensusRequired : Int := 0

/-- The `CMainParams` values of those fields. The key tables are not needed by
any result about the main network and stay empty. -/
def mainParams : Params where
  OdoHeight := 9112320
  ReserveAlgoBitsHeight := 8547840
  nGroestlDeactivationHeight := 23808000
  DigiDollarHeight := 23869440
  AlgoLockHeight := 23869440
  nDDThawDayHeight := 24490000
  powLimit := (2 ^ 256 - 1) / 2 ^ 20
  initialTarget := [(7, (2 ^ 256 - 1) / 2 ^ 40)]
  nDiffChangeTarget := 67200
  multiAlgoDiffChangeTarget := 145000
  alwaysUpdateDiffChangeTarget := 400000
  workComputationChangeTarget := 1430000
  algoSwapChangeTarget := 9100000
  nDDOracleEpochBlocks := 40
  nDDActivationHeight := 23627520
  nOracleTotalOracles := 35
  nDigiDollarMuSig2Height := 23627520
  nOraclePubkeyCount := 35
  nOracleConsensusRequired := 7

end DigiByte.Consensus
