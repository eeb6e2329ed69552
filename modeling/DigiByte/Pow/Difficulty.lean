import DigiByte.Arith.ArithUint256
import DigiByte.Consensus.Params
import DigiByte.Library.BoundedHistory
import Mathlib.Data.List.Sort

/-!
Required difficulty and work of a block (`pow.cpp`, `chain.cpp`).

A pointer to a block index is the list of the blocks that its `pprev` links
reach, the block itself first; the empty list is the null pointer. A failed
assertion of the source is `none`.
-/

set_option autoImplicit false
set_option relaxedAutoImplicit false

namespace DigiByte.Pow

open Arith (ArithUint256 setCompact getCompact word approxNthRoot workOf)
open Consensus (Params)
open Library.BoundedHistory (latest)

/-- Consensus parameters under which the difficulty rules divide by no zero. -/
structure PowParams extends Params where
  averaging_nonneg : 0 ≤ nAveragingInterval
  intervals_ne_zero : nInterval ≠ 0 ∧ nIntervalRe ≠ 0
  divisors_ne_zero : ∀ d ∈ [nTargetTimespan, nTargetTimespanRe, nAveragingTargetTimespan,
    nAveragingTargetTimespanV4, 100 + nLocalDifficultyAdjustment, 100 + nLocalTargetAdjustment],
    word d ≠ 0

def mainPowParams : PowParams where
  toParams := Consensus.mainParams
  averaging_nonneg := by decide
  intervals_ne_zero := by decide
  divisors_ne_zero := by decide

/-! Mining algorithms. -/

inductive Algo where
  | sha256d | scrypt | groestl | skein | qubit | odo
  deriving DecidableEq, Repr

/-- In the order of their numbers. The numbers 5 and 6 below `NUM_ALGOS_IMPL` name
no algorithm. -/
def Algo.all : List Algo := [.sha256d, .scrypt, .groestl, .skein, .qubit, .odo]

def Algo.number : Algo → ℤ
  | .sha256d => 0
  | .scrypt => 1
  | .groestl => 2
  | .skein => 3
  | .qubit => 4
  | .odo => 7

def NUM_ALGOS : ℤ := 5
def nMedianTimeSpan : ℕ := 11

/-- The algorithm in the version bits, `none` for `ALGO_UNKNOWN`. -/
def versionAlgo (nVersion : Int32) : Option Algo :=
  let bits := nVersion &&& 0x0f00
  if bits = 0x0000 then some .scrypt
  else if bits = 0x0200 then some .sha256d
  else if bits = 0x0400 then some .groestl
  else if bits = 0x0600 then some .skein
  else if bits = 0x0800 then some .qubit
  else if bits = 0x0e00 then some .odo
  else none

/-- The header fields that work depends on. -/
structure CBlockHeader where
  nVersion : Int32
  nTime : UInt32
  nBits : UInt32
  deriving DecidableEq, Repr

def CBlockHeader.getAlgo (header : CBlockHeader) : Option Algo := versionAlgo header.nVersion

/-- The fields of a block index that work depends on. -/
structure CBlockIndex where
  nHeight : ℤ
  nVersion : Int32
  nTime : UInt32
  nBits : UInt32
  deriving DecidableEq, Repr

/-- A block index takes unknown version bits for Scrypt. -/
def CBlockIndex.getAlgo (index : CBlockIndex) : Algo := (versionAlgo index.nVersion).getD .scrypt

def CBlockIndex.getBlockTime (index : CBlockIndex) : ℤ := index.nTime.toNat

abbrev Chain := List CBlockIndex

/-- The middle of the last eleven block times. -/
def getMedianTimePast (index : Chain) : ℤ :=
  let times := ((index.take nMedianTimeSpan).map CBlockIndex.getBlockTime).insertionSort (· ≤ ·)
  times.getD (times.length / 2) 0

def isAlgoActive (pindexPrev : Chain) (params : Params) (algo : Algo) : Bool :=
  match pindexPrev with
  | [] => algo = .scrypt
  | prev :: _ =>
    if prev.nHeight < params.multiAlgoDiffChangeTarget then algo = .scrypt
    else if prev.nHeight < params.algoSwapChangeTarget ∨ prev.nHeight + 1 < params.OdoHeight then
      algo ∈ [Algo.sha256d, .scrypt, .groestl, .skein, .qubit]
    else algo ∈ [Algo.sha256d, .scrypt, .skein, .qubit, .odo]

/-- More than two target spacings after the block before it. -/
def isLate (params : Params) (nTime : UInt32) (prev : CBlockIndex) : Bool :=
  (nTime.toNat : ℤ) > prev.nTime.toNat + params.nTargetSpacing * 2

/-- A block that counts for its algorithm: not a minimum-difficulty block of a test network. -/
def countsFor (params : Params) (algo : Option Algo) (index : CBlockIndex) (pprev : Chain) : Bool :=
  some index.getAlgo = algo &&
    !(params.fPowAllowMinDifficultyBlocks &&
      match pprev with
      | [] => false
      | prev :: _ => isLate params index.nTime prev)

def getLastBlockIndexForAlgo (pindex : Chain) (params : Params) (algo : Option Algo) : Chain :=
  latest (countsFor params algo) pindex

/-! Required difficulty. -/

def powLimitTarget (params : Params) : ArithUint256 := BitVec.ofNat 256 params.powLimit

def powLimit (params : Params) : UInt32 := getCompact (powLimitTarget params)

def initialDifficulty (params : Params) (algo : Option Algo) : UInt32 :=
  match algo.bind fun a => params.initialTarget.lookup a.number with
  | none => powLimit params
  | some target => getCompact (BitVec.ofNat 256 target)

def clamp (x low high : ℤ) : ℤ :=
  let x := if x < low then low else x
  if x > high then high else x

/-- No target is easier than the limit. -/
def capped (params : Params) (target : ArithUint256) : ArithUint256 :=
  if target > powLimitTarget params then powLimitTarget params else target

/-- `bnNew *= timespan; bnNew /= nominal`. -/
def scaled (target : ArithUint256) (timespan nominal : ℤ) : ArithUint256 :=
  target * word timespan / word nominal

def getNextWorkRequiredV1 (pindexLast : CBlockIndex) (pprev : Chain) (params : Params) :
    Option UInt32 :=
  let nHeight := pindexLast.nHeight + 1
  let fNewDifficultyProtocol := decide (nHeight ≥ params.nDiffChangeTarget)
  let altered := fNewDifficultyProtocol && !params.fPowAllowMinDifficultyBlocks
  let retargetTimespan := if altered then params.nTargetTimespanRe else params.nTargetTimespan
  let retargetInterval := if altered then params.nIntervalRe else params.nInterval
  if nHeight.tmod retargetInterval ≠ 0 then some pindexLast.nBits
  else
    let blockstogoback := if nHeight ≠ retargetInterval then retargetInterval
      else retargetInterval - 1
    match (pindexLast :: pprev).drop blockstogoback.toNat with
    | [] => none
    | pindexFirst :: _ =>
      let nActualTimespan := pindexLast.getBlockTime - pindexFirst.getBlockTime
      let nActualTimespan :=
        if altered then
          clamp nActualTimespan (retargetTimespan - retargetTimespan.tdiv 4)
            (retargetTimespan + retargetTimespan.tdiv 2)
        else clamp nActualTimespan (retargetTimespan.tdiv 4) (retargetTimespan * 4)
      let bnNew := scaled (setCompact pindexLast.nBits).target nActualTimespan retargetTimespan
      some (getCompact (capped params bnNew))

/-- The walk of the second rule from one block of the algorithm to the next older one. -/
def previousOfAlgo (params : Params) (algo : Option Algo) (pindex : Chain) : Chain :=
  getLastBlockIndexForAlgo pindex.tail params algo

def getNextWorkRequiredV2 (pindexLast : Chain) (params : Params) (algo : Option Algo) : UInt32 :=
  let pindexPrev := getLastBlockIndexForAlgo pindexLast params algo
  let pindexFirst := (previousOfAlgo params algo)^[(params.nAveragingInterval - 1).toNat] pindexPrev
  match pindexPrev, pindexFirst with
  | prev :: _, first :: _ =>
    let nActualTimespan := clamp (prev.getBlockTime - first.getBlockTime)
      params.nMinActualTimespan params.nMaxActualTimespan
    let bnNew :=
      scaled (setCompact prev.nBits).target nActualTimespan params.nAveragingTargetTimespan
    getCompact (capped params bnNew)
  | _, _ => initialDifficulty params algo

/-- The first block of the averaging interval. -/
def averagingStart (pindexLast : Chain) (params : Params) : Chain :=
  pindexLast.drop (NUM_ALGOS * params.nAveragingInterval).toNat

/-- The common beginning of the third and fourth rule: the last block, the previous block
of the algorithm and the median time over the averaging interval. -/
def averagedTimespan (pindexLast : Chain) (params : Params) (pindexPrevAlgo : Option CBlockIndex) :
    Option (CBlockIndex × CBlockIndex × ℤ) :=
  match pindexLast, pindexPrevAlgo, averagingStart pindexLast params with
  | last :: _, some prevAlgo, first :: older =>
    some (last, prevAlgo, getMedianTimePast pindexLast - getMedianTimePast (first :: older))
  | _, _, _ => none

def getNextWorkRequiredV3 (pindexLast : Chain) (params : Params) (algo : Option Algo)
    (pindexPrevAlgo : Option CBlockIndex) : UInt32 :=
  match averagedTimespan pindexLast params pindexPrevAlgo with
  | none => initialDifficulty params algo
  | some (last, prevAlgo, nActualTimespan) =>
    let nActualTimespan := params.nAveragingTargetTimespan +
      (nActualTimespan - params.nAveragingTargetTimespan).tdiv 6
    let nActualTimespan := clamp nActualTimespan params.nMinActualTimespanV3
      params.nMaxActualTimespanV3
    let bnNew := scaled (setCompact prevAlgo.nBits).target nActualTimespan
      params.nAveragingTargetTimespan
    let nAdjustments := prevAlgo.nHeight - last.nHeight + NUM_ALGOS - 1
    let adjust := 100 + params.nLocalDifficultyAdjustment
    let bnNew :=
      if nAdjustments > 0 then (fun bn => scaled bn 100 adjust)^[nAdjustments.toNat] bnNew
      else (fun bn => scaled bn adjust 100)^[(-nAdjustments).toNat] bnNew
    getCompact (capped params bnNew)

/-- The easing loop of the fourth rule stops at the limit. -/
def ease (params : Params) : ℕ → ArithUint256 → ArithUint256
  | 0, bnNew => bnNew
  | n + 1, bnNew =>
    let next := scaled bnNew (100 + params.nLocalTargetAdjustment) 100
    if next > powLimitTarget params then powLimitTarget params else ease params n next

def getNextWorkRequiredV4 (pindexLast : Chain) (params : Params) (algo : Option Algo)
    (pindexPrevAlgo : Option CBlockIndex) : UInt32 :=
  match averagedTimespan pindexLast params pindexPrevAlgo with
  | none => initialDifficulty params algo
  | some (last, prevAlgo, nActualTimespan) =>
    let nActualTimespan := params.nAveragingTargetTimespanV4 +
      (nActualTimespan - params.nAveragingTargetTimespanV4).tdiv 4
    let nActualTimespan := clamp nActualTimespan params.nMinActualTimespanV4
      params.nMaxActualTimespanV4
    let bnNew := scaled (setCompact prevAlgo.nBits).target nActualTimespan
      params.nAveragingTargetTimespanV4
    let nAdjustments := prevAlgo.nHeight + NUM_ALGOS - 1 - last.nHeight
    let bnNew :=
      if nAdjustments > 0 then
        (fun bn => scaled bn 100 (100 + params.nLocalTargetAdjustment))^[nAdjustments.toNat] bnNew
      else ease params (-nAdjustments).toNat bnNew
    getCompact (capped params bnNew)

/-- The latest block that counts for each algorithm, as supplied by a caller. -/
abbrev PreviousAlgoBlocks := Algo → Option CBlockIndex

/-- The previous block of the algorithm: supplied, or found in the linked history. -/
def previousAlgoBlock (pindexLast : Chain) (params : Params) (algo : Option Algo)
    (previous_algos : Option PreviousAlgoBlocks) : Option CBlockIndex :=
  match previous_algos, algo with
  | some blocks, some a => blocks a
  | _, _ => (getLastBlockIndexForAlgo pindexLast params algo).head?

/-- A minimum-difficulty block may follow on the test networks. -/
def allowsMinimum (params : Params) (nTime : UInt32) (pindexLast : CBlockIndex) : Bool :=
  params.fPowAllowMinDifficultyBlocks && (params.fEasyPow || isLate params nTime pindexLast)

/-- `GetNextWorkRequiredImpl`; of the header it reads the time only. -/
def getNextWorkRequired (pindexLast : Chain) (nTime : UInt32) (params : Params) (algo : Option Algo)
    (previous_algos : Option PreviousAlgoBlocks) : Option UInt32 :=
  match pindexLast with
  | [] => some (initialDifficulty params algo)
  | last :: pprev =>
    if allowsMinimum params nTime last then some (powLimit params)
    else if last.nHeight < params.multiAlgoDiffChangeTarget then
      getNextWorkRequiredV1 last pprev params
    else if last.nHeight < params.alwaysUpdateDiffChangeTarget then
      some (getNextWorkRequiredV2 pindexLast params algo)
    else
      let previous_algo := previousAlgoBlock pindexLast params algo previous_algos
      if last.nHeight < params.workComputationChangeTarget then
        some (getNextWorkRequiredV3 pindexLast params algo previous_algo)
      else some (getNextWorkRequiredV4 pindexLast params algo previous_algo)

/-- `CheckProofOfWork`: the range of the target, and the hash below it. -/
def checkProofOfWork (hash : ArithUint256) (nBits : UInt32) (params : Params) : Bool :=
  let bn := setCompact nBits
  if bn.fNegative || bn.target = 0 || bn.fOverflow || bn.target > powLimitTarget params then false
  else if hash > bn.target then false
  else true

/-! Work. -/

def getAlgoWorkFactor (nHeight : ℤ) (params : Params) (algo : Option Algo) : ℤ :=
  if nHeight < params.multiAlgoDiffChangeTarget then 1
  else
    match algo with
    | some .scrypt => 1024 * 4
    | some .groestl => 64 * 8
    | some .skein => 4 * 6
    | some .qubit => 128 * 8
    | _ => 1

def getBlockProofBase (block : CBlockIndex) : ArithUint256 :=
  let bn := setCompact block.nBits
  if bn.fNegative || bn.fOverflow || bn.target = 0 then 0 else workOf bn.target

/-- The loop over the algorithms: the product of the roots of their targets, or the
inner `none` at a target out of range, where the work is 0. -/
def geometricTarget (pprev : Chain) (nTime : UInt32) (params : Params)
    (previous_algos : Option PreviousAlgoBlocks) :
    List Algo → ArithUint256 → Option (Option ArithUint256)
  | [], bnAvgTarget => some (some bnAvgTarget)
  | algo :: rest, bnAvgTarget =>
    if isAlgoActive pprev params algo = false then
      geometricTarget pprev nTime params previous_algos rest bnAvgTarget
    else
      (getNextWorkRequired pprev nTime params (some algo) previous_algos).bind fun nBits =>
        let bn := setCompact nBits
        if bn.fNegative || bn.fOverflow || bn.target = 0 then some none
        else geometricTarget pprev nTime params previous_algos rest
          (bnAvgTarget * approxNthRoot bn.target NUM_ALGOS.toNat)

/-- `GetBlockProofImpl` of a block above `pprev`. -/
def getBlockProof (block : CBlockIndex) (pprev : Chain) (params : Params)
    (previous_algos : Option PreviousAlgoBlocks) : Option ArithUint256 :=
  if block.nHeight < params.workComputationChangeTarget then
    some (getBlockProofBase block *
      word (getAlgoWorkFactor block.nHeight params (versionAlgo block.nVersion)))
  else
    (geometricTarget pprev block.nTime params previous_algos Algo.all 1).map fun
      | none => 0
      | some bnAvgTarget => workOf bnAvgTarget <<< 7

end DigiByte.Pow
