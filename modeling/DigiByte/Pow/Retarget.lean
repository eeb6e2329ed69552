import DigiByte.Arith.Compact
import DigiByte.Pow.Difficulty
import Mathlib.Order.Monotone.Basic

/-!
The arithmetic of the fourth difficulty rule: no product leaves 256 bits, and the required
target is within the limit and grows with the distance from the algorithm's last block.
-/

set_option autoImplicit false
set_option relaxedAutoImplicit false

namespace DigiByte.Pow

open Arith (ArithUint256 setCompact getCompact word target_getCompact_le target_getCompact_mono)
open Consensus (Params mainParams)

/-- The parameters of the fourth rule have their values of the main network. -/
structure MainnetV4 (params : Params) : Prop where
  nominal : params.nAveragingTargetTimespanV4 = mainParams.nAveragingTargetTimespanV4
  shortest : params.nMinActualTimespanV4 = mainParams.nMinActualTimespanV4
  longest : params.nMaxActualTimespanV4 = mainParams.nMaxActualTimespanV4
  adjustment : params.nLocalTargetAdjustment = mainParams.nLocalTargetAdjustment

/-! The parts of `GetNextWorkRequiredV4`. -/

/-- The timespan of the global retarget. -/
def dampedTimespanV4 (params : Params) (nActualTimespan : ℤ) : ℤ :=
  clamp (params.nAveragingTargetTimespanV4 +
    (nActualTimespan - params.nAveragingTargetTimespanV4).tdiv 4)
    params.nMinActualTimespanV4 params.nMaxActualTimespanV4

/-- The global retarget. -/
def globalRetargetV4 (params : Params) (nActualTimespan : ℤ)
    (bnNew : ArithUint256) : ArithUint256 :=
  scaled bnNew (dampedTimespanV4 params nActualTimespan) params.nAveragingTargetTimespanV4

/-- A round of the loop that makes the target harder. -/
def harden (params : Params) (bnNew : ArithUint256) : ArithUint256 :=
  scaled bnNew 100 (100 + params.nLocalTargetAdjustment)

/-- The retarget of the algorithm. -/
def localRetargetV4 (params : Params) (nAdjustments : ℤ) (bnNew : ArithUint256) : ArithUint256 :=
  if nAdjustments > 0 then (harden params)^[nAdjustments.toNat] bnNew
  else ease params (-nAdjustments).toNat bnNew

def adjustmentsV4 (last prevAlgo : CBlockIndex) : ℤ :=
  prevAlgo.nHeight + NUM_ALGOS - 1 - last.nHeight

theorem localRetargetV4_natCast (params : Params) (n : ℕ) (bnNew : ArithUint256) :
    localRetargetV4 params n bnNew = (harden params)^[n] bnNew := by
  unfold localRetargetV4
  cases n with
  | zero => rfl
  | succ n => rw [if_pos (by omega), Int.toNat_natCast]

theorem localRetargetV4_neg (params : Params) (n : ℕ) (bnNew : ArithUint256) :
    localRetargetV4 params (-n) bnNew = ease params n bnNew := by
  unfold localRetargetV4
  rw [if_neg (by omega), neg_neg, Int.toNat_natCast]

/-! The products that a run of `GetNextWorkRequiredV4` forms, as factors. -/

def hardenProducts (params : Params) (n : ℕ) (bnNew : ArithUint256) : List (ArithUint256 × ℤ) :=
  (List.range n).map fun i => ((harden params)^[i] bnNew, 100)

def easeProducts (params : Params) : ℕ → ArithUint256 → List (ArithUint256 × ℤ)
  | 0, _ => []
  | n + 1, bnNew =>
    let next := scaled bnNew (100 + params.nLocalTargetAdjustment) 100
    (bnNew, 100 + params.nLocalTargetAdjustment) ::
      if next > powLimitTarget params then [] else easeProducts params n next

def productsV4 (pindexLast : Chain) (params : Params) (pindexPrevAlgo : Option CBlockIndex) :
    List (ArithUint256 × ℤ) :=
  match averagedTimespan pindexLast params pindexPrevAlgo with
  | none => []
  | some (last, prevAlgo, nActualTimespan) =>
    let target := (setCompact prevAlgo.nBits).target
    let bnNew := globalRetargetV4 params nActualTimespan target
    let nAdjustments := adjustmentsV4 last prevAlgo
    (target, dampedTimespanV4 params nActualTimespan) ::
      if nAdjustments > 0 then hardenProducts params nAdjustments.toNat bnNew
      else easeProducts params (-nAdjustments).toNat bnNew

/-- A product that stays below the width. -/
def Fits (product : ArithUint256 × ℤ) : Prop := product.1.toNat * (word product.2).toNat < 2 ^ 256

theorem toNat_scaled {bnNew : ArithUint256} {timespan : ℤ} (nominal : ℤ)
    (fits : Fits (bnNew, timespan)) :
    (scaled bnNew timespan nominal).toNat =
      bnNew.toNat * (word timespan).toNat / (word nominal).toNat := by
  rw [scaled, BitVec.toNat_udiv, BitVec.toNat_mul, Nat.mod_eq_of_lt fits]

theorem toNat_capped (params : Params) (bnNew : ArithUint256) :
    (capped params bnNew).toNat = min bnNew.toNat (powLimitTarget params).toNat := by
  unfold capped
  by_cases above : bnNew > powLimitTarget params
  · rw [if_pos above, min_eq_right (BitVec.lt_def.mp above).le]
  · rw [if_neg above, min_eq_left (BitVec.le_def.mp (BitVec.not_lt.mp above))]

theorem capped_mono (params : Params) {bnNew bnNew' : ArithUint256} (ordered : bnNew ≤ bnNew') :
    capped params bnNew ≤ capped params bnNew' := by
  rw [BitVec.le_def, toNat_capped, toNat_capped]
  exact min_le_min_right _ (BitVec.le_def.mp ordered)

theorem capped_le_limit (params : Params) (bnNew : ArithUint256) :
    capped params bnNew ≤ capped params (powLimitTarget params) := by
  rw [BitVec.le_def, toNat_capped, toNat_capped, min_self]
  exact min_le_right _ _

theorem clamp_mem {low high : ℤ} (ordered : low ≤ high) (x : ℤ) :
    low ≤ clamp x low high ∧ clamp x low high ≤ high := by
  unfold clamp
  dsimp only
  split_ifs <;> omega

section Mainnet

variable {params : Params} (mainnet : MainnetV4 params)

include mainnet

private theorem toNat_word_nominal : (word params.nAveragingTargetTimespanV4).toNat = 750 := by
  rw [mainnet.nominal]
  decide

private theorem toNat_word_adjust : (word (100 + params.nLocalTargetAdjustment)).toNat = 104 := by
  rw [mainnet.adjustment]
  decide

private theorem toNat_word_damped (nActualTimespan : ℤ) :
    690 ≤ (word (dampedTimespanV4 params nActualTimespan)).toNat ∧
      (word (dampedTimespanV4 params nActualTimespan)).toNat ≤ 870 := by
  have range : (690 : ℤ) ≤ dampedTimespanV4 params nActualTimespan ∧
      dampedTimespanV4 params nActualTimespan ≤ 870 := by
    unfold dampedTimespanV4
    rw [mainnet.shortest, mainnet.longest]
    exact clamp_mem (by decide) _
  rw [Arith.toNat_word (by omega) (by omega)]
  omega

private theorem fits_global {target : ArithUint256} (small : target.toNat < 2 ^ 236)
    (nActualTimespan : ℤ) :
    Fits (target, dampedTimespanV4 params nActualTimespan) := by
  have range := toNat_word_damped mainnet nActualTimespan
  calc target.toNat * (word (dampedTimespanV4 params nActualTimespan)).toNat
      ≤ 2 ^ 236 * 870 := Nat.mul_le_mul small.le range.2
    _ < 2 ^ 256 := by norm_num

private theorem globalRetargetV4_lt {target : ArithUint256} (small : target.toNat < 2 ^ 236)
    (nActualTimespan : ℤ) : (globalRetargetV4 params nActualTimespan target).toNat < 2 ^ 237 := by
  have range := toNat_word_damped mainnet nActualTimespan
  rw [globalRetargetV4, toNat_scaled _ (fits_global mainnet small nActualTimespan),
    toNat_word_nominal mainnet, Nat.div_lt_iff_lt_mul (by norm_num)]
  calc target.toNat * (word (dampedTimespanV4 params nActualTimespan)).toNat
      ≤ 2 ^ 236 * 870 := Nat.mul_le_mul small.le range.2
    _ < 2 ^ 237 * 750 := by norm_num

omit mainnet in
private theorem fits_harden {bnNew : ArithUint256}
    (small : bnNew.toNat < 2 ^ 237) : Fits (bnNew, 100) := by
  unfold Fits
  dsimp only
  rw [show (word 100).toNat = 100 by decide]
  omega

private theorem harden_le {bnNew : ArithUint256} (small : bnNew.toNat < 2 ^ 237) :
    harden params bnNew ≤ bnNew := by
  rw [BitVec.le_def, harden, toNat_scaled _ (fits_harden small), toNat_word_adjust mainnet,
    show (word 100).toNat = 100 by decide]
  omega

private theorem iterate_harden_lt {bnNew : ArithUint256} (small : bnNew.toNat < 2 ^ 237) (n : ℕ) :
    ((harden params)^[n] bnNew).toNat < 2 ^ 237 := by
  induction n with
  | zero => exact small
  | succ n ih =>
    rw [Function.iterate_succ_apply']
    exact (BitVec.le_def.mp (harden_le mainnet ih)).trans_lt ih

private theorem fits_ease {bnNew : ArithUint256} (small : bnNew.toNat < 2 ^ 237) :
    Fits (bnNew, 100 + params.nLocalTargetAdjustment) := by
  unfold Fits
  dsimp only
  rw [toNat_word_adjust mainnet]
  omega

private theorem le_easeStep {bnNew : ArithUint256} (small : bnNew.toNat < 2 ^ 237) :
    bnNew ≤ scaled bnNew (100 + params.nLocalTargetAdjustment) 100 := by
  rw [BitVec.le_def, toNat_scaled _ (fits_ease mainnet small), toNat_word_adjust mainnet,
    show (word 100).toNat = 100 by decide]
  omega

section Limit

variable (limit : (powLimitTarget params).toNat < 2 ^ 236)

include limit

omit mainnet in
private theorem easeStep_lt {bnNew : ArithUint256} (within : ¬bnNew > powLimitTarget params) :
    bnNew.toNat < 2 ^ 237 := by
  have below : bnNew.toNat ≤ (powLimitTarget params).toNat :=
    BitVec.le_def.mp (BitVec.not_lt.mp within)
  omega

private theorem easeProducts_fit (n : ℕ) {bnNew : ArithUint256} (small : bnNew.toNat < 2 ^ 237) :
    ∀ product ∈ easeProducts params n bnNew, Fits product := by
  induction n generalizing bnNew with
  | zero => simp [easeProducts]
  | succ n ih =>
    intro product member
    simp only [easeProducts, List.mem_cons] at member
    rcases member with rfl | later
    · exact fits_ease mainnet small
    · split at later
      · simp at later
      · rename_i within
        exact ih (easeStep_lt limit within) product later

private theorem capped_ease_succ (n : ℕ) {bnNew : ArithUint256} (small : bnNew.toNat < 2 ^ 237) :
    capped params (ease params n bnNew) ≤ capped params (ease params (n + 1) bnNew) := by
  induction n generalizing bnNew with
  | zero =>
    have grown := le_easeStep mainnet small
    rw [ease, ease]
    split
    · exact capped_le_limit params bnNew
    · exact capped_mono params grown
  | succ n ih =>
    rw [ease, ease]
    split
    · exact BitVec.le_refl _
    · rename_i within
      exact ih (easeStep_lt limit within)

private theorem capped_local_succ (d : ℕ) {bnNew : ArithUint256} (small : bnNew.toNat < 2 ^ 237) :
    capped params (localRetargetV4 params (4 - d) bnNew) ≤
      capped params (localRetargetV4 params (4 - (d + 1 : ℕ)) bnNew) := by
  rcases Nat.lt_or_ge d 4 with near | far
  · obtain ⟨rounds, sum⟩ : ∃ rounds, d + 1 + rounds = 4 := ⟨3 - d, by omega⟩
    rw [show (4 : ℤ) - d = (rounds + 1 : ℕ)
      by omega, show (4 : ℤ) - (d + 1 : ℕ) = (rounds : ℕ) by omega,
      localRetargetV4_natCast, localRetargetV4_natCast, Function.iterate_succ_apply']
    exact capped_mono params (harden_le mainnet (iterate_harden_lt mainnet small rounds))
  · obtain ⟨rounds, rfl⟩ := Nat.exists_eq_add_of_le far
    rw [show (4 : ℤ) - (4 + rounds : ℕ) = -(rounds : ℕ) by omega,
      show (4 : ℤ) - (4 + rounds + 1 : ℕ) = -(rounds + 1 : ℕ) by omega,
      localRetargetV4_neg, localRetargetV4_neg]
    exact capped_ease_succ mainnet limit rounds small

private theorem localProducts_fit (nAdjustments : ℤ) {bnNew : ArithUint256}
    (small : bnNew.toNat < 2 ^ 237) :
    ∀ product ∈ (if nAdjustments > 0 then hardenProducts params nAdjustments.toNat bnNew
      else easeProducts params (-nAdjustments).toNat bnNew), Fits product := by
  intro product member
  split at member
  · obtain ⟨i, -, rfl⟩ := List.mem_map.mp member
    exact fits_harden (iterate_harden_lt mainnet small i)
  · exact easeProducts_fit mainnet limit _ small product member

end Limit

end Mainnet

/-! The rule as a whole. -/

private theorem averagedTimespan_some (pindexLast : Chain) (params : Params) :
    (averagingStart pindexLast params = [] ∧
      ∀ prevAlgo, averagedTimespan pindexLast params (some prevAlgo) = none) ∨
    ∃ last older nActualTimespan, pindexLast = last :: older ∧
      ∀ prevAlgo, averagedTimespan pindexLast params (some prevAlgo) =
        some (last, prevAlgo, nActualTimespan) := by
  cases pindexLast with
  | nil => exact .inl ⟨List.drop_nil, fun _ => rfl⟩
  | cons last older =>
    cases start : averagingStart (last :: older) params with
    | nil =>
      refine .inl ⟨rfl, fun prevAlgo => ?_⟩
      simp only [averagedTimespan, start]
    | cons first rest =>
      refine .inr ⟨last, older,
        getMedianTimePast (last :: older) - getMedianTimePast (first :: rest), rfl,
        fun prevAlgo => ?_⟩
      simp only [averagedTimespan, start]

private theorem getNextWorkRequiredV4_of_averaged {pindexLast : Chain} {params : Params}
    {pindexPrevAlgo : Option CBlockIndex} {algo : Option Algo} {last prevAlgo : CBlockIndex}
    {nActualTimespan : ℤ}
    (averaged : averagedTimespan pindexLast params pindexPrevAlgo =
      some (last, prevAlgo, nActualTimespan)) :
    getNextWorkRequiredV4 pindexLast params algo pindexPrevAlgo =
      getCompact (capped params (localRetargetV4 params (adjustmentsV4 last prevAlgo)
        (globalRetargetV4 params nActualTimespan (setCompact prevAlgo.nBits).target))) := by
  rw [getNextWorkRequiredV4, averaged]
  rfl

private theorem adjustmentsV4_sub (last prevAlgo : CBlockIndex) (d : ℕ) :
    adjustmentsV4 last { prevAlgo with nHeight := last.nHeight - d } = 4 - d := by
  simp only [adjustmentsV4, NUM_ALGOS]
  omega

/-- The configured first target of an algorithm is within the limit. -/
def InitialWithinLimit (params : Params) (algo : Option Algo) : Prop :=
  ∀ target, (algo.bind fun a => params.initialTarget.lookup a.number) = some target →
    target ≤ params.powLimit

/-- The target that the rule requires, `distance` blocks after the algorithm's last block. -/
def targetAfter (last : CBlockIndex) (older : Chain) (params : Params) (algo : Option Algo)
    (prevAlgo : CBlockIndex) (distance : ℕ) : ArithUint256 :=
  (setCompact (getNextWorkRequiredV4 (last :: older) params algo
    (some { prevAlgo with nHeight := last.nHeight - distance }))).target

section Rule

variable {params : Params} (small : params.powLimit ≤ 2 ^ 236 - 1)

include small

private theorem toNat_powLimitTarget : (powLimitTarget params).toNat = params.powLimit := by
  rw [powLimitTarget, BitVec.toNat_ofNat]
  omega

private theorem target_initialDifficulty_le {algo : Option Algo}
    (within : InitialWithinLimit params algo) :
    (setCompact (initialDifficulty params algo)).target ≤ powLimitTarget params := by
  unfold initialDifficulty
  split
  · exact target_getCompact_le _
  · rename_i target configured
    apply BitVec.le_trans (target_getCompact_le _)
    rw [BitVec.le_def, toNat_powLimitTarget small, BitVec.toNat_ofNat]
    exact (Nat.mod_le _ _).trans (within target configured)

end Rule

/-- Products stay in the width, the result stays within the limit except where it is a configured
first target, and the target does not fall as the algorithm's last block gets older. -/
theorem digishield_v4_arithmetic (pindexLast : Chain) (params : Params) (algo : Option Algo)
    (prevAlgo : CBlockIndex) (mainnet : MainnetV4 params) (small : params.powLimit ≤ 2 ^ 236 - 1)
    (atMost : (setCompact prevAlgo.nBits).target ≤ powLimitTarget params) :
    (∀ product ∈ productsV4 pindexLast params (some prevAlgo), Fits product) ∧
    (averagingStart pindexLast params ≠ [] ∨ InitialWithinLimit params algo →
      (setCompact (getNextWorkRequiredV4 pindexLast params algo (some prevAlgo))).target ≤
        powLimitTarget params) ∧
    ∀ last older, pindexLast = last :: older → ∀ distance distance', distance ≤ distance' →
      targetAfter last older params algo prevAlgo distance ≤
        targetAfter last older params algo prevAlgo distance' := by
  have limit : (powLimitTarget params).toNat < 2 ^ 236 := by
    rw [toNat_powLimitTarget small]
    omega
  have target := (BitVec.le_def.mp atMost).trans_lt limit
  rcases averagedTimespan_some pindexLast params with ⟨short, averaged⟩ |
    ⟨last, older, nActualTimespan, rfl, averaged⟩
  · -- the chain does not cover the averaging interval: the initial difficulty, whatever the block
    refine ⟨?_, ?_, ?_⟩
    · intro product member
      simp [productsV4, averaged] at member
    · intro covered
      simp only [getNextWorkRequiredV4, averaged]
      exact target_initialDifficulty_le small (covered.resolve_left (not_not.mpr short))
    · rintro last older rfl distance distance' -
      simp only [targetAfter, getNextWorkRequiredV4, averaged]
      exact BitVec.le_refl _
  · have retargeted := globalRetargetV4_lt mainnet target nActualTimespan
    refine ⟨?_, ?_, ?_⟩
    · intro product member
      simp only [productsV4, averaged, List.mem_cons] at member
      rcases member with rfl | later
      · exact fits_global mainnet target nActualTimespan
      · exact localProducts_fit mainnet limit _ retargeted product later
    · intro covered
      simp only [getNextWorkRequiredV4, averaged]
      apply BitVec.le_trans (target_getCompact_le _)
      rw [BitVec.le_def, toNat_capped]
      exact min_le_right _ _
    · rintro last' older' ⟨rfl, rfl⟩ distance distance' ordered
      have step : ∀ d, (targetAfter last older params algo prevAlgo d).toNat ≤
          (targetAfter last older params algo prevAlgo (d + 1)).toNat := by
        intro d
        simp only [targetAfter, getNextWorkRequiredV4_of_averaged (averaged _), adjustmentsV4_sub]
        exact BitVec.le_def.mp (target_getCompact_mono
          (capped_local_succ mainnet limit d retargeted))
      exact BitVec.le_def.mpr (monotone_nat_of_le_succ step ordered)

/-- The limit and the first Odo target that signet is configured with. -/
def signetTargets : Params :=
  { mainParams with
    powLimit := 0x377ae * 2 ^ 216
    initialTarget := [(Algo.odo.number, 2 ^ 236 - 1)] }

/-- Below the averaging interval a configured first target passes unchecked. -/
theorem initial_target_above_limit :
    MainnetV4 signetTargets ∧ signetTargets.powLimit ≤ 2 ^ 236 - 1 ∧
    ∃ block : CBlockIndex, block.getAlgo = .odo ∧ 0 < (setCompact block.nBits).target ∧
      (setCompact block.nBits).target ≤ powLimitTarget signetTargets ∧
      powLimitTarget signetTargets <
        (setCompact (getNextWorkRequiredV4 [block] signetTargets (some .odo)
          (some block))).target :=
  ⟨⟨rfl, rfl, rfl, rfl⟩, by decide, ⟨0, 0x0e00, 0, 0x1e0377ae⟩, by decide +kernel⟩

namespace RetargetSample

def block (nHeight : ℤ) : CBlockIndex := ⟨nHeight, 0x0e00, 0, 0x1b00ffff⟩

/-- A chain that covers the averaging interval. -/
def chain : Chain := (List.range 60).map fun n => block (1500000 - n)

theorem main_network_retarget :
    (∀ product ∈ productsV4 chain mainParams (some (block 1499990)), Fits product) ∧
      (setCompact (getNextWorkRequiredV4 chain mainParams (some .odo)
        (some (block 1499990)))).target ≤
        powLimitTarget mainParams := by
  have rule := digishield_v4_arithmetic chain mainParams (some .odo) (block 1499990) ⟨rfl, rfl,
    rfl, rfl⟩
    (by decide) (by decide +kernel)
  exact ⟨rule.1, rule.2.1 (.inl (by decide +kernel))⟩

end RetargetSample

end DigiByte.Pow
