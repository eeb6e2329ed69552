import DigiByte.Arith.Root
import DigiByte.Pow.Difficulty
import Mathlib.Algebra.Order.BigOperators.Group.List
import Mathlib.Algebra.Order.BigOperators.GroupWithZero.List

/-!
Block work from the geometric mean of the targets: the product of the fifth roots stays in the
width and below the largest target, and more work never comes from an easier target.
-/

set_option autoImplicit false
set_option relaxedAutoImplicit false

namespace DigiByte.Pow

open Arith
open Consensus (Params)

/-- `bnAvgTarget` after the loop over these targets, from a value before it. -/
def rootProductFrom (bnAvgTarget : ArithUint256) (targets : List ArithUint256) : ArithUint256 :=
  targets.foldl (fun bnAvgTarget bnTarget => bnAvgTarget * approxNthRoot bnTarget NUM_ALGOS.toNat)
    bnAvgTarget

def rootProduct (targets : List ArithUint256) : ArithUint256 := rootProductFrom 1 targets

/-- `bnRes` of these targets. -/
def geometricWork (targets : List ArithUint256) : ArithUint256 := workOf (rootProduct targets) <<< 7

/-- A target that is positive and at most `2 ** 236 - 1`. -/
def InRange (target : ArithUint256) : Prop := 0 < target.toNat ∧ target.toNat ≤ 2 ^ 236 - 1

instance (target : ArithUint256) : Decidable (InRange target) := inferInstanceAs (Decidable (_ ∧ _))

/-- The required target of an algorithm, with no flag set. -/
def NextTarget (pprev : Chain) (nTime : UInt32) (params : Params)
    (previous_algos : Option PreviousAlgoBlocks) (algo : Algo) (target : ArithUint256) : Prop :=
  ∃ nBits, getNextWorkRequired pprev nTime params (some algo) previous_algos = some nBits ∧
    setCompact nBits = ⟨target, false, false⟩

/-- The algorithms whose targets enter the work of a block above `pprev`. -/
def activeAlgos (pprev : Chain) (params : Params) : List Algo :=
  Algo.all.filter (isAlgoActive pprev params)

theorem length_activeAlgos {prev : CBlockIndex} {older : Chain} {params : Params}
    (multi : ¬prev.nHeight < params.multiAlgoDiffChangeTarget) :
    (activeAlgos (prev :: older) params).length = 5 := by
  unfold activeAlgos
  by_cases early : prev.nHeight < params.algoSwapChangeTarget ∨ prev.nHeight + 1 < params.OdoHeight
  · have active : isAlgoActive (prev :: older) params =
        fun algo => decide (algo ∈ [Algo.sha256d, .scrypt, .groestl, .skein, .qubit]) := by
      funext algo
      simp only [isAlgoActive, if_neg multi, if_pos early]
    rw [active]
    rfl
  · have active : isAlgoActive (prev :: older) params =
        fun algo => decide (algo ∈ [Algo.sha256d, .scrypt, .skein, .qubit, .odo]) := by
      funext algo
      simp only [isAlgoActive, if_neg multi, if_neg early]
    rw [active]
    rfl

theorem geometricTarget_eq {pprev : Chain} {nTime : UInt32} {params : Params}
    {previous_algos : Option PreviousAlgoBlocks} (algos : List Algo) {targets : List ArithUint256}
    (next : List.Forall₂ (NextTarget pprev nTime params previous_algos)
      (algos.filter (isAlgoActive pprev params)) targets)
    (positive : ∀ target ∈ targets, InRange target) (bnAvgTarget : ArithUint256) :
    geometricTarget pprev nTime params previous_algos algos bnAvgTarget =
      some (some (rootProductFrom bnAvgTarget targets)) := by
  induction algos generalizing targets bnAvgTarget with
  | nil =>
    cases next
    rfl
  | cons algo algos ih =>
    cases active : isAlgoActive pprev params algo with
    | false =>
      rw [List.filter_cons_of_neg (by simp [active])] at next
      rw [geometricTarget, if_pos active]
      exact ih next positive bnAvgTarget
    | true =>
      rw [List.filter_cons_of_pos active] at next
      cases next with
      | @cons _ target _ rest first later =>
        obtain ⟨nBits, required, decoded⟩ := first
        have nonzero : target ≠ 0 := by
          rintro rfl
          exact absurd (positive 0 List.mem_cons_self).1 (by decide)
        rw [geometricTarget, if_neg (by simp [active]), required, Option.bind_some]
        simp only [decoded, nonzero, Bool.or_self, decide_false, Bool.false_eq_true, if_false]
        exact ih later (fun t member => positive t (List.mem_cons_of_mem _ member)) _

theorem getBlockProof_eq {block : CBlockIndex} {pprev : Chain} {params : Params}
    {previous_algos : Option PreviousAlgoBlocks} {targets : List ArithUint256}
    (geometric : ¬block.nHeight < params.workComputationChangeTarget)
    (next : List.Forall₂ (NextTarget pprev block.nTime params previous_algos)
      (activeAlgos pprev params) targets)
    (positive : ∀ target ∈ targets, InRange target) :
    getBlockProof block pprev params previous_algos = some (geometricWork targets) := by
  rw [getBlockProof, if_neg geometric, geometricTarget_eq Algo.all next positive]
  rfl

/-! The product of the roots. -/

/-- The root of a target, as a number. -/
def rootOf (target : ArithUint256) : ℕ := (approxNthRoot target NUM_ALGOS.toNat).toNat

section Roots

variable {target : ArithUint256}

private theorem five : 1 < NUM_ALGOS.toNat ∧ NUM_ALGOS.toNat < 64 := by decide

theorem rootOf_pos (ranged : InRange target) : 0 < rootOf target := approxNthRoot_pos five ranged.1

theorem rootOf_pow_le (ranged : InRange target) : rootOf target ^ 5 ≤ target.toNat := by
  obtain ⟨value, lower, -⟩ := approxNthRoot_spec five ranged.1
  rw [rootOf, value]
  exact lower

theorem rootOf_lt (ranged : InRange target) : rootOf target < 2 ^ 48 := by
  have power : rootOf target ^ 5 < (2 ^ 48) ^ 5 :=
    (rootOf_pow_le ranged).trans_lt (ranged.2.trans_lt (by norm_num))
  exact (Nat.pow_lt_pow_iff_left (by norm_num)).mp power

theorem rootOf_mono {target' : ArithUint256} (ranged : InRange target)
    (ordered : target.toNat ≤ target'.toNat) :
    rootOf target ≤ rootOf target' := approxNthRoot_mono five ranged.1 ordered

end Roots

/-- The exact product. -/
def exactProduct (targets : List ArithUint256) : ℕ := (targets.map rootOf).prod

section Product

variable {targets : List ArithUint256} (ranged : ∀ target ∈ targets, InRange target)

include ranged

theorem exactProduct_pos : 0 < exactProduct targets := by
  apply List.prod_pos
  intro root member
  obtain ⟨target, listed, rfl⟩ := List.mem_map.mp member
  exact rootOf_pos (ranged target listed)

theorem exactProduct_le : exactProduct targets ≤ 2 ^ (48 * targets.length) := by
  have bounded : ∀ root ∈ targets.map rootOf, root ≤ 2 ^ 48 := by
    intro root member
    obtain ⟨target, listed, rfl⟩ := List.mem_map.mp member
    exact (rootOf_lt (ranged target listed)).le
  have power := List.prod_le_pow_card (targets.map rootOf) (2 ^ 48) bounded
  rwa [List.length_map, ← pow_mul] at power

/-- The fifth power of the product is at most the product of the targets. -/
theorem exactProduct_pow_le : exactProduct targets ^ 5 ≤ (targets.map BitVec.toNat).prod := by
  induction targets with
  | nil => exact le_rfl
  | cons target targets ih =>
    have head := rootOf_pow_le (ranged target List.mem_cons_self)
    have tail := ih fun t member => ranged t (List.mem_cons_of_mem _ member)
    simp only [exactProduct, List.map_cons, List.prod_cons, mul_pow] at tail ⊢
    exact Nat.mul_le_mul head tail

theorem exactProduct_le_largest {largest : ℕ} (five : targets.length = 5)
    (bounded : ∀ target ∈ targets, target.toNat ≤ largest) : exactProduct targets ≤ largest := by
  have upper : (targets.map BitVec.toNat).prod ≤ largest ^ 5 := by
    have power := List.prod_le_pow_card (targets.map BitVec.toNat) largest (by simpa using bounded)
    rwa [List.length_map, five] at power
  exact (Nat.pow_le_pow_iff_left (by norm_num)).mp ((exactProduct_pow_le ranged).trans upper)

private theorem toNat_rootProductFrom {bnAvgTarget : ArithUint256}
    (room : bnAvgTarget.toNat * 2 ^ (48 * targets.length) < 2 ^ 256) :
    (rootProductFrom bnAvgTarget targets).toNat = bnAvgTarget.toNat * exactProduct targets := by
  induction targets generalizing bnAvgTarget with
  | nil => simp [rootProductFrom, exactProduct]
  | cons target targets ih =>
    have short := rootOf_lt (ranged target List.mem_cons_self)
    have grown : bnAvgTarget.toNat * rootOf target * 2 ^ (48 * targets.length) < 2 ^ 256 := by
      apply lt_of_le_of_lt _ room
      rw [List.length_cons, Nat.mul_succ, pow_add, Nat.mul_comm (2 ^ _) (2 ^ 48), ← mul_assoc]
      exact Nat.mul_le_mul_right _ (Nat.mul_le_mul_left _ short.le)
    have product : (bnAvgTarget * approxNthRoot target NUM_ALGOS.toNat).toNat =
        bnAvgTarget.toNat * rootOf target := by
      rw [BitVec.toNat_mul, ← rootOf]
      apply Nat.mod_eq_of_lt
      exact (Nat.le_mul_of_pos_right _ (Nat.two_pow_pos _)).trans_lt grown
    have tail := ih (fun t member => ranged t (List.mem_cons_of_mem _ member)) (by rwa [product])
    rw [rootProductFrom, List.foldl_cons, ← rootProductFrom, tail, product, mul_assoc]
    rfl

theorem toNat_rootProduct (few : targets.length ≤ 5) :
    (rootProduct targets).toNat = exactProduct targets := by
  have room : (1 : ArithUint256).toNat * 2 ^ (48 * targets.length) < 2 ^ 256 := by
    rw [show (1 : ArithUint256).toNat = 1 by rfl, one_mul]
    exact Nat.pow_lt_pow_right (by norm_num) (by omega)
  rw [rootProduct, toNat_rootProductFrom ranged room]
  exact one_mul _

end Product

/-! The work. -/

theorem toNat_workOf {target : ArithUint256} (positive : 0 < target.toNat)
    (below : target.toNat < 2 ^ 256 - 1) :
    (workOf target).toNat = 2 ^ 256 / (target.toNat + 1) := by
  have next : (target + 1).toNat = target.toNat + 1 := by
    rw [BitVec.toNat_add, show (1 : ArithUint256).toNat = 1 by rfl]
    omega
  have complement : (~~~target).toNat = 2 ^ 256 - (target.toNat + 1) := by
    rw [BitVec.toNat_not]
    omega
  have quotient : 2 ^ 256 / (target.toNat + 1) =
      (2 ^ 256 - (target.toNat + 1)) / (target.toNat + 1) + 1 := by
    rw [← Nat.add_div_right _ (Nat.succ_pos _), Nat.sub_add_cancel (by omega)]
  have short : 2 ^ 256 / (target.toNat + 1) < 2 ^ 256 := Nat.div_lt_self (by norm_num) (by omega)
  rw [workOf, BitVec.toNat_add, BitVec.toNat_udiv, complement, next,
    show (1 : ArithUint256).toNat = 1 by rfl, ← quotient, Nat.mod_eq_of_lt short]

theorem toNat_scaledWork {target : ArithUint256} (atLeast : 128 ≤ target.toNat)
    (below : target.toNat < 2 ^ 256 - 1) :
    (workOf target <<< 7).toNat = 2 ^ 256 / (target.toNat + 1) * 2 ^ 7 := by
  have quotient : 2 ^ 256 / (target.toNat + 1) ≤ 2 ^ 256 / 129 :=
    Nat.div_le_div_left (by omega) (by norm_num)
  have room : 2 ^ 256 / (target.toNat + 1) * 2 ^ 7 < 2 ^ 256 :=
    (Nat.mul_le_mul_right _ quotient).trans_lt (by norm_num)
  rw [BitVec.toNat_shiftLeft, toNat_workOf (by omega) below, Nat.shiftLeft_eq,
    Nat.mod_eq_of_lt room]

section Five

variable {targets : List ArithUint256} (five : targets.length = 5)
  (ranged : ∀ target ∈ targets, InRange target)

theorem exactProduct_append (before : List ArithUint256) (target : ArithUint256)
    (after : List ArithUint256) :
    exactProduct (before ++ target :: after) =
      exactProduct before * (rootOf target * exactProduct after) := by
  simp [exactProduct]

include five ranged

private theorem rootProduct_lt : (rootProduct targets).toNat < 2 ^ 256 - 1 := by
  rw [toNat_rootProduct ranged five.le]
  have bounded := exactProduct_le ranged
  rw [five] at bounded
  exact bounded.trans_lt (by norm_num)

private theorem rootProduct_fits {before after : List ArithUint256} {target : ArithUint256}
    (parts : targets = before ++ target :: after) :
    (rootProduct before).toNat * rootOf target < 2 ^ 256 := by
  subst parts
  have inRange : ∀ t ∈ before ++ [target], InRange t := by
    intro t member
    apply ranged
    rw [List.append_cons]
    exact List.mem_append_left _ member
  have few : (before ++ [target]).length ≤ 5 := by
    simp only [List.length_append, List.length_cons, List.length_nil] at five ⊢
    omega
  have bounded := exactProduct_le inRange
  rw [exactProduct_append, show exactProduct [] = 1 by rfl, mul_one] at bounded
  rw [toNat_rootProduct (fun t member => inRange t (List.mem_append_left _ member))
    (by simp at few; omega)]
  refine bounded.trans_lt (Nat.pow_lt_pow_right (by norm_num) ?_)
  omega

private theorem exists_rootProduct_le : ∃ largest ∈ targets, rootProduct targets ≤ largest := by
  by_contra none
  have positive := exactProduct_pos ranged
  rw [← toNat_rootProduct ranged five.le] at positive
  have below : exactProduct targets ≤ (rootProduct targets).toNat - 1 := by
    apply exactProduct_le_largest ranged five
    intro target member
    have less : ¬rootProduct targets ≤ target := fun atMost => none ⟨target, member, atMost⟩
    have order := BitVec.lt_def.mp (BitVec.not_le.mp less)
    omega
  rw [← toNat_rootProduct ranged five.le] at below
  omega

private theorem geometricWork_antitone {before after : List ArithUint256}
    {target target' : ArithUint256}
    (parts : targets = before ++ target :: after) (easier : target ≤ target')
    (ranged' : InRange target') (atLeast : 128 ≤ (rootProduct targets).toNat) :
    geometricWork (before ++ target' :: after) ≤ geometricWork targets := by
  subst parts
  have replaced : ∀ t ∈ before ++ target' :: after, InRange t := by
    intro t member
    rcases List.mem_append.mp member with early | late
    · exact ranged t (List.mem_append_left _ early)
    · rcases List.mem_cons.mp late with rfl | later
      · exact ranged'
      · exact ranged t (List.mem_append_right _ (List.mem_cons_of_mem _ later))
  have five' : (before ++ target' :: after).length = 5 := by simpa using five
  have grown : (rootProduct (before ++ target :: after)).toNat ≤
      (rootProduct (before ++ target' :: after)).toNat := by
    have roots := rootOf_mono (ranged target (by simp)) (BitVec.le_def.mp easier)
    rw [toNat_rootProduct ranged five.le, toNat_rootProduct replaced five'.le, exactProduct_append,
      exactProduct_append]
    exact Nat.mul_le_mul_left _ (Nat.mul_le_mul_right _ roots)
  rw [BitVec.le_def, geometricWork, geometricWork,
    toNat_scaledWork atLeast (rootProduct_lt five ranged),
    toNat_scaledWork (atLeast.trans grown) (rootProduct_lt five' replaced)]
  exact Nat.mul_le_mul_right _ (Nat.div_le_div_left (by omega) (by omega))

end Five

/-- The fifth root is exact to one unit of its shift and keeps the order; the product of five of
them stays in the width, and the work of a block falls with each of its five targets. -/
theorem geometric_work_well_defined :
    (∀ x : ArithUint256, 0 < x.toNat →
      (∃ q, (approxNthRoot x 5).toNat = q * 2 ^ rootShifts x 5 ∧
        (q * 2 ^ rootShifts x 5) ^ 5 ≤ x.toNat ∧
        x.toNat < ((q + 1) * 2 ^ rootShifts x 5) ^ 5) ∧
      ∀ nNext ∈ rootCandidates 5 (rootHead x 5) (64 / 5) 0, ∀ j < 4,
      powerRounds nNext j * nNext < 2 ^ 64) ∧
    (∀ x y : ArithUint256, 0 < x.toNat → x ≤ y → approxNthRoot x 5 ≤ approxNthRoot y 5) ∧
    (∀ targets : List ArithUint256, targets.length = 5 → (∀ target ∈ targets, InRange target) →
      (∀ before target after, targets = before ++ target :: after →
        (rootProduct before).toNat * (approxNthRoot target 5).toNat < 2 ^ 256) ∧
      0 < (rootProduct targets).toNat ∧ (∃ largest ∈ targets, rootProduct targets ≤ largest) ∧
      ∀ before target after target', targets = before ++ target :: after → target ≤ target' →
        InRange target' → 128 ≤ (rootProduct targets).toNat →
        geometricWork (before ++ target' :: after) ≤ geometricWork targets) ∧
    ∀ (block prev : CBlockIndex) (older : Chain) (params : Params)
      (previous_algos : Option PreviousAlgoBlocks)
      (targets : List ArithUint256), ¬block.nHeight < params.workComputationChangeTarget →
      ¬prev.nHeight < params.multiAlgoDiffChangeTarget →
      List.Forall₂ (NextTarget (prev :: older) block.nTime params previous_algos)
        (activeAlgos (prev :: older) params) targets →
      (∀ target ∈ targets, InRange target) →
      targets.length = 5 ∧ getBlockProof block (prev :: older) params previous_algos =
        some (geometricWork targets) := by
  refine ⟨?_, ?_, ?_, ?_⟩
  · intro x positive
    exact ⟨⟨headRoot x 5, approxNthRoot_spec five positive⟩, fun nNext candidate j round =>
      innerProduct_lt (by norm_num) x candidate round⟩
  · intro x y positive ordered
    exact BitVec.le_def.mpr (approxNthRoot_mono five positive (BitVec.le_def.mp ordered))
  · intro targets length ranged
    refine ⟨fun before target after parts => rootProduct_fits length ranged parts, ?_,
      exists_rootProduct_le length ranged, ?_⟩
    · rw [toNat_rootProduct ranged length.le]
      exact exactProduct_pos ranged
    · intro before target after target' parts easier ranged' atLeast
      exact geometricWork_antitone length ranged parts easier ranged' atLeast
  · intro block prev older params previous_algos targets geometric multi next ranged
    exact ⟨next.length_eq.symm.trans (length_activeAlgos multi),
      getBlockProof_eq geometric next ranged⟩

namespace WorkSample

/-- Five targets of different lengths. -/
def targets : List ArithUint256 :=
  [BitVec.ofNat 256 (2 ^ 236 - 1), BitVec.ofNat 256 (2 ^ 200), BitVec.ofNat 256 12345,
    BitVec.ofNat 256 (3 ^ 100), 1]

theorem work_of_targets :
    0 < (rootProduct targets).toNat ∧ 128 ≤ (rootProduct targets).toNat ∧
      ∃ largest ∈ targets, rootProduct targets ≤ largest := by
  have ranged : ∀ target ∈ targets, InRange target := by
    simp only [targets, List.forall_mem_cons, List.not_mem_nil, false_implies, implies_true,
      and_true]
    decide +kernel
  have product := geometric_work_well_defined.2.2.1 targets rfl ranged
  exact ⟨product.2.1, by decide +kernel, product.2.2.1⟩

end WorkSample

end DigiByte.Pow
