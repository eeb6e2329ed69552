import DigiByte.DigiDollar.Readers
import DigiByte.DigiDollar.TxBuilder
import Mathlib.Algebra.Order.BigOperators.Group.List

/-!
What the builders put into scripts, read back.

The builders push numbers and keys, and the rules take them apart again with `GetOp`
and `CScriptNum`. Keys come from the curve library, whose laws are assumed.
-/

set_option autoImplicit false
set_option relaxedAutoImplicit false

namespace DigiByte.DigiDollar

open Consensus Script
open Library.Checks (bind_eq_ok rejectIf_eq_ok)

/-- What the curve library makes sure of: the point without a known secret is a point,
and a point can be tweaked to a 32-byte output key. -/
structure CurveLaws (curve : TaprootCurve) : Prop where
  nums : curve.isFullyValid COLLATERAL_NUMS_POINT_BYTES = true
  tweaks : ∀ key leaves, curve.isFullyValid key = true →
    ∃ output, curve.taprootOutput key leaves = some output ∧ output.length = 32

/-- A valid secret key has a 32-byte public key on the curve. -/
def CKey.OnCurve (curve : TaprootCurve) (key : CKey) : Prop :=
  key.isValid = true → curve.isFullyValid key.xOnlyPubKey = true ∧ key.xOnlyPubKey.length = 32

/-! Destinations. -/

theorem isOpReturn_getScriptForDestination {dest : CTxDestination}
    (valid : isValidDestination dest = true) :
    isOpReturn (getScriptForDestination dest) = false := by
  cases dest with
  | noDestination script => cases valid
  | pubKey pubkey => cases valid
  | pkHash hash => rfl
  | scriptHash hash => rfl
  | witnessV0ScriptHash hash => rfl
  | witnessV0KeyHash hash => rfl
  | witnessV1Taproot key => rfl
  | witnessUnknown version program =>
    have opcodes : ∀ n : Fin 17, (some (encodeOpN n) == some OP_RETURN) = false := by decide
    exact opcodes version

theorem resolveDGBChangeScript_eq_ok {dest : Option CTxDestination} {allowTaproot : Bool}
    {script : Bytes} (resolved : TxBuilder.resolveDGBChangeScript dest allowTaproot = .ok script) :
    ∃ target, dest = some target ∧ isValidDestination target = true ∧
      script = getScriptForDestination target ∧
      ¬ (allowTaproot = false ∧
        TxBuilder.isTaprootOutputScript (getScriptForDestination target) = true) := by
  unfold TxBuilder.resolveDGBChangeScript at resolved
  cases valid : dest.filter isValidDestination with
  | none => simp [valid] at resolved
  | some target =>
    simp only [valid, bind_eq_ok, rejectIf_eq_ok] at resolved
    obtain ⟨_, _, _, ordinary, result⟩ := resolved
    cases result
    obtain ⟨found, allowed⟩ := Option.filter_eq_some_iff.mp valid
    exact ⟨target, found, allowed, rfl, ordinary⟩

/-! Pushes. -/

theorem getScriptOp_pushNum {n : ℤ} (bound : n.natAbs < 0x80 * 256 ^ 7) (pc : Bytes) :
    ∃ opcode, getScriptOp (pushData (serializeNum n) ++ pc) =
      (some (opcode, serializeNum n), pc) := by
  have short := length_serializeNum_le le_rfl bound
  exact ⟨_, getScriptOp_pushData (by omega) pc⟩

theorem serializeNum_ne_nil {n : ℤ} (bound : n.natAbs < 0x80 * 256 ^ 7) (nonzero : n ≠ 0) :
    serializeNum n ≠ [] := by
  intro empty
  have read := scriptNum_serializeNum_of_lt le_rfl bound le_rfl true
  have zero : scriptNum [] true 8 = some 0 := by decide
  rw [empty, zero, Option.some.injEq] at read
  exact nonzero read.symm

theorem ddPayload_tagged (fields : Bytes) :
    ddPayload (OP_RETURN :: (pushData DD_TAG ++ fields)) = some fields := by
  have opened : getScriptOp (OP_RETURN :: (pushData DD_TAG ++ fields)) =
      (some (OP_RETURN, []), pushData DD_TAG ++ fields) := rfl
  have tag := @getScriptOp_pushData DD_TAG (by decide) fields
  simp [ddPayload, isOpReturn, opened, tag]

theorem scriptOps_pushes {pushes : List Bytes} (short : ∀ data ∈ pushes, data.length < 0x4c) :
    scriptOps (pushes.flatMap pushData) = pushes.map fun data =>
      (UInt8.ofNat data.length, data) := by
  have enough : ∀ fuel, pushes.length ≤ fuel → scriptOpsUpTo fuel (pushes.flatMap pushData) =
      pushes.map fun data => (UInt8.ofNat data.length, data) := by
    induction pushes with
    | nil =>
      intro fuel _
      cases fuel with
      | zero => rfl
      | succ fuel => rfl
    | cons data rest ih =>
      intro fuel bound
      cases fuel with
      | zero => simp at bound
      | succ fuel =>
        have first := getScriptOp_pushData (short data (by simp)) (rest.flatMap pushData)
        have later := ih (fun data member => short data (by simp [member])) fuel
          (by simpa using bound)
        rw [List.flatMap_cons, scriptOpsUpTo, first]
        simp [later]
  refine enough _ ?_
  have nonempty : ∀ data ∈ pushes, 1 ≤ (pushData data).length := by
    intro data member
    simp [pushData, short data member]
  have lengths := List.sum_le_sum (l := pushes) (f := fun _ => 1) nonempty
  rw [List.length_flatMap]
  simpa using lengths

theorem isCanonicalP2TROutput_push {output : Bytes} (size : output.length = 32) :
    isCanonicalP2TROutput (OP_1 :: pushData output) = true := by
  simp [isCanonicalP2TROutput, isWitnessProgram, pushData, size, OP_1, OP_0, OP_16]

theorem createDigiDollarP2TR_eq {curve : TaprootCurve} (laws : CurveLaws curve) {owner : Bytes}
    {amount : ℤ} (positive : 0 < amount) (point : curve.isFullyValid owner = true) :
    ∃ output, output.length = 32 ∧
      createDigiDollarP2TR curve owner amount = OP_1 :: pushData output := by
  obtain ⟨output, tweaked, size⟩ := laws.tweaks owner [] point
  refine ⟨output, size, ?_⟩
  unfold createDigiDollarP2TR
  rw [if_neg (by simp [point]; omega), tweaked]

theorem createDigiDollarP2TR_p2tr {curve : TaprootCurve} (laws : CurveLaws curve)
    {owner : Bytes} {amount : ℤ} (positive : 0 < amount) (point : curve.isFullyValid owner = true) :
    isCanonicalP2TROutput (createDigiDollarP2TR curve owner amount) = true := by
  obtain ⟨output, size, script⟩ := createDigiDollarP2TR_eq laws positive point
  rw [script]
  exact isCanonicalP2TROutput_push size

end DigiByte.DigiDollar
