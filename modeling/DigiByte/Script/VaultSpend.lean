import DigiByte.Script.Interpreter

/-!
Symbolic execution of the two vault leaves, on every witness.

Each lemma `run_*` says what remains to be run after one operation. The shared
beginning of the leaves is the time lock and their shared end the amount check
with the owner's signature; both run in one lemma.
-/

set_option autoImplicit false
set_option relaxedAutoImplicit false

namespace DigiByte.Script

open Library
open Library.Checks (rejectIf bind_eq_ok rejectIf_eq_ok)
open Library.SignMagnitude (decode_encode minimal_encode length_encode_le)
open DigiDollar (MAX_DIGIDOLLAR)

/-- A state outside of conditionals, with an empty second stack. -/
def frame (pc : Bytes) (stack : List Bytes) (pos : ℕ) (weight : ℤ) : EvalState :=
  { pc, stack, opcode_pos := pos, validation_weight_left := weight }

abbrev evalRun (env : ScriptEnv) (s : EvalState) : Except ScriptError EvalState :=
  Consuming.run EvalState.size (evalStep env) s

variable {env : ScriptEnv} {pc : Bytes} {stack : List Bytes} {pos : ℕ} {weight : ℤ} {t : EvalState}

theorem run_nil : evalRun env (frame [] stack pos weight) = .ok (frame [] stack pos weight) :=
  Consuming.run_of_size_eq_zero rfl

private theorem run_cons {opcode : UInt8} :
    evalRun env (frame (opcode :: pc) stack pos weight) =
      evalStep env (frame (opcode :: pc) stack pos weight) >>= evalRun env :=
  Consuming.run_step (evalStep_shrinking env) (by simp [EvalState.size, frame])

private theorem run_opcode {opcode : UInt8} (high : ¬ opcode ≤ OP_PUSHDATA4)
    (enabled : Opcode.ofByte opcode ≠ .disabled) :
    evalRun env (frame (opcode :: pc) stack pos weight) = .ok t ↔
      ∃ s', evalOpcode env true (frame pc stack pos weight) (Opcode.ofByte opcode) = .ok s' ∧
        ¬ (s'.returned = false ∧ s'.stack.length + s'.altstack.length > MAX_STACK_SIZE) ∧
        evalRun env { s' with opcode_pos := s'.opcode_pos + 1 } = .ok t := by
  have read : getScriptOp (opcode :: pc) = (some (opcode, []), pc) := by simp [getScriptOp, high]
  have step : evalStep env (frame (opcode :: pc) stack pos weight) = (do
      rejectIf (([] : Bytes).length > MAX_SCRIPT_ELEMENT_SIZE) .pushSize
      rejectIf (Opcode.ofByte opcode = .disabled) .disabledOpcode
      let s ← evalOperation env (frame pc stack pos weight) opcode []
      rejectIf (s.returned = false ∧ s.stack.length + s.altstack.length > MAX_STACK_SIZE) .stackSize
      .ok { s with opcode_pos := s.opcode_pos + 1 }) := by
    simp only [evalStep, frame, read]
  have operation : evalOperation env (frame pc stack pos weight) opcode [] =
      evalOpcode env true (frame pc stack pos weight) (Opcode.ofByte opcode) := by
    simp [evalOperation, frame, high]
  rw [run_cons, step, operation]
  simp only [bind_eq_ok, rejectIf_eq_ok]
  constructor
  · rintro ⟨s₂, ⟨_, _, _, _, s', executed, _, limit, result⟩, run⟩
    cases result
    exact ⟨s', executed, limit, run⟩
  · rintro ⟨s', executed, limit, run⟩
    exact ⟨_, ⟨(), by simp, (), enabled, s', executed, (), limit, rfl⟩, run⟩

private theorem run_opcode_eq {opcode : UInt8} {pc' : Bytes} {stack' : List Bytes} {weight' : ℤ}
    (high : ¬ opcode ≤ OP_PUSHDATA4) (enabled : Opcode.ofByte opcode ≠ .disabled)
    (executed : evalOpcode env true (frame pc stack pos weight) (Opcode.ofByte opcode) =
      .ok (frame pc' stack' pos weight')) :
    evalRun env (frame (opcode :: pc) stack pos weight) = .ok t ↔
      stack'.length ≤ MAX_STACK_SIZE ∧
        evalRun env (frame pc' stack' (pos + 1) weight') = .ok t := by
  rw [run_opcode high enabled, executed]
  simp [frame]

/-! Pushes. -/

private theorem ofByte_push_ne_disabled {opcode : UInt8} (low : opcode ≤ OP_PUSHDATA4) :
    Opcode.ofByte opcode ≠ .disabled := by
  have all : ∀ n : Fin 256, UInt8.ofFin n ≤ OP_PUSHDATA4 →
      Opcode.ofByte (UInt8.ofFin n) ≠ .disabled := by
    decide +kernel
  exact all opcode.toFin low

private theorem run_pushData {data : Bytes} (short : data.length < 0x4c)
    (canonical : checkMinimalPush data (UInt8.ofNat data.length) = true) :
    evalRun env (frame (pushData data ++ pc) stack pos weight) = .ok t ↔
      stack.length + 1 ≤ MAX_STACK_SIZE ∧
        evalRun env (frame pc (data :: stack) (pos + 1) weight) = .ok t := by
  obtain ⟨_, _, low⟩ := lengthByte short
  have start : pushData data ++ pc = UInt8.ofNat data.length :: (data ++ pc) := by
    simp [pushData, short]
  have read := getScriptOp_pushData short pc
  rw [start] at read ⊢
  have step : evalStep env (frame (UInt8.ofNat data.length :: (data ++ pc)) stack pos weight) = (do
      rejectIf (data.length > MAX_SCRIPT_ELEMENT_SIZE) .pushSize
      rejectIf (Opcode.ofByte (UInt8.ofNat data.length) = .disabled) .disabledOpcode
      let s ← evalOperation env (frame pc stack pos weight) (UInt8.ofNat data.length) data
      rejectIf (s.returned = false ∧ s.stack.length + s.altstack.length > MAX_STACK_SIZE) .stackSize
      .ok { s with opcode_pos := s.opcode_pos + 1 }) := by
    simp only [evalStep, frame, read]
  have operation : evalOperation env (frame pc stack pos weight) (UInt8.ofNat data.length) data =
      .ok (frame pc (data :: stack) pos weight) := by
    simp [evalOperation, frame, low, canonical, rejectIf]
    rfl
  rw [run_cons, step, operation]
  simp only [bind_eq_ok, rejectIf_eq_ok, Except.ok.injEq, exists_eq_left']
  constructor
  · rintro ⟨s', ⟨_, _, _, _, _, limit, rfl⟩, run⟩
    exact ⟨by simpa [frame] using limit, run⟩
  · rintro ⟨limit, run⟩
    refine ⟨_, ⟨(), ?_, (), ofByte_push_ne_disabled low, (), by simpa [frame] using limit, rfl⟩,
      run⟩
    unfold MAX_SCRIPT_ELEMENT_SIZE
    omega

/-! Numbers. -/

private theorem serializeNum_short {n : ℤ} (bound : n.natAbs < 2 ^ 31) :
    (serializeNum n).length ≤ 4 :=
  length_serializeNum_le (by decide) (by omega)

private theorem scriptNum_serializeNum {n : ℤ} {size : ℕ} (bound : n.natAbs < 2 ^ 31)
    (wide : 4 ≤ size) (minimal : Bool) : scriptNum (serializeNum n) minimal size = some n :=
  scriptNum_serializeNum_of_lt (show 3 ≤ 7 by decide) (by omega) wide minimal

private theorem serializeNum_fits {n : ℤ} (bound : n.natAbs < 2 ^ 63) :
    (serializeNum n).length ≤ 8 :=
  length_serializeNum_le (show 7 ≤ 7 by decide) (by omega)

private theorem checkMinimalPush_serializeNum {n : ℤ} (low : 17 ≤ n) (bound : n.natAbs < 2 ^ 63) :
    checkMinimalPush (serializeNum n) (UInt8.ofNat (serializeNum n).length) = true := by
  have short := serializeNum_fits bound
  have value : scriptNum (serializeNum n) false 8 = some n :=
    scriptNum_serializeNum_of_lt (show 7 ≤ 7 by decide) (by omega) le_rfl false
  rcases shape : serializeNum n with _ | ⟨b, _ | ⟨b', rest⟩⟩
  · rw [shape] at value
    simp [scriptNum, SignMagnitude.decode] at value
    omega
  · have byte : n = b.toNat ∧ b.toNat < 0x80 := by
      rw [shape] at value
      simp [scriptNum, SignMagnitude.decode, SignMagnitude.ofBytes] at value
      split_ifs at value <;> omega
    have unsigned : b ≠ 0x81 := by
      rintro rfl
      exact absurd byte.2 (by decide)
    have large : ¬ (1 ≤ b.toNat ∧ b.toNat ≤ 16) := by omega
    simp [checkMinimalPush, large, unsigned]
  · rw [shape] at short
    have fits : (b :: b' :: rest).length < 0x4c := by omega
    simp only [checkMinimalPush, (lengthByte fits).1, decide_true, ite_eq_left_iff]
    omega

private theorem run_pushInt64 {n : ℤ} (nonneg : 0 ≤ n) (bound : n.natAbs < 2 ^ 63) :
    evalRun env (frame (pushInt64 n ++ pc) stack pos weight) = .ok t ↔
      stack.length + 1 ≤ MAX_STACK_SIZE ∧
        evalRun env (frame pc (serializeNum n :: stack) (pos + 1) weight) = .ok t := by
  unfold pushInt64
  rw [if_neg (by omega)]
  split_ifs with small zero
  · -- OP_1 to OP_16
    have opcodes : ∀ k : Fin 16, ¬ UInt8.ofNat (0x50 + (k.val + 1)) ≤ OP_PUSHDATA4 ∧
        Opcode.ofByte (UInt8.ofNat (0x50 + (k.val + 1))) = .number (k.val + 1 : ℕ) := by
      decide +kernel
    obtain ⟨above, number⟩ := opcodes ⟨n.toNat - 1, by omega⟩
    have same : n.toNat - 1 + 1 = n.toNat := by omega
    dsimp only at above number
    rw [same] at above number
    have cast : ((n.toNat : ℕ) : ℤ) = n := by omega
    rw [cast] at number
    rw [List.singleton_append, run_opcode_eq above (by rw [number]; simp) (by rw [number]; rfl)]
    rfl
  · -- OP_0 pushes no bytes
    rw [zero]
    exact @run_pushData env pc stack pos weight t [] (by decide) (by decide)
  · have short := serializeNum_fits bound
    exact run_pushData (by omega) (checkMinimalPush_serializeNum (by omega) bound)

/-! The time lock. -/

private theorem evalCheckLockTimeVerify_eq_ok {s s' : EvalState}
    (passed : evalCheckLockTimeVerify env s = .ok s') :
    s' = s := by
  unfold evalCheckLockTimeVerify at passed
  split_ifs at passed
  · cases passed
    rfl
  · split at passed
    · cases passed
    · split at passed
      · cases passed
      · simp only [bind_eq_ok, rejectIf_eq_ok] at passed
        obtain ⟨_, _, _, _, result⟩ := passed
        cases result
        rfl

/-- The lock height is reached where the check is in force. -/
private def LockPasses (env : ScriptEnv) (n : ℤ) : Prop :=
  env.flags.checkLockTimeVerify = true → checkLockTime env.checker n = true

private theorem run_checkLockTimeVerify {n : ℤ} (nonneg : 0 ≤ n) (bound : n.natAbs < 2 ^ 31) :
    evalRun env (frame (OP_CHECKLOCKTIMEVERIFY :: pc) (serializeNum n :: stack) pos weight) =
      .ok t ↔
      stack.length + 1 ≤ MAX_STACK_SIZE ∧ LockPasses env n ∧
        evalRun env (frame pc (serializeNum n :: stack) (pos + 1) weight) = .ok t := by
  have executed : evalOpcode env true (frame pc (serializeNum n :: stack) pos weight)
      (Opcode.ofByte OP_CHECKLOCKTIMEVERIFY) =
        evalCheckLockTimeVerify env (frame pc (serializeNum n :: stack) pos weight) := rfl
  by_cases passes : LockPasses env n
  · have passed : evalOpcode env true (frame pc (serializeNum n :: stack) pos weight)
        (Opcode.ofByte OP_CHECKLOCKTIMEVERIFY) =
          .ok (frame pc (serializeNum n :: stack) pos weight) := by
      rw [executed, evalCheckLockTimeVerify]
      by_cases enabled : env.flags.checkLockTimeVerify = false
      · rw [if_pos enabled]
      · have reached := passes (by simpa using enabled)
        rw [if_neg enabled]
        simp only [frame, scriptNum_serializeNum bound (by omega : 4 ≤ 5), rejectIf, reached,
          Bool.true_eq_false, if_false, if_neg (not_lt.mpr nonneg)]
        rfl
    rw [run_opcode_eq (by decide) (by decide) passed]
    simp [passes]
  · rw [run_opcode (by decide) (by decide), executed]
    constructor
    · rintro ⟨s', passed, _⟩
      unfold LockPasses at passes
      push Not at passes
      obtain ⟨enabled, unreached⟩ := passes
      simp only [evalCheckLockTimeVerify, frame, enabled, Bool.true_eq_false, if_false,
        scriptNum_serializeNum bound (by omega : 4 ≤ 5), bind_eq_ok, rejectIf_eq_ok] at passed
      obtain ⟨_, _, _, lock, _⟩ := passed
      exact absurd (by simpa using lock) unreached
    · rintro ⟨_, yes, _⟩
      exact absurd yes passes

private theorem run_drop {x : Bytes} :
    evalRun env (frame (OP_DROP :: pc) (x :: stack) pos weight) = .ok t ↔
      stack.length ≤ MAX_STACK_SIZE ∧ evalRun env (frame pc stack (pos + 1) weight) = .ok t :=
  run_opcode_eq (by decide) (by decide) rfl

private theorem run_timeLock {n : ℤ} (low : 1 ≤ n) (high : n ≤ 499999999) :
    evalRun env (frame (pushInt64 n ++ OP_CHECKLOCKTIMEVERIFY :: OP_DROP :: pc) stack pos weight) =
        .ok t ↔
      stack.length + 1 ≤ MAX_STACK_SIZE ∧ LockPasses env n ∧
        evalRun env (frame pc stack (pos + 3) weight) = .ok t := by
  rw [run_pushInt64 (by omega) (by omega), run_checkLockTimeVerify (by omega) (by omega), run_drop]
  constructor
  · rintro ⟨room, _, reached, _, run⟩
    exact ⟨room, reached, run⟩
  · rintro ⟨room, reached, run⟩
    exact ⟨room, room, reached, by omega, run⟩

private theorem run_timeLock_of_ok {n : ℤ} (nonneg : 0 ≤ n) (bound : n.natAbs < 2 ^ 63)
    (run : evalRun env (frame (pushInt64 n ++ OP_CHECKLOCKTIMEVERIFY :: OP_DROP :: pc) stack pos
      weight) = .ok t) :
    evalRun env (frame pc stack (pos + 3) weight) = .ok t := by
  rw [run_pushInt64 nonneg bound, run_opcode (by decide) (by decide)] at run
  obtain ⟨_, s', passed, _, run⟩ := run
  obtain rfl :=
    evalCheckLockTimeVerify_eq_ok (show evalCheckLockTimeVerify env _ = .ok s' from passed)
  exact (run_drop.mp run).2

/-! The amount and the owner's signature. -/

private theorem run_digidollar {d : ℤ} (enabled : env.flags.digidollar = true) (low : 1 ≤ d)
    (bound : d.natAbs < 2 ^ 31) :
    evalRun env (frame (OP_DIGIDOLLAR :: (pushData (serializeNum d) ++ pc)) stack pos weight) =
      .ok t ↔
      stack.length + 1 ≤ MAX_STACK_SIZE ∧
        evalRun env (frame pc (vchTrue :: stack) (pos + 1) weight) = .ok t := by
  have short := serializeNum_short bound
  have range : ¬ (d ≤ 0 ∨ d > MAX_DIGIDOLLAR) := by
    have : MAX_DIGIDOLLAR = 2100000000000 := rfl
    omega
  have executed : evalOpcode env true (frame (pushData (serializeNum d) ++ pc) stack pos weight)
      (Opcode.ofByte OP_DIGIDOLLAR) = .ok (frame pc (vchTrue :: stack) pos weight) := by
    change evalDigidollar env _ = _
    simp only [evalDigidollar, frame, enabled, Bool.true_eq_false, if_false,
      getScriptOp_pushData (show (serializeNum d).length < 0x4c by omega) pc,
      scriptNum_serializeNum bound le_rfl, rejectIf, if_neg range]
    rfl
  exact run_opcode_eq (by decide) (by decide) executed

private theorem run_ddVerify (enabled : env.flags.digidollar = true) :
    evalRun env (frame (OP_DDVERIFY :: pc) (vchTrue :: stack) pos weight) = .ok t ↔
      stack.length ≤ MAX_STACK_SIZE ∧ evalRun env (frame pc stack (pos + 1) weight) = .ok t := by
  have executed : evalOpcode env true (frame pc (vchTrue :: stack) pos weight)
      (Opcode.ofByte OP_DDVERIFY) = .ok (frame pc stack pos weight) := by
    change evalDDVerify env _ = _
    simp only [evalDDVerify, frame, enabled, Bool.true_eq_false, if_false]
    rfl
  exact run_opcode_eq (by decide) (by decide) executed

private theorem checkMinimalPush_key {key : Bytes} (length : key.length = 32) :
    checkMinimalPush key (UInt8.ofNat key.length) = true := by
  rcases key with _ | ⟨b, _ | ⟨b', rest⟩⟩
  · cases length
  · cases length
  · have short : (b :: b' :: rest).length < 0x4c := by omega
    simp only [checkMinimalPush, (lengthByte short).1, decide_true, ite_eq_left_iff]
    omega

private theorem run_checkSig {key : Bytes} :
    evalRun env (frame [OP_CHECKSIG] (key :: stack) pos weight) = .ok t ↔
      ∃ sig rest success left, stack = sig :: rest ∧ rest.length + 1 ≤ MAX_STACK_SIZE ∧
        evalChecksigTapscript env (frame [] (key :: stack) pos weight) sig key =
          .ok (success, left) ∧
        t = frame [] (ofBool success :: rest) (pos + 1) left := by
  rw [run_opcode (by decide) (by decide)]
  change (∃ s', (evalCheckSig env (frame [] (key :: stack) pos weight) >>= fun checked =>
      .ok { checked.2 with stack := ofBool checked.1 :: checked.2.stack }) = .ok s' ∧ _) ↔ _
  constructor
  · rintro ⟨s', executed, limit, run⟩
    obtain ⟨⟨success, s₁⟩, sigs, result⟩ := bind_eq_ok.mp executed
    cases result
    cases stack with
    | nil => cases sigs
    | cons sig rest =>
      obtain ⟨⟨_, left⟩, checked, result⟩ := bind_eq_ok.mp sigs
      cases result
      have ended := run.symm.trans run_nil
      cases ended
      exact ⟨sig, rest, success, left, rfl, by simpa [frame] using limit, checked, rfl⟩
  · rintro ⟨sig, rest, success, left, rfl, limit, checked, rfl⟩
    refine ⟨frame [] (ofBool success :: rest) pos left, ?_, by simpa [frame] using limit, run_nil⟩
    have sigs : evalCheckSig env (frame [] (key :: sig :: rest) pos weight) =
        .ok (success, frame [] rest pos left) :=
      bind_eq_ok.mpr ⟨_, checked, rfl⟩
    exact bind_eq_ok.mpr ⟨_, sigs, rfl⟩

/-- The owner's signature: no code separator has been executed. -/
def OwnerSigned (checker : SignatureChecker) (sig key : Bytes) : Prop :=
  checkSchnorrSignature checker sig key 0xffffffff = .ok ()

private theorem ownerSigned_length {checker : SignatureChecker} {sig key : Bytes}
    (signed : OwnerSigned checker sig key) : sig.length = 64 ∨ sig.length = 65 := by
  simp only [OwnerSigned, checkSchnorrSignature, bind_eq_ok, rejectIf_eq_ok] at signed
  obtain ⟨_, size, _⟩ := signed
  omega

private theorem evalChecksigTapscript_passes {s : EvalState} {sig key : Bytes} {left : ℤ}
    (length : key.length = 32) (unseparated : s.codeseparator_pos = 0xffffffff) :
    evalChecksigTapscript env s sig key = .ok (true, left) ↔
      OwnerSigned env.checker sig key ∧ left = s.validation_weight_left - 50 ∧ 0 ≤ left := by
  unfold evalChecksigTapscript OwnerSigned
  cases sig with
  | nil =>
    -- an empty signature is a permitted failure
    simp only [length, OfNat.ofNat_ne_zero, if_false, if_true, List.isEmpty_nil, bind_eq_ok,
      rejectIf_eq_ok]
    constructor
    · rintro ⟨_, _, _, _, result⟩
      cases result
    · rintro ⟨signed, _⟩
      simpa using ownerSigned_length signed
  | cons b sig =>
    simp only [length, unseparated, OfNat.ofNat_ne_zero, if_false, if_true, List.isEmpty_cons,
      Bool.not_false, bind_eq_ok, rejectIf_eq_ok, VALIDATION_WEIGHT_PER_SIGOP_PASSED]
    constructor
    · rintro ⟨_, enough, _, signed, result⟩
      cases result
      exact ⟨signed, rfl, by simpa using enough⟩
    · rintro ⟨signed, rfl, enough⟩
      exact ⟨(), by omega, (), signed, rfl⟩

private theorem run_ownerCheck {d : ℤ} {key : Bytes} (enabled : env.flags.digidollar = true)
    (low : 1 ≤ d) (bound : d.natAbs < 2 ^ 31) (length : key.length = 32) :
    evalRun env (frame (OP_DIGIDOLLAR :: (pushData (serializeNum d) ++
        OP_DDVERIFY :: (pushData key ++ [OP_CHECKSIG]))) stack pos weight) = .ok t ↔
      stack.length + 1 ≤ MAX_STACK_SIZE ∧ ∃ sig rest success left, stack = sig :: rest ∧
        evalChecksigTapscript env (frame [] (key :: stack) (pos + 3) weight) sig key =
          .ok (success, left) ∧
        t = frame [] (ofBool success :: rest) (pos + 4) left := by
  rw [run_digidollar enabled low bound, run_ddVerify enabled,
    run_pushData (by omega) (checkMinimalPush_key length), run_checkSig]
  constructor
  · rintro ⟨room, _, _, sig, rest, success, left, rfl, _, checked, rfl⟩
    exact ⟨room, sig, rest, success, left, rfl, checked, rfl⟩
  · rintro ⟨room, sig, rest, success, left, rfl, checked, rfl⟩
    have shorter : rest.length + 1 ≤ MAX_STACK_SIZE := by
      rw [List.length_cons] at room
      omega
    exact ⟨room, shorter, room, sig, rest, success, left, rfl, shorter, checked, rfl⟩

/-! The collateral ratio of the second leaf. -/

/-- Whether `OP_CHECKCOLLATERAL` takes the operand for a ratio of at least 100. -/
def ratioSuffices (env : ScriptEnv) (ratio : Bytes) : Bool :=
  match scriptNum ratio env.flags.minimalData 4 with
  | some r => 100 ≤ r
  | none => false

private theorem run_checkCollateral {ratio : Bytes} (enabled : env.flags.digidollar = true) :
    evalRun env (frame (OP_CHECKCOLLATERAL :: pc) (serializeNum 100 :: ratio :: stack) pos weight) =
        .ok t ↔
      stack.length + 1 ≤ MAX_STACK_SIZE ∧
        evalRun env (frame pc (ofBool (ratioSuffices env ratio) :: stack) (pos + 1) weight) =
          .ok t := by
  have threshold := scriptNum_serializeNum (show (100 : ℤ).natAbs < 2 ^ 31 by decide) le_rfl
    env.flags.minimalData
  have executed : evalOpcode env true (frame pc (serializeNum 100 :: ratio :: stack) pos weight)
      (Opcode.ofByte OP_CHECKCOLLATERAL) =
        .ok (frame pc (ofBool (ratioSuffices env ratio) :: stack) pos weight) := by
    change evalCheckCollateral env _ = _
    simp only [evalCheckCollateral, frame, enabled, Bool.true_eq_false, if_false, threshold,
      ratioSuffices]
    cases scriptNum ratio env.flags.minimalData 4 <;> rfl
  exact run_opcode_eq (by decide) (by decide) executed

private theorem run_notVerify {b : Bool} :
    evalRun env (frame (OP_NOT :: OP_VERIFY :: pc) (ofBool b :: stack) pos weight) = .ok t ↔
      b = false ∧ stack.length + 1 ≤ MAX_STACK_SIZE ∧
        evalRun env (frame pc stack (pos + 2) weight) = .ok t := by
  have negated : evalOpcode env true (frame (OP_VERIFY :: pc) (ofBool b :: stack) pos weight)
      (Opcode.ofByte OP_NOT) = .ok (frame (OP_VERIFY :: pc) (ofBool (!b) :: stack) pos weight) := by
    change (NumericOp.eval env (.unary .not) (ofBool b :: stack) >>= _) = _
    simp only [NumericOp.eval, operand]
    cases b <;> cases env.flags.minimalData <;> rfl
  rw [run_opcode_eq (by decide) (by decide) negated]
  cases b with
  | false =>
    have verified : evalOpcode env true (frame pc (ofBool (!false) :: stack) (pos + 1) weight)
        (Opcode.ofByte OP_VERIFY) = .ok (frame pc stack (pos + 1) weight) := rfl
    rw [run_opcode_eq (by decide) (by decide) verified]
    constructor
    · rintro ⟨room, _, run⟩
      exact ⟨rfl, room, run⟩
    · rintro ⟨_, room, run⟩
      exact ⟨room, by omega, run⟩
  | true =>
    rw [run_opcode (by decide) (by decide)]
    constructor
    · rintro ⟨_, s', executed, _⟩
      cases executed
    · rintro ⟨no, _⟩
      cases no

private theorem run_ratioCheck (enabled : env.flags.digidollar = true) :
    evalRun env (frame (pushData (serializeNum 100) ++
        OP_CHECKCOLLATERAL :: OP_NOT :: OP_VERIFY :: pc) stack pos weight) = .ok t ↔
      stack.length + 1 ≤ MAX_STACK_SIZE ∧ ∃ ratio rest, stack = ratio :: rest ∧
        ratioSuffices env ratio = false ∧ evalRun env (frame pc rest (pos + 4) weight) = .ok t := by
  rw [run_pushData (by decide) (by decide)]
  cases stack with
  | nil =>
    rw [run_opcode (by decide) (by decide)]
    constructor
    · rintro ⟨_, s', executed, _⟩
      have executed : evalCheckCollateral env _ = .ok s' := executed
      simp only [evalCheckCollateral, frame, enabled, Bool.true_eq_false, if_false] at executed
      cases executed
    · rintro ⟨_, _, _, empty, _⟩
      cases empty
  | cons ratio rest =>
    rw [run_checkCollateral enabled, run_notVerify]
    simp only [List.length_cons, List.cons.injEq]
    constructor
    · rintro ⟨room, _, low, _, run⟩
      exact ⟨room, ratio, rest, ⟨rfl, rfl⟩, low, run⟩
    · rintro ⟨room, _, _, ⟨rfl, rfl⟩, low, run⟩
      exact ⟨room, by omega, low, by omega, run⟩

/-! No operation of the leaves is an `OP_SUCCESS`. -/

abbrev scanRun (flags : ScriptFlags) (pc : Bytes) : Except ScriptError ScanState :=
  Consuming.run ScanState.size (scanStep flags) (pc, false)

private theorem scan_next {flags : ScriptFlags} {script : Bytes} {op : UInt8 × Bytes}
    (read : getScriptOp script = (some op, pc)) (plain : isOpSuccessForFlags op.1 flags = false) :
    scanRun flags script = scanRun flags pc := by
  have longer := getScriptOp_length_lt read
  have running : ScanState.size (script, false) ≠ 0 := by
    simp only [ScanState.size, Bool.false_eq_true, if_false]
    omega
  have step : scanStep flags (script, false) = .ok (pc, false) := by
    simp only [scanStep, read, plain]
  rw [scanRun, Consuming.run_step (scanStep_shrinking flags) running, step]
  rfl

private theorem scan_opcode {flags : ScriptFlags} {opcode : UInt8} (high : ¬ opcode ≤ OP_PUSHDATA4)
    (plain : isOpSuccessForFlags opcode flags = false) :
    scanRun flags (opcode :: pc) = scanRun flags pc := by
  have read : getScriptOp (opcode :: pc) = (some (opcode, []), pc) := by simp [getScriptOp, high]
  exact scan_next read plain

private theorem isOpSuccessForFlags_low {flags : ScriptFlags} {opcode : UInt8}
    (low : opcode.toNat < 80) : isOpSuccessForFlags opcode flags = false := by
  have legacy : isOpSuccess opcode = false := by
    simp [isOpSuccess]
    omega
  rw [isOpSuccessForFlags, if_neg (by omega), legacy]

private theorem scan_pushData {flags : ScriptFlags} {data : Bytes} (short : data.length < 0x4c) :
    scanRun flags (pushData data ++ pc) = scanRun flags pc := by
  refine scan_next (getScriptOp_pushData short pc) (isOpSuccessForFlags_low ?_)
  rw [(lengthByte short).1]
  omega

private theorem scan_pushInt64 {flags : ScriptFlags} {n : ℤ} (nonneg : 0 ≤ n)
    (bound : n.natAbs < 2 ^ 63) :
    scanRun flags (pushInt64 n ++ pc) = scanRun flags pc := by
  unfold pushInt64
  rw [if_neg (by omega)]
  split_ifs with small zero
  · have opcodes : ∀ k : Fin 16, ¬ UInt8.ofNat (0x50 + (k.val + 1)) ≤ OP_PUSHDATA4 ∧
        isOpSuccess (UInt8.ofNat (0x50 + (k.val + 1))) = false ∧
        (UInt8.ofNat (0x50 + (k.val + 1))).toNat < 0xbb := by
      decide +kernel
    have same : n.toNat - 1 + 1 = n.toNat := by omega
    obtain ⟨above, plain, below⟩ := opcodes ⟨n.toNat - 1, by omega⟩
    dsimp only at above plain below
    rw [same] at above plain below
    refine scan_opcode above ?_
    rw [isOpSuccessForFlags, if_neg (by omega), plain]
  · exact @scan_pushData _ flags [] (by decide)
  · have short := serializeNum_fits bound
    exact scan_pushData (by omega)

/-! The leaves as a whole. -/

/-- The lock height is reached in the sense of the time lock. -/
structure LockReached (checker : SignatureChecker) (lockHeight : ℤ) : Prop where
  isHeight : checker.tx.nLockTime.toNat < 500000000
  reached : lockHeight ≤ checker.tx.nLockTime.toNat
  notFinal : checker.input.nSequence ≠ SEQUENCE_FINAL

private theorem checkLockTime_iff {checker : SignatureChecker} {n : ℤ} (high : n ≤ 499999999) :
    checkLockTime checker n = true ↔ LockReached checker n := by
  have threshold : LOCKTIME_THRESHOLD = 500000000 := rfl
  unfold checkLockTime
  constructor
  · intro h
    dsimp only at h
    split_ifs at h with kind late final
    exact ⟨by omega, by omega, Ne.symm final⟩
  · rintro ⟨isHeight, reached, notFinal⟩
    rw [if_neg (by omega), if_neg (by omega), if_neg (Ne.symm notFinal)]

/-- Mint parameters within the range of accepted mints. -/
structure VaultParams extends MintParams where
  ddAmount_pos : 1 ≤ ddAmount
  ddAmount_le : ddAmount ≤ ({} : DigiDollar.ConsensusParams).maxMintAmount
  lockHeight_pos : 1 ≤ lockHeight
  lockHeight_le : lockHeight ≤ 499999999
  ownerKey_length : ownerKey.length = 32

/-- The shared end of the leaves. -/
private def ownerCheck (params : MintParams) : Bytes :=
  OP_DIGIDOLLAR :: (pushData (serializeNum params.ddAmount) ++
    OP_DDVERIFY :: (pushData params.ownerKey ++ [OP_CHECKSIG]))

private theorem normalPath_eq (params : VaultParams) :
    createNormalRedemptionPath params.toMintParams =
      pushInt64 params.lockHeight ++ OP_CHECKLOCKTIMEVERIFY :: OP_DROP ::
        ownerCheck params.toMintParams := by
  have amount := params.ddAmount_pos
  have lock := params.lockHeight_pos
  rw [createNormalRedemptionPath, if_neg (by omega), ownerCheck]
  simp only [List.append_assoc, List.cons_append, List.nil_append]

private theorem errPath_eq {params : MintParams}
    (built : ¬ (params.ddAmount ≤ 0 ∨ params.lockHeight < 0)) :
    createERRPath params =
      pushInt64 params.lockHeight ++ OP_CHECKLOCKTIMEVERIFY :: OP_DROP ::
        (pushData (serializeNum 100) ++ OP_CHECKCOLLATERAL :: OP_NOT :: OP_VERIFY ::
          ownerCheck params) := by
  rw [createERRPath, if_neg built, ownerCheck]
  simp only [List.append_assoc, List.cons_append, List.nil_append]

private theorem amount_bound (params : VaultParams) : params.ddAmount.natAbs < 2 ^ 31 := by
  have low := params.ddAmount_pos
  have high := params.ddAmount_le
  have limit : ({} : DigiDollar.ConsensusParams).maxMintAmount = 10000000 := rfl
  omega

private theorem scan_ownerCheck {flags : ScriptFlags} {params : MintParams}
    (enabled : flags.digidollar = true)
    (amount : params.ddAmount.natAbs < 2 ^ 63) (key : params.ownerKey.length = 32) :
    scanRun flags (ownerCheck params) = .ok ([], false) := by
  have short := serializeNum_fits amount
  rw [ownerCheck, scan_opcode (by decide) (by simp [isOpSuccessForFlags, enabled, OP_DIGIDOLLAR]),
    scan_pushData (by omega),
    scan_opcode (by decide) (by simp [isOpSuccessForFlags, enabled, OP_DDVERIFY]),
    scan_pushData (by omega),
    scan_opcode (by decide) (by simp [isOpSuccessForFlags, isOpSuccess, OP_CHECKSIG])]
  rfl

private theorem scan_timeLock {flags : ScriptFlags} {n : ℤ} (nonneg : 0 ≤ n)
    (bound : n.natAbs < 2 ^ 63) :
    scanRun flags (pushInt64 n ++ OP_CHECKLOCKTIMEVERIFY :: OP_DROP :: pc) = scanRun flags pc := by
  rw [scan_pushInt64 nonneg bound,
    scan_opcode (by decide) (by simp [isOpSuccessForFlags, isOpSuccess, OP_CHECKLOCKTIMEVERIFY]),
    scan_opcode (by decide) (by simp [isOpSuccessForFlags, isOpSuccess, OP_DROP])]

private theorem scan_ratioCheck {flags : ScriptFlags} (enabled : flags.digidollar = true) :
    scanRun flags (pushData (serializeNum 100) ++ OP_CHECKCOLLATERAL :: OP_NOT :: OP_VERIFY :: pc) =
      scanRun flags pc := by
  rw [scan_pushData (by decide),
    scan_opcode (by decide) (by simp [isOpSuccessForFlags, enabled, OP_CHECKCOLLATERAL]),
    scan_opcode (by decide) (by simp [isOpSuccessForFlags, isOpSuccess, OP_NOT]),
    scan_opcode (by decide) (by simp [isOpSuccessForFlags, isOpSuccess, OP_VERIFY])]

/-- A final state of a successful tapscript: closed conditionals and one true element. -/
private def Succeeds (s : EvalState) : Prop :=
  ¬ (s.returned = false ∧ s.conditions ≠ []) ∧ ∃ top, s.stack = [top] ∧ castToBool top = true

private theorem executeWitnessScript_eq_ok {witness : List Bytes} {script : Bytes}
    (scanned : scanRun env.flags script = .ok ([], false)) :
    executeWitnessScript env witness script weight = .ok () ↔
      witness.length ≤ MAX_STACK_SIZE ∧ (∀ elem ∈ witness, elem.length ≤ MAX_SCRIPT_ELEMENT_SIZE) ∧
        ∃ s, evalRun env (frame script witness.reverse 0 weight) = .ok s ∧ Succeeds s := by
  unfold executeWitnessScript
  simp only [show Consuming.run ScanState.size (scanStep env.flags) (script, false) =
    _ from scanned,
    evalScript, bind_eq_ok, rejectIf_eq_ok, Except.ok.injEq, exists_eq_left', Bool.false_eq_true,
    if_false]
  constructor
  · rintro ⟨_, length, _, elements, stack, ⟨s, run, _, closed, rfl⟩, top⟩
    refine ⟨by omega, fun elem mem => ?_, s, run, closed, ?_⟩
    · by_contra long
      exact elements ⟨elem, mem, by omega⟩
    · rcases shape : s.stack with _ | ⟨elem, _ | ⟨elem', rest⟩⟩
      · simp [shape] at top
      · simp only [shape, rejectIf_eq_ok] at top
        exact ⟨elem, rfl, by simpa using top⟩
      · simp [shape] at top
  · rintro ⟨length, elements, s, run, closed, top, single, truth⟩
    refine ⟨(), by omega, (), ?_, s.stack, ⟨s, run, (), closed, rfl⟩, ?_⟩
    · rintro ⟨elem, mem, long⟩
      have := elements elem mem
      omega
    · simp [single, truth, rejectIf]

private theorem run_ownerCheck_succeeds (enabled : env.flags.digidollar = true)
    (params : VaultParams) :
    (∃ s, evalRun env (frame (ownerCheck params.toMintParams) stack pos weight) = .ok s ∧
        Succeeds s) ↔
      ∃ sig, stack = [sig] ∧ OwnerSigned env.checker sig params.ownerKey ∧ 50 ≤ weight := by
  have passes (sig : Bytes) (rest : List Bytes) (left : ℤ) :
      evalChecksigTapscript env (frame [] (params.ownerKey :: sig :: rest) (pos + 3) weight) sig
          params.ownerKey = .ok (true, left) ↔
        OwnerSigned env.checker sig params.ownerKey ∧ left = weight - 50 ∧ 0 ≤ left :=
    evalChecksigTapscript_passes params.ownerKey_length rfl
  simp only [ownerCheck,
    run_ownerCheck enabled params.ddAmount_pos (amount_bound params) params.ownerKey_length]
  constructor
  · rintro ⟨s, ⟨_, sig, rest, success, left, rfl, checked, rfl⟩, _, top, single, truth⟩
    obtain ⟨rfl, rfl⟩ : ofBool success = top ∧ rest = [] := by simpa [frame] using single
    cases success with
    | false => cases truth
    | true =>
      obtain ⟨signed, rfl, enough⟩ := (passes sig [] left).mp checked
      exact ⟨sig, rfl, signed, by omega⟩
  · rintro ⟨sig, rfl, signed, enough⟩
    have checked := (passes sig [] (weight - 50)).mpr ⟨signed, rfl, by omega⟩
    exact ⟨_, ⟨by simp [MAX_STACK_SIZE], sig, [], true, _, rfl, checked, rfl⟩,
      by simp [frame], vchTrue, rfl, rfl⟩

private theorem scan_normalPath (params : VaultParams) {flags : ScriptFlags}
    (enabled : flags.digidollar = true) :
    scanRun flags (pushInt64 params.lockHeight ++ OP_CHECKLOCKTIMEVERIFY :: OP_DROP ::
      ownerCheck params.toMintParams) = .ok ([], false) := by
  have lock := params.lockHeight_pos
  have height := params.lockHeight_le
  have amount := amount_bound params
  exact (scan_timeLock (by omega) (by omega)).trans
    (scan_ownerCheck enabled (by omega) params.ownerKey_length)

theorem normalPath_accepts (params : VaultParams) (lockFlag : env.flags.checkLockTimeVerify = true)
    (ddFlag : env.flags.digidollar = true) (witness : List Bytes) :
    executeWitnessScript env witness (createNormalRedemptionPath params.toMintParams) weight =
        .ok () ↔
      LockReached env.checker params.lockHeight ∧ 50 ≤ weight ∧
        ∃ sig, witness = [sig] ∧ OwnerSigned env.checker sig params.ownerKey := by
  rw [normalPath_eq, executeWitnessScript_eq_ok (scan_normalPath params ddFlag)]
  simp only [run_timeLock params.lockHeight_pos params.lockHeight_le, and_assoc, exists_and_left,
    run_ownerCheck_succeeds ddFlag params, LockPasses, lockFlag, true_implies,
    checkLockTime_iff params.lockHeight_le]
  constructor
  · rintro ⟨_, _, _, lock, sig, single, signed, enough⟩
    exact ⟨lock, enough, sig, by simpa using single, signed⟩
  · rintro ⟨lock, enough, sig, rfl, signed⟩
    have length := ownerSigned_length signed
    refine ⟨by simp [MAX_STACK_SIZE], ?_, by simp [MAX_STACK_SIZE], lock, sig, rfl, signed, enough⟩
    simp only [List.mem_singleton, forall_eq, MAX_SCRIPT_ELEMENT_SIZE]
    omega

/-- Mint parameters in the ranges of the source's types. -/
structure LeafParams extends MintParams where
  ddAmount_int64 : -2 ^ 63 ≤ ddAmount ∧ ddAmount < 2 ^ 63
  lockHeight_int64 : -2 ^ 63 ≤ lockHeight ∧ lockHeight < 2 ^ 63
  ownerKey_length : ownerKey.length = 32

def VaultParams.toLeafParams (params : VaultParams) : LeafParams where
  toMintParams := params.toMintParams
  ddAmount_int64 := by
    have low := params.ddAmount_pos
    have bound := amount_bound params
    omega
  lockHeight_int64 := by
    have low := params.lockHeight_pos
    have high := params.lockHeight_le
    omega
  ownerKey_length := params.ownerKey_length

private theorem errPath_eq_ok (params : LeafParams)
    (built : ¬ (params.ddAmount ≤ 0 ∨ params.lockHeight < 0))
    (ddFlag : env.flags.digidollar = true) (witness : List Bytes) :
    executeWitnessScript env witness (createERRPath params.toMintParams) weight = .ok () ↔
      witness.length ≤ MAX_STACK_SIZE ∧ (∀ elem ∈ witness, elem.length ≤ MAX_SCRIPT_ELEMENT_SIZE) ∧
        ∃ s, evalRun env (frame (pushInt64 params.lockHeight ++ OP_CHECKLOCKTIMEVERIFY :: OP_DROP ::
          (pushData (serializeNum 100) ++ OP_CHECKCOLLATERAL :: OP_NOT :: OP_VERIFY ::
            ownerCheck params.toMintParams)) witness.reverse 0 weight) = .ok s ∧ Succeeds s := by
  have amount := params.ddAmount_int64
  have lock := params.lockHeight_int64
  have scanned :
      scanRun env.flags (pushInt64 params.lockHeight ++ OP_CHECKLOCKTIMEVERIFY :: OP_DROP ::
      (pushData (serializeNum 100) ++ OP_CHECKCOLLATERAL :: OP_NOT :: OP_VERIFY ::
        ownerCheck params.toMintParams)) = .ok ([], false) :=
    ((scan_timeLock (by omega) (by omega)).trans (scan_ratioCheck ddFlag)).trans
      (scan_ownerCheck ddFlag (by omega) params.ownerKey_length)
  rw [errPath_eq built, executeWitnessScript_eq_ok scanned]

theorem errPath_accepts (params : VaultParams) (ddFlag : env.flags.digidollar = true)
    (witness : List Bytes) :
    executeWitnessScript env witness (createERRPath params.toMintParams) weight = .ok () ↔
      (env.flags.checkLockTimeVerify = true → LockReached env.checker params.lockHeight) ∧
      50 ≤ weight ∧
        ∃ sig ratio, witness = [sig, ratio] ∧ OwnerSigned env.checker sig params.ownerKey ∧
          ratio.length ≤ MAX_SCRIPT_ELEMENT_SIZE ∧ ratioSuffices env ratio = false := by
  have amount := params.ddAmount_pos
  have height := params.lockHeight_pos
  have built : ¬ (params.ddAmount ≤ 0 ∨ params.lockHeight < 0) := by omega
  refine (errPath_eq_ok params.toLeafParams built ddFlag witness).trans ?_
  simp only [VaultParams.toLeafParams, run_timeLock params.lockHeight_pos params.lockHeight_le,
    run_ratioCheck ddFlag, LockPasses, checkLockTime_iff params.lockHeight_le]
  constructor
  · rintro ⟨_, elements, s, ⟨_, lock, _, ratio, rest, shape, low, run⟩, succeeds⟩
    obtain ⟨sig, rfl, signed, enough⟩ :=
      (run_ownerCheck_succeeds ddFlag params).mp ⟨s, run, succeeds⟩
    obtain rfl : witness = [sig, ratio] := by simpa using congrArg List.reverse shape
    exact ⟨lock, enough, sig, ratio, rfl, signed, elements ratio (by simp), low⟩
  · rintro ⟨lock, enough, sig, ratio, rfl, signed, element, low⟩
    obtain ⟨s, run, succeeds⟩ :=
      (run_ownerCheck_succeeds ddFlag params).mpr ⟨sig, rfl, signed, enough⟩
    have length := ownerSigned_length signed
    refine ⟨by simp [MAX_STACK_SIZE], fun elem mem => ?_, s,
      ⟨by simp [MAX_STACK_SIZE], lock, by simp [MAX_STACK_SIZE], ratio, [sig], rfl, low, run⟩,
      succeeds⟩
    have pair : elem = sig ∨ elem = ratio := by simpa using mem
    rcases pair with rfl | rfl
    · unfold MAX_SCRIPT_ELEMENT_SIZE
      omega
    · exact element

theorem validationWeight_ge (witness : List Bytes) : 50 ≤ validationWeight witness := by
  unfold validationWeight VALIDATION_WEIGHT_OFFSET
  omega

/-- A vault stays locked until its lock height on both leaves, and from then on the
owner's signature opens the first one whatever else the witness stack carries. -/
theorem vault_locks_until_height (params : VaultParams) (env : ScriptEnv)
    (lockFlag : env.flags.checkLockTimeVerify = true) (ddFlag : env.flags.digidollar = true) :
    (∀ leaf, leaf = createNormalRedemptionPath params.toMintParams ∨
        leaf = createERRPath params.toMintParams →
      ∀ witness weight, executeWitnessScript env witness leaf weight = .ok () →
        LockReached env.checker params.lockHeight ∧
          ∃ sig ∈ witness.head?, OwnerSigned env.checker sig params.ownerKey) ∧
    ∀ sig stack, LockReached env.checker params.lockHeight →
      OwnerSigned env.checker sig params.ownerKey →
        executeWitnessScript env [sig] (createNormalRedemptionPath params.toMintParams)
          (validationWeight stack) = .ok () := by
  refine ⟨?_, fun sig stack lock signed => ?_⟩
  · rintro leaf (rfl | rfl) witness weight accepted
    · obtain ⟨lock, _, sig, rfl, signed⟩ :=
      (normalPath_accepts params lockFlag ddFlag witness).mp accepted
      exact ⟨lock, sig, rfl, signed⟩
    · obtain ⟨lock, _, sig, ratio, rfl, signed, _⟩ :=
        (errPath_accepts params ddFlag witness).mp accepted
      exact ⟨lock lockFlag, sig, rfl, signed⟩
  · exact (normalPath_accepts params lockFlag ddFlag [sig]).mpr
      ⟨lock, validationWeight_ge stack, sig, rfl, signed⟩

/-- The witness item that `OP_CHECKCOLLATERAL` takes for the ratio: the top of the stack. The
empty script of refused parameters checks none. -/
def checkedRatio (params : MintParams) (witness : List Bytes) : Option Bytes :=
  if createERRPath params = [] then none else witness.getLast?

/-- A ratio below 100, in the number format of the flags. -/
def EmergencyRatio (flags : ScriptFlags) (ratio : Bytes) : Prop :=
  ∃ value, scriptNum ratio flags.minimalData 4 = some value ∧ value < 100

private theorem errPath_ratio (params : LeafParams) (ddFlag : env.flags.digidollar = true)
    {witness : List Bytes}
    {ratio : Bytes} (checked : checkedRatio params.toMintParams witness = some ratio)
    (accepted : executeWitnessScript env witness (createERRPath params.toMintParams) weight =
      .ok ()) :
    ratioSuffices env ratio = false ∧ ratio.length ≤ MAX_SCRIPT_ELEMENT_SIZE := by
  unfold checkedRatio at checked
  split_ifs at checked with empty
  have built : ¬ (params.ddAmount ≤ 0 ∨ params.lockHeight < 0) := by
    intro refused
    exact empty (if_pos refused)
  obtain ⟨_, elements, s, run, _⟩ := (errPath_eq_ok params built ddFlag witness).mp accepted
  have lock := params.lockHeight_int64
  obtain ⟨_, top, rest, shape, low, _⟩ :=
    (run_ratioCheck ddFlag).mp (run_timeLock_of_ok (by omega) (by omega) run)
  have same : ratio = top := by
    rw [List.getLast?_eq_head?_reverse, shape, List.head?_cons, Option.some.injEq] at checked
    exact checked.symm
  rw [same]
  exact ⟨low, elements top (List.mem_reverse.mp (by simp [shape]))⟩

namespace Sample

/-- A vault of 100.00 DD locked until height 1000. -/
def vaultParams : VaultParams where
  ddAmount := 10000
  lockHeight := 1000
  ownerKey := List.replicate 32 7
  internalKey := List.replicate 32 8
  ddAmount_pos := by decide
  ddAmount_le := by decide
  lockHeight_pos := by decide
  lockHeight_le := by decide
  ownerKey_length := rfl

def ownerSig : Bytes := List.replicate 64 9

/-- A spend at height 1000 that only the owner has signed. -/
def spendEnv : ScriptEnv where
  flags :=
    { checkLockTimeVerify := true, checkSequenceVerify := true, digidollar := true
      minimalData := false, discourageUpgradableNops := false, discourageOpSuccess := false
      discourageUpgradablePubkeyType := false }
  checker :=
    { tx := { hash := 1, nVersion := 2, vin := [], vout := [], nLockTime := 1000 }
      input := { prevout := { hash := 0, n := 0 }, scriptSig := [], nSequence := 0 }
      signatureHash := fun _ _ => some []
      verifySchnorr := fun pubkey _ sig => pubkey = vaultParams.ownerKey && sig = ownerSig }
  hash := fun _ data => data

/-- The same spend under other script flags. -/
def spendEnvUnder (flags : ScriptFlags) : ScriptEnv := { spendEnv with flags }

theorem lock_reached : LockReached spendEnv.checker vaultParams.lockHeight :=
  ⟨by decide, by decide, by decide⟩

theorem checkedRatio_vault
    (ratio : Bytes) : checkedRatio vaultParams.toMintParams [ownerSig, ratio] = some ratio := by
  have built : createERRPath vaultParams.toMintParams ≠ [] := by decide +kernel
  rw [checkedRatio, if_neg built]
  rfl

theorem spend_opens_vault :
    executeWitnessScript spendEnv [ownerSig] (createNormalRedemptionPath vaultParams.toMintParams)
      (validationWeight [ownerSig]) = .ok () :=
  (vault_locks_until_height vaultParams spendEnv rfl rfl).2 ownerSig [ownerSig]
    lock_reached rfl

end Sample

/-- No vault accepts a ratio unless it is an emergency ratio, exactly for the ratios that are
numbers at all (or too long for the stack): the false that stands for a malformed number is
negated as the false of an insufficient ratio is. -/
theorem err_leaf_ratio_sound_iff (flags : ScriptFlags) (ddFlag : flags.digidollar = true)
    (ratio : Bytes) :
    (∀ (params : LeafParams) (env : ScriptEnv) (witness : List Bytes) (weight : ℤ),
      env.flags = flags →
      checkedRatio params.toMintParams witness = some ratio →
      executeWitnessScript env witness (createERRPath params.toMintParams) weight = .ok () →
        EmergencyRatio flags ratio) ↔
      ((scriptNum ratio flags.minimalData 4).isSome = true ∨
        ratio.length > MAX_SCRIPT_ELEMENT_SIZE) := by
  constructor
  · intro sound
    by_contra neither
    obtain ⟨malformed, fits⟩ := not_or.mp neither
    have unread : scriptNum ratio flags.minimalData 4 = none := by simpa using malformed
    have low : ratioSuffices (Sample.spendEnvUnder flags) ratio = false := by
      unfold ratioSuffices Sample.spendEnvUnder
      rw [unread]
    have accepted := (@errPath_accepts (Sample.spendEnvUnder flags) 50 Sample.vaultParams ddFlag
      [Sample.ownerSig, ratio]).mpr
        ⟨fun _ => Sample.lock_reached, le_rfl, _, _, rfl, rfl, not_lt.mp fits, low⟩
    obtain ⟨value, found, _⟩ := sound Sample.vaultParams.toLeafParams (Sample.spendEnvUnder flags)
      [Sample.ownerSig, ratio] 50 rfl (Sample.checkedRatio_vault ratio) accepted
    rw [unread] at found
    cases found
  · intro valid params env witness weight same checked accepted
    subst same
    obtain ⟨low, fits⟩ := errPath_ratio params ddFlag checked accepted
    rcases valid with number | long
    · obtain ⟨value, found⟩ := Option.isSome_iff_exists.mp number
      refine ⟨value, found, ?_⟩
      unfold ratioSuffices at low
      rw [found] at low
      exact not_le.mp (of_decide_eq_false low)
    · omega

namespace Sample

/-- Five arbitrary bytes are no number, and the owner spends the vault with them. -/
theorem malformed_ratio_accepted :
    executeWitnessScript spendEnv [ownerSig, [1, 2, 3, 4, 5]]
      (createERRPath vaultParams.toMintParams)
        (validationWeight [ownerSig, [1, 2, 3, 4, 5]]) = .ok () ∧
      checkedRatio vaultParams.toMintParams [ownerSig, [1, 2, 3, 4, 5]] = some [1, 2, 3, 4, 5] ∧
      ¬ EmergencyRatio spendEnv.flags [1, 2, 3, 4, 5] := by
  refine ⟨?_, checkedRatio_vault _, ?_⟩
  · apply (errPath_accepts vaultParams rfl _).mpr
    exact ⟨fun _ => lock_reached, validationWeight_ge _, _, _, rfl, rfl, by decide, by decide⟩
  · rintro ⟨value, found, _⟩
    cases found

/-- A ratio of 50 on the same vault. -/
theorem low_ratio_accepted :
    executeWitnessScript spendEnv [ownerSig, [50]] (createERRPath vaultParams.toMintParams)
        (validationWeight [ownerSig, [50]]) = .ok () ∧ EmergencyRatio spendEnv.flags [50] := by
  have accepted : executeWitnessScript spendEnv [ownerSig,
      [50]] (createERRPath vaultParams.toMintParams)
      (validationWeight [ownerSig, [50]]) = .ok () := by
    apply (errPath_accepts vaultParams rfl _).mpr
    exact ⟨fun _ => lock_reached, validationWeight_ge _, _, _, rfl, rfl, by decide, by decide⟩
  refine ⟨accepted, ?_⟩
  exact (err_leaf_ratio_sound_iff spendEnv.flags rfl [50]).mpr (.inl (by decide))
    vaultParams.toLeafParams spendEnv
    _ _ rfl (checkedRatio_vault _) accepted

end Sample

end DigiByte.Script
