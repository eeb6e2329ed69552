import DigiByte.Oracle.Ceremony

/-!
Soundness of the oracle ceremony over every interleaving of calls.

Every session of the orchestrator keeps the session invariant. The nonce messages
that the node signed tie a local oracle's public nonce, when it comes back from the
network, to the secret nonce that the session holds.
-/

set_option autoImplicit false
set_option relaxedAutoImplicit false

namespace DigiByte.Oracle

open Script (Bytes)

section

variable (env : OracleEnv) (keys : ℕ → Option Bytes)

/-- A signed nonce message belongs to an earlier attempt, or its secret nonce is there as
long as nonces are collected. -/
def Logged (msg : OracleMusigNonceMsg) (s : MuSig2SigningSession) : Prop :=
  msg.attempt_id ≤ s.m_attempt_id ∧
    (msg.attempt_id = s.m_attempt_id → s.Collecting → (s.m_secnonces msg.oracle_id).isSome)

/-- A session is the current attempt of its epoch. -/
structure SessionOf (o : OracleSigningOrchestrator) (epoch : ℤ)
    (s : MuSig2SigningSession) : Prop where
  ofEpoch : s.m_epoch = epoch
  attempt : s.m_attempt_id = o.m_epoch_attempts epoch
  signers : s.m_min_signers = configuredMinSigners env
  ok : SessionOk env keys s

structure OrchestratorOk (o : OracleSigningOrchestrator) : Prop where
  sessions : ∀ epoch s, o.m_signing_sessions epoch = some s → SessionOf env keys o epoch s
  logged : ∀ msg ∈ o.signed_nonces, ∃ s, o.m_signing_sessions msg.epoch = some s ∧ Logged msg s

/-- A nonce message that verifies for a local oracle has the content of a message that the
node signed. -/
def Authentic (o : OracleSigningOrchestrator) (msg : OracleMusigNonceMsg) : Prop :=
  Held env keys msg.oracle_id → ∀ oracle, env.chain.getOracleNode msg.oracle_id = some oracle →
    env.verifyNonce msg (xonly oracle.pubkey) = true →
    ∃ signed ∈ o.signed_nonces, { signed with signature := msg.signature } = msg

/-- No call brings a forged nonce message of a local oracle. -/
def Unforged (o : OracleSigningOrchestrator) : Call → Prop
  | .ingestRemoteNonce msg => Authentic env keys o msg
  | .ingestRemoteContext msg => ∀ nonce ∈ msg.nonce_evidence, Authentic env keys o nonce
  | _ => True

def UnforgedRun : OracleSigningOrchestrator → List Call → Prop
  | _, [] => True
  | o, call :: rest => Unforged env keys o call ∧ UnforgedRun (o.call env keys call) rest

end

section Proofs

variable {env : OracleEnv} {keys : ℕ → Option Bytes} {o o' : OracleSigningOrchestrator}
  {s s' : MuSig2SigningSession} {epoch : ℤ}

theorem Logged.evolves {msg : OracleMusigNonceMsg} (logged : Logged msg s)
    (evolves : Evolves s s') :
    Logged msg s' := by
  constructor
  · rw [evolves.attempt]
    exact logged.1
  · intro attempt collecting
    rw [evolves.attempt] at attempt
    obtain ⟨before, keeps⟩ := evolves.keeps collecting
    exact keeps _ (logged.2 attempt before)

theorem SessionOf.evolves (session : SessionOf env keys o epoch s) (ok : SessionOk env keys s')
    (evolves : Evolves s s') : SessionOf env keys o epoch s' :=
  ⟨evolves.epoch.trans session.ofEpoch, evolves.attempt.trans session.attempt,
    evolves.signers.trans session.signers, ok⟩

theorem SessionOf.congr (session : SessionOf env keys o epoch s)
    (attempts : o'.m_epoch_attempts epoch = o.m_epoch_attempts epoch) :
    SessionOf env keys o' epoch s :=
  ⟨session.ofEpoch, session.attempt.trans attempts.symm, session.signers, session.ok⟩

namespace OrchestratorOk

theorem fresh : OrchestratorOk env keys {} where
  sessions epoch s found := by cases found
  logged msg member := by cases member

theorem congr (ok : OrchestratorOk env keys o)
    (sessions : o'.m_signing_sessions = o.m_signing_sessions)
    (attempts : o'.m_epoch_attempts = o.m_epoch_attempts)
    (signed : o'.signed_nonces = o.signed_nonces) :
    OrchestratorOk env keys o' := by
  constructor
  · intro epoch s found
    rw [sessions] at found
    exact (ok.sessions epoch s found).congr (by rw [attempts])
  · intro msg member
    rw [signed] at member
    rw [sessions]
    exact ok.logged msg member

theorem replace (ok : OrchestratorOk env keys o) (epoch : ℤ) (s' : MuSig2SigningSession)
    (sessions : o'.m_signing_sessions = Function.update o.m_signing_sessions epoch (some s'))
    (attempts : ∀ other, other ≠ epoch → o'.m_epoch_attempts other = o.m_epoch_attempts other)
    (session : SessionOf env keys o' epoch s')
    (signed : ∀ msg ∈ o'.signed_nonces, msg.epoch ≠ epoch → msg ∈ o.signed_nonces)
    (logged : ∀ msg ∈ o'.signed_nonces, msg.epoch = epoch → Logged msg s') :
    OrchestratorOk env keys o' := by
  constructor
  · intro other t found
    rw [sessions] at found
    by_cases same : other = epoch
    · rw [same, Function.update_self, Option.some.injEq] at found
      rw [same, ← found]
      exact session
    · rw [Function.update_of_ne same] at found
      exact (ok.sessions other t found).congr (attempts other same)
  · intro msg member
    rw [sessions]
    by_cases same : msg.epoch = epoch
    · exact ⟨s', by rw [same, Function.update_self], logged msg member same⟩
    · rw [Function.update_of_ne same]
      exact ok.logged msg (signed msg member same)

theorem put (ok : OrchestratorOk env keys o) (found : o.m_signing_sessions epoch = some s)
    (step : Preserves env keys s s') : OrchestratorOk env keys (o.putSession epoch s') := by
  have session := ok.sessions epoch s found
  obtain ⟨ok', evolves⟩ := step session.ok
  refine ok.replace epoch _ rfl (fun _ _ => rfl) ((session.evolves ok' evolves).congr rfl)
    (fun msg member _ => member) ?_
  intro msg member same
  obtain ⟨t, there, logged⟩ := ok.logged msg member
  rw [same, found, Option.some.injEq] at there
  rw [← there] at logged
  exact logged.evolves evolves

end OrchestratorOk

theorem newSession_ok (o : OracleSigningOrchestrator) (epoch : ℤ) (attempt : ℕ) (height : ℤ) :
    SessionOk env keys (o.newSession env epoch attempt height) := by
  refine SessionOk.of_collecting (.inl rfl) ⟨rfl, fun _ => rfl, ?_, ?_⟩ ?_
  · intro id secret
    cases secret
  · intro id _ shown
    cases shown
  · intro id secnonce pubnonce secret
    cases secret

namespace OrchestratorOk

theorem putNew (ok : OrchestratorOk env keys o) (absent : o.m_signing_sessions epoch = none)
    (height : ℤ) :
    OrchestratorOk env keys
      (o.putSession epoch (o.newSession env epoch (o.m_epoch_attempts epoch) height)) := by
  refine ok.replace epoch _ rfl (fun _ _ => rfl) ⟨rfl, rfl, rfl,
    newSession_ok ..⟩ (fun msg member _ => member) ?_
  -- no nonce was signed for an epoch without a session
  intro msg member same
  obtain ⟨t, there, _⟩ := ok.logged msg member
  rw [same, absent] at there
  cases there

theorem openSession (ok : OrchestratorOk env keys o) {attempt : ℕ}
    {opened : MuSig2SigningSession × OracleSigningOrchestrator}
    (result : o.openSession env epoch attempt = some opened) :
    OrchestratorOk env keys opened.2 ∧ opened.2.m_signing_sessions epoch = some opened.1 ∧
      opened.2.signed_nonces = o.signed_nonces := by
  rcases OracleSigningOrchestrator.openSession_eq_some result with ⟨found, same⟩ |
    ⟨absent, current, fresh, put⟩
  · rw [same]
    exact ⟨ok, found, rfl⟩
  · rw [put, fresh, current]
    exact ⟨ok.putNew absent _, Function.update_self .., rfl⟩

end OrchestratorOk

theorem authentic_secnonce {msg : OracleMusigNonceMsg} (ok : OrchestratorOk env keys o)
    (found : o.m_signing_sessions epoch = some s) (authentic : Authentic env keys o msg) :
    ∀ oracle, env.chain.getOracleNode msg.oracle_id = some oracle →
      env.verifyNonce msg (xonly oracle.pubkey) = true → msg.epoch = s.m_epoch →
      msg.attempt_id = s.m_attempt_id → s.Collecting → Held env keys msg.oracle_id →
      (s.m_secnonces msg.oracle_id).isSome := by
  intro oracle node verified sameEpoch attempt collecting held
  obtain ⟨signed, member, content⟩ := authentic held oracle node verified
  obtain ⟨t, there, logged⟩ := ok.logged signed member
  have signedEpoch : signed.epoch = msg.epoch := by rw [← content]
  have signedAttempt : signed.attempt_id = msg.attempt_id := by rw [← content]
  have signedId : signed.oracle_id = msg.oracle_id := by rw [← content]
  rw [signedEpoch, sameEpoch, (ok.sessions epoch s found).ofEpoch, found, Option.some.injEq]
    at there
  rw [← there] at logged
  rw [← signedId]
  exact logged.2 (signedAttempt.trans attempt) collecting

/-! Messages of peers. -/

theorem putSession_putSession (o : OracleSigningOrchestrator) (epoch : ℤ)
    (s s' : MuSig2SigningSession) :
    (o.putSession epoch s).putSession epoch s' = o.putSession epoch s' := by
  unfold OracleSigningOrchestrator.putSession
  simp

namespace OrchestratorOk

theorem step (ok : OrchestratorOk env keys (o.putSession epoch s))
    (change : Preserves env keys s s') :
    OrchestratorOk env keys (o.putSession epoch s') := by
  rw [← putSession_putSession o epoch s s']
  exact ok.put (Function.update_self ..) change

theorem ingestRemoteNonce (ok : OrchestratorOk env keys o) {msg : OracleMusigNonceMsg}
    (authentic : Authentic env keys o msg) :
    OrchestratorOk env keys (o.ingestRemoteNonce env msg) := by
  unfold OracleSigningOrchestrator.ingestRemoteNonce
  split
  · exact ok
  · next opened result =>
    obtain ⟨ok', found, signed⟩ := ok.openSession result
    have authentic' : Authentic env keys opened.2 msg := by
      unfold Authentic
      rw [signed]
      exact authentic
    have added := ok'.put found
      (preserves_addNonceEvidence msg opened.1 (authentic_secnonce ok' found authentic'))
    dsimp only
    split_ifs
    · exact ok'
    · exact added.congr rfl rfl rfl
    · exact added

theorem addContextNonces (nonces : List OracleMusigNonceMsg)
    (ok : OrchestratorOk env keys (o.putSession epoch s))
    (authentic : ∀ nonce ∈ nonces, Authentic env keys o nonce) :
    OrchestratorOk env keys (OracleSigningOrchestrator.addContextNonces env epoch nonces o
      s).2 := by
  induction nonces generalizing o s with
  | nil => exact ok
  | cons nonce rest ih =>
    have change : Preserves env keys s (env.addNonceEvidenceToSession nonce s).2 :=
      preserves_addNonceEvidence nonce s
        (authentic_secnonce ok (Function.update_self ..) (authentic nonce List.mem_cons_self))
    unfold OracleSigningOrchestrator.addContextNonces
    dsimp only
    split_ifs
    · exact ok.step change
    · refine ih ((ok.step change).congr rfl rfl rfl) fun later member => ?_
      exact authentic later (List.mem_cons_of_mem _ member)

theorem ingestRemoteContext (ok : OrchestratorOk env keys o) {msg : OracleMusigContextMsg}
    (authentic : ∀ nonce ∈ msg.nonce_evidence, Authentic env keys o nonce) :
    OrchestratorOk env keys (o.ingestRemoteContext env msg) := by
  unfold OracleSigningOrchestrator.ingestRemoteContext
  dsimp only
  split_ifs with invalid mismatch
  · exact ok
  · exact ok
  split
  · exact ok
  · next opened result =>
    obtain ⟨ok', found, signed⟩ := ok.openSession result
    have change : Preserves env keys opened.1 (o.seedSession msg.epoch opened.1) := by
      unfold OracleSigningOrchestrator.seedSession
      split_ifs
      · exact preserves_seed _ _
      · exact Preserves.refl _
    have ready := ok'.put found change
    have added := ready.addContextNonces msg.nonce_evidence fun nonce member => by
      unfold Authentic
      rw [signed]
      exact authentic nonce member
    split_ifs
    · exact ready
    · exact added
    · unfold OracleSigningOrchestrator.storePendingContext
      dsimp only
      split_ifs
      · exact added.congr rfl rfl rfl
      · exact added.congr rfl rfl rfl

theorem ingestRemotePartialSig (ok : OrchestratorOk env keys o) (msg : OracleMusigPartialSigMsg) :
    OrchestratorOk env keys (o.ingestRemotePartialSig env msg) := by
  unfold OracleSigningOrchestrator.ingestRemotePartialSig
  split_ifs
  · exact ok
  split
  · exact ok
  · next opened result =>
    obtain ⟨ok', found, _⟩ := ok.openSession result
    split
    · exact ok'
    split
    · next session applied =>
      refine ok'.put found ((preserves_tryApply applied).trans ?_)
      split_ifs
      · exact preserves_aggregateSignature session
      · exact Preserves.refl session
    · split_ifs
      · unfold OracleSigningOrchestrator.bufferPendingPartialSig
        dsimp only
        split_ifs <;> exact ok'.congr rfl rfl rfl
      · exact ok'

theorem setEpochSelectionSeed (ok : OrchestratorOk env keys o) (epoch : ℤ) (seed : Hash) :
    OrchestratorOk env keys (o.setEpochSelectionSeed epoch seed) := by
  unfold OracleSigningOrchestrator.setEpochSelectionSeed
  split_ifs
  · exact ok
  dsimp only
  split
  · exact ok.congr rfl rfl rfl
  · next session found => exact (ok.put found (preserves_seed session seed)).congr rfl rfl rfl

end OrchestratorOk

/-! Ticks. -/

/-- The invariant while a tick works on the epoch's session. -/
def TickOk (env : OracleEnv) (keys : ℕ → Option Bytes) (tick : Tick) (state : TickState) : Prop :=
  OrchestratorOk env keys (state.2.putSession tick.epoch state.1)

section Tick

variable {tick : Tick} {state : TickState}

theorem TickOk.step (ok : TickOk env keys tick state) (change : Preserves env keys state.1 s')
    (sessions : o'.m_signing_sessions = state.2.m_signing_sessions)
    (attempts : o'.m_epoch_attempts = state.2.m_epoch_attempts)
    (signed : o'.signed_nonces = state.2.signed_nonces) : TickOk env keys tick (s', o') := by
  refine (OrchestratorOk.step ok change).congr ?_ attempts signed
  dsimp only [OracleSigningOrchestrator.putSession]
  rw [sessions]

theorem TickOk.session (ok : TickOk env keys tick state) :
    state.1.m_epoch = tick.epoch ∧ state.1.m_min_signers = configuredMinSigners env := by
  have session := OrchestratorOk.sessions ok tick.epoch state.1 (Function.update_self ..)
  exact ⟨session.ofEpoch, session.signers⟩

theorem tickOk_getOrCreate (ok : OrchestratorOk env keys o) (tick : Tick) :
    TickOk env keys tick (o.getOrCreateSigningSession env tick) := by
  unfold OracleSigningOrchestrator.getOrCreateSigningSession
  split
  · next session found => exact ok.put found (Preserves.refl session)
  · next absent =>
    unfold TickOk
    dsimp only
    rw [putSession_putSession]
    exact ok.putNew absent _

theorem TickOk.restart (ok : TickOk env keys tick state) :
    TickOk env keys tick (state.2.restartEpochAttemptIfNeeded env tick state.1) := by
  unfold OracleSigningOrchestrator.restartEpochAttemptIfNeeded
  dsimp only
  split_ifs with failed exhausted
  · exact ok
  · exact ok
  have session := OrchestratorOk.sessions ok tick.epoch state.1 (Function.update_self ..)
  unfold TickOk
  refine OrchestratorOk.replace ok tick.epoch
    (state.2.newSession env tick.epoch (state.2.m_epoch_attempts tick.epoch + 1)
      (OracleSigningOrchestrator.creationHeight env tick)) ?_ ?_ ⟨rfl, ?_, rfl,
        newSession_ok ..⟩ (fun msg member _ => member) ?_
  · dsimp only [OracleSigningOrchestrator.putSession]
    simp
  · intro other different
    exact Function.update_of_ne different ..
  · exact (Function.update_self tick.epoch _ state.2.m_epoch_attempts).symm
  · -- what was signed belongs to the attempts before
    intro msg member same
    obtain ⟨t, there, logged⟩ := OrchestratorOk.logged ok msg member
    rw [same] at there
    have current : t = state.1 := by
      rw [← Option.some.injEq, ← there]
      exact Function.update_self ..
    have earlier : msg.attempt_id ≤ state.2.m_epoch_attempts tick.epoch := by
      have attempt : state.1.m_attempt_id = state.2.m_epoch_attempts tick.epoch := session.attempt
      rw [← attempt, ← current]
      exact logged.1
    constructor
    · exact Nat.le_succ_of_le earlier
    · intro attempt
      exact absurd attempt (Nat.ne_of_lt (Nat.lt_succ_of_le earlier))

theorem signNonce_eq_some {key pubnonce : Bytes} {id : OracleId} {attempt : ℕ}
    {msg : OracleMusigNonceMsg} (signed : signNonce env tick key id pubnonce attempt = some msg) :
    msg.epoch = tick.epoch ∧ msg.attempt_id = attempt ∧ msg.oracle_id = id := by
  unfold signNonce at signed
  obtain ⟨serialized, _, signed⟩ := Option.bind_eq_some_iff.mp signed
  obtain ⟨signature, _, rfl⟩ := Option.map_eq_some_iff.mp signed
  exact ⟨rfl, rfl, rfl⟩

theorem TickOk.localNonce (assumptions : CeremonyAssumptions env keys)
    (ok : TickOk env keys tick state)
    (cache : Bytes) (oid : ℕ) :
    TickOk env keys tick (localNonce env keys tick cache state oid) := by
  unfold Oracle.localNonce
  split
  · exact ok
  split
  · exact ok
  next key found =>
  obtain ⟨held, valid⟩ := Option.filter_eq_some_iff.mp found
  split
  · exact ok
  next pubkey parsed =>
  have change : Preserves env keys state.1
      (makeNonce env (oid8 oid) key pubkey cache (tick.secrand oid) state.1) :=
    preserves_makeNonce assumptions held valid parsed state.1
  rcases addLocalNonce_cases env tick cache key pubkey oid state with
    unrecorded | ⟨pubnonce, msg, made, signed, recorded⟩
  · rw [unrecorded]
    exact ok.step change rfl rfl rfl
  rw [recorded]
  obtain ⟨msgEpoch, msgAttempt, msgId⟩ := signNonce_eq_some signed
  have stepped : TickOk env keys tick
      (makeNonce env (oid8 oid) key pubkey cache (tick.secrand oid) state.1, state.2) :=
    ok.step change rfl rfl rfl
  have current := OrchestratorOk.sessions stepped tick.epoch _ (Function.update_self ..)
  refine OrchestratorOk.replace stepped tick.epoch _ (Function.update_idem ..).symm (fun _ _ => rfl)
    (current.congr rfl) ?_ ?_
  · intro other member different
    rcases List.mem_cons.mp member with rfl | earlier
    · exact absurd msgEpoch different
    · exact earlier
  · intro other member same
    rcases List.mem_cons.mp member with rfl | earlier
    · refine ⟨le_of_eq msgAttempt, fun _ _ => ?_⟩
      rw [msgId]
      exact (makeNonce_of_made made).1
    · obtain ⟨t, there, logged⟩ := OrchestratorOk.logged stepped other earlier
      rw [same] at there
      have found := Function.update_self tick.epoch
        (some (makeNonce env (oid8 oid) key pubkey cache (tick.secrand oid) state.1))
          state.2.m_signing_sessions
      rw [← Option.some.inj (found.symm.trans there)] at logged
      exact logged

private theorem TickOk.foldl {β : Type} {step : TickState → β → TickState}
    (each : ∀ state b, TickOk env keys tick state → TickOk env keys tick (step state b))
    (items : List β)
    (ok : TickOk env keys tick state) : TickOk env keys tick (items.foldl step state) := by
  induction items generalizing state with
  | nil => exact ok
  | cons b rest ih => exact ih (each state b ok)

theorem TickOk.generateLocalNonces (assumptions : CeremonyAssumptions env keys)
    (ok : TickOk env keys tick state) :
    TickOk env keys tick (generateLocalNonces env keys tick state) := by
  unfold Oracle.generateLocalNonces
  split
  · exact ok
  split
  · exact ok
  · next aggregate _ =>
    exact ok.foldl (fun _ oid ok => ok.localNonce assumptions aggregate.2 oid) tick.local_ids

theorem TickOk.localPartialSig (assumptions : CeremonyAssumptions env keys)
    (ok : TickOk env keys tick state) (participants : List OracleId) (oid : ℕ) :
    TickOk env keys tick (localPartialSig env keys tick participants state oid) := by
  unfold Oracle.localPartialSig
  split
  · exact ok
  split
  · exact ok
  next key found =>
  obtain ⟨held, valid⟩ := Option.filter_eq_some_iff.mp found
  split
  · exact ok
  obtain ⟨sessions, attempts, signed, _⟩ := addLocalPartialSig_frame env tick key (oid8 oid) state
  have change := preserves_makePartialSig assumptions held valid state.1
  rw [← addLocalPartialSig_session env tick] at change
  exact ok.step change sessions attempts signed

private theorem validated_of_selected {context : OracleMusigContextMsg}
    (selected : selectReadyContextProposal env tick state = some context) :
    env.validateContextProposal tick.now context state.1 = true := by
  unfold selectReadyContextProposal at selected
  dsimp only at selected
  generalize order : env.sortOracleIdsByEpochSeed env.consensusOracleIdsForSigning tick.epoch
    state.1.m_epoch_selection_seed = proposers at selected
  generalize ready : List.filter _ _ = candidates at selected
  -- the best so far is always one of the candidates
  have chosen : ∀ (msgs : List OracleMusigContextMsg) (best : Option OracleMusigContextMsg),
      (∀ msg ∈ best, msg ∈ candidates) → (∀ msg ∈ msgs, msg ∈ candidates) →
      ∀ msg ∈ msgs.foldl (fun best msg =>
        if betterContext (fun msg => proposers.idxOf msg.proposer_id) best msg then some msg
        else best) best,
        msg ∈ candidates := by
    intro msgs
    induction msgs with
    | nil => exact fun best inside _ => inside
    | cons first rest ih =>
      intro best inside listed
      refine ih _ ?_ fun msg member => listed msg (List.mem_cons_of_mem _ member)
      intro msg picked
      dsimp only at picked
      split_ifs at picked
      · rw [← Option.some.inj picked]
        exact listed first List.mem_cons_self
      · exact inside msg picked
  have member := chosen candidates none (by simp) (fun _ member => member) context selected
  rw [← ready, List.mem_filter] at member
  simp only [Bool.and_eq_true] at member
  exact member.2.1.2

theorem TickOk.signContext (assumptions : CeremonyAssumptions env keys)
    (ok : TickOk env keys tick state)
    {context : OracleMusigContextMsg} (valid : ContextOk env context)
    (complete : state.1.m_state = .noncesComplete) :
    TickOk env keys tick (signContext env keys tick context state).2 := by
  have change :=
    preserves_freezeParticipants assumptions tick valid complete ok.session.2 ok.session.1
  have frozen : TickOk env keys tick ((freezeParticipants env tick context state.1).2, state.2) :=
    ok.step change rfl rfl rfl
  unfold Oracle.signContext
  dsimp only
  split
  · exact frozen
  · exact frozen
  · split
    · exact frozen
    · exact frozen.foldl (fun _ oid ok => ok.localPartialSig assumptions _ oid) tick.local_ids

theorem TickOk.converge (assumptions : CeremonyAssumptions env keys)
    (ok : TickOk env keys tick state) :
    TickOk env keys tick (converge env keys tick state).2 := by
  unfold Oracle.converge
  split
  · exact ok
  next complete =>
  split
  · exact ok
  have seeded : TickOk env keys tick ({ state.1 with
      m_epoch_selection_seed := state.2.getSelectionSeedForEpoch env tick.epoch }, state.2) :=
    ok.step (preserves_seed _ _) rfl rfl rfl
  dsimp only
  split
  · exact seeded
  split
  · next context selected =>
    exact seeded.signContext assumptions (contextOk_of_validate (validated_of_selected selected))
      (by simpa using complete)
  · split
    · exact seeded
    · split
      · exact seeded.step (Preserves.refl _) rfl rfl rfl
      · exact seeded

theorem TickOk.drainAndAggregate (ok : TickOk env keys tick state) :
    TickOk env keys tick (drainAndAggregate env tick state) := by
  unfold Oracle.drainAndAggregate
  split
  · exact ok
  have frame : (takePending tick state).2.m_signing_sessions = state.2.m_signing_sessions ∧
      (takePending tick state).2.m_epoch_attempts = state.2.m_epoch_attempts ∧
      (takePending tick state).2.signed_nonces = state.2.signed_nonces := by
    unfold takePending
    dsimp only
    split_ifs <;> exact ⟨rfl, rfl, rfl⟩
  refine ok.step ?_ frame.1 frame.2.1 frame.2.2
  have applied : Preserves env keys state.1
      ((takePending tick state).1.foldl (applyPartialSig env) state.1) :=
    Preserves.foldl preserves_applyPartialSig (takePending tick state).1 state.1
  split
  · exact applied.trans (preserves_aggregateSignature _)
  · exact applied

theorem TickOk.tickSession (assumptions : CeremonyAssumptions env keys)
    (ok : TickOk env keys tick state) :
    TickOk env keys tick (tickSession env keys tick state) := by
  unfold Oracle.tickSession
  dsimp only
  have seeded : TickOk env keys tick (seedTick env tick state) := by
    unfold seedTick
    split
    · exact ok.step (preserves_seed _ _) rfl rfl rfl
    · exact ok
  have converged := (seeded.generateLocalNonces assumptions).converge assumptions
  split
  · exact converged
  · exact converged.drainAndAggregate.step (preserves_checkTimeout _ _) rfl rfl rfl

end Tick

/-! Runs. -/

theorem OrchestratorOk.call (assumptions : CeremonyAssumptions env keys)
    (ok : OrchestratorOk env keys o)
    {call : Call} (unforged : Unforged env keys o call) :
    OrchestratorOk env keys (o.call env keys call) := by
  cases call with
  | ingestRemoteNonce msg => exact ok.ingestRemoteNonce unforged
  | ingestRemoteContext msg => exact ok.ingestRemoteContext unforged
  | ingestRemotePartialSig msg => exact ok.ingestRemotePartialSig msg
  | setEpochSelectionSeed epoch seed => exact ok.setEpochSelectionSeed epoch seed
  | tickEpochSession tick => exact ((tickOk_getOrCreate ok tick).restart).tickSession assumptions

theorem OrchestratorOk.run (assumptions : CeremonyAssumptions env keys)
    (ok : OrchestratorOk env keys o) {calls : List Call} (unforged : UnforgedRun env keys o calls) :
    OrchestratorOk env keys (o.run env keys calls) := by
  induction calls generalizing o with
  | nil => exact ok
  | cons call rest ih => exact ih (ok.call assumptions unforged.1) unforged.2

/-- Whatever the network sends, the bundle of a complete session is one that validation
accepts at every active height of its epoch, names exactly the frozen participants, as many as
required, and carries the consensus of their signed prices. -/
theorem complete_ceremony_sound (assumptions : CeremonyAssumptions env keys) {calls : List Call}
    (unforged : UnforgedRun env keys {} calls)
    (found : (OracleSigningOrchestrator.run env keys {} calls).m_signing_sessions epoch = some s)
    (complete : s.m_state = .complete) : s.m_epoch = epoch ∧ SoundBundle env s := by
  have ok := OrchestratorOk.fresh.run assumptions unforged
  have session := ok.sessions epoch s found
  exact ⟨session.ofEpoch, soundBundle_of_complete assumptions session.ok complete⟩

end Proofs

/-! A network of two oracles, both required, with activation within epoch 1. -/

namespace Sample

open Consensus (Params)

def publicKey (tag : UInt8) : Bytes := 2 :: List.replicate 32 tag

def words (bytes : Bytes) : List ℕ := bytes.length :: bytes.map UInt8.toNat

def nonceWords (msg : OracleMusigNonceMsg) : List ℕ :=
  [msg.epoch.toNat, msg.attempt_id, msg.oracle_id] ++ words msg.pubnonce ++ words msg.signature

def priceWords (msg : COraclePriceMessage) : List ℕ :=
  [msg.oracle_id, msg.price_micro_usd, msg.timestamp.toNat] ++ words msg.schnorr_sig

/-- The hashed fields as numbers, the domain first. -/
def inputWords : HashInput → List ℕ
  | .priceAttestation id price timestamp => [0, id, price, timestamp.toNat]
  | .nonceMsg chain epoch attempt id pubnonce =>
    [1, chain, epoch.toNat, attempt, id] ++ words pubnonce
  | .partialSigMsg chain epoch attempt version context id sig =>
    [2, chain, epoch.toNat, attempt, version, context, id] ++ words sig
  | .contextProposal chain msg =>
    [3, chain, msg.epoch.toNat, msg.attempt_id, msg.context_version, msg.epoch_selection_seed,
      msg.proposer_id] ++ msg.participant_ids.map Fin.val ++
      [msg.nonce_set_hash, msg.quote_set_hash, msg.consensus_price, msg.consensus_timestamp.toNat,
        msg.session_context_id] ++ msg.nonce_evidence.flatMap nonceWords ++
          msg.price_evidence.flatMap priceWords
  | .quoteSet chain epoch quotes =>
    4 :: chain :: epoch.toNat :: quotes.flatMap fun quote => [quote.1, quote.2.1, quote.2.2.1.toNat]
  | .nonceSet chain epoch attempt nonces =>
    [5, chain, epoch.toNat, attempt] ++ nonces.flatMap fun nonce => nonce.1.val :: words nonce.2
  | .sessionContext chain epoch attempt seed version message bitmap nonces =>
    [6, chain, epoch.toNat, attempt, seed, version, message, nonces] ++ words bitmap
  | .oracleBundle chain epoch price timestamp => [7, chain, epoch.toNat, price, timestamp.toNat]
  | .epochSelection chain seed epoch id => [8, chain, seed, epoch.toNat, id]

def digest (input : HashInput) : Hash :=
  (inputWords input).foldl (fun total word => total * 2 ^ 64 + (word + 1)) 0

def signature (tag : UInt8) (hash : Hash) : Bytes :=
  tag :: (List.range 63).map fun i => UInt8.ofNat (hash / 256 ^ i)

/-- Keys are one byte, and an aggregate signature says whether it was made from the nonces of the
session. -/
def curve : Secp256k1 :=
  { Secp256k1.transparent with
    getPubKey := fun key => publicKey (key.headD 0)
    signSchnorr := fun key hash => some (signature (key.headD 0) hash)
    isFullyValid := fun xonly => xonly.length = 32
    verifySchnorr := fun xonly hash sig => sig = signature (xonly.headD 0) hash
    partialSigSerialize := fun sig => some (sig.take 32)
    partialSigParse := fun serialized => some (serialized ++ serialized ++ serialized.take 2)
    partialSigAgg := fun session sigs =>
      some ((if sigs.flatten = session then 1 else 0) :: List.replicate 63 0)
    schnorrsigVerify := fun sig _ _ => sig.headD 0 = 1 }

theorem curve_sound : curve.Sound where
  partialSign_verifies := by
    intro _ _ _ _ _ _ _ secnonce pubnonce sig _ _ made signed
    simp only [curve, Secp256k1.transparent, Option.some.injEq, Prod.mk.injEq] at made signed
    simp [curve, Secp256k1.transparent, ← signed, ← made.1, ← made.2]
  aggregate_verifies := by
    intro shares _ _ _ aggnonce session sig _ nonces processed verified aggregated
    have same : shares.map Share.sig = shares.map Share.pubnonce :=
      List.map_congr_left fun share member => by
        simpa [curve, Secp256k1.transparent] using verified share member
    simp only [curve, Secp256k1.transparent, Option.some.injEq] at nonces processed aggregated
    rw [same, if_pos (nonces.trans processed)] at aggregated
    rw [← aggregated]
    simp [curve]

def params : Params :=
  { hashGenesisBlock := 1, nDDOracleEpochBlocks := 40, nOracleTotalOracles := 2
    nOraclePubkeyCount := 2, nOracleConsensusRequired := 2, nDigiDollarMuSig2Height := 45
    vOraclePublicKeys := [xonly (publicKey 10), xonly (publicKey 11)]
    vOracleCompressedPublicKeys := [publicKey 10, publicKey 11] }

def env : OracleEnv where
  chain :=
    { consensus := params
      vOracleNodes := [⟨0, publicKey 10, true⟩, ⟨1, publicKey 11, true⟩]
      configured := by decide +kernel
      aligned := by decide +kernel
      compressed := by decide +kernel }
  secp := curve
  sha := digest

/-- The node runs oracle 0. -/
def keys : ℕ → Option Bytes := fun oid => if oid = 0 then some [10] else none

theorem held_iff (id : OracleId) : Held env keys id ↔ id = 0 := by
  constructor
  · rintro ⟨oid, key, found, _, rfl⟩
    unfold keys at found
    split_ifs at found with zero
    rw [zero]
    rfl
  · rintro rfl
    exact ⟨0, [10], rfl, by decide, rfl⟩

theorem assumptions : CeremonyAssumptions env keys where
  curve := curve_sound
  configured := by
    intro oid key found _
    unfold keys at found
    split_ifs at found with zero
    rw [zero, ← Option.some.inj found]
    exact ⟨⟨0, publicKey 10, true⟩, by decide +kernel, by decide +kernel⟩
  aggregates := by
    intro ids nodup length authorized
    have small : ∀ id ∈ ids, id ∈ ([0, 1] : List OracleId) := by
      intro id member
      have active := env.active_of_authorized (authorized id member)
      have : (id.val : ℤ) < 2 := active
      have cases : id.val = 0 ∨ id.val = 1 := by omega
      rcases cases with zero | one
      · simp [show id = 0 from Fin.ext zero]
      · simp [show id = 1 from Fin.ext one]
    have both : ids.Perm [0, 1] := by
      have two : (ids.length : ℤ) = 2 := length
      exact (List.subperm_of_subset nodup small).perm_of_length_le (by simp; omega)
    have same : sortedIds ids = sortedIds [0, 1] := by
      unfold sortedIds
      simp only [both.mem_iff]
    have sample : (env.computeAggregatePubkey [0, 1]).isSome := by decide +kernel
    unfold OracleEnv.computeAggregatePubkey at sample ⊢
    rw [same]
    exact sample

def price (id amount : ℕ) : COraclePriceMessage where
  oracle_id := id
  price_micro_usd := amount
  timestamp := 5000
  block_height := 40
  nonce := 0
  oracle_pubkey := xonly (publicKey (10 + UInt8.ofNat id))
  schnorr_sig := signature (10 + UInt8.ofNat id) (digest (.priceAttestation id amount 5000))

def tick (height : ℤ) (random : UInt8) : Tick where
  epoch := 1
  block_height := height
  now := 5000
  local_ids := [0]
  secrand := fun _ => List.replicate 66 random
  pending := some [price 0 20000, price 1 20010]

/-- The nonce message of an oracle for the first attempt of epoch 1. -/
def nonceOf (id : OracleId) (tag random : UInt8) : OracleMusigNonceMsg :=
  let msg : OracleMusigNonceMsg := ⟨1, 0, id, List.replicate 66 random, []⟩
  { msg with signature := signature tag (env.nonceSignatureHash msg) }

/-- The partial signature of oracle 1 for the context that the node signs. -/
def remotePartialSig (o : OracleSigningOrchestrator) : OracleMusigPartialSigMsg :=
  ⟨1, 0, 2, (o.m_signing_sessions 1).elim 0 (·.m_session_context_id), 1, List.replicate 32 31, []⟩

/-- Nonces are exchanged at height 40, the context is proposed at 42 and signed at 43. -/
def signingCalls : List Call :=
  [.tickEpochSession (tick 40 30), .ingestRemoteNonce (nonceOf 1 11 31),
    .tickEpochSession (tick 42 30), .tickEpochSession (tick 43 30)]

def calls : List Call :=
  signingCalls ++ [.ingestRemotePartialSig
    (remotePartialSig (OracleSigningOrchestrator.run env keys {} signingCalls))]

theorem calls_unforged : UnforgedRun env keys {} calls := by
  refine ⟨trivial, fun held => ?_, trivial, trivial, trivial, trivial⟩
  have local_ := (held_iff _).mp held
  exact absurd local_ (by decide)

theorem calls_sound : ∃ s, (OracleSigningOrchestrator.run env keys {} calls).m_signing_sessions 1 =
    some s ∧
    s.m_state = .complete ∧ s.m_epoch = 1 ∧ SoundBundle env s := by
  have present : ((OracleSigningOrchestrator.run env keys {} calls).m_signing_sessions 1).any
      (fun s => s.m_state = .complete) = true := by decide +kernel
  obtain ⟨s, found, complete⟩ := (Option.any_eq_true _ _).mp present
  have state : s.m_state = .complete := by simpa using complete
  exact ⟨s, found, state, complete_ceremony_sound assumptions calls_unforged found state⟩

/-- The same calls after a restart, when a nonce message that the node signed before the
restart comes back first. -/
def replayedCalls : List Call := .ingestRemoteNonce (nonceOf 0 10 29) :: signingCalls

/-- Two bundles of complete sessions that are refused in their epoch: one at a height before
activation, and one at an active height, made from a nonce that the node signed earlier and
whose secret it no longer has. -/
theorem complete_bundle_refused :
    (((OracleSigningOrchestrator.run env keys {} calls).m_signing_sessions 1).any fun s =>
      s.m_state = .complete && getCurrentEpoch env.params 44 = s.m_epoch &&
        env.validateMuSig2Bundle (s.bundle env) 44 =
          .error "v0x03 roster activation height not reached") = true ∧
    nonceOf 0 10 29 ∈
      (OracleSigningOrchestrator.run env keys {} [.tickEpochSession (tick 40 29)]).signed_nonces ∧
    (((OracleSigningOrchestrator.run env keys {} (replayedCalls ++ [.ingestRemotePartialSig
        (remotePartialSig (OracleSigningOrchestrator.run env keys {}
          replayedCalls))])).m_signing_sessions 1).any
      fun s => s.m_state = .complete && getCurrentEpoch env.params 45 = s.m_epoch &&
        isMuSig2OracleActive env.params 45 &&
        env.validateMuSig2Bundle (s.bundle env) 45 =
          .error "v0x03 aggregate signature verification failed") =
      true := by
  refine ⟨?_, ?_, ?_⟩ <;> decide +kernel

end Sample

end DigiByte.Oracle
