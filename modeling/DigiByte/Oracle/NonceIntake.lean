import DigiByte.Library.Arrivals
import DigiByte.Oracle.Orchestrator

/-!
What nonce messages do to a session (`AddNonceEvidenceToSession`) and to the evidence that
is kept of them, in closed form.

The first public nonce of an oracle stays in the session. A later message of the same oracle
is answered like an accepted one, whatever nonce it carries, and replaces the earlier one in
the evidence.
-/

set_option autoImplicit false
set_option relaxedAutoImplicit false

namespace DigiByte.Oracle

open Script (Bytes)
open Library.Arrivals (firstStays firstStays_nil firstStays_append firstStays_of_held
  firstStays_of_absent latest latest_cons latest_nil)

section Intake

variable (env : OracleEnv) (s : MuSig2SigningSession) (msg : OracleMusigNonceMsg)

/-- The checks of a nonce message against the epoch, the attempt and the key of its oracle. -/
def OracleEnv.nonceVerifies : Bool :=
  msg.isValid && msg.epoch = s.m_epoch && msg.attempt_id = s.m_attempt_id &&
    env.isAuthorizedMuSig2OracleIdForRelay msg.oracle_id &&
    (env.chain.getOracleNode msg.oracle_id).any fun oracle_config =>
      env.verifyNonce msg (xonly oracle_config.pubkey)

/-- The session has been moved to collecting nonces, or can be. -/
def MuSig2SigningSession.opens : Bool :=
  s.m_state ≠ .created || (env.computeAggregatePubkey env.consensusOracleIdsForSigning).isSome

/-- The session still takes nonces of further oracles. -/
def MuSig2SigningSession.takesNonces : Bool :=
  !s.m_participants_frozen &&
    (s.m_state = .created || s.m_state = .noncesCollecting || s.m_state = .noncesComplete)

/-- The message carries a public nonce that the session would take from its oracle. -/
def OracleEnv.takesNonceOf : Bool :=
  s.takesNonces && msg.oracle_id.val < configuredMuSig2ActiveRosterSize env.params &&
    (env.secp.pubnonceParse msg.pubnonce).isSome

/-- The session answers the message as accepted: it has a nonce of the oracle or takes this one. -/
def OracleEnv.acceptsNonce : Bool :=
  env.nonceVerifies s msg && s.opens env &&
    ((s.m_pubnonces msg.oracle_id).isSome || env.takesNonceOf s msg)

/-- The public nonce that a message carries, under its oracle. -/
def OracleEnv.carriedNonce : List (OracleId × Bytes) :=
  ((env.secp.pubnonceParse msg.pubnonce).map fun pubnonce => (msg.oracle_id, pubnonce)).toList

/-- A session that differs in its public nonces, its state and its key cache only, and takes
nonces as before. -/
structure Intake (s s' : MuSig2SigningSession) (pubnonces : OracleMap Bytes) : Prop where
  differs : ∃ state cache,
    s' = { s with m_pubnonces := pubnonces, m_state := state, m_keyagg_cache := cache }
  opens : s'.opens env = s.opens env
  takes : s'.takesNonces = s.takesNonces

variable {env s} {s' s'' : MuSig2SigningSession} {pubnonces pubnonces' : OracleMap Bytes}

theorem mem_carriedNonce {nonce : OracleMusigNonceMsg} {id : OracleId} {pubnonce : Bytes} :
    (id, pubnonce) ∈ env.carriedNonce nonce ↔
      nonce.oracle_id = id ∧ env.secp.pubnonceParse nonce.pubnonce = some pubnonce := by
  unfold OracleEnv.carriedNonce
  rw [Option.mem_toList, Option.map_eq_some_iff]
  constructor
  · rintro ⟨_, parsed, same⟩
    cases same
    exact ⟨rfl, parsed⟩
  · rintro ⟨rfl, parsed⟩
    exact ⟨pubnonce, parsed, rfl⟩

theorem Intake.refl : Intake env s s s.m_pubnonces := ⟨⟨_, _, rfl⟩, rfl, rfl⟩

theorem Intake.trans (first : Intake env s s' pubnonces) (second : Intake env s' s'' pubnonces') :
    Intake env s s'' pubnonces' := by
  obtain ⟨_, _, rfl⟩ := first.differs
  obtain ⟨state, cache, rfl⟩ := second.differs
  exact ⟨⟨state, cache, rfl⟩, second.opens.trans first.opens, second.takes.trans first.takes⟩

theorem Intake.pubnonces_eq (intake : Intake env s s' pubnonces) : s'.m_pubnonces = pubnonces := by
  obtain ⟨_, _, rfl⟩ := intake.differs
  rfl

theorem Intake.nonceVerifies_eq (intake : Intake env s s' pubnonces) (msg : OracleMusigNonceMsg) :
    env.nonceVerifies s' msg = env.nonceVerifies s msg := by
  obtain ⟨_, _, rfl⟩ := intake.differs
  rfl

theorem Intake.takesNonceOf_eq (intake : Intake env s s' pubnonces) (msg : OracleMusigNonceMsg) :
    env.takesNonceOf s' msg = env.takesNonceOf s msg := by
  unfold OracleEnv.takesNonceOf
  rw [intake.takes]

private theorem initializeForNonces_eq (env : OracleEnv) (s : MuSig2SigningSession) :
    (s.opens env = false ∧ env.initializeForNonces s = none) ∨
      s.opens env = true ∧ ∃ ready, env.initializeForNonces s = some ready ∧
        ready.m_state ≠ .created ∧ Intake env s ready s.m_pubnonces := by
  by_cases created : s.m_state = .created
  · cases key : env.computeAggregatePubkey env.consensusOracleIdsForSigning with
    | none =>
      exact .inl (by simp [MuSig2SigningSession.opens, OracleEnv.initializeForNonces, created, key])
    | some aggregate =>
      refine .inr ⟨by simp [MuSig2SigningSession.opens, key],
        { s with m_keyagg_cache := aggregate.2, m_state := .noncesCollecting }, ?_, by simp,
        ⟨_, _, rfl⟩, ?_, ?_⟩
      · simp [OracleEnv.initializeForNonces, MuSig2SigningSession.initializePassive, created, key]
      · simp [MuSig2SigningSession.opens, key]
      · simp [MuSig2SigningSession.takesNonces, created]
  · exact .inr ⟨by simp [MuSig2SigningSession.opens, created], s,
      by simp [OracleEnv.initializeForNonces, created], created, .refl⟩

private theorem takesNonces_iff {ready : MuSig2SigningSession} (begun : ready.m_state ≠ .created) :
    ready.takesNonces = true ↔ ready.m_participants_frozen = false ∧
      (ready.m_state = .noncesCollecting ∨ ready.m_state = .noncesComplete) := by
  simp [MuSig2SigningSession.takesNonces, begun]

private theorem addPubnonce_cases {ready : MuSig2SigningSession} (begun : ready.m_state ≠ .created)
    {id : OracleId} (absent : ready.m_pubnonces id = none) (pubnonce : Bytes) :
    (¬ (ready.takesNonces = true ∧ MuSig2SigningSession.OnRoster env id) ∧
        ready.addPubnonce env id pubnonce = none) ∨
      ready.takesNonces = true ∧ MuSig2SigningSession.OnRoster env id ∧
        ∃ added, ready.addPubnonce env id pubnonce = some added ∧
          Intake env ready added (ready.m_pubnonces.insert id pubnonce) := by
  cases adding : ready.addPubnonce env id pubnonce with
  | none =>
    refine .inl ⟨?_, rfl⟩
    rintro ⟨takes, roster⟩
    obtain ⟨unfrozen, state⟩ := (takesNonces_iff begun).mp takes
    have isSome := MuSig2SigningSession.addPubnonce_isSome pubnonce state absent unfrozen roster
    rw [adding] at isSome
    cases isSome
  | some added =>
    obtain ⟨state, _, unfrozen, next, kept, rfl⟩ := MuSig2SigningSession.addPubnonce_eq_some adding
    have takes := (takesNonces_iff begun).mpr ⟨unfrozen, state⟩
    have later : next ≠ .created ∧ (next = .noncesCollecting ∨ next = .noncesComplete) := by
      rcases kept with rfl | rfl
      · exact ⟨begun, state⟩
      · simp
    refine .inr ⟨takes, MuSig2SigningSession.addPubnonce_roster adding, _, rfl, ⟨_, _, rfl⟩, ?_, ?_⟩
    · simp [MuSig2SigningSession.opens, later.1, begun]
    · rw [takes]
      exact (takesNonces_iff later.1).mpr ⟨unfrozen, later.2⟩

private theorem addNonceEvidenceToSession_of_verifies {msg : OracleMusigNonceMsg}
    (verifies : env.nonceVerifies s msg = true) :
    env.addNonceEvidenceToSession msg s =
      match env.initializeForNonces s with
      | none => (false, s)
      | some ready =>
        match (env.secp.pubnonceParse msg.pubnonce).bind (ready.addPubnonce env msg.oracle_id) with
        | some added => (true, added)
        | none => ((ready.m_pubnonces msg.oracle_id).isSome, ready) := by
  simp only [OracleEnv.nonceVerifies, Bool.and_eq_true, decide_eq_true_eq, Option.any_eq_true]
    at verifies
  obtain ⟨⟨⟨⟨valid, epoch⟩, attempt⟩, authorized⟩, oracle, node, verified⟩ := verifies
  have size : msg.pubnonce.length = 66 := by
    simp only [OracleMusigNonceMsg.isValid, Bool.and_eq_true, decide_eq_true_eq] at valid
    exact valid.1.1
  unfold OracleEnv.addNonceEvidenceToSession
  rw [if_neg (by simp [valid]), if_neg (not_not.mpr epoch), if_neg (not_not.mpr attempt),
    if_neg (by simp [authorized]), node]
  dsimp only
  rw [if_neg (by simp [verified])]
  cases env.initializeForNonces s with
  | none => rfl
  | some ready => exact if_neg (not_not.mpr size)

private theorem addNonceEvidenceToSession_of_not_verifies {msg : OracleMusigNonceMsg}
    (refused : env.nonceVerifies s msg = false) :
    env.addNonceEvidenceToSession msg s = (false, s) := by
  unfold OracleEnv.addNonceEvidenceToSession
  by_cases valid : msg.isValid = false
  · rw [if_pos valid]
  by_cases epoch : msg.epoch = s.m_epoch
  swap
  · rw [if_neg valid, if_pos epoch]
  by_cases attempt : msg.attempt_id = s.m_attempt_id
  swap
  · rw [if_neg valid, if_neg (not_not.mpr epoch), if_pos attempt]
  by_cases unauthorized : env.isAuthorizedMuSig2OracleIdForRelay msg.oracle_id = false
  · rw [if_neg valid, if_neg (not_not.mpr epoch), if_neg (not_not.mpr attempt), if_pos unauthorized]
  rw [if_neg valid, if_neg (not_not.mpr epoch), if_neg (not_not.mpr attempt), if_neg unauthorized]
  cases node : env.chain.getOracleNode msg.oracle_id with
  | none => rfl
  | some oracle =>
    have unverified : env.verifyNonce msg (xonly oracle.pubkey) = false := by
      simpa [OracleEnv.nonceVerifies, valid, epoch, attempt, unauthorized, node] using refused
    exact if_pos unverified

private theorem addPubnonce_of_held {ready : MuSig2SigningSession} {id : OracleId}
    (held : (ready.m_pubnonces id).isSome) (carried : Option Bytes) :
    carried.bind (ready.addPubnonce env id) = none := by
  rw [Option.bind_eq_none_iff]
  intro pubnonce _
  rw [Option.eq_none_iff_forall_not_mem]
  intro added adding
  rw [(MuSig2SigningSession.addPubnonce_eq_some adding).2.1] at held
  cases held

private theorem firstStays_carriedNonce_of_held {msg : OracleMusigNonceMsg}
    (held : (s.m_pubnonces msg.oracle_id).isSome) :
    firstStays s.m_pubnonces (env.carriedNonce msg) = s.m_pubnonces := by
  unfold OracleEnv.carriedNonce
  cases env.secp.pubnonceParse msg.pubnonce with
  | none => exact firstStays_nil _
  | some pubnonce => exact firstStays_of_held held pubnonce

theorem addNonceEvidenceToSession_eq (env : OracleEnv) (msg : OracleMusigNonceMsg)
    (s : MuSig2SigningSession) :
    ∃ s', env.addNonceEvidenceToSession msg s = (env.acceptsNonce s msg, s') ∧
      Intake env s s' (if env.acceptsNonce s msg then firstStays s.m_pubnonces
        (env.carriedNonce msg)
        else s.m_pubnonces) := by
  cases verifies : env.nonceVerifies s msg with
  | false =>
    have refused : env.acceptsNonce s msg = false := by simp [OracleEnv.acceptsNonce, verifies]
    rw [refused, addNonceEvidenceToSession_of_not_verifies verifies]
    exact ⟨s, rfl, .refl⟩
  | true =>
  rw [addNonceEvidenceToSession_of_verifies verifies]
  rcases initializeForNonces_eq env s with ⟨closed, initialized⟩ |
    ⟨opened, ready, initialized, begun, intake⟩
  · have refused : env.acceptsNonce s msg = false := by simp [OracleEnv.acceptsNonce, closed]
    rw [refused, initialized]
    exact ⟨s, rfl, .refl⟩
  rw [initialized]
  dsimp only
  cases known : s.m_pubnonces msg.oracle_id with
  | some held =>
    -- a nonce of the oracle is there: it stays, whatever the message carries
    have accepted : env.acceptsNonce s msg = true := by
      simp [OracleEnv.acceptsNonce, verifies, opened, known]
    have held : (s.m_pubnonces msg.oracle_id).isSome := by rw [known]; rfl
    have present : (ready.m_pubnonces msg.oracle_id).isSome := by rwa [intake.pubnonces_eq]
    rw [accepted, addPubnonce_of_held present, if_pos rfl, firstStays_carriedNonce_of_held held]
    exact ⟨ready, by rw [present], intake⟩
  | none =>
    have absent : ready.m_pubnonces msg.oracle_id = none := by rw [intake.pubnonces_eq, known]
    have accepts : env.acceptsNonce s msg = env.takesNonceOf s msg := by
      simp [OracleEnv.acceptsNonce, verifies, opened, known]
    rw [accepts]
    cases parsed : env.secp.pubnonceParse msg.pubnonce with
    | none =>
      have refused : env.takesNonceOf s msg = false := by simp [OracleEnv.takesNonceOf, parsed]
      rw [refused]
      exact ⟨ready, by rw [absent]; rfl, intake⟩
    | some pubnonce =>
      have taking : env.takesNonceOf s msg = true ↔
          ready.takesNonces = true ∧ MuSig2SigningSession.OnRoster env msg.oracle_id := by
        simp [OracleEnv.takesNonceOf, parsed, intake.takes, MuSig2SigningSession.OnRoster]
      dsimp only [Option.bind_some]
      rcases addPubnonce_cases begun absent pubnonce with ⟨closed, notAdded⟩ |
        ⟨takes, roster, added, adding, more⟩
      · have refused : env.takesNonceOf s msg = false := by
          rw [Bool.eq_false_iff]
          exact fun takes => closed (taking.mp takes)
        rw [refused, notAdded]
        exact ⟨ready, by rw [absent]; rfl, intake⟩
      · rw [taking.mpr ⟨takes, roster⟩, adding, if_pos rfl]
        refine ⟨added, rfl, ?_⟩
        have inserted : firstStays s.m_pubnonces (env.carriedNonce msg) =
            ready.m_pubnonces.insert msg.oracle_id pubnonce := by
          rw [intake.pubnonces_eq, OracleEnv.carriedNonce, parsed]
          exact firstStays_of_absent known pubnonce
        rw [inserted]
        exact intake.trans more

/-- A proposal that gets as far as its nonces. -/
def readsNonces (o : OracleSigningOrchestrator) (session : MuSig2SigningSession) (epoch : ℤ)
    (msg : OracleMusigContextMsg) : Bool :=
  msg.isValid &&
    (o.m_epoch_selection_seeds epoch = 0 ||
      o.m_epoch_selection_seeds epoch = msg.epoch_selection_seed) &&
    msg.attempt_id = session.m_attempt_id

/-- The messages of a list that are accepted, one after another, up to the first one that is not. -/
def OracleEnv.acceptedEvidence (env : OracleEnv) :
    MuSig2SigningSession → List OracleMusigNonceMsg → List OracleMusigNonceMsg
  | _, [] => []
  | s, nonce :: rest =>
    if env.acceptsNonce s nonce then
      nonce :: env.acceptedEvidence (env.addNonceEvidenceToSession nonce s).2 rest
    else []

/-- The session has the first nonce of each oracle. -/
def nonceKept (env : OracleEnv) (s : MuSig2SigningSession) (accepted : List OracleMusigNonceMsg) :
    OracleMap Bytes :=
  firstStays s.m_pubnonces (accepted.flatMap env.carriedNonce)

/-- The evidence has the last message of each oracle. -/
def evidenceKept (evidence : OracleMap OracleMusigNonceMsg) (accepted : List OracleMusigNonceMsg) :
    OracleMap OracleMusigNonceMsg := fun id =>
  (latest OracleMusigNonceMsg.oracle_id accepted id).or (evidence id)

private theorem evidenceKept_cons (evidence : OracleMap OracleMusigNonceMsg)
    (nonce : OracleMusigNonceMsg) (rest : List OracleMusigNonceMsg) :
    evidenceKept (evidence.insert nonce.oracle_id nonce) rest =
      evidenceKept evidence (nonce :: rest) := by
  funext id
  unfold evidenceKept
  rw [latest_cons, Option.or_assoc]
  by_cases same : nonce.oracle_id = id
  · subst same
    rw [OracleMap.insert_same, if_pos rfl]
    rfl
  · rw [OracleMap.insert_of_ne (Ne.symm same), if_neg same]
    rfl

private theorem evidenceKept_nil (evidence : OracleMap OracleMusigNonceMsg) :
    evidenceKept evidence [] = evidence := by
  funext id
  rw [evidenceKept, latest_nil, Option.none_or]

theorem addContextNonces_eq (env : OracleEnv) (epoch : ℤ) (o : OracleSigningOrchestrator)
    (s : MuSig2SigningSession) (nonces : List OracleMusigNonceMsg) :
    ∃ s', OracleSigningOrchestrator.addContextNonces env epoch nonces o s =
        (decide (env.acceptedEvidence s nonces = nonces), { o with
          m_signing_sessions := Function.update o.m_signing_sessions epoch (some s')
          m_nonce_evidence := Function.update o.m_nonce_evidence epoch
            (evidenceKept (o.m_nonce_evidence epoch) (env.acceptedEvidence s nonces)) }) ∧
      Intake env s s' (nonceKept env s (env.acceptedEvidence s nonces)) := by
  induction nonces generalizing o s with
  | nil =>
    refine ⟨s, ?_, ?_⟩
    · rw [OracleEnv.acceptedEvidence, evidenceKept_nil, Function.update_eq_self]
      rfl
    · rw [OracleEnv.acceptedEvidence, nonceKept, List.flatMap_nil, firstStays_nil]
      exact .refl
  | cons nonce rest ih =>
    obtain ⟨t, adding, taken⟩ := addNonceEvidenceToSession_eq env nonce s
    unfold OracleSigningOrchestrator.addContextNonces OracleEnv.acceptedEvidence
    rw [adding]
    cases answer : env.acceptsNonce s nonce with
    | false =>
      rw [answer] at taken
      refine ⟨t, ?_, ?_⟩
      · simp [evidenceKept_nil, OracleSigningOrchestrator.putSession]
      · simpa [nonceKept] using taken
    | true =>
      rw [answer, if_pos rfl] at taken
      obtain ⟨s', added, more⟩ := ih (o.putEvidence epoch nonce) t
      refine ⟨s', ?_, ?_⟩
      · have evidence : (o.putEvidence epoch nonce).m_nonce_evidence =
            Function.update o.m_nonce_evidence epoch
            ((o.m_nonce_evidence epoch).insert nonce.oracle_id nonce) := rfl
        simp only [Bool.true_eq_false, if_false, if_true, added, evidence, Function.update_self,
          Function.update_idem, evidenceKept_cons, List.cons.injEq, true_and]
        rfl
      · have extended : nonceKept env t (env.acceptedEvidence t rest) =
            nonceKept env s (nonce :: env.acceptedEvidence t rest) := by
          rw [nonceKept, nonceKept, List.flatMap_cons, firstStays_append, taken.pubnonces_eq]
        rw [extended] at more
        simpa using taken.trans more

end Intake

end DigiByte.Oracle
