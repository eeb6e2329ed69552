import DigiByte.Oracle.NodeSteps
import DigiByte.Oracle.NonceIntake

/-!
The nonce messages that a node keeps as evidence, against the nonces of its sessions.

A session keeps the first nonce of an oracle and the evidence the last accepted message.
They stay together exactly as long as no oracle is accepted with a second nonce. This is
shown here for every step of a node.
-/

set_option autoImplicit false
set_option relaxedAutoImplicit false

namespace DigiByte.Oracle

open Script (Bytes)
open Library.Arrivals (firstStays latest latest_eq_some latest_eq_none_iff mem_of_lookup)

section Carried

variable (env : OracleEnv)

/-- For each oracle with a nonce in the session, the message kept carries that nonce. -/
def Carried (evidence : OracleMap OracleMusigNonceMsg) (s : MuSig2SigningSession) : Prop :=
  ∀ id pubnonce, s.m_pubnonces id = some pubnonce →
    ∃ msg, evidence id = some msg ∧ msg.oracle_id = id ∧ msg.attempt_id = s.m_attempt_id ∧
      env.secp.pubnonceParse msg.pubnonce = some pubnonce

/-- The last message of each oracle carries the nonce that the session keeps of it. -/
def LastAgrees (s : MuSig2SigningSession) (accepted : List OracleMusigNonceMsg) : Prop :=
  ∀ id msg, latest OracleMusigNonceMsg.oracle_id accepted id = some msg →
    env.secp.pubnonceParse msg.pubnonce = nonceKept env s accepted id

variable {env} {s s' : MuSig2SigningSession} {evidence : OracleMap OracleMusigNonceMsg}

private theorem nonceKept_cons {nonce : OracleMusigNonceMsg} {rest : List OracleMusigNonceMsg}
    (accepted : env.acceptsNonce s nonce = true) :
    nonceKept env (env.addNonceEvidenceToSession nonce s).2 rest =
      nonceKept env s (nonce :: rest) := by
  obtain ⟨t, adding, taken⟩ := addNonceEvidenceToSession_eq env nonce s
  rw [accepted, if_pos rfl] at taken
  rw [adding, nonceKept, nonceKept, List.flatMap_cons, Library.Arrivals.firstStays_append,
    taken.pubnonces_eq]

private theorem nonceKept_isSome {nonces : List OracleMusigNonceMsg} {msg : OracleMusigNonceMsg}
    (member : msg ∈ env.acceptedEvidence s nonces) :
    (nonceKept env s (env.acceptedEvidence s nonces) msg.oracle_id).isSome := by
  induction nonces generalizing s with
  | nil => cases member
  | cons nonce rest ih =>
    unfold OracleEnv.acceptedEvidence at member ⊢
    split_ifs at member with accepted
    swap
    · cases member
    rw [if_pos accepted]
    rcases List.mem_cons.mp member with rfl | later
    · -- the session had a nonce of the oracle or takes this one
      simp only [OracleEnv.acceptsNonce, OracleEnv.takesNonceOf, Bool.and_eq_true, Bool.or_eq_true]
        at accepted
      unfold nonceKept firstStays
      rcases accepted.2 with held | ⟨_, parses⟩
      · rw [Option.isSome_or, held]
        rfl
      · obtain ⟨pubnonce, parsed⟩ := Option.isSome_iff_exists.mp parses
        rw [Option.isSome_or, List.flatMap_cons, OracleEnv.carriedNonce, parsed]
        simp
    · rw [← nonceKept_cons accepted]
      exact ih later

private theorem attempt_of_accepted {nonces : List OracleMusigNonceMsg} {msg : OracleMusigNonceMsg}
    (member : msg ∈ env.acceptedEvidence s nonces) : msg.attempt_id = s.m_attempt_id := by
  induction nonces generalizing s with
  | nil => cases member
  | cons nonce rest ih =>
    unfold OracleEnv.acceptedEvidence at member
    split_ifs at member with accepted
    swap
    · cases member
    rcases List.mem_cons.mp member with rfl | later
    · simp only [OracleEnv.acceptsNonce, OracleEnv.nonceVerifies, Bool.and_eq_true,
      decide_eq_true_eq] at accepted
      exact accepted.1.1.1.1.2
    · obtain ⟨t, adding, taken⟩ := addNonceEvidenceToSession_eq env nonce s
      have attempt := ih later
      rw [adding] at attempt
      obtain ⟨_, _, rfl⟩ := taken.differs
      exact attempt

/-- Accepted messages keep the evidence in step with the session exactly when the last one of
each oracle agrees with its nonce. -/
theorem carried_accepted_iff {nonces : List OracleMusigNonceMsg} (carried : Carried env evidence s)
    (intake : Intake env s s' (nonceKept env s (env.acceptedEvidence s nonces))) :
    Carried env (evidenceKept evidence (env.acceptedEvidence s nonces)) s' ↔
      LastAgrees env s (env.acceptedEvidence s nonces) := by
  constructor
  · intro carried' id msg last
    obtain ⟨member, rfl⟩ := latest_eq_some last
    obtain ⟨pubnonce, kept⟩ := Option.isSome_iff_exists.mp (nonceKept_isSome member)
    obtain ⟨other, found, _, _, parsed⟩ :=
      carried' msg.oracle_id pubnonce (by rw [intake.pubnonces_eq, kept])
    rw [evidenceKept, last, Option.some_or] at found
    rw [kept, Option.some.inj found, parsed]
  · intro agrees id pubnonce kept
    have attempt : s'.m_attempt_id = s.m_attempt_id := by
      obtain ⟨_, _, rfl⟩ := intake.differs
      rfl
    rw [intake.pubnonces_eq] at kept
    unfold evidenceKept
    cases last : latest OracleMusigNonceMsg.oracle_id (env.acceptedEvidence s nonces) id with
    | some msg =>
      obtain ⟨member, oracle⟩ := latest_eq_some last
      refine ⟨msg, rfl, oracle, ?_, ?_⟩
      · rw [attempt, attempt_of_accepted member]
      · rw [agrees id msg last, kept]
    | none =>
      -- no message of the oracle was accepted, so its nonce is the one it had
      have absent : ((env.acceptedEvidence s nonces).flatMap env.carriedNonce).lookup id =
          none := by
        rw [Option.eq_none_iff_forall_not_mem]
        intro other found
        obtain ⟨msg, member, carries⟩ := List.mem_flatMap.mp (mem_of_lookup found)
        exact latest_eq_none_iff.mp last msg member (mem_carriedNonce.mp carries).1
      rw [nonceKept, firstStays, absent, Option.or_none] at kept
      rw [Option.none_or, attempt]
      exact carried id pubnonce kept

theorem lastAgrees_of_no_nonce {nonce : OracleMusigNonceMsg}
    (first : s.m_pubnonces nonce.oracle_id = none) :
    LastAgrees env s (env.acceptedEvidence s [nonce]) := by
  intro id msg last
  obtain ⟨member, rfl⟩ := latest_eq_some last
  unfold OracleEnv.acceptedEvidence at member ⊢
  split_ifs at member ⊢ with accepted
  · obtain rfl := List.mem_singleton.mp member
    rw [nonceKept, firstStays, first, Option.none_or, OracleEnv.acceptedEvidence,
      List.flatMap_singleton, OracleEnv.carriedNonce]
    cases env.secp.pubnonceParse msg.pubnonce with
    | none => rfl
    | some pubnonce => simp
  · cases member

end Carried

/-! What a step does to the evidence. -/

section Matching

variable (env : OracleEnv) (keys : ℕ → Option Bytes)

/-- The evidence of each epoch carries the nonces of its session. -/
def EvidenceMatches (o : OracleSigningOrchestrator) : Prop :=
  ∀ epoch s, o.m_signing_sessions epoch = some s → Carried env (o.m_nonce_evidence epoch) s

/-- A nonce that the library makes can be serialized and parses back as itself, and the
usable keys of the node sign. -/
structure NonceLibrary : Prop where
  serializes : ∀ {secrand key pubkey cache secnonce pubnonce : Bytes},
    env.secp.nonceGen secrand key pubkey cache = some (secnonce, pubnonce) →
      ∃ ser_nonce, env.secp.pubnonceSerialize pubnonce = some ser_nonce ∧
        env.secp.pubnonceParse ser_nonce = some pubnonce
  signs : ∀ {oid : ℕ} {key : Bytes}, keys oid = some key → env.secp.keyIsValid key = true →
    ∀ hash, (env.sign key hash).isSome

/-- The step brings no oracle a second nonce: the last message accepted from each oracle, or
the nonce that it makes at its turn, is the nonce that the session keeps. -/
def NodeStep.Agrees (o : OracleSigningOrchestrator) : NodeStep → Prop
  | .ingestRemoteNonce msg => ∀ opened, o.openSession env msg.epoch msg.attempt_id = some opened →
      LastAgrees env opened.1 (env.acceptedEvidence opened.1 [msg])
  | .ingestRemoteContext msg => ∀ opened, o.openSession env msg.epoch msg.attempt_id = some opened →
      readsNonces o opened.1 msg.epoch msg = true →
        LastAgrees env (o.seedSession msg.epoch opened.1)
          (env.acceptedEvidence (o.seedSession msg.epoch opened.1) msg.nonce_evidence)
  | .localNonce tick oid => ∀ s, o.m_signing_sessions tick.epoch = some s →
      ∀ pubnonce, madeNonce env keys tick oid (s, o) = some pubnonce →
        ∀ held, s.m_pubnonces (oid8 oid) = some held → held = pubnonce
  | _ => True

variable {env keys} {o o' : OracleSigningOrchestrator} {s s' s'' : MuSig2SigningSession} {epoch : ℤ}

private theorem EvidenceMatches.replace_iff {kept : OracleMap OracleMusigNonceMsg}
    (matching : EvidenceMatches env o)
    (sessions : o'.m_signing_sessions = Function.update o.m_signing_sessions epoch (some s'))
    (evidence : o'.m_nonce_evidence = Function.update o.m_nonce_evidence epoch kept) :
    EvidenceMatches env o' ↔ Carried env kept s' := by
  constructor
  · intro matching'
    have carried := matching' epoch s' (by rw [sessions, Function.update_self])
    rwa [evidence, Function.update_self] at carried
  · intro carried other t found
    rw [sessions] at found
    rw [evidence]
    by_cases same : other = epoch
    · rw [same, Function.update_self, Option.some.injEq] at found
      rw [same, Function.update_self, ← found]
      exact carried
    · rw [Function.update_of_ne same] at found ⊢
      exact matching other t found

private theorem EvidenceMatches.put (matching : EvidenceMatches env o)
    (sessions : o'.m_signing_sessions = Function.update o.m_signing_sessions epoch (some s'))
    (evidence : o'.m_nonce_evidence = o.m_nonce_evidence)
    (carried : Carried env (o.m_nonce_evidence epoch) s') : EvidenceMatches env o' :=
  (matching.replace_iff sessions (evidence.trans (Function.update_eq_self ..).symm)).mpr carried

/-- A change of a session that brings no nonce. -/
private structure Narrows (s s' : MuSig2SigningSession) : Prop where
  attempt : s'.m_attempt_id = s.m_attempt_id
  pubnonces : ∀ id pubnonce, s'.m_pubnonces id = some pubnonce → s.m_pubnonces id = some pubnonce

private theorem Narrows.of_eq (attempt : s'.m_attempt_id = s.m_attempt_id)
    (pubnonces : s'.m_pubnonces = s.m_pubnonces) : Narrows s s' :=
  ⟨attempt, fun id pubnonce found => by rwa [pubnonces] at found⟩

private theorem Narrows.trans (first : Narrows s s') (second : Narrows s' s'') : Narrows s s'' :=
  ⟨second.attempt.trans first.attempt, fun id pubnonce found =>
    first.pubnonces id pubnonce (second.pubnonces id pubnonce found)⟩

private theorem Carried.narrows {evidence : OracleMap OracleMusigNonceMsg}
    (carried : Carried env evidence s) (change : Narrows s s') : Carried env evidence s' := by
  intro id pubnonce found
  rw [change.attempt]
  exact carried id pubnonce (change.pubnonces id pubnonce found)

private theorem carried_of_no_nonces {evidence : OracleMap OracleMusigNonceMsg}
    (empty : ∀ id, s.m_pubnonces id = none) : Carried env evidence s := by
  intro id pubnonce found
  rw [empty id] at found
  cases found

private theorem evidenceMatches_congr (sessions : o'.m_signing_sessions = o.m_signing_sessions)
    (evidence : o'.m_nonce_evidence = o.m_nonce_evidence) : EvidenceMatches env o' ↔
    EvidenceMatches env o := by
  unfold EvidenceMatches
  rw [sessions, evidence]

private theorem EvidenceMatches.openSession {attempt : ℕ}
    {opened : MuSig2SigningSession × OracleSigningOrchestrator} (matching : EvidenceMatches env o)
    (result : o.openSession env epoch attempt = some opened) :
    EvidenceMatches env opened.2 ∧ opened.2.m_signing_sessions epoch = some opened.1 ∧
      opened.2.m_nonce_evidence = o.m_nonce_evidence := by
  rcases OracleSigningOrchestrator.openSession_eq_some result with ⟨found, same⟩ |
    ⟨-, -, fresh, put⟩
  · rw [same]
    exact ⟨matching, found, rfl⟩
  · rw [put, fresh]
    exact ⟨matching.put rfl rfl (carried_of_no_nonces fun _ => rfl), Function.update_self .., rfl⟩

/-! Messages of peers. -/

private theorem matches_addContextNonces_iff (matching : EvidenceMatches env o)
    (carried : Carried env (o.m_nonce_evidence epoch) s) (nonces : List OracleMusigNonceMsg) :
    EvidenceMatches env (OracleSigningOrchestrator.addContextNonces env epoch nonces o s).2 ↔
      LastAgrees env s (env.acceptedEvidence s nonces) := by
  obtain ⟨s', adding, intake⟩ := addContextNonces_eq env epoch o s nonces
  rw [adding]
  exact (matching.replace_iff rfl rfl).trans (carried_accepted_iff carried intake)

private theorem ingestRemoteNonce_eq {msg : OracleMusigNonceMsg}
    {opened : MuSig2SigningSession × OracleSigningOrchestrator}
    (result : o.openSession env msg.epoch msg.attempt_id = some opened)
    (attempt : opened.1.m_attempt_id = msg.attempt_id) :
    o.ingestRemoteNonce env msg =
      (OracleSigningOrchestrator.addContextNonces env msg.epoch [msg] opened.2 opened.1).2 := by
  unfold OracleSigningOrchestrator.ingestRemoteNonce
  rw [result]
  dsimp only
  rw [if_neg (not_not.mpr attempt)]
  unfold OracleSigningOrchestrator.addContextNonces
  dsimp only
  cases (env.addNonceEvidenceToSession msg opened.1).1 with
  | false => rfl
  | true => rfl

theorem matches_ingestRemoteNonce_iff (matching : EvidenceMatches env o)
    (msg : OracleMusigNonceMsg) :
    EvidenceMatches env (o.ingestRemoteNonce env msg) ↔
      ∀ opened, o.openSession env msg.epoch msg.attempt_id = some opened →
        LastAgrees env opened.1 (env.acceptedEvidence opened.1 [msg]) := by
  cases result : o.openSession env msg.epoch msg.attempt_id with
  | none =>
    have ignored : o.ingestRemoteNonce env msg = o := by
      unfold OracleSigningOrchestrator.ingestRemoteNonce
      rw [result]
    rw [ignored]
    exact ⟨fun _ opened impossible => (Option.some_ne_none _ impossible.symm).elim,
      fun _ => matching⟩
  | some opened =>
    obtain ⟨matching', found, same⟩ := matching.openSession result
    simp only [Option.some.injEq, forall_eq']
    by_cases attempt : opened.1.m_attempt_id = msg.attempt_id
    · rw [ingestRemoteNonce_eq result attempt]
      exact matches_addContextNonces_iff matching' (matching' msg.epoch opened.1 found) [msg]
    · have ignored : o.ingestRemoteNonce env msg = opened.2 := by
        unfold OracleSigningOrchestrator.ingestRemoteNonce
        rw [result]
        exact if_pos attempt
      have nothing : env.acceptedEvidence opened.1 [msg] = [] := by
        have refused : env.acceptsNonce opened.1 msg = false := by
          simp [OracleEnv.acceptsNonce, OracleEnv.nonceVerifies, Ne.symm attempt]
        rw [OracleEnv.acceptedEvidence, if_neg (by simp [refused])]
      rw [ignored, nothing]
      exact ⟨fun _ id last impossible => by simp at impossible, fun _ => matching'⟩

private theorem narrows_seedSession (o : OracleSigningOrchestrator) (epoch : ℤ)
    (s : MuSig2SigningSession) :
    Narrows s (o.seedSession epoch s) := by
  unfold OracleSigningOrchestrator.seedSession
  split_ifs <;> exact .of_eq rfl rfl

theorem matches_ingestRemoteContext_iff (matching : EvidenceMatches env o)
    (msg : OracleMusigContextMsg) :
    EvidenceMatches env (o.ingestRemoteContext env msg) ↔
      ∀ opened, o.openSession env msg.epoch msg.attempt_id = some opened →
        readsNonces o opened.1 msg.epoch msg = true →
          LastAgrees env (o.seedSession msg.epoch opened.1)
            (env.acceptedEvidence (o.seedSession msg.epoch opened.1) msg.nonce_evidence) := by
  unfold OracleSigningOrchestrator.ingestRemoteContext
  dsimp only
  by_cases valid : msg.isValid = false
  · rw [if_pos valid]
    exact ⟨fun _ opened _ reads => by simp [readsNonces, valid] at reads, fun _ => matching⟩
  by_cases seed : o.m_epoch_selection_seeds msg.epoch ≠ 0 ∧
      o.m_epoch_selection_seeds msg.epoch ≠ msg.epoch_selection_seed
  · rw [if_neg valid, if_pos seed]
    exact ⟨fun _ opened _ reads =>
      by simp [readsNonces, seed.1, seed.2] at reads, fun _ => matching⟩
  rw [if_neg valid, if_neg seed]
  cases result : o.openSession env msg.epoch msg.attempt_id with
  | none => exact ⟨fun _ opened impossible => (Option.some_ne_none _ impossible.symm).elim,
      fun _ => matching⟩
  | some opened =>
    obtain ⟨matching', found, same⟩ := matching.openSession result
    have carried :=
      (matching' msg.epoch opened.1 found).narrows (narrows_seedSession o msg.epoch opened.1)
    have attempts : (o.seedSession msg.epoch opened.1).m_attempt_id = opened.1.m_attempt_id :=
      (narrows_seedSession o msg.epoch opened.1).attempt
    simp only [Option.some.injEq, forall_eq']
    rw [attempts]
    by_cases attempt : opened.1.m_attempt_id = msg.attempt_id
    · have reads : readsNonces o opened.1 msg.epoch msg = true := by
        simp only [readsNonces, attempt, decide_true, Bool.and_true, Bool.and_eq_true,
          Bool.or_eq_true, decide_eq_true_eq]
        exact ⟨by simpa using valid, by tauto⟩
      have added := matches_addContextNonces_iff matching' carried msg.nonce_evidence
      rw [if_neg (not_not.mpr attempt)]
      simp only [reads, true_implies]
      rw [← added]
      split
      · exact Iff.rfl
      · unfold OracleSigningOrchestrator.storePendingContext
        dsimp only
        split
        · exact evidenceMatches_congr rfl rfl
        · exact evidenceMatches_congr rfl rfl
    · rw [if_pos attempt]
      have unread : readsNonces o opened.1 msg.epoch msg = false := by
        simp [readsNonces, Ne.symm attempt]
      simp only [unread, Bool.false_eq_true, false_implies, iff_true]
      exact matching'.put rfl rfl carried

/-! The turn of a local oracle. -/

private theorem makeNonce_of_not_made {id : OracleId} {key pubkey cache secrand : Bytes}
    (failed : (s.generateNonce env id key pubkey cache secrand).1 = none) :
    Narrows s (makeNonce env id key pubkey cache secrand s) := by
  unfold makeNonce
  rcases s.generateNonce_cases env id key pubkey cache secrand with
    same | ⟨_, cached⟩ | ⟨secnonce, other, _, _, _, _, generated⟩
  · rw [same]
    exact .of_eq rfl rfl
  · rw [cached]
    exact .of_eq rfl rfl
  · rw [generated] at failed
    cases failed

private theorem signNonce_of_made (library : NonceLibrary env keys) {tick : Tick} {oid : ℕ}
    {attempt : ℕ} {key pubkey cache secrand pubnonce : Bytes} (held : keys oid = some key)
    (valid : env.secp.keyIsValid key = true)
    (made : (s.generateNonce env (oid8 oid) key pubkey cache secrand).1 = some pubnonce) :
    ∃ msg, signNonce env tick key (oid8 oid) pubnonce attempt = some msg ∧
      env.secp.pubnonceParse msg.pubnonce = some pubnonce := by
  obtain ⟨secnonce, nonceGen, -⟩ := MuSig2SigningSession.generateNonce_eq_some made
  obtain ⟨ser_nonce, serialized, parsed⟩ := library.serializes nonceGen
  unfold signNonce
  rw [serialized, Option.bind_some]
  dsimp only
  obtain ⟨signature, signed⟩ :=
    Option.isSome_iff_exists.mp (library.signs held valid (env.nonceSignatureHash
      { epoch := tick.epoch, attempt_id := attempt, oracle_id := oid8 oid, pubnonce := ser_nonce
        signature := [] }))
  rw [signed]
  exact ⟨_, rfl, parsed⟩

private theorem addLocalNonce_of_made {tick : Tick} {cache key pubkey pubnonce : Bytes} {oid : ℕ}
    {msg : OracleMusigNonceMsg}
    (made : (s.generateNonce env (oid8 oid) key pubkey cache (tick.secrand oid)).1 = some pubnonce)
    (signed : signNonce env tick key (oid8 oid) pubnonce
      (makeNonce env (oid8 oid) key pubkey cache (tick.secrand oid) s).m_attempt_id = some msg) :
    addLocalNonce env tick cache key pubkey oid (s, o) =
      (makeNonce env (oid8 oid) key pubkey cache (tick.secrand oid) s,
        o.recordNonce tick.epoch msg) := by
  unfold makeNonce at signed ⊢
  unfold addLocalNonce
  dsimp only at signed ⊢
  rw [made] at signed ⊢
  dsimp only [Option.elim_some] at signed ⊢
  rw [signed]

private theorem addLocalNonce_of_not_made {tick : Tick} {cache key pubkey : Bytes} {oid : ℕ}
    (failed : (s.generateNonce env (oid8 oid) key pubkey cache (tick.secrand oid)).1 = none) :
    addLocalNonce env tick cache key pubkey oid (s, o) =
      (makeNonce env (oid8 oid) key pubkey cache (tick.secrand oid) s, o) := by
  unfold addLocalNonce makeNonce
  dsimp only
  rw [failed]
  rfl

private theorem localTurn_cases (library : NonceLibrary env keys) (tick : Tick) (oid : ℕ)
    (s : MuSig2SigningSession) (o : OracleSigningOrchestrator) :
    (madeNonce env keys tick oid (s, o) = none ∧
      ∃ s', localTurn env keys tick oid (s, o) = (s', o) ∧ Narrows s s') ∨
    ∃ pubnonce msg s', madeNonce env keys tick oid (s, o) = some pubnonce ∧
      localTurn env keys tick oid (s, o) = (s', o.recordNonce tick.epoch msg) ∧
      msg.oracle_id = oid8 oid ∧ msg.attempt_id = s.m_attempt_id ∧
      env.secp.pubnonceParse msg.pubnonce = some pubnonce ∧ s'.m_attempt_id = s.m_attempt_id ∧
      (s'.m_pubnonces = s.m_pubnonces ∨
        s.m_pubnonces (oid8 oid) = none ∧
          s'.m_pubnonces = s.m_pubnonces.insert (oid8 oid) pubnonce) := by
  unfold madeNonce localTurn localNonce
  by_cases tracked : oid8 oid ∈ o.m_nonce_broadcast_tracker tick.epoch
  · refine .inl ⟨if_pos tracked, s, ?_, .of_eq rfl rfl⟩
    split
    · rfl
    · exact if_pos tracked
  dsimp only
  rw [if_neg tracked]
  cases env.computeAggregatePubkey env.consensusOracleIdsForSigning with
  | none => exact .inl ⟨rfl, s, rfl, .of_eq rfl rfl⟩
  | some aggregate =>
  dsimp only [Option.bind_some]
  rw [if_neg tracked]
  cases usable : (keys oid).filter env.secp.keyIsValid with
  | none => exact .inl ⟨rfl, s, rfl, .of_eq rfl rfl⟩
  | some key =>
  obtain ⟨held, valid⟩ := Option.filter_eq_some_iff.mp usable
  dsimp only [Option.bind_some]
  cases env.secp.pubkeyParse (env.secp.getPubKey key) with
  | none => exact .inl ⟨rfl, s, rfl, .of_eq rfl rfl⟩
  | some pubkey =>
  dsimp only [Option.bind_some]
  cases made : (s.generateNonce env (oid8 oid) key pubkey aggregate.2 (tick.secrand oid)).1 with
  | none => exact .inl ⟨rfl, _, addLocalNonce_of_not_made made, makeNonce_of_not_made made⟩
  | some pubnonce =>
    obtain ⟨-, attempt, kept⟩ := makeNonce_of_made made
    obtain ⟨msg, signed, parsed⟩ := signNonce_of_made library held valid made
    obtain ⟨_, msgAttempt, msgId⟩ := signNonce_eq_some signed
    exact .inr ⟨pubnonce, msg, _, rfl, addLocalNonce_of_made made signed, msgId,
      msgAttempt.trans attempt, parsed, attempt, kept⟩

theorem matches_localTurn_iff (library : NonceLibrary env keys) (matching : EvidenceMatches env o)
    (tick : Tick) (oid : ℕ) (found : o.m_signing_sessions tick.epoch = some s) :
    EvidenceMatches env (o.onSession tick.epoch (localTurn env keys tick oid)) ↔
      ∀ pubnonce, madeNonce env keys tick oid (s, o) = some pubnonce →
        ∀ held, s.m_pubnonces (oid8 oid) = some held → held = pubnonce := by
  have carried := matching tick.epoch s found
  unfold OracleSigningOrchestrator.onSession
  rw [found]
  dsimp only
  rcases localTurn_cases library tick oid s o with
    ⟨failed, s', turn, change⟩ |
      ⟨pubnonce, msg, s', made, turn, oracle, attempt, parsed, attempt', kept⟩
  · rw [turn, failed]
    refine ⟨fun _ pubnonce impossible => (Option.some_ne_none _ impossible.symm).elim, fun _ => ?_⟩
    exact matching.put rfl rfl (carried.narrows change)
  rw [turn, made]
  have replaced : EvidenceMatches env ((o.recordNonce tick.epoch msg).putSession tick.epoch s') ↔
      Carried env ((o.m_nonce_evidence tick.epoch).insert msg.oracle_id msg) s' :=
    matching.replace_iff rfl rfl
  rw [replaced]
  simp only [Option.some.injEq, forall_eq']
  constructor
  · intro carried' held here
    -- the session keeps the nonce that it had, and the evidence has the new message
    have same : s'.m_pubnonces = s.m_pubnonces := by
      rcases kept with same | ⟨absent, _⟩
      · exact same
      · rw [absent] at here
        cases here
    obtain ⟨other, recorded, _, _, otherParsed⟩ := carried' (oid8 oid) held (by rw [same, here])
    rw [← oracle, OracleMap.insert_same, Option.some.injEq] at recorded
    rw [← recorded, parsed] at otherParsed
    exact (Option.some.inj otherParsed).symm
  · intro agrees id other here
    by_cases same : id = oid8 oid
    · have value : other = pubnonce := by
        rcases kept with unchanged | ⟨_, inserted⟩
        · rw [unchanged, same] at here
          exact agrees other here
        · rw [inserted, same, OracleMap.insert_same, Option.some.injEq] at here
          exact here.symm
      refine ⟨msg, ?_, oracle.trans same.symm, attempt.trans attempt'.symm, by rw [value, parsed]⟩
      rw [same, ← oracle, OracleMap.insert_same]
    · have before : s.m_pubnonces id = some other := by
        rcases kept with unchanged | ⟨_, inserted⟩
        · rwa [unchanged] at here
        · rwa [inserted, OracleMap.insert_of_ne same] at here
      rw [OracleMap.insert_of_ne (by rw [oracle]; exact same), attempt']
      exact carried id other before

/-! The rest of a tick brings no nonces. -/

/-- The session brings no nonce, and the sessions and the evidence of the orchestrator stay. -/
private structure Trims (state state' : TickState) : Prop where
  session : Narrows state.1 state'.1
  sessions : state'.2.m_signing_sessions = state.2.m_signing_sessions
  evidence : state'.2.m_nonce_evidence = state.2.m_nonce_evidence

private theorem Trims.refl (state : TickState) : Trims state state := ⟨.of_eq rfl rfl, rfl, rfl⟩

private theorem Trims.trans {state state' state'' : TickState} (first : Trims state state')
    (second : Trims state' state'') : Trims state state'' :=
  ⟨first.session.trans second.session, second.sessions.trans first.sessions,
    second.evidence.trans first.evidence⟩

private theorem Trims.foldl {β : Type} {work : TickState → β → TickState}
    (each : ∀ state b, Trims state (work state b)) (items : List β) (state : TickState) :
    Trims state (items.foldl work state) := by
  induction items generalizing state with
  | nil => exact .refl state
  | cons b rest ih => exact (each state b).trans (ih (work state b))

private theorem narrows_makePartialSig (id : OracleId) (key : Bytes) (s : MuSig2SigningSession) :
    Narrows s (makePartialSig env id key s) := by
  unfold makePartialSig
  have created : Narrows s (s.createPartialSignature env id key).2 := by
    rcases s.createPartialSignature_cases env id key with same | ⟨_, _, _, _, result⟩
    · rw [same]
      exact .of_eq rfl rfl
    · rw [result]
      exact .of_eq rfl rfl
  dsimp only
  cases (s.createPartialSignature env id key).1 with
  | none => exact created
  | some sig =>
    dsimp only [Option.elim_some]
    cases added : (s.createPartialSignature env id key).2.addPartialSignature id sig with
    | none => exact created
    | some t =>
      obtain ⟨_, _, rfl⟩ := MuSig2SigningSession.addPartialSignature_eq_some added
      exact created.trans (.of_eq rfl rfl)

private theorem trims_localPartialSig (tick : Tick) (participants : List OracleId)
    (state : TickState) (oid : ℕ) :
    Trims state (localPartialSig env keys tick participants state oid) := by
  unfold localPartialSig
  split
  · exact .refl state
  split
  · exact .refl state
  split
  · exact .refl state
  next key _ _ =>
  refine ⟨?_, (addLocalPartialSig_frame env tick key (oid8 oid) state).1, ?_⟩
  · rw [addLocalPartialSig_session]
    exact narrows_makePartialSig (oid8 oid) key state.1
  · unfold addLocalPartialSig
    dsimp only
    split
    · rfl
    · split <;> rfl

private theorem narrows_aggregateNonces (message : Hash) (s : MuSig2SigningSession) :
    Narrows s (s.aggregateNonces env message).2 := by
  rcases s.aggregateNonces_cases env message with
    ⟨_, same⟩ | ⟨failed, result, _, _, attempt, _, _, pubnonces, _⟩ | ⟨_, _, _, _, _, _, _, result⟩
  · rw [same]
    exact .of_eq rfl rfl
  · rw [result]
    exact .of_eq attempt pubnonces
  · rw [result]
    exact .of_eq rfl rfl

private theorem narrows_freezeParticipants (tick : Tick) (context : OracleMusigContextMsg)
    (s : MuSig2SigningSession) : Narrows s (freezeParticipants env tick context s).2 := by
  unfold freezeParticipants
  dsimp only
  have trimmed : ∀ t : MuSig2SigningSession,
      Narrows t (t.trimNoncesToParticipants context.participant_ids).2 := by
    intro t
    rcases t.trimNoncesToParticipants_cases context.participant_ids with ⟨_, same, _⟩ |
      ⟨_, _, _, result⟩
    · rw [same]
      exact .of_eq rfl rfl
    · rw [result]
      exact ⟨rfl, fun id pubnonce found => (OracleMap.restrict_eq_some.mp found).2⟩
  have priced : Narrows s { s with
      m_signed_price := context.consensus_price, m_signed_timestamp :=
        context.consensus_timestamp } := .of_eq rfl rfl
  have kept := priced.trans (trimmed _)
  split
  · exact kept
  · refine kept.trans (Narrows.trans ?_ (narrows_aggregateNonces _ _))
    cases env.computeAggregatePubkey _ with
    | none => exact .of_eq rfl rfl
    | some aggregate => exact .of_eq rfl rfl

private theorem trims_signContext (tick : Tick) (context : OracleMusigContextMsg)
    (state : TickState) :
    Trims state (signContext env keys tick context state).2 := by
  have frozen : Trims state ((freezeParticipants env tick context state.1).2, state.2) :=
    ⟨narrows_freezeParticipants tick context state.1, rfl, rfl⟩
  unfold signContext
  dsimp only
  split
  · exact frozen
  · exact frozen
  · split
    · exact frozen
    · exact frozen.trans (Trims.foldl (fun state oid => trims_localPartialSig tick _ state oid) _ _)

private theorem trims_converge (tick : Tick) (state : TickState) :
    Trims state (converge env keys tick state).2 := by
  have seeded : Trims state (reseed env tick state) := ⟨.of_eq rfl rfl, rfl, rfl⟩
  rw [converge_eq]
  dsimp only
  split
  · exact .refl state
  split
  · exact .refl state
  split
  · exact seeded
  unfold chooseContext
  split
  · exact seeded.trans (trims_signContext tick _ _)
  split
  · exact seeded
  split
  · exact seeded.trans ⟨.of_eq rfl rfl, rfl, rfl⟩
  · exact seeded

private theorem narrows_tryApply {msg : OracleMusigPartialSigMsg}
    (applied : env.tryApplyRemotePartialSig msg s = some s') : Narrows s s' := by
  obtain ⟨_, _, _, _, _, added⟩ := OracleEnv.tryApplyRemotePartialSig_eq_some applied
  obtain ⟨_, _, _, _, rfl⟩ := MuSig2SigningSession.addPartialSignatureVerified_eq_some added
  exact .of_eq rfl rfl

private theorem narrows_aggregateSignature (s : MuSig2SigningSession) :
    Narrows s (s.aggregateSignature env).2 := by
  rcases s.aggregateSignature_cases env with same | failed | ⟨_, _, _, _, result⟩
  · rw [same]
    exact .of_eq rfl rfl
  · rw [failed]
    exact .of_eq rfl rfl
  · rw [result]
    exact .of_eq rfl rfl

private theorem trims_drainAndAggregate (tick : Tick) (state : TickState) :
    Trims state (drainAndAggregate env tick state) := by
  unfold drainAndAggregate
  split
  · exact .refl state
  have applied : ∀ (msgs : List OracleMusigPartialSigMsg) (s : MuSig2SigningSession),
      Narrows s (msgs.foldl (applyPartialSig env) s) := by
    intro msgs
    induction msgs with
    | nil => exact fun s => .of_eq rfl rfl
    | cons msg rest ih =>
      intro s
      refine Narrows.trans ?_ (ih _)
      unfold applyPartialSig
      cases one : env.tryApplyRemotePartialSig msg s with
      | none => exact .of_eq rfl rfl
      | some t => exact narrows_tryApply one
  refine ⟨?_, ?_, ?_⟩
  · dsimp only
    split
    · exact (applied _ _).trans (narrows_aggregateSignature _)
    · exact applied _ _
  · unfold takePending
    dsimp only
    split <;> rfl
  · unfold takePending
    dsimp only
    split <;> rfl

private theorem trims_finishTick (tick : Tick)
    (state : TickState) : Trims state (finishTick env keys tick state) := by
  unfold finishTick
  dsimp only
  have converged : Trims state (converge env keys tick state).2 := trims_converge tick state
  split
  · exact converged
  · refine (converged.trans (trims_drainAndAggregate tick _)).trans ⟨?_, rfl, rfl⟩
    unfold MuSig2SigningSession.checkTimeout
    split_ifs <;> exact .of_eq rfl rfl

theorem matches_finishTick (matching : EvidenceMatches env o) (tick : Tick) :
    EvidenceMatches env (o.onSession tick.epoch (finishTick env keys tick)) := by
  unfold OracleSigningOrchestrator.onSession
  split
  · exact matching
  · next s found =>
    have trims : Trims (s, o) (finishTick env keys tick (s, o)) := trims_finishTick tick (s, o)
    refine matching.put ?_ trims.evidence ((matching tick.epoch s found).narrows trims.session)
    rw [OracleSigningOrchestrator.putSession, trims.sessions]

theorem matches_beginTick (matching : EvidenceMatches env o) (tick : Tick) :
    EvidenceMatches env (o.takeStep env keys (.beginTick tick)) := by
  have created : ∀ (o : OracleSigningOrchestrator) attempt height,
      ∀ id, (o.newSession env tick.epoch attempt height).m_pubnonces id = none := fun _ _ _ _ => rfl
  have found : EvidenceMatches env ((o.getOrCreateSigningSession env tick).2.putSession tick.epoch
      (o.getOrCreateSigningSession env tick).1) := by
    unfold OracleSigningOrchestrator.getOrCreateSigningSession
    split
    · next s present => exact matching.put rfl rfl (matching tick.epoch s present)
    · have opened : EvidenceMatches env (o.putSession tick.epoch
          (o.newSession env tick.epoch (o.m_epoch_attempts tick.epoch)
            (OracleSigningOrchestrator.creationHeight env tick))) :=
        matching.put rfl rfl (carried_of_no_nonces (created o _ _))
      exact opened.put rfl rfl (carried_of_no_nonces (created o _ _))
  have restarted : EvidenceMatches env
      (putBack tick ((o.getOrCreateSigningSession env tick).2.restartEpochAttemptIfNeeded
      env tick (o.getOrCreateSigningSession env tick).1)) := by
    generalize o.getOrCreateSigningSession env tick = state at found
    unfold OracleSigningOrchestrator.restartEpochAttemptIfNeeded
    dsimp only
    split
    · exact found
    split
    · exact found
    · have dropped : ∀ o' s', o'.m_signing_sessions =
          Function.update state.2.m_signing_sessions tick.epoch (some s') →
          o'.m_nonce_evidence = Function.update state.2.m_nonce_evidence tick.epoch
            (fun _ => none) →
          (∀ id, s'.m_pubnonces id = none) → EvidenceMatches env o' := by
        intro o' s' sessions evidence none
        refine (found.replace_iff ?_ evidence).mpr (carried_of_no_nonces none)
        rw [sessions]
        exact (Function.update_idem ..).symm
      exact dropped _ _ (Function.update_idem ..) rfl (created state.2 _ _)
  change EvidenceMatches env (putBack tick (seedTick env tick _))
  generalize (o.getOrCreateSigningSession env tick).2.restartEpochAttemptIfNeeded env tick
    (o.getOrCreateSigningSession env tick).1 = state at restarted
  have carried := restarted tick.epoch state.1 (Function.update_self ..)
  unfold seedTick
  split
  · refine restarted.put (Function.update_idem ..).symm rfl (carried.narrows ?_)
    exact .of_eq rfl rfl
  · exact restarted

theorem matches_setEpochSelectionSeed (matching : EvidenceMatches env o) (epoch : ℤ) (seed : Hash) :
    EvidenceMatches env (o.setEpochSelectionSeed epoch seed) := by
  unfold OracleSigningOrchestrator.setEpochSelectionSeed
  split
  · exact matching
  dsimp only
  split
  · exact matching
  · next s found =>
    have carried : Carried env (o.m_nonce_evidence epoch) s := matching epoch s found
    exact matching.put rfl rfl (carried.narrows (.of_eq rfl rfl))

theorem matches_ingestRemotePartialSig (matching : EvidenceMatches env o)
    (msg : OracleMusigPartialSigMsg) :
    EvidenceMatches env (o.ingestRemotePartialSig env msg) := by
  unfold OracleSigningOrchestrator.ingestRemotePartialSig
  split
  · exact matching
  split
  · exact matching
  next opened result =>
  obtain ⟨matching', found, _⟩ := matching.openSession result
  have carried := matching' msg.epoch opened.1 found
  split
  · exact matching'
  split
  · next session applied =>
    refine matching'.put rfl rfl ((carried.narrows (narrows_tryApply applied)).narrows ?_)
    split
    · exact narrows_aggregateSignature session
    · exact .of_eq rfl rfl
  · split
    · refine (evidenceMatches_congr ?_ ?_).mpr matching'
      · unfold OracleSigningOrchestrator.bufferPendingPartialSig
        dsimp only
        split_ifs <;> rfl
      · unfold OracleSigningOrchestrator.bufferPendingPartialSig
        dsimp only
        split_ifs <;> rfl
    · exact matching'

end Matching

end DigiByte.Oracle
