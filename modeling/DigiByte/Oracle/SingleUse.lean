import DigiByte.Oracle.CeremonyRun

/-!
Secret nonces are used once, over every sequence of operations on the orchestrator
and on its sessions.

The life of an oracle's secret nonce in a session is read off the session's events:
it is made at most once, and ends at most once, by being signed with or wiped.
Making a nonce needs a session that still collects, and a session whose nonce has
ended no longer does.
-/

set_option autoImplicit false
set_option relaxedAutoImplicit false

namespace DigiByte.Oracle

open Script (Bytes)

def NonceEvent.oracleId : NonceEvent → OracleId
  | .generated id _ => id
  | .signed id _ _ _ => id
  | .wiped id _ => id

namespace MuSig2SigningSession

/-- What happened to the secret nonces of one oracle, newest first. -/
def history (s : MuSig2SigningSession) (id : OracleId) : List NonceEvent :=
  s.nonce_events.filter fun event => event.oracleId = id

end MuSig2SigningSession

/-- The last event in the life of a secret nonce: the one call of the signing function with
it, whether that succeeds or not, or its wiping. -/
def Ends (id : OracleId) (secnonce : Bytes) (event : NonceEvent) : Prop :=
  (∃ session partial_sig, event = .signed id secnonce session partial_sig) ∨
    event = .wiped id secnonce

/-- The life of an oracle's secret nonce in a session: none was made; one was made and is
held; or one was made, has ended, and no other will be made. -/
def NonceLife (s : MuSig2SigningSession) (id : OracleId) : Prop :=
  (s.history id = [] ∧ s.m_secnonces id = none) ∨
  (∃ secnonce, s.history id = [.generated id secnonce] ∧ s.m_secnonces id = some secnonce) ∨
  ∃ secnonce event, Ends id secnonce event ∧ s.history id = [event, .generated id secnonce] ∧
    s.m_secnonces id = none ∧ ¬ s.Collecting

/-- A method call on a session. -/
inductive SessionCall where
  | initializePassive (cache : Bytes)
  | generateNonce (oracle_id : OracleId) (signing_key pubkey cache secrand : Bytes)
  | addPubnonce (oracle_id : OracleId) (pubnonce : Bytes)
  | setKeyAggCache (cache : Bytes)
  | setEpochSelectionSeed (seed : Hash)
  | trimNoncesToThreshold
  | trimNoncesToParticipants (participants : List OracleId)
  | aggregateNonces (message : Hash)
  | createPartialSignature (oracle_id : OracleId) (signing_key : Bytes)
  | addPartialSignature (oracle_id : OracleId) (partial_sig : Bytes)
  | addPartialSignatureVerified (oracle_id : OracleId) (partial_sig signer_pk : Bytes)
  | aggregateSignature
  | setSignedValues (price : ℕ) (timestamp : ℤ)
  | checkTimeout (current_height : ℤ)
  | setTimeoutBlocks (blocks : ℤ)
  | setCreationHeight (height : ℤ)

section

variable (env : OracleEnv)

/-- The session after a call, whatever the call returns. -/
def MuSig2SigningSession.call (s : MuSig2SigningSession) : SessionCall → MuSig2SigningSession
  | .initializePassive cache => (s.initializePassive cache).getD s
  | .generateNonce id key pubkey cache secrand =>
    (s.generateNonce env id key pubkey cache secrand).2
  | .addPubnonce id pubnonce => (s.addPubnonce env id pubnonce).getD s
  | .setKeyAggCache cache => { s with m_keyagg_cache := cache }
  | .setEpochSelectionSeed seed => { s with m_epoch_selection_seed := seed }
  | .trimNoncesToThreshold => s.trimNoncesToThreshold env
  | .trimNoncesToParticipants participants => (s.trimNoncesToParticipants participants).2
  | .aggregateNonces message => (s.aggregateNonces env message).2
  | .createPartialSignature id key => (s.createPartialSignature env id key).2
  | .addPartialSignature id sig => (s.addPartialSignature id sig).getD s
  | .addPartialSignatureVerified id sig pubkey =>
    (s.addPartialSignatureVerified env id sig pubkey).getD s
  | .aggregateSignature => (s.aggregateSignature env).2
  | .setSignedValues price timestamp =>
    { s with m_signed_price := price, m_signed_timestamp := timestamp }
  | .checkTimeout height => s.checkTimeout height
  | .setTimeoutBlocks blocks => { s with m_timeout_blocks := blocks }
  | .setCreationHeight height => { s with m_creation_height := height }

/-- The constructor of a session. -/
def MuSig2SigningSession.create (epoch : ℤ) (min_signers attempt_id : ℕ) :
    MuSig2SigningSession where
  m_epoch := epoch
  m_attempt_id := attempt_id
  m_min_signers := min_signers
  m_epoch_selection_seed := env.genesis

/-- An operation on the orchestrator or on one of its sessions. An injected session is one
that its owner has used as they like. -/
inductive Operation where
  | call (call : Call)
  | session (epoch : ℤ) (call : SessionCall)
  | cleanupOldSessions (current_epoch : ℤ)
  | clear
  | injectSession (epoch session_epoch : ℤ) (min_signers attempt_id : ℕ) (used : List SessionCall)

def OracleSigningOrchestrator.injectSession (o : OracleSigningOrchestrator) (epoch : ℤ)
    (session : MuSig2SigningSession) : OracleSigningOrchestrator :=
  { o.putSession epoch session with
    m_epoch_attempts := Function.update o.m_epoch_attempts epoch (session.m_attempt_id % 256)
    dropped_sessions := Function.update o.dropped_sessions epoch
      ((o.m_signing_sessions epoch).toList ++ o.dropped_sessions epoch) }

def OracleSigningOrchestrator.operate (keys : ℕ → Option Bytes) (o : OracleSigningOrchestrator) :
    Operation → OracleSigningOrchestrator
  | .call call => o.call env keys call
  | .session epoch call =>
    match o.m_signing_sessions epoch with
    | none => o
    | some session => o.putSession epoch (session.call env call)
  | .cleanupOldSessions current_epoch => o.cleanupOldSessions current_epoch
  | .clear => o.clear
  | .injectSession epoch session_epoch min_signers attempt_id used =>
    o.injectSession epoch
      (used.foldl (MuSig2SigningSession.call env)
        (.create env session_epoch min_signers attempt_id))

end

/-- A session that the orchestrator has or once had. -/
def OracleSigningOrchestrator.Had (o : OracleSigningOrchestrator)
    (s : MuSig2SigningSession) : Prop :=
  ∃ epoch, o.m_signing_sessions epoch = some s ∨ s ∈ o.dropped_sessions epoch

/-- The randomness did not repeat: one session made this secret nonce, for one oracle. -/
def OracleSigningOrchestrator.GeneratedOnce (o : OracleSigningOrchestrator)
    (secnonce : Bytes) : Prop :=
  ∀ s s' id id', o.Had s → o.Had s' → .generated id secnonce ∈ s.nonce_events →
    .generated id' secnonce ∈ s'.nonce_events → s = s' ∧ id = id'

section Proofs

variable {env : OracleEnv} {keys : ℕ → Option Bytes} {s s' : MuSig2SigningSession} {id : OracleId}

/-! Sessions. -/

/-- The lives of all secret nonces of a session. -/
def Lives (s : MuSig2SigningSession) : Prop := ∀ id, NonceLife s id

/-- A call that does nothing with secret nonces. -/
structure Quiet (s s' : MuSig2SigningSession) : Prop where
  secnonces : s'.m_secnonces = s.m_secnonces
  events : s'.nonce_events = s.nonce_events
  collecting : s'.Collecting → s.Collecting

theorem Quiet.refl (s : MuSig2SigningSession) : Quiet s s :=
  ⟨rfl, rfl, fun collecting => collecting⟩

private theorem NonceLife.frame (life : NonceLife s id)
    (secnonce : s'.m_secnonces id = s.m_secnonces id)
    (history : s'.history id = s.history id) (collecting : s'.Collecting → s.Collecting) :
    NonceLife s' id := by
  unfold NonceLife
  rw [history, secnonce]
  rcases life with unmade | held | ⟨secnonce, event, ends, list, gone, ended⟩
  · exact .inl unmade
  · exact .inr (.inl held)
  · exact .inr (.inr ⟨secnonce, event, ends, list, gone, fun later => ended (collecting later)⟩)

theorem Quiet.lives (quiet : Quiet s s') (lives : Lives s) : Lives s' := by
  intro id
  refine (lives id).frame (by rw [quiet.secnonces]) ?_ quiet.collecting
  unfold MuSig2SigningSession.history
  rw [quiet.events]

private theorem history_cons_same {event : NonceEvent} {events : List NonceEvent}
    (same : event.oracleId = id) :
    (event :: events).filter (fun event => event.oracleId = id) =
      event :: events.filter fun event => event.oracleId = id :=
  List.filter_cons_of_pos (by simpa using same)

private theorem history_cons_other {event : NonceEvent} {events : List NonceEvent}
    (other : event.oracleId ≠ id) :
    (event :: events).filter (fun event => event.oracleId = id) =
      events.filter fun event => event.oracleId = id :=
  List.filter_cons_of_neg (by simpa using other)

theorem lives_generateNonce (lives : Lives s) (id : OracleId) (key pubkey cache secrand : Bytes) :
    Lives (s.generateNonce env id key pubkey cache secrand).2 := by
  rcases s.generateNonce_cases env id key pubkey cache secrand with
    same | ⟨_, cached⟩ | ⟨secnonce, pubnonce, collecting, _, unmade, _, generated⟩
  · rw [same]
    exact lives
  · rw [cached]
    exact Quiet.lives ⟨rfl, rfl, fun collecting => collecting⟩ lives
  · rw [generated]
    intro other
    by_cases same : other = id
    · subst same
      -- no nonce of this oracle was made before: one would be held, or would have ended the
      -- collecting
      have fresh : s.history other = [] := by
        rcases lives other with ⟨fresh, _⟩ | ⟨held, _, found⟩ | ⟨_, _, _, _, _, ended⟩
        · exact fresh
        · rw [unmade] at found
          cases found
        · exact absurd collecting ended
      refine .inr (.inl ⟨secnonce, ?_, OracleMap.insert_same ..⟩)
      exact (history_cons_same rfl).trans (congrArg _ fresh)
    · refine (lives other).frame (OracleMap.insert_of_ne same ..) ?_ fun _ => collecting
      exact history_cons_other (Ne.symm same)

theorem lives_createPartialSignature (lives : Lives s) (id : OracleId) (key : Bytes) :
    Lives (s.createPartialSignature env id key).2 := by
  rcases s.createPartialSignature_cases env id key with same | ⟨secnonce, state, held, _, created⟩
  · rw [same]
    exact lives
  rw [created]
  have ended : ¬ s.Collecting := by
    rintro (other | other | other) <;> rw [state] at other <;> cases other
  intro other
  by_cases same : other = id
  · subst same
    have made : s.history other = [.generated other secnonce] := by
      rcases lives other with ⟨_, absent⟩ | ⟨found, history, there⟩ | ⟨_, _, _, _, gone, _⟩
      · rw [held] at absent
        cases absent
      · rw [held, Option.some.injEq] at there
        rw [history, there]
      · rw [held] at gone
        cases gone
    exact .inr (.inr ⟨secnonce, _, .inl ⟨_, _, rfl⟩,
      (history_cons_same rfl).trans (congrArg _ made), OracleMap.erase_same .., ended⟩)
  · refine (lives other).frame (OracleMap.erase_of_ne same ..) ?_ fun later => absurd later ended
    exact history_cons_other (Ne.symm same)

private theorem wipeEvents_filter (s : MuSig2SigningSession) (id : OracleId) :
    s.wipeEvents.filter (fun event => event.oracleId = id) =
      ((s.m_secnonces id).map (.wiped id)).toList := by
  have listed : ∀ ids : List OracleId, ids.Nodup →
      (ids.filterMap fun other => (s.m_secnonces other).map (NonceEvent.wiped other)).filter
        (fun event => event.oracleId = id) =
      if id ∈ ids then ((s.m_secnonces id).map (NonceEvent.wiped id)).toList else [] := by
    intro ids nodup
    induction ids with
    | nil => rfl
    | cons first rest ih =>
      obtain ⟨fresh, nodup⟩ := List.nodup_cons.mp nodup
      have tail := ih nodup
      cases held : s.m_secnonces first with
      | none =>
        rw [List.filterMap_cons_none (by simp [held]), tail]
        by_cases same : id = first
        · simp [same, held]
        · simp [same]
      | some secnonce =>
        rw [List.filterMap_cons_some (by simp [held]; rfl)]
        by_cases same : id = first
        · subst same
          rw [history_cons_same (show (NonceEvent.wiped id secnonce).oracleId = id from rfl), tail]
          simp [fresh, held]
        · rw [history_cons_other (Ne.symm same), tail]
          simp [same]
  have all := listed (List.finRange 256) (List.nodup_finRange 256)
  rwa [if_pos (List.mem_finRange id)] at all

theorem lives_checkTimeout (lives : Lives s) (height : ℤ) : Lives (s.checkTimeout height) := by
  rcases s.checkTimeout_cases height with same | failed
  · rw [same]
    exact lives
  rw [failed]
  intro id
  have history : (s.wipeEvents ++ s.nonce_events).filter (fun event => event.oracleId = id) =
      ((s.m_secnonces id).map (.wiped id)).toList ++ s.history id := by
    rw [List.filter_append, wipeEvents_filter]
    rfl
  have ended : ¬ MuSig2SigningSession.Collecting { s with
      m_secnonces := fun _ => none
      m_state := .failed
      nonce_events := s.wipeEvents ++ s.nonce_events } := by
    rintro (other | other | other) <;> cases other
  unfold NonceLife MuSig2SigningSession.history
  dsimp only
  rw [history]
  rcases lives id with ⟨fresh, unheld⟩ | ⟨secnonce, made, held⟩ |
    ⟨secnonce, event, ends, list, gone, _⟩
  · exact .inl ⟨by rw [unheld, fresh]; rfl, rfl⟩
  · exact .inr (.inr ⟨secnonce, _, .inr rfl, by rw [held, made]; rfl, rfl, ended⟩)
  · exact .inr (.inr ⟨secnonce, event, ends, by rw [gone, list]; rfl, rfl, ended⟩)

/-! Calls that leave the secret nonces alone. -/

theorem quiet_initializePassive {cache : Bytes}
    (initialized : s.initializePassive cache = some s') :
    Quiet s s' := by
  rcases MuSig2SigningSession.initializePassive_cases initialized with rfl | ⟨created, rfl⟩
  · exact Quiet.refl _
  · exact ⟨rfl, rfl, fun _ => .inl created⟩

theorem quiet_addPubnonce {pubnonce : Bytes} (added : s.addPubnonce env id pubnonce = some s') :
    Quiet s s' := by
  obtain ⟨state, _, _, _, _, rfl⟩ := MuSig2SigningSession.addPubnonce_eq_some added
  exact ⟨rfl, rfl, fun _ => .inr state⟩

theorem quiet_trimNoncesToParticipants (s : MuSig2SigningSession) (participants : List OracleId) :
    Quiet s (s.trimNoncesToParticipants participants).2 := by
  rcases s.trimNoncesToParticipants_cases participants with ⟨_, same, _⟩ | ⟨_, _, _, trimmed⟩
  · rw [same]
    exact Quiet.refl s
  · rw [trimmed]
    exact ⟨rfl, rfl, fun collecting => collecting⟩

theorem quiet_aggregateNonces (s : MuSig2SigningSession) (message : Hash) :
    Quiet s (s.aggregateNonces env message).2 := by
  rcases s.aggregateNonces_cases env message with
    ⟨_, same⟩ | ⟨failed, result, state, _, _, _, secnonces, _, events⟩ |
      ⟨_, _, _, _, _, _, _, result⟩
  · rw [same]
    exact Quiet.refl s
  · rw [result]
    refine ⟨secnonces, events, ?_⟩
    rintro (other | other | other) <;> rw [state] at other <;> cases other
  · rw [result]
    refine ⟨rfl, rfl, ?_⟩
    rintro (other | other | other) <;> cases other

theorem quiet_addPartialSignature {sig : Bytes} (added : s.addPartialSignature id sig = some s') :
    Quiet s s' := by
  obtain ⟨_, _, rfl⟩ := MuSig2SigningSession.addPartialSignature_eq_some added
  exact ⟨rfl, rfl, fun collecting => collecting⟩

theorem quiet_addPartialSignatureVerified {sig pubkey : Bytes}
    (added : s.addPartialSignatureVerified env id sig pubkey = some s') : Quiet s s' := by
  obtain ⟨_, _, _, _, rfl⟩ := MuSig2SigningSession.addPartialSignatureVerified_eq_some added
  exact ⟨rfl, rfl, fun collecting => collecting⟩

theorem quiet_aggregateSignature (s : MuSig2SigningSession) :
    Quiet s (s.aggregateSignature env).2 := by
  have ends : ∀ {t : MuSig2SigningSession}, t.m_state = .failed ∨
      t.m_state = .complete → ¬ t.Collecting := by
    rintro t (state | state) (other | other | other) <;> rw [state] at other <;> cases other
  rcases s.aggregateSignature_cases env with same | failed | ⟨_, _, _, _, complete⟩
  · rw [same]
    exact Quiet.refl s
  · rw [failed]
    exact ⟨rfl, rfl, fun collecting => absurd collecting (ends (.inl rfl))⟩
  · rw [complete]
    exact ⟨rfl, rfl, fun collecting => absurd collecting (ends (.inr rfl))⟩

private theorem lives_getD {result : Option MuSig2SigningSession} (lives : Lives s)
    (quiet : ∀ {s'}, result = some s' → Quiet s s') : Lives (result.getD s) := by
  cases outcome : result with
  | none => exact lives
  | some s' => exact (quiet outcome).lives lives

theorem lives_call (lives : Lives s) (call : SessionCall) : Lives (s.call env call) := by
  cases call with
  | initializePassive cache => exact lives_getD lives quiet_initializePassive
  | generateNonce id key pubkey cache secrand =>
    exact lives_generateNonce lives id key pubkey cache secrand
  | addPubnonce id pubnonce => exact lives_getD lives quiet_addPubnonce
  | setKeyAggCache cache => exact Quiet.lives ⟨rfl, rfl, fun collecting => collecting⟩ lives
  | setEpochSelectionSeed seed => exact Quiet.lives ⟨rfl, rfl, fun collecting => collecting⟩ lives
  | trimNoncesToThreshold => exact Quiet.lives ⟨rfl, rfl, fun collecting => collecting⟩ lives
  | trimNoncesToParticipants participants =>
    exact (quiet_trimNoncesToParticipants s participants).lives lives
  | aggregateNonces message => exact (quiet_aggregateNonces s message).lives lives
  | createPartialSignature id key => exact lives_createPartialSignature lives id key
  | addPartialSignature id sig => exact lives_getD lives quiet_addPartialSignature
  | addPartialSignatureVerified id sig pubkey =>
    exact lives_getD lives quiet_addPartialSignatureVerified
  | aggregateSignature => exact (quiet_aggregateSignature s).lives lives
  | setSignedValues price timestamp =>
    exact Quiet.lives ⟨rfl, rfl, fun collecting => collecting⟩ lives
  | checkTimeout height => exact lives_checkTimeout lives height
  | setTimeoutBlocks blocks => exact Quiet.lives ⟨rfl, rfl, fun collecting => collecting⟩ lives
  | setCreationHeight height => exact Quiet.lives ⟨rfl, rfl, fun collecting => collecting⟩ lives

theorem lives_calls (calls : List SessionCall) (lives : Lives s) :
    Lives (calls.foldl (MuSig2SigningSession.call env) s) := by
  induction calls generalizing s with
  | nil => exact lives
  | cons call rest ih => exact ih (lives_call lives call)

theorem lives_of_no_events (events : s.nonce_events = [])
    (secnonces : ∀ id, s.m_secnonces id = none) :
    Lives s := by
  intro id
  refine .inl ⟨?_, secnonces id⟩
  unfold MuSig2SigningSession.history
  rw [events]
  rfl

/-! The orchestrator. -/

variable {o o' : OracleSigningOrchestrator} {epoch : ℤ}

/-- The lives of the secret nonces of all sessions that there are or were. -/
def AllLive (o : OracleSigningOrchestrator) : Prop := ∀ s, o.Had s → Lives s

namespace AllLive

theorem fresh : AllLive {} := by
  rintro s ⟨epoch, found | dropped⟩
  · cases found
  · cases dropped

theorem session (live : AllLive o) (found : o.m_signing_sessions epoch = some s) : Lives s :=
  live s ⟨epoch, .inl found⟩

theorem congr (live : AllLive o) (sessions : o'.m_signing_sessions = o.m_signing_sessions)
    (dropped : o'.dropped_sessions = o.dropped_sessions) : AllLive o' := by
  rintro s ⟨epoch, had⟩
  rw [sessions, dropped] at had
  exact live s ⟨epoch, had⟩

theorem replace (live : AllLive o) (lives : Lives s)
    (sessions : o'.m_signing_sessions = Function.update o.m_signing_sessions epoch (some s))
    (dropped : ∀ e, ∀ t ∈ o'.dropped_sessions e, o.Had t) : AllLive o' := by
  rintro t ⟨e, found | gone⟩
  · rw [sessions] at found
    by_cases same : e = epoch
    · rw [same, Function.update_self, Option.some.injEq] at found
      rw [← found]
      exact lives
    · rw [Function.update_of_ne same] at found
      exact live.session found
  · exact live t (dropped e t gone)

theorem put (live : AllLive o) (lives : Lives s) : AllLive (o.putSession epoch s) :=
  live.replace lives rfl fun e _ gone => ⟨e, .inr gone⟩

theorem openSession (live : AllLive o) {attempt : ℕ}
    {opened : MuSig2SigningSession × OracleSigningOrchestrator}
    (result : o.openSession env epoch attempt = some opened) :
    Lives opened.1 ∧ AllLive opened.2 := by
  rcases OracleSigningOrchestrator.openSession_eq_some result with ⟨found, same⟩ |
    ⟨-, -, fresh, put⟩
  · rw [same]
    exact ⟨live.session found, live⟩
  · have lives : Lives opened.1 := by
      rw [fresh]
      exact lives_of_no_events rfl fun _ => rfl
    rw [put]
    exact ⟨lives, live.put lives⟩

end AllLive

theorem lives_addNonceEvidence (lives : Lives s) (msg : OracleMusigNonceMsg) :
    Lives (env.addNonceEvidenceToSession msg s).2 := by
  have initialized_lives : ∀ {ready}, env.initializeForNonces s = some ready → Lives ready := by
    intro ready initialized
    unfold OracleEnv.initializeForNonces at initialized
    split_ifs at initialized
    · obtain ⟨aggregate, _, passive⟩ := Option.bind_eq_some_iff.mp initialized
      exact (quiet_initializePassive passive).lives lives
    · rw [← Option.some.inj initialized]
      exact lives
  rcases env.addNonceEvidenceToSession_cases msg s with
    unchanged | ⟨_, ready, _, _, _, _, initialized, started | ⟨_, added⟩⟩
  · rw [unchanged]
    exact lives
  · rw [started]
    exact initialized_lives initialized
  · exact (quiet_addPubnonce added).lives (initialized_lives initialized)

theorem lives_tryApply (lives : Lives s) {msg : OracleMusigPartialSigMsg}
    (applied : env.tryApplyRemotePartialSig msg s = some s') : Lives s' := by
  obtain ⟨_, _, _, _, _, added⟩ := OracleEnv.tryApplyRemotePartialSig_eq_some applied
  exact (quiet_addPartialSignatureVerified added).lives lives

namespace AllLive

theorem ingestRemoteNonce (live : AllLive o) (msg : OracleMusigNonceMsg) :
    AllLive (o.ingestRemoteNonce env msg) := by
  unfold OracleSigningOrchestrator.ingestRemoteNonce
  split
  · exact live
  · next opened result =>
    obtain ⟨lives, live'⟩ := live.openSession result
    have added :
        AllLive (opened.2.putSession msg.epoch (env.addNonceEvidenceToSession msg opened.1).2) :=
      live'.put (lives_addNonceEvidence lives msg)
    split
    · exact live'
    · dsimp only
      split
      · exact added.congr rfl rfl
      · exact added

theorem addContextNonces (nonces : List OracleMusigNonceMsg) (live : AllLive o) (lives : Lives s) :
    AllLive (OracleSigningOrchestrator.addContextNonces env epoch nonces o s).2 := by
  induction nonces generalizing o s with
  | nil => exact live.put lives
  | cons nonce rest ih =>
    unfold OracleSigningOrchestrator.addContextNonces
    dsimp only
    split
    · exact live.put (lives_addNonceEvidence lives nonce)
    · exact ih (live.congr rfl rfl) (lives_addNonceEvidence lives nonce)

theorem ingestRemoteContext (live : AllLive o) (msg : OracleMusigContextMsg) :
    AllLive (o.ingestRemoteContext env msg) := by
  unfold OracleSigningOrchestrator.ingestRemoteContext
  dsimp only
  split
  · exact live
  split
  · exact live
  split
  · exact live
  · next opened result =>
    obtain ⟨lives, live'⟩ := live.openSession result
    have seeded : Lives (o.seedSession msg.epoch opened.1) := by
      unfold OracleSigningOrchestrator.seedSession
      split
      · exact Quiet.lives ⟨rfl, rfl, fun collecting => collecting⟩ lives
      · exact lives
    have added : AllLive (OracleSigningOrchestrator.addContextNonces env msg.epoch
        msg.nonce_evidence opened.2
      (o.seedSession msg.epoch opened.1)).2 := addContextNonces msg.nonce_evidence live' seeded
    split
    · exact live'.put seeded
    split
    · exact added
    · unfold OracleSigningOrchestrator.storePendingContext
      dsimp only
      split <;> exact added.congr rfl rfl

theorem ingestRemotePartialSig (live : AllLive o) (msg : OracleMusigPartialSigMsg) :
    AllLive (o.ingestRemotePartialSig env msg) := by
  unfold OracleSigningOrchestrator.ingestRemotePartialSig
  split
  · exact live
  split
  · exact live
  · next opened result =>
    obtain ⟨lives, live'⟩ := live.openSession result
    split
    · exact live'
    split
    · next session applied =>
      have applied := lives_tryApply lives applied
      refine live'.put ?_
      split
      · exact (quiet_aggregateSignature session).lives applied
      · exact applied
    · split
      · unfold OracleSigningOrchestrator.bufferPendingPartialSig
        dsimp only
        split_ifs <;> exact live'.congr rfl rfl
      · exact live'

theorem setEpochSelectionSeed (live : AllLive o) (epoch : ℤ) (seed : Hash) :
    AllLive (o.setEpochSelectionSeed epoch seed) := by
  unfold OracleSigningOrchestrator.setEpochSelectionSeed
  split
  · exact live
  dsimp only
  split
  · exact live.congr rfl rfl
  · next session found =>
    have lives : Lives session := live.session found
    have lives : Lives { session with m_epoch_selection_seed := seed } :=
      Quiet.lives ⟨rfl, rfl, fun collecting => collecting⟩ lives
    exact (live.put lives).congr rfl rfl

end AllLive

/-! A tick. -/

/-- The session a tick works on, and the orchestrator around it. -/
structure TickLive (state : TickState) : Prop where
  lives : Lives state.1
  all : AllLive state.2

theorem lives_freezeParticipants (lives : Lives s) (tick : Tick) (context : OracleMusigContextMsg) :
    Lives (freezeParticipants env tick context s).2 := by
  have valued : Lives { s with
      m_signed_price := context.consensus_price
      m_signed_timestamp := context.consensus_timestamp } :=
    Quiet.lives ⟨rfl, rfl, fun collecting => collecting⟩ lives
  have trimmed := (quiet_trimNoncesToParticipants _ context.participant_ids).lives valued
  unfold freezeParticipants
  dsimp only
  split
  · exact trimmed
  · refine (quiet_aggregateNonces _ _).lives ?_
    cases env.computeAggregatePubkey _ with
    | none => exact trimmed
    | some aggregate => exact Quiet.lives ⟨rfl, rfl, fun collecting => collecting⟩ trimmed

namespace TickLive

variable {tick : Tick} {state : TickState}

theorem fold (f : TickState → ℕ → TickState)
    (step : ∀ {state} oid, TickLive state → TickLive (f state oid))
    (ids : List ℕ) (live : TickLive state) : TickLive (ids.foldl f state) := by
  induction ids generalizing state with
  | nil => exact live
  | cons oid rest ih => exact ih (step oid live)

theorem addLocalNonce (live : TickLive state) (cache key pubkey : Bytes) (oid : ℕ) :
    TickLive (addLocalNonce env tick cache key pubkey oid state) := by
  have generated :
      Lives (state.1.generateNonce env (oid8 oid) key pubkey cache (tick.secrand oid)).2 :=
    lives_generateNonce live.lives _ _ _ _ _
  unfold Oracle.addLocalNonce
  dsimp only
  split
  · exact ⟨generated, live.all⟩
  · next pubnonce _ =>
    split
    · exact ⟨lives_getD generated quiet_addPubnonce, live.all⟩
    · exact ⟨lives_getD generated quiet_addPubnonce, live.all.congr rfl rfl⟩

theorem generateLocalNonces (live : TickLive state) :
    TickLive (generateLocalNonces env keys tick state) := by
  unfold Oracle.generateLocalNonces
  split
  · exact live
  split
  · exact live
  · refine fold _ ?_ tick.local_ids live
    intro state oid live
    unfold localNonce
    split
    · exact live
    split
    · exact live
    split
    · exact live
    · exact live.addLocalNonce ..

theorem addLocalPartialSig (live : TickLive state) (key : Bytes) (id : OracleId) :
    TickLive (addLocalPartialSig env tick key id state) := by
  have created : Lives (state.1.createPartialSignature env id key).2 :=
    lives_createPartialSignature live.lives id key
  unfold Oracle.addLocalPartialSig
  dsimp only
  split
  · exact ⟨created, live.all⟩
  split
  · exact ⟨lives_getD created quiet_addPartialSignature, live.all⟩
  · exact ⟨lives_getD created quiet_addPartialSignature, live.all.congr rfl rfl⟩

theorem signContext (live : TickLive state) (context : OracleMusigContextMsg) :
    TickLive (signContext env keys tick context state).2 := by
  have frozen : Lives (freezeParticipants env tick context state.1).2 :=
    lives_freezeParticipants live.lives tick context
  unfold Oracle.signContext
  dsimp only
  split
  · exact ⟨frozen, live.all⟩
  · exact ⟨frozen, live.all⟩
  split
  · exact ⟨frozen, live.all⟩
  · refine fold _ ?_ tick.local_ids ⟨frozen, live.all⟩
    intro state oid live
    unfold localPartialSig
    split
    · exact live
    split
    · exact live
    split
    · exact live
    · exact live.addLocalPartialSig ..

theorem converge (live : TickLive state) : TickLive (converge env keys tick state).2 := by
  have seeded : TickLive
      ({ state.1 with m_epoch_selection_seed := state.2.getSelectionSeedForEpoch env tick.epoch },
        state.2) :=
    ⟨Quiet.lives ⟨rfl, rfl, fun collecting => collecting⟩ live.lives, live.all⟩
  unfold Oracle.converge
  dsimp only
  split
  · exact live
  split
  · exact live
  split
  · exact seeded
  split
  · exact seeded.signContext _
  split
  · exact seeded
  split
  · exact ⟨seeded.lives, seeded.all.congr rfl rfl⟩
  · exact seeded

theorem drainAndAggregate (live : TickLive state) :
    TickLive (drainAndAggregate env tick state) := by
  have applied : ∀ (msgs : List OracleMusigPartialSigMsg) {s : MuSig2SigningSession}, Lives s →
      Lives (msgs.foldl (applyPartialSig env) s) := by
    intro msgs
    induction msgs with
    | nil => exact fun lives => lives
    | cons msg rest ih =>
      intro s lives
      refine ih ?_
      unfold applyPartialSig
      cases outcome : env.tryApplyRemotePartialSig msg s with
      | none => exact lives
      | some after => exact lives_tryApply lives outcome
  have taken : AllLive (takePending tick state).2 := by
    unfold takePending
    dsimp only
    split
    · exact live.all
    · exact live.all.congr rfl rfl
  unfold Oracle.drainAndAggregate
  dsimp only
  split
  · exact live
  · refine ⟨?_, taken⟩
    dsimp only
    split
    · exact (quiet_aggregateSignature _).lives (applied _ live.lives)
    · exact applied _ live.lives

theorem tickSession (live : TickLive state) : TickLive (tickSession env keys tick state) := by
  have seeded : TickLive (seedTick env tick state) := by
    unfold seedTick
    split
    · exact ⟨Quiet.lives ⟨rfl, rfl, fun collecting => collecting⟩ live.lives, live.all⟩
    · exact live
  have converged : TickLive
      (Oracle.converge env keys tick
        (Oracle.generateLocalNonces env keys tick (seedTick env tick state))).2 :=
    seeded.generateLocalNonces.converge
  unfold Oracle.tickSession
  dsimp only
  split
  · exact converged
  · have signed : TickLive (Oracle.drainAndAggregate env tick
        (Oracle.converge env keys tick
          (Oracle.generateLocalNonces env keys tick (seedTick env tick state))).2) :=
      converged.drainAndAggregate
    exact ⟨lives_checkTimeout signed.lives tick.block_height, signed.all⟩

end TickLive

theorem AllLive.restart (live : AllLive o) (tick : Tick) (lives : Lives s) :
    TickLive (o.restartEpochAttemptIfNeeded env tick s) := by
  unfold OracleSigningOrchestrator.restartEpochAttemptIfNeeded
  dsimp only
  split
  · exact ⟨lives, live⟩
  split
  · exact ⟨lives, live⟩
  · have fresh : Lives (o.newSession env tick.epoch (o.m_epoch_attempts tick.epoch + 1)
        (OracleSigningOrchestrator.creationHeight env tick)) := lives_of_no_events rfl fun _ => rfl
    refine ⟨fresh, ?_⟩
    rintro t ⟨e, found | gone⟩
    · exact (live.put fresh) t ⟨e, .inl found⟩
    · dsimp only at gone
      by_cases same : e = tick.epoch
      · rw [same, Function.update_self] at gone
        rcases List.mem_cons.mp gone with rfl | gone
        · exact lives
        · exact live t ⟨_, .inr gone⟩
      · rw [Function.update_of_ne same] at gone
        exact live t ⟨_, .inr gone⟩

theorem AllLive.tickEpochSession (live : AllLive o) (tick : Tick) :
    AllLive (o.tickEpochSession env keys tick) := by
  have found : TickLive (o.getOrCreateSigningSession env tick) := by
    unfold OracleSigningOrchestrator.getOrCreateSigningSession
    dsimp only
    split
    · next session found => exact ⟨live.session found, live⟩
    · have fresh : Lives (o.newSession env tick.epoch (o.m_epoch_attempts tick.epoch)
          (OracleSigningOrchestrator.creationHeight env tick)) := lives_of_no_events rfl
            fun _ => rfl
      exact ⟨fresh, live.put fresh⟩
  have ticked : TickLive (tickSession env keys tick
      ((o.getOrCreateSigningSession env tick).2.restartEpochAttemptIfNeeded env tick
        (o.getOrCreateSigningSession env tick).1)) :=
    (found.all.restart tick found.lives).tickSession
  exact ticked.all.put ticked.lives

/-! Any operations. -/

theorem AllLive.call (live : AllLive o) (call : Call) : AllLive (o.call env keys call) := by
  cases call with
  | ingestRemoteNonce msg => exact live.ingestRemoteNonce msg
  | ingestRemoteContext msg => exact live.ingestRemoteContext msg
  | ingestRemotePartialSig msg => exact live.ingestRemotePartialSig msg
  | setEpochSelectionSeed epoch seed => exact live.setEpochSelectionSeed epoch seed
  | tickEpochSession tick => exact live.tickEpochSession tick

private theorem had_of_forgotten (e : ℤ)
    (gone : s ∈ (o.m_signing_sessions e).toList ++ o.dropped_sessions e) : o.Had s := by
  rcases List.mem_append.mp gone with found | gone
  · exact ⟨e, .inl (Option.mem_toList.mp found)⟩
  · exact ⟨e, .inr gone⟩

theorem AllLive.cleanupOldSessions (live : AllLive o) (current_epoch : ℤ) :
    AllLive (o.cleanupOldSessions current_epoch) := by
  rintro s ⟨e, found | gone⟩
  · unfold OracleSigningOrchestrator.cleanupOldSessions at found
    dsimp only at found
    split at found
    · cases found
    · exact live.session found
  · unfold OracleSigningOrchestrator.cleanupOldSessions at gone
    dsimp only at gone
    split at gone
    · exact live s (had_of_forgotten e gone)
    · exact live s ⟨e, .inr gone⟩

theorem AllLive.injectSession (live : AllLive o)
    (lives : Lives s) : AllLive (o.injectSession epoch s) := by
  refine live.replace lives rfl ?_
  intro e t gone
  unfold OracleSigningOrchestrator.injectSession at gone
  dsimp only at gone
  by_cases same : e = epoch
  · rw [same, Function.update_self] at gone
    exact had_of_forgotten epoch gone
  · rw [Function.update_of_ne same] at gone
    exact ⟨e, .inr gone⟩

theorem AllLive.operate (live : AllLive o) (operation : Operation) :
    AllLive (o.operate env keys operation) := by
  cases operation with
  | call call => exact live.call call
  | session epoch call =>
    unfold OracleSigningOrchestrator.operate
    dsimp only
    split
    · exact live
    · next session found => exact live.put (lives_call (live.session found) call)
  | cleanupOldSessions current_epoch => exact live.cleanupOldSessions current_epoch
  | clear =>
    rintro s ⟨e, found | gone⟩
    · cases found
    · exact live s (had_of_forgotten e gone)
  | injectSession epoch session_epoch min_signers attempt_id used =>
    exact live.injectSession (lives_calls used (lives_of_no_events rfl fun _ => rfl))

theorem AllLive.operations (live : AllLive o) (operations : List Operation) :
    AllLive (operations.foldl (OracleSigningOrchestrator.operate env keys) o) := by
  induction operations generalizing o with
  | nil => exact live
  | cons operation rest ih => exact ih (live.operate operation)

private theorem mem_history {event : NonceEvent} (member : event ∈ s.nonce_events) :
    event ∈ s.history event.oracleId :=
  List.mem_filter.mpr ⟨member, by simp⟩

private theorem NonceLife.of_signed {secnonce session : Bytes} {partial_sig : Option Bytes}
    (life : NonceLife s id) (signed : .signed id secnonce session partial_sig ∈ s.nonce_events) :
    s.history id = [.signed id secnonce session partial_sig, .generated id secnonce] := by
  have member := mem_history signed
  rcases life with ⟨fresh, _⟩ | ⟨_, made, _⟩ | ⟨made, event, ends, list, _⟩
  · simp [NonceEvent.oracleId, fresh] at member
  · simp [NonceEvent.oracleId, made] at member
  · simp only [NonceEvent.oracleId, list, List.mem_cons, List.not_mem_nil, or_false, reduceCtorEq]
      at member
    rw [list, ← member]
    rcases ends with ⟨_, _, ended⟩ | ended
    · rw [← member, NonceEvent.signed.injEq] at ended
      rw [ended.2.1]
    · rw [← member] at ended
      cases ended

private theorem generated_of_history {event : NonceEvent} {secnonce : Bytes}
    (history : s.history id = [event, .generated id secnonce]) :
    .generated id secnonce ∈ s.nonce_events := by
  have member : NonceEvent.generated id secnonce ∈ s.history id := by simp [history]
  exact (List.mem_filter.mp member).1

/-- After any operations, in any order and with any of them failing, each secret nonce of each
session there is or was has been made once and signed with or wiped at most once, and a nonce
that the randomness did not repeat signed for one session and one message. -/
theorem secret_nonces_used_once (env : OracleEnv) (keys : ℕ → Option Bytes)
    (operations : List Operation) (o : OracleSigningOrchestrator)
    (reached : o = operations.foldl (OracleSigningOrchestrator.operate env keys) {}) :
    (∀ s, o.Had s → ∀ id, NonceLife s id) ∧
    ∀ secnonce, o.GeneratedOnce secnonce → ∀ s s' id id' session session' partial_sig partial_sig',
      o.Had s → o.Had s' → .signed id secnonce session partial_sig ∈ s.nonce_events →
      .signed id' secnonce session' partial_sig' ∈ s'.nonce_events →
      s = s' ∧ id = id' ∧ session = session' ∧ partial_sig = partial_sig' := by
  have live : AllLive o := by
    rw [reached]
    exact AllLive.fresh.operations operations
  refine ⟨live, ?_⟩
  intro secnonce once s s' id id' session session' partial_sig partial_sig' had had' signed signed'
  have history := (live s had id).of_signed signed
  have history' := (live s' had' id').of_signed signed'
  obtain ⟨rfl, rfl⟩ :=
    once s s' id id' had had' (generated_of_history history) (generated_of_history history')
  rw [history, List.cons.injEq, NonceEvent.signed.injEq] at history'
  obtain ⟨⟨_, _, sessions, sigs⟩, _⟩ := history'
  exact ⟨rfl, rfl, sessions, sigs⟩

end Proofs

namespace Sample

/-- The node signs, and is asked to sign once more. -/
def signingTwice : OracleSigningOrchestrator :=
  (signingCalls.map Operation.call ++ [Operation.session 1 (.createPartialSignature 0 [10])]).foldl
    (OracleSigningOrchestrator.operate env keys) {}

def signedSession : MuSig2SigningSession :=
  (signingTwice.m_signing_sessions 1).getD (.create env 1 2 0)

theorem signedSession_found : signingTwice.m_signing_sessions 1 = some signedSession := by
  have found : (signingTwice.m_signing_sessions 1).isSome := by decide +kernel
  unfold signedSession
  obtain ⟨session, found⟩ := Option.isSome_iff_exists.mp found
  rw [found]
  rfl

theorem signed_once : (signedSession.history 0).length = 2 ∧ NonceLife signedSession 0 :=
  ⟨by decide +kernel,
    (secret_nonces_used_once env keys _ signingTwice rfl).1 signedSession ⟨1,
      .inl signedSession_found⟩ 0⟩

end Sample

end DigiByte.Oracle
