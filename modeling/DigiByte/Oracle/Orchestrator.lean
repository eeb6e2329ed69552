import DigiByte.Library.MapWeight
import DigiByte.Oracle.Session

/-!
The signing orchestrator (`signing_orchestrator.cpp`): what a node does with the
messages of its peers and at each block.

Sending is left out, with the lists of messages still to be sent that only the
sending reads. The clock, the random numbers, the running local oracles and the
pending price messages that a call reads are its inputs.
-/

set_option autoImplicit false
set_option relaxedAutoImplicit false

namespace DigiByte.Oracle

open Consensus (Params)
open Library.MapWeight (find_erase)
open Script (Bytes)

def MAX_PENDING_PARTIALSIGS_PER_CONTEXT : ℕ := 40
def MAX_PENDING_PARTIALSIG_CONTEXTS_PER_EPOCH : ℕ := 8
def MAX_PENDING_PARTIALSIGS_PER_EPOCH : ℕ := 128
def MAX_PENDING_PARTIALSIG_EPOCHS : ℕ := 8
def MAX_PENDING_CONTEXT_PROPOSALS_PER_EPOCH : ℕ := 32
def MAX_MUSIG2_ATTEMPTS_PER_EPOCH : ℕ := 8
def CONTEXT_PROPOSAL_ROUND_BLOCKS : ℤ := 2
def CONTEXT_NONCE_GRACE_BLOCKS : ℤ := 2

def getEpochStartHeight (params : Params) (epoch : ℤ) : ℤ := epoch * epochLength params

/-- `static_cast<uint8_t>` of an oracle number. -/
def oid8 (oid : ℕ) : OracleId := Fin.ofNat 256 oid

/-! Checks of a context proposal. -/

namespace OracleEnv

variable (env : OracleEnv)

/-- `GetConsensusOracleIdsForSigning`. -/
def consensusOracleIdsForSigning : List OracleId :=
  if env.params.nOraclePubkeyCount ≤ 0 then []
  else
    (env.chain.vOracleNodes.filter fun node =>
      node.is_active && (node.id : ℤ) < env.params.nOraclePubkeyCount && node.id ≤ 255).map
        fun node => oid8 node.id

def oracleQuoteSetHash (epoch : ℤ) (messages : List COraclePriceMessage) : Hash :=
  env.sha (.quoteSet env.genesis epoch
    ((messages.insertionSort fun a b => a.oracle_id ≤ b.oracle_id).map fun msg =>
      (msg.oracle_id, msg.price_micro_usd, msg.timestamp, msg.oracle_pubkey, msg.schnorr_sig)))

/-- The checks of one price message in the evidence. -/
def priceEvidenceValid (participants : List OracleId) (now : ℤ)
    (msg : COraclePriceMessage) : Bool :=
  msg.oracle_id ≤ 255 && oid8 msg.oracle_id ∈ participants &&
    env.isAuthorizedMuSig2OracleIdForRelay (oid8 msg.oracle_id) &&
    (env.chain.getOracleNode (oid8 msg.oracle_id)).any fun oracle_config =>
      xonly oracle_config.pubkey = msg.oracle_pubkey && env.priceIsValid msg now

/-- `VerifyOraclePriceEvidence` at the time `now`. -/
def verifyOraclePriceEvidence (now : ℤ) (msg : OracleMusigContextMsg) : Bool :=
  msg.price_evidence.length = msg.participant_ids.length &&
    msg.price_evidence.all (env.priceEvidenceValid msg.participant_ids now) &&
    (msg.price_evidence.map fun price => oid8 price.oracle_id).Nodup &&
    msg.price_evidence.length = (sortedIds msg.participant_ids).length &&
    computeConsensusValuesFromEvidence msg.price_evidence =
      some (msg.consensus_price, msg.consensus_timestamp) &&
    env.oracleQuoteSetHash msg.epoch msg.price_evidence = msg.quote_set_hash

/-- The checks of one nonce message in the evidence. -/
def nonceEvidenceValid (msg : OracleMusigContextMsg) (nonce : OracleMusigNonceMsg) : Bool :=
  nonce.epoch = msg.epoch && nonce.attempt_id = msg.attempt_id &&
    env.isAuthorizedMuSig2OracleIdForRelay nonce.oracle_id &&
    (env.chain.getOracleNode nonce.oracle_id).any fun oracle_config =>
      env.verifyNonce nonce (xonly oracle_config.pubkey)

/-- `ValidateContextProposal`. -/
def validateContextProposal (now : ℤ) (msg : OracleMusigContextMsg)
    (session : MuSig2SigningSession) :
    Bool :=
  let evidence_ids := msg.nonce_evidence.map OracleMusigNonceMsg.oracle_id
  msg.isValid && msg.epoch = session.m_epoch && msg.attempt_id = session.m_attempt_id &&
    msg.epoch_selection_seed = session.m_epoch_selection_seed &&
    ((env.chain.getOracleNode msg.proposer_id).any fun proposer_config =>
      env.verifyContext msg (xonly proposer_config.pubkey)) &&
    (msg.participant_ids.length : ℤ) = env.params.nOracleConsensusRequired &&
    msg.participant_ids.Nodup &&
    (msg.participant_ids.all fun id => env.isAuthorizedMuSig2OracleIdForRelay id) &&
    env.sortOracleIdsByEpochSeed msg.participant_ids msg.epoch msg.epoch_selection_seed =
      msg.participant_ids &&
    env.verifyOraclePriceEvidence now msg &&
    msg.participant_ids.length ≤ msg.nonce_evidence.length &&
    msg.nonce_evidence.all (env.nonceEvidenceValid msg) && evidence_ids.Nodup &&
    (env.sortOracleIdsByEpochSeed evidence_ids msg.epoch msg.epoch_selection_seed).take
      msg.participant_ids.length = msg.participant_ids &&
    !(msg.participant_ids.length ≤ session.m_pubnonces.ids.length &&
      msg.participant_ids ≠ session.getRequiredParticipants env) &&
    session.computeContextIdForParticipants env msg.participant_ids
        (env.oracleMessageHash msg.epoch msg.consensus_price msg.consensus_timestamp) =
      some (msg.nonce_set_hash, msg.session_context_id)

/-! Messages applied to a session. -/

/-- The first nonce moves a new session to collecting, under the key of all oracles. -/
def initializeForNonces (session : MuSig2SigningSession) : Option MuSig2SigningSession :=
  if session.m_state = .created then
    (env.computeAggregatePubkey env.consensusOracleIdsForSigning).bind fun aggregate =>
      session.initializePassive aggregate.2
  else some session

/-- `AddNonceEvidenceToSession`: whether the session has a nonce of this oracle, and the session. -/
def addNonceEvidenceToSession (msg : OracleMusigNonceMsg) (session : MuSig2SigningSession) :
    Bool × MuSig2SigningSession :=
  if msg.isValid = false then (false, session)
  else if msg.epoch ≠ session.m_epoch then (false, session)
  else if msg.attempt_id ≠ session.m_attempt_id then (false, session)
  else if env.isAuthorizedMuSig2OracleIdForRelay msg.oracle_id = false then (false, session)
  else
    match env.chain.getOracleNode msg.oracle_id with
    | none => (false, session)
    | some oracle_config =>
      if env.verifyNonce msg (xonly oracle_config.pubkey) = false then (false, session)
      else
        match env.initializeForNonces session with
        | none => (false, session)
        | some session =>
          if msg.pubnonce.length ≠ 66 then (false, session)
          else
            match (env.secp.pubnonceParse msg.pubnonce).bind
              (session.addPubnonce env msg.oracle_id) with
            | some added => (true, added)
            | none => ((session.m_pubnonces msg.oracle_id).isSome, session)

/-- `TryApplyRemotePartialSig`. -/
def tryApplyRemotePartialSig (msg : OracleMusigPartialSigMsg) (session : MuSig2SigningSession) :
    Option MuSig2SigningSession :=
  if msg.partial_sig.length ≠ 32 then none
  else if msg.attempt_id ≠ session.m_attempt_id then none
  else if msg.context_version ≠ ORACLE_MUSIG2_SESSION_CONTEXT_VERSION ∨
    msg.session_context_id = 0 then none
  else if session.m_session_context_id = 0 ∨
    msg.session_context_id ≠ session.m_session_context_id then none
  else
    (env.secp.partialSigParse msg.partial_sig).bind fun partial_sig =>
      (env.chain.getOracleNode msg.oracle_id).bind fun oracle_cfg =>
        (env.secp.pubkeyParse oracle_cfg.pubkey).bind fun signer_pk =>
          session.addPartialSignatureVerified env msg.oracle_id partial_sig signer_pk

/-- What a nonce message can do to a session. -/
theorem addNonceEvidenceToSession_cases (msg : OracleMusigNonceMsg) (s : MuSig2SigningSession) :
    (env.addNonceEvidenceToSession msg s).2 = s ∨
    ∃ oracle ready, env.chain.getOracleNode msg.oracle_id = some oracle ∧
      env.verifyNonce msg (xonly oracle.pubkey) = true ∧ msg.epoch = s.m_epoch ∧
      msg.attempt_id = s.m_attempt_id ∧ env.initializeForNonces s = some ready ∧
      ((env.addNonceEvidenceToSession msg s).2 = ready ∨
        ∃ pubnonce, ready.addPubnonce env msg.oracle_id pubnonce =
          some (env.addNonceEvidenceToSession msg s).2) := by
  unfold addNonceEvidenceToSession
  by_cases refused : msg.isValid = false ∨ msg.epoch ≠ s.m_epoch ∨ msg.attempt_id ≠ s.m_attempt_id ∨
      env.isAuthorizedMuSig2OracleIdForRelay msg.oracle_id = false
  · left
    rcases refused with refused | refused | refused | refused <;> simp [refused]
  obtain ⟨valid, epoch, attempt, authorized⟩ : msg.isValid ≠ false ∧ msg.epoch = s.m_epoch ∧
      msg.attempt_id = s.m_attempt_id ∧
        env.isAuthorizedMuSig2OracleIdForRelay msg.oracle_id ≠ false := by
    tauto
  rw [if_neg valid, if_neg (not_not.mpr epoch), if_neg (not_not.mpr attempt), if_neg authorized]
  cases node : env.chain.getOracleNode msg.oracle_id with
  | none => exact .inl rfl
  | some oracle =>
    dsimp only
    by_cases verified : env.verifyNonce msg (xonly oracle.pubkey) = false
    · exact .inl (by rw [if_pos verified])
    rw [if_neg verified]
    cases initialized : env.initializeForNonces s with
    | none => exact .inl rfl
    | some ready =>
      refine .inr ⟨oracle, ready, rfl, by simpa using verified, epoch, attempt, rfl, ?_⟩
      dsimp only
      by_cases size : msg.pubnonce.length ≠ 66
      · exact .inl (by rw [if_pos size])
      rw [if_neg size]
      cases adding : (env.secp.pubnonceParse msg.pubnonce).bind
        (ready.addPubnonce env msg.oracle_id) with
      | none => exact .inl rfl
      | some added =>
        obtain ⟨pubnonce, _, adding⟩ := Option.bind_eq_some_iff.mp adding
        exact .inr ⟨pubnonce, adding⟩

variable {env} {s : MuSig2SigningSession}

theorem tryApplyRemotePartialSig_eq_some {msg : OracleMusigPartialSigMsg}
    {s' : MuSig2SigningSession} (applied : env.tryApplyRemotePartialSig msg s = some s') :
    ∃ partial_sig oracle signer_pk, env.chain.getOracleNode msg.oracle_id = some oracle ∧
      env.secp.pubkeyParse oracle.pubkey = some signer_pk ∧
      s.addPartialSignatureVerified env msg.oracle_id partial_sig signer_pk = some s' := by
  unfold tryApplyRemotePartialSig at applied
  split_ifs at applied
  obtain ⟨partial_sig, _, applied⟩ := Option.bind_eq_some_iff.mp applied
  obtain ⟨oracle, node, applied⟩ := Option.bind_eq_some_iff.mp applied
  obtain ⟨signer_pk, parsed, applied⟩ := Option.bind_eq_some_iff.mp applied
  exact ⟨partial_sig, oracle, signer_pk, node, parsed, applied⟩

end OracleEnv

/-! The state of the orchestrator. -/

/-- What a tick reads besides the state. -/
structure Tick where
  epoch : ℤ
  block_height : ℤ
  now : ℤ
  local_ids : List ℕ := []
  secrand : ℕ → Bytes := fun _ => []
  pending : Option (List COraclePriceMessage) := none

/-- A null seed stands for none and attempt 0 for an epoch without an entry, as the source
reads them. The last two fields are not kept by the source: they record the nonce messages
that the node signed and the sessions that it dropped. -/
structure OracleSigningOrchestrator where
  m_signing_sessions : ℤ → Option MuSig2SigningSession := fun _ => none
  m_nonce_broadcast_tracker : ℤ → List OracleId := fun _ => []
  m_context_broadcast_tracker : ℤ → List OracleId := fun _ => []
  m_partialsig_broadcast_tracker : ℤ → List OracleId := fun _ => []
  m_pending_contexts : Std.TreeMap ℤ (Std.TreeMap Hash OracleMusigContextMsg) := ∅
  m_pending_partialsigs : Std.TreeMap ℤ (Std.TreeMap Hash (List OracleMusigPartialSigMsg)) := ∅
  m_epoch_selection_seeds : ℤ → Hash := fun _ => 0
  m_epoch_attempts : ℤ → ℕ := fun _ => 0
  m_nonce_evidence : ℤ → OracleMap OracleMusigNonceMsg := fun _ _ => none
  signed_nonces : List OracleMusigNonceMsg := []
  dropped_sessions : ℤ → List MuSig2SigningSession := fun _ => []

/-- Drop the first entry when there are too many. -/
def evictFirst {β : Type} (m : Std.TreeMap ℤ β) : Std.TreeMap ℤ β :=
  if m.size > MAX_PENDING_PARTIALSIG_EPOCHS then (m.keys.head?).elim m m.erase else m

private theorem le_of_keys_eq_cons {β : Type} {m : Std.TreeMap ℤ β} {lowest other : ℤ}
    {later : List ℤ} (keys : m.keys = lowest :: later) (listed : m.contains other = true) :
    lowest ≤ other := by
  have ordered := @Std.TreeMap.ordered_keys ℤ β compare m _
  have member : other ∈ m.keys := Std.TreeMap.mem_keys.mpr listed
  rw [keys, List.pairwise_cons] at ordered
  rw [keys] at member
  rcases List.mem_cons.mp member with rfl | member
  · exact le_rfl
  · exact (compare_lt_iff_lt.mp (ordered.1 other member)).le

theorem evictFirst_spec {β : Type} {m : Std.TreeMap ℤ β}
    (size : m.size ≤ MAX_PENDING_PARTIALSIG_EPOCHS + 1) :
    (evictFirst m).size ≤ MAX_PENDING_PARTIALSIG_EPOCHS ∧
      (∀ (epoch : ℤ) value, (evictFirst m)[epoch]? = some value → m[epoch]? = some value) ∧
      ∀ epoch other : ℤ, other < epoch → m.contains other = true →
        (evictFirst m)[epoch]? = m[epoch]? := by
  unfold evictFirst
  by_cases large : m.size > MAX_PENDING_PARTIALSIG_EPOCHS
  · rw [if_pos large]
    cases keys : m.keys with
    | nil =>
      have count := @Std.TreeMap.length_keys ℤ β compare m _
      rw [keys, List.length_nil] at count
      omega
    | cons lowest later =>
      rw [List.head?_cons, Option.elim_some]
      have present : m.contains lowest = true := Std.TreeMap.mem_keys.mp (by simp [keys])
      refine ⟨?_, ?_, ?_⟩
      · rw [Std.TreeMap.size_erase, if_pos present]
        omega
      · intro epoch value found
        rw [find_erase] at found
        split_ifs at found
        exact found
      · intro epoch other below listed
        have first := le_of_keys_eq_cons keys listed
        rw [find_erase, if_neg (by omega)]
  · rw [if_neg large]
    exact ⟨not_lt.mp large, fun _ _ found => found, fun _ _ _ _ => rfl⟩

namespace OracleSigningOrchestrator

variable (env : OracleEnv) (o : OracleSigningOrchestrator)

def putSession (epoch : ℤ) (session : MuSig2SigningSession) : OracleSigningOrchestrator :=
  { o with m_signing_sessions := Function.update o.m_signing_sessions epoch (some session) }

def putEvidence (epoch : ℤ) (msg : OracleMusigNonceMsg) : OracleSigningOrchestrator :=
  let evidence := (o.m_nonce_evidence epoch).insert msg.oracle_id msg
  { o with m_nonce_evidence := Function.update o.m_nonce_evidence epoch evidence }

def getSelectionSeedForEpoch (epoch : ℤ) : Hash :=
  if o.m_epoch_selection_seeds epoch ≠ 0 then o.m_epoch_selection_seeds epoch else env.genesis

def hasSelectionSeedForEpoch (epoch : ℤ) : Bool := epoch = 0 || o.m_epoch_selection_seeds epoch ≠ 0

def setEpochSelectionSeed (epoch : ℤ) (seed : Hash) : OracleSigningOrchestrator :=
  if seed = 0 then o
  else
    let o :=
      { o with m_epoch_selection_seeds := Function.update o.m_epoch_selection_seeds epoch seed }
    match o.m_signing_sessions epoch with
    | none => o
    | some session => o.putSession epoch { session with m_epoch_selection_seed := seed }

/-- A new session with the seed known for the epoch. -/
def newSession (epoch : ℤ) (attempt_id : ℕ) (creation_height : ℤ) : MuSig2SigningSession where
  m_epoch := epoch
  m_attempt_id := attempt_id
  m_min_signers := (max 1 env.params.nOracleConsensusRequired).toNat % 256
  m_epoch_selection_seed := o.getSelectionSeedForEpoch env epoch
  m_creation_height := creation_height

/-- The session that a message is for, created when there is none and the attempt is the
epoch's current one. -/
def openSession (epoch : ℤ) (attempt_id : ℕ) :
    Option (MuSig2SigningSession × OracleSigningOrchestrator) :=
  match o.m_signing_sessions epoch with
  | some session => some (session, o)
  | none =>
    if attempt_id ≠ o.m_epoch_attempts epoch then none
    else
      let session := o.newSession env epoch attempt_id (getEpochStartHeight env.params epoch)
      some (session, o.putSession epoch session)

variable {env o} in
theorem openSession_eq_some {epoch : ℤ} {attempt_id : ℕ}
    {opened : MuSig2SigningSession × OracleSigningOrchestrator}
    (result : o.openSession env epoch attempt_id = some opened) :
    (o.m_signing_sessions epoch = some opened.1 ∧ opened.2 = o) ∨
      (o.m_signing_sessions epoch = none ∧ attempt_id = o.m_epoch_attempts epoch ∧
        opened.1 = o.newSession env epoch attempt_id (getEpochStartHeight env.params epoch) ∧
        opened.2 = o.putSession epoch opened.1) := by
  unfold openSession at result
  cases found : o.m_signing_sessions epoch with
  | some session =>
    rw [found] at result
    rw [← Option.some.inj result]
    exact .inl ⟨rfl, rfl⟩
  | none =>
    rw [found] at result
    dsimp only at result
    split_ifs at result with other
    rw [← Option.some.inj result]
    exact .inr ⟨rfl, not_not.mp other, rfl, rfl⟩

def ingestRemoteNonce (msg : OracleMusigNonceMsg) : OracleSigningOrchestrator :=
  match o.openSession env msg.epoch msg.attempt_id with
  | none => o
  | some opened =>
    if opened.1.m_attempt_id ≠ msg.attempt_id then opened.2
    else
      let added := env.addNonceEvidenceToSession msg opened.1
      let o := opened.2.putSession msg.epoch added.2
      if added.1 then o.putEvidence msg.epoch msg else o

/-- The nonces of a context proposal, up to the first one refused. -/
def addContextNonces (epoch : ℤ) :
    List OracleMusigNonceMsg → OracleSigningOrchestrator → MuSig2SigningSession →
      Bool × OracleSigningOrchestrator
  | [], o, session => (true, o.putSession epoch session)
  | nonce :: rest, o, session =>
    let added := env.addNonceEvidenceToSession nonce session
    if added.1 = false then (false, o.putSession epoch added.2)
    else addContextNonces epoch rest (o.putEvidence epoch nonce) added.2

/-- Keep a proposal, one for each proposer. -/
def storePendingContext (msg : OracleMusigContextMsg) : OracleSigningOrchestrator :=
  let epoch_contexts := (o.m_pending_contexts.getD msg.epoch ∅).filter fun _ pending =>
    pending.proposer_id ≠ msg.proposer_id
  if epoch_contexts.size ≥ MAX_PENDING_CONTEXT_PROPOSALS_PER_EPOCH then
    { o with m_pending_contexts := o.m_pending_contexts.insert msg.epoch epoch_contexts }
  else
    let contexts :=
      o.m_pending_contexts.insert msg.epoch (epoch_contexts.insert msg.session_context_id msg)
    { o with m_pending_contexts := evictFirst contexts }

/-- The session with the epoch's seed, if that is known. -/
def seedSession (epoch : ℤ) (session : MuSig2SigningSession) : MuSig2SigningSession :=
  if o.m_epoch_selection_seeds epoch ≠ 0 then
    { session with m_epoch_selection_seed := o.m_epoch_selection_seeds epoch }
  else session

def ingestRemoteContext (msg : OracleMusigContextMsg) : OracleSigningOrchestrator :=
  let seed := o.m_epoch_selection_seeds msg.epoch
  if msg.isValid = false then o
  else if seed ≠ 0 ∧ seed ≠ msg.epoch_selection_seed then o
  else
    match o.openSession env msg.epoch msg.attempt_id with
    | none => o
    | some opened =>
      let session := o.seedSession msg.epoch opened.1
      if session.m_attempt_id ≠ msg.attempt_id then opened.2.putSession msg.epoch session
      else
        let added := addContextNonces env msg.epoch msg.nonce_evidence opened.2 session
        if added.1 = false then added.2 else added.2.storePendingContext msg

/-- `BufferPendingPartialSig`. -/
def bufferPendingPartialSig (msg : OracleMusigPartialSigMsg) : OracleSigningOrchestrator :=
  let put contexts :=
    { o with m_pending_partialsigs := o.m_pending_partialsigs.insert msg.epoch contexts }
  let epoch_contexts := o.m_pending_partialsigs.getD msg.epoch ∅
  let total_pending := (epoch_contexts.values.map List.length).sum
  if epoch_contexts.contains msg.session_context_id = false ∧
      (epoch_contexts.size ≥ MAX_PENDING_PARTIALSIG_CONTEXTS_PER_EPOCH ∨
        total_pending ≥ MAX_PENDING_PARTIALSIGS_PER_EPOCH) then put epoch_contexts
  else
    let context_buf := epoch_contexts.getD msg.session_context_id []
    let replaced := context_buf.findIdx fun pending => pending.oracle_id = msg.oracle_id
    if replaced < context_buf.length then
      put (epoch_contexts.insert msg.session_context_id (context_buf.set replaced msg))
    else if context_buf.length ≥ MAX_PENDING_PARTIALSIGS_PER_CONTEXT ∨
        total_pending ≥ MAX_PENDING_PARTIALSIGS_PER_EPOCH then
      put (epoch_contexts.insert msg.session_context_id context_buf)
    else
      let partialsigs := o.m_pending_partialsigs.insert msg.epoch
        (epoch_contexts.insert msg.session_context_id (context_buf ++ [msg]))
      { o with m_pending_partialsigs := evictFirst partialsigs }

def ingestRemotePartialSig (msg : OracleMusigPartialSigMsg) : OracleSigningOrchestrator :=
  if msg.context_version ≠ ORACLE_MUSIG2_SESSION_CONTEXT_VERSION ∨ msg.session_context_id = 0 then o
  else
    match o.openSession env msg.epoch msg.attempt_id with
    | none => o
    | some opened =>
      if opened.1.m_attempt_id ≠ msg.attempt_id then opened.2
      else
        match env.tryApplyRemotePartialSig msg opened.1 with
        | some session =>
          opened.2.putSession msg.epoch
            (if session.hasEnoughPartialSigs then (session.aggregateSignature env).2 else session)
        | none =>
          if opened.1.m_state ≠ .signing ∧ opened.1.m_state ≠ .complete ∧
            opened.1.m_state ≠ .failed then
            opened.2.bufferPendingPartialSig msg
          else opened.2

/-! The steps of a tick. -/

/-- The creation height of a session that a tick creates. -/
def creationHeight (tick : Tick) : ℤ :=
  if tick.block_height > 0 then tick.block_height else getEpochStartHeight env.params tick.epoch

def getOrCreateSigningSession (tick : Tick) : MuSig2SigningSession × OracleSigningOrchestrator :=
  match o.m_signing_sessions tick.epoch with
  | some session => (session, o)
  | none =>
    let session :=
      o.newSession env tick.epoch (o.m_epoch_attempts tick.epoch) (creationHeight env tick)
    (session, o.putSession tick.epoch session)

def restartEpochAttemptIfNeeded (tick : Tick) (session : MuSig2SigningSession) :
    MuSig2SigningSession × OracleSigningOrchestrator :=
  let current_attempt := o.m_epoch_attempts tick.epoch
  if session.m_state ≠ .failed then (session, o)
  else if current_attempt + 1 ≥ MAX_MUSIG2_ATTEMPTS_PER_EPOCH then (session, o)
  else
    let next_attempt := current_attempt + 1
    let replacement := o.newSession env tick.epoch next_attempt (creationHeight env tick)
    (replacement,
      { o.putSession tick.epoch replacement with
        m_nonce_broadcast_tracker := Function.update o.m_nonce_broadcast_tracker tick.epoch []
        m_context_broadcast_tracker := Function.update o.m_context_broadcast_tracker tick.epoch []
        m_partialsig_broadcast_tracker :=
          Function.update o.m_partialsig_broadcast_tracker tick.epoch []
        m_pending_contexts := o.m_pending_contexts.erase tick.epoch
        m_pending_partialsigs := o.m_pending_partialsigs.erase tick.epoch
        m_nonce_evidence := Function.update o.m_nonce_evidence tick.epoch fun _ => none
        m_epoch_attempts := Function.update o.m_epoch_attempts tick.epoch next_attempt
        dropped_sessions :=
          Function.update o.dropped_sessions tick.epoch
            (session :: o.dropped_sessions tick.epoch) })

/-- Record a nonce message that the node has signed. -/
def recordNonce (epoch : ℤ) (msg : OracleMusigNonceMsg) : OracleSigningOrchestrator :=
  let tracked := msg.oracle_id :: o.m_nonce_broadcast_tracker epoch
  { o.putEvidence epoch msg with
    m_nonce_broadcast_tracker := Function.update o.m_nonce_broadcast_tracker epoch tracked
    signed_nonces := msg :: o.signed_nonces }

/-- `CleanupOldSessions`: epochs before the last two are forgotten. -/
def cleanupOldSessions (current_epoch : ℤ) : OracleSigningOrchestrator where
  m_signing_sessions epoch := if epoch < current_epoch - 2 then none else o.m_signing_sessions epoch
  m_nonce_broadcast_tracker epoch :=
    if epoch < current_epoch - 2 then [] else o.m_nonce_broadcast_tracker epoch
  m_context_broadcast_tracker epoch :=
    if epoch < current_epoch - 2 then [] else o.m_context_broadcast_tracker epoch
  m_partialsig_broadcast_tracker epoch :=
    if epoch < current_epoch - 2 then [] else o.m_partialsig_broadcast_tracker epoch
  m_pending_contexts := o.m_pending_contexts.filter fun epoch _ => ¬ epoch < current_epoch - 2
  m_pending_partialsigs := o.m_pending_partialsigs.filter fun epoch _ => ¬ epoch < current_epoch - 2
  m_epoch_selection_seeds epoch :=
    if epoch < current_epoch - 2 then 0 else o.m_epoch_selection_seeds epoch
  m_epoch_attempts epoch := if epoch < current_epoch - 2 then 0 else o.m_epoch_attempts epoch
  m_nonce_evidence epoch :=
    if epoch < current_epoch - 2 then fun _ => none else o.m_nonce_evidence epoch
  signed_nonces := o.signed_nonces
  dropped_sessions epoch :=
    if epoch < current_epoch - 2 then
      (o.m_signing_sessions epoch).toList ++ o.dropped_sessions epoch
    else o.dropped_sessions epoch

/-- `Clear`: everything is forgotten but what was signed and dropped. -/
def clear : OracleSigningOrchestrator where
  signed_nonces := o.signed_nonces
  dropped_sessions epoch := (o.m_signing_sessions epoch).toList ++ o.dropped_sessions epoch

end OracleSigningOrchestrator

/-- The orchestrator and the epoch's session while a tick works on it. -/
abbrev TickState := MuSig2SigningSession × OracleSigningOrchestrator

section Steps

variable (env : OracleEnv) (keys : ℕ → Option Bytes) (tick : Tick)

/-- The nonce message for a new public nonce, if it can be serialized and signed. -/
def signNonce (key : Bytes) (oracle_id : OracleId) (pubnonce : Bytes) (attempt_id : ℕ) :
    Option OracleMusigNonceMsg :=
  (env.secp.pubnonceSerialize pubnonce).bind fun ser_nonce =>
    let nonce_msg : OracleMusigNonceMsg :=
      { epoch := tick.epoch, attempt_id, oracle_id, pubnonce := ser_nonce, signature := [] }
    (env.sign key (env.nonceSignatureHash nonce_msg)).map fun signature =>
      { nonce_msg with signature }

/-- Make and add the nonce of one local oracle. The result of `AddPubnonce` is not looked at. -/
def addLocalNonce (cache key pubkey : Bytes) (oid : ℕ) (state : TickState) : TickState :=
  let generated := state.1.generateNonce env (oid8 oid) key pubkey cache (tick.secrand oid)
  match generated.1 with
  | none => (generated.2, state.2)
  | some pubnonce =>
    let session := (generated.2.addPubnonce env (oid8 oid) pubnonce).getD generated.2
    match signNonce env tick key (oid8 oid) pubnonce session.m_attempt_id with
    | none => (session, state.2)
    | some nonce_msg => (session, state.2.recordNonce tick.epoch nonce_msg)

def localNonce (cache : Bytes) (state : TickState) (oid : ℕ) : TickState :=
  if oid8 oid ∈ state.2.m_nonce_broadcast_tracker tick.epoch then state
  else
    match (keys oid).filter env.secp.keyIsValid with
    | none => state
    | some key =>
      match env.secp.pubkeyParse (env.secp.getPubKey key) with
      | none => state
      | some pubkey => addLocalNonce env tick cache key pubkey oid state

/-- Step 1: nonces for all local oracles. -/
def generateLocalNonces (state : TickState) : TickState :=
  if state.1.m_state ≠ .created ∧ state.1.m_state ≠ .noncesCollecting then state
  else
    match env.computeAggregatePubkey env.consensusOracleIdsForSigning with
    | none => state
    | some aggregate => tick.local_ids.foldl (localNonce env keys tick aggregate.2) state

/-- `IsEligibleContextProposer`: a further proposer every two blocks. -/
def isEligibleContextProposer (o : OracleSigningOrchestrator) (proposer_id : OracleId) : Bool :=
  let order := env.sortOracleIdsByEpochSeed env.consensusOracleIdsForSigning tick.epoch
    (o.getSelectionSeedForEpoch env tick.epoch)
  let round_start_height := max 0 (getEpochStartHeight env.params tick.epoch - 1)
  if proposer_id ∉ order then false
  else if tick.block_height < round_start_height then false
  else
    (order.idxOf proposer_id : ℤ) ≤
      (tick.block_height - round_start_height).tdiv CONTEXT_PROPOSAL_ROUND_BLOCKS

/-- Whether a candidate replaces the best one so far. -/
def betterContext (rank : OracleMusigContextMsg → ℕ) (best : Option OracleMusigContextMsg)
    (msg : OracleMusigContextMsg) : Bool :=
  best.all fun best =>
    rank msg < rank best ||
      (rank msg = rank best &&
        memcmpKey msg.session_context_id < memcmpKey best.session_context_id)

/-- `SelectReadyContextProposal`: of the valid proposals the one whose proposer comes first. -/
def selectReadyContextProposal (state : TickState) : Option OracleMusigContextMsg :=
  let candidates := (state.2.m_pending_contexts.getD tick.epoch ∅).values
  let proposer_order := env.sortOracleIdsByEpochSeed env.consensusOracleIdsForSigning tick.epoch
    state.1.m_epoch_selection_seed
  let ready := candidates.filter fun msg =>
    isEligibleContextProposer env tick state.2 msg.proposer_id &&
      env.validateContextProposal tick.now msg state.1 && msg.proposer_id ∈ proposer_order
  ready.foldl (fun best msg =>
    if betterContext (fun msg => proposer_order.idxOf msg.proposer_id) best msg then some msg
    else best) none

/-- `BuildLocalContextProposal` without storing the proposal. -/
def buildLocalContextProposal (state : TickState) : Option OracleMusigContextMsg := do
  let session := state.1
  let seed := state.2.getSelectionSeedForEpoch env tick.epoch
  let proposer_order :=
    env.sortOracleIdsByEpochSeed env.consensusOracleIdsForSigning tick.epoch seed
  let proposer_id ← proposer_order.find? fun candidate =>
    isEligibleContextProposer env tick state.2 candidate &&
      candidate ∉ state.2.m_context_broadcast_tracker tick.epoch &&
      tick.local_ids.any fun local_id => local_id = candidate.val && (keys local_id).isSome
  guard (proposer_id ≠ 255)
  let participant_ids := session.getRequiredParticipants env
  guard ((participant_ids.length : ℤ) = env.params.nOracleConsensusRequired)
  let pending ← tick.pending
  let price_evidence ← participant_ids.mapM fun id => pending.reverse.find? fun msg =>
    msg.oracle_id = id.val
  let consensus ← computeConsensusValuesFromEvidence price_evidence
  let nonce_evidence ← participant_ids.mapM fun id =>
    (state.2.m_nonce_evidence tick.epoch id).filter fun nonce =>
      nonce.attempt_id = session.m_attempt_id
  let hashes ← session.computeContextIdForParticipants env participant_ids
    (env.oracleMessageHash tick.epoch consensus.1 consensus.2)
  let key ← (keys proposer_id).filter env.secp.keyIsValid
  let msg : OracleMusigContextMsg :=
    { epoch := tick.epoch, attempt_id := session.m_attempt_id
      context_version := ORACLE_MUSIG2_SESSION_CONTEXT_VERSION, epoch_selection_seed := seed
      proposer_id, participant_ids, nonce_set_hash := hashes.1
      quote_set_hash := env.oracleQuoteSetHash tick.epoch price_evidence
      consensus_price := consensus.1, consensus_timestamp := consensus.2
      session_context_id := hashes.2, nonce_evidence, price_evidence, signature := [] }
  let signature ← env.sign key (env.contextSignatureHash msg)
  some { msg with signature }

def storeLocalContext (o : OracleSigningOrchestrator) (msg : OracleMusigContextMsg) :
    OracleSigningOrchestrator :=
  let contexts := (o.m_pending_contexts.getD tick.epoch ∅).insert msg.session_context_id msg
  let tracked := msg.proposer_id :: o.m_context_broadcast_tracker tick.epoch
  { o with
    m_pending_contexts := o.m_pending_contexts.insert tick.epoch contexts
    m_context_broadcast_tracker :=
      Function.update o.m_context_broadcast_tracker tick.epoch tracked }

/-- The message that carries a local partial signature, if it can be made. -/
def signPartialSig (key : Bytes) (oracle_id : OracleId) (partial_sig : Bytes)
    (session : MuSig2SigningSession) : Option OracleMusigPartialSigMsg :=
  (env.secp.partialSigSerialize partial_sig).bind fun ser_psig =>
    let psig_msg : OracleMusigPartialSigMsg :=
      { epoch := tick.epoch, attempt_id := session.m_attempt_id
        context_version := ORACLE_MUSIG2_SESSION_CONTEXT_VERSION
        session_context_id := session.m_session_context_id, oracle_id, partial_sig := ser_psig
        signature := [] }
    (env.sign key (env.partialSigSignatureHash psig_msg)).map fun signature =>
      { psig_msg with signature }

/-- Sign for one local participant. The signature is added without being verified. -/
def addLocalPartialSig (key : Bytes) (oracle_id : OracleId) (state : TickState) : TickState :=
  let created := state.1.createPartialSignature env oracle_id key
  match created.1 with
  | none => (created.2, state.2)
  | some partial_sig =>
    let session := (created.2.addPartialSignature oracle_id partial_sig).getD created.2
    match signPartialSig env tick key oracle_id partial_sig session with
    | none => (session, state.2)
    | some _ =>
      let sent := oracle_id :: state.2.m_partialsig_broadcast_tracker tick.epoch
      (session,
        { state.2 with m_partialsig_broadcast_tracker :=
            Function.update state.2.m_partialsig_broadcast_tracker tick.epoch sent })

def localPartialSig (participant_ids : List OracleId) (state : TickState) (oid : ℕ) : TickState :=
  if oid8 oid ∈ state.2.m_partialsig_broadcast_tracker tick.epoch then state
  else
    match (keys oid).filter env.secp.keyIsValid with
    | none => state
    | some key =>
      if oid8 oid ∉ participant_ids then state else addLocalPartialSig env tick key (oid8 oid) state

/-- Whether the tick goes on after its second step, and the state. -/
abbrev Converged := Bool × TickState

/-- Freeze the participants of the chosen context and aggregate their keys and nonces:
whether the nonces were aggregated, or `none` if the participants could not be frozen. -/
def freezeParticipants (context : OracleMusigContextMsg) (session : MuSig2SigningSession) :
    Option Bool × MuSig2SigningSession :=
  let session := { session with
    m_signed_price := context.consensus_price
    m_signed_timestamp := context.consensus_timestamp }
  let trimmed := session.trimNoncesToParticipants context.participant_ids
  if trimmed.1 = false then (none, trimmed.2)
  else
    -- when the keys cannot be aggregated the old cache stays
    let session :=
      (env.computeAggregatePubkey trimmed.2.m_pubnonces.ids).elim trimmed.2 fun aggregate =>
      { trimmed.2 with m_keyagg_cache := aggregate.2 }
    let aggregated := session.aggregateNonces env
      (env.oracleMessageHash tick.epoch context.consensus_price context.consensus_timestamp)
    (some aggregated.1, aggregated.2)

def signContext (context : OracleMusigContextMsg) (state : TickState) : Converged :=
  let frozen := freezeParticipants env tick context state.1
  match frozen.1 with
  | none => (false, frozen.2, state.2)
  | some false => (true, frozen.2, state.2)
  | some true =>
    if frozen.2.m_session_context_id = 0 then (false, frozen.2, state.2)
    else
      (true, tick.local_ids.foldl (localPartialSig env keys tick frozen.2.m_pubnonces.ids)
        (frozen.2, state.2))

/-- Step 2: converge on one context and sign it. -/
def converge (state : TickState) : Converged :=
  if state.1.m_state ≠ .noncesComplete then (true, state)
  else if tick.epoch > getCurrentEpoch env.params tick.block_height ∧
      state.2.hasSelectionSeedForEpoch tick.epoch = false then (false, state)
  else
    let session :=
      { state.1 with m_epoch_selection_seed := state.2.getSelectionSeedForEpoch env tick.epoch }
    if tick.block_height < session.m_creation_height + CONTEXT_NONCE_GRACE_BLOCKS then
      (false, session, state.2)
    else
      match selectReadyContextProposal env tick (session, state.2) with
      | some context => signContext env keys tick context (session, state.2)
      | none =>
        if tick.local_ids = [] then (true, session, state.2)
        else
          match buildLocalContextProposal env keys tick (session, state.2) with
          | some msg => (false, session, storeLocalContext tick state.2 msg)
          | none => (true, session, state.2)

/-- The partial signatures buffered for the session's context, taken out of the buffer. -/
def takePending (state : TickState) : List OracleMusigPartialSigMsg × OracleSigningOrchestrator :=
  let epoch_contexts := state.2.m_pending_partialsigs.getD tick.epoch ∅
  let context_id := state.1.m_session_context_id
  if context_id = 0 ∨ epoch_contexts.contains context_id = false then ([], state.2)
  else
    let rest := epoch_contexts.erase context_id
    let partialsigs := if rest.isEmpty then state.2.m_pending_partialsigs.erase tick.epoch
      else state.2.m_pending_partialsigs.insert tick.epoch rest
    (epoch_contexts.getD context_id [], { state.2 with m_pending_partialsigs := partialsigs })

/-- A partial signature that does not apply is dropped. -/
def applyPartialSig (session : MuSig2SigningSession) (msg : OracleMusigPartialSigMsg) :
    MuSig2SigningSession :=
  (env.tryApplyRemotePartialSig msg session).getD session

/-- Replay of early partial signatures and step 3: aggregate when there are enough. -/
def drainAndAggregate (state : TickState) : TickState :=
  if state.1.m_state ≠ .signing then state
  else
    let taken := takePending tick state
    let session := taken.1.foldl (applyPartialSig env) state.1
    (if session.hasEnoughPartialSigs then (session.aggregateSignature env).2 else session, taken.2)

def seedTick (state : TickState) : TickState :=
  if state.2.hasSelectionSeedForEpoch tick.epoch then
    ({ state.1 with m_epoch_selection_seed := state.2.getSelectionSeedForEpoch env tick.epoch },
      state.2)
  else state

/-- The steps of a tick on the epoch's session. -/
def tickSession (state : TickState) : TickState :=
  let converged :=
    converge env keys tick (generateLocalNonces env keys tick (seedTick env tick state))
  if converged.1 = false then converged.2
  else
    let signed := drainAndAggregate env tick converged.2
    (signed.1.checkTimeout tick.block_height, signed.2)

/-- `TickEpochSession`. -/
def OracleSigningOrchestrator.tickEpochSession (o : OracleSigningOrchestrator) :
    OracleSigningOrchestrator :=
  let found := o.getOrCreateSigningSession env tick
  let ticked := tickSession env keys tick (found.2.restartEpochAttemptIfNeeded env tick found.1)
  ticked.2.putSession tick.epoch ticked.1

end Steps

/-- The calls on the orchestrator. -/
inductive Call where
  | ingestRemoteNonce (msg : OracleMusigNonceMsg)
  | ingestRemoteContext (msg : OracleMusigContextMsg)
  | ingestRemotePartialSig (msg : OracleMusigPartialSigMsg)
  | setEpochSelectionSeed (epoch : ℤ) (seed : Hash)
  | tickEpochSession (tick : Tick)

section Calls

variable (env : OracleEnv) (keys : ℕ → Option Bytes)

def OracleSigningOrchestrator.call (o : OracleSigningOrchestrator) :
    Call → OracleSigningOrchestrator
  | .ingestRemoteNonce msg => o.ingestRemoteNonce env msg
  | .ingestRemoteContext msg => o.ingestRemoteContext env msg
  | .ingestRemotePartialSig msg => o.ingestRemotePartialSig env msg
  | .setEpochSelectionSeed epoch seed => o.setEpochSelectionSeed epoch seed
  | .tickEpochSession tick => o.tickEpochSession env keys tick

/-- Any interleaving of calls. -/
def OracleSigningOrchestrator.run (o : OracleSigningOrchestrator) (calls : List Call) :
    OracleSigningOrchestrator :=
  calls.foldl (OracleSigningOrchestrator.call env keys) o

end Calls

/-- The bundle formed from a session. -/
def MuSig2SigningSession.bundle (env : OracleEnv)
    (session : MuSig2SigningSession) : COracleBundle where
  version := 3
  epoch := session.m_epoch
  median_price_micro_usd := session.m_signed_price
  timestamp := session.m_signed_timestamp
  participation_bitmap := session.getParticipationBitmap env
  aggregate_sig := session.getAggregateSig

end DigiByte.Oracle
