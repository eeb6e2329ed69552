import DigiByte.Library.MapWeight
import DigiByte.Oracle.CeremonyRun
import DigiByte.Oracle.NonceIntake

/-!
Context proposals that arrive in different orders (`IngestRemoteContext`,
`SelectReadyContextProposal`).

The nonces that the proposals bring are the same in every order when the proposals agree on
them. The proposals themselves are kept under their context id, the last one replacing the
others, and are chosen by the rank of the proposer of the one kept.
-/

set_option autoImplicit false
set_option relaxedAutoImplicit false

namespace DigiByte.Oracle

open Script (Bytes)
open Library.MapWeight (mem_values find_insert)
open Library.Arrivals (firstStays Agree firstStays_nil firstStays_append firstStays_perm
  mem_of_lookup
  latest latest_concat latest_eq_some latest_eq_none_iff latest_of_alone exists_perm_concat
    keepBetter Behind foldl_keepBetter_eq)

/-- Proposals delivered one after another. -/
def OracleSigningOrchestrator.deliver (env : OracleEnv) (o : OracleSigningOrchestrator)
    (proposals : List OracleMusigContextMsg) : OracleSigningOrchestrator :=
  proposals.foldl (OracleSigningOrchestrator.ingestRemoteContext env) o

/-- The context id that the epoch's session would be frozen for. -/
def OracleSigningOrchestrator.selectedContext (env : OracleEnv) (tick : Tick)
    (o : OracleSigningOrchestrator) :
    Option Hash :=
  (o.m_signing_sessions tick.epoch).bind fun session =>
    (selectReadyContextProposal env tick (session, o)).map OracleMusigContextMsg.session_context_id

section Delivery

variable (env : OracleEnv) (o : OracleSigningOrchestrator) (session : MuSig2SigningSession)
  (epoch : ℤ)

/-- The nonces of a proposal up to the first one that the session refuses. -/
def acceptedNonces (msg : OracleMusigContextMsg) : List OracleMusigNonceMsg :=
  if readsNonces o session epoch msg then
    msg.nonce_evidence.takeWhile (env.acceptsNonce session) else []

/-- A proposal that is stored: all its nonces are accepted. -/
def isStored (msg : OracleMusigContextMsg) : Bool :=
  readsNonces o session epoch msg && msg.nonce_evidence.all (env.acceptsNonce session)

/-- The session with the nonces of the proposals. -/
def gatheredSession (proposals : List OracleMusigContextMsg) : MuSig2SigningSession :=
  { session with
    m_pubnonces := nonceKept env session (proposals.flatMap (acceptedNonces env o session epoch)) }

/-- The order in which the oracles of the epoch may propose. -/
def proposerOrder : List OracleId :=
  env.sortOracleIdsByEpochSeed env.consensusOracleIdsForSigning epoch
    (o.getSelectionSeedForEpoch env epoch)

def proposerRank (msg : OracleMusigContextMsg) : ℕ :=
  (proposerOrder env o epoch).idxOf msg.proposer_id

/-- The proposals that the node already has for the epoch, by their context ids. -/
def waiting : Std.TreeMap Hash OracleMusigContextMsg := o.m_pending_contexts.getD epoch ∅

/-- The epoch's proposals are not the ones that are evicted: nothing is, or those of a lower
epoch are. -/
def HasRoom : Prop :=
  o.m_pending_contexts.size ≤ MAX_PENDING_PARTIALSIG_EPOCHS ∧
    (o.m_pending_contexts.size < MAX_PENDING_PARTIALSIG_EPOCHS ∨
      o.m_pending_contexts.contains epoch = true ∨
      ∃ other < epoch, o.m_pending_contexts.contains other = true)

/-- Proposals for an epoch, from distinct proposers, whose nonces agree, and a state with the
epoch's session, its seed, and room for the proposals. -/
structure Deliverable (proposals : List OracleMusigContextMsg) : Prop where
  opened : o.m_signing_sessions epoch = some session
  seeded : session.m_epoch_selection_seed = o.getSelectionSeedForEpoch env epoch
  keyed : ∀ (id : Hash) msg, (waiting o epoch)[id]? = some msg → msg.session_context_id = id
  same_epoch : ∀ msg ∈ proposals, msg.epoch = epoch
  proposers : (proposals.map OracleMusigContextMsg.proposer_id).Nodup
  agree : ∀ nonce ∈ proposals.flatMap OracleMusigContextMsg.nonce_evidence,
    ∀ other ∈ proposals.flatMap OracleMusigContextMsg.nonce_evidence,
      nonce.oracle_id = other.oracle_id → nonce.pubnonce = other.pubnonce
  cap : (waiting o epoch).size + proposals.length ≤ MAX_PENDING_CONTEXT_PROPOSALS_PER_EPOCH
  room : HasRoom o epoch

variable {env o session epoch} {proposals : List OracleMusigContextMsg}

theorem Deliverable.perm {proposals' : List OracleMusigContextMsg}
    (deliverable : Deliverable env o session epoch proposals) (perm : proposals'.Perm proposals) :
    Deliverable env o session epoch proposals' where
  opened := deliverable.opened
  seeded := deliverable.seeded
  keyed := deliverable.keyed
  same_epoch msg member := deliverable.same_epoch msg (perm.mem_iff.mp member)
  proposers := (perm.map _).nodup_iff.mpr deliverable.proposers
  agree nonce member other member' := deliverable.agree
    nonce ((perm.flatMap_right _).mem_iff.mp member) other
      ((perm.flatMap_right _).mem_iff.mp member')
  cap := perm.length_eq ▸ deliverable.cap
  room := deliverable.room

/-! The nonces of the proposals. -/

/-- Nonce messages of one oracle carry one nonce. -/
private def SameNonces (nonces : List OracleMusigNonceMsg) : Prop :=
  ∀ nonce ∈ nonces, ∀ other ∈ nonces, nonce.oracle_id = other.oracle_id →
    nonce.pubnonce = other.pubnonce

private theorem SameNonces.agree {nonces : List OracleMusigNonceMsg} (same : SameNonces nonces) :
    Agree (nonces.flatMap env.carriedNonce) := by
  intro id a b memberA memberB
  obtain ⟨nonce, inside, carried⟩ := List.mem_flatMap.mp memberA
  obtain ⟨other, inside', carried'⟩ := List.mem_flatMap.mp memberB
  obtain ⟨rfl, parsed⟩ := mem_carriedNonce.mp carried
  obtain ⟨oracle, parsed'⟩ := mem_carriedNonce.mp carried'
  rw [same nonce inside other inside' oracle.symm, parsed'] at parsed
  exact (Option.some.inj parsed).symm

private theorem acceptsNonce_intake {s s' : MuSig2SigningSession}
    {accepted : List OracleMusigNonceMsg} {nonce : OracleMusigNonceMsg}
    (intake : Intake env s s' (nonceKept env s accepted))
    (each : ∀ earlier ∈ accepted, env.acceptsNonce s earlier = true)
    (same : ∀ earlier ∈ accepted, earlier.oracle_id = nonce.oracle_id →
      earlier.pubnonce = nonce.pubnonce) :
    env.acceptsNonce s' nonce = env.acceptsNonce s nonce := by
  unfold OracleEnv.acceptsNonce
  rw [intake.nonceVerifies_eq, intake.opens, intake.takesNonceOf_eq, intake.pubnonces_eq]
  unfold nonceKept firstStays
  cases known : s.m_pubnonces nonce.oracle_id with
  | some held => rw [Option.some_or]
  | none =>
    rw [Option.none_or]
    cases found : (accepted.flatMap env.carriedNonce).lookup nonce.oracle_id with
    | none => rfl
    | some pubnonce =>
      -- an earlier nonce of the oracle was taken, so this one would have been
      obtain ⟨earlier, inside, carried⟩ := List.mem_flatMap.mp (mem_of_lookup found)
      obtain ⟨oracle, parsed⟩ := mem_carriedNonce.mp carried
      have taken : env.takesNonceOf s earlier = true := by
        have accepts := each earlier inside
        simp only [OracleEnv.acceptsNonce, oracle, known, Option.isSome_none, Bool.false_or,
          Bool.and_eq_true]
          at accepts
        exact accepts.2
      have takes : env.takesNonceOf s nonce = true := by
        unfold OracleEnv.takesNonceOf at taken ⊢
        rwa [oracle, same earlier inside oracle] at taken
      rw [takes, Bool.or_true, Bool.or_true]

private theorem acceptedEvidence_eq {s s' : MuSig2SigningSession}
    {accepted nonces : List OracleMusigNonceMsg}
    (intake : Intake env s s' (nonceKept env s accepted))
    (each : ∀ earlier ∈ accepted, env.acceptsNonce s earlier = true)
    (same : SameNonces (accepted ++ nonces)) :
    env.acceptedEvidence s' nonces = nonces.takeWhile (env.acceptsNonce s) := by
  induction nonces generalizing s' accepted with
  | nil => rfl
  | cons nonce rest ih =>
    have accepts : env.acceptsNonce s' nonce = env.acceptsNonce s nonce := by
      apply acceptsNonce_intake intake each
      intro earlier inside oracle
      exact same earlier (List.mem_append_left _ inside) nonce (by simp) oracle
    unfold OracleEnv.acceptedEvidence
    rw [accepts]
    cases answer : env.acceptsNonce s nonce with
    | false => rw [List.takeWhile_cons_of_neg (by simp [answer]), if_neg (by simp)]
    | true =>
      obtain ⟨t, adding, more⟩ := addNonceEvidenceToSession_eq env nonce s'
      rw [accepts, answer, if_pos rfl, intake.pubnonces_eq] at more
      have extended : Intake env s t (nonceKept env s (accepted ++ [nonce])) := by
        rw [nonceKept, List.flatMap_append, List.flatMap_singleton, firstStays_append]
        exact intake.trans more
      have all : ∀ earlier ∈ accepted ++ [nonce], env.acceptsNonce s earlier = true := by
        intro earlier inside
        rcases List.mem_append.mp inside with before | here
        · exact each earlier before
        · rw [List.mem_singleton.mp here, answer]
      rw [List.takeWhile_cons_of_pos answer, if_pos rfl, adding]
      rw [ih extended all (by simpa using same)]

/-! The proposals that are kept. -/

private theorem HasRoom.evictFirst_insert (room : HasRoom o epoch)
    (contexts : Std.TreeMap Hash OracleMusigContextMsg) :
    (evictFirst (o.m_pending_contexts.insert epoch contexts))[epoch]? = some contexts ∧
      (evictFirst (o.m_pending_contexts.insert epoch contexts)).size ≤
        MAX_PENDING_PARTIALSIG_EPOCHS := by
  obtain ⟨size, unevicted⟩ := room
  have found : (o.m_pending_contexts.insert epoch contexts)[epoch]? = some contexts := by
    rw [find_insert, if_pos rfl]
  obtain ⟨few, _, above⟩ := @evictFirst_spec _ (o.m_pending_contexts.insert epoch contexts)
    (Std.TreeMap.size_insert_le.trans (Nat.add_le_add_right size 1))
  refine ⟨?_, few⟩
  have fitting : (o.m_pending_contexts.insert epoch contexts).size ≤
      MAX_PENDING_PARTIALSIG_EPOCHS →
      (evictFirst (o.m_pending_contexts.insert epoch contexts))[epoch]? = some contexts := by
    intro fits
    rw [evictFirst, if_neg (Nat.not_lt.mpr fits), found]
  rcases unevicted with small | present | ⟨other, lower, listed⟩
  · exact fitting (Std.TreeMap.size_insert_le.trans small)
  · exact fitting (by rwa [Std.TreeMap.size_insert, if_pos present])
  · rw [above epoch other lower (by simp [Std.TreeMap.contains_insert, listed]), found]

private theorem storePendingContext_eq {msg : OracleMusigContextMsg}
    {kept : List OracleMusigContextMsg} {old : Hash → Option OracleMusigContextMsg}
    (pending : ∀ id, (waiting o msg.epoch)[id]? =
      (latest OracleMusigContextMsg.session_context_id kept id).or (old id))
    (fresh : ∀ other ∈ kept, other.proposer_id ≠ msg.proposer_id)
    (few : (waiting o msg.epoch).size < MAX_PENDING_CONTEXT_PROPOSALS_PER_EPOCH) :
    ∃ contexts : Std.TreeMap Hash OracleMusigContextMsg,
      o.storePendingContext msg = { o with
        m_pending_contexts := evictFirst (o.m_pending_contexts.insert msg.epoch contexts) } ∧
      contexts.size ≤ (waiting o msg.epoch).size + 1 ∧
      ∀ id, contexts[id]? = (latest OracleMusigContextMsg.session_context_id (kept ++ [msg]) id).or
        ((old id).filter fun other => other.proposer_id ≠ msg.proposer_id) := by
  unfold OracleSigningOrchestrator.storePendingContext
  rw [show o.m_pending_contexts.getD msg.epoch ∅ = waiting o msg.epoch from rfl]
  generalize waiting o msg.epoch = before at pending few ⊢
  dsimp only
  have others : ∀ id, (before.filter fun _ pending => pending.proposer_id ≠ msg.proposer_id)[id]? =
      (latest OracleMusigContextMsg.session_context_id kept id).or
        ((old id).filter fun other => other.proposer_id ≠ msg.proposer_id) := by
    intro id
    rw [Std.TreeMap.getElem?_filter', pending id]
    cases stays : latest OracleMusigContextMsg.session_context_id kept id with
    | none => rfl
    | some other => simp [fresh other (latest_eq_some stays).1]
  have small : (before.filter fun _ pending => pending.proposer_id ≠ msg.proposer_id).size ≤
      before.size :=
    Std.TreeMap.size_filter_le_size
  generalize (before.filter fun _ pending => pending.proposer_id ≠ msg.proposer_id) =
    rest at others small ⊢
  rw [if_neg (by omega)]
  refine ⟨rest.insert msg.session_context_id msg, rfl,
    Std.TreeMap.size_insert_le.trans (Nat.add_le_add_right small 1), ?_⟩
  intro id
  rw [Std.TreeMap.getElem?_insert, others id, latest_concat]
  simp only [Std.LawfulEqCmp.compare_eq_iff_eq]
  split_ifs <;> rfl

/-- The delivered proposals that are stored. -/
private def stored (env : OracleEnv) (o : OracleSigningOrchestrator)
    (session : MuSig2SigningSession) (epoch : ℤ)
    (delivered : List OracleMusigContextMsg) : List OracleMusigContextMsg :=
  delivered.filter (isStored env o session epoch)

/-- The proposal that is kept under a context id: the stored one delivered last, or else one
that waited before and whose proposer sent no stored one. -/
private def keptUnder (env : OracleEnv) (o : OracleSigningOrchestrator)
    (session : MuSig2SigningSession)
    (epoch : ℤ) (delivered : List OracleMusigContextMsg)
    (id : Hash) : Option OracleMusigContextMsg :=
  (latest OracleMusigContextMsg.session_context_id (stored env o session epoch delivered) id).or
    ((waiting o epoch)[id]?.filter fun old =>
      (stored env o session epoch delivered).all fun msg => old.proposer_id ≠ msg.proposer_id)

private theorem stored_concat_of_not {delivered : List OracleMusigContextMsg}
    {msg : OracleMusigContextMsg} (refused : isStored env o session epoch msg = false) :
    stored env o session epoch (delivered ++ [msg]) = stored env o session epoch delivered := by
  simp [stored, refused]

private theorem stored_concat {delivered : List OracleMusigContextMsg} {msg : OracleMusigContextMsg}
    (accepted : isStored env o session epoch msg = true) :
    stored env o session epoch (delivered ++ [msg]) =
      stored env o session epoch delivered ++ [msg] := by
  simp [stored, accepted]

/-- The state after proposals have been delivered to the state `o`. -/
private structure Delivered (env : OracleEnv) (o : OracleSigningOrchestrator)
    (session : MuSig2SigningSession)
    (epoch : ℤ) (delivered : List OracleMusigContextMsg)
    (o' : OracleSigningOrchestrator) : Prop where
  holds : ∃ s, o'.m_signing_sessions epoch = some s ∧
    Intake env session s (gatheredSession env o session epoch delivered).m_pubnonces
  seeds : o'.m_epoch_selection_seeds = o.m_epoch_selection_seeds
  pending : ∀ id, (waiting o' epoch)[id]? = keptUnder env o session epoch delivered id
  few : (waiting o' epoch).size ≤ (waiting o epoch).size + delivered.length
  room : HasRoom o' epoch

private theorem Delivered.nil (deliverable : Deliverable env o session epoch proposals) :
    Delivered env o session epoch [] o where
  holds := ⟨session, deliverable.opened, by simpa [gatheredSession, nonceKept] using Intake.refl⟩
  seeds := rfl
  pending id := by
    rw [keptUnder, stored, List.filter_nil]
    cases (waiting o epoch)[id]? <;> rfl
  few := le_rfl
  room := deliverable.room

private theorem seedSession_of_seeded {s : MuSig2SigningSession}
    (seeded : s.m_epoch_selection_seed = o.getSelectionSeedForEpoch env epoch) :
    o.seedSession epoch s = s := by
  unfold OracleSigningOrchestrator.seedSession
  split_ifs with known
  · unfold OracleSigningOrchestrator.getSelectionSeedForEpoch at seeded
    rw [if_pos known] at seeded
    rw [← seeded]
  · rfl

private theorem ingestRemoteContext_of_not_reads {msg : OracleMusigContextMsg}
    {s : MuSig2SigningSession}
    (refused : readsNonces o s msg.epoch msg = false)
    (opened : o.m_signing_sessions msg.epoch = some s)
    (seeded : s.m_epoch_selection_seed = o.getSelectionSeedForEpoch env msg.epoch) :
    o.ingestRemoteContext env msg = o := by
  unfold OracleSigningOrchestrator.ingestRemoteContext OracleSigningOrchestrator.openSession
  dsimp only
  by_cases valid : msg.isValid = false
  · rw [if_pos valid]
  by_cases seed : o.m_epoch_selection_seeds msg.epoch ≠ 0 ∧
      o.m_epoch_selection_seeds msg.epoch ≠ msg.epoch_selection_seed
  · rw [if_neg valid, if_pos seed]
  rw [if_neg valid, if_neg seed, opened]
  dsimp only
  -- the proposal is for another attempt
  have attempt : s.m_attempt_id ≠ msg.attempt_id := by
    intro same
    simp only [readsNonces, same, decide_true, Bool.and_true] at refused
    rw [Bool.and_eq_false_iff, Bool.or_eq_false_iff, decide_eq_false_iff_not,
      decide_eq_false_iff_not] at refused
    tauto
  rw [seedSession_of_seeded seeded, if_pos attempt]
  unfold OracleSigningOrchestrator.putSession
  rw [← opened, Function.update_eq_self]

private theorem ingestRemoteContext_of_reads {msg : OracleMusigContextMsg}
    {s : MuSig2SigningSession}
    (reads : readsNonces o s msg.epoch msg = true)
    (opened : o.m_signing_sessions msg.epoch = some s)
    (seeded : s.m_epoch_selection_seed = o.getSelectionSeedForEpoch env msg.epoch) :
    o.ingestRemoteContext env msg =
      let added := OracleSigningOrchestrator.addContextNonces env msg.epoch msg.nonce_evidence o s
      if added.1 = false then added.2 else added.2.storePendingContext msg := by
  simp only [readsNonces, Bool.and_eq_true, Bool.or_eq_true, decide_eq_true_eq] at reads
  unfold OracleSigningOrchestrator.ingestRemoteContext OracleSigningOrchestrator.openSession
  dsimp only
  rw [if_neg (by simp [reads.1]), if_neg (by tauto), opened]
  dsimp only
  rw [seedSession_of_seeded seeded, if_neg (by simp [reads.2])]

private theorem mem_acceptedNonces {msg : OracleMusigContextMsg} {nonce : OracleMusigNonceMsg}
    (member : nonce ∈ acceptedNonces env o session epoch msg) :
    nonce ∈ msg.nonce_evidence ∧ env.acceptsNonce session nonce = true := by
  unfold acceptedNonces at member
  split_ifs at member
  · exact ⟨List.takeWhile_subset _ member, List.mem_takeWhile_imp member⟩
  · cases member

private theorem Deliverable.sameNonces {delivered : List OracleMusigContextMsg}
    {msg : OracleMusigContextMsg}
    (deliverable : Deliverable env o session epoch (delivered ++ [msg])) :
    SameNonces (delivered.flatMap (acceptedNonces env o session epoch) ++ msg.nonce_evidence) := by
  have inside :
      ∀ nonce ∈ delivered.flatMap (acceptedNonces env o session epoch) ++ msg.nonce_evidence,
      nonce ∈ (delivered ++ [msg]).flatMap OracleMusigContextMsg.nonce_evidence := by
    intro nonce member
    rcases List.mem_append.mp member with earlier | here
    · obtain ⟨other, before, accepted⟩ := List.mem_flatMap.mp earlier
      exact List.mem_flatMap.mpr ⟨other, List.mem_append_left _ before,
        (mem_acceptedNonces accepted).1⟩
    · exact List.mem_flatMap.mpr ⟨msg, by simp, here⟩
  intro nonce member other member' oracle
  exact deliverable.agree nonce (inside nonce member) other (inside other member') oracle

section OneMore

variable {delivered : List OracleMusigContextMsg} {msg : OracleMusigContextMsg}
  {o' o'' : OracleSigningOrchestrator}
  {s : MuSig2SigningSession}

private theorem gathered_of_reads
    (deliverable : Deliverable env o session msg.epoch (delivered ++ [msg]))
    (intake : Intake env session s (gatheredSession env o session msg.epoch delivered).m_pubnonces)
    (reads : readsNonces o session msg.epoch msg = true) :
    ∃ s' evidence, OracleSigningOrchestrator.addContextNonces env msg.epoch
      msg.nonce_evidence o' s =
        (msg.nonce_evidence.all (env.acceptsNonce session), { o' with
          m_signing_sessions := Function.update o'.m_signing_sessions msg.epoch (some s')
          m_nonce_evidence := Function.update o'.m_nonce_evidence msg.epoch evidence }) ∧
      Intake env session s' (gatheredSession env o session msg.epoch
        (delivered ++ [msg])).m_pubnonces := by
  have each : ∀ nonce ∈ delivered.flatMap (acceptedNonces env o session msg.epoch),
      env.acceptsNonce session nonce = true := by
    intro nonce inside
    obtain ⟨other, _, accepted⟩ := List.mem_flatMap.mp inside
    exact (mem_acceptedNonces accepted).2
  obtain ⟨s', adding, more⟩ := addContextNonces_eq env msg.epoch o' s msg.nonce_evidence
  rw [acceptedEvidence_eq intake each deliverable.sameNonces] at adding more
  have complete : decide (msg.nonce_evidence.takeWhile (env.acceptsNonce session) =
      msg.nonce_evidence) =
      msg.nonce_evidence.all (env.acceptsNonce session) := by
    rw [Bool.eq_iff_iff, decide_eq_true_eq, List.takeWhile_eq_self_iff, List.all_eq_true]
  rw [complete] at adding
  refine ⟨s', _, adding, ?_⟩
  have together := intake.trans more
  rw [nonceKept, intake.pubnonces_eq, gatheredSession, nonceKept, ← firstStays_append,
    ← List.flatMap_append] at together
  simpa [gatheredSession, nonceKept, acceptedNonces, reads] using together

private theorem Delivered.unstored (before : Delivered env o session epoch delivered o')
    (refused : isStored env o session epoch msg = false)
    (holds : ∃ s, o''.m_signing_sessions epoch = some s ∧
      Intake env session s (gatheredSession env o session epoch (delivered ++ [msg])).m_pubnonces)
    (seeds : o''.m_epoch_selection_seeds = o'.m_epoch_selection_seeds)
    (contexts : o''.m_pending_contexts = o'.m_pending_contexts) :
    Delivered env o session epoch (delivered ++ [msg]) o'' := by
  have same : waiting o'' epoch = waiting o' epoch := by rw [waiting, contexts, waiting]
  refine ⟨holds, seeds.trans before.seeds, ?_, ?_, ?_⟩
  · intro id
    rw [same, keptUnder, stored_concat_of_not refused]
    exact before.pending id
  · rw [same]
    exact before.few.trans (by simp)
  · have room := before.room
    rw [HasRoom, ← contexts] at room
    exact room

private theorem Delivered.stores
    (deliverable : Deliverable env o session msg.epoch (delivered ++ [msg]))
    (before : Delivered env o session msg.epoch delivered o')
    (accepted : isStored env o session msg.epoch msg = true)
    (holds : ∃ s, o''.m_signing_sessions msg.epoch = some s ∧
      Intake env session s (gatheredSession env o session msg.epoch
        (delivered ++ [msg])).m_pubnonces)
    (seeds : o''.m_epoch_selection_seeds = o'.m_epoch_selection_seeds)
    (contexts : o''.m_pending_contexts = o'.m_pending_contexts) :
    Delivered env o session msg.epoch (delivered ++ [msg]) (o''.storePendingContext msg) := by
  have same : waiting o'' msg.epoch = waiting o' msg.epoch := by rw [waiting, contexts, waiting]
  have fresh : ∀ other ∈ stored env o session msg.epoch delivered,
      other.proposer_id ≠ msg.proposer_id := by
    intro other member same
    have nodup := deliverable.proposers
    rw [List.map_append, List.nodup_append] at nodup
    exact nodup.2.2 _ (List.mem_map_of_mem (List.mem_of_mem_filter member)) _ (by simp) same
  have cap := deliverable.cap
  rw [List.length_append, List.length_singleton] at cap
  have few := before.few
  have room := before.room
  rw [HasRoom, ← contexts] at room
  have pending := before.pending
  rw [← same] at pending few
  obtain ⟨stored_contexts, storing, size, latest⟩ :=
    storePendingContext_eq pending fresh (few.trans_lt (by omega))
  rw [storing]
  obtain ⟨kept, bounded⟩ := HasRoom.evictFirst_insert room stored_contexts
  have found : (evictFirst (o''.m_pending_contexts.insert msg.epoch stored_contexts)).getD
      msg.epoch ∅ = stored_contexts := by
    rw [Std.TreeMap.getD_eq_getD_getElem?, kept, Option.getD_some]
  refine ⟨holds, seeds.trans before.seeds, ?_, ?_, bounded, .inr (.inl ?_)⟩
  · intro id
    rw [waiting, found, latest id, keptUnder, stored_concat accepted, Option.filter_filter]
    simp [Bool.and_comm]
  · rw [waiting, found, List.length_append, List.length_singleton]
    exact size.trans (Nat.add_le_add_right few 1)
  · rw [Std.TreeMap.contains_eq_isSome_getElem?, kept]
    rfl

private theorem Delivered.step (deliverable : Deliverable env o session epoch (delivered ++ [msg]))
    (before : Delivered env o session epoch delivered o') :
    Delivered env o session epoch (delivered ++ [msg]) (o'.ingestRemoteContext env msg) := by
  obtain ⟨s, opened, intake⟩ := before.holds
  obtain rfl := deliverable.same_epoch msg (by simp)
  have readsSame : readsNonces o' s msg.epoch msg = readsNonces o session msg.epoch msg := by
    obtain ⟨_, _, rfl⟩ := intake.differs
    unfold readsNonces
    rw [before.seeds]
  have seeded : s.m_epoch_selection_seed = o'.getSelectionSeedForEpoch env msg.epoch := by
    obtain ⟨_, _, rfl⟩ := intake.differs
    rw [OracleSigningOrchestrator.getSelectionSeedForEpoch, before.seeds]
    exact deliverable.seeded
  cases reads : readsNonces o session msg.epoch msg with
  | false =>
    have nothing : acceptedNonces env o session msg.epoch msg = [] := by
      simp [acceptedNonces, reads]
    rw [ingestRemoteContext_of_not_reads (readsSame.trans reads) opened seeded]
    apply before.unstored (by simp [isStored, reads]) ⟨s, opened, ?_⟩ rfl rfl
    simpa [gatheredSession, nothing] using intake
  | true =>
    have whole : isStored env o session msg.epoch msg =
        msg.nonce_evidence.all (env.acceptsNonce session) := by
      simp [isStored, reads]
    obtain ⟨s', evidence, adding, gathered⟩ :=
      @gathered_of_reads env o session delivered msg o' s deliverable intake reads
    rw [ingestRemoteContext_of_reads (readsSame.trans reads) opened seeded, adding]
    dsimp only
    cases answer : msg.nonce_evidence.all (env.acceptsNonce session) with
    | false =>
      rw [if_pos rfl]
      exact before.unstored (whole.trans answer) ⟨s', by simp, gathered⟩ rfl rfl
    | true =>
      rw [if_neg (by simp)]
      exact before.stores deliverable (whole.trans answer) ⟨s', by simp, gathered⟩ rfl rfl

end OneMore

private theorem Delivered.run (deliverable : Deliverable env o session epoch proposals) :
    Delivered env o session epoch proposals (o.deliver env proposals) := by
  induction proposals using List.reverseRecOn with
  | nil => exact .nil deliverable
  | append_singleton delivered msg ih =>
    have earlier : Deliverable env o session epoch delivered := by
      have sub := List.sublist_append_left delivered [msg]
      refine ⟨deliverable.opened, deliverable.seeded, deliverable.keyed, ?_, ?_, ?_, ?_,
        deliverable.room⟩
      · exact fun other member => deliverable.same_epoch other (sub.subset member)
      · exact deliverable.proposers.sublist (sub.map _)
      · intro nonce member other member'
        rw [List.mem_flatMap] at member member'
        obtain ⟨a, insideA, memberA⟩ := member
        obtain ⟨b, insideB, memberB⟩ := member'
        exact deliverable.agree nonce (List.mem_flatMap.mpr ⟨a, sub.subset insideA, memberA⟩)
          other (List.mem_flatMap.mpr ⟨b, sub.subset insideB, memberB⟩)
      · exact (Nat.add_le_add_left sub.length_le _).trans deliverable.cap
    have step := (ih earlier).step deliverable
    rw [OracleSigningOrchestrator.deliver, List.foldl_append]
    exact step

/-! The choice among the proposals that are kept. -/

/-- The block at which the first proposer may propose. -/
def roundStartHeight (params : Consensus.Params) (epoch : ℤ) : ℤ :=
  max 0 (getEpochStartHeight params epoch - 1)

/-- The block height gives a rank its turn. -/
def HasTurn (env : OracleEnv) (epoch height : ℤ) (rank : ℕ) : Prop :=
  roundStartHeight env.params epoch ≤ height ∧
    (rank : ℤ) ≤ (height - roundStartHeight env.params epoch).tdiv CONTEXT_PROPOSAL_ROUND_BLOCKS

private theorem HasTurn.mono {height : ℤ} {rank earlier : ℕ} (turn : HasTurn env epoch height rank)
    (le : earlier ≤ rank) : HasTurn env epoch height earlier :=
  ⟨turn.1, (Int.ofNat_le.mpr le).trans turn.2⟩

private theorem exists_last_turn (env : OracleEnv) (epoch : ℤ) (rank : ℕ) :
    ∃ height, HasTurn env epoch height rank ∧ ∀ other, HasTurn env epoch height other →
      other ≤ rank := by
  have elapsed :
      (roundStartHeight env.params epoch + 2 * rank - roundStartHeight env.params epoch).tdiv
      CONTEXT_PROPOSAL_ROUND_BLOCKS = rank := by
    unfold CONTEXT_PROPOSAL_ROUND_BLOCKS
    rw [add_sub_cancel_left, Int.mul_tdiv_cancel_left _ (by decide)]
  refine ⟨roundStartHeight env.params epoch + 2 * rank, ⟨by omega, elapsed.ge⟩, ?_⟩
  rintro other ⟨_, turn⟩
  rw [elapsed] at turn
  exact Int.ofNat_le.mp turn

private theorem isEligibleContextProposer_iff {tick : Tick} {id : OracleId} :
    isEligibleContextProposer env tick o id = true ↔ id ∈ proposerOrder env o tick.epoch ∧
      HasTurn env tick.epoch tick.block_height ((proposerOrder env o tick.epoch).idxOf id) := by
  change (if id ∉ proposerOrder env o tick.epoch then false
    else if tick.block_height < roundStartHeight env.params tick.epoch then false
    else decide (((proposerOrder env o tick.epoch).idxOf id : ℤ) ≤
      (tick.block_height - roundStartHeight env.params tick.epoch).tdiv
        CONTEXT_PROPOSAL_ROUND_BLOCKS)) = true ↔ _
  by_cases inside : id ∈ proposerOrder env o tick.epoch
  · by_cases early : tick.block_height < roundStartHeight env.params tick.epoch
    · rw [if_neg (not_not.mpr inside), if_pos early]
      constructor
      · intro impossible
        cases impossible
      · rintro ⟨_, late, _⟩
        exact absurd early (not_lt.mpr late)
    · rw [if_neg (not_not.mpr inside), if_neg early, decide_eq_true_eq]
      exact ⟨fun turn => ⟨inside, not_lt.mp early, turn⟩, fun turn => turn.2.2⟩
  · rw [if_pos inside]
    constructor
    · intro impossible
      cases impossible
    · exact fun turn => absurd turn.1 inside

/-- A proposal that is kept in some order: a stored one, or one that waited before, whose
proposer sends no stored one and whose context no stored one announces. -/
def IsContender (env : OracleEnv) (o : OracleSigningOrchestrator) (session : MuSig2SigningSession)
    (epoch : ℤ) (proposals : List OracleMusigContextMsg) (msg : OracleMusigContextMsg) : Prop :=
  msg ∈ proposals ∧ isStored env o session epoch msg = true ∨
    (waiting o epoch)[msg.session_context_id]? = some msg ∧
      ∀ other ∈ proposals, isStored env o session epoch other = true →
        other.proposer_id ≠ msg.proposer_id ∧ other.session_context_id ≠ msg.session_context_id

/-- A contender that the session with all nonces validates. -/
def IsUsable (env : OracleEnv) (o : OracleSigningOrchestrator) (session : MuSig2SigningSession)
    (epoch now : ℤ) (proposals : List OracleMusigContextMsg) (msg : OracleMusigContextMsg) : Prop :=
  IsContender env o session epoch proposals msg ∧ msg.proposer_id ∈ proposerOrder env o epoch ∧
    env.validateContextProposal now msg (gatheredSession env o session epoch proposals) = true

/-- Proposals come in the order of their proposers and then of their context ids. -/
def precedence (env : OracleEnv) (o : OracleSigningOrchestrator) (epoch : ℤ)
    (msg : OracleMusigContextMsg) :
    ℕ ×ₗ ℕ :=
  toLex (proposerRank env o epoch msg, memcmpKey msg.session_context_id)

/-- The usable proposal that comes first. -/
def IsLeader (env : OracleEnv) (o : OracleSigningOrchestrator) (session : MuSig2SigningSession)
    (epoch now : ℤ)
    (proposals : List OracleMusigContextMsg) (leader : OracleMusigContextMsg) : Prop :=
  IsUsable env o session epoch now proposals leader ∧
    ∀ msg, IsUsable env o session epoch now proposals msg →
      precedence env o epoch leader ≤ precedence env o epoch msg

/-- At every block the same context id is chosen, whatever the order of delivery. -/
def ContextsConverge (env : OracleEnv) (o : OracleSigningOrchestrator) (epoch now : ℤ)
    (proposals : List OracleMusigContextMsg) : Prop :=
  ∀ block_height order order', order.Perm proposals → order'.Perm proposals →
    (o.deliver env order).selectedContext env { epoch, block_height, now } =
      (o.deliver env order').selectedContext env { epoch, block_height, now }

/-- No other stored proposal announces the context of the leader. -/
def LeaderUnshared (env : OracleEnv) (o : OracleSigningOrchestrator)
    (session : MuSig2SigningSession)
    (epoch now : ℤ) (proposals : List OracleMusigContextMsg) : Prop :=
  ∀ leader, IsLeader env o session epoch now proposals leader →
    ∀ msg ∈ proposals, isStored env o session epoch msg = true →
      msg.session_context_id = leader.session_context_id → msg = leader

/-- A usable proposal whose proposer has the turn. -/
private def Ready (env : OracleEnv) (o : OracleSigningOrchestrator) (session : MuSig2SigningSession)
    (tick : Tick) (proposals : List OracleMusigContextMsg) (msg : OracleMusigContextMsg) : Prop :=
  IsUsable env o session tick.epoch tick.now proposals msg ∧
    HasTurn env tick.epoch tick.block_height (proposerRank env o tick.epoch msg)

private theorem isContender_of_kept {order : List OracleMusigContextMsg} {id : Hash}
    {msg : OracleMusigContextMsg}
    (deliverable : Deliverable env o session epoch proposals) (perm : order.Perm proposals)
    (kept : keptUnder env o session epoch order id = some msg) :
    msg.session_context_id = id ∧ IsContender env o session epoch proposals msg := by
  have inside : ∀ other, other ∈ stored env o session epoch order ↔
      other ∈ proposals ∧ isStored env o session epoch other = true := by
    intro other
    rw [stored, List.mem_filter, perm.mem_iff]
  unfold keptUnder at kept
  rcases Option.or_eq_some_iff.mp kept with stays | ⟨unmatched, old⟩
  · obtain ⟨member, same⟩ := latest_eq_some stays
    exact ⟨same, .inl ((inside msg).mp member)⟩
  · obtain ⟨waited, unreplaced⟩ := Option.filter_eq_some_iff.mp old
    have same := deliverable.keyed id msg waited
    refine ⟨same, .inr ⟨same.symm ▸ waited, ?_⟩⟩
    intro other member accepted
    have present := (inside other).mpr ⟨member, accepted⟩
    refine ⟨?_, same.symm ▸ latest_eq_none_iff.mp unmatched other present⟩
    have distinct := List.all_eq_true.mp unreplaced other present
    exact Ne.symm (by simpa using distinct)

private theorem kept_of_unshared {order : List OracleMusigContextMsg} {msg : OracleMusigContextMsg}
    (perm : order.Perm proposals) (contender : IsContender env o session epoch proposals msg)
    (alone : ∀ other ∈ proposals, isStored env o session epoch other = true →
      other.session_context_id = msg.session_context_id → other = msg) :
    keptUnder env o session epoch order msg.session_context_id = some msg := by
  have inside : ∀ other ∈ stored env o session epoch order,
      other ∈ proposals ∧ isStored env o session epoch other = true := by
    intro other member
    rwa [stored, List.mem_filter, perm.mem_iff] at member
  unfold keptUnder
  rcases contender with ⟨member, accepted⟩ | ⟨waited, others⟩
  · have here : msg ∈ stored env o session epoch order :=
      List.mem_filter.mpr ⟨perm.mem_iff.mpr member, accepted⟩
    rw [latest_of_alone here fun other present =>
      alone other (inside other present).1 (inside other present).2]
    rfl
  · rw [latest_eq_none_iff.mpr fun other present =>
      (others other (inside other present).1 (inside other present).2).2,
      Option.none_or, waited, Option.filter_some, if_pos]
    rw [List.all_eq_true]
    intro other present
    simpa using Ne.symm (others other (inside other present).1 (inside other present).2).1

private theorem gatheredSession_perm {order : List OracleMusigContextMsg}
    (deliverable : Deliverable env o session epoch proposals) (perm : order.Perm proposals) :
    gatheredSession env o session epoch order = gatheredSession env o session epoch proposals := by
  have same : SameNonces (order.flatMap (acceptedNonces env o session epoch)) := by
    intro nonce member other member' oracle
    obtain ⟨a, insideA, accepted⟩ := List.mem_flatMap.mp member
    obtain ⟨b, insideB, accepted'⟩ := List.mem_flatMap.mp member'
    exact deliverable.agree
      nonce (List.mem_flatMap.mpr ⟨a, perm.mem_iff.mp insideA, (mem_acceptedNonces accepted).1⟩)
      other (List.mem_flatMap.mpr ⟨b, perm.mem_iff.mp insideB,
        (mem_acceptedNonces accepted').1⟩) oracle
  unfold gatheredSession nonceKept
  rw [firstStays_perm same.agree ((perm.flatMap_right _).flatMap_right _)]

private theorem selectedContext_deliver {tick : Tick} {order : List OracleMusigContextMsg}
    (deliverable : Deliverable env o session tick.epoch proposals) (perm : order.Perm proposals) :
    ∃ candidates : List OracleMusigContextMsg,
      (∀ msg, msg ∈ candidates ↔ Ready env o session tick proposals msg ∧
        keptUnder env o session tick.epoch order msg.session_context_id = some msg) ∧
      (o.deliver env order).selectedContext env tick =
        (candidates.foldl (keepBetter (betterContext (proposerRank env o tick.epoch))) none).map
          OracleMusigContextMsg.session_context_id := by
  have delivered := Delivered.run (deliverable.perm perm)
  obtain ⟨s, opened, intake⟩ := delivered.holds
  rw [gatheredSession_perm deliverable perm] at intake
  have seed : (o.deliver env order).getSelectionSeedForEpoch env tick.epoch =
      o.getSelectionSeedForEpoch env tick.epoch := by
    simp only [OracleSigningOrchestrator.getSelectionSeedForEpoch, delivered.seeds]
  have sessionSeed : s.m_epoch_selection_seed = o.getSelectionSeedForEpoch env tick.epoch := by
    obtain ⟨_, _, rfl⟩ := intake.differs
    exact deliverable.seeded
  have validates : ∀ msg, env.validateContextProposal tick.now msg s =
      env.validateContextProposal tick.now msg
        (gatheredSession env o session tick.epoch proposals) := by
    intro msg
    obtain ⟨_, _, rfl⟩ := intake.differs
    rfl
  have sameOrder : proposerOrder env (o.deliver env order) tick.epoch =
      proposerOrder env o tick.epoch := by
    unfold proposerOrder
    rw [seed]
  refine ⟨(waiting (o.deliver env order) tick.epoch).values.filter fun msg =>
    isEligibleContextProposer env tick (o.deliver env order) msg.proposer_id &&
      env.validateContextProposal tick.now msg s && msg.proposer_id ∈
        proposerOrder env o tick.epoch, ?_, ?_⟩
  · intro msg
    rw [List.mem_filter, mem_values]
    simp only [Bool.and_eq_true, decide_eq_true_eq, isEligibleContextProposer_iff, sameOrder,
      validates, delivered.pending]
    constructor
    · rintro ⟨⟨id, kept⟩, ⟨⟨inside, turn⟩, valid⟩, _⟩
      obtain ⟨rfl, contender⟩ := isContender_of_kept deliverable perm kept
      exact ⟨⟨⟨contender, inside, valid⟩, turn⟩, kept⟩
    · rintro ⟨⟨⟨_, inside, valid⟩, turn⟩, kept⟩
      exact ⟨⟨_, kept⟩, ⟨⟨inside, turn⟩, valid⟩, inside⟩
  · rw [OracleSigningOrchestrator.selectedContext, opened, Option.bind_some]
    unfold selectReadyContextProposal
    dsimp only
    rw [sessionSeed]
    rfl

private theorem selectedContext_eq_none {tick : Tick} {order : List OracleMusigContextMsg}
    (deliverable : Deliverable env o session tick.epoch proposals) (perm : order.Perm proposals)
    (displaced : ∀ msg, Ready env o session tick proposals msg →
      keptUnder env o session tick.epoch order msg.session_context_id ≠ some msg) :
    (o.deliver env order).selectedContext env tick = none := by
  obtain ⟨candidates, member, selected⟩ := selectedContext_deliver deliverable perm
  have empty : candidates = [] := by
    rw [List.eq_nil_iff_forall_not_mem]
    intro msg inside
    obtain ⟨ready, kept⟩ := (member msg).mp inside
    exact displaced msg ready kept
  rw [selected, empty]
  rfl

private theorem eq_of_precedence {now : ℤ} {a b : OracleMusigContextMsg}
    (deliverable : Deliverable env o session epoch proposals)
    (usableA : IsUsable env o session epoch now proposals a)
    (usableB : IsUsable env o session epoch now proposals b)
    (same : precedence env o epoch a = precedence env o epoch b) : a = b := by
  obtain ⟨rank, id⟩ := Prod.mk.inj (toLex.injective same)
  have proposer : a.proposer_id = b.proposer_id := (List.idxOf_inj usableA.2.1).mp rank
  rcases usableA.1 with ⟨memberA, storedA⟩ | ⟨waitedA, othersA⟩
  · rcases usableB.1 with ⟨memberB, _⟩ | ⟨_, othersB⟩
    · exact List.inj_on_of_nodup_map deliverable.proposers memberA memberB proposer
    · exact absurd proposer (othersB a memberA storedA).1
  · rcases usableB.1 with ⟨memberB, storedB⟩ | ⟨waitedB, _⟩
    · exact absurd proposer.symm (othersA b memberB storedB).1
    · rw [memcmpKey_injective id, waitedB] at waitedA
      exact (Option.some.inj waitedA).symm

private theorem IsLeader.ahead {now : ℤ} {leader msg : OracleMusigContextMsg}
    (deliverable : Deliverable env o session epoch proposals)
    (leads : IsLeader env o session epoch now proposals leader)
    (usable : IsUsable env o session epoch now proposals msg) :
    msg = leader ∨ precedence env o epoch leader < precedence env o epoch msg := by
  rcases (leads.2 msg usable).eq_or_lt with same | less
  · exact .inl (eq_of_precedence deliverable usable leads.1 same.symm)
  · exact .inr less

private theorem precedence_lt_iff {a b : OracleMusigContextMsg} :
    precedence env o epoch a < precedence env o epoch b ↔
      proposerRank env o epoch a < proposerRank env o epoch b ∨
        proposerRank env o epoch a = proposerRank env o epoch b ∧
          memcmpKey a.session_context_id < memcmpKey b.session_context_id :=
  Prod.Lex.toLex_lt_toLex

private theorem proposerRank_le {a b : OracleMusigContextMsg}
    (le : precedence env o epoch a ≤ precedence env o epoch b) :
    proposerRank env o epoch a ≤ proposerRank env o epoch b := by
  rcases Prod.Lex.toLex_le_toLex.mp le with less | same
  · exact less.le
  · exact same.1.le

private theorem selectedContext_eq_some {tick : Tick} {order : List OracleMusigContextMsg}
    (deliverable : Deliverable env o session tick.epoch proposals) (perm : order.Perm proposals)
    {leader : OracleMusigContextMsg}
    (leads : IsLeader env o session tick.epoch tick.now proposals leader)
    (turn : HasTurn env tick.epoch tick.block_height (proposerRank env o tick.epoch leader))
    (kept : keptUnder env o session tick.epoch order leader.session_context_id = some leader) :
    (o.deliver env order).selectedContext env tick = some leader.session_context_id := by
  obtain ⟨candidates, member, selected⟩ := selectedContext_deliver deliverable perm
  have others : ∀ msg ∈ candidates,
      msg = leader ∨ Behind (betterContext (proposerRank env o tick.epoch)) leader msg := by
    intro msg inside
    obtain ⟨ready, _⟩ := (member msg).mp inside
    rcases leads.ahead deliverable ready.1 with same | less
    · exact .inl same
    · have better := precedence_lt_iff.mp less
      have notWorse := fun worse => less.asymm (precedence_lt_iff.mpr worse)
      refine .inr ⟨?_, ?_⟩
      · simpa [betterContext] using better
      · simpa [betterContext] using notWorse
  rw [selected, foldl_keepBetter_eq (fun _ => rfl) others
    ((member leader).mpr ⟨⟨leads.1, turn⟩, kept⟩),
    Option.map_some]

private theorem selectedContext_of_leader {tick : Tick} {order : List OracleMusigContextMsg}
    {leader : OracleMusigContextMsg} (deliverable : Deliverable env o session tick.epoch proposals)
    (leads : IsLeader env o session tick.epoch tick.now proposals leader)
    (unshared : LeaderUnshared env o session tick.epoch tick.now proposals)
    (perm : order.Perm proposals) :
    (HasTurn env tick.epoch tick.block_height (proposerRank env o tick.epoch leader) →
      (o.deliver env order).selectedContext env tick = some leader.session_context_id) ∧
    (¬ HasTurn env tick.epoch tick.block_height (proposerRank env o tick.epoch leader) →
      (o.deliver env order).selectedContext env tick = none) := by
  constructor
  · intro turn
    exact selectedContext_eq_some deliverable perm leads turn
      (kept_of_unshared perm leads.1.1 (unshared leader leads))
  · intro early
    apply selectedContext_eq_none deliverable perm
    intro msg ready
    exact absurd (ready.2.mono (proposerRank_le (leads.2 msg ready.1))) early

private theorem selectedContext_of_shared {now : ℤ} {leader msg : OracleMusigContextMsg}
    (deliverable : Deliverable env o session epoch proposals)
    (leads : IsLeader env o session epoch now proposals leader) (member : msg ∈ proposals)
    (accepted : isStored env o session epoch msg = true)
    (shared : msg.session_context_id = leader.session_context_id) (different : msg ≠ leader) :
    ∃ block_height order order', order.Perm proposals ∧ order'.Perm proposals ∧
      (o.deliver env order).selectedContext env
      { epoch, block_height, now } = some leader.session_context_id ∧
      (o.deliver env order').selectedContext env { epoch, block_height, now } = none := by
  -- one that waited before would not be a contender
  have delivered : leader ∈ proposals ∧ isStored env o session epoch leader = true :=
    leads.1.1.resolve_right fun waited => (waited.2 msg member accepted).2 shared
  obtain ⟨height, turn, last⟩ := exists_last_turn env epoch (proposerRank env o epoch leader)
  obtain ⟨before, leaderLast⟩ := exists_perm_concat delivered.1
  obtain ⟨before', msgLast⟩ := exists_perm_concat member
  refine ⟨height, before ++ [leader], before' ++ [msg], leaderLast, msgLast, ?_, ?_⟩
  · apply @selectedContext_eq_some env o session proposals
      { epoch, block_height := height, now } _ deliverable leaderLast leader leads turn
    rw [keptUnder, stored_concat delivered.2, latest_concat, if_pos rfl]
    rfl
  · -- the other one takes the place of the leader, and has no turn yet
    apply @selectedContext_eq_none env o session proposals
      { epoch, block_height := height, now } _ deliverable msgLast
    intro other ready kept
    have rank : proposerRank env o epoch leader = proposerRank env o epoch other :=
      (proposerRank_le (leads.2 other ready.1)).antisymm (last _ ready.2)
    have proposer : leader.proposer_id = other.proposer_id := (List.idxOf_inj leads.1.2.1).mp rank
    have same : other = leader := by
      rcases ready.1.1 with ⟨inside, _⟩ | ⟨_, others⟩
      · exact List.inj_on_of_nodup_map deliverable.proposers inside delivered.1 proposer.symm
      · exact absurd proposer (others leader delivered.1 delivered.2).1
    rw [same, keptUnder, stored_concat accepted, latest_concat, if_pos shared] at kept
    exact different (Option.some.inj kept)

end Delivery

/-- Delivered proposals lead to one choice in every order exactly when the context of the
usable one that comes first is announced by no other: a proposal that is kept in its place
has another rank, and another turn. -/
theorem contexts_converge_iff_leader_unshared {env : OracleEnv} {o : OracleSigningOrchestrator}
    {session : MuSig2SigningSession} {epoch : ℤ} (now : ℤ) {proposals : List OracleMusigContextMsg}
    (deliverable : Deliverable env o session epoch proposals) :
    ContextsConverge env o epoch now proposals ↔
      LeaderUnshared env o session epoch now proposals := by
  constructor
  · intro converge leader leads msg member accepted shared
    by_contra different
    obtain ⟨height, order, order', perm, perm', chosen, missed⟩ :=
      selectedContext_of_shared deliverable leads member accepted shared different
    have same := converge height order order' perm perm'
    rw [chosen, missed] at same
    cases same
  · intro unshared height order order' perm perm'
    by_cases usable : ∃ msg, IsUsable env o session epoch now proposals msg
    · obtain ⟨leader, usable, least⟩ :=
        (InvImage.wf (precedence env o epoch) wellFounded_lt).has_min
        { msg | IsUsable env o session epoch now proposals msg } usable
      have leads : IsLeader env o session epoch now proposals leader :=
        ⟨usable, fun msg usableMsg => not_lt.mp (least msg usableMsg)⟩
      have chosen := @selectedContext_of_leader env o session proposals
        { epoch, block_height := height, now } order leader deliverable leads unshared perm
      have chosen' := @selectedContext_of_leader env o session proposals
        { epoch, block_height := height, now } order' leader deliverable leads unshared perm'
      by_cases turn : HasTurn env epoch height (proposerRank env o epoch leader)
      · rw [chosen.1 turn, chosen'.1 turn]
      · rw [chosen.2 turn, chosen'.2 turn]
    · have unready : ∀ msg,
          ¬ Ready env o session { epoch, block_height := height, now } proposals msg :=
        fun msg ready => usable ⟨msg, ready.1⟩
      rw [selectedContext_eq_none deliverable perm fun msg ready => absurd ready (unready msg),
        selectedContext_eq_none deliverable perm' fun msg ready => absurd ready (unready msg)]

/-! Two oracles that propose at a node that runs none. -/

namespace ProposalSample

open Sample (env nonceOf price)

/-- The session of the node, which knows the seed of epoch 1. -/
def opened : MuSig2SigningSession where
  m_epoch := 1
  m_attempt_id := 0
  m_min_signers := 2
  m_epoch_selection_seed := 7
  m_creation_height := 39

def receiver : OracleSigningOrchestrator where
  m_signing_sessions epoch := if epoch = 1 then some opened else none
  m_epoch_selection_seeds epoch := if epoch = 1 then 7 else 0

/-- A node that has received the nonces of both oracles. -/
def informed : OracleSigningOrchestrator :=
  (receiver.ingestRemoteNonce env (nonceOf 0 10 20)).ingestRemoteNonce env (nonceOf 1 11 21)

/-- What such a node proposes at height 43 when it runs this oracle and has these prices. -/
def proposalOf (id : ℕ) (prices : List COraclePriceMessage) : List OracleMusigContextMsg :=
  let keys := fun oid => if oid = id then some [10 + UInt8.ofNat id] else none
  let tick : Tick :=
    { epoch := 1, block_height := 43, now := 5000, local_ids := [id], pending := some prices }
  ((informed.m_signing_sessions 1).bind fun session =>
    buildLocalContextProposal env keys tick (session, informed)).toList

/-- Both oracles propose the context of the same nonces and prices. -/
def shared : List OracleMusigContextMsg :=
  proposalOf 0 [price 0 20000, price 1 20010] ++ proposalOf 1 [price 0 20000, price 1 20010]

/-- The oracles propose contexts of different prices. -/
def unshared : List OracleMusigContextMsg :=
  proposalOf 0 [price 0 20000, price 1 20010] ++ proposalOf 1 [price 0 20000, price 1 20020]

private theorem nothing_waits {id : Hash} {msg : OracleMusigContextMsg} :
    (waiting receiver 1)[id]? ≠ some msg := by
  simp [waiting, receiver]

/-- Two proposals of different oracles for epoch 1 whose nonces agree. -/
private def Matching (proposals : List OracleMusigContextMsg) : Prop :=
  (∀ msg ∈ proposals, msg.epoch = 1) ∧ (proposals.map OracleMusigContextMsg.proposer_id).Nodup ∧
    (∀ nonce ∈ proposals.flatMap OracleMusigContextMsg.nonce_evidence,
      ∀ other ∈ proposals.flatMap OracleMusigContextMsg.nonce_evidence,
        nonce.oracle_id = other.oracle_id → nonce.pubnonce = other.pubnonce) ∧
    proposals.length = 2

private instance (proposals : List OracleMusigContextMsg) : Decidable (Matching proposals) :=
  inferInstanceAs (Decidable (_ ∧ _))

private theorem deliverable_of {proposals : List OracleMusigContextMsg}
    (matching : Matching proposals) :
    Deliverable env receiver opened 1 proposals where
  opened := rfl
  seeded := rfl
  keyed id msg found := absurd found nothing_waits
  same_epoch := matching.1
  proposers := matching.2.1
  agree := matching.2.2.1
  cap := by
    rw [matching.2.2.2]
    decide +kernel
  room := ⟨by decide +kernel, .inl (by decide +kernel)⟩

/-- Two oracles that announce one context, properly signed: at block 39 the node that hears
the second-ranked one last chooses nothing, and the one that hears it first chooses the context. -/
theorem shared_context_diverges :
    Deliverable env receiver opened 1 shared ∧
    (∀ msg ∈ shared, ((env.chain.getOracleNode msg.proposer_id).any fun proposer =>
      env.verifyContext msg (xonly proposer.pubkey)) = true) ∧
    shared.length = 2 ∧ shared.reverse.Perm shared ∧
    (receiver.deliver env shared).selectedContext env
    { epoch := 1, block_height := 39, now := 5000 } = none ∧
    ((receiver.deliver env shared.reverse).selectedContext env
      { epoch := 1, block_height := 39, now := 5000 }).isSome = true := by
  have matching : Matching shared := by decide +kernel
  refine ⟨deliverable_of matching, ?_, matching.2.2.2, List.reverse_perm _, ?_, ?_⟩
  all_goals decide +kernel

/-- Two oracles that announce contexts of different prices. -/
theorem unshared_contexts_converge :
    Deliverable env receiver opened 1 unshared ∧ unshared.length = 2 ∧
      ((receiver.deliver env unshared).selectedContext env
        { epoch := 1, block_height := 39, now := 5000 }).isSome = true ∧
      ContextsConverge env receiver 1 5000 unshared := by
  have matching : Matching unshared := by decide +kernel
  have deliverable := deliverable_of matching
  refine ⟨deliverable, matching.2.2.2,
    by decide +kernel, (contexts_converge_iff_leader_unshared 5000 deliverable).mpr ?_⟩
  have distinct : ∀ msg ∈ unshared, ∀ other ∈ unshared,
      msg.session_context_id = other.session_context_id → msg = other := by decide +kernel
  intro leader leads msg member _ same
  rcases leads.1.1 with ⟨delivered, _⟩ | ⟨waited, _⟩
  · exact distinct msg member leader delivered same
  · exact absurd waited nothing_waits

end ProposalSample

end DigiByte.Oracle
