import DigiByte.Oracle.ContextBinding
import DigiByte.Oracle.NonceEvidence

/-!
Runs of a node, and the context proposals that it makes from its evidence.

At every moment of a run the evidence carries the nonces of the sessions, and a proposal made
from it carries evidence for its nonce set hash, exactly as long as no step brings an oracle a
second nonce.
-/

set_option autoImplicit false
set_option relaxedAutoImplicit false

namespace DigiByte.Oracle

open Script (Bytes)

/-- The nonces that a proposal carries as evidence. -/
def evidenceNonces (env : OracleEnv) (msg : OracleMusigContextMsg) : OracleMap Bytes := fun id =>
  (msg.nonce_evidence.find? fun nonce => nonce.oracle_id = id).bind fun nonce =>
    env.secp.pubnonceParse nonce.pubnonce

/-- A session with the nonces of the evidence has the nonce set hash and the context id of the
proposal. -/
def ConsistentEvidence (env : OracleEnv) (s : MuSig2SigningSession)
    (msg : OracleMusigContextMsg) : Prop :=
  ({ s with m_pubnonces := evidenceNonces env msg } :
    MuSig2SigningSession).computeContextIdForParticipants env
    msg.participant_ids (env.oracleMessageHash msg.epoch msg.consensus_price
      msg.consensus_timestamp) =
      some (msg.nonce_set_hash, msg.session_context_id)

section Runs

variable {env : OracleEnv} {keys : ℕ → Option Bytes} {o : OracleSigningOrchestrator}
  {s : MuSig2SigningSession}

private theorem mem_of_mapM {α β : Type} {f : α → Option β} {xs : List α} {ys : List β}
    (mapped : xs.mapM f = some ys) :
    (∀ x ∈ xs, ∃ y ∈ ys, f x = some y) ∧ ∀ y ∈ ys, ∃ x ∈ xs, f x = some y := by
  induction xs generalizing ys with
  | nil =>
    rw [List.mapM_nil] at mapped
    cases mapped
    simp
  | cons x rest ih =>
    rw [List.mapM_cons, Option.bind_eq_bind, Option.bind_eq_some_iff] at mapped
    obtain ⟨y, first, mapped⟩ := mapped
    rw [Option.bind_eq_bind, Option.bind_eq_some_iff] at mapped
    obtain ⟨later, remaining, all⟩ := mapped
    cases all
    obtain ⟨forward, backward⟩ := ih remaining
    constructor
    · intro other member
      rcases List.mem_cons.mp member with rfl | inside
      · exact ⟨y, List.mem_cons_self, first⟩
      · obtain ⟨z, there, value⟩ := forward other inside
        exact ⟨z, List.mem_cons_of_mem _ there, value⟩
    · intro z member
      rcases List.mem_cons.mp member with rfl | inside
      · exact ⟨x, List.mem_cons_self, first⟩
      · obtain ⟨other, there, value⟩ := backward z inside
        exact ⟨other, List.mem_cons_of_mem _ there, value⟩

private theorem buildLocalContextProposal_eq_some {tick : Tick} {state : TickState}
    {msg : OracleMusigContextMsg}
    (built : buildLocalContextProposal env keys tick state = some msg) :
    msg.epoch = tick.epoch ∧
      msg.participant_ids.mapM (fun id =>
        (state.2.m_nonce_evidence tick.epoch id).filter fun nonce =>
        nonce.attempt_id = state.1.m_attempt_id) = some msg.nonce_evidence ∧
      state.1.computeContextIdForParticipants env msg.participant_ids
        (env.oracleMessageHash tick.epoch msg.consensus_price msg.consensus_timestamp) =
          some (msg.nonce_set_hash, msg.session_context_id) := by
  unfold buildLocalContextProposal at built
  simp only [Option.bind_eq_bind, Option.bind_eq_some_iff] at built
  obtain ⟨proposer, _, _, _, _, _, pending, _, prices, _, consensus, _, evidence, collected, hashes,
    computed, key, _, signature, _, made⟩ := built
  cases made
  exact ⟨rfl, collected, computed⟩

private theorem EvidenceMatches.consistent (matching : EvidenceMatches env o) {tick : Tick}
    {msg : OracleMusigContextMsg} (found : o.m_signing_sessions tick.epoch = some s)
    (built : buildLocalContextProposal env keys tick (s, o) = some msg) :
    ConsistentEvidence env s msg := by
  obtain ⟨epoch, collected, computed⟩ := buildLocalContextProposal_eq_some built
  obtain ⟨forward, backward⟩ := mem_of_mapM collected
  have carried := matching tick.epoch s found
  unfold MuSig2SigningSession.computeContextIdForParticipants at computed
  split_ifs at computed with few nodup
  obtain ⟨nonces, serialized, hashed⟩ := Option.bind_eq_some_iff.mp computed
  -- every participant has a nonce, and its evidence carries it
  have kept : ∀ id ∈ msg.participant_ids, ∃ pubnonce nonce, s.m_pubnonces id = some pubnonce ∧
      o.m_nonce_evidence tick.epoch id = some nonce ∧ nonce.oracle_id = id ∧
      env.secp.pubnonceParse nonce.pubnonce = some pubnonce := by
    intro id member
    obtain ⟨entry, _, written⟩ := (mem_of_mapM serialized).1 id (mem_sortedIds.mpr member)
    obtain ⟨pubnonce, shown, _⟩ := Option.bind_eq_some_iff.mp written
    obtain ⟨nonce, recorded, oracle, _, parsed⟩ := carried id pubnonce shown
    exact ⟨pubnonce, nonce, shown, recorded, oracle, parsed⟩
  have same : ∀ id ∈ sortedIds msg.participant_ids,
      ({ s with m_pubnonces := evidenceNonces env msg } : MuSig2SigningSession).m_pubnonces id =
        s.m_pubnonces id := by
    intro id member
    have inside := mem_sortedIds.mp member
    obtain ⟨pubnonce, nonce, shown, recorded, oracle, parsed⟩ := kept id inside
    obtain ⟨first, present, chosen⟩ := forward id inside
    have listed : (msg.nonce_evidence.find? fun nonce => nonce.oracle_id = id).isSome := by
      rw [List.find?_isSome]
      rw [(Option.filter_eq_some_iff.mp chosen).1, Option.some.injEq] at recorded
      exact ⟨first, present, by simpa [recorded] using oracle⟩
    obtain ⟨other, finding⟩ := Option.isSome_iff_exists.mp listed
    have otherOracle : other.oracle_id = id := by simpa using List.find?_some finding
    obtain ⟨source, there, taken⟩ := backward other (List.mem_of_find?_eq_some finding)
    obtain ⟨_, sourceNonce, _, sourceRecorded, sourceOracle, _⟩ := kept source there
    have takenFrom := (Option.filter_eq_some_iff.mp taken).1
    rw [takenFrom, Option.some.injEq] at sourceRecorded
    have sameSource : source = id := by rw [← sourceOracle, ← sourceRecorded, otherOracle]
    rw [sameSource, recorded, Option.some.injEq] at takenFrom
    have carriedBack : evidenceNonces env msg id = env.secp.pubnonceParse other.pubnonce := by
      unfold evidenceNonces
      rw [finding, Option.bind_some]
    rw [shown, ← parsed, takenFrom]
    exact carriedBack
  unfold ConsistentEvidence MuSig2SigningSession.computeContextIdForParticipants
  rw [if_neg few, if_neg (not_not.mpr nodup), epoch]
  dsimp only
  rw [MuSig2SigningSession.nonceSet_congr same, serialized]
  exact hashed

/-- The evidence carries the nonces of the sessions, and a proposal that the node makes
carries evidence for its nonce set hash. -/
structure EvidenceSound (env : OracleEnv) (keys : ℕ → Option Bytes)
    (o : OracleSigningOrchestrator) : Prop where
  carried : EvidenceMatches env o
  proposals : ∀ tick s msg, o.m_signing_sessions tick.epoch = some s →
    buildLocalContextProposal env keys tick (s, o) = some msg → ConsistentEvidence env s msg

private theorem evidenceSound_iff : EvidenceSound env keys o ↔ EvidenceMatches env o :=
  ⟨EvidenceSound.carried, fun matching => ⟨matching,
    fun _ _ _ found built => matching.consistent found built⟩⟩

private theorem matches_takeStep_iff (library : NonceLibrary env keys)
    (matching : EvidenceMatches env o)
    (step : NodeStep) : EvidenceMatches env (o.takeStep env keys step) ↔
    step.Agrees env keys o := by
  cases step with
  | ingestRemoteNonce msg => exact matches_ingestRemoteNonce_iff matching msg
  | ingestRemoteContext msg => exact matches_ingestRemoteContext_iff matching msg
  | ingestRemotePartialSig msg =>
    exact iff_of_true (matches_ingestRemotePartialSig matching msg) trivial
  | setEpochSelectionSeed epoch seed =>
    exact iff_of_true (matches_setEpochSelectionSeed matching epoch seed) trivial
  | beginTick tick => exact iff_of_true (matches_beginTick matching tick) trivial
  | finishTick tick => exact iff_of_true (matches_finishTick matching tick) trivial
  | localNonce tick oid =>
    change EvidenceMatches env (o.onSession tick.epoch (localTurn env keys tick oid)) ↔ ∀ s, _ → _
    cases found : o.m_signing_sessions tick.epoch with
    | none =>
      have ignored : o.onSession tick.epoch (localTurn env keys tick oid) = o := by
        unfold OracleSigningOrchestrator.onSession
        rw [found]
      rw [ignored]
      exact iff_of_true matching fun s impossible => (Option.some_ne_none _ impossible.symm).elim
    | some s =>
      rw [matches_localTurn_iff library matching tick oid found]
      simp only [Option.some.injEq, forall_eq']

private theorem matches_takeSteps_iff (library : NonceLibrary env keys)
    (matching : EvidenceMatches env o) (steps : List NodeStep) :
    (∀ before, before <+: steps → EvidenceMatches env (o.takeSteps env keys before)) ↔
      ∀ before step, before ++ [step] <+: steps →
      step.Agrees env keys (o.takeSteps env keys before) := by
  have next : ∀ before step, o.takeSteps env keys (before ++ [step]) =
      (o.takeSteps env keys before).takeStep env keys step := by
    intro before step
    unfold OracleSigningOrchestrator.takeSteps
    rw [List.foldl_append, List.foldl_cons, List.foldl_nil]
  constructor
  · intro all before step inside
    have now := all before ((List.prefix_append _ _).trans inside)
    have later := all (before ++ [step]) inside
    rw [next] at later
    exact (matches_takeStep_iff library now step).mp later
  · intro agrees before inside
    induction before using List.reverseRecOn with
    | nil => exact matching
    | append_singleton before step ih =>
      have now := ih ((List.prefix_append _ _).trans inside)
      rw [next]
      exact (matches_takeStep_iff library now step).mpr (agrees before step inside)

private theorem evidenceMatches_new : EvidenceMatches env {} := by
  intro epoch s found
  cases found

end Runs

/-- From a node that has just started, the evidence is sound at every moment of a run exactly
when no step brings an oracle a second nonce: nonces are looked at once by the session, which
keeps the first one, and again by the evidence, which keeps the last. -/
theorem evidence_sound_iff_steps_agree {env : OracleEnv} {keys : ℕ → Option Bytes}
    (library : NonceLibrary env keys) (steps : List NodeStep) :
    (∀ before, before <+: steps →
      EvidenceSound env keys (OracleSigningOrchestrator.takeSteps env keys {} before)) ↔
      ∀ before step, before ++ [step] <+: steps →
        step.Agrees env keys (OracleSigningOrchestrator.takeSteps env keys {} before) := by
  simp only [evidenceSound_iff]
  exact matches_takeSteps_iff library evidenceMatches_new steps

theorem evidence_sound_of_calls {env : OracleEnv} {keys : ℕ → Option Bytes}
    (library : NonceLibrary env keys) {calls : List Call}
    (agrees : ∀ before step, before ++ [step] <+: calls.flatMap Call.steps →
      step.Agrees env keys (OracleSigningOrchestrator.takeSteps env keys {} before)) :
    ∀ before, before <+: calls →
      EvidenceSound env keys (OracleSigningOrchestrator.run env keys {} before) := by
  rintro before ⟨rest, rfl⟩
  rw [evidenceSound_iff, run_eq_takeSteps]
  apply (matches_takeSteps_iff library evidenceMatches_new _).mpr agrees
  rw [List.flatMap_append]
  exact List.prefix_append _ _

namespace EvidenceSample

open Sample (env keys nonceOf tick)

theorem library : NonceLibrary env keys where
  serializes := by
    intro _ _ _ _ _ pubnonce _
    exact ⟨pubnonce, rfl, rfl⟩
  signs := by
    intro oid key found _ hash
    unfold keys at found
    split_ifs at found with zero
    rw [← Option.some.inj found]
    rfl

/-- The node makes its nonce and receives one of oracle 1. -/
def exchange : List NodeStep :=
  [.beginTick (tick 40 30), .localNonce (tick 40 30) 0, .ingestRemoteNonce (nonceOf 1 11 31)]

/-- Oracle 1 has signed another nonce for the same attempt. -/
def equivocation : List NodeStep := exchange ++ [.ingestRemoteNonce (nonceOf 1 11 32)]

/-- The node after its steps, with the session of epoch 1. -/
def after (steps : List NodeStep) : Option TickState :=
  let o := OracleSigningOrchestrator.takeSteps env keys {} steps
  (o.m_signing_sessions 1).map fun s => (s, o)

instance (s : MuSig2SigningSession) (msg : OracleMusigContextMsg) :
    Decidable (ConsistentEvidence env s msg) :=
  inferInstanceAs (Decidable (_ = _))

/-- Both messages of oracle 1 are properly signed. The session keeps the nonce of the first one
and the evidence the second one, so the context that the node proposes at height 42 does not
follow from the evidence that it carries. -/
theorem second_nonce_replaces_evidence :
    ((after equivocation).any fun state =>
      env.nonceVerifies state.1 (nonceOf 1 11 31) && env.nonceVerifies state.1 (nonceOf 1 11 32) &&
        state.1.m_pubnonces 1 = env.secp.pubnonceParse (nonceOf 1 11 31).pubnonce &&
        state.2.m_nonce_evidence 1 1 = some (nonceOf 1 11 32) &&
        env.secp.pubnonceParse (nonceOf 1 11 31).pubnonce ≠
          env.secp.pubnonceParse (nonceOf 1 11 32).pubnonce &&
        (buildLocalContextProposal env keys (tick 42 30) state).any fun msg =>
          ¬ ConsistentEvidence env state.1 msg) = true := by
  decide +kernel

/-- An exchange of one nonce each, after which the node has a context to propose. -/
theorem exchange_sound :
    (∀ before, before <+: exchange →
      EvidenceSound env keys (OracleSigningOrchestrator.takeSteps env keys {} before)) ∧
      ((after exchange).any fun state =>
        (buildLocalContextProposal env keys (tick 42 30) state).any fun msg =>
          msg.nonce_evidence.length = 2) = true := by
  refine ⟨(evidence_sound_iff_steps_agree library exchange).mpr ?_, by decide +kernel⟩
  rintro before step ⟨rest, whole⟩
  match before with
  | [] =>
    obtain ⟨rfl, _⟩ := List.cons.inj whole
    trivial
  | [_] =>
    simp only [exchange, List.cons_append, List.nil_append, List.cons.injEq] at whole
    obtain ⟨rfl, rfl, _⟩ := whole
    -- the session is new
    intro s found pubnonce _ held nonce
    have new : ((OracleSigningOrchestrator.takeSteps env keys {}
        [.beginTick (tick 40 30)]).m_signing_sessions 1).all
        (fun s => s.m_pubnonces (oid8 0) = none) = true := by decide +kernel
    have absent : s.m_pubnonces (oid8 0) = none := by
      simpa using (Option.all_eq_true _ _).mp new s found
    rw [absent] at nonce
    cases nonce
  | [_, _] =>
    simp only [exchange, List.cons_append, List.nil_append, List.cons.injEq] at whole
    obtain ⟨rfl, rfl, rfl, _⟩ := whole
    intro opened found
    have unheard : ((OracleSigningOrchestrator.takeSteps env keys {} (exchange.take 2)).openSession
        env 1 0).all
        (fun opened => opened.1.m_pubnonces 1 = none) = true := by decide +kernel
    have absent : opened.1.m_pubnonces 1 = none := by
      simpa using (Option.all_eq_true _ _).mp unheard opened found
    exact lastAgrees_of_no_nonce absent
  | _ :: _ :: _ :: _ => simp [exchange] at whole

end EvidenceSample

end DigiByte.Oracle
