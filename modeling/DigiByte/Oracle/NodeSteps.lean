import DigiByte.Oracle.CeremonyRun

/-!
The steps of a node.

A node acts call by call, and a tick is a call that makes several nonces. Here a tick is taken
apart into its beginning, the turn of each local oracle and the rest, and a run of calls is shown
to be the run of its steps. The reason is that the work of a tick neither reads nor writes the
sessions of the orchestrator, so that its session can be put back and taken out in between.
-/

set_option autoImplicit false
set_option relaxedAutoImplicit false

namespace DigiByte.Oracle

open Script (Bytes)

/-- Work on the session of an epoch, if there is one. -/
def OracleSigningOrchestrator.onSession (o : OracleSigningOrchestrator) (epoch : ℤ)
    (work : TickState → TickState) : OracleSigningOrchestrator :=
  match o.m_signing_sessions epoch with
  | none => o
  | some s => (work (s, o)).2.putSession epoch (work (s, o)).1

/-- A tick from its second step on. -/
def finishTick (env : OracleEnv) (keys : ℕ → Option Bytes) (tick : Tick)
    (state : TickState) : TickState :=
  let converged := converge env keys tick state
  if converged.1 = false then converged.2
  else
    let signed := drainAndAggregate env tick converged.2
    (signed.1.checkTimeout tick.block_height, signed.2)

/-- The turn of one local oracle in the first step of a tick. -/
def localTurn (env : OracleEnv) (keys : ℕ → Option Bytes) (tick : Tick) (oid : ℕ)
    (state : TickState) :
    TickState :=
  match env.computeAggregatePubkey env.consensusOracleIdsForSigning with
  | none => state
  | some aggregate => localNonce env keys tick aggregate.2 state oid

/-- What a node does between two moments: a call, where a tick is taken apart into its
beginning, the turn of each local oracle and the rest. -/
inductive NodeStep where
  | ingestRemoteNonce (msg : OracleMusigNonceMsg)
  | ingestRemoteContext (msg : OracleMusigContextMsg)
  | ingestRemotePartialSig (msg : OracleMusigPartialSigMsg)
  | setEpochSelectionSeed (epoch : ℤ) (seed : Hash)
  | beginTick (tick : Tick)
  | localNonce (tick : Tick) (oid : ℕ)
  | finishTick (tick : Tick)

section Steps

variable (env : OracleEnv) (keys : ℕ → Option Bytes)

def OracleSigningOrchestrator.takeStep (o : OracleSigningOrchestrator) :
    NodeStep → OracleSigningOrchestrator
  | .ingestRemoteNonce msg => o.ingestRemoteNonce env msg
  | .ingestRemoteContext msg => o.ingestRemoteContext env msg
  | .ingestRemotePartialSig msg => o.ingestRemotePartialSig env msg
  | .setEpochSelectionSeed epoch seed => o.setEpochSelectionSeed epoch seed
  | .beginTick tick =>
    let found := o.getOrCreateSigningSession env tick
    let state := seedTick env tick (found.2.restartEpochAttemptIfNeeded env tick found.1)
    state.2.putSession tick.epoch state.1
  | .localNonce tick oid => o.onSession tick.epoch (localTurn env keys tick oid)
  | .finishTick tick => o.onSession tick.epoch (finishTick env keys tick)

def OracleSigningOrchestrator.takeSteps (o : OracleSigningOrchestrator) (steps : List NodeStep) :
    OracleSigningOrchestrator :=
  steps.foldl (OracleSigningOrchestrator.takeStep env keys) o

/-- The steps of a call. -/
def Call.steps : Call → List NodeStep
  | .ingestRemoteNonce msg => [.ingestRemoteNonce msg]
  | .ingestRemoteContext msg => [.ingestRemoteContext msg]
  | .ingestRemotePartialSig msg => [.ingestRemotePartialSig msg]
  | .setEpochSelectionSeed epoch seed => [.setEpochSelectionSeed epoch seed]
  | .tickEpochSession tick =>
    .beginTick tick :: tick.local_ids.map (.localNonce tick) ++ [.finishTick tick]

/-- The nonce that a local oracle makes at its turn. -/
def madeNonce (tick : Tick) (oid : ℕ) (state : TickState) : Option Bytes :=
  if oid8 oid ∈ state.2.m_nonce_broadcast_tracker tick.epoch then none
  else
    (env.computeAggregatePubkey env.consensusOracleIdsForSigning).bind fun aggregate =>
      ((keys oid).filter env.secp.keyIsValid).bind fun key =>
        (env.secp.pubkeyParse (env.secp.getPubKey key)).bind fun pubkey =>
          (state.1.generateNonce env (oid8 oid) key pubkey aggregate.2 (tick.secrand oid)).1

end Steps

/-! A tick is its steps. -/

section Tick

variable {env : OracleEnv} {keys : ℕ → Option Bytes} {tick : Tick}

/-- The state of a tick with its session put back. -/
def putBack (tick : Tick) (state : TickState) : OracleSigningOrchestrator :=
  state.2.putSession tick.epoch state.1

/-- Work that neither reads nor writes the sessions of the orchestrator. -/
private def Detached (work : TickState → TickState) : Prop :=
  ∀ s o epoch other, work (s, o.putSession epoch other) =
    ((work (s, o)).1, (work (s, o)).2.putSession epoch other)

private theorem onSession_putBack {work : TickState → TickState} (detached : Detached work)
    (state : TickState) :
    (putBack tick state).onSession tick.epoch work = putBack tick (work state) := by
  obtain ⟨s, o⟩ := state
  have found : (o.putSession tick.epoch s).m_signing_sessions tick.epoch = some s :=
    Function.update_self ..
  unfold putBack OracleSigningOrchestrator.onSession
  dsimp only
  rw [found]
  dsimp only
  rw [detached s o tick.epoch s, putSession_putSession]

private theorem Detached.comp {first second : TickState → TickState} (detached : Detached first)
    (detached' : Detached second) : Detached fun state => second (first state) := by
  intro s o epoch other
  dsimp only
  rw [detached s o epoch other, detached' (first (s, o)).1 (first (s, o)).2 epoch other]

private theorem Detached.foldl {β : Type} {work : TickState → β → TickState}
    (detached : ∀ b, Detached fun state => work state b) (items : List β) :
    Detached fun state => items.foldl work state := by
  induction items with
  | nil => exact fun _ _ _ _ => rfl
  | cons b rest ih => exact (detached b).comp ih

private theorem Detached.ite {c : TickState → Prop} [DecidablePred c]
    {work work' : TickState → TickState}
    (stable : ∀ s o epoch other, c (s, OracleSigningOrchestrator.putSession o epoch other) ↔
      c (s, o))
    (detached : Detached work) (detached' : Detached work') :
    Detached fun state => if c state then work state else work' state := by
  intro s o epoch other
  dsimp only
  by_cases here : c (s, o)
  · rw [if_pos here, if_pos ((stable s o epoch other).mpr here)]
    exact detached s o epoch other
  · rw [if_neg here, if_neg fun there => here ((stable s o epoch other).mp there)]
    exact detached' s o epoch other

private theorem detached_id : Detached fun state => state := fun _ _ _ _ => rfl

private theorem detached_addLocalNonce (cache key pubkey : Bytes) (oid : ℕ) :
    Detached (addLocalNonce env tick cache key pubkey oid) := by
  intro s o epoch other
  unfold addLocalNonce
  dsimp only
  cases (s.generateNonce env (oid8 oid) key pubkey cache (tick.secrand oid)).1 with
  | none => rfl
  | some pubnonce =>
    dsimp only
    split <;> rfl

private theorem detached_localTurn (oid : ℕ) : Detached (localTurn env keys tick oid) := by
  unfold localTurn
  cases env.computeAggregatePubkey env.consensusOracleIdsForSigning with
  | none => exact detached_id
  | some aggregate =>
    refine Detached.ite (fun _ _ _ _ => Iff.rfl) detached_id ?_
    cases (keys oid).filter env.secp.keyIsValid with
    | none => exact detached_id
    | some key =>
      dsimp only
      cases env.secp.pubkeyParse (env.secp.getPubKey key) with
      | none => exact detached_id
      | some pubkey => exact detached_addLocalNonce aggregate.2 key pubkey oid

private theorem detached_addLocalPartialSig (key : Bytes) (id : OracleId) :
    Detached (addLocalPartialSig env tick key id) := by
  intro s o epoch other
  unfold addLocalPartialSig
  dsimp only
  cases (s.createPartialSignature env id key).1 with
  | none => rfl
  | some partial_sig =>
    dsimp only
    split <;> rfl

private theorem detached_localPartialSig (participants : List OracleId) (oid : ℕ) :
    Detached fun state => localPartialSig env keys tick participants state oid := by
  unfold localPartialSig
  refine Detached.ite (fun _ _ _ _ => Iff.rfl) detached_id ?_
  cases (keys oid).filter env.secp.keyIsValid with
  | none => exact detached_id
  | some key =>
    dsimp only
    split_ifs
    · exact detached_addLocalPartialSig key (oid8 oid)
    · exact detached_id

/-- The same of work that says whether the tick goes on. -/
private def DetachedChoice (work : TickState → Converged) : Prop :=
  (∀ s o epoch other, (work (s, OracleSigningOrchestrator.putSession o epoch other)).1 =
    (work (s, o)).1) ∧
    Detached fun state => (work state).2

private theorem DetachedChoice.ite {c : TickState → Prop} [DecidablePred c]
    {work work' : TickState → Converged}
    (stable : ∀ s o epoch other, c (s, OracleSigningOrchestrator.putSession o epoch other) ↔
      c (s, o))
    (detached : DetachedChoice work) (detached' : DetachedChoice work') :
    DetachedChoice fun state => if c state then work state else work' state := by
  constructor
  · intro s o epoch other
    dsimp only
    by_cases here : c (s, o)
    · rw [if_pos here, if_pos ((stable s o epoch other).mpr here)]
      exact detached.1 s o epoch other
    · rw [if_neg here, if_neg fun there => here ((stable s o epoch other).mp there)]
      exact detached'.1 s o epoch other
  · have later := Detached.ite stable detached.2 detached'.2
    intro s o epoch other
    have same := later s o epoch other
    dsimp only at same ⊢
    rw [apply_ite Prod.snd, apply_ite Prod.snd]
    exact same

private theorem detached_signContext (context : OracleMusigContextMsg) :
    DetachedChoice (signContext env keys tick context) := by
  constructor
  · intro s o epoch other
    unfold signContext
    dsimp only
    cases (freezeParticipants env tick context s).1 with
    | none => rfl
    | some aggregated =>
      cases aggregated with
      | false => rfl
      | true =>
        dsimp only
        split <;> rfl
  · intro s o epoch other
    unfold signContext
    dsimp only
    cases (freezeParticipants env tick context s).1 with
    | none => rfl
    | some aggregated =>
      cases aggregated with
      | false => rfl
      | true =>
        dsimp only
        split
        · rfl
        · exact Detached.foldl (fun oid => detached_localPartialSig _ oid) tick.local_ids _ o
            epoch other

/-- The choice of a context and what follows from it. -/
def chooseContext (env : OracleEnv) (keys : ℕ → Option Bytes) (tick : Tick) (state : TickState) :
    Converged :=
  match selectReadyContextProposal env tick state with
  | some context => signContext env keys tick context state
  | none =>
    if tick.local_ids = [] then (true, state)
    else
      match buildLocalContextProposal env keys tick state with
      | some msg => (false, state.1, storeLocalContext tick state.2 msg)
      | none => (true, state)

private theorem detached_chooseContext : DetachedChoice (chooseContext env keys tick) := by
  have selects : ∀ s o epoch other, selectReadyContextProposal env tick
      (s, OracleSigningOrchestrator.putSession o epoch other) =
        selectReadyContextProposal env tick (s, o) :=
    fun _ _ _ _ => rfl
  have builds : ∀ s o epoch other, buildLocalContextProposal env keys tick
      (s, OracleSigningOrchestrator.putSession o epoch other) =
        buildLocalContextProposal env keys tick (s, o) :=
    fun _ _ _ _ => rfl
  constructor
  · intro s o epoch other
    unfold chooseContext
    rw [selects, builds]
    cases selectReadyContextProposal env tick (s, o) with
    | some context => exact (detached_signContext context).1 s o epoch other
    | none =>
      dsimp only
      split
      · rfl
      · split <;> rfl
  · intro s o epoch other
    unfold chooseContext
    dsimp only
    rw [selects, builds]
    cases selectReadyContextProposal env tick (s, o) with
    | some context => exact (detached_signContext context).2 s o epoch other
    | none =>
      dsimp only
      split
      · rfl
      · split <;> rfl

/-- The session with the seed that the node uses for the epoch. -/
def reseed (env : OracleEnv) (tick : Tick) (state : TickState) : TickState :=
  ({ state.1 with m_epoch_selection_seed := state.2.getSelectionSeedForEpoch env tick.epoch },
    state.2)

private theorem detached_reseed : Detached (reseed env tick) := fun _ _ _ _ => rfl

theorem converge_eq : converge env keys tick = fun state =>
    if state.1.m_state ≠ .noncesComplete then (true, state)
    else if tick.epoch > getCurrentEpoch env.params tick.block_height ∧
        state.2.hasSelectionSeedForEpoch tick.epoch = false then (false, state)
    else if tick.block_height < state.1.m_creation_height + CONTEXT_NONCE_GRACE_BLOCKS then
      (false, reseed env tick state)
    else chooseContext env keys tick (reseed env tick state) := by
  funext state
  unfold converge chooseContext
  rfl

private theorem detached_converge : DetachedChoice (converge env keys tick) := by
  rw [converge_eq]
  refine DetachedChoice.ite (fun _ _ _ _ => Iff.rfl) ⟨fun _ _ _ _ => rfl, detached_id⟩ ?_
  refine DetachedChoice.ite (fun _ _ _ _ => Iff.rfl) ⟨fun _ _ _ _ => rfl, detached_id⟩ ?_
  refine DetachedChoice.ite (fun _ _ _ _ => Iff.rfl) ⟨fun _ _ _ _ => rfl, detached_reseed⟩ ?_
  refine ⟨?_, detached_reseed.comp detached_chooseContext.2⟩
  intro s o epoch other
  exact detached_chooseContext.1 (reseed env tick (s, o)).1 (reseed env tick (s, o)).2 epoch other

private theorem detached_drainAndAggregate : Detached (drainAndAggregate env tick) := by
  unfold drainAndAggregate
  refine Detached.ite (fun _ _ _ _ => Iff.rfl) detached_id ?_
  intro s o epoch other
  have taken : takePending tick (s, o.putSession epoch other) =
      ((takePending tick (s, o)).1, (takePending tick (s, o)).2.putSession epoch other) := by
    unfold takePending
    dsimp only [OracleSigningOrchestrator.putSession]
    split <;> rfl
  dsimp only
  rw [taken]

private theorem detached_finishTick : Detached (finishTick env keys tick) := by
  obtain ⟨choice, work⟩ := @detached_converge env keys tick
  intro s o epoch other
  replace choice := choice s o epoch other
  replace work := work s o epoch other
  dsimp only at work
  unfold finishTick
  dsimp only
  rw [choice, work]
  split
  · rfl
  · rw [detached_drainAndAggregate]

private theorem localTurn_of_not_collecting {state : TickState} (oid : ℕ)
    (past : state.1.m_state ≠ .created ∧ state.1.m_state ≠ .noncesCollecting) :
    localTurn env keys tick oid state = state := by
  unfold localTurn localNonce
  split
  · rfl
  split_ifs
  · rfl
  split
  · rfl
  split
  · rfl
  unfold addLocalNonce MuSig2SigningSession.generateNonce
  rw [if_pos past]

private theorem generateLocalNonces_eq (state : TickState) :
    generateLocalNonces env keys tick state =
      tick.local_ids.foldl (fun state oid => localTurn env keys tick oid state) state := by
  have still : ∀ oids : List ℕ, (∀ oid, localTurn env keys tick oid state = state) →
      oids.foldl (fun state oid => localTurn env keys tick oid state) state = state := by
    intro oids same
    induction oids with
    | nil => rfl
    | cons oid rest ih => rw [List.foldl_cons, same oid, ih]
  unfold generateLocalNonces
  by_cases past : state.1.m_state ≠ .created ∧ state.1.m_state ≠ .noncesCollecting
  · rw [if_pos past, still _ fun oid => localTurn_of_not_collecting oid past]
  · rw [if_neg past]
    cases computed : env.computeAggregatePubkey env.consensusOracleIdsForSigning with
    | none =>
      refine (still _ fun oid => ?_).symm
      unfold localTurn
      rw [computed]
    | some aggregate =>
      unfold localTurn
      rw [computed]

private theorem tickEpochSession_eq_takeSteps (o : OracleSigningOrchestrator) :
    o.tickEpochSession env keys tick = o.takeSteps env keys (Call.tickEpochSession tick).steps := by
  have turns : ∀ (oids : List ℕ) (state : TickState),
      (putBack tick state).takeSteps env keys (oids.map (NodeStep.localNonce tick)) =
        putBack tick (oids.foldl (fun state oid => localTurn env keys tick oid state) state) := by
    intro oids
    induction oids with
    | nil => exact fun _ => rfl
    | cons oid rest ih =>
      intro state
      have turn : (putBack tick state).takeStep env keys (.localNonce tick oid) =
          putBack tick (localTurn env keys tick oid state) :=
            onSession_putBack (detached_localTurn oid) state
      rw [List.map_cons, OracleSigningOrchestrator.takeSteps, List.foldl_cons, turn]
      exact ih _
  have steps : (Call.tickEpochSession tick).steps =
      .beginTick tick :: (tick.local_ids.map (.localNonce tick) ++ [.finishTick tick]) := rfl
  rw [steps, OracleSigningOrchestrator.takeSteps, List.foldl_cons, List.foldl_append]
  have begun : o.takeStep env keys (.beginTick tick) = putBack tick (seedTick env tick
      ((o.getOrCreateSigningSession env tick).2.restartEpochAttemptIfNeeded env tick
        (o.getOrCreateSigningSession env tick).1)) := rfl
  have finished : ∀ state, (putBack tick state).takeStep env keys (.finishTick tick) =
      putBack tick (finishTick env keys tick state) :=
        fun state => onSession_putBack detached_finishTick state
  rw [begun]
  have all := turns tick.local_ids (seedTick env tick
      ((o.getOrCreateSigningSession env tick).2.restartEpochAttemptIfNeeded env tick
        (o.getOrCreateSigningSession env tick).1))
  unfold OracleSigningOrchestrator.takeSteps at all
  rw [all, List.foldl_cons, List.foldl_nil, finished, ← generateLocalNonces_eq]
  rfl

theorem run_eq_takeSteps (o : OracleSigningOrchestrator) (calls : List Call) :
    o.run env keys calls = o.takeSteps env keys (calls.flatMap Call.steps) := by
  have one : ∀ (o : OracleSigningOrchestrator) (call : Call),
      o.call env keys call = o.takeSteps env keys call.steps := by
    intro o call
    cases call with
    | tickEpochSession tick => exact tickEpochSession_eq_takeSteps o
    | ingestRemoteNonce msg => rfl
    | ingestRemoteContext msg => rfl
    | ingestRemotePartialSig msg => rfl
    | setEpochSelectionSeed epoch seed => rfl
  induction calls generalizing o with
  | nil => rfl
  | cons call rest ih =>
    rw [OracleSigningOrchestrator.run, List.foldl_cons, List.flatMap_cons,
      OracleSigningOrchestrator.takeSteps, List.foldl_append]
    have first := one o call
    unfold OracleSigningOrchestrator.takeSteps at first ih
    rw [← first]
    exact ih _

end Tick

end DigiByte.Oracle
