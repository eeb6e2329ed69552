import DigiByte.Oracle.Orchestrator

/-!
The invariant of a signing session, and that each thing the orchestrator does to a
session keeps it.

While nonces are collected, a secret nonce belongs to the public nonce that the
session has for its oracle, and the session has no other nonce of a local oracle.
From the freezing of the participants on, the session is bound to one validated
context, and every partial signature verifies for it.
-/

set_option autoImplicit false
set_option relaxedAutoImplicit false

namespace DigiByte.Oracle

open Script (Bytes)

/-! What is assumed. -/

/-- The key, public nonce and partial signature of one participant. -/
structure Share where
  pubkey : Bytes
  pubnonce : Bytes
  sig : Bytes

/-- What the ceremony needs of the curve library. -/
structure Secp256k1.Sound (secp : Secp256k1) : Prop where
  partialSign_verifies :
    ∀ {secrand key₀ key pubkey cache₀ cache session secnonce pubnonce sig : Bytes},
    secp.getPubKey key₀ = secp.getPubKey key →
    secp.pubkeyParse (secp.getPubKey key) = some pubkey →
    secp.nonceGen secrand key₀ pubkey cache₀ = some (secnonce, pubnonce) →
    secp.partialSign secnonce key cache session = some sig →
    secp.partialSigVerify sig pubnonce pubkey cache session = true
  aggregate_verifies :
    ∀ (shares : List Share) {message : Hash} {aggregate cache aggnonce session sig : Bytes},
    secp.pubkeyAgg (shares.map Share.pubkey) = some (aggregate, cache) →
    secp.nonceAgg (shares.map Share.pubnonce) = some aggnonce →
    secp.nonceProcess aggnonce message cache = some session →
    (∀ share ∈ shares,
      secp.partialSigVerify share.sig share.pubnonce share.pubkey cache session = true) →
    secp.partialSigAgg session (shares.map Share.sig) = some sig →
    sig.length = 64 ∧ secp.schnorrsigVerify sig message aggregate = true

section

variable (env : OracleEnv) (keys : ℕ → Option Bytes)

/-- The node has a usable key for this oracle number. -/
def Held (id : OracleId) : Prop :=
  ∃ oid key, keys oid = some key ∧ env.secp.keyIsValid key = true ∧ oid8 oid = id

/-- The curve library is sound, local keys are the configured ones, and the keys of any
authorised participants can be aggregated. -/
structure CeremonyAssumptions : Prop where
  curve : env.secp.Sound
  configured : ∀ {oid : ℕ} {key : Bytes}, keys oid = some key → env.secp.keyIsValid key = true →
    ∃ oracle, env.chain.getOracleNode (oid8 oid) = some oracle ∧
    env.secp.getPubKey key = oracle.pubkey
  aggregates : ∀ {ids : List OracleId}, ids.Nodup →
    (ids.length : ℤ) = env.params.nOracleConsensusRequired →
    (∀ id ∈ ids, env.isAuthorizedMuSig2OracleIdForRelay id = true) →
    (env.computeAggregatePubkey ids).isSome

/-! The invariant. -/

/-- One price message of each participant, signed by its configured key and valid at a
common time, gives the price and timestamp. -/
def PricedBy (ids : List OracleId) (price : ℕ) (timestamp : ℤ) : Prop :=
  ∃ evidence now, (evidence.map COraclePriceMessage.oracle_id).Perm (ids.map Fin.val) ∧
    (∀ msg ∈ evidence, env.priceIsValid msg now = true ∧ ∃ oracle,
      env.chain.getOracleNode msg.oracle_id = some oracle ∧
      xonly oracle.pubkey = msg.oracle_pubkey) ∧
    computeConsensusValuesFromEvidence evidence = some (price, timestamp)

/-- A secret nonce and its public nonce, made under the configured key of the oracle. -/
def Paired (id : OracleId) (secnonce pubnonce : Bytes) : Prop :=
  ∃ oracle pubkey key secrand cache, env.chain.getOracleNode id = some oracle ∧
    env.secp.getPubKey key = oracle.pubkey ∧ env.secp.pubkeyParse oracle.pubkey = some pubkey ∧
    env.secp.nonceGen secrand key pubkey cache = some (secnonce, pubnonce)

/-- While nonces are collected. -/
structure NoncesOk (s : MuSig2SigningSession) : Prop where
  unfrozen : s.m_participants_frozen = false
  unsigned : ∀ id, s.m_partial_sigs id = none
  published : ∀ id, (s.m_secnonces id).isSome → (s.m_pubnonces id).isSome
  own : ∀ id, Held env keys id → (s.m_pubnonces id).isSome → (s.m_secnonces id).isSome

/-- From the aggregation of the nonces on. -/
structure SigningOk (s : MuSig2SigningSession) : Prop where
  frozen : s.m_participants_frozen = true
  threshold : (s.m_pubnonces.ids.length : ℤ) = env.params.nOracleConsensusRequired
  signers : s.m_min_signers = s.m_pubnonces.ids.length
  priced : PricedBy env s.m_pubnonces.ids s.m_signed_price s.m_signed_timestamp
  keyed : ∃ aggregate, env.computeAggregatePubkey s.m_pubnonces.ids =
    some (aggregate, s.m_keyagg_cache)
  processed : ∃ aggnonce, env.secp.nonceAgg s.m_pubnonces.values = some aggnonce ∧
    env.secp.nonceProcess aggnonce
      (env.oracleMessageHash s.m_epoch s.m_signed_price s.m_signed_timestamp) s.m_keyagg_cache =
        some s.m_session
  verified : ∀ id sig, s.m_partial_sigs id = some sig → ∃ pubnonce pubkey,
    s.m_pubnonces id = some pubnonce ∧ env.participantKey id = some pubkey ∧
      env.secp.partialSigVerify sig pubnonce pubkey s.m_keyagg_cache s.m_session = true

structure SessionOk (s : MuSig2SigningSession) : Prop where
  paired : ∀ id secnonce pubnonce, s.m_secnonces id = some secnonce →
    s.m_pubnonces id = some pubnonce → Paired env id secnonce pubnonce
  nonces : s.Collecting → NoncesOk env keys s
  signing : s.m_state = .signing ∨ s.m_state = .complete → SigningOk env s
  complete : s.m_state = .complete → s.m_min_signers ≤ s.m_partial_sigs.ids.length ∧
    env.secp.partialSigAgg s.m_session s.m_partial_sigs.values = some s.m_aggregate_sig

/-- What a session keeps whatever is done to it: its identity, and its secret nonces as
long as it is collecting. -/
structure Evolves (s s' : MuSig2SigningSession) : Prop where
  epoch : s'.m_epoch = s.m_epoch
  attempt : s'.m_attempt_id = s.m_attempt_id
  signers : s'.m_min_signers = s.m_min_signers
  keeps : s'.Collecting → s.Collecting ∧ ∀ id, (s.m_secnonces id).isSome →
    (s'.m_secnonces id).isSome

/-- A change of a session that keeps the invariant. -/
def Preserves (s s' : MuSig2SigningSession) : Prop :=
  SessionOk env keys s → SessionOk env keys s' ∧ Evolves s s'

end

variable {env : OracleEnv} {keys : ℕ → Option Bytes} {s s' s'' : MuSig2SigningSession}
  {id : OracleId}

theorem Evolves.refl (s : MuSig2SigningSession) : Evolves s s :=
  ⟨rfl, rfl, rfl, fun collecting => ⟨collecting, fun _ held => held⟩⟩

theorem Evolves.trans (first : Evolves s s') (second : Evolves s' s'') : Evolves s s'' where
  epoch := second.epoch.trans first.epoch
  attempt := second.attempt.trans first.attempt
  signers := second.signers.trans first.signers
  keeps collecting :=
    have later := second.keeps collecting
    have earlier := first.keeps later.1
    ⟨earlier.1, fun id held => later.2 id (earlier.2 id held)⟩

theorem Preserves.refl (s : MuSig2SigningSession) : Preserves env keys s s :=
  fun ok => ⟨ok, Evolves.refl s⟩

theorem Preserves.trans (first : Preserves env keys s s') (second : Preserves env keys s' s'') :
    Preserves env keys s s'' := by
  intro ok
  obtain ⟨ok', evolves⟩ := first ok
  obtain ⟨ok'', next⟩ := second ok'
  exact ⟨ok'', evolves.trans next⟩

theorem Preserves.foldl {β : Type} {step : MuSig2SigningSession → β → MuSig2SigningSession}
    (each : ∀ s b, Preserves env keys s (step s b)) (items : List β) (s : MuSig2SigningSession) :
    Preserves env keys s (items.foldl step s) := by
  induction items generalizing s with
  | nil => exact Preserves.refl s
  | cons b rest ih => exact (each s b).trans (ih (step s b))

private theorem not_signing (collecting : s.Collecting) :
    ¬ (s.m_state = .signing ∨ s.m_state = .complete) := by
  rcases collecting with state | state | state <;> simp [state]

private theorem not_collecting_of_signing (state : s.m_state = .signing ∨ s.m_state = .complete) :
    ¬ s.Collecting := fun collecting => not_signing collecting state

private theorem not_collecting_of_failed (state : s.m_state = .failed) : ¬ s.Collecting := by
  rintro (other | other | other) <;> rw [state] at other <;> cases other

theorem SessionOk.of_collecting (collecting : s.Collecting) (nonces : NoncesOk env keys s)
    (paired : ∀ id secnonce pubnonce, s.m_secnonces id = some secnonce →
      s.m_pubnonces id = some pubnonce → Paired env id secnonce pubnonce) : SessionOk env
        keys s where
  paired := paired
  nonces _ := nonces
  signing state := absurd state (not_signing collecting)
  complete state := absurd (.inr state) (not_signing collecting)

private theorem SessionOk.congr_collecting (ok : SessionOk env keys s) (before : s.Collecting)
    (after : s'.Collecting) (frozen : s'.m_participants_frozen = s.m_participants_frozen)
    (sigs : s'.m_partial_sigs = s.m_partial_sigs) (sec : s'.m_secnonces = s.m_secnonces)
    (pub : s'.m_pubnonces = s.m_pubnonces) : SessionOk env keys s' := by
  have nonces := ok.nonces before
  refine SessionOk.of_collecting after ⟨?_, ?_, ?_, ?_⟩ ?_
  · rw [frozen]
    exact nonces.unfrozen
  · rw [sigs]
    exact nonces.unsigned
  · rw [sec, pub]
    exact nonces.published
  · rw [sec, pub]
    exact nonces.own
  · rw [sec, pub]
    exact ok.paired

private theorem SessionOk.of_failed (ok : SessionOk env keys s) (state : s'.m_state = .failed)
    (sec : ∀ id secnonce, s'.m_secnonces id = some secnonce → s.m_secnonces id = some secnonce)
    (pub : ∀ id pubnonce, s'.m_pubnonces id = some pubnonce → s.m_pubnonces id = some pubnonce) :
    SessionOk env keys s' where
  paired id secnonce pubnonce secret shown :=
    ok.paired id secnonce pubnonce (sec id secnonce secret) (pub id pubnonce shown)
  nonces collecting := absurd collecting (not_collecting_of_failed state)
  signing other := by
    rw [state] at other
    rcases other with other | other <;> cases other
  complete other := by
    rw [state] at other
    cases other

/-! Nonces. -/

theorem preserves_seed (s : MuSig2SigningSession) (seed : Hash) :
    Preserves env keys s { s with m_epoch_selection_seed := seed } := by
  intro ok
  refine ⟨⟨ok.paired, ?_, ?_, ok.complete⟩,
    rfl, rfl, rfl, fun collecting => ⟨collecting, fun _ held => held⟩⟩
  · intro collecting
    have nonces := ok.nonces collecting
    exact ⟨nonces.unfrozen, nonces.unsigned, nonces.published, nonces.own⟩
  · intro state
    have signing := ok.signing state
    exact ⟨signing.frozen, signing.threshold, signing.signers, signing.priced, signing.keyed,
      signing.processed, signing.verified⟩

theorem preserves_initializeForNonces (initialized : env.initializeForNonces s = some s') :
    Preserves env keys s s' := by
  unfold OracleEnv.initializeForNonces at initialized
  split_ifs at initialized with created
  · obtain ⟨aggregate, _, passive⟩ := Option.bind_eq_some_iff.mp initialized
    rcases MuSig2SigningSession.initializePassive_cases passive with rfl | ⟨_, rfl⟩
    · exact Preserves.refl _
    · have before : s.Collecting := .inl created
      intro ok
      exact ⟨ok.congr_collecting before (.inr (.inl rfl)) rfl rfl rfl rfl,
        rfl, rfl, rfl, fun _ => ⟨before, fun _ held => held⟩⟩
  · rw [← Option.some.inj initialized]
    exact Preserves.refl s

theorem addPubnonce_evolves {pubnonce : Bytes} (added : s.addPubnonce env id pubnonce = some s') :
    Evolves s s' := by
  obtain ⟨state, _, _, after, _, rfl⟩ := MuSig2SigningSession.addPubnonce_eq_some added
  exact ⟨rfl, rfl, rfl, fun _ => ⟨.inr state, fun _ held => held⟩⟩

theorem addPubnonce_ok {pubnonce : Bytes} (added : s.addPubnonce env id pubnonce = some s')
    (paired : ∀ other secnonce found, other ≠ id → s.m_secnonces other = some secnonce →
      s.m_pubnonces other = some found → Paired env other secnonce found)
    (unsigned : ∀ other, s.m_partial_sigs other = none)
    (published : ∀ other, other ≠ id → (s.m_secnonces other).isSome → (s.m_pubnonces other).isSome)
    (own : ∀ other, Held env keys other → (other ≠ id → (s.m_pubnonces other).isSome) →
      (s.m_secnonces other).isSome)
    (matching : ∀ secnonce, s.m_secnonces id = some secnonce → Paired env id secnonce pubnonce) :
    SessionOk env keys s' := by
  obtain ⟨state, _, unfrozen, after, next, rfl⟩ := MuSig2SigningSession.addPubnonce_eq_some added
  have collecting : after = .noncesCollecting ∨ after = .noncesComplete := by
    rcases next with rfl | rfl
    · exact state
    · exact .inr rfl
  refine SessionOk.of_collecting (.inr collecting) ⟨unfrozen, unsigned, ?_, ?_⟩ ?_
  · intro other secret
    by_cases same : other = id
    · simp [same]
    · exact OracleMap.insert_isSome pubnonce (published other same secret)
  · intro other held shown
    refine own other held fun different => ?_
    dsimp only at shown
    rwa [OracleMap.insert_of_ne different] at shown
  · intro other secnonce found secret shown
    dsimp only at secret shown
    by_cases same : other = id
    · subst same
      rw [OracleMap.insert_same, Option.some.injEq] at shown
      rw [← shown]
      exact matching secnonce secret
    · rw [OracleMap.insert_of_ne same] at shown
      exact paired other secnonce found same secret shown

theorem preserves_addNonceEvidence (msg : OracleMusigNonceMsg) (s : MuSig2SigningSession)
    (authentic : ∀ oracle, env.chain.getOracleNode msg.oracle_id = some oracle →
      env.verifyNonce msg (xonly oracle.pubkey) = true → msg.epoch = s.m_epoch →
      msg.attempt_id = s.m_attempt_id → s.Collecting → Held env keys msg.oracle_id →
      (s.m_secnonces msg.oracle_id).isSome) :
    Preserves env keys s (env.addNonceEvidenceToSession msg s).2 := by
  rcases env.addNonceEvidenceToSession_cases msg s with
    unchanged | ⟨oracle, ready, found, verified, epoch, attempt, initialized,
      started | ⟨pubnonce, adding⟩⟩
  · rw [unchanged]
    exact Preserves.refl s
  · rw [started]
    exact preserves_initializeForNonces initialized
  · have started : Preserves env keys s ready := preserves_initializeForNonces initialized
    intro ok
    obtain ⟨ok, evolves⟩ := started ok
    refine ⟨?_, evolves.trans (addPubnonce_evolves adding)⟩
    obtain ⟨state, absent, _⟩ := MuSig2SigningSession.addPubnonce_eq_some adding
    have nonces := ok.nonces (.inr state)
    have before := evolves.keeps (.inr state)
    refine addPubnonce_ok adding (fun other secnonce nonce _ => ok.paired other secnonce nonce)
      nonces.unsigned (fun other _ => nonces.published other) ?_ ?_
    · intro other held shown
      by_cases same : other = msg.oracle_id
      · rw [same] at held ⊢
        exact before.2 _ (authentic oracle found verified epoch attempt before.1 held)
      · exact nonces.own other held (shown same)
    · -- the session would already show the public nonce of that secret nonce
      intro secnonce secret
      have shown := nonces.published msg.oracle_id (by simp [secret])
      simp [absent] at shown

/-- Making a nonce and adding its public part, whatever `AddPubnonce` says. -/
def makeNonce (env : OracleEnv) (id : OracleId) (key pubkey cache secrand : Bytes)
    (s : MuSig2SigningSession) : MuSig2SigningSession :=
  let generated := s.generateNonce env id key pubkey cache secrand
  generated.1.elim generated.2 fun pubnonce =>
    (generated.2.addPubnonce env id pubnonce).getD generated.2

theorem makeNonce_of_made {id : OracleId} {key pubkey cache secrand pubnonce : Bytes}
    {s : MuSig2SigningSession}
    (made : (s.generateNonce env id key pubkey cache secrand).1 = some pubnonce) :
    let s' := makeNonce env id key pubkey cache secrand s
    (s'.m_secnonces id).isSome ∧ s'.m_attempt_id = s.m_attempt_id ∧
      (s'.m_pubnonces = s.m_pubnonces ∨
        s.m_pubnonces id = none ∧ s'.m_pubnonces = s.m_pubnonces.insert id pubnonce) := by
  obtain ⟨secnonce, -, generated⟩ := MuSig2SigningSession.generateNonce_eq_some made
  unfold makeNonce
  rw [generated]
  dsimp only [Option.elim_some]
  generalize after : MuSig2SigningSession.addPubnonce _ _ _ _ = result
  cases result with
  | none => simp
  | some added =>
    obtain ⟨_, absent, _, _, _, rfl⟩ := MuSig2SigningSession.addPubnonce_eq_some after
    exact ⟨by simp, rfl, .inr ⟨absent, rfl⟩⟩

variable (env) in
theorem addLocalNonce_cases (tick : Tick) (cache key pubkey : Bytes) (oid : ℕ) (state : TickState) :
    addLocalNonce env tick cache key pubkey oid state =
      (makeNonce env (oid8 oid) key pubkey cache (tick.secrand oid) state.1, state.2) ∨
    ∃ pubnonce msg,
      (state.1.generateNonce env (oid8 oid) key pubkey cache (tick.secrand oid)).1 = some pubnonce ∧
      signNonce env tick key (oid8 oid) pubnonce
        (makeNonce env (oid8 oid) key pubkey cache (tick.secrand oid) state.1).m_attempt_id =
          some msg ∧
      addLocalNonce env tick cache key pubkey oid state =
        (makeNonce env (oid8 oid) key pubkey cache (tick.secrand oid) state.1,
          state.2.recordNonce tick.epoch msg) := by
  unfold addLocalNonce makeNonce
  dsimp only
  cases (state.1.generateNonce env (oid8 oid) key pubkey cache (tick.secrand oid)).1 with
  | none => exact .inl rfl
  | some pubnonce =>
    dsimp only [Option.elim_some]
    split
    · exact .inl rfl
    · next msg signed => exact .inr ⟨pubnonce, msg, rfl, signed, rfl⟩

private theorem evolves_generated (collecting : s.Collecting) (cache secnonce : Bytes)
    (events : List NonceEvent) (id : OracleId) :
    Evolves s { s with
      m_keyagg_cache := cache
      m_secnonces := s.m_secnonces.insert id secnonce
      m_state := .noncesCollecting
      nonce_events := events } :=
  ⟨rfl, rfl, rfl, fun _ => ⟨collecting, fun _ held => OracleMap.insert_isSome secnonce held⟩⟩

private theorem NoncesOk.absent (nonces : NoncesOk env keys s) (held : Held env keys id)
    (unmade : s.m_secnonces id = none) : s.m_pubnonces id = none := by
  by_contra shown
  have secret := nonces.own id held (Option.isSome_iff_ne_none.mpr shown)
  simp [unmade] at secret

private theorem SessionOk.add_generated {g added : MuSig2SigningSession} {secnonce pubnonce : Bytes}
    (ok : SessionOk env keys s) (nonces : NoncesOk env keys s) (pub : g.m_pubnonces = s.m_pubnonces)
    (sec : g.m_secnonces = s.m_secnonces.insert id secnonce)
    (sigs : g.m_partial_sigs = s.m_partial_sigs)
    (made : Paired env id secnonce pubnonce) (adding : g.addPubnonce env id pubnonce = some added) :
    SessionOk env keys added := by
  refine addPubnonce_ok adding ?_ ?_ ?_ ?_ ?_
  · intro other secret found different secretFound
    rw [sec, OracleMap.insert_of_ne different] at secretFound
    rw [pub]
    exact ok.paired other secret found secretFound
  · rw [sigs]
    exact nonces.unsigned
  · intro other different secret
    rw [sec, OracleMap.insert_of_ne different] at secret
    rw [pub]
    exact nonces.published other secret
  · intro other own shown
    rw [pub] at shown
    rw [sec]
    by_cases same : other = id
    · simp [same]
    · exact OracleMap.insert_isSome secnonce (nonces.own other own (shown same))
  · intro secret found
    rw [sec, OracleMap.insert_same, Option.some.injEq] at found
    rw [← found]
    exact made

/-- A local nonce keeps the invariant: the session has no public nonce of a local oracle
before its secret nonce is made, so that the public nonce is added. -/
theorem preserves_makeNonce (assumptions : CeremonyAssumptions env keys) {oid : ℕ}
    {key pubkey cache secrand : Bytes} (held : keys oid = some key)
    (valid : env.secp.keyIsValid key = true)
    (parsed : env.secp.pubkeyParse (env.secp.getPubKey key) = some pubkey)
    (s : MuSig2SigningSession) :
    Preserves env keys s (makeNonce env (oid8 oid) key pubkey cache secrand s) := by
  unfold makeNonce
  rcases s.generateNonce_cases env (oid8 oid) key pubkey cache secrand
    with same | ⟨collecting, cached⟩ |
      ⟨secnonce, pubnonce, collecting, roster, unmade, made, generated⟩
  · rw [same]
    exact Preserves.refl s
  · rw [cached]
    intro ok
    exact ⟨ok.congr_collecting collecting collecting rfl rfl rfl rfl,
      rfl, rfl, rfl, fun _ => ⟨collecting, fun _ found => found⟩⟩
  · rw [generated]
    dsimp only [Option.elim_some]
    have evolves := evolves_generated collecting cache secnonce
      (.generated (oid8 oid) secnonce :: s.nonce_events) (oid8 oid)
    intro ok
    have nonces := ok.nonces collecting
    have absent := nonces.absent ⟨oid, key, held, valid, rfl⟩ unmade
    obtain ⟨oracle, node, configured⟩ := assumptions.configured held valid
    rw [configured] at parsed
    have paired : Paired env (oid8 oid) secnonce pubnonce :=
      ⟨oracle, pubkey, key, secrand, cache, node, configured, parsed, made⟩
    generalize after : ({ s with
      m_keyagg_cache := cache
      m_secnonces := s.m_secnonces.insert (oid8 oid) secnonce
      m_state := .noncesCollecting
      nonce_events := .generated (oid8 oid) secnonce :: s.nonce_events } : MuSig2SigningSession) =
        g at evolves ⊢
    have pub : g.m_pubnonces = s.m_pubnonces := by rw [← after]
    have state : g.m_state = .noncesCollecting := by rw [← after]
    have unfrozen : g.m_participants_frozen = false := by rw [← after, ← nonces.unfrozen]
    obtain ⟨added, adding⟩ := Option.isSome_iff_exists.mp
      (MuSig2SigningSession.addPubnonce_isSome pubnonce (.inl state) (by rw [pub, absent])
        unfrozen roster)
    rw [adding, Option.getD_some]
    exact ⟨ok.add_generated nonces pub (by rw [← after]) (by rw [← after]) paired adding,
      evolves.trans (addPubnonce_evolves adding)⟩

/-! The chosen context. -/

private theorem oid8_val {oid : ℕ} (small : oid ≤ 255) : (oid8 oid).val = oid :=
  Nat.mod_eq_of_lt (by omega)

theorem pricedBy_of_evidence {now : ℤ} {msg : OracleMusigContextMsg}
    (verified : env.verifyOraclePriceEvidence now msg = true) :
    PricedBy env msg.participant_ids msg.consensus_price msg.consensus_timestamp := by
  simp only [OracleEnv.verifyOraclePriceEvidence, Bool.and_eq_true, decide_eq_true_eq,
    List.all_eq_true] at verified
  obtain ⟨⟨⟨⟨⟨size, each⟩, once⟩, _⟩, values⟩, _⟩ := verified
  have checked : ∀ price ∈ msg.price_evidence, price.oracle_id ≤ 255 ∧
      oid8 price.oracle_id ∈ msg.participant_ids ∧ ∃ oracle,
        env.chain.getOracleNode price.oracle_id = some oracle ∧
        xonly oracle.pubkey = price.oracle_pubkey ∧ env.priceIsValid price now = true := by
    intro price member
    have valid := each price member
    simp only [OracleEnv.priceEvidenceValid, Bool.and_eq_true, decide_eq_true_eq,
      Option.any_eq_true]
      at valid
    obtain ⟨⟨⟨small, listed⟩, _⟩, oracle, node, key, valid⟩ := valid
    rw [oid8_val small] at node
    exact ⟨small, listed, oracle, node, key, valid⟩
  refine ⟨msg.price_evidence, now, ?_, ?_, values⟩
  · have subset : (msg.price_evidence.map fun price => oid8 price.oracle_id) ⊆
        msg.participant_ids := by
      intro id member
      obtain ⟨price, listed, rfl⟩ := List.mem_map.mp member
      exact (checked price listed).2.1
    have numbers : msg.price_evidence.map COraclePriceMessage.oracle_id =
        (msg.price_evidence.map fun price => oid8 price.oracle_id).map Fin.val := by
      rw [List.map_map]
      apply List.map_congr_left
      intro price listed
      exact (oid8_val (checked price listed).1).symm
    rw [numbers]
    exact ((List.subperm_of_subset once subset).perm_of_length_le (by simp [size])).map Fin.val
  · intro price member
    obtain ⟨_, _, oracle, node, key, valid⟩ := checked price member
    exact ⟨valid, oracle, node, key⟩

theorem PricedBy.perm {ids ids' : List OracleId} {price : ℕ} {timestamp : ℤ}
    (priced : PricedBy env ids price timestamp) (same : ids.Perm ids') :
    PricedBy env ids' price timestamp := by
  obtain ⟨evidence, now, numbers, rest⟩ := priced
  exact ⟨evidence, now, numbers.trans (same.map Fin.val), rest⟩

/-- What a validated context fixes. -/
structure ContextOk (env : OracleEnv) (msg : OracleMusigContextMsg) : Prop where
  nonempty : 1 ≤ msg.participant_ids.length
  small : msg.participant_ids.length ≤ 32
  threshold : (msg.participant_ids.length : ℤ) = env.params.nOracleConsensusRequired
  nodup : msg.participant_ids.Nodup
  authorized : ∀ id ∈ msg.participant_ids, env.isAuthorizedMuSig2OracleIdForRelay id = true
  priced : PricedBy env msg.participant_ids msg.consensus_price msg.consensus_timestamp

theorem contextOk_of_validate {now : ℤ} {msg : OracleMusigContextMsg}
    (valid : env.validateContextProposal now msg s = true) : ContextOk env msg := by
  simp only [OracleEnv.validateContextProposal, Bool.and_eq_true, decide_eq_true_eq,
    List.all_eq_true]
    at valid
  obtain ⟨⟨⟨⟨⟨⟨⟨⟨⟨⟨⟨⟨⟨⟨⟨wellFormed, _⟩, _⟩, _⟩, _⟩, threshold⟩, nodup⟩, authorized⟩, _⟩, priced⟩,
    _⟩, _⟩, _⟩, _⟩, _⟩, _⟩ := valid
  simp only [OracleMusigContextMsg.isValid, Bool.and_eq_true, decide_eq_true_eq] at wellFormed
  obtain ⟨⟨⟨⟨⟨⟨⟨⟨_, _⟩, _⟩, nonempty⟩, small⟩, _⟩, _⟩, _⟩, _⟩ := wellFormed
  exact ⟨List.length_pos_iff.mpr nonempty, small, threshold, nodup, authorized,
    pricedBy_of_evidence priced⟩

/-- The configured number of signers, a `uint8_t`. -/
def configuredMinSigners (env : OracleEnv) : ℕ :=
  (max 1 env.params.nOracleConsensusRequired).toNat % 256

/-- The session with the participants of a context frozen and their keys aggregated. -/
private def frozenSession (s : MuSig2SigningSession) (context : OracleMusigContextMsg)
    (cache : Bytes) :
    MuSig2SigningSession :=
  { s with
    m_signed_price := context.consensus_price
    m_signed_timestamp := context.consensus_timestamp
    m_pubnonces := s.m_pubnonces.restrict context.participant_ids
    m_participants_frozen := true
    m_keyagg_cache := cache }

private theorem freezeParticipants_cases (assumptions : CeremonyAssumptions env keys) (tick : Tick)
    {context : OracleMusigContextMsg} (valid : ContextOk env context)
    (unfrozen : s.m_participants_frozen = false) :
    ((freezeParticipants env tick context s).2 = { s with
      m_signed_price := context.consensus_price
      m_signed_timestamp := context.consensus_timestamp }) ∨
    (∀ id ∈ context.participant_ids, (s.m_pubnonces id).isSome) ∧ ∃ aggregate cache,
      env.computeAggregatePubkey (s.m_pubnonces.restrict context.participant_ids).ids =
        some (aggregate, cache) ∧
      (freezeParticipants env tick context s).2 =
        ((frozenSession s context cache).aggregateNonces env
        (env.oracleMessageHash tick.epoch context.consensus_price
          context.consensus_timestamp)).2 := by
  unfold freezeParticipants
  dsimp only
  rcases MuSig2SigningSession.trimNoncesToParticipants_cases { s with
      m_signed_price := context.consensus_price
      m_signed_timestamp := context.consensus_timestamp } context.participant_ids with
    ⟨kept, trimmed, frozen⟩ | ⟨_, nodup, present, trimmed⟩
  · left
    have refused : kept = false := by
      by_contra accepted
      simp [unfrozen] at frozen
      exact accepted frozen
    rw [trimmed, if_pos refused]
  · right
    have same := OracleMap.ids_restrict_perm nodup present
    have aggregates : (env.computeAggregatePubkey
        (s.m_pubnonces.restrict context.participant_ids).ids).isSome := by
      apply assumptions.aggregates (OracleMap.nodup_ids _)
      · rw [same.length_eq]
        exact valid.threshold
      · intro id member
        exact valid.authorized id (same.mem_iff.mp member)
    obtain ⟨aggregate, computed⟩ := Option.isSome_iff_exists.mp aggregates
    refine ⟨present, aggregate.1, aggregate.2, computed, ?_⟩
    rw [trimmed]
    dsimp only
    rw [if_neg (by simp), computed]
    rfl

private theorem signingOk_frozen {context : OracleMusigContextMsg}
    {aggregate cache aggnonce session : Bytes}
    {contextId nonceSetHash : Hash} (valid : ContextOk env context)
    (signers : s.m_min_signers = configuredMinSigners env)
    (unsigned : ∀ id, s.m_partial_sigs id = none)
    (same : (s.m_pubnonces.restrict context.participant_ids).ids.Perm context.participant_ids)
    (computed : env.computeAggregatePubkey (s.m_pubnonces.restrict context.participant_ids).ids =
      some (aggregate, cache))
    (aggregated : env.secp.nonceAgg (s.m_pubnonces.restrict context.participant_ids).values =
      some aggnonce)
    (processed : env.secp.nonceProcess aggnonce
      (env.oracleMessageHash s.m_epoch context.consensus_price context.consensus_timestamp) cache =
        some session) (message : Hash) :
    SigningOk env { frozenSession s context cache with
      m_session := session
      m_message_hash := message
      m_nonce_set_hash := nonceSetHash
      m_session_context_id := contextId
      m_state := .signing } := by
  have length := same.length_eq
  have threshold := valid.threshold
  refine ⟨rfl, ?_, ?_, valid.priced.perm same.symm, ⟨aggregate, computed⟩,
    ⟨aggnonce, aggregated, processed⟩, ?_⟩
  · dsimp only [frozenSession]
    omega
  · have nonempty := valid.nonempty
    have small := valid.small
    dsimp only [frozenSession]
    unfold configuredMinSigners at signers
    omega
  · intro id sig found
    have absent := unsigned id
    dsimp only [frozenSession] at found
    rw [absent] at found
    cases found

/-- Freezing the participants of a validated context binds the session to it. -/
theorem preserves_freezeParticipants (assumptions : CeremonyAssumptions env keys) (tick : Tick)
    {context : OracleMusigContextMsg} (valid : ContextOk env context)
    (state : s.m_state = .noncesComplete) (signers : s.m_min_signers = configuredMinSigners env)
    (epoch : s.m_epoch = tick.epoch) :
    Preserves env keys s (freezeParticipants env tick context s).2 := by
  intro ok
  have collecting : s.Collecting := .inr (.inr state)
  have nonces := ok.nonces collecting
  have kept : ∀ id pubnonce, s.m_pubnonces.restrict context.participant_ids id = some pubnonce →
      s.m_pubnonces id = some pubnonce := fun id pubnonce found =>
        (OracleMap.restrict_eq_some.mp found).2
  rcases freezeParticipants_cases assumptions tick valid nonces.unfrozen with
    refused | ⟨present, aggregate, cache, computed, frozen⟩
  · rw [refused]
    exact ⟨ok.congr_collecting collecting collecting rfl rfl rfl rfl,
      rfl, rfl, rfl, fun _ => ⟨collecting, fun _ held => held⟩⟩
  rw [frozen]
  have same := OracleMap.ids_restrict_perm valid.nodup present
  rcases (frozenSession s context cache).aggregateNonces_cases env
      (env.oracleMessageHash tick.epoch context.consensus_price context.consensus_timestamp) with
    ⟨other, _⟩ | ⟨failed, result, failure, sameEpoch, attempt, sameSigners, sec, pub, _⟩ |
    ⟨aggnonce, session, contextId, nonceSetHash, _, aggregated, processed, result⟩
  · exact absurd state other
  · rw [result]
    refine ⟨ok.of_failed failure (fun id secnonce found => ?_)
      (fun id pubnonce found => kept id pubnonce ?_),
      sameEpoch, attempt, sameSigners, fun later => absurd later (not_collecting_of_failed failure)⟩
    · rwa [sec] at found
    · rwa [pub] at found
  · rw [result]
    have signing :=
      @signingOk_frozen env s context aggregate cache aggnonce session contextId nonceSetHash
      valid signers nonces.unsigned same computed aggregated (by rw [epoch]; exact processed)
      (env.oracleMessageHash tick.epoch context.consensus_price context.consensus_timestamp)
    refine ⟨⟨?_, ?_, fun _ => signing, ?_⟩, rfl, rfl, rfl, ?_⟩
    · intro id secnonce pubnonce secret shown
      exact ok.paired id secnonce pubnonce secret (kept id pubnonce shown)
    · intro later
      exact absurd later (not_collecting_of_signing (.inl rfl))
    · intro complete
      cases complete
    · intro later
      exact absurd later (not_collecting_of_signing (.inl rfl))

/-! Partial signatures. -/

private theorem evolves_signing {t : MuSig2SigningSession} (epoch : t.m_epoch = s.m_epoch)
    (attempt : t.m_attempt_id = s.m_attempt_id) (signers : t.m_min_signers = s.m_min_signers)
    (state : t.m_state = .signing ∨ t.m_state = .complete) : Evolves s t :=
  ⟨epoch, attempt, signers, fun collecting => absurd collecting (not_collecting_of_signing state)⟩

private theorem SigningOk.participantKey (signing : SigningOk env s) {oracle : OracleNodeInfo}
    {pubkey : Bytes} (shown : (s.m_pubnonces id).isSome)
    (node : env.chain.getOracleNode id = some oracle)
    (parsed : env.secp.pubkeyParse oracle.pubkey = some pubkey) :
    env.participantKey id = some pubkey := by
  obtain ⟨aggregate, computed⟩ := signing.keyed
  have member : id ∈ sortedIds s.m_pubnonces.ids := mem_sortedIds.mpr (OracleMap.mem_ids.mpr shown)
  obtain ⟨key, found⟩ := Option.isSome_iff_exists.mp
    ((env.computeAggregatePubkey_eq_some computed).2.1 id member)
  obtain ⟨_, other, otherNode, otherParsed⟩ := env.participantKey_eq_some found
  rw [node, Option.some.injEq] at otherNode
  rw [← otherNode, parsed] at otherParsed
  rw [found, otherParsed]

private theorem SessionOk.insert_partialSig (ok : SessionOk env keys s)
    (state : s.m_state = .signing)
    {sig pubnonce pubkey : Bytes} (shown : s.m_pubnonces id = some pubnonce)
    (key : env.participantKey id = some pubkey)
    (verified : env.secp.partialSigVerify sig pubnonce pubkey s.m_keyagg_cache s.m_session = true) :
    SessionOk env keys { s with m_partial_sigs := s.m_partial_sigs.insert id sig } := by
  have signing := ok.signing (.inl state)
  refine ⟨ok.paired, fun collecting => absurd (.inl state) (not_signing collecting),
    fun _ => ?_, ?_⟩
  · refine ⟨signing.frozen, signing.threshold, signing.signers, signing.priced, signing.keyed,
      signing.processed, ?_⟩
    intro other found listed
    dsimp only at listed
    by_cases same : other = id
    · subst same
      rw [OracleMap.insert_same, Option.some.injEq] at listed
      rw [← listed]
      exact ⟨pubnonce, pubkey, shown, key, verified⟩
    · rw [OracleMap.insert_of_ne same] at listed
      exact signing.verified other found listed
  · intro complete
    rw [state] at complete
    cases complete

theorem preserves_tryApply {msg : OracleMusigPartialSigMsg}
    (applied : env.tryApplyRemotePartialSig msg s = some s') : Preserves env keys s s' := by
  intro ok
  obtain ⟨sig, oracle, signer, node, parsed, added⟩ :=
    OracleEnv.tryApplyRemotePartialSig_eq_some applied
  obtain ⟨state, pubnonce, shown, verified, rfl⟩ :=
    MuSig2SigningSession.addPartialSignatureVerified_eq_some added
  have key := (ok.signing (.inl state)).participantKey (by simp [shown]) node parsed
  exact ⟨ok.insert_partialSig state shown key verified, evolves_signing rfl rfl rfl (.inl state)⟩

theorem preserves_applyPartialSig (s : MuSig2SigningSession) (msg : OracleMusigPartialSigMsg) :
    Preserves env keys s (applyPartialSig env s msg) := by
  unfold applyPartialSig
  cases applied : env.tryApplyRemotePartialSig msg s with
  | none => exact Preserves.refl s
  | some s' => exact preserves_tryApply applied

/-- Signing and adding the signature, whatever `AddPartialSignature` says. -/
def makePartialSig (env : OracleEnv) (id : OracleId) (key : Bytes) (s : MuSig2SigningSession) :
    MuSig2SigningSession :=
  let created := s.createPartialSignature env id key
  created.1.elim created.2 fun sig => (created.2.addPartialSignature id sig).getD created.2

variable (env) in
theorem addLocalPartialSig_session (tick : Tick) (key : Bytes) (id : OracleId) (state : TickState) :
    (addLocalPartialSig env tick key id state).1 = makePartialSig env id key state.1 := by
  unfold addLocalPartialSig makePartialSig
  dsimp only
  cases (state.1.createPartialSignature env id key).1 with
  | none => rfl
  | some sig =>
    dsimp only [Option.elim_some]
    split <;> rfl

variable (env) in
theorem addLocalPartialSig_frame (tick : Tick) (key : Bytes) (id : OracleId) (state : TickState) :
    (addLocalPartialSig env tick key id state).2.m_signing_sessions = state.2.m_signing_sessions ∧
      (addLocalPartialSig env tick key id state).2.m_epoch_attempts = state.2.m_epoch_attempts ∧
      (addLocalPartialSig env tick key id state).2.signed_nonces = state.2.signed_nonces ∧
      (addLocalPartialSig env tick key id state).2.dropped_sessions = state.2.dropped_sessions := by
  unfold addLocalPartialSig
  dsimp only
  split
  · exact ⟨rfl, rfl, rfl, rfl⟩
  · split <;> exact ⟨rfl, rfl, rfl, rfl⟩

private theorem SessionOk.erase_secnonce (ok : SessionOk env keys s) (state : s.m_state = .signing)
    (used : OracleId → Bool) (events : List NonceEvent) :
    SessionOk env keys { s with
      m_secnonces := s.m_secnonces.erase id
      m_secnonces_used := used
      nonce_events := events } := by
  have signing := ok.signing (.inl state)
  refine ⟨?_, fun collecting => absurd (.inl state) (not_signing collecting), fun _ => ?_,
    ok.complete⟩
  · intro other secnonce found secret shown
    dsimp only at secret shown
    by_cases same : other = id
    · rw [same, OracleMap.erase_same] at secret
      cases secret
    · rw [OracleMap.erase_of_ne same] at secret
      exact ok.paired other secnonce found secret shown
  · exact ⟨signing.frozen, signing.threshold, signing.signers, signing.priced, signing.keyed,
      signing.processed, signing.verified⟩

/-- A local partial signature verifies although it is not checked: its secret nonce belongs
to the public nonce of the session. -/
theorem preserves_makePartialSig (assumptions : CeremonyAssumptions env keys) {oid : ℕ}
    {key : Bytes}
    (held : keys oid = some key) (valid : env.secp.keyIsValid key = true)
    (s : MuSig2SigningSession) :
    Preserves env keys s (makePartialSig env (oid8 oid) key s) := by
  intro ok
  unfold makePartialSig
  rcases s.createPartialSignature_cases env (oid8 oid) key with same |
    ⟨secnonce, state, secret, shown, created⟩
  · rw [same]
    exact Preserves.refl s ok
  obtain ⟨pubnonce, shown⟩ := Option.isSome_iff_exists.mp shown
  obtain ⟨oracle, pubkey, key₀, secrand, cache₀, node, configured₀, parsed, made⟩ :=
    ok.paired (oid8 oid) secnonce pubnonce secret shown
  obtain ⟨oracle', node', configured⟩ := assumptions.configured held valid
  rw [node, Option.some.injEq] at node'
  have signing := ok.signing (.inl state)
  rw [created]
  generalize after : ({ s with
      m_secnonces := s.m_secnonces.erase (oid8 oid)
      m_secnonces_used := Function.update s.m_secnonces_used (oid8 oid) true
      nonce_events := .signed (oid8 oid) secnonce s.m_session
        (env.secp.partialSign secnonce key s.m_keyagg_cache s.m_session) :: s.nonce_events } :
      MuSig2SigningSession) = g
  have used : SessionOk env keys g ∧ Evolves s g := by
    subst after
    exact ⟨ok.erase_secnonce state _ _, evolves_signing rfl rfl rfl (.inl state)⟩
  have same : g.m_state = s.m_state ∧ g.m_pubnonces = s.m_pubnonces ∧
      g.m_keyagg_cache = s.m_keyagg_cache ∧ g.m_session = s.m_session := by
    subst after
    exact ⟨rfl, rfl, rfl, rfl⟩
  dsimp only
  cases signed : env.secp.partialSign secnonce key s.m_keyagg_cache s.m_session with
  | none => exact used
  | some sig =>
    rw [Option.elim_some]
    cases adding : g.addPartialSignature (oid8 oid) sig with
    | none => exact used
    | some added =>
      obtain ⟨_, _, rfl⟩ := MuSig2SigningSession.addPartialSignature_eq_some adding
      have verified : env.secp.partialSigVerify sig pubnonce pubkey g.m_keyagg_cache g.m_session =
          true := by
        rw [same.2.2.1, same.2.2.2]
        refine assumptions.curve.partialSign_verifies ?_ ?_ made signed
        · rw [configured₀, configured, node']
        · rw [configured, ← node']
          exact parsed
      have signing' : g.m_state = .signing := same.1.trans state
      rw [Option.getD_some]
      refine ⟨used.1.insert_partialSig signing' (by rw [same.2.1, shown])
        (signing.participantKey (by simp [shown]) node parsed) verified, ?_⟩
      exact used.2.trans (evolves_signing rfl rfl rfl (.inl signing'))

theorem preserves_aggregateSignature (s : MuSig2SigningSession) :
    Preserves env keys s (s.aggregateSignature env).2 := by
  intro ok
  rcases s.aggregateSignature_cases env with same | failed |
    ⟨sig, state, enough, aggregated, complete⟩
  · rw [same]
    exact Preserves.refl s ok
  · rw [failed]
    exact ⟨ok.of_failed rfl (fun _ _ found => found) (fun _ _ found => found),
      rfl, rfl, rfl, fun later => absurd later (not_collecting_of_failed rfl)⟩
  · rw [complete]
    have signing := ok.signing (.inl state)
    refine ⟨⟨ok.paired, fun collecting => absurd collecting (not_collecting_of_signing (.inr rfl)),
      fun _ => ?_, fun _ => ⟨enough, aggregated⟩⟩, evolves_signing rfl rfl rfl (.inr rfl)⟩
    exact ⟨signing.frozen, signing.threshold, signing.signers, signing.priced, signing.keyed,
      signing.processed, signing.verified⟩

theorem preserves_checkTimeout (s : MuSig2SigningSession) (height : ℤ) :
    Preserves env keys s (s.checkTimeout height) := by
  intro ok
  rcases s.checkTimeout_cases height with same | failed
  · rw [same]
    exact Preserves.refl s ok
  · rw [failed]
    refine ⟨ok.of_failed rfl (fun _ _ found => ?_) (fun _ _ found => found),
      rfl, rfl, rfl, fun later => absurd later (not_collecting_of_failed rfl)⟩
    cases found

/-! A complete session. -/

private theorem complete_ids (ok : SessionOk env keys s) (complete : s.m_state = .complete) :
    s.m_partial_sigs.ids = s.m_pubnonces.ids := by
  have signing := ok.signing (.inr complete)
  have subset : s.m_partial_sigs.ids ⊆ s.m_pubnonces.ids := by
    intro id member
    obtain ⟨sig, found⟩ := Option.isSome_iff_exists.mp (OracleMap.mem_ids.mp member)
    obtain ⟨pubnonce, _, shown, _⟩ := signing.verified id sig found
    exact OracleMap.mem_ids.mpr (by simp [shown])
  have enough : s.m_pubnonces.ids.length ≤ s.m_partial_sigs.ids.length := by
    rw [← signing.signers]
    exact (ok.complete complete).1
  have same := (List.subperm_of_subset (OracleMap.nodup_ids _) subset).perm_of_length_le enough
  unfold OracleMap.ids
  apply List.filter_congr
  intro id _
  have iff : (s.m_partial_sigs id).isSome ↔ (s.m_pubnonces id).isSome := by
    rw [← OracleMap.mem_ids, ← OracleMap.mem_ids]
    exact same.mem_iff
  exact Bool.eq_iff_iff.mpr iff

private theorem participants_bounds (signing : SigningOk env s) :
    configuredMuSig2BitmapSlots env.params ≠ 0 ∧ ∀ id ∈ s.m_pubnonces.ids,
      (id.val : ℤ) < env.params.nOraclePubkeyCount ∧
      id.val < configuredMuSig2BitmapSlots env.params := by
  obtain ⟨aggregate, computed⟩ := signing.keyed
  obtain ⟨slots, keyed, _⟩ := env.computeAggregatePubkey_eq_some computed
  obtain ⟨total, _, _⟩ := env.bitmapSlots_ne_zero slots
  have bounds := env.chain.config_bounds.2.2.1
  refine ⟨slots, fun id member => ?_⟩
  obtain ⟨key, found⟩ := Option.isSome_iff_exists.mp (keyed id (mem_sortedIds.mpr member))
  have active := (env.participantKey_eq_some found).1
  refine ⟨active, ?_⟩
  rw [total]
  exact (Int.lt_toNat).mpr (lt_of_lt_of_le active bounds)

private theorem participants_ne_nil (signing : SigningOk env s) : s.m_pubnonces.ids ≠ [] := by
  intro empty
  obtain ⟨aggregate, computed⟩ := signing.keyed
  rw [empty] at computed
  unfold OracleEnv.computeAggregatePubkey at computed
  simp [sortedIds] at computed

private theorem complete_bitmap (ok : SessionOk env keys s) (complete : s.m_state = .complete) :
    s.getParticipationBitmap env =
      Library.Bitmap.build ((configuredMuSig2BitmapSlots env.params + 7) / 8)
        (s.m_pubnonces.ids.map Fin.val) := by
  have signing := ok.signing (.inr complete)
  obtain ⟨slots, inside⟩ := participants_bounds signing
  have ids := complete_ids ok complete
  have nonempty := participants_ne_nil signing
  unfold MuSig2SigningSession.getParticipationBitmap
  dsimp only
  rw [if_neg (by simp [complete]), ids, if_neg nonempty, if_neg slots, List.filter_eq_self.mpr]
  intro id member
  simpa using (inside id member).2

private theorem complete_signature (assumptions : CeremonyAssumptions env keys)
    (ok : SessionOk env keys s) (complete : s.m_state = .complete) {aggregate : Bytes}
    (computed : env.computeAggregatePubkey s.m_pubnonces.ids = some (aggregate, s.m_keyagg_cache)) :
    s.m_aggregate_sig.length = 64 ∧ env.secp.schnorrsigVerify s.m_aggregate_sig
      (env.oracleMessageHash s.m_epoch s.m_signed_price s.m_signed_timestamp) aggregate = true := by
  have signing := ok.signing (.inr complete)
  obtain ⟨aggnonce, aggregatedNonces, processed⟩ := signing.processed
  obtain ⟨_, _, aggregatedKeys⟩ := env.computeAggregatePubkey_eq_some computed
  have sorted : sortedIds s.m_pubnonces.ids = s.m_pubnonces.ids := sortedIds_filter _
  let shares : List Share := s.m_pubnonces.ids.map fun id =>
    ⟨(env.participantKey id).getD [], (s.m_pubnonces id).getD [], (s.m_partial_sigs id).getD []⟩
  have sigs : s.m_partial_sigs.values = shares.map Share.sig := by
    rw [OracleMap.values_eq_map _ [], complete_ids ok complete, List.map_map]
    rfl
  have pubkeys : env.secp.pubkeyAgg (shares.map Share.pubkey) =
      some (aggregate, s.m_keyagg_cache) := by
    rw [List.map_map]
    rw [sorted] at aggregatedKeys
    exact aggregatedKeys
  have pubnonces : env.secp.nonceAgg (shares.map Share.pubnonce) = some aggnonce := by
    rw [List.map_map]
    rw [OracleMap.values_eq_map _ []] at aggregatedNonces
    exact aggregatedNonces
  refine assumptions.curve.aggregate_verifies shares pubkeys pubnonces processed ?_ ?_
  · intro share member
    obtain ⟨id, listed, rfl⟩ := List.mem_map.mp member
    rw [← complete_ids ok complete] at listed
    obtain ⟨sig, found⟩ := Option.isSome_iff_exists.mp (OracleMap.mem_ids.mp listed)
    obtain ⟨pubnonce, pubkey, shown, key, verified⟩ := signing.verified id sig found
    simpa [found, shown, key] using verified
  · rw [← sigs]
    exact (ok.complete complete).2

/-- What a complete session's bundle is worth. -/
structure SoundBundle (env : OracleEnv) (s : MuSig2SigningSession) : Prop where
  accepted : ∀ height, getCurrentEpoch env.params height = s.m_epoch →
    isMuSig2OracleActive env.params height = true →
    env.validateMuSig2Bundle (s.bundle env) height = .ok ()
  frozen : s.m_participants_frozen = true
  named : decodeBitmap (s.bundle env).participation_bitmap env.params.nOracleTotalOracles.toNat =
    s.m_pubnonces.ids
  counted : (((List.range (8 * (s.bundle env).participation_bitmap.length)).filter
    (Library.Bitmap.testBit (s.bundle env).participation_bitmap)).length : ℤ) =
      env.params.nOracleConsensusRequired
  priced : PricedBy env s.m_pubnonces.ids (s.bundle env).median_price_micro_usd
    (s.bundle env).timestamp

theorem soundBundle_of_complete (assumptions : CeremonyAssumptions env keys)
    (ok : SessionOk env keys s) (complete : s.m_state = .complete) : SoundBundle env s := by
  have signing := ok.signing (.inr complete)
  obtain ⟨slots, inside⟩ := participants_bounds signing
  obtain ⟨total, low, high⟩ := env.bitmapSlots_ne_zero slots
  obtain ⟨aggregate, computed⟩ := signing.keyed
  obtain ⟨size, verified⟩ := complete_signature assumptions ok complete computed
  have bitmap := complete_bitmap ok complete
  have threshold := signing.threshold
  have named : decodeBitmap (s.getParticipationBitmap env) env.params.nOracleTotalOracles.toNat =
      s.m_pubnonces.ids := by
    rw [bitmap, ← total, decodeBitmap_build (by omega) (by omega) fun id member =>
      (inside id member).2]
    exact sortedIds_filter _
  have nonempty := participants_ne_nil signing
  have price : ORACLE_MIN_PRICE_MICRO_USD ≤ s.m_signed_price ∧
      s.m_signed_price ≤ ORACLE_MAX_PRICE_MICRO_USD := by
    obtain ⟨evidence, _, _, _, values⟩ := signing.priced
    exact computeConsensusValues_range values
  have signature : s.getAggregateSig = s.m_aggregate_sig := if_neg (by simp [complete])
  refine ⟨fun height epoch active => ?_, signing.frozen, named, ?_, signing.priced⟩
  · refine OracleEnv.validateMuSig2Bundle_ok rfl active price ?_ epoch named nonempty
      (le_of_eq threshold.symm) (fun id member => (inside id member).1) computed ?_
    · exact (congrArg List.length signature).trans size
    · exact (congrArg (env.secp.schnorrsigVerify · _ _) signature).trans verified
  · change ((((List.range (8 * (s.getParticipationBitmap env).length)).filter
      (Library.Bitmap.testBit (s.getParticipationBitmap env))).length : ℕ) : ℤ) = _
    have within : ∀ i ∈ s.m_pubnonces.ids.map Fin.val,
        i / 8 < (configuredMuSig2BitmapSlots env.params + 7) / 8 := by
      intro i member
      obtain ⟨id, listed, rfl⟩ := List.mem_map.mp member
      have := (inside id listed).2
      omega
    rw [bitmap, Library.Bitmap.count_build within
      ((OracleMap.nodup_ids _).map Fin.val_injective), List.length_map]
    exact threshold

end DigiByte.Oracle
