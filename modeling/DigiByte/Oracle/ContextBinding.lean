import DigiByte.Library.Encodings
import DigiByte.Oracle.Session

/-!
The session context id: predicted for a choice of participants before they are frozen, and
binding for what the session signs (`ComputeContextIdForParticipants`, `AggregateNonces`).

The two hash preimages are written out as the bytes that the source streams into its
hasher. That the hash has no collisions is assumed for the byte strings of the sessions at
hand only: no hash of 32 bytes is injective on all of them.
-/

set_option autoImplicit false
set_option relaxedAutoImplicit false

namespace DigiByte.Oracle

open Script (Bytes)
open Library.FixedWidth (bytesOf length_bytesOf pattern)
open Library.Encodings (Delimited delimited_bytesOf delimited_signed delimited_sized sized)

/-! The bytes that are hashed. -/

/-- A `std::string` of ASCII characters in a stream. -/
def streamText (text : String) : Bytes := sized (text.toList.map fun c => UInt8.ofNat c.toNat)

def streamUint256 (value : Hash) : Bytes := bytesOf 32 value

def streamInt32 (value : ℤ) : Bytes := bytesOf 4 (pattern (256 ^ 4) value)

def streamUint32 (value : ℕ) : Bytes := bytesOf 4 value

/-- An oracle number and its serialized nonce. -/
def streamNonce (entry : OracleId × Bytes) : Bytes := bytesOf 1 entry.1.val ++ sized entry.2

def nonceSetPreimage (chain : Hash) (epoch : ℤ) (attempt_id : ℕ)
    (nonces : List (OracleId × Bytes)) : Bytes :=
  streamText "DigiDollar/MuSig2NonceSet/v1" ++ (streamUint256 chain ++ (streamInt32 epoch ++
    (streamUint32 attempt_id ++ nonces.flatMap streamNonce)))

def sessionContextPreimage (chain : Hash) (epoch : ℤ) (attempt_id : ℕ) (seed : Hash) (version : ℕ)
    (message : Hash) (bitmap : Bytes) (nonce_set_hash : Hash) : Bytes :=
  streamText "DigiDollar/MuSig2SessionContext/v1" ++ (streamUint256 chain ++ (streamInt32 epoch ++
    (streamUint32 attempt_id ++
      (streamUint256 seed ++ (bytesOf 1 version ++ (streamUint256 message ++
      (sized bitmap ++ streamUint256 nonce_set_hash)))))))

/-- Nonce sets and contexts are hashed as their bytes, to 32 bytes. -/
structure HashesBytes (env : OracleEnv) (hash : Bytes → Hash) : Prop where
  nonceSet : ∀ chain epoch attempt_id nonces,
    env.sha (.nonceSet chain epoch attempt_id nonces) =
      hash (nonceSetPreimage chain epoch attempt_id nonces)
  sessionContext : ∀ chain epoch attempt_id seed version message bitmap nonce_set_hash,
    env.sha (.sessionContext chain epoch attempt_id seed version message bitmap nonce_set_hash) =
      hash (sessionContextPreimage chain epoch attempt_id seed version message bitmap
        nonce_set_hash)
  digest : ∀ bytes, hash bytes < 2 ^ 256

namespace MuSig2SigningSession

/-- The ranges of the source's types. -/
structure Fits (s : MuSig2SigningSession) : Prop where
  epoch : -2 ^ 31 ≤ s.m_epoch ∧ s.m_epoch < 2 ^ 31
  attempt : s.m_attempt_id < 2 ^ 32
  seed : s.m_epoch_selection_seed < 2 ^ 256

/-- The bytes that a session hashes for a message. -/
def hashedBytes (env : OracleEnv) (s : MuSig2SigningSession) (message : Hash) : Set Bytes :=
  fun bytes =>
  ∃ nonces, s.nonceSet env s.m_pubnonces.ids = some nonces ∧
    (bytes = nonceSetPreimage env.genesis s.m_epoch s.m_attempt_id nonces ∨
      bytes = sessionContextPreimage env.genesis s.m_epoch s.m_attempt_id s.m_epoch_selection_seed
        ORACLE_MUSIG2_SESSION_CONTEXT_VERSION message
        (buildRawParticipationBitmap s.m_pubnonces.ids (configuredMuSig2BitmapSlots env.params))
        (s.nonceSetHash env nonces))

end MuSig2SigningSession

/-! Telling the preimages apart. -/

section Preimages

variable {chain : Hash} {epoch epoch' : ℤ} {attempt_id attempt_id' : ℕ}

private theorem streamInt32_inj {rest rest' : Bytes} (low : -2 ^ 31 ≤ epoch ∧ epoch < 2 ^ 31)
    (low' : -2 ^ 31 ≤ epoch' ∧ epoch' < 2 ^ 31)
    (same : streamInt32 epoch ++ rest = streamInt32 epoch' ++ rest') :
    epoch = epoch' ∧ rest = rest' :=
  delimited_signed 4 epoch epoch' rest rest' ⟨by omega, by omega⟩ ⟨by omega, by omega⟩ same

private theorem streamUint32_inj {rest rest' : Bytes} (small : attempt_id < 2 ^ 32)
    (small' : attempt_id' < 2 ^ 32)
    (same : streamUint32 attempt_id ++ rest = streamUint32 attempt_id' ++ rest') :
    attempt_id = attempt_id' ∧ rest = rest' :=
  delimited_bytesOf 4 attempt_id attempt_id' rest rest' (by omega) (by omega) same

private theorem streamUint256_inj {value value' : Hash} {rest rest' : Bytes}
    (small : value < 2 ^ 256)
    (small' : value' < 2 ^ 256)
    (same : streamUint256 value ++ rest = streamUint256 value' ++ rest') :
    value = value' ∧ rest = rest' :=
  delimited_bytesOf 32 value value' rest rest' (by omega) (by omega) same

private theorem delimited_streamNonce :
    Delimited (fun entry : OracleId × Bytes => entry.2.length < 2 ^ 64) streamNonce := by
  rintro ⟨id, ser⟩ ⟨id', ser'⟩ rest rest' short short' same
  simp only [streamNonce, List.append_assoc] at same
  obtain ⟨ids, behind⟩ := delimited_bytesOf 1 id.val id'.val _ _ (by omega) (by omega) same
  obtain ⟨nonces, rests⟩ := delimited_sized ser ser' _ _ short short' behind
  exact ⟨Prod.ext (Fin.ext ids) nonces, rests⟩

private theorem streamNonce_ne_nil (entry : OracleId × Bytes) : streamNonce entry ≠ [] := by
  have sized := length_bytesOf 1 entry.1.val
  intro empty
  rw [streamNonce, List.append_eq_nil_iff] at empty
  rw [empty.1] at sized
  cases sized

theorem nonceSetPreimage_inj {nonces nonces' : List (OracleId × Bytes)}
    (short : ∀ entry ∈ nonces, entry.2.length < 2 ^ 64)
    (short' : ∀ entry ∈ nonces', entry.2.length < 2 ^ 64)
    (same : nonceSetPreimage chain epoch attempt_id nonces =
      nonceSetPreimage chain epoch attempt_id nonces') :
    nonces = nonces' := by
  unfold nonceSetPreimage at same
  have entries := List.append_cancel_left (List.append_cancel_left (List.append_cancel_left
    (List.append_cancel_left same)))
  exact delimited_streamNonce.flatMap_inj streamNonce_ne_nil short short' entries

/-- Every field is told from the bytes of a context. -/
theorem sessionContextPreimage_inj {seed seed' message message' hash hash' : Hash} {version : ℕ}
    {bitmap bitmap' : Bytes}
    (epochFits : -2 ^ 31 ≤ epoch ∧ epoch < 2 ^ 31) (epochFits' : -2 ^ 31 ≤ epoch' ∧ epoch' < 2 ^ 31)
    (attemptFits : attempt_id < 2 ^ 32) (attemptFits' : attempt_id' < 2 ^ 32)
    (seedFits : seed < 2 ^ 256) (seedFits' : seed' < 2 ^ 256)
    (messageFits : message < 2 ^ 256) (messageFits' : message' < 2 ^ 256)
    (bitmapFits : bitmap.length < 2 ^ 64) (bitmapFits' : bitmap'.length < 2 ^ 64)
    (hashFits : hash < 2 ^ 256) (hashFits' : hash' < 2 ^ 256)
    (same : sessionContextPreimage chain epoch attempt_id seed version message bitmap hash =
      sessionContextPreimage chain epoch' attempt_id' seed' version message' bitmap' hash') :
    epoch = epoch' ∧ attempt_id = attempt_id' ∧ seed = seed' ∧ message = message' ∧
      bitmap = bitmap' ∧ hash = hash' := by
  unfold sessionContextPreimage at same
  have behindChain := List.append_cancel_left (List.append_cancel_left same)
  obtain ⟨epochs, behindEpoch⟩ := streamInt32_inj epochFits epochFits' behindChain
  obtain ⟨attempts, behindAttempt⟩ := streamUint32_inj attemptFits attemptFits' behindEpoch
  obtain ⟨seeds, behindSeed⟩ := streamUint256_inj seedFits seedFits' behindAttempt
  obtain ⟨messages, behindMessage⟩ :=
    streamUint256_inj messageFits messageFits' (List.append_cancel_left behindSeed)
  obtain ⟨bitmaps, last⟩ := delimited_sized _ _ _ _ bitmapFits bitmapFits' behindMessage
  have hashes := streamUint256_inj hashFits hashFits' (congrArg (· ++ []) last)
  exact ⟨epochs, attempts, seeds, messages, bitmaps, hashes.1⟩

end Preimages

/-! Prediction. -/

theorem OracleMap.ids_restrict {β : Type} {m : OracleMap β} {keep : List OracleId}
    (present : ∀ id ∈ keep, (m id).isSome) : (m.restrict keep).ids = sortedIds keep := by
  unfold OracleMap.ids sortedIds
  apply List.filter_congr
  intro id _
  by_cases kept : id ∈ keep
  · simp [OracleMap.restrict, kept, present id kept]
  · simp [OracleMap.restrict, kept]

theorem sortedIds_eq_of_perm {ids ids' : List OracleId}
    (reordered : ids'.Perm ids) : sortedIds ids' = sortedIds ids := by
  unfold sortedIds
  apply List.filter_congr
  intro id _
  rw [decide_eq_decide]
  exact reordered.mem_iff

namespace MuSig2SigningSession

variable {env : OracleEnv} {s s' t : MuSig2SigningSession} {participants : List OracleId}
  {message : Hash}

theorem nonceSet_congr {ids : List OracleId}
    (same : ∀ id ∈ ids, s.m_pubnonces id = t.m_pubnonces id) :
    s.nonceSet env ids = t.nonceSet env ids := by
  induction ids with
  | nil => rfl
  | cons id rest ih =>
    have later := ih fun other member => same other (List.mem_cons_of_mem _ member)
    unfold nonceSet at later ⊢
    rw [List.mapM_cons, List.mapM_cons, same id List.mem_cons_self, later]

theorem nonceSet_cons_eq_some {id : OracleId} {rest : List OracleId}
    {nonces : List (OracleId × Bytes)} (serialized : s.nonceSet env (id :: rest) = some nonces) :
    ∃ pubnonce ser later, env.secp.pubnonceSerialize pubnonce = some ser ∧
      s.nonceSet env rest = some later ∧ nonces = (id, ser) :: later := by
  rw [nonceSet, List.mapM_cons, Option.bind_eq_bind, Option.bind_eq_some_iff] at serialized
  obtain ⟨entry, first, serialized⟩ := serialized
  rw [Option.bind_eq_bind, Option.bind_eq_some_iff] at serialized
  obtain ⟨later, remaining, all⟩ := serialized
  obtain ⟨pubnonce, _, written⟩ := Option.bind_eq_some_iff.mp first
  obtain ⟨ser, bytes, rfl⟩ := Option.map_eq_some_iff.mp written
  exact ⟨pubnonce, ser, later, bytes, remaining, (Option.some.inj all).symm⟩

theorem nonceSet_nil_eq_some {nonces : List (OracleId × Bytes)}
    (serialized : s.nonceSet env [] = some nonces) :
    nonces = [] := by
  rw [nonceSet, List.mapM_nil] at serialized
  exact (Option.some.inj serialized).symm

theorem map_fst_of_nonceSet {ids : List OracleId} {nonces : List (OracleId × Bytes)}
    (serialized : s.nonceSet env ids = some nonces) : nonces.map Prod.fst = ids := by
  induction ids generalizing nonces with
  | nil => rw [nonceSet_nil_eq_some serialized, List.map_nil]
  | cons id rest ih =>
    obtain ⟨_, ser, later, _, remaining, rfl⟩ := nonceSet_cons_eq_some serialized
    rw [List.map_cons, ih remaining]

theorem length_of_nonceSet {ids : List OracleId} {nonces : List (OracleId × Bytes)}
    (sized : ∀ pubnonce ser, env.secp.pubnonceSerialize pubnonce = some ser → ser.length = 66)
    (serialized : s.nonceSet env ids = some nonces) : ∀ entry ∈ nonces, entry.2.length = 66 := by
  induction ids generalizing nonces with
  | nil =>
    rw [nonceSet_nil_eq_some serialized]
    simp
  | cons id rest ih =>
    obtain ⟨pubnonce, ser, later, written, remaining, rfl⟩ := nonceSet_cons_eq_some serialized
    intro entry member
    rcases List.mem_cons.mp member with rfl | member
    · exact sized pubnonce ser written
    · exact ih remaining entry member

theorem trimNoncesToParticipants_of_open (complete : s.m_state = .noncesComplete)
    (unfrozen : s.m_participants_frozen = false) (enough : s.m_min_signers ≤ participants.length)
    (nodup : participants.Nodup) (present : ∀ id ∈ participants, (s.m_pubnonces id).isSome) :
    s.trimNoncesToParticipants participants =
      (true, { s with
        m_pubnonces := s.m_pubnonces.restrict participants
        m_participants_frozen := true }) := by
  have held : ¬ ∃ id ∈ participants, s.m_pubnonces id = none := by
    rintro ⟨id, member, missing⟩
    have := present id member
    rw [missing] at this
    cases this
  have count := (OracleMap.ids_restrict_perm nodup present).length_eq
  unfold trimNoncesToParticipants
  rw [if_neg (by simp [complete]), if_neg (by omega), if_neg (not_not.mpr nodup), if_neg held,
    if_neg (by simp [unfrozen])]
  exact Prod.ext (decide_eq_true count) rfl

theorem aggregateNonces_true (aggregated : s.aggregateNonces env message = (true, s')) :
    ∃ nonces, s.nonceSet env s.m_pubnonces.ids = some nonces ∧
      buildRawParticipationBitmap s.m_pubnonces.ids (configuredMuSig2BitmapSlots env.params) ≠ [] ∧
      s'.m_nonce_set_hash = s.nonceSetHash env nonces ∧
      s'.m_session_context_id = s.contextHash env message
        (buildRawParticipationBitmap s.m_pubnonces.ids (configuredMuSig2BitmapSlots env.params))
        (s.nonceSetHash env nonces) ∧
      s'.m_message_hash = message ∧ s'.m_epoch = s.m_epoch ∧ s'.m_attempt_id = s.m_attempt_id ∧
      s'.m_epoch_selection_seed = s.m_epoch_selection_seed ∧ s'.m_pubnonces = s.m_pubnonces := by
  unfold aggregateNonces at aggregated
  by_cases state : s.m_state ≠ .noncesComplete
  · rw [if_pos state] at aggregated
    cases aggregated
  rw [if_neg state] at aggregated
  cases agg : env.secp.nonceAgg s.m_pubnonces.values with
  | none =>
    rw [agg] at aggregated
    cases aggregated
  | some aggnonce =>
    rw [agg] at aggregated
    dsimp only at aggregated
    cases processed : env.secp.nonceProcess aggnonce message s.m_keyagg_cache with
    | none =>
      rw [processed] at aggregated
      cases aggregated
    | some session =>
      rw [processed] at aggregated
      dsimp only at aggregated
      split at aggregated
      · cases aggregated
      · next nonces serialized =>
        by_cases empty : buildRawParticipationBitmap s.m_pubnonces.ids
          (configuredMuSig2BitmapSlots env.params) = []
        · rw [if_pos empty] at aggregated
          cases aggregated
        rw [if_neg empty] at aggregated
        rw [← (Prod.mk.inj aggregated).2]
        exact ⟨nonces, serialized, empty, rfl, rfl, rfl, rfl, rfl, rfl, rfl⟩

theorem computeContextIdForParticipants_of_ready (enough : s.m_min_signers ≤ participants.length)
    (nodup : participants.Nodup) {nonces : List (OracleId × Bytes)}
    (serialized : s.nonceSet env (sortedIds participants) = some nonces)
    (shown : buildRawParticipationBitmap (sortedIds participants)
      (configuredMuSig2BitmapSlots env.params) ≠ []) :
    s.computeContextIdForParticipants env participants message =
      some (s.nonceSetHash env nonces, s.contextHash env message
        (buildRawParticipationBitmap (sortedIds participants)
          (configuredMuSig2BitmapSlots env.params))
        (s.nonceSetHash env nonces)) := by
  unfold computeContextIdForParticipants
  rw [if_neg (by omega), if_neg (not_not.mpr nodup)]
  dsimp only
  rw [serialized, Option.bind_some, if_neg shown]

/-- What is predicted for open participants is what the session has once they are frozen and its
nonces are aggregated, under whatever key cache. -/
theorem context_predicted (complete : s.m_state = .noncesComplete)
    (unfrozen : s.m_participants_frozen = false) (enough : s.m_min_signers ≤ participants.length)
    (nodup : participants.Nodup) (present : ∀ id ∈ participants, (s.m_pubnonces id).isSome)
    (cache : Bytes)
    (aggregated : aggregateNonces env
      { (s.trimNoncesToParticipants participants).2 with m_keyagg_cache := cache }
      message = (true, s')) :
    s.computeContextIdForParticipants env participants message =
      some (s'.m_nonce_set_hash, s'.m_session_context_id) := by
  rw [trimNoncesToParticipants_of_open complete unfrozen enough nodup present] at aggregated
  obtain ⟨nonces, serialized, shown, nonceHash, contextId, _⟩ := aggregateNonces_true aggregated
  dsimp only at serialized shown contextId
  rw [OracleMap.ids_restrict present] at serialized shown contextId
  -- the frozen map has the nonces of the listed participants
  have kept : s.nonceSet env (sortedIds participants) = some nonces := by
    rw [← serialized]
    apply nonceSet_congr
    intro id member
    simp [OracleMap.restrict, mem_sortedIds.mp member]
  rw [computeContextIdForParticipants_of_ready enough nodup kept shown, nonceHash, contextId]
  rfl

theorem computeContextIdForParticipants_perm {participants' : List OracleId}
    (reordered : participants'.Perm participants) :
    s.computeContextIdForParticipants env participants' message =
      s.computeContextIdForParticipants env participants message := by
  unfold computeContextIdForParticipants
  simp only [reordered.length_eq, reordered.nodup_iff, sortedIds_eq_of_perm reordered]

theorem trimNoncesToParticipants_perm {participants' : List OracleId}
    (reordered : participants'.Perm participants) :
    s.trimNoncesToParticipants participants' = s.trimNoncesToParticipants participants := by
  have sameMap : s.m_pubnonces.restrict participants' = s.m_pubnonces.restrict participants := by
    funext id
    unfold OracleMap.restrict
    simp only [reordered.mem_iff]
  have sameMissing : (∃ id ∈ participants', s.m_pubnonces id = none) ↔
      ∃ id ∈ participants, s.m_pubnonces id = none := by
    constructor
    · rintro ⟨id, member, missing⟩
      exact ⟨id, reordered.mem_iff.mp member, missing⟩
    · rintro ⟨id, member, missing⟩
      exact ⟨id, reordered.mem_iff.mpr member, missing⟩
  have sameMember : ∀ id, decide (id ∈ participants') = decide (id ∈ participants) := by
    intro id
    rw [decide_eq_decide]
    exact reordered.mem_iff
  unfold trimNoncesToParticipants
  simp only [reordered.length_eq, reordered.nodup_iff, sameMissing, sameMap, sameMember]

/-! Binding. -/

private theorem bitmap_short (ids : List OracleId) (slots : ℕ) :
    (buildRawParticipationBitmap ids slots).length < 2 ^ 64 := by
  unfold buildRawParticipationBitmap
  split_ifs with empty range outside
  · decide
  · decide
  · decide
  · have inside : ∀ i ∈ ids.map Fin.val, i / 8 < (slots + 7) / 8 := by
      intro i member
      obtain ⟨id, listed, rfl⟩ := List.mem_map.mp member
      have : id.val < slots := not_le.mp fun above => outside ⟨id, listed, above⟩
      omega
    rw [Library.Bitmap.length_build inside]
    omega

/-- Sessions without hash collisions between them that have one context id have one epoch, attempt,
seed and message, and the same participants with the same nonces. -/
theorem context_binding {hash : Bytes → Hash} (hashes : HashesBytes env hash)
    (sized : ∀ pubnonce ser, env.secp.pubnonceSerialize pubnonce = some ser → ser.length = 66)
    {t' : MuSig2SigningSession} {message' : Hash} (fits : s.Fits) (fits' : t.Fits)
    (messageFits : message < 2 ^ 256) (messageFits' : message' < 2 ^ 256)
    (aggregated : s.aggregateNonces env message = (true, s'))
    (aggregated' : t.aggregateNonces env message' = (true, t'))
    (injective : Set.InjOn hash (s.hashedBytes env message ∪ t.hashedBytes env message'))
    (same : s'.m_session_context_id = t'.m_session_context_id) :
    s'.m_epoch = t'.m_epoch ∧ s'.m_attempt_id = t'.m_attempt_id ∧
      s'.m_epoch_selection_seed = t'.m_epoch_selection_seed ∧
      s'.m_message_hash = t'.m_message_hash ∧
      s'.m_pubnonces.ids = t'.m_pubnonces.ids ∧
      s'.nonceSet env s'.m_pubnonces.ids = t'.nonceSet env t'.m_pubnonces.ids := by
  obtain ⟨nonces, serialized, _, _, context, messages, epochs, attempts, seeds, pubnonces⟩ :=
    aggregateNonces_true aggregated
  obtain ⟨nonces', serialized', _, _, context', messages', epochs', attempts', seeds',
    pubnonces'⟩ :=
    aggregateNonces_true aggregated'
  have hashed :
      hash (sessionContextPreimage env.genesis s.m_epoch s.m_attempt_id s.m_epoch_selection_seed
        ORACLE_MUSIG2_SESSION_CONTEXT_VERSION message
        (buildRawParticipationBitmap s.m_pubnonces.ids (configuredMuSig2BitmapSlots env.params))
        (s.nonceSetHash env nonces)) =
      hash (sessionContextPreimage env.genesis t.m_epoch t.m_attempt_id t.m_epoch_selection_seed
        ORACLE_MUSIG2_SESSION_CONTEXT_VERSION message'
        (buildRawParticipationBitmap t.m_pubnonces.ids (configuredMuSig2BitmapSlots env.params))
        (t.nonceSetHash env nonces')) := by
    rw [← hashes.sessionContext, ← hashes.sessionContext]
    exact context.symm.trans (same.trans context')
  have preimages :=
    injective (.inl ⟨nonces, serialized, .inr rfl⟩) (.inr ⟨nonces', serialized', .inr rfl⟩) hashed
  have digest : ∀ u : MuSig2SigningSession, ∀ entries, u.nonceSetHash env entries < 2 ^ 256 := by
    intro u entries
    rw [nonceSetHash, hashes.nonceSet]
    exact hashes.digest _
  obtain ⟨sameEpoch, sameAttempt, sameSeed, sameMessage, _, sameNonceHash⟩ :=
    sessionContextPreimage_inj fits.epoch fits'.epoch fits.attempt fits'.attempt fits.seed
      fits'.seed messageFits
      messageFits' (bitmap_short _ _) (bitmap_short _ _) (digest s nonces) (digest t nonces')
        preimages
  rw [nonceSetHash, nonceSetHash, hashes.nonceSet, hashes.nonceSet] at sameNonceHash
  have nonceBytes := injective (.inl ⟨nonces, serialized, .inl rfl⟩)
    (.inr ⟨nonces', serialized', .inl rfl⟩) sameNonceHash
  rw [← sameEpoch, ← sameAttempt] at nonceBytes
  have short : ∀ entry ∈ nonces, entry.2.length < 2 ^ 64 := by
    intro entry member
    rw [length_of_nonceSet sized serialized entry member]
    decide
  have short' : ∀ entry ∈ nonces', entry.2.length < 2 ^ 64 := by
    intro entry member
    rw [length_of_nonceSet sized serialized' entry member]
    decide
  obtain rfl : nonces = nonces' := nonceSetPreimage_inj short short' nonceBytes
  have ids : s.m_pubnonces.ids = t.m_pubnonces.ids := by
    rw [← map_fst_of_nonceSet serialized, ← map_fst_of_nonceSet serialized']
  rw [epochs, epochs', attempts, attempts', seeds, seeds', messages, messages', pubnonces,
    pubnonces']
  refine ⟨sameEpoch, sameAttempt, sameSeed, sameMessage, ids, ?_⟩
  rw [nonceSet_congr fun id _ => congrFun pubnonces id,
    nonceSet_congr fun id _ => congrFun pubnonces' id, serialized, serialized']

end MuSig2SigningSession

/-- The hash of the nonces and the context id that are computed for open participants are those of
the session after freezing and aggregating, whatever the order of the participants. Without
collisions among the hashed bytes, an equal context id means an equal epoch, attempt, seed, message,
participant set and nonces. -/
theorem context_id_predicted_and_binding :
    (∀ (env : OracleEnv) (s : MuSig2SigningSession) (participants : List OracleId) (message : Hash),
      s.m_state = .noncesComplete → s.m_participants_frozen = false →
      s.m_min_signers ≤ participants.length → participants.Nodup →
      (∀ id ∈ participants, (s.m_pubnonces id).isSome) →
        (s.trimNoncesToParticipants participants).1 = true ∧
        (∀ (cache : Bytes) (s' : MuSig2SigningSession),
          MuSig2SigningSession.aggregateNonces env
              { (s.trimNoncesToParticipants participants).2 with m_keyagg_cache := cache } message =
              (true, s') →
            s.computeContextIdForParticipants env participants message =
              some (s'.m_nonce_set_hash, s'.m_session_context_id)) ∧
        ∀ participants' : List OracleId, participants'.Perm participants →
          s.computeContextIdForParticipants env participants' message =
              s.computeContextIdForParticipants env participants message ∧
            s.trimNoncesToParticipants participants' = s.trimNoncesToParticipants participants) ∧
    (∀ (env : OracleEnv) (hash : Bytes → Hash) (s t s' t' : MuSig2SigningSession)
        (message message' : Hash),
      HashesBytes env hash →
      (∀ pubnonce ser, env.secp.pubnonceSerialize pubnonce = some ser → ser.length = 66) →
      s.Fits → t.Fits → message < 2 ^ 256 → message' < 2 ^ 256 →
      s.aggregateNonces env message = (true, s') → t.aggregateNonces env message' = (true, t') →
      Set.InjOn hash (s.hashedBytes env message ∪ t.hashedBytes env message') →
      s'.m_session_context_id = t'.m_session_context_id →
        s'.m_epoch = t'.m_epoch ∧ s'.m_attempt_id = t'.m_attempt_id ∧
          s'.m_epoch_selection_seed = t'.m_epoch_selection_seed ∧
          s'.m_message_hash = t'.m_message_hash ∧
          s'.m_pubnonces.ids = t'.m_pubnonces.ids ∧
          s'.nonceSet env s'.m_pubnonces.ids = t'.nonceSet env t'.m_pubnonces.ids) := by
  constructor
  · intro env s participants message complete unfrozen enough nodup present
    refine ⟨?_, ?_, ?_⟩
    · rw [MuSig2SigningSession.trimNoncesToParticipants_of_open complete unfrozen enough nodup
        present]
    · intro cache s' aggregated
      exact MuSig2SigningSession.context_predicted complete unfrozen enough nodup present cache
        aggregated
    · intro participants' reordered
      exact ⟨MuSig2SigningSession.computeContextIdForParticipants_perm reordered,
        MuSig2SigningSession.trimNoncesToParticipants_perm reordered⟩
  · intro env hash s t s' t' message message' hashes sized fits fits' messageFits messageFits'
      aggregated aggregated'
      injective same
    exact MuSig2SigningSession.context_binding hashes sized fits fits' messageFits messageFits'
      aggregated aggregated'
      injective same

namespace ContextSample

/-- The first 32 bytes stand for a hash: the two preimages differ in them. -/
def hash (bytes : Bytes) : Hash := Library.SignMagnitude.ofBytes bytes % 2 ^ 256

/-- Nonces are serialized with 66 bytes. -/
def curve : Secp256k1 :=
  { Secp256k1.transparent with pubnonceSerialize := fun pubnonce => some (pubnonce.takeD 66 0) }

/-- Three oracles, two of which are needed. -/
def env : OracleEnv where
  chain :=
    { consensus :=
        { nOracleTotalOracles := 3, nOraclePubkeyCount := 3, nOracleConsensusRequired := 2
          vOraclePublicKeys := [List.replicate 32 7, List.replicate 32 8, List.replicate 32 9]
          vOracleCompressedPublicKeys :=
            [2 :: List.replicate 32 7, 2 :: List.replicate 32 8, 2 :: List.replicate 32 9] }
      vOracleNodes :=
        [⟨0, 2 :: List.replicate 32 7, true⟩, ⟨1, 2 :: List.replicate 32 8, true⟩,
          ⟨2, 2 :: List.replicate 32 9, true⟩]
      configured := by decide +kernel
      aligned := by decide +kernel
      compressed := by decide +kernel }
  secp := curve
  sha
    | .nonceSet chain epoch attempt_id nonces =>
      hash (nonceSetPreimage chain epoch attempt_id nonces)
    | .sessionContext chain epoch attempt_id seed version message bitmap nonce_set_hash =>
      hash (sessionContextPreimage chain epoch attempt_id seed version message bitmap
        nonce_set_hash)
    | _ => 0

/-- A session with the nonces of some oracles. -/
def session (held : List OracleId) (cache : Bytes) : MuSig2SigningSession where
  m_epoch := 3
  m_attempt_id := 1
  m_min_signers := 2
  m_state := .noncesComplete
  m_epoch_selection_seed := 9
  m_keyagg_cache := cache
  m_pubnonces := fun id => if id ∈ held then some [5 + UInt8.ofNat id.val] else none

/-- Two of three oracles are frozen, and the keys are aggregated anew. -/
def frozen : MuSig2SigningSession :=
  { ((session [0, 1, 2] []).trimNoncesToParticipants [2, 0]).2 with m_keyagg_cache := [2] }

def signing (s : MuSig2SigningSession) : MuSig2SigningSession := (s.aggregateNonces env 77).2

theorem hashesBytes : HashesBytes env hash where
  nonceSet _ _ _ _ := rfl
  sessionContext _ _ _ _ _ _ _ _ := rfl
  digest _ := Nat.mod_lt _ (Nat.two_pow_pos 256)

private theorem fields_eq {s : MuSig2SigningSession}
    (either : s = frozen ∨ s = session [2, 0] [1]) :
    s.m_epoch = 3 ∧ s.m_attempt_id = 1 ∧ s.m_epoch_selection_seed = 9 ∧
      s.m_pubnonces.ids = [0, 2] ∧
      s.nonceSet env [0, 2] = some [(0, [5].takeD 66 0), (2, [7].takeD 66 0)] := by
  rcases either with rfl | rfl
  · decide +kernel
  · decide +kernel

private theorem hashedBytes_eq {s : MuSig2SigningSession}
    (either : s = frozen ∨ s = session [2, 0] [1]) :
    s.hashedBytes env 77 = (session [2, 0] [1]).hashedBytes env 77 := by
  obtain ⟨epoch, attempt, seed, ids, nonces⟩ := fields_eq either
  obtain ⟨epoch', attempt', seed', ids', nonces'⟩ := fields_eq (.inr rfl)
  unfold MuSig2SigningSession.hashedBytes
  simp only [MuSig2SigningSession.nonceSetHash, epoch, attempt, seed, ids, nonces, epoch', attempt',
    seed', ids', nonces']
  rfl

theorem injOn :
    Set.InjOn hash (frozen.hashedBytes env 77 ∪ (session [2, 0] [1]).hashedBytes env 77) := by
  rw [hashedBytes_eq (.inl rfl), Set.union_self]
  -- the two preimages of a session have different hashes
  obtain ⟨_, _, _, ids, listed⟩ := fields_eq (.inr rfl)
  rintro x ⟨nonces, serialized, kindX⟩ y ⟨nonces', serialized', kindY⟩ same
  rw [ids, listed] at serialized serialized'
  obtain rfl := Option.some.inj serialized
  obtain rfl := Option.some.inj serialized'
  rcases kindX with rfl | rfl <;> rcases kindY with rfl | rfl
  · rfl
  · exact absurd same (by decide +kernel)
  · exact absurd same (by decide +kernel)
  · rfl

private theorem fits {s : MuSig2SigningSession} (either : s = frozen ∨ s = session [2, 0] [1]) :
    s.Fits := by
  obtain ⟨epoch, attempt, seed, _⟩ := fields_eq either
  exact ⟨by omega, by omega, by rw [seed]; norm_num⟩

private theorem aggregated {s : MuSig2SigningSession}
    (success : (s.aggregateNonces env 77).1 = true) :
    s.aggregateNonces env 77 = (true, signing s) := Prod.ext success rfl

/-- The context of two of three oracles is predicted in either order. A node that has the nonces
of these two only gets the same context id, and so has the same nonces. -/
theorem sample_predicted_and_bound :
    (session [0, 1, 2] []).computeContextIdForParticipants env [2, 0] 77 =
        some ((signing frozen).m_nonce_set_hash, (signing frozen).m_session_context_id) ∧
      (session [0, 1, 2] []).computeContextIdForParticipants env [0, 2] 77 =
        (session [0, 1, 2] []).computeContextIdForParticipants env [2, 0] 77 ∧
      (signing frozen).m_message_hash = (signing (session [2, 0] [1])).m_message_hash ∧
      (signing frozen).m_pubnonces.ids = (signing (session [2, 0] [1])).m_pubnonces.ids := by
  have sized : ∀ pubnonce ser, env.secp.pubnonceSerialize pubnonce = some ser →
      ser.length = 66 := by
    intro pubnonce ser written
    rw [← Option.some.inj written]
    exact List.takeD_length _ _ _
  have ofFrozen : frozen.aggregateNonces env 77 = (true, signing frozen) :=
    aggregated (by decide +kernel)
  have ofTwo : (session [2, 0] [1]).aggregateNonces env 77 =
      (true, signing (session [2, 0] [1])) := aggregated (by decide +kernel)
  obtain ⟨_, predicted, ordered⟩ := context_id_predicted_and_binding.1 env (session [0, 1, 2] [])
    [2, 0] 77 rfl rfl (by decide) (by decide) (by simp [session])
  have sameId : (signing frozen).m_session_context_id =
      (signing (session [2, 0] [1])).m_session_context_id := by decide +kernel
  have small : (77 : Hash) < 2 ^ 256 := by norm_num
  obtain ⟨_, _, _, sameMessage, sameIds, _⟩ := context_id_predicted_and_binding.2 env hash frozen
    (session [2, 0] [1]) (signing frozen) (signing (session [2, 0] [1])) 77 77 hashesBytes sized
    (fits (.inl rfl)) (fits (.inr rfl)) small small ofFrozen ofTwo injOn sameId
  refine ⟨predicted [2] (signing frozen) ?_, (ordered [0, 2] (.swap _ _ _)).1, sameMessage,
    sameIds⟩
  rw [← ofFrozen, frozen]

end ContextSample

end DigiByte.Oracle
