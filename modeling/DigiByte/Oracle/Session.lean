import DigiByte.Oracle.Bundle
import Mathlib

/-!
The signing session of one epoch (`musig2_session.cpp`).

Maps keyed by an oracle number are functions, listed in the order of the numbers as
the source iterates them. The checks of the library's magic bytes are left out: a
nonce or signature that the library parsed or made carries them.
-/

set_option autoImplicit false
set_option relaxedAutoImplicit false

namespace DigiByte.Oracle

open Consensus (Params)
open Script (Bytes)
open Library

/-- A `std::map` keyed by oracle numbers. -/
abbrev OracleMap (β : Type) := OracleId → Option β

namespace OracleMap

variable {β : Type}

def ids (m : OracleMap β) : List OracleId := (List.finRange 256).filter fun id => (m id).isSome

def values (m : OracleMap β) : List β := m.ids.filterMap m

def insert (m : OracleMap β) (id : OracleId) (value : β) : OracleMap β :=
  Function.update m id (some value)

def erase (m : OracleMap β) (id : OracleId) : OracleMap β := Function.update m id none

/-- Keep the entries of these oracles. -/
def restrict (m : OracleMap β) (keep : List OracleId) : OracleMap β := fun id =>
  if id ∈ keep then m id else none

variable {m : OracleMap β} {id : OracleId}

@[simp] theorem mem_ids : id ∈ m.ids ↔ (m id).isSome := by simp [ids]

theorem nodup_ids (m : OracleMap β) : m.ids.Nodup := (List.nodup_finRange 256).filter _

@[simp] theorem insert_same (m : OracleMap β) (id : OracleId) (value : β) :
    m.insert id value id = some value := Function.update_self ..

theorem insert_of_ne {other : OracleId} (different : other ≠ id) (m : OracleMap β) (value : β) :
    m.insert id value other = m other := Function.update_of_ne different ..

theorem insert_isSome {other : OracleId} (value : β) (known : (m other).isSome) :
    (m.insert id value other).isSome := by
  by_cases same : other = id
  · simp [same]
  · rwa [insert_of_ne same]

@[simp] theorem erase_same (m : OracleMap β) (id : OracleId) : m.erase id id = none :=
  Function.update_self ..

theorem erase_of_ne {other : OracleId} (different : other ≠ id) (m : OracleMap β) :
    m.erase id other = m other := Function.update_of_ne different ..

theorem restrict_eq_some {keep : List OracleId} {value : β} :
    m.restrict keep id = some value ↔ id ∈ keep ∧ m id = some value := by
  by_cases kept : id ∈ keep <;> simp [restrict, kept]

theorem ids_restrict_perm {keep : List OracleId} (nodup : keep.Nodup)
    (present : ∀ id ∈ keep, (m id).isSome) : (m.restrict keep).ids.Perm keep := by
  refine (List.perm_ext_iff_of_nodup (nodup_ids _) nodup).mpr fun id => ?_
  rw [mem_ids]
  by_cases kept : id ∈ keep
  · simp [restrict, kept, present id kept]
  · simp [restrict, kept]

theorem values_eq_map (m : OracleMap β) (default : β) :
    m.values = m.ids.map fun id => (m id).getD default := by
  have listed : ∀ ids : List OracleId, (∀ id ∈ ids, (m id).isSome) →
      ids.filterMap m = ids.map fun id => (m id).getD default := by
    intro ids present
    induction ids with
    | nil => rfl
    | cons id rest ih =>
      obtain ⟨value, found⟩ := Option.isSome_iff_exists.mp (present id (by simp))
      rw [List.filterMap_cons_some found, List.map_cons, found, ih fun id member =>
        present id (by simp [member])]
      rfl
  exact listed m.ids fun id member => mem_ids.mp member

end OracleMap

inductive MuSig2SessionState where
  | created | noncesCollecting | noncesComplete | signing | complete | failed
  deriving DecidableEq, Repr

/-- What happens to the secret nonce of an oracle: it is made, passed to the signing
function (for an aggregate nonce and message, with the result), or wiped. -/
inductive NonceEvent where
  | generated (oracle_id : OracleId) (secnonce : Bytes)
  | signed (oracle_id : OracleId) (secnonce session : Bytes) (partial_sig : Option Bytes)
  | wiped (oracle_id : OracleId) (secnonce : Bytes)
  deriving DecidableEq, Repr

/-- The nonce events are not kept by the source: they record, newest first, what was done
with the secret nonces. -/
structure MuSig2SigningSession where
  m_epoch : ℤ
  m_attempt_id : ℕ
  m_min_signers : ℕ
  m_state : MuSig2SessionState := .created
  m_creation_height : ℤ := 0
  m_timeout_blocks : ℤ := 100
  m_epoch_selection_seed : Hash
  m_keyagg_cache : Bytes := []
  m_secnonces : OracleMap Bytes := fun _ => none
  m_secnonces_used : OracleId → Bool := fun _ => false
  m_pubnonces : OracleMap Bytes := fun _ => none
  m_participants_frozen : Bool := false
  m_session : Bytes := []
  m_partial_sigs : OracleMap Bytes := fun _ => none
  m_aggregate_sig : Bytes := []
  m_signed_price : ℕ := 0
  m_signed_timestamp : ℤ := 0
  m_message_hash : Hash := 0
  m_nonce_set_hash : Hash := 0
  m_session_context_id : Hash := 0
  nonce_events : List NonceEvent := []

/-- The oracles that may take part; the local test harness leaves slot 16 out. -/
def configuredMuSig2ActiveRosterSize (params : Params) : ℕ :=
  let active := if params.nOraclePubkeyCount > 0 then params.nOraclePubkeyCount
    else params.nOracleTotalOracles
  let active := if params.fEasyPow && active = 17 then 16 else active
  if active ≤ 0 ∨ active > 256 then 0 else active.toNat

def OracleEnv.oracleEpochSelectionHash (env : OracleEnv) (epoch : ℤ) (id : OracleId) (seed : Hash) :
    Hash :=
  env.sha (.epochSelection env.genesis seed epoch id)

/-- `SortOracleIdsByEpochSeed`: by score, then by number. -/
def OracleEnv.sortOracleIdsByEpochSeed (env : OracleEnv) (ids : List OracleId) (epoch : ℤ)
    (seed : Hash) : List OracleId :=
  ids.insertionSort fun a b =>
    env.oracleEpochSelectionHash epoch a seed < env.oracleEpochSelectionHash epoch b seed ∨
      env.oracleEpochSelectionHash epoch a seed = env.oracleEpochSelectionHash epoch b seed ∧ a ≤ b

namespace MuSig2SigningSession

variable (env : OracleEnv) (s : MuSig2SigningSession)

def initializePassive (cache : Bytes) : Option MuSig2SigningSession :=
  match s.m_state with
  | .noncesCollecting | .noncesComplete => some s
  | .created => some { s with m_keyagg_cache := cache, m_state := .noncesCollecting }
  | _ => none

/-- The public nonce on success. The cache is stored before the nonce is made. -/
def generateNonce (oracle_id : OracleId) (signing_key pubkey cache session_secrand : Bytes) :
    Option Bytes × MuSig2SigningSession :=
  let active_oracles := configuredMuSig2ActiveRosterSize env.params
  if s.m_state ≠ .created ∧ s.m_state ≠ .noncesCollecting then (none, s)
  else if env.secp.keyIsValid signing_key = false then (none, s)
  else if active_oracles = 0 ∨ oracle_id.val ≥ active_oracles then (none, s)
  else if (s.m_secnonces oracle_id).isSome then (none, s)
  else
    let s := { s with m_keyagg_cache := cache }
    match env.secp.nonceGen session_secrand signing_key pubkey s.m_keyagg_cache with
    | none => (none, s)
    | some (secnonce, pubnonce) =>
      (some pubnonce,
        { s with
          m_secnonces := s.m_secnonces.insert oracle_id secnonce
          m_state := .noncesCollecting
          nonce_events := .generated oracle_id secnonce :: s.nonce_events })

/-- `GetRequiredParticipantsUnsafe`. A lone signer is the local one if there is one. -/
def getRequiredParticipants : List OracleId :=
  if s.m_min_signers = 0 ∨ configuredMuSig2ActiveRosterSize env.params < s.m_min_signers then []
  else if s.m_min_signers = 1 then
    if s.m_secnonces.ids ≠ [] then
      (s.m_secnonces.ids.filter fun id => (s.m_pubnonces id).isSome).take 1
    else s.m_pubnonces.ids.take 1
  else
    (env.sortOracleIdsByEpochSeed s.m_pubnonces.ids s.m_epoch s.m_epoch_selection_seed).take
      s.m_min_signers

def addPubnonce (oracle_id : OracleId) (pubnonce : Bytes) : Option MuSig2SigningSession :=
  let active_oracles := configuredMuSig2ActiveRosterSize env.params
  if s.m_state ≠ .noncesCollecting ∧ s.m_state ≠ .noncesComplete then none
  else if (s.m_pubnonces oracle_id).isSome then none
  else if s.m_participants_frozen then none
  else if active_oracles = 0 ∨ oracle_id.val ≥ active_oracles then none
  else
    let s := { s with m_pubnonces := s.m_pubnonces.insert oracle_id pubnonce }
    let required := s.getRequiredParticipants env
    if required.length ≥ s.m_min_signers ∧ ∀ id ∈ required, (s.m_pubnonces id).isSome then
      some { s with m_state := .noncesComplete }
    else some s

def trimNoncesToThreshold : MuSig2SigningSession :=
  { s with
    m_pubnonces := s.m_pubnonces.restrict (s.getRequiredParticipants env)
    m_participants_frozen := true }

/-- Whether the participants were frozen, and the state after the attempt. -/
def trimNoncesToParticipants (participants : List OracleId) : Bool × MuSig2SigningSession :=
  if s.m_state ≠ .noncesComplete ∧ s.m_state ≠ .signing then (false, s)
  else if participants.length < s.m_min_signers then (false, s)
  else if ¬ participants.Nodup then (false, s)
  else if ∃ id ∈ participants, s.m_pubnonces id = none then (false, s)
  else if s.m_participants_frozen then
    (s.m_pubnonces.ids.length = participants.length && s.m_pubnonces.ids.all (· ∈ participants), s)
  else
    let s := { s with
      m_pubnonces := s.m_pubnonces.restrict participants
      m_participants_frozen := true }
    (s.m_pubnonces.ids.length = participants.length, s)

/-- The serialized nonces of some oracles. -/
def nonceSet (ids : List OracleId) : Option (List (OracleId × Bytes)) :=
  ids.mapM fun id =>
    (s.m_pubnonces id).bind fun pubnonce => (env.secp.pubnonceSerialize pubnonce).map fun ser =>
      (id, ser)

def nonceSetHash (nonces : List (OracleId × Bytes)) : Hash :=
  env.sha (.nonceSet env.genesis s.m_epoch s.m_attempt_id nonces)

def contextHash (message : Hash) (bitmap : Bytes) (nonce_set_hash : Hash) : Hash :=
  env.sha (.sessionContext env.genesis s.m_epoch s.m_attempt_id s.m_epoch_selection_seed
    ORACLE_MUSIG2_SESSION_CONTEXT_VERSION message bitmap nonce_set_hash)

/-- Nonce set hash and context id for a choice of participants. -/
def computeContextIdForParticipants (participants : List OracleId) (message : Hash) :
    Option (Hash × Hash) :=
  if participants.length < s.m_min_signers then none
  else if ¬ participants.Nodup then none
  else
    let keep := sortedIds participants
    (s.nonceSet env keep).bind fun nonces =>
      let bitmap := buildRawParticipationBitmap keep (configuredMuSig2BitmapSlots env.params)
      if bitmap = [] then none
      else
        let nonce_set_hash := s.nonceSetHash env nonces
        some (nonce_set_hash, s.contextHash env message bitmap nonce_set_hash)

def fail : MuSig2SigningSession := { s with m_state := .failed }

def aggregateNonces (message : Hash) : Bool × MuSig2SigningSession :=
  if s.m_state ≠ .noncesComplete then (false, s)
  else
    match env.secp.nonceAgg s.m_pubnonces.values with
    | none => (false, s.fail)
    | some aggnonce =>
      match env.secp.nonceProcess aggnonce message s.m_keyagg_cache with
      | none => (false, s.fail)
      | some session =>
        let s := { s with m_session := session }
        match s.nonceSet env s.m_pubnonces.ids with
        | none => (false, s.fail)
        | some nonces =>
          let s := { s with
            m_message_hash := message
            m_nonce_set_hash := s.nonceSetHash env nonces }
          let bitmap := buildRawParticipationBitmap s.m_pubnonces.ids
            (configuredMuSig2BitmapSlots env.params)
          if bitmap = [] then (false, s.fail)
          else
            (true, { s with
              m_session_context_id := s.contextHash env message bitmap s.m_nonce_set_hash
              m_state := .signing })

/-- The partial signature on success. The secret nonce is used up either way. -/
def createPartialSignature (oracle_id : OracleId) (signing_key : Bytes) :
    Option Bytes × MuSig2SigningSession :=
  if s.m_state ≠ .signing then (none, s)
  else if env.secp.keyIsValid signing_key = false then (none, s)
  else
    match s.m_secnonces oracle_id with
    | none => (none, s)
    | some secnonce =>
      if s.m_pubnonces oracle_id = none then (none, s)
      else if s.m_secnonces_used oracle_id then (none, s)
      else
        let partial_sig := env.secp.partialSign secnonce signing_key s.m_keyagg_cache s.m_session
        (partial_sig,
          { s with
            m_secnonces := s.m_secnonces.erase oracle_id
            m_secnonces_used := Function.update s.m_secnonces_used oracle_id true
            nonce_events := .signed oracle_id secnonce s.m_session partial_sig :: s.nonce_events })

def addPartialSignature (oracle_id : OracleId)
    (partial_sig : Bytes) : Option MuSig2SigningSession :=
  if s.m_state ≠ .signing then none
  else if (s.m_partial_sigs oracle_id).isSome then none
  else if s.m_pubnonces oracle_id = none then none
  else some { s with m_partial_sigs := s.m_partial_sigs.insert oracle_id partial_sig }

def addPartialSignatureVerified (oracle_id : OracleId) (partial_sig signer_pk : Bytes) :
    Option MuSig2SigningSession :=
  if s.m_state ≠ .signing then none
  else if (s.m_partial_sigs oracle_id).isSome then none
  else
    match s.m_pubnonces oracle_id with
    | none => none
    | some pubnonce =>
      if env.secp.partialSigVerify partial_sig pubnonce signer_pk s.m_keyagg_cache
          s.m_session = false then
        none
      else some { s with m_partial_sigs := s.m_partial_sigs.insert oracle_id partial_sig }

def hasEnoughPartialSigs : Bool := s.m_partial_sigs.ids.length ≥ s.m_min_signers

def aggregateSignature : Bool × MuSig2SigningSession :=
  if s.m_state ≠ .signing then (false, s)
  else if s.m_partial_sigs.ids.length < s.m_min_signers then (false, s)
  else
    match env.secp.partialSigAgg s.m_session s.m_partial_sigs.values with
    | none => (false, s.fail)
    | some sig64 => (true, { s with m_aggregate_sig := sig64, m_state := .complete })

def getAggregateSig : Bytes := if s.m_state ≠ .complete then [] else s.m_aggregate_sig

def getParticipationBitmap : Bytes :=
  let total_oracles := configuredMuSig2BitmapSlots env.params
  if s.m_state ≠ .complete then []
  else if s.m_partial_sigs.ids = [] then []
  else if total_oracles = 0 then []
  else
    Bitmap.build ((total_oracles + 7) / 8)
      ((s.m_partial_sigs.ids.filter fun id => id.val < total_oracles).map Fin.val)

/-- The events of wiping all secret nonces. -/
def wipeEvents : List NonceEvent :=
  (List.finRange 256).filterMap fun id => (s.m_secnonces id).map (.wiped id)

def checkTimeout (current_height : ℤ) : MuSig2SigningSession :=
  if s.m_state = .complete ∨ s.m_state = .failed then s
  else if current_height ≥ s.m_creation_height + s.m_timeout_blocks then
    { s with
      m_secnonces := fun _ => none
      m_state := .failed
      nonce_events := s.wipeEvents ++ s.nonce_events }
  else s

/-! What each method can do. -/

/-- The states in which nonces are still collected. -/
def Collecting : Prop :=
  s.m_state = .created ∨ s.m_state = .noncesCollecting ∨ s.m_state = .noncesComplete

/-- An oracle of the signing roster. -/
def OnRoster (oracle_id : OracleId) : Prop :=
  oracle_id.val < configuredMuSig2ActiveRosterSize env.params

variable {env s} {id : OracleId}

theorem initializePassive_cases {cache : Bytes} {s' : MuSig2SigningSession}
    (initialized : s.initializePassive cache = some s') :
    s' = s ∨ s.m_state = .created ∧
      s' = { s with m_keyagg_cache := cache, m_state := .noncesCollecting } := by
  unfold initializePassive at initialized
  split at initialized
  · exact .inl (Option.some.inj initialized).symm
  · exact .inl (Option.some.inj initialized).symm
  · next created => exact .inr ⟨created, (Option.some.inj initialized).symm⟩
  · cases initialized

variable (env s) in
theorem generateNonce_cases (id : OracleId) (key pubkey cache secrand : Bytes) :
    (s.generateNonce env id key pubkey cache secrand = (none, s)) ∨
    (s.Collecting ∧
      s.generateNonce env id key pubkey cache secrand =
        (none, { s with m_keyagg_cache := cache })) ∨
    ∃ secnonce pubnonce, s.Collecting ∧ OnRoster env id ∧ s.m_secnonces id = none ∧
      env.secp.nonceGen secrand key pubkey cache = some (secnonce, pubnonce) ∧
      s.generateNonce env id key pubkey cache secrand = (some pubnonce,
        { s with
          m_keyagg_cache := cache
          m_secnonces := s.m_secnonces.insert id secnonce
          m_state := .noncesCollecting
          nonce_events := .generated id secnonce :: s.nonce_events }) := by
  unfold generateNonce
  dsimp only
  split_ifs with state valid roster held
  · exact .inl rfl
  · exact .inl rfl
  · exact .inl rfl
  · exact .inl rfl
  · have collecting : s.Collecting := by
      unfold Collecting
      tauto
    have absent : s.m_secnonces id = none := by simpa using held
    cases made : env.secp.nonceGen secrand key pubkey cache with
    | none => exact .inr (.inl ⟨collecting, rfl⟩)
    | some nonce =>
      exact .inr (.inr ⟨nonce.1, nonce.2, collecting,
        not_le.mp fun outside => roster (.inr outside), absent, rfl, rfl⟩)

theorem generateNonce_eq_some {id : OracleId} {key pubkey cache secrand pubnonce : Bytes}
    (made : (s.generateNonce env id key pubkey cache secrand).1 = some pubnonce) :
    ∃ secnonce, env.secp.nonceGen secrand key pubkey cache = some (secnonce, pubnonce) ∧
      s.generateNonce env id key pubkey cache secrand = (some pubnonce,
        { s with
          m_keyagg_cache := cache
          m_secnonces := s.m_secnonces.insert id secnonce
          m_state := .noncesCollecting
          nonce_events := .generated id secnonce :: s.nonce_events }) := by
  rcases s.generateNonce_cases env id key pubkey cache secrand with
    same | ⟨_, cached⟩ | ⟨secnonce, other, _, _, _, nonceGen, generated⟩
  · rw [same] at made
    cases made
  · rw [cached] at made
    cases made
  · rw [generated] at made
    cases made
    exact ⟨secnonce, nonceGen, generated⟩

theorem addPubnonce_eq_some {pubnonce : Bytes} {s' : MuSig2SigningSession}
    (added : s.addPubnonce env id pubnonce = some s') :
    (s.m_state = .noncesCollecting ∨ s.m_state = .noncesComplete) ∧ s.m_pubnonces id = none ∧
      s.m_participants_frozen = false ∧ ∃ state, (state = s.m_state ∨ state = .noncesComplete) ∧
        s' = { s with m_pubnonces := s.m_pubnonces.insert id pubnonce, m_state := state } := by
  unfold addPubnonce at added
  dsimp only at added
  split_ifs at added with state known frozen roster ready
  · refine ⟨by tauto, by simpa using known, by simpa using frozen, _, .inr rfl, ?_⟩
    exact (Option.some.inj added).symm
  · refine ⟨by tauto, by simpa using known, by simpa using frozen, _, .inl rfl, ?_⟩
    exact (Option.some.inj added).symm

theorem addPubnonce_roster {pubnonce : Bytes} {s' : MuSig2SigningSession}
    (added : s.addPubnonce env id pubnonce = some s') : OnRoster env id := by
  unfold addPubnonce at added
  dsimp only at added
  split_ifs at added with state known frozen roster ready
  all_goals
    unfold OnRoster
    omega

theorem addPubnonce_isSome (pubnonce : Bytes)
    (state : s.m_state = .noncesCollecting ∨ s.m_state = .noncesComplete)
    (absent : s.m_pubnonces id = none) (unfrozen : s.m_participants_frozen = false)
    (roster : OnRoster env id) : (s.addPubnonce env id pubnonce).isSome := by
  unfold OnRoster at roster
  have inside : ¬ (configuredMuSig2ActiveRosterSize env.params = 0 ∨
      id.val ≥ configuredMuSig2ActiveRosterSize env.params) := by omega
  unfold addPubnonce
  dsimp only
  rw [if_neg (by tauto), if_neg (by simp [absent]), if_neg (by simp [unfrozen]), if_neg inside]
  split_ifs <;> rfl

variable (env s) in
theorem aggregateNonces_cases (message : Hash) :
    (s.m_state ≠ .noncesComplete ∧ s.aggregateNonces env message = (false, s)) ∨
    (∃ s', (s.aggregateNonces env message) = (false, s') ∧ s'.m_state = .failed ∧
      s'.m_epoch = s.m_epoch ∧ s'.m_attempt_id = s.m_attempt_id ∧
      s'.m_min_signers = s.m_min_signers ∧ s'.m_secnonces = s.m_secnonces ∧
      s'.m_pubnonces = s.m_pubnonces ∧ s'.nonce_events = s.nonce_events) ∨
    ∃ aggnonce session context_id nonce_set_hash, s.m_state = .noncesComplete ∧
      env.secp.nonceAgg s.m_pubnonces.values = some aggnonce ∧
      env.secp.nonceProcess aggnonce message s.m_keyagg_cache = some session ∧
      s.aggregateNonces env message = (true, { s with
        m_session := session
        m_message_hash := message
        m_nonce_set_hash := nonce_set_hash
        m_session_context_id := context_id
        m_state := .signing }) := by
  unfold aggregateNonces
  by_cases state : s.m_state = .noncesComplete
  · rw [if_neg (by simp [state])]
    right
    cases aggregated : env.secp.nonceAgg s.m_pubnonces.values with
    | none => exact .inl ⟨s.fail, rfl, rfl, rfl, rfl, rfl, rfl, rfl, rfl⟩
    | some aggnonce =>
      dsimp only
      cases processed : env.secp.nonceProcess aggnonce message s.m_keyagg_cache with
      | none => exact .inl ⟨s.fail, rfl, rfl, rfl, rfl, rfl, rfl, rfl, rfl⟩
      | some session =>
        dsimp only
        split
        · exact .inl ⟨_, rfl, rfl, rfl, rfl, rfl, rfl, rfl, rfl⟩
        · split_ifs
          · exact .inl ⟨_, rfl, rfl, rfl, rfl, rfl, rfl, rfl, rfl⟩
          · exact .inr ⟨aggnonce, session, _, _, state, rfl, processed, rfl⟩
  · rw [if_pos state]
    exact .inl ⟨state, rfl⟩

variable (s) in
theorem trimNoncesToParticipants_cases (participants : List OracleId) :
    (∃ kept, s.trimNoncesToParticipants participants = (kept, s) ∧
      (kept = true → s.m_participants_frozen = true)) ∨
    s.m_min_signers ≤ participants.length ∧ participants.Nodup ∧
      (∀ id ∈ participants, (s.m_pubnonces id).isSome) ∧
      s.trimNoncesToParticipants participants = (true, { s with
        m_pubnonces := s.m_pubnonces.restrict participants
        m_participants_frozen := true }) := by
  by_cases state : s.m_state ≠ .noncesComplete ∧ s.m_state ≠ .signing
  · exact .inl ⟨false, by rw [trimNoncesToParticipants, if_pos state], by simp⟩
  by_cases few : participants.length < s.m_min_signers
  · exact .inl ⟨false, by rw [trimNoncesToParticipants, if_neg state, if_pos few], by simp⟩
  by_cases nodup : participants.Nodup
  swap
  · exact .inl ⟨false, by
      rw [trimNoncesToParticipants, if_neg state, if_neg few, if_pos nodup], by simp⟩
  by_cases missing : ∃ id ∈ participants, s.m_pubnonces id = none
  · exact .inl ⟨false, by
      rw [trimNoncesToParticipants, if_neg state, if_neg few, if_neg (not_not.mpr nodup),
        if_pos missing], by simp⟩
  by_cases frozen : s.m_participants_frozen = true
  · exact .inl ⟨_, by
      rw [trimNoncesToParticipants, if_neg state, if_neg few, if_neg (not_not.mpr nodup),
        if_neg missing, if_pos frozen], fun _ => frozen⟩
  have present : ∀ id ∈ participants, (s.m_pubnonces id).isSome := by
    intro id member
    rw [Option.isSome_iff_ne_none]
    exact fun absent => missing ⟨id, member, absent⟩
  refine .inr ⟨by omega, nodup, present, ?_⟩
  rw [trimNoncesToParticipants, if_neg state, if_neg few, if_neg (not_not.mpr nodup),
    if_neg missing, if_neg frozen]
  dsimp only
  rw [(OracleMap.ids_restrict_perm nodup present).length_eq, decide_eq_true rfl]

variable (env s) in
theorem createPartialSignature_cases (id : OracleId) (key : Bytes) :
    (s.createPartialSignature env id key = (none, s)) ∨
    ∃ secnonce, s.m_state = .signing ∧ s.m_secnonces id = some secnonce ∧
      (s.m_pubnonces id).isSome ∧
      s.createPartialSignature env id key =
        (env.secp.partialSign secnonce key s.m_keyagg_cache s.m_session,
          { s with
            m_secnonces := s.m_secnonces.erase id
            m_secnonces_used := Function.update s.m_secnonces_used id true
            nonce_events := .signed id secnonce s.m_session
              (env.secp.partialSign secnonce key s.m_keyagg_cache s.m_session) ::
                s.nonce_events }) := by
  unfold createPartialSignature
  by_cases state : s.m_state = .signing
  · rw [if_neg (by simp [state])]
    by_cases valid : env.secp.keyIsValid key = false
    · exact .inl (if_pos valid)
    · rw [if_neg valid]
      cases held : s.m_secnonces id with
      | none => exact .inl rfl
      | some secnonce =>
        dsimp only
        split_ifs with absent used
        · exact .inl rfl
        · exact .inl rfl
        · exact .inr ⟨secnonce, state, rfl, Option.isSome_iff_ne_none.mpr absent, rfl⟩
  · exact .inl (if_pos state)

theorem addPartialSignature_eq_some {partial_sig : Bytes} {s' : MuSig2SigningSession}
    (added : s.addPartialSignature id partial_sig = some s') :
    s.m_state = .signing ∧ (s.m_pubnonces id).isSome ∧
      s' = { s with m_partial_sigs := s.m_partial_sigs.insert id partial_sig } := by
  unfold addPartialSignature at added
  split_ifs at added with state known absent
  exact ⟨by simpa using state, Option.isSome_iff_ne_none.mpr absent, (Option.some.inj added).symm⟩

theorem addPartialSignatureVerified_eq_some {partial_sig signer_pk : Bytes}
    {s' : MuSig2SigningSession}
    (added : s.addPartialSignatureVerified env id partial_sig signer_pk = some s') :
    s.m_state = .signing ∧ ∃ pubnonce, s.m_pubnonces id = some pubnonce ∧
      env.secp.partialSigVerify partial_sig pubnonce signer_pk s.m_keyagg_cache s.m_session = true ∧
      s' = { s with m_partial_sigs := s.m_partial_sigs.insert id partial_sig } := by
  unfold addPartialSignatureVerified at added
  split_ifs at added with state known
  split at added
  · cases added
  · next pubnonce found =>
    split_ifs at added with refused
    exact ⟨by simpa using state, pubnonce, found, by simpa using refused,
      (Option.some.inj added).symm⟩

variable (env s) in
theorem aggregateSignature_cases :
    (s.aggregateSignature env = (false, s)) ∨ (s.aggregateSignature env = (false, s.fail)) ∨
    ∃ sig, s.m_state = .signing ∧ s.m_min_signers ≤ s.m_partial_sigs.ids.length ∧
      env.secp.partialSigAgg s.m_session s.m_partial_sigs.values = some sig ∧
      s.aggregateSignature env =
        (true, { s with m_aggregate_sig := sig, m_state := .complete }) := by
  unfold aggregateSignature
  split_ifs with state few
  · exact .inl rfl
  · exact .inl rfl
  · cases aggregated : env.secp.partialSigAgg s.m_session s.m_partial_sigs.values with
    | none => exact .inr (.inl rfl)
    | some sig => exact .inr (.inr ⟨sig, by simpa using state, by omega, rfl, rfl⟩)

variable (s) in
theorem checkTimeout_cases (height : ℤ) :
    s.checkTimeout height = s ∨ s.checkTimeout height = { s with
      m_secnonces := fun _ => none
      m_state := .failed
      nonce_events := s.wipeEvents ++ s.nonce_events } := by
  unfold checkTimeout
  split_ifs
  · exact .inl rfl
  · exact .inr rfl
  · exact .inl rfl

end MuSig2SigningSession

end DigiByte.Oracle
