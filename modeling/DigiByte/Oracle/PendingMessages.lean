import DigiByte.Library.OrderedMap
import DigiByte.Oracle.PriceRobustness

/-!
Price messages that wait for a bundle (`AddOracleMessage`, `ComputeConsensusValues` of
`bundle_manager.cpp`).

The source iterates over an unordered map; what it computes does not depend on the order, so
the map is kept in the order of the oracles. What a broadcast of a proposal does is left out.
-/

set_option autoImplicit false
set_option relaxedAutoImplicit false

namespace DigiByte.Oracle

open Library (OrderedMap)
open Library.Arrivals (HoldsNewest IsNewest isNewest_congr)

/-- The members of `OracleBundleManager` that price messages touch, with the static time of the
last clean-up. -/
structure OracleBundleManager where
  enabled : Bool := true
  min_oracle_count : ℤ
  cached_epoch : ℤ := -1
  pending_messages : OrderedMap ℕ COraclePriceMessage := .empty
  seen_message_hashes : List Hash := []
  last_seen_cleanup : ℤ := 0
  pending_attestations : ℕ → Option COraclePriceMessage := fun _ => none

/-- What a call returns, the proposal that it broadcasts (epoch, price, time) and the state after
it. -/
structure AddOutcome where
  accepted : Bool
  manager : OracleBundleManager
  proposal : Option (ℤ × ℕ × ℤ) := none

def isFreshLiveOracleTimestamp (timestamp now : ℤ) : Bool :=
  timestamp > 0 && timestamp ≤ now + 60 && now - timestamp ≤ ORACLE_MAX_AGE_SECONDS

def MAX_SEEN_HASHES : ℕ := 2048

namespace OracleEnv

variable (env : OracleEnv)

def isActiveConsensusOracle (oracle_id : ℕ) : Bool :=
  if !(env.params.nOraclePubkeyCount > 0 && (oracle_id : ℤ) < env.params.nOraclePubkeyCount) then
    false
  else
    match env.chain.getOracleNode oracle_id with
    | none => false
    | some oracle_config => oracle_config.is_active

/-- `IsValidOracleMessage` at the time `now`. -/
def isValidOracleMessage (min_oracle_count now : ℤ) (message : COraclePriceMessage) : Bool :=
  if message.oracle_id > 255 then false
  else if env.isActiveConsensusOracle message.oracle_id = false then false
  else if min_oracle_count = 1 then
    if env.priceIsValid message now = false then false else env.verifyAttestation message
  else if message.price_micro_usd < ORACLE_MIN_PRICE_MICRO_USD then false
  else if message.price_micro_usd > ORACLE_MAX_PRICE_MICRO_USD then false
  else if message.timestamp > now + 60 then false
  else if message.timestamp < now - ORACLE_MAX_AGE_SECONDS then false
  else
    match env.chain.getOracleNode message.oracle_id with
    | none => false
    | some oracle_config =>
      if oracle_config.is_active = false then false
      else env.verifyAttestation { message with oracle_pubkey := xonly oracle_config.pubkey }

/-- `GetAttestationSignatureHash`. -/
def attestationHash (message : COraclePriceMessage) : Hash :=
  env.sha (.priceAttestation message.oracle_id message.price_micro_usd message.timestamp)

/-- The messages that count for the consensus, in the order of an iteration over the pending
ones. -/
def freshMessages (now : ℤ) (iteration : List (ℕ × COraclePriceMessage)) :
    List COraclePriceMessage :=
  (iteration.filter fun entry =>
    env.isActiveConsensusOracle entry.1 && isFreshLiveOracleTimestamp entry.2.timestamp now).map
      Prod.snd

/-- `ComputeConsensusValues`: price and time. -/
def computeConsensusValues (min_oracle_count now : ℤ) (iteration : List (ℕ × COraclePriceMessage)) :
    Option (ℕ × ℤ) :=
  let messages := env.freshMessages now iteration
  if (messages.length : ℤ) < min_oracle_count then none
  else
    let price := calculateConsensusPrice messages
    if price ≤ 0 then none
    else some (price.toNat, middle
      ((messages.map COraclePriceMessage.timestamp).insertionSort (· ≤ ·)))

end OracleEnv

namespace OracleBundleManager

def purgeStale (manager : OracleBundleManager) (now : ℤ) : OracleBundleManager :=
  { manager with pending_messages := manager.pending_messages.filter fun entry =>
      isFreshLiveOracleTimestamp entry.2.timestamp now }

def cleanupSeen (manager : OracleBundleManager) (now : ℤ) : OracleBundleManager :=
  if now - manager.last_seen_cleanup > 300 then
    { manager with seen_message_hashes := [], last_seen_cleanup := now }
  else manager

/-- Add a hash to the ordered set and drop the smallest ones above the cap. -/
def remember (manager : OracleBundleManager) (msg_hash : Hash) : OracleBundleManager :=
  let seen := (msg_hash :: manager.seen_message_hashes).insertionSort fun a b =>
    memcmpKey a ≤ memcmpKey b
  { manager with seen_message_hashes := seen.drop (seen.length - MAX_SEEN_HASHES) }

def store (manager : OracleBundleManager) (message : COraclePriceMessage) : OracleBundleManager :=
  { manager with pending_messages := manager.pending_messages.assign message.oracle_id message }

section Add

variable (env : OracleEnv) (signatureHash : COraclePriceMessage → Hash)
  (localAttestation : (oracle_id consensus_price : ℕ) → (consensus_timestamp : ℤ) →
    Option COraclePriceMessage)
  (now : ℤ)

/-- The attestation of a local oracle, if it makes a valid one. -/
def validAttestation (oid price : ℕ) (timestamp : ℤ) : Option COraclePriceMessage :=
  (localAttestation oid price timestamp).filter fun att =>
    att.schnorr_sig ≠ [] && env.verifyAttestation att

/-- The attestations of local oracles that have none yet. -/
def attestLocal (manager : OracleBundleManager) (price : ℕ) (timestamp : ℤ) : OracleBundleManager :=
  let attested := fun oid =>
    if (manager.pending_messages.find oid).isSome && env.isActiveConsensusOracle oid then
      (manager.pending_attestations oid).or
        (validAttestation env localAttestation oid price timestamp)
    else manager.pending_attestations oid
  { manager with pending_attestations := attested }

/-- The end of the call: with enough fresh messages, propose their consensus values. -/
def announce (manager : OracleBundleManager) : AddOutcome :=
  let messages := env.freshMessages now manager.pending_messages.entries
  if (messages.length : ℤ) < manager.min_oracle_count then ⟨true, manager, none⟩
  else
    let consensus_price := calculateConsensusPrice messages
    if consensus_price ≤ 0 then ⟨true, manager, none⟩
    else if manager.min_oracle_count > 1 then
      let timestamp := middle ((messages.map COraclePriceMessage.timestamp).insertionSort (· ≤ ·))
      let epoch := if manager.cached_epoch ≥ 0 then manager.cached_epoch else now.tdiv (1440 * 15)
      ⟨true, manager.attestLocal env localAttestation consensus_price.toNat timestamp,
        some (epoch, consensus_price.toNat, timestamp)⟩
    else ⟨true, manager, none⟩

/-- `AddOracleMessage` at the time `now`. -/
def addOracleMessage (manager : OracleBundleManager) (message : COraclePriceMessage) : AddOutcome :=
  if manager.enabled = false then ⟨false, manager, none⟩
  else if env.isValidOracleMessage manager.min_oracle_count now message = false then
    ⟨false, manager, none⟩
  else
    let manager := (manager.purgeStale now).cleanupSeen now
    let msg_hash := if message.schnorr_sig ≠ [] then env.attestationHash message
      else signatureHash message
    if msg_hash ∈ manager.seen_message_hashes then ⟨false, manager, none⟩
    else
      let manager := manager.remember msg_hash
      match manager.pending_messages.find message.oracle_id with
      | some held =>
        if message.timestamp > held.timestamp then
          (manager.store message).announce env localAttestation now
        else ⟨false, manager, none⟩
      | none => (manager.store message).announce env localAttestation now

/-- The state after feeding messages one by one. -/
def feed (manager : OracleBundleManager) (messages : List COraclePriceMessage) :
    OracleBundleManager :=
  messages.foldl (fun manager message =>
    (manager.addOracleMessage env signatureHash localAttestation now message).manager) manager

end Add

end OracleBundleManager

/-! A valid message is fresh and signed. -/

section Valid

variable {env : OracleEnv} {min_oracle_count now : ℤ} {message : COraclePriceMessage}

private theorem signed_of_verified (verified : env.verifyAttestation message = true) :
    message.schnorr_sig ≠ [] := by
  simp only [OracleEnv.verifyAttestation, OracleEnv.verifySigned, Bool.and_eq_true,
    decide_eq_true_eq] at verified
  intro empty
  rw [empty] at verified
  exact absurd verified.1.1 (by decide)

theorem OracleEnv.isValidOracleMessage_spec
    (valid : env.isValidOracleMessage min_oracle_count now message = true) :
    message.timestamp ≤ now + 60 ∧ now - message.timestamp ≤ ORACLE_MAX_AGE_SECONDS ∧
      message.schnorr_sig ≠ [] := by
  unfold OracleEnv.isValidOracleMessage at valid
  split_ifs at valid with large inactive single invalid cheap dear future stale
  · simp only [OracleEnv.priceIsValid, Bool.not_eq_false] at invalid
    split_ifs at invalid with range future stale
    exact ⟨by omega, by omega, signed_of_verified valid⟩
  · split at valid
    · cases valid
    · split_ifs at valid
      have signed := signed_of_verified valid
      exact ⟨by omega, by omega, signed⟩

theorem OracleEnv.isFresh_iff_of_valid
    (valid : env.isValidOracleMessage min_oracle_count now message = true) :
    isFreshLiveOracleTimestamp message.timestamp now = true ↔ 0 < message.timestamp := by
  obtain ⟨early, young, -⟩ := OracleEnv.isValidOracleMessage_spec valid
  simp only [isFreshLiveOracleTimestamp, Bool.and_eq_true, decide_eq_true_eq]
  omega

theorem OracleEnv.timestamp_pos_of_valid (late : ORACLE_MAX_AGE_SECONDS < now)
    (valid : env.isValidOracleMessage min_oracle_count now message = true) :
    0 < message.timestamp := by
  obtain ⟨-, young, -⟩ := OracleEnv.isValidOracleMessage_spec valid
  omega

end Valid

/-! Feeding messages. -/

/-- The attested data of messages with one hash are the same. -/
def NoCollision (env : OracleEnv) (messages : List COraclePriceMessage) : Prop :=
  ∀ a ∈ messages, ∀ b ∈ messages, env.attestationHash a = env.attestationHash b →
    a.oracle_id = b.oracle_id ∧ a.price_micro_usd = b.price_micro_usd ∧ a.timestamp = b.timestamp

theorem NoCollision.subset {env : OracleEnv} {messages some_messages : List COraclePriceMessage}
    (apart : NoCollision env messages) (fewer : some_messages ⊆ messages) :
    NoCollision env some_messages :=
  fun a memberA b memberB => apart a (fewer memberA) b (fewer memberB)

/-- Two different messages of one oracle never share a time. -/
def DistinctTimes (messages : List COraclePriceMessage) : Prop :=
  ∀ a ∈ messages, ∀ b ∈ messages, a.oracle_id = b.oracle_id → a.timestamp = b.timestamp → a = b

section Feed

variable (env : OracleEnv) (signatureHash : COraclePriceMessage → Hash)
  (localAttestation : (oracle_id consensus_price : ℕ) → (consensus_timestamp : ℤ) →
    Option COraclePriceMessage)
  (now min_oracle_count : ℤ)

/-- The messages that are valid. -/
def validMessages (messages : List COraclePriceMessage) : List COraclePriceMessage :=
  messages.filter (env.isValidOracleMessage min_oracle_count now)

/-- The pending messages that are fresh. -/
def OracleBundleManager.live (manager : OracleBundleManager)
    (oracle : ℕ) : Option COraclePriceMessage :=
  (manager.pending_messages.find oracle).filter fun message =>
    isFreshLiveOracleTimestamp message.timestamp now

/-- The valid messages that are fresh. -/
def liveMessages (messages : List COraclePriceMessage) : List COraclePriceMessage :=
  (validMessages env now min_oracle_count messages).filter fun message =>
    isFreshLiveOracleTimestamp message.timestamp now

/-- After some messages: what is pending is valid, the newest fresh one of each oracle is pending,
and the hashes seen are those of valid messages. -/
structure Fed (delivered : List COraclePriceMessage) (manager : OracleBundleManager) : Prop where
  enabled : manager.enabled = true
  count : manager.min_oracle_count = min_oracle_count
  pending : ∀ oracle message, manager.pending_messages.find oracle = some message →
    message ∈ validMessages env now min_oracle_count delivered ∧ message.oracle_id = oracle
  newest : HoldsNewest COraclePriceMessage.oracle_id COraclePriceMessage.timestamp
    (liveMessages env now min_oracle_count delivered) (manager.live now)
  seen : ∀ msg_hash ∈ manager.seen_message_hashes,
    ∃ message ∈ validMessages env now min_oracle_count delivered,
    env.attestationHash message = msg_hash

theorem OracleBundleManager.announce_manager (manager : OracleBundleManager) :
    ∃ attestations, (manager.announce env localAttestation now).manager =
      { manager with pending_attestations := attestations } := by
  unfold announce
  dsimp only
  split
  · exact ⟨_, rfl⟩
  · split
    · exact ⟨_, rfl⟩
    · split
      · exact ⟨_, rfl⟩
      · exact ⟨_, rfl⟩

theorem OracleBundleManager.mem_remember {manager : OracleBundleManager} {msg_hash other : Hash}
    (member : other ∈ (manager.remember msg_hash).seen_message_hashes) :
    other = msg_hash ∨ other ∈ manager.seen_message_hashes := by
  dsimp only [remember] at member
  have kept := List.mem_of_mem_drop member
  rw [List.mem_insertionSort] at kept
  exact List.mem_cons.mp kept

section Remember

variable (manager : OracleBundleManager) (msg_hash : Hash)

@[simp] theorem OracleBundleManager.remember_enabled :
    (manager.remember msg_hash).enabled = manager.enabled := by
  dsimp only [remember]

@[simp] theorem OracleBundleManager.remember_count :
    (manager.remember msg_hash).min_oracle_count = manager.min_oracle_count := by
  dsimp only [remember]

@[simp] theorem OracleBundleManager.remember_pending :
    (manager.remember msg_hash).pending_messages = manager.pending_messages := by
  dsimp only [remember]

@[simp] theorem OracleBundleManager.remember_live :
    (manager.remember msg_hash).live now = manager.live now := by
  funext oracle
  rw [live, remember_pending, live]

end Remember

/-- What a call does with a valid message, after the purge and the clean-up: it was seen before; it
is no newer than the one held; or it is stored. -/
theorem OracleBundleManager.addOracleMessage_cases {manager cleaned : OracleBundleManager}
    {message : COraclePriceMessage} (enabled : manager.enabled = true)
    (valid : env.isValidOracleMessage manager.min_oracle_count now message = true)
    (cleans : (manager.purgeStale now).cleanupSeen now = cleaned) :
    let after := (manager.addOracleMessage env signatureHash localAttestation now message).manager
    (env.attestationHash message ∈ cleaned.seen_message_hashes ∧ after = cleaned) ∨
      (∃ held, cleaned.pending_messages.find message.oracle_id = some held ∧
        message.timestamp ≤ held.timestamp ∧
        after = cleaned.remember (env.attestationHash message)) ∨
      (∀ held ∈ cleaned.pending_messages.find message.oracle_id,
        held.timestamp ≤ message.timestamp) ∧
        ∃ attestations,
        after = { (cleaned.remember (env.attestationHash message)).store message with
          pending_attestations := attestations } := by
  intro after
  have signed := (OracleEnv.isValidOracleMessage_spec valid).2.2
  have result : after =
      (manager.addOracleMessage env signatureHash localAttestation now message).manager := rfl
  simp only [addOracleMessage, enabled, valid, Bool.true_eq_false, if_false, cleans, ne_eq, signed,
    not_false_eq_true, if_true, remember_pending] at result
  by_cases repeated : env.attestationHash message ∈ cleaned.seen_message_hashes
  · rw [if_pos repeated] at result
    exact .inl ⟨repeated, result⟩
  rw [if_neg repeated] at result
  cases found : cleaned.pending_messages.find message.oracle_id with
  | none =>
    simp only [found] at result
    obtain ⟨attestations, announced⟩ := announce_manager env localAttestation now
      ((cleaned.remember (env.attestationHash message)).store message)
    refine .inr (.inr ⟨?_, attestations, result.trans announced⟩)
    rintro _ ⟨⟩
  | some held =>
    simp only [found] at result
    by_cases newer : message.timestamp > held.timestamp
    · rw [if_pos newer] at result
      obtain ⟨attestations, announced⟩ := announce_manager env localAttestation now
        ((cleaned.remember (env.attestationHash message)).store message)
      refine .inr (.inr ⟨?_, attestations, result.trans announced⟩)
      rintro _ ⟨⟩
      exact newer.le
    · rw [if_neg newer] at result
      exact .inr (.inl ⟨held, rfl, not_lt.mp newer, result⟩)

variable {env now min_oracle_count} {delivered : List COraclePriceMessage}
  {manager : OracleBundleManager}

theorem mem_liveMessages {messages : List COraclePriceMessage} {message : COraclePriceMessage} :
    message ∈ liveMessages env now min_oracle_count messages ↔
      message ∈ validMessages env now min_oracle_count messages ∧ 0 < message.timestamp := by
  refine List.mem_filter.trans (and_congr_right fun listed => ?_)
  exact OracleEnv.isFresh_iff_of_valid (List.mem_filter.mp listed).2

theorem Fed.start (enabled : manager.enabled = true)
    (count : manager.min_oracle_count = min_oracle_count)
    (empty : manager.pending_messages = .empty) (unseen : manager.seen_message_hashes = []) :
    Fed env now min_oracle_count [] manager := by
  have nothing : ∀ oracle, manager.pending_messages.find oracle = none := by
    intro oracle
    rw [empty]
    rfl
  have dead : manager.live now = fun _ => none := by
    funext oracle
    rw [OracleBundleManager.live, nothing, Option.filter_none]
  refine ⟨enabled, count, ?_, ?_, ?_⟩
  · intro oracle message found
    rw [nothing] at found
    cases found
  · rw [dead]
    exact .start
  · intro msg_hash member
    rw [unseen] at member
    cases member

theorem Fed.cleaned (fed : Fed env now min_oracle_count delivered manager) :
    Fed env now min_oracle_count delivered ((manager.purgeStale now).cleanupSeen now) ∧
      ((manager.purgeStale now).cleanupSeen now).pending_messages.find =
        ((manager.purgeStale now).cleanupSeen now).live now := by
  have purged : (manager.purgeStale now).pending_messages.find = manager.live now := by
    funext oracle
    exact OrderedMap.find_filter _
  have alive : (manager.purgeStale now).live now = manager.live now := by
    funext oracle
    rw [OracleBundleManager.live, purged, OracleBundleManager.live, Option.filter_filter]
    simp only [Bool.and_self]
  have fed' : Fed env now min_oracle_count delivered (manager.purgeStale now) := by
    refine ⟨fed.enabled, fed.count, ?_, by rw [alive]; exact fed.newest, fed.seen⟩
    intro oracle message found
    rw [purged] at found
    exact fed.pending oracle message (Option.filter_eq_some_iff.mp found).1
  have fresh := purged.trans alive.symm
  unfold OracleBundleManager.cleanupSeen
  split
  · exact ⟨⟨fed'.enabled, fed'.count, fed'.pending, fed'.newest, fun _ member => by cases member⟩,
      fresh⟩
  · exact ⟨fed', fresh⟩

section Step

variable {message : COraclePriceMessage}
  (valid : env.isValidOracleMessage min_oracle_count now message = true)

include valid

private theorem validMessages_append :
    validMessages env now min_oracle_count (delivered ++ [message]) =
    validMessages env now min_oracle_count delivered ++ [message] := by
  simp [validMessages, List.filter_append, valid]

private theorem liveMessages_append_fresh (positive : 0 < message.timestamp) :
    liveMessages env now min_oracle_count (delivered ++ [message]) =
      liveMessages env now min_oracle_count delivered ++ [message] := by
  have fresh := (OracleEnv.isFresh_iff_of_valid valid).mpr positive
  simp [liveMessages, validMessages_append valid, List.filter_append, fresh]

private theorem liveMessages_append_dead (dead : ¬0 < message.timestamp) :
    liveMessages env now min_oracle_count (delivered ++ [message]) =
      liveMessages env now min_oracle_count delivered := by
  have stale := mt (OracleEnv.isFresh_iff_of_valid valid).mp dead
  simp [liveMessages, validMessages_append valid, List.filter_append, stale]

private theorem Fed.newest_kept (fed : Fed env now min_oracle_count delivered manager)
    (covered : 0 < message.timestamp →
      ∃ held, manager.live now message.oracle_id = some held ∧ message.timestamp ≤ held.timestamp) :
    HoldsNewest COraclePriceMessage.oracle_id COraclePriceMessage.timestamp
      (liveMessages env now min_oracle_count (delivered ++ [message])) (manager.live now) := by
  by_cases positive : 0 < message.timestamp
  · obtain ⟨held, found, older⟩ := covered positive
    rw [liveMessages_append_fresh valid positive]
    exact fed.newest.covered found older
  · rw [liveMessages_append_dead valid positive]
    exact fed.newest

private theorem Fed.newest_stored (fed : Fed env now min_oracle_count delivered manager)
    (fresh : manager.pending_messages.find = manager.live now)
    (newer : ∀ held ∈ manager.pending_messages.find message.oracle_id,
      held.timestamp ≤ message.timestamp) :
    HoldsNewest COraclePriceMessage.oracle_id COraclePriceMessage.timestamp
      (liveMessages env now min_oracle_count (delivered ++ [message]))
      ((manager.store message).live now) := by
  have stored : ∀ oracle, (manager.store message).live now oracle =
      if oracle = message.oracle_id then
        (some message).filter fun kept => isFreshLiveOracleTimestamp kept.timestamp now
      else manager.live now oracle := by
    intro oracle
    dsimp only [OracleBundleManager.live, OracleBundleManager.store]
    rw [OrderedMap.find_assign]
    split <;> rfl
  have isFresh := OracleEnv.isFresh_iff_of_valid valid
  rw [fresh] at newer
  by_cases positive : 0 < message.timestamp
  · have updated : (manager.store message).live now =
        Function.update (manager.live now) message.oracle_id (some message) := by
      funext oracle
      rw [stored, Function.update_apply, Option.filter_some, if_pos (isFresh.mpr positive)]
    rw [liveMessages_append_fresh valid positive, updated]
    exact fed.newest.stored newer
  · -- a fresh message would be newer, so nothing was pending here
    have nothing : manager.live now message.oracle_id = none := by
      cases found : manager.live now message.oracle_id with
      | none => rfl
      | some held =>
        have listed := (fed.newest.listed _ held found).1
        have heldPositive := (mem_liveMessages.mp listed).2
        have older := newer held found
        omega
    have unchanged : (manager.store message).live now = manager.live now := by
      funext oracle
      rw [stored, Option.filter_some, if_neg (mt isFresh.mp positive)]
      split
      · rename_i same
        rw [same, nothing]
      · rfl
    rw [liveMessages_append_dead valid positive, unchanged]
    exact fed.newest

private theorem Fed.extend {after : OracleBundleManager}
    (fed : Fed env now min_oracle_count delivered manager)
    (enabled : after.enabled = manager.enabled)
    (count : after.min_oracle_count = manager.min_oracle_count)
    (pending : ∀ oracle kept, after.pending_messages.find oracle = some kept →
      (kept = message ∧ oracle = message.oracle_id) ∨
      manager.pending_messages.find oracle = some kept)
    (newest : HoldsNewest COraclePriceMessage.oracle_id COraclePriceMessage.timestamp
      (liveMessages env now min_oracle_count (delivered ++ [message])) (after.live now))
    (seen : ∀ msg_hash ∈ after.seen_message_hashes,
      msg_hash = env.attestationHash message ∨ msg_hash ∈ manager.seen_message_hashes) :
    Fed env now min_oracle_count (delivered ++ [message]) after := by
  refine ⟨enabled.trans fed.enabled, count.trans fed.count, ?_, newest, ?_⟩
  · intro oracle kept found
    rw [validMessages_append valid]
    rcases pending oracle kept found with ⟨rfl, rfl⟩ | old
    · exact ⟨List.mem_append_right _ (List.mem_singleton_self _), rfl⟩
    · obtain ⟨listed, same⟩ := fed.pending oracle kept old
      exact ⟨List.mem_append_left _ listed, same⟩
  · intro msg_hash member
    rw [validMessages_append valid]
    rcases seen msg_hash member with own | old
    · exact ⟨message, List.mem_append_right _ (List.mem_singleton_self message), own.symm⟩
    · obtain ⟨earlier, listed, hashed⟩ := fed.seen msg_hash old
      exact ⟨earlier, List.mem_append_left _ listed, hashed⟩

private theorem Fed.repeated (fed : Fed env now min_oracle_count delivered manager)
    (apart : NoCollision env (delivered ++ [message]))
    (seen : env.attestationHash message ∈ manager.seen_message_hashes) :
    Fed env now min_oracle_count (delivered ++ [message]) manager := by
  refine fed.extend valid rfl rfl (fun _ _ => .inr) (fed.newest_kept valid ?_) fun _ => .inr
  intro positive
  obtain ⟨earlier, listed, hashed⟩ := fed.seen _ seen
  obtain ⟨sameOracle, -, sameTime⟩ := apart earlier
    (List.mem_append_left _ (List.mem_filter.mp listed).1) message
    (List.mem_append_right _ (List.mem_singleton_self message)) hashed
  rw [← sameOracle, ← sameTime]
  rw [← sameTime] at positive
  exact fed.newest.covers earlier (mem_liveMessages.mpr ⟨listed, positive⟩)

private theorem Fed.older {held : COraclePriceMessage}
    (fed : Fed env now min_oracle_count delivered manager)
    (found : manager.live now message.oracle_id = some held)
    (older : message.timestamp ≤ held.timestamp) :
    Fed env now min_oracle_count (delivered ++ [message])
      (manager.remember (env.attestationHash message)) := by
  have newest := fed.newest_kept valid fun _ => ⟨held, found, older⟩
  refine fed.extend valid (by simp) (by simp) ?_ (by simpa using newest)
    fun _ member => OracleBundleManager.mem_remember member
  intro oracle kept held
  rw [OracleBundleManager.remember_pending] at held
  exact .inr held

private theorem Fed.replaced {attestations : ℕ → Option COraclePriceMessage}
    (fed : Fed env now min_oracle_count delivered manager)
    (fresh : manager.pending_messages.find = manager.live now)
    (newer : ∀ held ∈ manager.pending_messages.find message.oracle_id,
      held.timestamp ≤ message.timestamp) :
    Fed env now min_oracle_count (delivered ++ [message])
      { (manager.remember (env.attestationHash message)).store message with
        pending_attestations := attestations } := by
  have stored := fed.newest_stored valid fresh newer
  have sameLive : ({ (manager.remember (env.attestationHash message)).store message with
      pending_attestations := attestations } : OracleBundleManager).live now =
        (manager.store message).live now := by
    funext oracle
    simp only [OracleBundleManager.live, OracleBundleManager.store,
      OracleBundleManager.remember_pending]
  rw [← sameLive] at stored
  refine fed.extend valid (by simp [OracleBundleManager.store])
    (by simp [OracleBundleManager.store]) ?_ stored ?_
  · intro oracle kept found
    simp only [OracleBundleManager.store, OracleBundleManager.remember_pending,
      OrderedMap.find_assign] at found
    split_ifs at found with same
    · exact .inl ⟨(Option.some.inj found).symm, same⟩
    · exact .inr found
  · intro _ member
    dsimp only [OracleBundleManager.store] at member
    exact OracleBundleManager.mem_remember member

end Step

theorem Fed.add {message : COraclePriceMessage}
    (fed : Fed env now min_oracle_count delivered manager)
    (apart : NoCollision env (delivered ++ [message])) :
    Fed env now min_oracle_count (delivered ++ [message])
      (manager.addOracleMessage env signatureHash localAttestation now message).manager := by
  cases valid : env.isValidOracleMessage min_oracle_count now message with
  | false =>
    have ignored : validMessages env now min_oracle_count (delivered ++ [message]) =
        validMessages env now min_oracle_count delivered := by
      simp [validMessages, List.filter_append, valid]
    have unchanged :
        (manager.addOracleMessage env signatureHash localAttestation now message).manager =
          manager := by
      simp [OracleBundleManager.addOracleMessage, fed.enabled, fed.count, valid]
    obtain ⟨enabled, count, pending, newest, seen⟩ := fed
    rw [liveMessages, ← ignored, ← liveMessages] at newest
    rw [← ignored] at pending seen
    rw [unchanged]
    exact ⟨enabled, count, pending, newest, seen⟩
  | true =>
    obtain ⟨clean, cleans⟩ : ∃ clean, (manager.purgeStale now).cleanupSeen now = clean := ⟨_, rfl⟩
    obtain ⟨fed', fresh⟩ := fed.cleaned
    rw [cleans] at fed' fresh
    rcases OracleBundleManager.addOracleMessage_cases env signatureHash localAttestation now
      fed.enabled
        (by rw [fed.count]; exact valid) cleans with
      ⟨seen, after⟩ | ⟨held, found, older, after⟩ | ⟨newer, attestations, after⟩
    · rw [after]
      exact fed'.repeated valid apart seen
    · rw [fresh] at found
      rw [after]
      exact fed'.older valid found older
    · rw [after]
      exact fed'.replaced valid fresh newer

theorem Fed.feed {messages : List COraclePriceMessage}
    (fed : Fed env now min_oracle_count delivered manager)
    (apart : NoCollision env (delivered ++ messages)) :
    Fed env now min_oracle_count (delivered ++ messages)
      (manager.feed env signatureHash localAttestation now messages) := by
  induction messages generalizing delivered manager with
  | nil => simpa [OracleBundleManager.feed] using fed
  | cons message rest ih =>
    have split : delivered ++ message :: rest = delivered ++ [message] ++ rest := by simp
    rw [split] at apart ⊢
    have one := fed.add signatureHash localAttestation (apart.subset (List.subset_append_left _ _))
    exact ih one apart

/-! What a run leaves. -/

theorem mem_of_mem_liveMessages {messages : List COraclePriceMessage}
    {message : COraclePriceMessage}
    (member : message ∈ liveMessages env now min_oracle_count messages) : message ∈ messages :=
  (List.mem_filter.mp (mem_liveMessages.mp member).1).1

theorem Fed.live_eq_some_iff (fed : Fed env now min_oracle_count delivered manager)
    (distinct : DistinctTimes delivered) {oracle : ℕ} {message : COraclePriceMessage} :
    manager.live now oracle = some message ↔
      IsNewest COraclePriceMessage.oracle_id COraclePriceMessage.timestamp
      (liveMessages env now min_oracle_count delivered) oracle message := by
  apply fed.newest.eq_some_iff
  intro a memberA b memberB
  exact distinct a (mem_of_mem_liveMessages memberA) b (mem_of_mem_liveMessages memberB)

theorem Fed.find_eq_live (fed : Fed env now min_oracle_count delivered manager) {oracle : ℕ}
    {message : COraclePriceMessage} (positive : 0 < message.timestamp) :
    manager.pending_messages.find oracle = some message ↔
      manager.live now oracle = some message := by
  refine Iff.trans ?_ Option.filter_eq_some_iff.symm
  constructor
  · intro found
    have valid := (List.mem_filter.mp (fed.pending oracle message found).1).2
    exact ⟨found, (OracleEnv.isFresh_iff_of_valid valid).mpr positive⟩
  · exact And.left

private theorem isNewest_live_iff {oracle : ℕ} {message : COraclePriceMessage}
    (positive : 0 < message.timestamp) :
    IsNewest COraclePriceMessage.oracle_id COraclePriceMessage.timestamp
        (liveMessages env now min_oracle_count delivered) oracle message ↔
      IsNewest COraclePriceMessage.oracle_id COraclePriceMessage.timestamp
        (validMessages env now min_oracle_count delivered) oracle message := by
  constructor
  · rintro ⟨member, placed, greatest⟩
    refine ⟨(mem_liveMessages.mp member).1, placed, fun other listed same => ?_⟩
    by_cases otherPositive : 0 < other.timestamp
    · exact greatest other (mem_liveMessages.mpr ⟨listed, otherPositive⟩) same
    · omega
  · rintro ⟨member, placed, greatest⟩
    exact ⟨mem_liveMessages.mpr ⟨member, positive⟩, placed,
      fun other listed => greatest other (mem_liveMessages.mp listed).1⟩

theorem Fed.find_eq_some_iff (fed : Fed env now min_oracle_count delivered manager)
    (distinct : DistinctTimes delivered)
    {oracle : ℕ} {message : COraclePriceMessage} (positive : 0 < message.timestamp) :
    manager.pending_messages.find oracle = some message ↔
      IsNewest COraclePriceMessage.oracle_id COraclePriceMessage.timestamp
        (validMessages env now min_oracle_count delivered) oracle message := by
  rw [fed.find_eq_live positive, fed.live_eq_some_iff distinct, isNewest_live_iff positive]

theorem Fed.live_eq {delivered' : List COraclePriceMessage} {manager' : OracleBundleManager}
    (fed : Fed env now min_oracle_count delivered manager)
    (fed' : Fed env now min_oracle_count delivered' manager')
    (distinct : DistinctTimes delivered)
    (same : ∀ message, message ∈ delivered ↔ message ∈ delivered') :
    manager.live now = manager'.live now := by
  have distinct' : DistinctTimes delivered' := by
    intro a memberA b memberB
    exact distinct a ((same a).mpr memberA) b ((same b).mpr memberB)
  funext oracle
  apply Option.ext
  intro message
  rw [fed.live_eq_some_iff distinct, fed'.live_eq_some_iff distinct']
  apply isNewest_congr
  intro message
  simp only [liveMessages, validMessages, List.mem_filter, same]

theorem Fed.find_eq_some_iff_of_positive (fed : Fed env now min_oracle_count delivered manager)
    (distinct : DistinctTimes delivered)
    (positive : ∀ message ∈ validMessages env now min_oracle_count delivered, 0 < message.timestamp)
    {oracle : ℕ} {message : COraclePriceMessage} :
    manager.pending_messages.find oracle = some message ↔
      IsNewest COraclePriceMessage.oracle_id COraclePriceMessage.timestamp
        (validMessages env now min_oracle_count delivered) oracle message := by
  constructor
  · intro found
    have later := positive message (fed.pending oracle message found).1
    exact (fed.find_eq_some_iff distinct later).mp found
  · intro greatest
    exact (fed.find_eq_some_iff distinct (positive message greatest.1)).mpr greatest

theorem Fed.timestamp_le {later : List COraclePriceMessage} {manager' : OracleBundleManager}
    (fed : Fed env now min_oracle_count delivered manager)
    (fed' : Fed env now min_oracle_count (delivered ++ later) manager') {oracle : ℕ}
    {held : COraclePriceMessage}
    (positive : 0 < held.timestamp) (found : manager.pending_messages.find oracle = some held) :
    ∃ held', manager'.pending_messages.find oracle = some held' ∧
      held.timestamp ≤ held'.timestamp := by
  have joined : liveMessages env now min_oracle_count (delivered ++ later) =
      liveMessages env now min_oracle_count delivered ++
        liveMessages env now min_oracle_count later := by
    simp only [liveMessages, validMessages, List.filter_append]
  have newest' := fed'.newest
  rw [joined] at newest'
  obtain ⟨held', isLive, older⟩ :=
    fed.newest.stamp_le newest' ((fed.find_eq_live positive).mp found)
  exact ⟨held', (fed'.find_eq_live (by omega)).mpr isLive, older⟩

end Feed

/-! Consensus values. -/

section Consensus

variable (env : OracleEnv) (min_oracle_count now : ℤ)
  {iteration iteration' : List (ℕ × COraclePriceMessage)}

theorem OracleEnv.computeConsensusValues_eq_of_perm
    (same : (iteration.filter fun entry => isFreshLiveOracleTimestamp entry.2.timestamp now).Perm
      (iteration'.filter fun entry => isFreshLiveOracleTimestamp entry.2.timestamp now)) :
    env.computeConsensusValues min_oracle_count now iteration =
      env.computeConsensusValues min_oracle_count now iteration' := by
  have messages : (env.freshMessages now iteration).Perm (env.freshMessages now iteration') := by
    unfold freshMessages
    simp only [← List.filter_filter]
    exact (same.filter _).map _
  have times := messages.map COraclePriceMessage.timestamp
  have sorted : ((env.freshMessages now iteration).map COraclePriceMessage.timestamp).insertionSort
      (· ≤ ·) =
      ((env.freshMessages now iteration').map COraclePriceMessage.timestamp).insertionSort
        (· ≤ ·) := by
    apply List.Perm.eq_of_pairwise' (List.pairwise_insertionSort _ _)
      (List.pairwise_insertionSort _ _)
    exact (List.perm_insertionSort _ _).trans (times.trans (List.perm_insertionSort _ _).symm)
  dsimp only [computeConsensusValues]
  rw [messages.length_eq, calculateConsensusPrice_eq_of_perm messages, sorted]

end Consensus

/-! Any order of the messages. -/

section Order

variable (env : OracleEnv) (signatureHash : COraclePriceMessage → Hash)
  (localAttestation : (oracle_id consensus_price : ℕ) → (consensus_timestamp : ℤ) →
    Option COraclePriceMessage)
  (now : ℤ) {manager : OracleBundleManager} {messages order : List COraclePriceMessage}

/-- The pending messages do not depend on the order of arrival, as far as their times are positive,
which all are once the clock is past the greatest age; the consensus values do not depend on it at
all. -/
theorem pending_messages_order_independent (enabled : manager.enabled = true)
    (empty : manager.pending_messages = .empty) (unseen : manager.seen_message_hashes = [])
    (distinct : DistinctTimes messages) (apart : NoCollision env messages)
    (reordered : order.Perm messages) :
    let run := manager.feed env signatureHash localAttestation now
    let valid := validMessages env now manager.min_oracle_count messages
    (∀ oracle message, 0 < message.timestamp →
      ((run order).pending_messages.find oracle = some message ↔
        IsNewest COraclePriceMessage.oracle_id COraclePriceMessage.timestamp valid oracle
          message)) ∧
    (ORACLE_MAX_AGE_SECONDS < now ∨ (∀ message ∈ valid, 0 < message.timestamp) →
      (run order).pending_messages = (run messages).pending_messages ∧
      ∀ oracle message, (run order).pending_messages.find oracle = some message ↔
        IsNewest COraclePriceMessage.oracle_id COraclePriceMessage.timestamp valid oracle message) ∧
    (∀ early later rest, early ++ later ++ rest = order → ∀ oracle held, 0 < held.timestamp →
      (run early).pending_messages.find oracle = some held →
      ∃ held', (run (early ++ later)).pending_messages.find oracle = some held' ∧
        held.timestamp ≤ held'.timestamp) ∧
    ∀ iteration iteration', iteration.Perm (run order).pending_messages.entries →
      iteration'.Perm (run messages).pending_messages.entries →
      env.computeConsensusValues manager.min_oracle_count now iteration =
        env.computeConsensusValues manager.min_oracle_count now iteration' := by
  intro run valid
  have start : Fed env now manager.min_oracle_count [] manager := Fed.start enabled rfl empty unseen
  have fedBy : ∀ delivered, delivered ⊆ messages →
      Fed env now manager.min_oracle_count delivered (run delivered) := by
    intro delivered fewer
    simpa using start.feed signatureHash localAttestation (apart.subset (by simpa using fewer))
  have ordered := fedBy order reordered.subset
  have listed := fedBy messages (List.Subset.refl _)
  have distinct' : DistinctTimes order := fun a memberA b memberB =>
    distinct a (reordered.subset memberA) b (reordered.subset memberB)
  have sameValid : ∀ message, message ∈ validMessages env now manager.min_oracle_count order ↔
      message ∈ valid := by
    intro message
    simp only [valid, validMessages, List.mem_filter, reordered.mem_iff]
  refine ⟨?_, ?_, ?_, ?_⟩
  · intro oracle message positive
    rw [ordered.find_eq_some_iff distinct' positive]
    exact isNewest_congr sameValid
  · intro late
    have positive : ∀ message ∈ valid, 0 < message.timestamp := by
      rcases late with late | positive
      · intro message member
        exact OracleEnv.timestamp_pos_of_valid late (List.mem_filter.mp member).2
      · exact positive
    have newest : ∀ oracle message, (run order).pending_messages.find oracle = some message ↔
        IsNewest COraclePriceMessage.oracle_id COraclePriceMessage.timestamp valid oracle
          message := by
      intro oracle message
      rw [ordered.find_eq_some_iff_of_positive distinct' fun message member =>
        positive message ((sameValid message).mp member)]
      exact isNewest_congr sameValid
    refine ⟨?_, newest⟩
    apply OrderedMap.ext_find
    intro oracle
    apply Option.ext
    intro message
    rw [newest, listed.find_eq_some_iff_of_positive distinct positive]
  · intro early later rest split oracle held positive found
    subst split
    have fewer : early ++ later ⊆ messages :=
      fun _ member => reordered.subset (List.mem_append_left _ member)
    have before := fedBy early fun _ member => fewer (List.mem_append_left _ member)
    exact before.timestamp_le (fedBy (early ++ later) fewer) positive found
  · intro iteration iteration' visits visits'
    apply OracleEnv.computeConsensusValues_eq_of_perm
    have same : (run order).pending_messages.filter
        (fun entry => isFreshLiveOracleTimestamp entry.2.timestamp now) =
        (run messages).pending_messages.filter fun entry =>
          isFreshLiveOracleTimestamp entry.2.timestamp now := by
      apply OrderedMap.ext_find
      intro oracle
      rw [OrderedMap.find_filter, OrderedMap.find_filter]
      exact congrFun (ordered.live_eq listed distinct' fun _ => reordered.mem_iff) oracle
    have sameEntries := congrArg OrderedMap.entries same
    exact (visits.filter _).trans ((List.Perm.of_eq sameEntries).trans (visits'.filter _).symm)

end Order

namespace PendingSample

def digest : HashInput → Hash
  | .priceAttestation oracle_id price_micro_usd timestamp =>
    oracle_id + 256 * (timestamp.toNat + 2 ^ 64 * price_micro_usd)
  | _ => 0

/-- Two oracles. -/
def env : OracleEnv where
  chain :=
    { consensus :=
        { nOracleTotalOracles := 2, nOraclePubkeyCount := 2, nOracleConsensusRequired := 2
          vOraclePublicKeys := [List.replicate 32 7, List.replicate 32 8]
          vOracleCompressedPublicKeys := [2 :: List.replicate 32 7, 2 :: List.replicate 32 8] }
      vOracleNodes := [⟨0, 2 :: List.replicate 32 7, true⟩, ⟨1, 2 :: List.replicate 32 8, true⟩]
      configured := by decide +kernel
      aligned := by decide +kernel
      compressed := by decide +kernel }
  secp := .transparent
  sha := digest

def manager : OracleBundleManager where
  min_oracle_count := 2

def message (oracle_id : ℕ) (timestamp : ℤ) : COraclePriceMessage where
  oracle_id
  price_micro_usd := 20000
  timestamp
  block_height := 0
  nonce := 0
  oracle_pubkey := []
  schnorr_sig := List.replicate 64 1

/-- The pending messages of a node without oracles of its own. -/
def pendingAfter (now : ℤ) (messages : List COraclePriceMessage)
    (oracle : ℕ) : Option COraclePriceMessage :=
  (manager.feed env (fun _ => 0) (fun _ _ _ => none) now messages).pending_messages.find oracle

/-- A valid message with the time 0 is purged by the next one, so that the order counts. -/
theorem zero_time_depends_on_order :
    env.isValidOracleMessage 2 1000 (message 0 0) = true ∧
      env.isValidOracleMessage 2 1000 (message 1 500) = true ∧
      DistinctTimes [message 0 0, message 1 500] ∧ NoCollision env [message 0 0, message 1 500] ∧
      pendingAfter 1000 [message 0 0, message 1 500] 0 = none ∧
      pendingAfter 1000 [message 1 500, message 0 0] 0 = some (message 0 0) := by
  unfold DistinctTimes NoCollision
  decide +kernel

def clock : ℤ := 1700000000

/-- Two messages of one oracle, the first one twice, and one of another. -/
def messages : List COraclePriceMessage :=
  [message 0 (clock - 10), message 0 (clock - 5), message 1 (clock - 7), message 0 (clock - 10)]

/-- Fed backwards, they leave the same two messages and the same consensus values. -/
theorem reversed_messages_agree :
    (manager.feed env (fun _ => 0) (fun _ _ _ => none) clock messages.reverse).pending_messages =
        (manager.feed env (fun _ => 0) (fun _ _ _ => none) clock messages).pending_messages ∧
      pendingAfter clock messages.reverse 0 = some (message 0 (clock - 5)) ∧
      env.computeConsensusValues 2 clock
          (manager.feed env (fun _ => 0) (fun _ _ _ => none) clock
            messages.reverse).pending_messages.entries =
        env.computeConsensusValues 2 clock
          (manager.feed env (fun _ => 0) (fun _ _ _ => none) clock
            messages).pending_messages.entries := by
  have distinct : DistinctTimes messages := by
    unfold DistinctTimes
    decide +kernel
  have apart : NoCollision env messages := by
    unfold NoCollision
    decide +kernel
  obtain ⟨-, pending, -, consensus⟩ :=
    @pending_messages_order_independent env (fun _ => 0) (fun _ _ _ => none) clock
    manager messages messages.reverse rfl rfl rfl distinct apart messages.reverse_perm
  exact ⟨(pending (.inl (by decide))).1, by decide +kernel, consensus _ _ (.refl _) (.refl _)⟩

end PendingSample

end DigiByte.Oracle
