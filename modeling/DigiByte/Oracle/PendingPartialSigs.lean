import DigiByte.Library.Arrivals
import DigiByte.Library.MapWeight
import DigiByte.Oracle.Orchestrator

/-!
The buffer of early partial signatures (`BufferPendingPartialSig`,
`DrainPendingPartialSigsForEpoch`, `RestartEpochAttemptIfNeeded` of `signing_orchestrator.cpp`).

A message is stored under its epoch and context, in the place of an earlier one of its oracle.
The entries of the epoch and of the context exist before the caps are checked, and the lowest
epoch goes when there are too many. None of the calls leaves more than the caps allow.
-/

set_option autoImplicit false
set_option relaxedAutoImplicit false

namespace DigiByte.Oracle

open Script (Bytes)
open Library.Arrivals (latest latest_concat)
open Library.MapWeight

/-- Where a partial signature is buffered. -/
def OracleMusigPartialSigMsg.slot (msg : OracleMusigPartialSigMsg) : ℤ × Hash × OracleId :=
  (msg.epoch, msg.session_context_id, msg.oracle_id)

namespace OracleSigningOrchestrator

variable (env : OracleEnv) (o : OracleSigningOrchestrator)

def epochContexts (epoch : ℤ) : Std.TreeMap Hash (List OracleMusigPartialSigMsg) :=
  o.m_pending_partialsigs.getD epoch ∅

def contextBuf (epoch : ℤ) (context_id : Hash) : List OracleMusigPartialSigMsg :=
  (o.epochContexts epoch).getD context_id []

/-- A context for which the epoch has no entry and no room. -/
def refusesContext (msg : OracleMusigPartialSigMsg) : Prop :=
  (o.epochContexts msg.epoch).contains msg.session_context_id = false ∧
    ((o.epochContexts msg.epoch).size ≥ MAX_PENDING_PARTIALSIG_CONTEXTS_PER_EPOCH ∨
      weight List.length (o.epochContexts msg.epoch) ≥ MAX_PENDING_PARTIALSIGS_PER_EPOCH)

/-- A further message for which the context or the epoch has no room. -/
def refusesMessage (msg : OracleMusigPartialSigMsg) : Prop :=
  (o.contextBuf msg.epoch msg.session_context_id).length ≥ MAX_PENDING_PARTIALSIGS_PER_CONTEXT ∨
    weight List.length (o.epochContexts msg.epoch) ≥ MAX_PENDING_PARTIALSIGS_PER_EPOCH

instance (msg : OracleMusigPartialSigMsg) : Decidable (o.refusesContext msg) :=
  inferInstanceAs (Decidable (_ ∧ _))

instance (msg : OracleMusigPartialSigMsg) : Decidable (o.refusesMessage msg) :=
  inferInstanceAs (Decidable (_ ∨ _))

/-- The index of the message of the same oracle, or the length of the buffer. -/
def replacedIdx (msg : OracleMusigPartialSigMsg) : ℕ :=
  (o.contextBuf msg.epoch msg.session_context_id).findIdx fun pending =>
    pending.oracle_id = msg.oracle_id

/-- The call stores the message, in the place of an earlier one or after the others. -/
def accepts (msg : OracleMusigPartialSigMsg) : Bool :=
  ¬o.refusesContext msg ∧
    (o.replacedIdx msg < (o.contextBuf msg.epoch msg.session_context_id).length ∨
      ¬o.refusesMessage msg)

end OracleSigningOrchestrator

/-- The calls that touch the buffer. -/
inductive BufferCall where
  | buffer (msg : OracleMusigPartialSigMsg)
  | drain (tick : Tick) (session : MuSig2SigningSession)
  | restart (tick : Tick) (session : MuSig2SigningSession)
  | cleanup (current_epoch : ℤ)
  | clear

section Calls

variable (env : OracleEnv)

def OracleSigningOrchestrator.bufferCall (o : OracleSigningOrchestrator) :
    BufferCall → OracleSigningOrchestrator
  | .buffer msg => o.bufferPendingPartialSig msg
  | .drain tick session => (drainAndAggregate env tick (session, o)).2
  | .restart tick session => (o.restartEpochAttemptIfNeeded env tick session).2
  | .cleanup current_epoch => o.cleanupOldSessions current_epoch
  | .clear => o.clear

/-- The message that a call accepts. -/
def OracleSigningOrchestrator.acceptedBy (o : OracleSigningOrchestrator) :
    BufferCall → List OracleMusigPartialSigMsg
  | .buffer msg => if o.accepts msg then [msg] else []
  | .drain _ _ => []
  | .restart _ _ => []
  | .cleanup _ => []
  | .clear => []

/-- Any interleaving of the calls, with the messages accepted on the way. -/
def OracleSigningOrchestrator.bufferRun (o : OracleSigningOrchestrator) (calls : List BufferCall) :
    OracleSigningOrchestrator × List OracleMusigPartialSigMsg :=
  calls.foldl (fun state call => (state.1.bufferCall env call,
    state.2 ++ state.1.acceptedBy call)) (o, [])

end Calls

/-! What a context, an epoch and the buffer hold. -/

/-- At most one message of each oracle, the latest accepted. -/
structure ContextBufOk (accepted : List OracleMusigPartialSigMsg) (epoch : ℤ) (context_id : Hash)
    (buf : List OracleMusigPartialSigMsg) : Prop where
  few : buf.length ≤ MAX_PENDING_PARTIALSIGS_PER_CONTEXT
  distinct : (buf.map OracleMusigPartialSigMsg.oracle_id).Nodup
  placed : ∀ msg ∈ buf, msg.epoch = epoch ∧ msg.session_context_id = context_id
  latest : ∀ msg ∈ buf, latest OracleMusigPartialSigMsg.slot accepted msg.slot = some msg

structure EpochOk (accepted : List OracleMusigPartialSigMsg) (epoch : ℤ)
    (contexts : Std.TreeMap Hash (List OracleMusigPartialSigMsg)) : Prop where
  few : contexts.size ≤ MAX_PENDING_PARTIALSIG_CONTEXTS_PER_EPOCH
  total : weight List.length contexts ≤ MAX_PENDING_PARTIALSIGS_PER_EPOCH
  filled : ∀ (context_id : Hash) buf, contexts[context_id]? = some buf → buf ≠ []
  context : ∀ (context_id : Hash) buf, contexts[context_id]? = some buf →
    ContextBufOk accepted epoch context_id buf

structure BufferOk (accepted : List OracleMusigPartialSigMsg)
    (pending : Std.TreeMap ℤ (Std.TreeMap Hash (List OracleMusigPartialSigMsg))) : Prop where
  few : pending.size ≤ MAX_PENDING_PARTIALSIG_EPOCHS
  filled : ∀ (epoch : ℤ) contexts, pending[epoch]? = some contexts → contexts.isEmpty = false
  epoch : ∀ (epoch : ℤ) contexts, pending[epoch]? = some contexts → EpochOk accepted epoch contexts

section Context

variable {accepted buf : List OracleMusigPartialSigMsg} {epoch : ℤ} {context_id : Hash}
  {msg : OracleMusigPartialSigMsg}

theorem ContextBufOk.nil : ContextBufOk accepted epoch context_id [] where
  few := Nat.zero_le _
  distinct := List.nodup_nil
  placed _ member := by cases member
  latest _ member := by cases member

theorem ContextBufOk.elsewhere (ok : ContextBufOk accepted epoch context_id buf)
    (apart : msg.epoch ≠ epoch ∨ msg.session_context_id ≠ context_id) :
    ContextBufOk (accepted ++ [msg]) epoch context_id buf := by
  refine ⟨ok.few, ok.distinct, ok.placed, ?_⟩
  intro held member
  obtain ⟨sameEpoch, sameContext⟩ := ok.placed held member
  have different : msg.slot ≠ held.slot := by
    intro same
    simp only [OracleMusigPartialSigMsg.slot, Prod.mk.injEq] at same
    rcases apart with otherEpoch | otherContext
    · exact otherEpoch (same.1.trans sameEpoch)
    · exact otherContext (same.2.1.trans sameContext)
  rw [latest_concat, if_neg different]
  exact ok.latest held member

private theorem ContextBufOk.joined {buf' : List OracleMusigPartialSigMsg}
    (ok : ContextBufOk accepted epoch context_id buf)
    (place : msg.epoch = epoch ∧ msg.session_context_id = context_id)
    (few : buf'.length ≤ MAX_PENDING_PARTIALSIGS_PER_CONTEXT)
    (distinct : (buf'.map OracleMusigPartialSigMsg.oracle_id).Nodup)
    (members : ∀ held ∈ buf', held = msg ∨ held ∈ buf ∧ held.oracle_id ≠ msg.oracle_id) :
    ContextBufOk (accepted ++ [msg]) epoch context_id buf' := by
  refine ⟨few, distinct, ?_, ?_⟩
  · intro held member
    rcases members held member with rfl | ⟨old, -⟩
    · exact place
    · exact ok.placed held old
  · intro held member
    rw [latest_concat]
    rcases members held member with rfl | ⟨old, other⟩
    · rw [if_pos rfl]
    · have different : msg.slot ≠ held.slot := by
        intro same
        simp only [OracleMusigPartialSigMsg.slot, Prod.mk.injEq] at same
        exact other same.2.2.symm
      rw [if_neg different]
      exact ok.latest held old

theorem ContextBufOk.appended (ok : ContextBufOk accepted epoch context_id buf)
    (place : msg.epoch = epoch ∧ msg.session_context_id = context_id)
    (absent : ∀ held ∈ buf, held.oracle_id ≠ msg.oracle_id)
    (room : buf.length < MAX_PENDING_PARTIALSIGS_PER_CONTEXT) :
    ContextBufOk (accepted ++ [msg]) epoch context_id (buf ++ [msg]) := by
  apply ok.joined place
  · rw [List.length_append, List.length_singleton]
    exact room
  · rw [List.map_append, List.map_singleton]
    refine List.nodup_append.mpr ⟨ok.distinct, List.nodup_singleton _, ?_⟩
    intro oracle member other last
    obtain ⟨held, old, rfl⟩ := List.mem_map.mp member
    rw [List.mem_singleton.mp last]
    exact absent held old
  · intro held member
    rcases List.mem_append.mp member with old | last
    · exact .inr ⟨old, absent held old⟩
    · exact .inl (List.mem_singleton.mp last)

theorem ContextBufOk.replaced (ok : ContextBufOk accepted epoch context_id buf)
    (place : msg.epoch = epoch ∧ msg.session_context_id = context_id) {i : ℕ}
    (index : i = buf.findIdx fun pending => pending.oracle_id = msg.oracle_id)
    (found : i < buf.length) :
    ContextBufOk (accepted ++ [msg]) epoch context_id (buf.set i msg) := by
  have same : buf[i].oracle_id = msg.oracle_id := by
    subst index
    simpa using List.findIdx_getElem (w := found)
  have keys : (buf.set i msg).map OracleMusigPartialSigMsg.oracle_id =
      buf.map OracleMusigPartialSigMsg.oracle_id := by
    rw [List.map_set, ← same]
    apply List.ext_getElem
    · simp
    · intro j inside inside'
      rw [List.getElem_set]
      split
      · rename_i here
        subst here
        simp
      · rfl
  apply ok.joined place
  · rw [List.length_set]
    exact ok.few
  · rw [keys]
    exact ok.distinct
  · intro held member
    obtain ⟨j, inside, rfl⟩ := List.mem_iff_getElem.mp member
    rw [List.length_set] at inside
    rw [List.getElem_set]
    split
    · exact .inl rfl
    · rename_i other
      refine .inr ⟨List.getElem_mem inside, ?_⟩
      rw [← same]
      intro equal
      -- the oracles of a context are distinct
      have alike : buf[j] = buf[i] :=
        List.inj_on_of_nodup_map ok.distinct (List.getElem_mem inside)
          (List.getElem_mem found) equal
      exact other ((List.Nodup.of_map _ ok.distinct).getElem_inj_iff.mp alike).symm

end Context

section Epoch

variable {accepted : List OracleMusigPartialSigMsg} {epoch : ℤ} {msg : OracleMusigPartialSigMsg}
  {contexts contexts' : Std.TreeMap Hash (List OracleMusigPartialSigMsg)}

theorem EpochOk.empty : EpochOk accepted epoch ∅ where
  few := Nat.zero_le _
  total := Nat.zero_le _
  filled _ _ found := by simp at found
  context _ _ found := by simp at found

theorem EpochOk.congr (ok : EpochOk accepted epoch contexts) (same : contexts'.Equiv contexts) :
    EpochOk accepted epoch contexts' := by
  have finds : ∀ context_id : Hash, contexts'[context_id]? = contexts[context_id]? :=
    fun _ => same.getElem?_eq
  refine ⟨?_, ?_, ?_, ?_⟩
  · rw [same.size_eq]
    exact ok.few
  · rw [weight_congr finds]
    exact ok.total
  · intro context_id buf found
    exact ok.filled context_id buf ((finds context_id).symm.trans found)
  · intro context_id buf found
    exact ok.context context_id buf ((finds context_id).symm.trans found)

theorem EpochOk.elsewhere (ok : EpochOk accepted epoch contexts) (apart : msg.epoch ≠ epoch) :
    EpochOk (accepted ++ [msg]) epoch contexts :=
  ⟨ok.few, ok.total, ok.filled,
    fun context_id buf found => (ok.context context_id buf found).elsewhere (.inl apart)⟩

theorem EpochOk.stored {buf : List OracleMusigPartialSigMsg} (ok : EpochOk accepted epoch contexts)
    (bufOk : ContextBufOk (accepted ++ [msg]) epoch msg.session_context_id buf)
    (nonempty : buf ≠ []) (room : contexts.contains msg.session_context_id = true ∨
      contexts.size < MAX_PENDING_PARTIALSIG_CONTEXTS_PER_EPOCH)
    (total : weight List.length (contexts.insert msg.session_context_id buf) ≤
      MAX_PENDING_PARTIALSIGS_PER_EPOCH) :
    EpochOk (accepted ++ [msg]) epoch (contexts.insert msg.session_context_id buf) := by
  refine ⟨?_, total, ?_, ?_⟩
  · rw [Std.TreeMap.size_insert]
    split
    · exact ok.few
    · rename_i absent
      exact room.resolve_left absent
  · intro context_id other found
    rw [find_insert] at found
    split_ifs at found with same
    · rw [← Option.some.inj found]
      exact nonempty
    · exact ok.filled context_id other found
  · intro context_id other found
    rw [find_insert] at found
    split_ifs at found with same
    · rw [← Option.some.inj found, ← same]
      exact bufOk
    · exact (ok.context context_id other found).elsewhere (.inr same)

theorem EpochOk.erased (ok : EpochOk accepted epoch contexts) (gone : Hash) :
    EpochOk accepted epoch (contexts.erase gone) := by
  have kept : ∀ (context_id : Hash) buf, (contexts.erase gone)[context_id]? = some buf →
      contexts[context_id]? = some buf := by
    intro context_id buf found
    rw [find_erase] at found
    split_ifs at found
    exact found
  exact ⟨Std.TreeMap.size_erase_le.trans ok.few, weight_erase_le.trans ok.total,
    fun context_id buf found => ok.filled context_id buf (kept context_id buf found),
    fun context_id buf found => ok.context context_id buf (kept context_id buf found)⟩

end Epoch

section Buffer

variable {accepted : List OracleMusigPartialSigMsg} {msg : OracleMusigPartialSigMsg}
  {pending pending' : Std.TreeMap ℤ (Std.TreeMap Hash (List OracleMusigPartialSigMsg))}
  {contexts : Std.TreeMap Hash (List OracleMusigPartialSigMsg)}

theorem BufferOk.empty : BufferOk accepted ∅ where
  few := Nat.zero_le _
  filled _ _ found := by simp at found
  epoch _ _ found := by simp at found

theorem BufferOk.shrunk (ok : BufferOk accepted pending) (fewer : pending'.size ≤ pending.size)
    (kept : ∀ (epoch : ℤ) contexts, pending'[epoch]? = some contexts →
      pending[epoch]? = some contexts) :
    BufferOk accepted pending' :=
  ⟨fewer.trans ok.few, fun epoch contexts found =>
    ok.filled epoch contexts (kept epoch contexts found),
    fun epoch contexts found => ok.epoch epoch contexts (kept epoch contexts found)⟩

theorem BufferOk.erased (ok : BufferOk accepted pending)
    (gone : ℤ) : BufferOk accepted (pending.erase gone) := by
  apply ok.shrunk Std.TreeMap.size_erase_le
  intro epoch contexts found
  rw [find_erase] at found
  split_ifs at found
  exact found

theorem BufferOk.changed {epoch : ℤ} {old : Std.TreeMap Hash (List OracleMusigPartialSigMsg)}
    (ok : BufferOk accepted pending) (present : pending[epoch]? = some old)
    (nonempty : contexts.isEmpty = false)
    (epochOk : EpochOk accepted epoch contexts) :
    BufferOk accepted (pending.insert epoch contexts) := by
  refine ⟨?_, ?_, ?_⟩
  · have contained : pending.contains epoch = true := by
      rw [Std.TreeMap.contains_eq_isSome_getElem?, present]
      rfl
    rw [Std.TreeMap.size_insert, if_pos contained]
    exact ok.few
  · intro other held found
    rw [find_insert] at found
    split_ifs at found with same
    · rw [← Option.some.inj found]
      exact nonempty
    · exact ok.filled other held found
  · intro other held found
    rw [find_insert] at found
    split_ifs at found with same
    · rw [← Option.some.inj found, ← same]
      exact epochOk
    · exact ok.epoch other held found

theorem BufferOk.stored (ok : BufferOk accepted pending) (nonempty : contexts.isEmpty = false)
    (epochOk : EpochOk (accepted ++ [msg]) msg.epoch contexts) :
    (pending.insert msg.epoch contexts).size ≤ MAX_PENDING_PARTIALSIG_EPOCHS + 1 ∧
      (∀ (epoch : ℤ) held, (pending.insert msg.epoch contexts)[epoch]? = some held →
        held.isEmpty = false ∧ EpochOk (accepted ++ [msg]) epoch held) := by
  refine ⟨Std.TreeMap.size_insert_le.trans (Nat.add_le_add_right ok.few 1), ?_⟩
  intro epoch held found
  rw [find_insert] at found
  split_ifs at found with same
  · rw [← Option.some.inj found, ← same]
    exact ⟨nonempty, epochOk⟩
  · exact ⟨ok.filled epoch held found, (ok.epoch epoch held found).elsewhere same⟩

end Buffer

/-! The steps. -/

section Step

variable {o : OracleSigningOrchestrator} {accepted : List OracleMusigPartialSigMsg}
  {msg : OracleMusigPartialSigMsg}

namespace OracleSigningOrchestrator

theorem epochContexts_cases (o : OracleSigningOrchestrator) (epoch : ℤ) :
    (o.m_pending_partialsigs[epoch]? = none ∧ o.epochContexts epoch = ∅) ∨
      o.m_pending_partialsigs[epoch]? = some (o.epochContexts epoch) := by
  rw [epochContexts, Std.TreeMap.getD_eq_getD_getElem?]
  cases o.m_pending_partialsigs[epoch]? with
  | none => exact .inl ⟨rfl, rfl⟩
  | some contexts => exact .inr rfl

theorem contextBuf_cases (o : OracleSigningOrchestrator) (epoch : ℤ) (context_id : Hash) :
    ((o.epochContexts epoch)[context_id]? = none ∧ o.contextBuf epoch context_id = []) ∨
      (o.epochContexts epoch)[context_id]? = some (o.contextBuf epoch context_id) := by
  rw [contextBuf, Std.TreeMap.getD_eq_getD_getElem?]
  cases (o.epochContexts epoch)[context_id]? with
  | none => exact .inl ⟨rfl, rfl⟩
  | some buf => exact .inr rfl

theorem find_of_contexts {epoch : ℤ} (some_context : (o.epochContexts epoch).size ≠ 0) :
    o.m_pending_partialsigs[epoch]? = some (o.epochContexts epoch) := by
  rcases o.epochContexts_cases epoch with ⟨-, empty⟩ | present
  · rw [empty] at some_context
    exact absurd Std.TreeMap.size_emptyc some_context
  · exact present

theorem size_ne_zero_of_find {epoch : ℤ} {context_id : Hash} {buf : List OracleMusigPartialSigMsg}
    (found : (o.epochContexts epoch)[context_id]? = some buf) :
    (o.epochContexts epoch).size ≠ 0 := by
  intro zero
  have member : context_id ∈ o.epochContexts epoch := by
    rw [Std.TreeMap.mem_iff_isSome_getElem?, found]
    rfl
  have isEmpty : (o.epochContexts epoch).isEmpty = true := by
    rw [Std.TreeMap.isEmpty_eq_size_eq_zero, zero]
    rfl
  exact Std.TreeMap.isEmpty_iff_forall_not_mem.mp isEmpty context_id member

theorem bufferPendingPartialSig_eq (o : OracleSigningOrchestrator)
    (msg : OracleMusigPartialSigMsg) :
    (o.bufferPendingPartialSig msg).m_pending_partialsigs =
      if o.refusesContext msg then
        o.m_pending_partialsigs.insert msg.epoch (o.epochContexts msg.epoch)
      else if o.replacedIdx msg < (o.contextBuf msg.epoch msg.session_context_id).length then
        o.m_pending_partialsigs.insert msg.epoch
          ((o.epochContexts msg.epoch).insert msg.session_context_id
          ((o.contextBuf msg.epoch msg.session_context_id).set (o.replacedIdx msg) msg))
      else if o.refusesMessage msg then
        o.m_pending_partialsigs.insert msg.epoch
          ((o.epochContexts msg.epoch).insert msg.session_context_id
          (o.contextBuf msg.epoch msg.session_context_id))
      else
        evictFirst (o.m_pending_partialsigs.insert msg.epoch
          ((o.epochContexts msg.epoch).insert msg.session_context_id
          (o.contextBuf msg.epoch msg.session_context_id ++ [msg]))) := by
  unfold bufferPendingPartialSig
  dsimp only
  simp only [apply_ite OracleSigningOrchestrator.m_pending_partialsigs]
  rfl

end OracleSigningOrchestrator

variable (ok : BufferOk accepted o.m_pending_partialsigs)

include ok

theorem BufferOk.epochContexts (epoch : ℤ) : EpochOk accepted epoch (o.epochContexts epoch) := by
  rcases o.epochContexts_cases epoch with ⟨-, empty⟩ | present
  · rw [empty]
    exact .empty
  · exact ok.epoch epoch _ present

theorem BufferOk.contextBuf (epoch : ℤ) (context_id : Hash) :
    ContextBufOk accepted epoch context_id (o.contextBuf epoch context_id) := by
  rcases o.contextBuf_cases epoch context_id with ⟨-, empty⟩ | present
  · rw [empty]
    exact .nil
  · exact (ok.epochContexts epoch).context context_id _ present

private theorem BufferOk.context_refused (refused : o.refusesContext msg) :
    BufferOk accepted (o.m_pending_partialsigs.insert msg.epoch (o.epochContexts msg.epoch)) := by
  have some_context : (o.epochContexts msg.epoch).size ≠ 0 := by
    intro zero
    rcases o.epochContexts_cases msg.epoch with ⟨-, empty⟩ | present
    · rw [OracleSigningOrchestrator.refusesContext, empty] at refused
      rcases refused.2 with contexts | total
      · exact absurd contexts (by decide)
      · exact absurd total (by decide)
    · have filled := ok.filled msg.epoch _ present
      rw [Std.TreeMap.isEmpty_eq_size_eq_zero, zero] at filled
      cases filled
  have present := OracleSigningOrchestrator.find_of_contexts some_context
  exact ok.changed present (ok.filled msg.epoch _ present) (ok.epochContexts msg.epoch)

private theorem BufferOk.message_refused
    (found : (o.epochContexts msg.epoch)[msg.session_context_id]? =
      some (o.contextBuf msg.epoch msg.session_context_id)) :
    BufferOk accepted (o.m_pending_partialsigs.insert msg.epoch
      ((o.epochContexts msg.epoch).insert msg.session_context_id
        (o.contextBuf msg.epoch msg.session_context_id))) := by
  have present := OracleSigningOrchestrator.find_of_contexts
    (OracleSigningOrchestrator.size_ne_zero_of_find found)
  have same := insert_equiv found
  apply ok.changed present
  · rw [same.isEmpty_eq]
    exact ok.filled msg.epoch _ present
  · exact (ok.epochContexts msg.epoch).congr same

private theorem BufferOk.message_replaced
    (found : (o.epochContexts msg.epoch)[msg.session_context_id]? =
      some (o.contextBuf msg.epoch msg.session_context_id))
    (held : o.replacedIdx msg < (o.contextBuf msg.epoch msg.session_context_id).length) :
    BufferOk (accepted ++ [msg]) (o.m_pending_partialsigs.insert msg.epoch
      ((o.epochContexts msg.epoch).insert msg.session_context_id
        ((o.contextBuf msg.epoch msg.session_context_id).set (o.replacedIdx msg) msg))) := by
  have epochOk := ok.epochContexts msg.epoch
  have bufOk := (ok.contextBuf msg.epoch msg.session_context_id).replaced ⟨rfl, rfl⟩ rfl held
  have contained : (o.epochContexts msg.epoch).contains msg.session_context_id = true := by
    rw [Std.TreeMap.contains_eq_isSome_getElem?, found]
    rfl
  have nonempty : (o.contextBuf msg.epoch msg.session_context_id).set (o.replacedIdx msg) msg ≠
      [] := by
    intro none
    have length := congrArg List.length none
    rw [List.length_set, List.length_nil] at length
    omega
  -- the number of messages stays
  have total := epochOk.total
  rw [weight_eq_add_erase found, ← @List.length_set _ _ (o.replacedIdx msg) msg, ← weight_insert]
    at total
  have stored := epochOk.stored bufOk nonempty (.inl contained) total
  have present := OracleSigningOrchestrator.find_of_contexts
    (OracleSigningOrchestrator.size_ne_zero_of_find found)
  have known : o.m_pending_partialsigs.contains msg.epoch = true := by
    rw [Std.TreeMap.contains_eq_isSome_getElem?, present]
    rfl
  obtain ⟨-, each⟩ := ok.stored Std.TreeMap.isEmpty_insert stored
  refine ⟨?_, fun epoch contexts at_epoch => (each epoch contexts at_epoch).1,
    fun epoch contexts at_epoch => (each epoch contexts at_epoch).2⟩
  rw [Std.TreeMap.size_insert, if_pos known]
  exact ok.few

private theorem BufferOk.message_appended (admitted : ¬o.refusesContext msg)
    (room : ¬o.refusesMessage msg)
    (fresh : ¬o.replacedIdx msg < (o.contextBuf msg.epoch msg.session_context_id).length) :
    BufferOk (accepted ++ [msg]) (evictFirst (o.m_pending_partialsigs.insert msg.epoch
      ((o.epochContexts msg.epoch).insert msg.session_context_id
        (o.contextBuf msg.epoch msg.session_context_id ++ [msg])))) := by
  have epochOk := ok.epochContexts msg.epoch
  simp only [OracleSigningOrchestrator.refusesMessage, not_or, not_le, ge_iff_le] at room
  have absent : ∀ held ∈ o.contextBuf msg.epoch msg.session_context_id,
      held.oracle_id ≠ msg.oracle_id := by
    intro held member same
    exact fresh (List.findIdx_lt_length.mpr ⟨held, member, by simpa using same⟩)
  have bufOk := (ok.contextBuf msg.epoch msg.session_context_id).appended ⟨rfl, rfl⟩ absent room.1
  have contextRoom : (o.epochContexts msg.epoch).contains msg.session_context_id = true ∨
      (o.epochContexts msg.epoch).size < MAX_PENDING_PARTIALSIG_CONTEXTS_PER_EPOCH := by
    by_contra full
    rw [not_or, Bool.not_eq_true, not_lt] at full
    exact admitted ⟨full.1, .inl full.2⟩
  -- one message more than before
  have total : weight List.length ((o.epochContexts msg.epoch).insert msg.session_context_id
      (o.contextBuf msg.epoch msg.session_context_id ++ [msg])) ≤
        MAX_PENDING_PARTIALSIGS_PER_EPOCH := by
    rcases o.contextBuf_cases msg.epoch msg.session_context_id with ⟨unknown, empty⟩ | found
    · rw [weight_insert_of_absent unknown, empty, List.nil_append, List.length_singleton]
      omega
    · have before := @weight_eq_add_erase _ _ _ _ _ List.length _ _ _ found
      rw [weight_insert, List.length_append, List.length_singleton]
      omega
  have stored := epochOk.stored bufOk
    (List.append_ne_nil_of_right_ne_nil _ (List.cons_ne_nil msg [])) contextRoom total
  obtain ⟨size, each⟩ := ok.stored Std.TreeMap.isEmpty_insert stored
  obtain ⟨few, kept, _⟩ := evictFirst_spec size
  exact ⟨few, fun epoch contexts found => (each epoch contexts (kept epoch contexts found)).1,
    fun epoch contexts found => (each epoch contexts (kept epoch contexts found)).2⟩

theorem BufferOk.buffered (msg : OracleMusigPartialSigMsg) :
    BufferOk (accepted ++ o.acceptedBy (.buffer msg))
      (o.bufferPendingPartialSig msg).m_pending_partialsigs := by
  rw [OracleSigningOrchestrator.bufferPendingPartialSig_eq, OracleSigningOrchestrator.acceptedBy]
  by_cases refused : o.refusesContext msg
  · have dropped : o.accepts msg = false := by simp [OracleSigningOrchestrator.accepts, refused]
    rw [if_pos refused, dropped, if_neg Bool.false_ne_true, List.append_nil]
    exact ok.context_refused refused
  rw [if_neg refused]
  by_cases held : o.replacedIdx msg < (o.contextBuf msg.epoch msg.session_context_id).length
  · have stored : o.accepts msg = true := by simp [OracleSigningOrchestrator.accepts, refused, held]
    rw [if_pos held, stored, if_pos rfl]
    rcases o.contextBuf_cases msg.epoch msg.session_context_id with ⟨-, empty⟩ | found
    · rw [empty] at held
      exact absurd held (Nat.not_lt_zero _)
    · exact ok.message_replaced found held
  rw [if_neg held]
  by_cases full : o.refusesMessage msg
  · have dropped : o.accepts msg = false := by simp [OracleSigningOrchestrator.accepts, held, full]
    rw [if_pos full, dropped, if_neg Bool.false_ne_true, List.append_nil]
    rcases o.contextBuf_cases msg.epoch msg.session_context_id with ⟨unknown, empty⟩ | found
    · -- a context that was just admitted has room
      have missing : (o.epochContexts msg.epoch).contains msg.session_context_id = false := by
        rw [Std.TreeMap.contains_eq_isSome_getElem?, unknown]
        rfl
      rcases full with context | total
      · rw [empty] at context
        exact absurd context (by decide)
      · exact absurd ⟨missing, .inr total⟩ refused
    · exact ok.message_refused found
  · have stored : o.accepts msg = true := by simp [OracleSigningOrchestrator.accepts, refused, full]
    rw [if_neg full, stored, if_pos rfl]
    exact ok.message_appended refused full held

theorem BufferOk.taken (tick : Tick) (session : MuSig2SigningSession) :
    BufferOk accepted (takePending tick (session, o)).2.m_pending_partialsigs := by
  unfold takePending
  dsimp only
  by_cases nothing : session.m_session_context_id = 0 ∨
      (o.epochContexts tick.epoch).contains session.m_session_context_id = false
  · rw [OracleSigningOrchestrator.epochContexts] at nothing
    rw [if_pos nothing]
    exact ok
  have contained : (o.epochContexts tick.epoch).contains session.m_session_context_id = true := by
    rw [not_or, Bool.not_eq_false] at nothing
    exact nothing.2
  rw [Std.TreeMap.contains_eq_isSome_getElem?] at contained
  obtain ⟨buf, found⟩ := Option.isSome_iff_exists.mp contained
  have present := OracleSigningOrchestrator.find_of_contexts
    (OracleSigningOrchestrator.size_ne_zero_of_find found)
  have rest := (ok.epochContexts tick.epoch).erased session.m_session_context_id
  rw [OracleSigningOrchestrator.epochContexts] at nothing rest
  rw [if_neg nothing]
  cases emptied :
    ((o.m_pending_partialsigs.getD tick.epoch ∅).erase session.m_session_context_id).isEmpty with
  | true =>
    simp only [if_true]
    exact ok.erased tick.epoch
  | false =>
    simp only [Bool.false_eq_true, if_false]
    exact ok.changed present emptied rest

theorem BufferOk.drained (env : OracleEnv) (tick : Tick) (session : MuSig2SigningSession) :
    BufferOk accepted (drainAndAggregate env tick (session, o)).2.m_pending_partialsigs := by
  unfold drainAndAggregate
  split
  · exact ok
  · exact ok.taken tick session

theorem BufferOk.restarted (env : OracleEnv) (tick : Tick) (session : MuSig2SigningSession) :
    BufferOk accepted (o.restartEpochAttemptIfNeeded env tick session).2.m_pending_partialsigs := by
  unfold OracleSigningOrchestrator.restartEpochAttemptIfNeeded
  dsimp only
  split
  · exact ok
  · split
    · exact ok
    · exact ok.erased tick.epoch

theorem BufferOk.cleaned (current_epoch : ℤ) :
    BufferOk accepted (o.cleanupOldSessions current_epoch).m_pending_partialsigs := by
  have filtered : (o.cleanupOldSessions current_epoch).m_pending_partialsigs =
      o.m_pending_partialsigs.filter fun epoch _ => ¬epoch < current_epoch - 2 := rfl
  rw [filtered]
  apply ok.shrunk Std.TreeMap.size_filter_le_size
  intro epoch contexts found
  rw [Std.TreeMap.getElem?_filter'] at found
  exact (Option.filter_eq_some_iff.mp found).1

theorem BufferOk.called (env : OracleEnv) (call : BufferCall) :
    BufferOk (accepted ++ o.acceptedBy call) (o.bufferCall env call).m_pending_partialsigs := by
  cases call with
  | buffer msg => exact ok.buffered msg
  | drain tick session =>
    rw [OracleSigningOrchestrator.acceptedBy, List.append_nil]
    exact ok.drained env tick session
  | restart tick session =>
    rw [OracleSigningOrchestrator.acceptedBy, List.append_nil]
    exact ok.restarted env tick session
  | cleanup current_epoch =>
    rw [OracleSigningOrchestrator.acceptedBy, List.append_nil]
    exact ok.cleaned current_epoch
  | clear => exact .empty

end Step

/-! Runs. -/

section Run

variable (env : OracleEnv) {start : OracleSigningOrchestrator}

theorem OracleSigningOrchestrator.bufferRun_ok (empty : start.m_pending_partialsigs = ∅)
    (calls : List BufferCall) :
    BufferOk (start.bufferRun env calls).2 (start.bufferRun env calls).1.m_pending_partialsigs := by
  induction calls using List.reverseRecOn with
  | nil =>
    rw [bufferRun, List.foldl_nil, empty]
    exact .empty
  | append_singleton calls call ih =>
    simp only [bufferRun, List.foldl_append, List.foldl_cons, List.foldl_nil] at ih ⊢
    exact ih.called env call

/-- Early partial signatures cannot exhaust memory: whatever is buffered, drained and restarted, the
caps hold, each oracle has at most one message in a context, the latest accepted, and no entry is
left empty. -/
theorem pending_partial_sigs_bounded (empty : start.m_pending_partialsigs = ∅)
    (calls : List BufferCall) :
    let pending := (start.bufferRun env calls).1.m_pending_partialsigs
    pending.size ≤ MAX_PENDING_PARTIALSIG_EPOCHS ∧
      ∀ (epoch : ℤ) contexts, pending[epoch]? = some contexts →
        contexts.isEmpty = false ∧ contexts.size ≤ MAX_PENDING_PARTIALSIG_CONTEXTS_PER_EPOCH ∧
        (contexts.values.map List.length).sum ≤ MAX_PENDING_PARTIALSIGS_PER_EPOCH ∧
        ∀ (context_id : Hash) buf, contexts[context_id]? = some buf →
          buf ≠ [] ∧ buf.length ≤ MAX_PENDING_PARTIALSIGS_PER_CONTEXT ∧
          (buf.map OracleMusigPartialSigMsg.oracle_id).Nodup ∧
          ∀ msg ∈ buf, msg.epoch = epoch ∧ msg.session_context_id = context_id ∧
            latest OracleMusigPartialSigMsg.slot (start.bufferRun env calls).2 msg.slot =
              some msg := by
  intro pending
  have ok := OracleSigningOrchestrator.bufferRun_ok env empty calls
  refine ⟨ok.few, ?_⟩
  intro epoch contexts atEpoch
  have epochOk := ok.epoch epoch contexts atEpoch
  refine ⟨ok.filled epoch contexts atEpoch, epochOk.few, epochOk.total, ?_⟩
  intro context_id buf atContext
  have bufOk := epochOk.context context_id buf atContext
  refine ⟨epochOk.filled context_id buf atContext, bufOk.few, bufOk.distinct, ?_⟩
  intro msg member
  obtain ⟨sameEpoch, sameContext⟩ := bufOk.placed msg member
  exact ⟨sameEpoch, sameContext, bufOk.latest msg member⟩

end Run

namespace BufferSample

def env : OracleEnv where
  chain :=
    { consensus := {}
      vOracleNodes := []
      configured := by decide +kernel
      aligned := by decide +kernel
      compressed := by decide +kernel }
  secp := .transparent
  sha _ := 0

def message (epoch : ℤ) (session_context_id : Hash) (oracle_id : OracleId) (partial_sig : Bytes) :
    OracleMusigPartialSigMsg where
  epoch
  attempt_id := 0
  context_version := 1
  session_context_id
  oracle_id
  partial_sig
  signature := []

/-- Nine epochs, one after another, and a second message of the last one's oracle. -/
def calls : List BufferCall :=
  (List.range 9).map (fun epoch => .buffer (message epoch 7 3 [1])) ++ [.buffer (message 8 7 3 [2])]

/-- The lowest epoch is gone, and the second message is in the place of the first. -/
theorem nine_epochs_buffered :
    (OracleSigningOrchestrator.bufferRun env {} calls).1.m_pending_partialsigs.size ≤
      MAX_PENDING_PARTIALSIG_EPOCHS ∧
      ((OracleSigningOrchestrator.bufferRun env {} calls).1.contextBuf 0 7 = [] ∧
        (OracleSigningOrchestrator.bufferRun env {} calls).1.contextBuf 8 7 =
        [message 8 7 3 [2]]) :=
  ⟨(pending_partial_sigs_bounded env rfl calls).1, by decide +kernel⟩

end BufferSample

end DigiByte.Oracle
