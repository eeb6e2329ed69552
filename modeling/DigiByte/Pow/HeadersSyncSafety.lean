import DigiByte.Pow.HeadersSync

/-!
What a peer can make the header download do, whatever it sends.

Each pass is described by the headers that it has accepted: their work, their links and the bits
that were stored or compared. A released header lies under the work that was asked for, or under
enough headers of the second pass whose bits are those of the first pass.
-/

set_option autoImplicit false
set_option relaxedAutoImplicit false

namespace DigiByte.Pow

open Arith (ArithUint256)
open HeadersSyncState
open Library.AcceptAll (acceptAll acceptAll_keeps)

/-! Passes over headers. -/

section Passes

variable (start : SyncStart)

/-- The bit of a header at a height, where there is one. -/
def commitmentAt (height : ℤ) (header : FullHeader) : List Bool :=
  if start.commits height then [start.m_hasher (start.getHash header)] else []

/-- The bits of the headers above a height. -/
def commitmentsOf : ℤ → List FullHeader → List Bool
  | _, [] => []
  | height, header :: rest =>
    commitmentAt start (height + 1) header ++ commitmentsOf (height + 1) rest

/-- The hash that a header after these has to name. -/
def lastHash (headers : List FullHeader) : ℕ := start.getHash (headers.getLastD start.header)

/-- Each header names the one before it. -/
def Linked : ℕ → List FullHeader → Prop
  | _, [] => True
  | prev, header :: rest => header.hashPrevBlock = prev ∧ Linked (start.getHash header) rest

/-- The work of the headers that a pass accepts, with the chain below them. -/
def passWork (headers : List FullHeader) : Option (ArithUint256 × HeadersWorkState) :=
  headers.foldlM (fun passed header =>
    match passed.2.addHeader start.m_consensus_params header.toCBlockHeader with
    | some (some work, header_work) => some (passed.1 + work, header_work)
    | _ => none)
    (start.chainWork, .start start.m_consensus_params (start.m_chain_start :: start.below))

/-- The headers are accepted and have the work that was asked for. -/
def ReachesWork (headers : List FullHeader) : Prop :=
  ∃ total header_work, passWork start headers = some (total, header_work) ∧
    start.m_minimum_required_work ≤ total

variable {start} {height : ℤ} {headers headers' : List FullHeader} {header : FullHeader}

theorem commitmentsOf_append (height : ℤ) (headers headers' : List FullHeader) :
    commitmentsOf start height (headers ++ headers') =
      commitmentsOf start height headers ++ commitmentsOf start (height + headers.length)
        headers' := by
  induction headers generalizing height with
  | nil => simp [commitmentsOf]
  | cons header rest ih =>
    rw [List.cons_append, commitmentsOf, commitmentsOf, ih, List.append_assoc, List.length_cons]
    push_cast
    rw [show height + 1 + (rest.length : ℤ) = height + (rest.length + 1) by omega]

theorem commitmentsOf_concat (height : ℤ) (headers : List FullHeader) (header : FullHeader) :
    commitmentsOf start height (headers ++ [header]) =
      commitmentsOf start height headers ++ commitmentAt start (height + headers.length + 1)
        header := by
  rw [commitmentsOf_append, commitmentsOf, commitmentsOf, List.append_nil]

theorem lastHash_concat (headers : List FullHeader) (header : FullHeader) :
    lastHash start (headers ++ [header]) = start.getHash header := by
  simp [lastHash, List.getLastD_eq_getLast?]

theorem getLastD_append (headers headers' : List FullHeader) (last : FullHeader) :
    (headers ++ headers').getLastD last = headers'.getLastD (headers.getLastD last) := by
  induction headers generalizing last with
  | nil => rfl
  | cons header rest ih => rw [List.cons_append, List.getLastD_cons, List.getLastD_cons, ih]

theorem linked_append {prev : ℕ} {headers headers' : List FullHeader} {last : FullHeader}
    (same : prev = start.getHash last) : Linked start prev (headers ++ headers') ↔
      Linked start prev headers ∧
      Linked start (start.getHash (headers.getLastD last)) headers' := by
  induction headers generalizing prev last with
  | nil => simp [Linked, same]
  | cons header rest ih =>
    rw [List.cons_append, Linked, Linked, ih rfl, and_assoc, List.getLastD_cons]

theorem linked_concat (headers : List FullHeader) (header : FullHeader) :
    Linked start (start.getHash start.header) (headers ++ [header]) ↔
      Linked start (start.getHash start.header) headers ∧
      header.hashPrevBlock = lastHash start headers := by
  rw [linked_append rfl, Linked, Linked, and_true]
  rfl

theorem passWork_concat (headers : List FullHeader) (header : FullHeader) :
    passWork start (headers ++ [header]) = (passWork start headers).bind fun passed =>
      match passed.2.addHeader start.m_consensus_params header.toCBlockHeader with
      | some (some work, header_work) => some (passed.1 + work, header_work)
      | _ => none := by
  unfold passWork
  rw [List.foldlM_append]
  simp only [List.foldlM_cons, List.foldlM_nil, bind_pure]
  rfl

private theorem commits_within (height : ℤ) :
    ∃ n < HEADER_COMMITMENT_PERIOD, start.commits (height + 1 + n) = true := by
  have bound : (start.m_commit_offset : ℤ) < 606 := by exact_mod_cast start.offset_lt
  refine ⟨((start.m_commit_offset - (height + 1)) % 606).toNat, ?_, ?_⟩
  · unfold HEADER_COMMITMENT_PERIOD
    omega
  · unfold SyncStart.commits HEADER_COMMITMENT_PERIOD
    rw [decide_eq_true_eq]
    omega

theorem length_commitmentsOf (height : ℤ) (headers : List FullHeader) (count : ℕ)
    (long : HEADER_COMMITMENT_PERIOD * count ≤ headers.length) :
    count ≤ (commitmentsOf start height headers).length := by
  induction count generalizing height headers with
  | zero => exact Nat.zero_le _
  | succ count ih =>
    obtain ⟨n, small, commits⟩ := @commits_within start height
    have split : headers = headers.take n ++ headers.drop n :=
      (List.take_append_drop n headers).symm
    unfold HEADER_COMMITMENT_PERIOD at long small
    cases later : headers.drop n with
    | nil =>
      have short := congrArg List.length later
      rw [List.length_drop, List.length_nil] at short
      omega
    | cons header rest =>
      have counts := congrArg List.length later
      rw [List.length_drop, List.length_cons] at counts
      have more := ih (height + n + 1) rest (by unfold HEADER_COMMITMENT_PERIOD; omega)
      have taken : (headers.take n).length = n := List.length_take_of_le (by omega)
      rw [split, later, commitmentsOf_append, commitmentsOf, commitmentAt, taken,
        show height + (n : ℤ) + 1 = height + 1 + n by omega, commits]
      rw [show height + (n : ℤ) + 1 = height + 1 + n by omega] at more
      simp only [if_true, List.length_append, List.length_singleton]
      omega

end Passes

/-! The first pass. -/

section Presync

variable {start : SyncStart} {s s' : HeadersSyncState} {headers : List FullHeader}
  {header : FullHeader}

/-- The state after the first pass has accepted some headers. -/
structure Presyncing (start : SyncStart) (s : HeadersSyncState)
    (headers : List FullHeader) : Prop where
  phase : s.m_download_state = .presync
  work : ∃ header_work, s.m_header_work = some header_work ∧
    passWork start headers = some (s.m_current_chain_work, header_work)
  commitments : s.m_header_commitments = commitmentsOf start start.m_chain_start.nHeight headers
  few : s.m_header_commitments.length ≤ start.m_max_commitments
  height : s.m_current_height = start.m_chain_start.nHeight + headers.length
  last : s.m_last_header_received = headers.getLastD start.header
  buffer : s.m_redownloaded_headers = []
  waits : s.m_process_all_remaining_headers = false

theorem presyncing_new (start : SyncStart) : Presyncing start (.new start) [] where
  phase := rfl
  work := ⟨_, rfl, rfl⟩
  commitments := rfl
  few := Nat.zero_le _
  height := by simp [HeadersSyncState.new]
  last := rfl
  buffer := rfl
  waits := rfl

theorem addHeader_passes {total work : ArithUint256} {header_work : HeadersWorkState}
    (added : s.addHeader start header = some (some work, s'))
    (held : s.m_header_work = some header_work)
    (passed : passWork start headers = some (total, header_work)) :
    ∃ next, s' = { s with m_header_work := some next } ∧
      passWork start (headers ++ [header]) = some (total + work, next) := by
  unfold addHeader at added
  rw [held] at added
  obtain ⟨⟨result, next⟩, calculated, same⟩ := Option.map_eq_some_iff.mp added
  cases same
  refine ⟨next, rfl, ?_⟩
  rw [passWork_concat, passed, Option.bind_some, calculated]

private theorem storeCommitment_eq (s : HeadersSyncState) (header : FullHeader) :
    s.storeCommitment start header = { s with
      m_header_commitments := s.m_header_commitments ++
        commitmentAt start (s.m_current_height + 1) header } := by
  unfold storeCommitment commitmentAt
  split_ifs
  · rfl
  · rw [List.append_nil]

theorem Presyncing.step (presyncing : Presyncing start s headers)
    (accepted : s.validateAndProcessSingleHeader start header = some (true, s')) :
    Presyncing start s' (headers ++ [header]) := by
  unfold validateAndProcessSingleHeader at accepted
  rw [storeCommitment_eq] at accepted
  dsimp only at accepted
  split_ifs at accepted with phase transition full
  · cases accepted
  · cases accepted
  · cases accepted
  obtain ⟨⟨result, added⟩, calculated, same⟩ := Option.map_eq_some_iff.mp accepted
  cases result with
  | none => cases same
  | some work =>
    obtain ⟨header_work, held, passed⟩ := presyncing.work
    obtain ⟨next, rfl, passed⟩ := addHeader_passes calculated held passed
    cases same
    refine ⟨presyncing.phase, ⟨next, rfl, passed⟩, ?_, ?_, ?_, ?_, presyncing.buffer,
      presyncing.waits⟩
    · dsimp only
      rw [commitmentsOf_concat, presyncing.commitments, presyncing.height]
    · dsimp only at full ⊢
      by_cases commits : start.commits (s.m_current_height + 1) = true
      · rw [not_and, not_lt] at full
        exact full commits
      · rw [commitmentAt, if_neg commits, List.append_nil]
        exact presyncing.few
    · dsimp only
      rw [presyncing.height, List.length_append, List.length_singleton]
      push_cast
      omega
    · simp [List.getLastD_eq_getLast?]

end Presync

/-! The second pass. -/

section Redownload

variable {start : SyncStart} {s s' : HeadersSyncState}
  {presynced headers released : List FullHeader}
  {header : FullHeader}

/-- The state after the second pass has accepted some headers, of which the first ones are released.
The bits of the first headers have been compared, those of all headers before the work is
reached. -/
structure Redownloading (start : SyncStart) (s : HeadersSyncState)
    (presynced headers released : List FullHeader) :
    Prop where
  phase : s.m_download_state = .redownload
  work : ∃ header_work, s.m_header_work = some header_work ∧
    passWork start headers = some (s.m_redownload_chain_work, header_work)
  linked : Linked start (start.getHash start.header) headers
  last : s.m_redownload_buffer_last_hash = lastHash start headers
  height : s.m_redownload_buffer_last_height = start.m_chain_start.nHeight + headers.length
  buffered : ∃ held, headers = released ++ held ∧
    s.m_redownloaded_headers = held.map FullHeader.compress
  first : s.m_redownload_buffer_first_prev_hash = lastHash start released
  reached : s.m_process_all_remaining_headers = true →
    ∃ reaching, reaching <+: headers ∧ ReachesWork start reaching
  compared : ∃ checked, checked <+: headers ∧
    (s.m_process_all_remaining_headers = false → checked = headers) ∧
    commitmentsOf start start.m_chain_start.nHeight presynced =
      commitmentsOf start start.m_chain_start.nHeight checked ++ s.m_header_commitments

theorem Presyncing.redownloading (presyncing : Presyncing start s presynced) :
    Redownloading start (s.redownload start) presynced [] [] where
  phase := rfl
  work := ⟨_, rfl, rfl⟩
  linked := trivial
  last := rfl
  height := by simp [HeadersSyncState.redownload]
  buffered := ⟨[], rfl, rfl⟩
  first := rfl
  reached all := by
    rw [show (s.redownload start).m_process_all_remaining_headers =
      s.m_process_all_remaining_headers from rfl,
      presyncing.waits] at all
    cases all
  compared := ⟨[], List.prefix_rfl, fun _ => rfl, presyncing.commitments.symm⟩

private theorem checkCommitment_passes (passes : (s.checkCommitment start header).1 = true) :
    ∃ rest, (s.checkCommitment start header).2 = { s with m_header_commitments := rest } ∧
      s.m_header_commitments = (if s.m_process_all_remaining_headers then []
        else commitmentAt start (s.m_redownload_buffer_last_height + 1) header) ++ rest := by
  unfold checkCommitment at passes ⊢
  by_cases compares : s.m_process_all_remaining_headers = false ∧
      start.commits (s.m_redownload_buffer_last_height + 1) = true
  · rw [if_pos compares] at passes ⊢
    obtain ⟨waits, commits⟩ := compares
    cases held : s.m_header_commitments with
    | nil =>
      rw [held] at passes
      cases passes
    | cons expected rest =>
      rw [held] at passes
      refine ⟨rest, rfl, ?_⟩
      rw [waits, commitmentAt, if_pos commits, beq_iff_eq.mp passes]
      rfl
  · rw [if_neg compares]
    refine ⟨s.m_header_commitments, rfl, ?_⟩
    cases all : s.m_process_all_remaining_headers with
    | true => rfl
    | false =>
      rw [commitmentAt, if_neg fun commits => compares ⟨all, commits⟩]
      rfl

theorem Redownloading.step (redownloading : Redownloading start s presynced headers released)
    (accepted : s.validateAndStoreRedownloadedHeader start header = some (true, s')) :
    Redownloading start s' presynced (headers ++ [header]) released := by
  unfold validateAndStoreRedownloadedHeader at accepted
  split_ifs at accepted with phase connects transition
  · cases accepted
  · cases accepted
  · cases accepted
  obtain ⟨⟨result, added⟩, calculated, same⟩ := Option.map_eq_some_iff.mp accepted
  cases result with
  | none => cases same
  | some work =>
    obtain ⟨header_work, held, passed⟩ := redownloading.work
    obtain ⟨next, rfl, passed⟩ := addHeader_passes calculated held passed
    dsimp only at same
    split_ifs at same with mismatch
    · rw [Prod.ext_iff, mismatch] at same
      cases same.1
    rw [Bool.not_eq_false] at mismatch
    obtain ⟨rest, checked, bits⟩ := checkCommitment_passes mismatch
    rw [checked] at same
    cases same
    dsimp only at bits
    obtain ⟨buffer, split, compressed⟩ := redownloading.buffered
    have connected : header.hashPrevBlock = lastHash start headers := by
      rw [← redownloading.last]
      exact not_not.mp connects
    refine ⟨redownloading.phase, ⟨next, rfl, passed⟩,
      (linked_concat _ _).mpr ⟨redownloading.linked, connected⟩,
      (lastHash_concat _ _).symm, ?_, ⟨buffer ++ [header], ?_, ?_⟩, redownloading.first, ?_, ?_⟩
    · dsimp only
      rw [redownloading.height, List.length_append, List.length_singleton]
      push_cast
      omega
    · rw [split, List.append_assoc]
    · dsimp only
      rw [compressed, List.map_append]
      rfl
    · intro all
      dsimp only at all
      rcases Bool.or_eq_true _ _ |>.mp all with before | now
      · obtain ⟨reaching, within, reaches⟩ := redownloading.reached before
        exact ⟨reaching, within.trans (List.prefix_append _ _), reaches⟩
      · exact ⟨headers ++ [header], List.prefix_rfl, _, next, passed, of_decide_eq_true now⟩
    · obtain ⟨compared, within, whole, stored⟩ := redownloading.compared
      dsimp only
      cases all : s.m_process_all_remaining_headers || decide
          (s.m_redownload_chain_work + work ≥ start.m_minimum_required_work) with
      | true =>
        rw [all] at bits
        rw [bits] at stored
        exact ⟨compared, within.trans (List.prefix_append _ _),
          (fun waits => by cases waits), stored⟩
      | false =>
        rw [all] at bits
        rw [whole (Bool.or_eq_false_iff.mp all).1, bits] at stored
        refine ⟨headers ++ [header], List.prefix_rfl, fun _ => rfl, ?_⟩
        rw [commitmentsOf_concat, List.append_assoc, stored, redownloading.height]
        rfl

theorem getFullHeader_compress (header : FullHeader) :
    header.compress.getFullHeader header.hashPrevBlock = header := rfl

/-- The headers that are popped are the first ones of the buffer as they were received. With enough
work all are popped, and else none but those with a full buffer behind them. -/
private theorem popReady_pops {all : Bool} {held : List FullHeader} {last : FullHeader}
    (linked : Linked start (start.getHash last) held) :
    ∃ ready rest, held = ready ++ rest ∧
      popReady start all (held.map FullHeader.compress) (start.getHash last) =
        (ready, rest.map FullHeader.compress, start.getHash (ready.getLastD last)) ∧
      (all = true → rest = []) ∧ rest.length ≤ REDOWNLOAD_BUFFER_SIZE ∧
      (all = false → ready ≠ [] → rest.length = REDOWNLOAD_BUFFER_SIZE) := by
  induction held generalizing last with
  | nil => exact ⟨[], [], rfl, rfl, fun _ => rfl, Nat.zero_le _,
      fun _ nonempty => absurd rfl nonempty⟩
  | cons header later ih =>
    obtain ⟨names, linked⟩ := linked
    rw [List.map_cons, popReady, List.length_map]
    split_ifs with pops
    · obtain ⟨ready, rest, split, popped, empties, bounded, full⟩ := ih linked
      refine ⟨header :: ready, rest, by rw [split]; rfl, ?_, empties, bounded, ?_⟩
      · dsimp only
        rw [← names, getFullHeader_compress, popped, List.getLastD_cons]
      · intro waits _
        cases ready with
        | nil =>
          rcases pops with long | all
          · rw [split, List.nil_append] at long
            omega
          · rw [waits] at all
            cases all
        | cons first more => exact full waits (List.cons_ne_nil _ _)
    · rw [not_or] at pops
      refine ⟨[], header :: later, rfl, rfl, ?_, ?_, fun _ nonempty => absurd rfl nonempty⟩
      · intro all
        exact absurd all pops.2
      · rw [List.length_cons]
        omega

theorem Redownloading.length (redownloading : Redownloading start s presynced headers released) :
    headers.length = released.length + s.m_redownloaded_headers.length := by
  obtain ⟨held, split, compressed⟩ := redownloading.buffered
  rw [split, compressed, List.length_append, List.length_map]

theorem popHeaders_process_all (s : HeadersSyncState) :
    (s.popHeadersReadyForAcceptance start).2.m_process_all_remaining_headers =
      s.m_process_all_remaining_headers := by
  unfold popHeadersReadyForAcceptance
  split_ifs
  · rfl
  · rfl

theorem Redownloading.pops (redownloading : Redownloading start s presynced headers released) :
    Redownloading start (s.popHeadersReadyForAcceptance start).2 presynced headers
        (released ++ (s.popHeadersReadyForAcceptance start).1) ∧
      (s.m_process_all_remaining_headers = true →
        (s.popHeadersReadyForAcceptance start).2.m_redownloaded_headers = []) ∧
      (s.popHeadersReadyForAcceptance start).2.m_redownloaded_headers.length ≤
        REDOWNLOAD_BUFFER_SIZE ∧
      (s.m_process_all_remaining_headers = false → (s.popHeadersReadyForAcceptance start).1 ≠ [] →
        (s.popHeadersReadyForAcceptance start).2.m_redownloaded_headers.length =
          REDOWNLOAD_BUFFER_SIZE) := by
  obtain ⟨held, split, compressed⟩ := redownloading.buffered
  have linked := redownloading.linked
  rw [split, linked_append rfl] at linked
  obtain ⟨ready, rest, parts, popped, empties, bounded, full⟩ :=
    @popReady_pops start s.m_process_all_remaining_headers held _ linked.2
  unfold popHeadersReadyForAcceptance
  rw [if_neg (not_not.mpr redownloading.phase), redownloading.first, compressed]
  dsimp only
  rw [show lastHash start released =
    start.getHash (released.getLastD start.header) from rfl, popped]
  refine ⟨⟨redownloading.phase, redownloading.work, redownloading.linked, redownloading.last,
    redownloading.height,
    ⟨rest, ?_, rfl⟩, ?_, redownloading.reached, redownloading.compared⟩, ?_, ?_, ?_⟩
  · rw [split, parts, List.append_assoc]
  · dsimp only [lastHash]
    rw [getLastD_append]
  · intro all
    rw [empties all]
    rfl
  · rw [List.length_map]
    exact bounded
  · rw [List.length_map]
    exact full

end Redownload

/-! Runs. -/

section Runs

variable {start : SyncStart} {s : HeadersSyncState} {presynced headers released : List FullHeader}

/-- What released headers rest on. -/
structure Secured (start : SyncStart) (presynced redownloaded released : List FullHeader) :
    Prop where
  first_ones : released <+: redownloaded
  linked : Linked start (start.getHash start.header) redownloaded
  justified : released ≠ [] → ReachesWork start presynced ∧
    ((∃ reaching, reaching <+: redownloaded ∧ ReachesWork start reaching) ∨
      commitmentsOf start start.m_chain_start.nHeight redownloaded <+:
          commitmentsOf start start.m_chain_start.nHeight presynced ∧
        23 ≤ (commitmentsOf start (start.m_chain_start.nHeight + released.length)
          (redownloaded.drop released.length)).length)

theorem secured_nil (start : SyncStart) (presynced : List FullHeader) :
    Secured start presynced [] [] where
  first_ones := List.prefix_rfl
  linked := trivial
  justified none := absurd rfl none

theorem Redownloading.secured (redownloading : Redownloading start s presynced headers released)
    (reaches : ReachesWork start presynced)
    (full : s.m_process_all_remaining_headers = false → released ≠ [] →
      s.m_redownloaded_headers.length = REDOWNLOAD_BUFFER_SIZE) : Secured start presynced headers
        released := by
  obtain ⟨held, split, compressed⟩ := redownloading.buffered
  refine ⟨⟨held, split.symm⟩, redownloading.linked, fun nonempty => ⟨reaches, ?_⟩⟩
  cases all : s.m_process_all_remaining_headers with
  | true => exact .inl (redownloading.reached all)
  | false =>
    obtain ⟨compared, _, whole, stored⟩ := redownloading.compared
    rw [whole all] at stored
    refine .inr ⟨⟨s.m_header_commitments, stored.symm⟩, ?_⟩
    have length := full all nonempty
    rw [compressed, List.length_map] at length
    rw [split, List.drop_left]
    refine length_commitmentsOf _ held 23 ?_
    rw [length]
    decide

/-- The state of a run, by its phase. -/
def SyncRun.Describes (start : SyncStart) (run : SyncRun) : Prop :=
  match run.state.m_download_state with
  | .presync => Presyncing start run.state run.presynced ∧ run.redownloaded = [] ∧ run.released = []
  | .redownload =>
    Redownloading start run.state run.presynced run.redownloaded run.released ∧
      run.state.m_process_all_remaining_headers = false ∧ ReachesWork start run.presynced ∧
      (commitmentsOf start start.m_chain_start.nHeight run.presynced).length ≤
        start.m_max_commitments ∧
      run.state.m_redownloaded_headers.length ≤ REDOWNLOAD_BUFFER_SIZE ∧
      (run.released ≠ [] → run.state.m_redownloaded_headers.length = REDOWNLOAD_BUFFER_SIZE)
  | .final =>
    run.state.m_header_commitments = [] ∧ run.state.m_redownloaded_headers = [] ∧
      run.state.m_header_work = none

structure SyncRun.Safe (start : SyncStart) (run : SyncRun) : Prop where
  describes : run.Describes start
  secured : Secured start run.presynced run.redownloaded run.released

theorem safe_new (start : SyncStart) : SyncRun.Safe start { state := .new start } where
  describes := ⟨presyncing_new start, rfl, rfl⟩
  secured := secured_nil start []

private theorem safe_final {run : SyncRun} {s : HeadersSyncState} (state : run.state = s.finalize)
    (secured : Secured start run.presynced run.redownloaded run.released) : run.Safe start := by
  refine ⟨?_, secured⟩
  unfold SyncRun.Describes
  rw [state]
  exact ⟨rfl, rfl, rfl⟩

private theorem validated_presync {s' : HeadersSyncState} {received : List FullHeader}
    (presyncing : Presyncing start s presynced) (nonempty : received ≠ [])
    (accepted : s.validateAndStoreHeadersCommitments start received = some (true, s')) :
    Presyncing start s' (presynced ++ received) ∨
      ∃ last, Presyncing start last (presynced ++ received) ∧ s' = last.redownload start ∧
        ReachesWork start (presynced ++ received) := by
  unfold validateAndStoreHeadersCommitments at accepted
  cases received with
  | nil => exact absurd rfl nonempty
  | cons first rest =>
    dsimp only at accepted
    split_ifs at accepted with phase connects
    · cases accepted
    · cases accepted
    obtain ⟨⟨ok, last⟩, processed, same⟩ := Option.map_eq_some_iff.mp accepted
    dsimp only at same
    split_ifs at same with reaches
    · obtain ⟨rfl, enough⟩ := reaches
      have presyncing := acceptAll_keeps Presyncing.step presyncing processed
      obtain ⟨header_work, _, passed⟩ := presyncing.work
      cases same
      exact .inr ⟨last, presyncing, rfl, _, header_work, passed, enough⟩
    · cases same
      exact .inl (acceptAll_keeps Presyncing.step presyncing processed)

/-- What a message of the first pass does to a run. -/
theorem receive_presync {run : SyncRun} {message : HeadersMessage}
    (phase : run.state.m_download_state = .presync)
    (nonempty : message.headers ≠ []) : run.receive start message =
      (run.state.validateAndStoreHeadersCommitments start message.headers).map fun validated =>
        if validated.1 = false then { run with state := validated.2.finalize }
        else if message.full = true ∨ validated.2.m_download_state = .redownload then
          { run with state := validated.2, presynced := run.presynced ++ message.headers }
        else
          { run with
            state := validated.2.finalize
            presynced := run.presynced ++ message.headers } := by
  unfold SyncRun.receive processNextHeaders
  rw [if_neg nonempty]
  simp only [phase, processPresync, Option.map_map]
  refine congrArg (fun f => Option.map f _) (funext ?_)
  rintro ⟨ok, s'⟩
  cases ok with
  | false => simp [processNextHeaders.finish]
  | true =>
    by_cases more : message.full = true ∨ s'.m_download_state = .redownload
    · simp [processNextHeaders.finish, more]
    · simp [processNextHeaders.finish, more]

theorem receive_redownload {run : SyncRun} {message : HeadersMessage}
    (phase : run.state.m_download_state = .redownload)
    (nonempty : message.headers ≠ []) : run.receive start message =
      (acceptAll (validateAndStoreRedownloadedHeader start) run.state message.headers).map
        fun stored =>
        if stored.1 = false then { run with state := stored.2.finalize }
        else
          let popped := stored.2.popHeadersReadyForAcceptance start
          let complete := popped.2.m_redownloaded_headers.isEmpty &&
            popped.2.m_process_all_remaining_headers
          { run with
            state := if complete = false ∧ message.full = true then popped.2 else popped.2.finalize
            redownloaded := run.redownloaded ++ message.headers
            released := run.released ++ popped.1 } := by
  unfold SyncRun.receive processNextHeaders
  rw [if_neg nonempty]
  simp only [phase, processRedownload, Option.map_map]
  refine congrArg (fun f => Option.map f _) (funext ?_)
  rintro ⟨ok, s'⟩
  cases ok with
  | false => simp [processNextHeaders.finish]
  | true =>
    simp only [Function.comp_apply, Bool.true_eq_false, if_false]
    generalize s'.popHeadersReadyForAcceptance start = popped
    generalize (popped.2.m_redownloaded_headers.isEmpty &&
      popped.2.m_process_all_remaining_headers) = complete
    cases complete with
    | true => simp [processNextHeaders.finish]
    | false =>
      cases message.full with
      | true => simp [processNextHeaders.finish]
      | false => simp [processNextHeaders.finish]

private theorem safe_presync {run : SyncRun} {message : HeadersMessage} {next : SyncRun}
    (phase : run.state.m_download_state = .presync) (safe : run.Safe start)
    (nonempty : message.headers ≠ [])
    (received : run.receive start message = some next) : next.Safe start := by
  have describes := safe.describes
  unfold SyncRun.Describes at describes
  rw [phase] at describes
  obtain ⟨presyncing, nothing, unreleased⟩ := describes
  have secured : ∀ presynced, Secured start presynced run.redownloaded run.released := by
    intro presynced
    rw [nothing, unreleased]
    exact secured_nil start presynced
  rw [receive_presync phase nonempty] at received
  obtain ⟨⟨ok, s'⟩, validated, rfl⟩ := Option.map_eq_some_iff.mp received
  cases ok with
  | false => exact safe_final rfl (secured _)
  | true =>
    dsimp only
    rw [if_neg (by simp)]
    rcases validated_presync presyncing nonempty validated with presyncing |
      ⟨last, presyncing, rfl, reaches⟩
    · split_ifs
      · refine ⟨?_, secured _⟩
        unfold SyncRun.Describes
        simp only [presyncing.phase]
        exact ⟨presyncing, nothing, unreleased⟩
      · exact safe_final rfl (secured _)
    · have redownloading := presyncing.redownloading
      have few := presyncing.few
      rw [presyncing.commitments] at few
      rw [if_pos (.inr redownloading.phase)]
      refine ⟨?_, secured _⟩
      unfold SyncRun.Describes
      simp only [redownloading.phase, nothing, unreleased]
      exact ⟨redownloading, presyncing.waits, reaches, few, Nat.zero_le _,
        fun released => absurd rfl released⟩

private theorem safe_redownload {run : SyncRun} {message : HeadersMessage} {next : SyncRun}
    (phase : run.state.m_download_state = .redownload) (safe : run.Safe start)
    (nonempty : message.headers ≠ [])
    (received : run.receive start message = some next) : next.Safe start := by
  have describes := safe.describes
  unfold SyncRun.Describes at describes
  rw [phase] at describes
  obtain ⟨redownloading, waits, reaches, few, short, full⟩ := describes
  rw [receive_redownload phase nonempty] at received
  obtain ⟨⟨ok, s'⟩, stored, rfl⟩ := Option.map_eq_some_iff.mp received
  cases ok with
  | false => exact safe_final rfl safe.secured
  | true =>
    have counted := redownloading.length
    have redownloading := @acceptAll_keeps _ _ _
      (fun s headers => Redownloading start s run.presynced headers run.released)
      _ _ _ _ Redownloading.step redownloading stored
    obtain ⟨popped, empties, bounded, fills⟩ := redownloading.pops
    rw [← popHeaders_process_all s'] at empties fills
    generalize s'.popHeadersReadyForAcceptance start = result at popped empties bounded fills
    -- a buffer that was full before overflows with this message, so that something is popped
    have filled : result.2.m_process_all_remaining_headers = false → run.released ++ result.1 ≠ [] →
        result.2.m_redownloaded_headers.length = REDOWNLOAD_BUFFER_SIZE := by
      intro waiting released
      refine fills waiting ?_
      intro nothing
      rw [nothing, List.append_nil] at released popped
      have recounted := popped.length
      rw [List.length_append, counted, full released] at recounted
      have received := List.length_pos_of_ne_nil nonempty
      omega
    have secured := popped.secured reaches filled
    dsimp only
    rw [if_neg (by simp)]
    split_ifs with continues
    · refine ⟨?_, secured⟩
      have waiting : result.2.m_process_all_remaining_headers = false := by
        cases all : result.2.m_process_all_remaining_headers with
        | false => rfl
        | true =>
          rw [empties all, all] at continues
          cases continues.1
      unfold SyncRun.Describes
      simp only [popped.phase]
      exact ⟨popped, waiting, reaches, few, bounded, filled waiting⟩
    · exact safe_final rfl secured

theorem SyncRun.Safe.receive {run : SyncRun} {message : HeadersMessage} {next : SyncRun}
    (safe : run.Safe start)
    (received : run.receive start message = some next) : next.Safe start := by
  by_cases nothing : message.headers = []
  · unfold SyncRun.receive processNextHeaders at received
    rw [if_pos nothing] at received
    cases received
    simpa using safe
  cases phase : run.state.m_download_state with
  | presync => exact safe_presync phase safe nothing received
  | redownload => exact safe_redownload phase safe nothing received
  | final =>
    unfold SyncRun.receive processNextHeaders at received
    simp only [if_neg nothing, phase, Option.map_some, Option.some.injEq] at received
    subst received
    simpa using safe

theorem SyncRun.Safe.receiveAll {run final : SyncRun} {messages : List HeadersMessage}
    (safe : run.Safe start)
    (received : run.receiveAll start messages = some final) : final.Safe start := by
  induction messages generalizing run with
  | nil =>
    cases received
    exact safe
  | cons message rest ih =>
    obtain ⟨next, first, received⟩ := Option.bind_eq_some_iff.mp received
    exact ih (safe.receive first) received

/-- Whatever a peer sends, the headers that are released are the first ones of the second pass, each
naming the one before it from the known block on. If there are any, the first pass had the work
that was asked for; and either the second pass has reached it too, or all bits of the second pass
are those of the first pass and at least 23 of them belong to headers on top of the released
ones. -/
theorem released_headers_secured (start : SyncStart) (messages : List HeadersMessage)
    (run : SyncRun) (received : syncRun start messages = some run) :
    Secured start run.presynced run.redownloaded run.released :=
  ((safe_new start).receiveAll received).secured

/-- Whatever a peer sends, between two messages the commitments are no more than an honest chain
could need at the time of the start and the buffer holds at most 14441 headers, and a download that
has ended holds nothing. -/
theorem sync_memory_bounded (start : SyncStart) (messages : List HeadersMessage) (run : SyncRun)
    (received : syncRun start messages = some run) :
    run.state.m_header_commitments.length ≤ start.m_max_commitments ∧
      run.state.m_redownloaded_headers.length ≤ REDOWNLOAD_BUFFER_SIZE ∧
      (run.state.m_download_state = .final → run.state.m_header_commitments = [] ∧
        run.state.m_redownloaded_headers = [] ∧ run.state.m_header_work = none) := by
  have describes := ((safe_new start).receiveAll received).describes
  unfold SyncRun.Describes at describes
  cases phase : run.state.m_download_state with
  | presync =>
    rw [phase] at describes
    obtain ⟨presyncing, _, _⟩ := describes
    refine ⟨presyncing.few, ?_, fun final => by cases final⟩
    rw [presyncing.buffer]
    exact Nat.zero_le _
  | redownload =>
    rw [phase] at describes
    obtain ⟨redownloading, _, _, few, bounded, _⟩ := describes
    refine ⟨?_, bounded, fun final => by cases final⟩
    obtain ⟨compared, _, _, stored⟩ := redownloading.compared
    rw [stored, List.length_append] at few
    exact (Nat.le_add_left _ _).trans few
  | final =>
    rw [phase] at describes
    refine ⟨?_, ?_, fun _ => describes⟩
    · rw [describes.1]
      exact Nat.zero_le _
    · rw [describes.2.1]
      exact Nat.zero_le _

end Runs

namespace SyncSample

/-- The rules before the change of the work computation. -/
def params : Consensus.Params where
  powLimit := 2 ^ 236 - 1
  multiAlgoDiffChangeTarget := 1000000
  workComputationChangeTarget := 1000000

def header (hashPrevBlock : ℕ) (nNonce : UInt32) : FullHeader where
  nVersion := 2
  nTime := 1000
  nBits := 0x1e0ffff0
  hashPrevBlock := hashPrevBlock
  hashMerkleRoot := 0
  nNonce := nNonce

/-- The first header above the start is committed to. -/
def start : SyncStart where
  m_consensus_params := params
  m_chain_start := { nHeight := 605, nVersion := 2, nTime := 1000, nBits := 0x1e0ffff0 }
  below := []
  header := header 0 0
  chainWork := 0
  m_minimum_required_work := 1100000
  m_commit_offset := 0
  offset_lt := by decide
  adjustedTime := 1000
  getHash header := header.nNonce.toNat
  m_hasher hash := hash % 2 = 1

def headers : List FullHeader := [header 0 1, header 1 2]

def messages : List HeadersMessage := [⟨headers, false⟩, ⟨headers, false⟩]

private theorem received : ∃ run, syncRun start messages = some run ∧ run.released = headers := by
  have released : (syncRun start messages).map SyncRun.released = some headers := by decide +kernel
  exact Option.map_eq_some_iff.mp released

theorem sample_release_secured : ∃ run, syncRun start messages = some run ∧ run.released = headers ∧
    Secured start run.presynced run.redownloaded run.released := by
  obtain ⟨run, received, released⟩ := received
  exact ⟨run, received, released, released_headers_secured start messages run received⟩

/-- The second header above the start is committed to. -/
def paused : SyncStart := { start with m_commit_offset := 1, offset_lt := by decide }

/-- The second pass has had one header. -/
def firstHalf : List HeadersMessage := [⟨headers, false⟩, ⟨headers.take 1, true⟩]

theorem sample_memory_bounded : ∃ run, syncRun paused firstHalf = some run ∧
    run.state.m_download_state = .redownload ∧
    run.state.m_header_commitments.length = 1 ∧ 1 ≤ paused.m_max_commitments ∧
    run.state.m_redownloaded_headers.length = 1 ∧ 1 ≤ REDOWNLOAD_BUFFER_SIZE := by
  have stored : (syncRun paused firstHalf).map (fun run => (run.state.m_download_state,
      run.state.m_header_commitments.length, run.state.m_redownloaded_headers.length)) =
      some (.redownload, 1, 1) := by decide +kernel
  obtain ⟨run, received, parts⟩ := Option.map_eq_some_iff.mp stored
  simp only [Prod.mk.injEq] at parts
  obtain ⟨commitments, headers, _⟩ := sync_memory_bounded paused firstHalf run received
  rw [parts.2.1] at commitments
  rw [parts.2.2] at headers
  exact ⟨run, received, parts.1, parts.2.1, commitments, parts.2.2, headers⟩

end SyncSample

end DigiByte.Pow
