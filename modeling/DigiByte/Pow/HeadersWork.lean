import DigiByte.Pow.Difficulty

/-!
Work of headers that are not stored (`HeadersWorkState` of `headerssync.cpp`).

The class keeps a window of recent blocks and one slot per algorithm. Over any run
of accepted headers it computes what the full chain gives: the window covers the
averaging interval with its median times, and the slots hold the latest block of
each algorithm that was needed so far.
-/

set_option autoImplicit false
set_option relaxedAutoImplicit false

namespace DigiByte.Pow

open Arith (ArithUint256)
open Consensus (Params INT_MAX)
open Library.BoundedHistory

/-- `m_history_limit`. -/
def historyLimit (params : Params) : ℕ :=
  (NUM_ALGOS * params.nAveragingInterval + nMedianTimeSpan).toNat

/-- The members of `HeadersWorkState`; `m_recent` has its back first. -/
structure HeadersWorkState where
  m_chain_start : Chain
  m_recent : Chain
  m_previous_algos : Algo → CBlockIndex
  m_initialized : Algo → Bool
  m_present : Algo → Bool

/-- A block index without content, as the constructor leaves it. -/
def CBlockIndex.empty : CBlockIndex := { nHeight := 0, nVersion := 0, nTime := 0, nBits := 0 }

def HeadersWorkState.start (params : Params) (chain_start : Chain) : HeadersWorkState where
  m_chain_start := chain_start
  m_recent := chain_start.take (historyLimit params)
  m_previous_algos := fun _ => .empty
  m_initialized := fun _ => false
  m_present := fun _ => false

/-- The block index of a header above `prev`. -/
def CBlockHeader.toIndex (header : CBlockHeader) (prev : CBlockIndex) : CBlockIndex where
  nHeight := prev.nHeight + 1
  nVersion := header.nVersion
  nTime := header.nTime
  nBits := header.nBits

namespace HeadersWorkState

/-- Seed a slot from the fork point. -/
def seed (s : HeadersWorkState) (params : Params) (algo : Algo) : HeadersWorkState :=
  if s.m_initialized algo then s
  else
    let initialized := Function.update s.m_initialized algo true
    match getLastBlockIndexForAlgo s.m_chain_start params (some algo) with
    | [] => { s with m_initialized := initialized }
    | previous :: _ =>
      { s with
        m_initialized := initialized
        m_present := Function.update s.m_present algo true
        m_previous_algos := Function.update s.m_previous_algos algo previous }

/-- Point to a slot that holds a block. -/
def supply (s : HeadersWorkState) (algo : Algo) (previous_algos : PreviousAlgoBlocks) :
    PreviousAlgoBlocks :=
  if s.m_present algo then Function.update previous_algos algo (some (s.m_previous_algos algo))
  else previous_algos

/-- The loop over the algorithms that a header's required work depends on. -/
def collect (params : Params) (header_algo : Option Algo) (pprev : Chain) :
    List Algo → HeadersWorkState × PreviousAlgoBlocks → HeadersWorkState × PreviousAlgoBlocks
  | [], acc => acc
  | algo :: rest, (s, previous_algos) =>
    if isAlgoActive pprev params algo = false ∧ some algo ≠ header_algo then
      collect params header_algo pprev rest (s, previous_algos)
    else
      let s := s.seed params algo
      collect params header_algo pprev rest (s, s.supply algo previous_algos)

/-- Enter a block that counts into the slot of its algorithm. -/
def record (s : HeadersWorkState) (params : Params) (next prev : CBlockIndex) : HeadersWorkState :=
  if params.fPowAllowMinDifficultyBlocks && isLate params next.nTime prev then s
  else
    { s with
      m_previous_algos := Function.update s.m_previous_algos next.getAlgo next
      m_initialized := Function.update s.m_initialized next.getAlgo true
      m_present := Function.update s.m_present next.getAlgo true }

/-- Append to the window and trim its front. -/
def append (s : HeadersWorkState) (params : Params) (next : CBlockIndex) : HeadersWorkState :=
  { s with m_recent := (next :: s.m_recent).take (historyLimit params) }

/-- The header names no algorithm that may be mined above `pprev`. -/
def refusesAlgo (params : Params) (header : CBlockHeader) (prev : CBlockIndex)
    (pprev : Chain) : Bool :=
  (prev.nHeight + 1 ≥ params.AlgoLockHeight ||
    prev.nHeight + 1 ≥ params.nGroestlDeactivationHeight) &&
    match header.getAlgo with
    | none => true
    | some algo => !isAlgoActive pprev params algo

/-- The seeded state and the previous blocks that the required work of a header depends
on; a minimum-difficulty header depends on none. -/
def lookups (s : HeadersWorkState) (params : Params) (header : CBlockHeader) (prev : CBlockIndex)
    (pprev : Chain) : HeadersWorkState × PreviousAlgoBlocks :=
  if allowsMinimum params header.nTime prev then (s, fun _ => none)
  else collect params header.getAlgo pprev Algo.all (s, fun _ => none)

/-- The state after a header with work. -/
def advance (s : HeadersWorkState) (params : Params) (next prev : CBlockIndex) : HeadersWorkState :=
  (s.record params next prev).append params next

/-- `AddHeader`: the work or a refusal, with the state it leaves. -/
def addHeader (s : HeadersWorkState) (params : Params) (header : CBlockHeader) :
    Option (Option ArithUint256 × HeadersWorkState) :=
  match s.m_recent with
  | [] => none
  | prev :: older =>
    let pprev := prev :: older
    let next := header.toIndex prev
    if checkProofOfWork 0 header.nBits params = false then some (none, s)
    else if prev.nHeight = INT_MAX then some (none, s)
    else if refusesAlgo params header prev pprev then some (none, s)
    else if next.nHeight ≥ params.workComputationChangeTarget then
      let found := s.lookups params header prev pprev
      (getNextWorkRequired pprev header.nTime params header.getAlgo (some found.2)).bind
        fun nBits =>
        if header.nBits ≠ nBits then some (none, found.1)
        else
          (getBlockProof next pprev params (some found.2)).map fun work =>
            (some work, found.1.advance params next prev)
    else
      (getBlockProof next pprev params (some fun _ => none)).map fun work =>
        (some work, s.advance params next prev)

end HeadersWorkState

/-! The window shows the difficulty rules what the full chain shows them. -/

section Window

variable (params : PowParams)

private theorem historyLimit_eq : historyLimit params.toParams =
    (NUM_ALGOS * params.nAveragingInterval).toNat + nMedianTimeSpan := by
  have nonneg := params.averaging_nonneg
  unfold historyLimit NUM_ALGOS
  omega

private theorem getMedianTimePast_congr {c c' : Chain}
    (same : c.take nMedianTimeSpan = c'.take nMedianTimeSpan) :
    getMedianTimePast c = getMedianTimePast c' := by
  simp only [getMedianTimePast, same]

private theorem averagedTimespan_window (chain : Chain) (prevAlgo : Option CBlockIndex) :
    averagedTimespan (chain.take (historyLimit params.toParams)) params.toParams prevAlgo =
      averagedTimespan chain params.toParams prevAlgo := by
  have limit := historyLimit_eq params
  have span : nMedianTimeSpan = 11 := rfl
  obtain ⟨n, positive⟩ := Nat.exists_eq_succ_of_ne_zero
    (show historyLimit params.toParams ≠ 0 by omega)
  have within : 0 + nMedianTimeSpan ≤ historyLimit params.toParams := by omega
  have median : getMedianTimePast (chain.take (historyLimit params.toParams)) =
      getMedianTimePast chain := by
    apply getMedianTimePast_congr
    simpa using take_drop_take chain within
  have startMedian :
      getMedianTimePast (averagingStart (chain.take (historyLimit params.toParams))
        params.toParams) =
        getMedianTimePast (averagingStart chain params.toParams) := by
    apply getMedianTimePast_congr
    exact take_drop_take chain limit.ge
  have startNil : averagingStart (chain.take (historyLimit params.toParams)) params.toParams = [] ↔
      averagingStart chain params.toParams = [] := by
    apply drop_take_eq_nil_iff
    omega
  rcases chain with _ | ⟨last, older⟩
  · rw [List.take_nil]
  · rw [positive, List.take_succ_cons] at median startMedian startNil ⊢
    unfold averagedTimespan
    cases prevAlgo with
    | none => rfl
    | some block =>
      -- both intervals begin before the genesis block, or neither does
      rcases start : averagingStart (last :: older) params.toParams with _ | ⟨first, rest⟩ <;>
        rcases start' : averagingStart (last :: older.take n) params.toParams with
          _ | ⟨first', rest'⟩
      · rfl
      · simp [start, start'] at startNil
      · simp [start, start'] at startNil
      · rw [start, start'] at startMedian
        simp only [median, startMedian]

private theorem latest_unknown (pow : Params) (chain : Chain) :
    getLastBlockIndexForAlgo chain pow none = [] := by
  unfold getLastBlockIndexForAlgo
  induction chain with
  | nil => rfl
  | cons index pprev ih => simpa [latest, countsFor] using ih

/-- The previous blocks supplied for an algorithm are those of the full chain. -/
def Supplies (blocks : PreviousAlgoBlocks) (chain : Chain) (pow : Params)
    (algo : Option Algo) : Prop :=
  ∀ a, algo = some a → blocks a = (getLastBlockIndexForAlgo chain pow algo).head?

private theorem previousAlgoBlock_supplied {blocks : PreviousAlgoBlocks} {chain : Chain}
    {pow : Params}
    {algo : Option Algo} (supplied : Supplies blocks chain pow algo) (window : Chain) :
    previousAlgoBlock window pow algo (some blocks) = previousAlgoBlock chain pow algo none := by
  cases algo with
  | none => simp only [previousAlgoBlock, latest_unknown]
  | some a => exact supplied a rfl

/-- The heights from which on only the last two rules and their inputs matter. -/
structure WorkFromRecent (pow : Params) : Prop where
  multiAlgo_lt : pow.multiAlgoDiffChangeTarget < pow.workComputationChangeTarget
  alwaysUpdate_lt : pow.alwaysUpdateDiffChangeTarget < pow.workComputationChangeTarget

variable {params} {prev : CBlockIndex} {older window : Chain} {nTime : UInt32}
  {blocks : PreviousAlgoBlocks}

private theorem getNextWorkRequired_window {algo : Option Algo}
    (order : WorkFromRecent params.toParams)
    (high : params.workComputationChangeTarget ≤ prev.nHeight + 1)
    (recent : prev :: window = (prev :: older).take (historyLimit params.toParams))
    (supplied : allowsMinimum params.toParams nTime prev = false →
      Supplies blocks (prev :: older) params.toParams algo) :
    getNextWorkRequired (prev :: window) nTime params.toParams algo (some blocks) =
      getNextWorkRequired (prev :: older) nTime params.toParams algo none := by
  have beyondV1 : ¬ prev.nHeight < params.multiAlgoDiffChangeTarget := by
    have := order.multiAlgo_lt
    omega
  have beyondV2 : ¬ prev.nHeight < params.alwaysUpdateDiffChangeTarget := by
    have := order.alwaysUpdate_lt
    omega
  unfold getNextWorkRequired
  cases minimum : allowsMinimum params.toParams nTime prev with
  | true => simp only [minimum, if_true]
  | false =>
    have timespan := averagedTimespan_window params (prev :: older)
    simp only [← recent] at timespan
    simp only [minimum, Bool.false_eq_true, if_false, beyondV1, beyondV2,
      previousAlgoBlock_supplied (supplied minimum), getNextWorkRequiredV3, getNextWorkRequiredV4,
      timespan]

private theorem getNextWorkRequired_isSome (order : WorkFromRecent params.toParams)
    (high : params.workComputationChangeTarget ≤ prev.nHeight + 1) (older : Chain) (nTime : UInt32)
    (algo : Option Algo) (found : Option PreviousAlgoBlocks) :
    ∃ nBits, getNextWorkRequired (prev :: older) nTime params.toParams algo found = some nBits := by
  have beyondV1 : ¬ prev.nHeight < params.multiAlgoDiffChangeTarget := by
    have := order.multiAlgo_lt
    omega
  unfold getNextWorkRequired
  simp only [beyondV1, if_false]
  split_ifs
  all_goals exact ⟨_, rfl⟩

/-- The blocks supplied for a header: those of the active algorithms. -/
def SuppliesActive (blocks : PreviousAlgoBlocks) (chain : Chain) (pow : Params) : Prop :=
  ∀ a, isAlgoActive chain pow a = true → Supplies blocks chain pow (some a)

private theorem geometricTarget_window (order : WorkFromRecent params.toParams)
    (high : params.workComputationChangeTarget ≤ prev.nHeight + 1)
    (recent : prev :: window = (prev :: older).take (historyLimit params.toParams))
    (supplied : allowsMinimum params.toParams nTime prev = false →
      SuppliesActive blocks (prev :: older) params.toParams) (algos : List Algo) :
    ∀ bnAvgTarget,
      geometricTarget (prev :: window) nTime params.toParams (some blocks) algos bnAvgTarget =
        geometricTarget (prev :: older) nTime params.toParams none algos bnAvgTarget := by
  induction algos with
  | nil => exact fun _ => rfl
  | cons algo rest ih =>
    intro bnAvgTarget
    have sameActive : isAlgoActive (prev :: window) params.toParams algo =
        isAlgoActive (prev :: older) params.toParams algo := rfl
    unfold geometricTarget
    rw [sameActive]
    cases active : isAlgoActive (prev :: older) params.toParams algo with
    | false => simpa using ih bnAvgTarget
    | true =>
      rw [getNextWorkRequired_window order high recent
        fun plain => supplied plain algo active]
      simp only [ih]

private theorem geometricTarget_isSome {found : Option PreviousAlgoBlocks}
    (order : WorkFromRecent params.toParams)
    (high : params.workComputationChangeTarget ≤ prev.nHeight + 1) (algos : List Algo) :
    ∀ bnAvgTarget, ∃ result,
      geometricTarget (prev :: older) nTime params.toParams found algos bnAvgTarget =
        some result := by
  induction algos with
  | nil => exact fun bnAvgTarget => ⟨_, rfl⟩
  | cons algo rest ih =>
    intro bnAvgTarget
    unfold geometricTarget
    split_ifs
    · exact ih bnAvgTarget
    · obtain ⟨nBits, required⟩ :=
        getNextWorkRequired_isSome order high older nTime (some algo) found
      rw [required, Option.bind_some]
      dsimp only
      split_ifs
      · exact ⟨_, rfl⟩
      · exact ih _

private theorem getBlockProof_window (next : CBlockIndex) (order : WorkFromRecent params.toParams)
    (above : next.nHeight = prev.nHeight + 1)
    (recent : prev :: window = (prev :: older).take (historyLimit params.toParams))
    (supplied : params.workComputationChangeTarget ≤ next.nHeight →
      allowsMinimum params.toParams next.nTime prev = false →
      SuppliesActive blocks (prev :: older) params.toParams) :
    getBlockProof next (prev :: window) params.toParams (some blocks) =
      getBlockProof next (prev :: older) params.toParams none := by
  unfold getBlockProof
  split_ifs with low
  · rfl
  · have high : params.workComputationChangeTarget ≤ next.nHeight := not_lt.mp low
    rw [geometricTarget_window order (above ▸ high) recent (supplied high)]

private theorem getBlockProof_isSome {next : CBlockIndex} (order : WorkFromRecent params.toParams)
    (high : params.workComputationChangeTarget ≤ prev.nHeight + 1) (older : Chain)
    (found : Option PreviousAlgoBlocks) :
    ∃ work, getBlockProof next (prev :: older) params.toParams found = some work := by
  unfold getBlockProof
  split_ifs
  · exact ⟨_, rfl⟩
  · obtain ⟨result, computed⟩ := geometricTarget_isSome order high Algo.all 1
    exact ⟨_, by rw [computed, Option.map_some]⟩

end Window

/-! The slots follow the latest block of each algorithm. -/

section Slots

open HeadersWorkState

variable {params : PowParams} {start chain : Chain} {s : HeadersWorkState}

/-- What the three arrays say about an algorithm. -/
def HeadersWorkState.slot (s : HeadersWorkState) : Cache Algo CBlockIndex := fun algo =>
  if s.m_initialized algo then
    some (if s.m_present algo then some (s.m_previous_algos algo) else none)
  else none

/-- The state after the headers that extend `start` to `chain`. -/
structure Follows (pow : Params) (start chain : Chain) (s : HeadersWorkState) : Prop where
  chain_start : s.m_chain_start = start
  recent : s.m_recent = chain.take (historyLimit pow)
  present_initialized : ∀ algo, s.m_present algo = true → s.m_initialized algo = true
  tracks : Tracks (fun algo => countsFor pow (some algo)) start chain s.slot

theorem follows_start (pow : Params) (start : Chain) :
    Follows pow start start (HeadersWorkState.start pow start) where
  chain_start := rfl
  recent := rfl
  present_initialized := fun _ present => present
  tracks := tracks_start

private theorem seed_initialized (s : HeadersWorkState) (pow : Params) (algo : Algo) :
    (s.seed pow algo).m_initialized algo = true := by
  unfold seed
  split_ifs with known
  · exact known
  · split <;> simp

private theorem seed_slot {pow : Params} (follows : Follows pow start chain s) (algo k : Algo) :
    (s.seed pow algo).slot k = s.slot k ∨
      s.slot k = none ∧
        (s.seed pow algo).slot k = some (latest (countsFor pow (some k)) start).head? := by
  unfold seed
  cases known : s.m_initialized algo with
  | true => exact .inl rfl
  | false =>
    by_cases here : k = algo
    · subst here
      have absent : s.m_present k = false := by
        by_contra present
        have := follows.present_initialized k (by simpa using present)
        simp [known] at this
      refine .inr ⟨by simp [slot, known], ?_⟩
      rw [follows.chain_start]
      cases found : getLastBlockIndexForAlgo start pow (some k) with
      | nil => simp [slot, absent, show latest (countsFor pow (some k)) start = [] from found]
      | cons previous rest =>
        simp [slot, show latest (countsFor pow (some k)) start = previous :: rest from found]
    · refine .inl ?_
      cases getLastBlockIndexForAlgo s.m_chain_start pow (some algo) with
      | nil => simp [slot, Function.update_of_ne here]
      | cons previous rest => simp [slot, Function.update_of_ne here]

private theorem seed_frame (s : HeadersWorkState) (pow : Params) (algo : Algo) :
    (s.seed pow algo).m_chain_start = s.m_chain_start ∧
    (s.seed pow algo).m_recent = s.m_recent := by
  unfold seed
  split_ifs
  · exact ⟨rfl, rfl⟩
  · split <;> exact ⟨rfl, rfl⟩

private theorem seed_present {pow : Params} (follows : Follows pow start chain s) (algo k : Algo)
    (present : (s.seed pow algo).m_present k = true) :
    (s.seed pow algo).m_initialized k = true := by
  by_cases here : k = algo
  · rw [here]
    exact seed_initialized s pow algo
  · have kept : s.m_present k = true → s.m_initialized k = true := follows.present_initialized k
    revert present
    unfold seed
    split_ifs
    · exact kept
    · split <;> simpa [Function.update_of_ne here] using kept

private theorem Follows.seed {pow : Params} (follows : Follows pow start chain s) (algo : Algo) :
    Follows pow start chain (s.seed pow algo) where
  chain_start := (seed_frame s pow algo).1.trans follows.chain_start
  recent := (seed_frame s pow algo).2.trans follows.recent
  present_initialized := seed_present follows algo
  tracks := follows.tracks.seed (seed_slot follows algo)

private theorem Follows.latest_of_initialized {pow : Params} (follows : Follows pow start chain s)
    {algo : Algo} (known : s.m_initialized algo = true) :
    (getLastBlockIndexForAlgo chain pow (some algo)).head? =
      if s.m_present algo then some (s.m_previous_algos algo) else none := by
  have tracked := follows.tracks algo
  simpa [slot, known, getLastBlockIndexForAlgo] using tracked

/-- The algorithms whose previous blocks a header needs. -/
private def Needed (pow : Params) (header_algo : Option Algo) (pprev : Chain)
    (algo : Algo) : Prop :=
  isAlgoActive pprev pow algo = true ∨ some algo = header_algo

private theorem collect_follows {pow : Params} {header_algo : Option Algo} {pprev : Chain}
    (algos : List Algo) {blocks : PreviousAlgoBlocks} (follows : Follows pow start chain s) :
    Follows pow start chain (collect pow header_algo pprev algos (s, blocks)).1 := by
  induction algos generalizing s blocks with
  | nil => exact follows
  | cons algo rest ih =>
    unfold collect
    split_ifs
    · exact ih follows
    · exact ih (follows.seed algo)

/-- Supplied blocks are right or missing. -/
private def Partial (blocks : PreviousAlgoBlocks) (chain : Chain) (pow : Params) : Prop :=
  ∀ k, blocks k = none ∨ Supplies blocks chain pow (some k)

private theorem supply_other {algo k : Algo} (other : k ≠ algo) (blocks : PreviousAlgoBlocks) :
    s.supply algo blocks k = blocks k := by
  unfold supply
  split_ifs
  · exact Function.update_of_ne other _ _
  · rfl

private theorem supply_same {pow : Params} {algo : Algo} {blocks : PreviousAlgoBlocks}
    (follows : Follows pow start chain s) (known : s.m_initialized algo = true)
    (partly : Partial blocks chain pow) :
    Supplies (s.supply algo blocks) chain pow (some algo) := by
  intro a same
  cases same
  have answer := follows.latest_of_initialized known
  unfold supply
  split_ifs with present
  · rw [answer, if_pos present, Function.update_self]
  · rcases partly algo with missing | supplied
    · rw [answer, if_neg present, missing]
    · exact supplied algo rfl

private theorem collect_supplies {pow : Params} {header_algo : Option Algo} {pprev : Chain}
    (algos : List Algo) {blocks : PreviousAlgoBlocks} (follows : Follows pow start chain s)
    (partly : Partial blocks chain pow) {k : Algo}
    (reached : k ∈ algos ∧ Needed pow header_algo pprev k ∨ Supplies blocks chain pow (some k)) :
    Supplies (collect pow header_algo pprev algos (s, blocks)).2 chain pow (some k) := by
  induction algos generalizing s blocks with
  | nil => exact reached.resolve_left (by simp)
  | cons algo rest ih =>
    unfold collect
    split_ifs with skipped
    · refine ih follows partly (reached.imp_left ?_)
      rintro ⟨mem, needed⟩
      refine ⟨(List.mem_cons.mp mem).resolve_left ?_, needed⟩
      rintro rfl
      rcases needed with active | same
      · simp [skipped.1] at active
      · exact skipped.2 same
    · have seeded := follows.seed algo
      have same := supply_same seeded (seed_initialized s pow algo) partly
      have kept {j : Algo} (other : j ≠ algo) (supplied : Supplies blocks chain pow (some j)) :
          Supplies ((s.seed pow algo).supply algo blocks) chain pow (some j) := by
        intro a named
        cases named
        exact (supply_other other blocks).trans (supplied j rfl)
      refine ih seeded (fun j => ?_) ?_
      · by_cases here : j = algo
        · exact .inr (here ▸ same)
        · exact (partly j).imp (supply_other here blocks).trans (kept here)
      · by_cases here : k = algo
        · exact .inr (here ▸ same)
        · exact reached.imp (fun h => ⟨(List.mem_cons.mp h.1).resolve_left here, h.2⟩) (kept here)

private theorem lookups_follows {pow : Params} {header : CBlockHeader} {prev : CBlockIndex}
    {pprev : Chain} (follows : Follows pow start chain s) :
    Follows pow start chain (s.lookups pow header prev pprev).1 := by
  unfold lookups
  split_ifs
  · exact follows
  · exact collect_follows _ follows

private theorem lookups_supplies {pow : Params} {header : CBlockHeader} {prev : CBlockIndex}
    {pprev : Chain} (follows : Follows pow start chain s)
    (plain : allowsMinimum pow header.nTime prev = false) {k : Algo}
    (needed : Needed pow header.getAlgo pprev k) :
    Supplies (s.lookups pow header prev pprev).2 chain pow (some k) := by
  unfold lookups
  rw [plain]
  have every : k ∈ Algo.all := by
    cases k <;> decide
  exact collect_supplies Algo.all follows (fun _ => .inl rfl) (.inl ⟨every, needed⟩)

private theorem record_slot {pow : Params} {next prev : CBlockIndex} {older : Chain} (k : Algo) :
    (s.record pow next prev).slot k =
      if countsFor pow (some k) next (prev :: older) then some (some next) else s.slot k := by
  unfold record countsFor
  cases late : pow.fPowAllowMinDifficultyBlocks && isLate pow next.nTime prev with
  | true => simp
  | false =>
    by_cases here : next.getAlgo = k
    · subst here
      simp [slot]
    · simp [slot, here, Function.update_of_ne (Ne.symm here)]

private theorem record_frame (s : HeadersWorkState) (pow : Params) (next prev : CBlockIndex) :
    (s.record pow next prev).m_chain_start = s.m_chain_start ∧
      (s.record pow next prev).m_recent = s.m_recent := by
  unfold record
  split_ifs <;> exact ⟨rfl, rfl⟩

private theorem record_present {pow : Params} {next prev : CBlockIndex}
    (follows : Follows pow start chain s) (k : Algo)
    (present : (s.record pow next prev).m_present k = true) :
    (s.record pow next prev).m_initialized k = true := by
  have kept : s.m_present k = true → s.m_initialized k = true := follows.present_initialized k
  revert present
  unfold record
  split_ifs
  · exact kept
  · by_cases here : k = next.getAlgo
    · simp [here]
    · simpa [Function.update_of_ne here] using kept

private theorem Follows.advance {pow : Params} {next prev : CBlockIndex} {older : Chain}
    (follows : Follows pow start (prev :: older) s) :
    Follows pow start (next :: prev :: older) (s.advance pow next prev) where
  chain_start := (record_frame s pow next prev).1.trans follows.chain_start
  recent := by
    have window : (s.advance pow next prev).m_recent =
        (next :: (s.record pow next prev).m_recent).take (historyLimit pow) := rfl
    rw [window, (record_frame s pow next prev).2, follows.recent, take_cons_take]
  present_initialized := record_present follows
  tracks := follows.tracks.push record_slot

end Slots

/-! Runs of accepted headers. -/

section Runs

open HeadersWorkState

variable {params : PowParams} {start older : Chain} {prev : CBlockIndex} {s s' : HeadersWorkState}
  {header : CBlockHeader} {work : ArithUint256}

private theorem addHeader_eq_some {pow : Params} {window : Chain}
    (recent : s.m_recent = prev :: window) (added : s.addHeader pow header = some (some work, s')) :
    (pow.workComputationChangeTarget ≤ prev.nHeight + 1 ∧
      getNextWorkRequired (prev :: window) header.nTime pow header.getAlgo
          (some (s.lookups pow header prev (prev :: window)).2) = some header.nBits ∧
      getBlockProof (header.toIndex prev) (prev :: window) pow
          (some (s.lookups pow header prev (prev :: window)).2) = some work ∧
      s' = (s.lookups pow header prev (prev :: window)).1.advance pow (header.toIndex prev) prev) ∨
    (prev.nHeight + 1 < pow.workComputationChangeTarget ∧
      getBlockProof (header.toIndex prev) (prev :: window) pow (some fun _ => none) = some work ∧
      s' = s.advance pow (header.toIndex prev) prev) := by
  unfold addHeader at added
  simp only [recent] at added
  split_ifs at added with range full refused high
  · cases added
  · cases added
  · cases added
  · obtain ⟨nBits, required, added⟩ := Option.bind_eq_some_iff.mp added
    split_ifs at added with differs
    · cases added
    · obtain ⟨w, proof, result⟩ := Option.map_eq_some_iff.mp added
      simp only [Prod.mk.injEq, Option.some.injEq] at result
      obtain ⟨rfl, rfl⟩ := result
      exact .inl ⟨high, by rw [required, not_not.mp differs], proof, rfl⟩
  · obtain ⟨w, proof, result⟩ := Option.map_eq_some_iff.mp added
    simp only [Prod.mk.injEq, Option.some.injEq] at result
    obtain ⟨rfl, rfl⟩ := result
    exact .inr ⟨not_le.mp high, proof, rfl⟩

private theorem addHeader_of_required {pow : Params} {window : Chain} {algo : Algo}
    (recent : s.m_recent = prev :: window) (range : checkProofOfWork 0 header.nBits pow = true)
    (small : prev.nHeight < INT_MAX) (named : header.getAlgo = some algo)
    (active : isAlgoActive (prev :: window) pow algo = true)
    (high : pow.workComputationChangeTarget ≤ prev.nHeight + 1)
    (required : getNextWorkRequired (prev :: window) header.nTime pow header.getAlgo
      (some (s.lookups pow header prev (prev :: window)).2) = some header.nBits)
    (proof : getBlockProof (header.toIndex prev) (prev :: window) pow
      (some (s.lookups pow header prev (prev :: window)).2) = some work) :
    ∃ s', s.addHeader pow header = some (some work, s') := by
  have permitted : refusesAlgo pow header prev (prev :: window) = false := by
    simp [refusesAlgo, named, active]
  have above : (header.toIndex prev).nHeight ≥ pow.workComputationChangeTarget := high
  refine ⟨(s.lookups pow header prev (prev :: window)).1.advance pow (header.toIndex prev) prev, ?_⟩
  simp only [addHeader, recent, range, Bool.true_eq_false, if_false, small.ne, permitted,
    Bool.false_eq_true, above, if_true, required, proof, Option.bind_some, Option.map_some, ne_eq,
    not_true_eq_false]

private theorem Follows.window (follows : Follows params.toParams start (prev :: older) s) :
    ∃ window, s.m_recent = prev :: window ∧
      prev :: window = (prev :: older).take (historyLimit params.toParams) := by
  have span : nMedianTimeSpan = 11 := rfl
  have limit := historyLimit_eq params
  obtain ⟨n, positive⟩ := Nat.exists_eq_succ_of_ne_zero
    (show historyLimit params.toParams ≠ 0 by omega)
  refine ⟨older.take n, ?_, ?_⟩
  · rw [follows.recent, positive, List.take_succ_cons]
  · rw [positive, List.take_succ_cons]

private theorem addHeader_work (order : WorkFromRecent params.toParams)
    (follows : Follows params.toParams start (prev :: older) s)
    (added : s.addHeader params.toParams header = some (some work, s')) :
    getBlockProof (header.toIndex prev) (prev :: older) params.toParams none = some work ∧
      Follows params.toParams start (header.toIndex prev :: prev :: older) s' := by
  obtain ⟨window, shown, recent⟩ := follows.window
  rcases addHeader_eq_some shown added with ⟨high, _, proof, rfl⟩ | ⟨low, proof, rfl⟩
  · have supplied (plain : allowsMinimum params.toParams header.nTime prev = false) :
        SuppliesActive (s.lookups params.toParams header prev (prev :: window)).2 (prev :: older)
          params.toParams :=
      fun a active => lookups_supplies follows plain (.inl active)
    have same := getBlockProof_window (header.toIndex prev) order rfl recent fun _ => supplied
    exact ⟨same.symm.trans proof, (lookups_follows follows).advance⟩
  · have same : getBlockProof (header.toIndex prev) (prev :: window) params.toParams
        (some fun _ => none) = getBlockProof (header.toIndex prev) (prev :: older)
          params.toParams none :=
      getBlockProof_window (header.toIndex prev) order rfl recent
        fun high => absurd (show _ ≤ prev.nHeight + 1 from high) (not_le.mpr low)
    exact ⟨same.symm.trans proof, follows.advance⟩

private theorem addHeader_accepts_iff {algo : Algo} (order : WorkFromRecent params.toParams)
    (follows : Follows params.toParams start (prev :: older) s)
    (range : checkProofOfWork 0 header.nBits params.toParams = true)
    (small : prev.nHeight < INT_MAX) (named : header.getAlgo = some algo)
    (active : isAlgoActive (prev :: older) params.toParams algo = true)
    (high : params.workComputationChangeTarget ≤ prev.nHeight + 1) :
    (∃ work s', s.addHeader params.toParams header = some (some work, s')) ↔
      getNextWorkRequired (prev :: older) header.nTime params.toParams header.getAlgo none =
        some header.nBits := by
  obtain ⟨window, shown, recent⟩ := follows.window
  have supplied (plain : allowsMinimum params.toParams header.nTime prev = false) :
      Supplies (s.lookups params.toParams header prev (prev :: window)).2 (prev :: older)
        params.toParams header.getAlgo :=
    named ▸ lookups_supplies follows plain (.inr named.symm)
  have same := getNextWorkRequired_window order high recent supplied
  constructor
  · rintro ⟨work, s', added⟩
    rcases addHeader_eq_some shown added with ⟨_, required, _⟩ | ⟨low, _⟩
    · exact same.symm.trans required
    · omega
  · intro required
    obtain ⟨work, proof⟩ := getBlockProof_isSome order high window
      (some (s.lookups params.toParams header prev (prev :: window)).2)
    exact ⟨work, addHeader_of_required shown range small named active high
      (same.trans required) proof⟩

/-- The state after headers that were all accepted. -/
def HeadersWorkState.addHeaders (s : HeadersWorkState) (pow : Params) :
    List CBlockHeader → Option HeadersWorkState
  | [] => some s
  | header :: rest =>
    match s.addHeader pow header with
    | some (some _, s') => s'.addHeaders pow rest
    | _ => none

/-- The full chain above the block `prev` with these headers. -/
def extendChain (prev : CBlockIndex) (older : Chain) : List CBlockHeader → CBlockIndex × Chain
  | [] => (prev, older)
  | header :: rest => extendChain (header.toIndex prev) (prev :: older) rest

/-- What the state says about the next header, against the full chain. -/
structure WorkAgrees (pow : Params) (s : HeadersWorkState) (prev : CBlockIndex) (older : Chain)
    (header : CBlockHeader) : Prop where
  work : ∀ work s', s.addHeader pow header = some (some work, s') →
    getBlockProof (header.toIndex prev) (prev :: older) pow none = some work
  accepts : ∀ algo, pow.workComputationChangeTarget ≤ (header.toIndex prev).nHeight →
    checkProofOfWork 0 header.nBits pow = true → header.getAlgo = some algo →
    isAlgoActive (prev :: older) pow algo = true → prev.nHeight < INT_MAX →
      ((∃ work s', s.addHeader pow header = some (some work, s')) ↔
        getNextWorkRequired (prev :: older) header.nTime pow header.getAlgo none =
          some header.nBits)

/-- Bounded-memory header work is full-chain work, for every chain and every run. -/
def HeaderWorkExact (pow : Params) : Prop :=
  ∀ (tip : CBlockIndex) (below : Chain) (headers : List CBlockHeader) (header : CBlockHeader)
    (s : HeadersWorkState), (HeadersWorkState.start pow (tip :: below)).addHeaders pow headers =
      some s →
      WorkAgrees pow s (extendChain tip below headers).1 (extendChain tip below headers).2 header

private theorem addHeaders_follows (order : WorkFromRecent params.toParams)
    (headers : List CBlockHeader) (follows : Follows params.toParams start (prev :: older) s)
    (accepted : s.addHeaders params.toParams headers = some s') :
    Follows params.toParams start
      ((extendChain prev older headers).1 :: (extendChain prev older headers).2) s' := by
  induction headers generalizing s prev older with
  | nil =>
    cases accepted
    exact follows
  | cons header rest ih =>
    unfold HeadersWorkState.addHeaders at accepted
    split at accepted
    · next added => exact ih (addHeader_work order follows added).2 accepted
    · cases accepted

/-- Where the two older rules end below the change of the work computation, the window
and the slots are enough. -/
theorem headerWorkExact_of_order (params : PowParams) (order : WorkFromRecent params.toParams) :
    HeaderWorkExact params.toParams := by
  intro tip below headers header s accepted
  have follows :=
    addHeaders_follows order headers (follows_start params.toParams (tip :: below)) accepted
  constructor
  · intro work s' added
    exact (addHeader_work order follows added).1
  · intro algo high range named active small
    exact addHeader_accepts_iff order follows range small named active high

end Runs

theorem mainnet_headerWorkExact : HeaderWorkExact mainPowParams.toParams :=
  headerWorkExact_of_order mainPowParams ⟨by decide, by decide⟩

namespace Sample

/-- The second rule still applies to the parent of the first block with new work. -/
def lateUpdateParams : PowParams where
  powLimit := 2 ^ 236 - 1
  alwaysUpdateDiffChangeTarget := 71
  workComputationChangeTarget := 71
  algoSwapChangeTarget := 1000
  averaging_nonneg := by decide
  intervals_ne_zero := by decide
  divisors_ne_zero := by decide

/-- The first rule still applies to that parent, with an interval of 70 blocks. -/
def longIntervalParams : PowParams where
  powLimit := 2 ^ 236 - 1
  nIntervalRe := 70
  multiAlgoDiffChangeTarget := 70
  alwaysUpdateDiffChangeTarget := 60
  workComputationChangeTarget := 70
  averaging_nonneg := by decide
  intervals_ne_zero := by decide
  divisors_ne_zero := by decide

/-- Ten SHA256D blocks below Scrypt blocks. -/
def block (height : ℕ) : CBlockIndex where
  nHeight := height
  nVersion := if height < 10 then 0x0200 else 0x0000
  nTime := UInt32.ofNat (15 * height)
  nBits := 0x1b0404cb

def below (height : ℕ) : Chain := ((List.range height).map block).reverse

/-- A SHA256D header with the difficulty that the full chain requires. -/
def header : CBlockHeader where
  nVersion := 0x0200
  nTime := 1065
  nBits := 0x1b033708

/-- A Scrypt header with the difficulty that the full chain requires. -/
def scryptHeader : CBlockHeader where
  nVersion := 0x0000
  nTime := 1065
  nBits := 0x1b060730

private theorem not_headerWorkExact {pow : Params} {tip : CBlockIndex} {older : Chain}
    {next : CBlockHeader} {algo : Algo}
    (high : pow.workComputationChangeTarget ≤ (next.toIndex tip).nHeight)
    (inRange : checkProofOfWork 0 next.nBits pow = true) (known : next.getAlgo = some algo)
    (active : isAlgoActive (tip :: older) pow algo = true) (room : tip.nHeight < INT_MAX)
    (required : getNextWorkRequired (tip :: older) next.nTime pow next.getAlgo none =
      some next.nBits)
    (refused : ((HeadersWorkState.start pow (tip :: older)).addHeader pow next).bind Prod.fst =
      none) :
    ¬ HeaderWorkExact pow := by
  intro equal
  have agrees := equal tip older [] next _ rfl
  obtain ⟨work, s', added⟩ := (agrees.accepts algo high inRange known active room).mpr required
  rw [added] at refused
  cases refused

/-- At equality with either of the older heights the window hides blocks that the older rule
needs: the second rule misses the block of the algorithm and refuses the header, and the first
rule fails its assertion. -/
theorem headerWork_inexact_at_equality :
    (lateUpdateParams.multiAlgoDiffChangeTarget < lateUpdateParams.workComputationChangeTarget ∧
      lateUpdateParams.alwaysUpdateDiffChangeTarget ≤ lateUpdateParams.workComputationChangeTarget ∧
      ¬ HeaderWorkExact lateUpdateParams.toParams) ∧
    (longIntervalParams.multiAlgoDiffChangeTarget ≤ longIntervalParams.workComputationChangeTarget ∧
      longIntervalParams.alwaysUpdateDiffChangeTarget <
        longIntervalParams.workComputationChangeTarget ∧
      ¬ HeaderWorkExact longIntervalParams.toParams) := by
  have late : ¬ HeaderWorkExact lateUpdateParams.toParams :=
    @not_headerWorkExact _ (block 70) (below 70) header .sha256d (by decide) (by decide +kernel) rfl
      (by decide) (by decide) (by decide +kernel) (by decide +kernel)
  have long : ¬ HeaderWorkExact longIntervalParams.toParams :=
    @not_headerWorkExact _ (block 69) (below 69) scryptHeader .scrypt (by decide)
      (by decide +kernel) rfl (by decide) (by decide) (by decide +kernel) (by decide +kernel)
  exact ⟨⟨by decide, by decide, late⟩, by decide, by decide, long⟩

end Sample

end DigiByte.Pow
