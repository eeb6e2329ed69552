import DigiByte.Library.AcceptAll
import DigiByte.Pow.HeadersWork

/-!
Headers of a low-work chain, downloaded twice (`HeadersSyncState` of `headerssync.cpp`).

In the first pass only one bit is kept of every 606th header. In the second pass the headers are
compared with these bits and held back until enough of them lie on top, or until the work that
was asked for has been seen again. A failed assertion of the difficulty rules is `none`.
-/

set_option autoImplicit false
set_option relaxedAutoImplicit false

namespace DigiByte.Pow

open Arith (ArithUint256 setCompact getCompact word)
open Consensus (Params)
open Library.AcceptAll (acceptAll)

def HEADER_COMMITMENT_PERIOD : ℕ := 606
def REDOWNLOAD_BUFFER_SIZE : ℕ := 14441
def MAX_FUTURE_BLOCK_TIME : ℤ := 2 * 60 * 60

/-- All fields of a block header. -/
structure FullHeader extends CBlockHeader where
  hashPrevBlock : ℕ
  hashMerkleRoot : ℕ
  nNonce : UInt32
  deriving DecidableEq, Repr

/-- A header without the hash of the block before it. -/
structure CompressedHeader extends CBlockHeader where
  hashMerkleRoot : ℕ
  nNonce : UInt32
  deriving DecidableEq, Repr

def FullHeader.compress (header : FullHeader) : CompressedHeader where
  toCBlockHeader := header.toCBlockHeader
  hashMerkleRoot := header.hashMerkleRoot
  nNonce := header.nNonce

def CompressedHeader.getFullHeader (header : CompressedHeader)
    (hash_prev_block : ℕ) : FullHeader where
  toCBlockHeader := header.toCBlockHeader
  hashPrevBlock := hash_prev_block
  hashMerkleRoot := header.hashMerkleRoot
  nNonce := header.nNonce

/-- Two weeks, on every network. -/
def nPowTargetTimespan : ℤ := 14 * 24 * 60 * 60

/-- A target scaled by a timespan, cut at the limit and rounded. -/
def roundedTarget (params : Params) (nBits : UInt32) (timespan : ℤ) : ArithUint256 :=
  let target := (setCompact nBits).target * word timespan / word nPowTargetTimespan
  let pow_limit : ArithUint256 := BitVec.ofNat 256 params.powLimit
  (setCompact (getCompact (if target > pow_limit then pow_limit else target))).target

def permittedDifficultyTransition (params : Params) (height : ℤ)
    (old_nbits new_nbits : UInt32) : Bool :=
  if params.fPowAllowMinDifficultyBlocks then true
  else if params.nPowTargetSpacing = 15 then true
  else if height % (nPowTargetTimespan / params.nPowTargetSpacing) = 0 then
    let observed_new_target := (setCompact new_nbits).target
    if roundedTarget params old_nbits (nPowTargetTimespan * 4) < observed_new_target then false
    else if roundedTarget params old_nbits (nPowTargetTimespan / 4) > observed_new_target then false
    else true
  else old_nbits = new_nbits

/-- What the object is constructed from: the block that the headers build on with its chain, its
header and its work, the hash functions and the clock. The salted hasher gives the last bit. -/
structure SyncStart where
  m_consensus_params : Params
  m_chain_start : CBlockIndex
  below : Chain
  header : FullHeader
  chainWork : ArithUint256
  m_minimum_required_work : ArithUint256
  m_commit_offset : ℕ
  offset_lt : m_commit_offset < HEADER_COMMITMENT_PERIOD
  adjustedTime : ℤ
  getHash : FullHeader → ℕ
  m_hasher : ℕ → Bool

/-- Six blocks a second since the median time of the start; the division is unsigned. -/
def SyncStart.m_max_commitments (start : SyncStart) : ℕ :=
  ((6 * (start.adjustedTime - getMedianTimePast (start.m_chain_start :: start.below) +
    MAX_FUTURE_BLOCK_TIME)) %
    2 ^ 64).toNat / HEADER_COMMITMENT_PERIOD

/-- Whether a header at this height is committed to. -/
def SyncStart.commits (start : SyncStart) (height : ℤ) : Bool :=
  height % HEADER_COMMITMENT_PERIOD = start.m_commit_offset

inductive SyncPhase where
  | presync
  | redownload
  | final
  deriving DecidableEq, Repr

structure HeadersSyncState where
  m_download_state : SyncPhase
  m_header_work : Option HeadersWorkState
  m_current_chain_work : ArithUint256
  m_header_commitments : List Bool
  m_last_header_received : FullHeader
  m_current_height : ℤ
  m_redownloaded_headers : List CompressedHeader
  m_redownload_buffer_last_height : ℤ
  m_redownload_buffer_last_hash : ℕ
  m_redownload_buffer_first_prev_hash : ℕ
  m_redownload_chain_work : ArithUint256
  m_process_all_remaining_headers : Bool

structure ProcessingResult where
  pow_validated_headers : List FullHeader := []
  success : Bool := false
  request_more : Bool := false

/-- A header with all fields null. -/
def FullHeader.null : FullHeader where
  nVersion := 0
  nTime := 0
  nBits := 0
  hashPrevBlock := 0
  hashMerkleRoot := 0
  nNonce := 0

namespace HeadersSyncState

variable (start : SyncStart)

def new : HeadersSyncState where
  m_download_state := .presync
  m_header_work := some (.start start.m_consensus_params (start.m_chain_start :: start.below))
  m_current_chain_work := start.chainWork
  m_header_commitments := []
  m_last_header_received := start.header
  m_current_height := start.m_chain_start.nHeight
  m_redownloaded_headers := []
  m_redownload_buffer_last_height := 0
  m_redownload_buffer_last_hash := 0
  m_redownload_buffer_first_prev_hash := 0
  m_redownload_chain_work := 0
  m_process_all_remaining_headers := false

def finalize (s : HeadersSyncState) : HeadersSyncState :=
  { s with
    m_header_commitments := []
    m_last_header_received := .null
    m_redownloaded_headers := []
    m_header_work := none
    m_redownload_buffer_last_hash := 0
    m_redownload_buffer_first_prev_hash := 0
    m_process_all_remaining_headers := false
    m_current_height := 0
    m_download_state := .final }

/-- The work of the next header, with the state that the calculation leaves. -/
def addHeader (s : HeadersSyncState) (header : FullHeader) :
    Option (Option ArithUint256 × HeadersSyncState) :=
  match s.m_header_work with
  | none => none
  | some header_work =>
    (header_work.addHeader start.m_consensus_params header.toCBlockHeader).map fun added =>
      (added.1, { s with m_header_work := some added.2 })

/-- The commitment that the first pass stores. -/
def storeCommitment (s : HeadersSyncState) (current : FullHeader) : HeadersSyncState :=
  if start.commits (s.m_current_height + 1) then
    { s with m_header_commitments := s.m_header_commitments ++
      [start.m_hasher (start.getHash current)] }
  else s

def validateAndProcessSingleHeader (s : HeadersSyncState) (current : FullHeader) :
    Option (Bool × HeadersSyncState) :=
  if s.m_download_state ≠ .presync then some (false, s)
  else if permittedDifficultyTransition start.m_consensus_params (s.m_current_height + 1)
      s.m_last_header_received.nBits current.nBits = false then some (false, s)
  else
    let stored := s.storeCommitment start current
    if start.commits (s.m_current_height + 1) ∧
      stored.m_header_commitments.length > start.m_max_commitments then
      some (false, stored)
    else
      (stored.addHeader start current).map fun added =>
        match added.1 with
        | none => (false, added.2)
        | some work =>
          (true, { added.2 with
            m_current_chain_work := s.m_current_chain_work + work
            m_last_header_received := current
            m_current_height := s.m_current_height + 1 })

/-- The start of the second pass. -/
def redownload (s : HeadersSyncState) : HeadersSyncState :=
  { s with
    m_redownloaded_headers := []
    m_redownload_buffer_last_height := start.m_chain_start.nHeight
    m_redownload_buffer_first_prev_hash := start.getHash start.header
    m_redownload_buffer_last_hash := start.getHash start.header
    m_redownload_chain_work := start.chainWork
    m_header_work := some (.start start.m_consensus_params (start.m_chain_start :: start.below))
    m_download_state := .redownload }

def validateAndStoreHeadersCommitments (s : HeadersSyncState) (headers : List FullHeader) :
    Option (Bool × HeadersSyncState) :=
  match headers with
  | [] => some (true, s)
  | first :: _ =>
    if s.m_download_state ≠ .presync then some (false, s)
    else if first.hashPrevBlock ≠ start.getHash s.m_last_header_received then some (false, s)
    else
      (acceptAll (validateAndProcessSingleHeader start) s headers).map fun processed =>
        if processed.1 ∧ processed.2.m_current_chain_work ≥ start.m_minimum_required_work then
          (true, processed.2.redownload start)
        else processed

/-- The bits of the header before the next one of the second pass. -/
def previousBits (s : HeadersSyncState) : UInt32 :=
  match s.m_redownloaded_headers.getLast? with
  | some last => last.nBits
  | none => start.m_chain_start.nBits

/-- The comparison with the stored commitment. -/
def checkCommitment (s : HeadersSyncState) (header : FullHeader) : Bool × HeadersSyncState :=
  if s.m_process_all_remaining_headers = false ∧
    start.commits (s.m_redownload_buffer_last_height + 1) then
    match s.m_header_commitments with
    | [] => (false, s)
    | expected_commitment :: rest =>
      (start.m_hasher (start.getHash header) == expected_commitment,
        { s with m_header_commitments := rest })
  else (true, s)

def validateAndStoreRedownloadedHeader (s : HeadersSyncState) (header : FullHeader) :
    Option (Bool × HeadersSyncState) :=
  if s.m_download_state ≠ .redownload then some (false, s)
  else if header.hashPrevBlock ≠ s.m_redownload_buffer_last_hash then some (false, s)
  else if permittedDifficultyTransition start.m_consensus_params
    (s.m_redownload_buffer_last_height + 1)
      (s.previousBits start) header.nBits = false then some (false, s)
  else
    (s.addHeader start header).map fun added =>
      match added.1 with
      | none => (false, added.2)
      | some work =>
        let total := s.m_redownload_chain_work + work
        let worked := { added.2 with
          m_redownload_chain_work := total
          m_process_all_remaining_headers :=
            s.m_process_all_remaining_headers || total ≥ start.m_minimum_required_work }
        let checked := worked.checkCommitment start header
        if checked.1 = false then checked
        else
          (true, { checked.2 with
            m_redownloaded_headers := s.m_redownloaded_headers ++ [header.compress]
            m_redownload_buffer_last_height := s.m_redownload_buffer_last_height + 1
            m_redownload_buffer_last_hash := start.getHash header })

/-- The headers at the front of the buffer that are ready, those that stay and the hash before
them. -/
def popReady (process_all : Bool) : List CompressedHeader → ℕ →
    List FullHeader × List CompressedHeader × ℕ
  | [], prev => ([], [], prev)
  | front :: rest, prev =>
    if rest.length + 1 > REDOWNLOAD_BUFFER_SIZE ∨ process_all = true then
      let header := front.getFullHeader prev
      let popped := popReady process_all rest (start.getHash header)
      (header :: popped.1, popped.2)
    else ([], front :: rest, prev)

def popHeadersReadyForAcceptance (s : HeadersSyncState) : List FullHeader × HeadersSyncState :=
  if s.m_download_state ≠ .redownload then ([], s)
  else
    let popped := popReady start s.m_process_all_remaining_headers s.m_redownloaded_headers
      s.m_redownload_buffer_first_prev_hash
    (popped.1, { s with
      m_redownloaded_headers := popped.2.1
      m_redownload_buffer_first_prev_hash := popped.2.2 })

/-- A message in the first pass. -/
def processPresync (s : HeadersSyncState) (received_headers : List FullHeader)
    (full_headers_message : Bool) :
    Option (ProcessingResult × HeadersSyncState) :=
  (s.validateAndStoreHeadersCommitments start received_headers).map fun validated =>
    ({ success := validated.1
       request_more := validated.1 &&
        (full_headers_message || validated.2.m_download_state = .redownload) }, validated.2)

/-- A message in the second pass. -/
def processRedownload (s : HeadersSyncState) (received_headers : List FullHeader)
    (full_headers_message : Bool) :
    Option (ProcessingResult × HeadersSyncState) :=
  (acceptAll (validateAndStoreRedownloadedHeader start) s received_headers).map fun stored =>
    if stored.1 = false then ({}, stored.2)
    else
      let popped := stored.2.popHeadersReadyForAcceptance start
      let complete := popped.2.m_redownloaded_headers.isEmpty &&
        popped.2.m_process_all_remaining_headers
      ({ pow_validated_headers := popped.1
         success := true
         request_more := !complete && full_headers_message }, popped.2)

/-- `ProcessNextHeaders`. -/
def processNextHeaders (s : HeadersSyncState) (received_headers : List FullHeader)
    (full_headers_message : Bool) :
    Option (ProcessingResult × HeadersSyncState) :=
  if received_headers = [] then some ({}, s)
  else
    match s.m_download_state with
    | .final => some ({}, s)
    | .presync => (s.processPresync start received_headers full_headers_message).map finish
    | .redownload => (s.processRedownload start received_headers full_headers_message).map finish
where
  finish (processed : ProcessingResult × HeadersSyncState) : ProcessingResult × HeadersSyncState :=
    if processed.1.success && processed.1.request_more then processed
    else (processed.1, processed.2.finalize)

end HeadersSyncState

/-! Runs of messages. -/

structure HeadersMessage where
  headers : List FullHeader
  full : Bool

/-- A run, with the headers that each pass has accepted and those that were released. -/
structure SyncRun where
  state : HeadersSyncState
  presynced : List FullHeader := []
  redownloaded : List FullHeader := []
  released : List FullHeader := []

def SyncRun.receive (start : SyncStart) (run : SyncRun)
    (message : HeadersMessage) : Option SyncRun :=
  (run.state.processNextHeaders start message.headers message.full).map fun processed =>
    { state := processed.2
      presynced :=
        if run.state.m_download_state = .presync ∧ processed.1.success then
          run.presynced ++ message.headers
        else run.presynced
      redownloaded :=
        if run.state.m_download_state = .redownload ∧ processed.1.success then
          run.redownloaded ++ message.headers
        else run.redownloaded
      released := run.released ++ processed.1.pow_validated_headers }

def SyncRun.receiveAll (start : SyncStart) (run : SyncRun) : List HeadersMessage → Option SyncRun
  | [] => some run
  | message :: rest => (run.receive start message).bind fun run => run.receiveAll start rest

def syncRun (start : SyncStart) (messages : List HeadersMessage) : Option SyncRun :=
  SyncRun.receiveAll start { state := .new start } messages

end DigiByte.Pow
