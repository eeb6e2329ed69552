import DigiByte.DigiDollar.Mint
import DigiByte.DigiDollar.Readers

/-!
What an accepted mint looks like.

The output loop keeps one invariant over the outputs seen so far; at the end it
gives the structure of the transaction (one payload, one vault, one token) and
the numbers that the later checks price.
-/

set_option autoImplicit false
set_option relaxedAutoImplicit false

namespace DigiByte.DigiDollar

open Consensus Script
open Library.Checks (rejectIf bind_eq_ok rejectIf_eq_ok)

/-- The structural part of the mint rules: one tagged output, of mint type, one
positive P2TR output and one zero-value P2TR output. -/
structure MintStructure (tx : CTransaction) : Prop where
  payload : ∃ pc, ddPayloads tx.vout = [pc] ∧ (readMintType pc).1 = DigiDollarTxType.mint.toInt
  collateral : (tx.vout.filter isCollateralOutput).length = 1
  token : (tx.vout.filter isTokenOutput).length = 1

/-- The numbers of the scan are the ones a payload states. -/
structure MintPayload (ctx : ValidationContext) (pc : Bytes) (s : MintScan) : Prop where
  type : (readMintType pc).1 = DigiDollarTxType.mint.toInt
  amount : taggedAmount pc = some s.totalDD
  lock : mintLockField pc = some s.lockTime
  positive : 0 < s.lockTime
  tier : 0 ≤ s.claimedLockTier → ¬ s.lockTime ≤ ctx.nHeight →
    s.claimedTierLockBlocks ≤ s.lockTime - ctx.nHeight ∧
      s.lockTime - ctx.nHeight ≤ s.claimedTierLockBlocks + MINT_LOCK_CONFIRMATION_BUFFER_BLOCKS

/-! The fields. -/

private theorem getint_eq_one {value : ℤ} (h : getint value = 1) : value = 1 := by
  unfold getint at h
  omega

private theorem scriptNum_nil (minimal : Bool) (size : ℕ) : scriptNum [] minimal size = some 0 := by
  simp [scriptNum, Library.SignMagnitude.minimal, Library.SignMagnitude.decode]

theorem readMintType_eq_mint {pc : Bytes} (h : (readMintType pc).1 = DigiDollarTxType.mint.toInt) :
    ∃ opcode data, getScriptOp pc = (some (opcode, data), (readMintType pc).2) ∧
      readTxType data = some 1 := by
  unfold readMintType at h ⊢
  rcases read : getScriptOp pc with ⟨_ | ⟨opcode, data⟩, pc₁⟩
  · simp [read, DigiDollarTxType.toInt] at h
  · simp only [read, DigiDollarTxType.toInt] at h ⊢
    refine ⟨opcode, data, rfl, ?_⟩
    cases number : scriptNum data true 4 with
    | none => simp [number] at h
    | some value =>
      simp only [number, Option.map_some, Option.getD_some] at h
      have one := getint_eq_one h
      subst one
      unfold readTxType
      split_ifs with empty
      · rw [empty, scriptNum_nil] at number
        cases number
      · exact number

theorem readMintNumber_eq_ok {pc rest : Bytes} {reason missing malformed : String} {value : ℤ}
    (h : readMintNumber pc reason missing malformed = .ok (value, rest)) :
    ∃ opcode data, getScriptOp pc = (some (opcode, data), rest) ∧ data ≠ [] ∧
      scriptNum data true 8 = some value := by
  unfold readMintNumber at h
  rcases read : getScriptOp pc with ⟨_ | ⟨opcode, data⟩, pc₁⟩
  · simp [read] at h
  · simp only [read] at h
    split_ifs at h with empty
    cases number : scriptNum data true 8 with
    | none => simp [number] at h
    | some value' =>
      simp only [number, Except.ok.injEq, Prod.mk.injEq] at h
      obtain ⟨rfl, rfl⟩ := h
      exact ⟨opcode, data, rfl, empty, number⟩

private theorem readMintTier_eq_ok {ctx : ValidationContext} {lockTime : ℤ} {pc rest : Bytes}
    {tier : Option (ℤ × ℤ)} (h : readMintTier ctx lockTime pc = .ok (tier, rest)) :
    ∀ claim ∈ tier, 0 ≤ claim.1 ∧ (¬ lockTime ≤ ctx.nHeight →
      claim.2 ≤ lockTime - ctx.nHeight ∧
        lockTime - ctx.nHeight ≤ claim.2 + MINT_LOCK_CONFIRMATION_BUFFER_BLOCKS) := by
  unfold readMintTier at h
  rcases read : getScriptOp pc with ⟨_ | ⟨opcode, data⟩, pc₁⟩
  · simp only [read, Except.ok.injEq, Prod.mk.injEq] at h
    obtain ⟨rfl, _⟩ := h
    simp
  · cases number : scriptNum data true 4 with
    | none => simp [read, number] at h
    | some value =>
      simp only [read, number, bind_eq_ok, rejectIf_eq_ok] at h
      obtain ⟨_, range, _, window, result⟩ := h
      simp only [Except.ok.injEq, Prod.mk.injEq] at result
      obtain ⟨rfl, _⟩ := result
      rintro claim ⟨⟩
      exact ⟨by omega, fun running => by omega⟩

private theorem scanMintPayload_first {ctx : ValidationContext} {pc : Bytes} {s s' : MintScan}
    (h : scanMintPayload ctx pc s = .ok s') : s.ddOpReturnCount = 0 := by
  simp only [scanMintPayload, bind_eq_ok, rejectIf_eq_ok] at h
  obtain ⟨_, count, _⟩ := h
  omega

private theorem scanMintPayload_eq_ok {ctx : ValidationContext} {pc : Bytes} {s s' : MintScan}
    (h : scanMintPayload ctx pc s = .ok s') (unclaimed : s.claimedLockTier = -1) :
    MintPayload ctx pc s' ∧
      s' = { s with
        ddOpReturnCount := 1
        totalDD := s'.totalDD
        lockTime := s'.lockTime
        claimedLockTier := s'.claimedLockTier
        claimedTierLockBlocks := s'.claimedTierLockBlocks
        ownerXOnlyPubKeyData := s'.ownerXOnlyPubKeyData
        hasOwnerPubKey := true } := by
  simp only [scanMintPayload, bind_eq_ok, rejectIf_eq_ok] at h
  obtain ⟨_, count, _, type, ⟨amount, pc₂⟩, readAmt, _, range, ⟨lock, pc₃⟩, readLock, _, positive,
    ⟨tier, pc₄⟩, readTier, owner, _, result⟩ := h
  cases result
  have type' : (readMintType pc).1 = DigiDollarTxType.mint.toInt := by simpa using type
  obtain ⟨_, _, first, _⟩ := readMintType_eq_mint type'
  obtain ⟨_, _, second, nonempty, number⟩ := readMintNumber_eq_ok readAmt
  obtain ⟨_, _, third, lockNonempty, lockNumber⟩ := readMintNumber_eq_ok readLock
  have zero : s.ddOpReturnCount = 0 := by omega
  refine ⟨⟨type', ?_, ?_, by simpa using positive, ?_⟩, by simp [zero]⟩
  · simp only [taggedAmount, first, second, number, Option.bind_some, boundedAmount]
    rw [if_pos (by omega)]
  · simp [mintLockField, first, second, third, readAmount, lockNonempty, lockNumber]
  · intro claimed running
    have fits := readMintTier_eq_ok readTier
    cases tier with
    | none =>
      simp only [Option.map_none, Option.getD_none, unclaimed] at claimed
      omega
    | some claim => exact (fits claim rfl).2 running

/-! One output. -/

/-- What one output does to the scan, by its kind. -/
inductive ScanStep (ctx : ValidationContext) (output : CTxOut) (s s' : MintScan) : Prop
  | collateral (shape : isCollateralOutput output = true) (first : s.collateralOutputCount = 0)
      (dust : DUST_THRESHOLD ≤ output.nValue)
      (result : s' = { s with
        collateralOutputCount := 1
        totalCollateral := s.totalCollateral + output.nValue
        hasCollateralOutput := true
        actualCollateralScript := output.scriptPubKey })
  | token (shape : isTokenOutput output = true) (first : s.ddOutputCount = 0)
      (result : s' = { s with ddOutputCount := 1, hasDDOutput := true })
  | payload (pc : Bytes) (tagged : ddPayload output.scriptPubKey = some pc)
      (scanned : scanMintPayload ctx pc s = .ok s')
  | other (notCollateral : isCollateralOutput output = false)
      (notToken : isTokenOutput output = false) (untagged : ddPayload output.scriptPubKey = none)
      (result : s' = s)

private theorem scanCollateral_eq_ok {output : CTxOut} {s s' : MintScan}
    (h : scanCollateral output s = .ok s') : s.collateralOutputCount = 0 ∧
      DUST_THRESHOLD ≤ output.nValue ∧ s' = { s with
        collateralOutputCount := 1
        totalCollateral := s.totalCollateral + output.nValue
        hasCollateralOutput := true
        actualCollateralScript := output.scriptPubKey } := by
  simp only [scanCollateral, validateCollateralOutput, bind_eq_ok, rejectIf_eq_ok] at h
  obtain ⟨_, ⟨_, _, dust⟩, _, count, result⟩ := h
  cases result
  have zero : s.collateralOutputCount = 0 := by omega
  exact ⟨zero, by omega, by simp [zero]⟩

private theorem scanToken_eq_ok {registry : ScriptRegistry} {output : CTxOut} {s s' : MintScan}
    (p2tr : isCanonicalP2TROutput output.scriptPubKey = true)
    (h : scanToken registry output s = .ok s') :
    s.ddOutputCount = 0 ∧ s' = { s with ddOutputCount := 1, hasDDOutput := true } := by
  simp only [scanToken, extractDDAmount_eq_none_of_p2tr p2tr, bind_eq_ok, rejectIf_eq_ok] at h
  obtain ⟨_, _, _, count, result⟩ := h
  cases result
  have zero : s.ddOutputCount = 0 := by omega
  exact ⟨zero, by simp [zero]⟩

theorem scanMintOutput_cases {ctx : ValidationContext} {registry : ScriptRegistry} {output : CTxOut}
    {s s' : MintScan} (h : scanMintOutput ctx registry output s = .ok s') :
    ScanStep ctx output s s' := by
  unfold scanMintOutput at h
  dsimp only at h
  by_cases p2tr : isCanonicalP2TROutput output.scriptPubKey = true
  · have opReturn := isOpReturn_eq_false_of_p2tr p2tr
    have untagged := ddPayload_eq_none_of_p2tr p2tr
    rcases lt_trichotomy output.nValue 0 with negative | zero | positive
    · simp [p2tr, untagged, not_lt.mpr negative.le, negative.ne, bind, Except.bind] at h
      refine .other ?_ ?_ untagged h.symm
      · simpa [← Bool.not_eq_true, isCollateralOutput_iff] using fun positive => by omega
      · simpa [← Bool.not_eq_true, isTokenOutput_iff] using fun zero => by omega
    · simp [p2tr, untagged, zero, bind, Except.bind] at h
      obtain ⟨first, result⟩ := scanToken_eq_ok p2tr h
      exact .token (isTokenOutput_iff.mpr ⟨zero, p2tr⟩) first result
    · simp [p2tr, opReturn, untagged, positive, positive.ne', bind_eq_ok] at h
      obtain ⟨first, dust, result⟩ := scanCollateral_eq_ok h
      exact .collateral (isCollateralOutput_iff.mpr ⟨positive, p2tr⟩) first dust result
  · have notCollateral : isCollateralOutput output = false := by
      simpa [← Bool.not_eq_true, isCollateralOutput_iff] using fun _ => p2tr
    have notToken : isTokenOutput output = false := by
      simpa [← Bool.not_eq_true, isTokenOutput_iff] using fun _ => p2tr
    have notP2tr : isCanonicalP2TROutput output.scriptPubKey = false := by simpa using p2tr
    by_cases change : 0 < output.nValue ∧ isOpReturn output.scriptPubKey = false
    · rw [if_pos ⟨change.1, change.2, notP2tr⟩] at h
      cases h
      exact .other notCollateral notToken (by simp [ddPayload, change.2]) rfl
    · rw [if_neg fun skip => change ⟨skip.1, skip.2.1⟩, if_neg change] at h
      cases tagged : ddPayload output.scriptPubKey with
      | none =>
        simp [tagged, notP2tr, bind, Except.bind] at h
        exact .other notCollateral notToken tagged h.symm
      | some pc =>
        simp [tagged, notP2tr, bind_eq_ok] at h
        exact .payload pc tagged h

/-! The output loop. -/

/-- What the scan knows about the outputs seen so far. -/
structure ScanInvariant (ctx : ValidationContext) (seen : List CTxOut) (s : MintScan) : Prop where
  collateral : s.collateralOutputCount = (seen.filter isCollateralOutput).length
  collateralFlag : s.hasCollateralOutput = true → s.collateralOutputCount = 1
  collateralSum : s.totalCollateral = ((seen.filter isCollateralOutput).map CTxOut.nValue).sum
  token : s.ddOutputCount = (seen.filter isTokenOutput).length
  tokenFlag : s.hasDDOutput = true → s.ddOutputCount = 1
  payloads : s.ddOpReturnCount = (ddPayloads seen).length
  unread : ddPayloads seen = [] → s.lockTime = 0 ∧ s.claimedLockTier = -1
  read : ∀ pc more, ddPayloads seen = pc :: more → more = [] ∧ MintPayload ctx pc s

private theorem scanInvariant_nil (ctx : ValidationContext) : ScanInvariant ctx [] {} := by
  refine ⟨rfl, ?_, rfl, rfl, ?_, rfl, fun _ => ⟨rfl, rfl⟩, ?_⟩
  · intro flag
    cases flag
  · intro flag
    cases flag
  · intro pc more payload
    cases payload

private theorem MintPayload.congr {ctx : ValidationContext} {pc : Bytes} {s s' : MintScan}
    (h : MintPayload ctx pc s) (amount : s'.totalDD = s.totalDD) (lock : s'.lockTime = s.lockTime)
    (tier : s'.claimedLockTier = s.claimedLockTier)
    (blocks : s'.claimedTierLockBlocks = s.claimedTierLockBlocks) : MintPayload ctx pc s' :=
  ⟨h.type, amount ▸ h.amount, lock ▸ h.lock, lock ▸ h.positive, by
    rw [lock, tier, blocks]
    exact h.tier⟩

private theorem ScanInvariant.untagged {ctx : ValidationContext} {seen : List CTxOut}
    {output : CTxOut} {s : MintScan} (before : ScanInvariant ctx seen s) (s' : MintScan)
    (untagged : ddPayload output.scriptPubKey = none)
    (kept : s'.ddOpReturnCount = s.ddOpReturnCount ∧ s'.totalDD = s.totalDD ∧
      s'.lockTime = s.lockTime ∧ s'.claimedLockTier = s.claimedLockTier ∧
      s'.claimedTierLockBlocks = s.claimedTierLockBlocks) :
    s'.ddOpReturnCount = (ddPayloads (seen ++ [output])).length ∧
      (ddPayloads (seen ++ [output]) = [] → s'.lockTime = 0 ∧ s'.claimedLockTier = -1) ∧
      ∀ pc more, ddPayloads (seen ++ [output]) = pc :: more → more = [] ∧
      MintPayload ctx pc s' := by
  have same : ddPayloads (seen ++ [output]) = ddPayloads seen := by
    simp [ddPayloads, untagged]
  obtain ⟨count, amount, lock, tier, blocks⟩ := kept
  rw [same, count, lock, tier]
  refine ⟨before.payloads, before.unread, ?_⟩
  intro pc more payload
  obtain ⟨single, read⟩ := before.read pc more payload
  exact ⟨single, read.congr amount lock tier blocks⟩

private theorem isTokenOutput_of_collateral {output : CTxOut}
    (shape : isCollateralOutput output = true) :
    isTokenOutput output = false := by
  have positive := (isCollateralOutput_iff.mp shape).1
  simpa [← Bool.not_eq_true, isTokenOutput_iff] using fun zero => by omega

private theorem isCollateralOutput_of_token {output : CTxOut}
    (shape : isTokenOutput output = true) :
    isCollateralOutput output = false := by
  have zero := (isTokenOutput_iff.mp shape).1
  simpa [← Bool.not_eq_true, isCollateralOutput_iff] using fun positive => by omega

private theorem plain_of_tagged {output : CTxOut} {pc : Bytes}
    (tagged : ddPayload output.scriptPubKey = some pc) :
    isCollateralOutput output = false ∧ isTokenOutput output = false := by
  have notP2tr : ¬ isCanonicalP2TROutput output.scriptPubKey = true := by
    intro p2tr
    rw [ddPayload_eq_none_of_p2tr p2tr] at tagged
    cases tagged
  constructor
  · simpa [← Bool.not_eq_true, isCollateralOutput_iff] using fun _ => notP2tr
  · simpa [← Bool.not_eq_true, isTokenOutput_iff] using fun _ => notP2tr

private theorem scanInvariant_step {ctx : ValidationContext} {seen : List CTxOut} {output : CTxOut}
    {s s' : MintScan} (before : ScanInvariant ctx seen s) (step : ScanStep ctx output s s') :
    ScanInvariant ctx (seen ++ [output]) s' := by
  cases step with
  | collateral shape first dust result =>
    have notToken := isTokenOutput_of_collateral shape
    have p2tr := (isCollateralOutput_iff.mp shape).2
    obtain ⟨payloads, unread, read⟩ := before.untagged s' (ddPayload_eq_none_of_p2tr p2tr)
      (by simp [result])
    subst result
    refine ⟨?_, fun _ => rfl, ?_, ?_, before.tokenFlag, payloads, unread, read⟩
    · simp [shape, ← before.collateral, first]
    · simp [shape, before.collateralSum]
    · simp [notToken, before.token]
  | token shape first result =>
    have notCollateral := isCollateralOutput_of_token shape
    have p2tr := (isTokenOutput_iff.mp shape).2
    obtain ⟨payloads, unread, read⟩ := before.untagged s' (ddPayload_eq_none_of_p2tr p2tr)
      (by simp [result])
    subst result
    refine ⟨?_, before.collateralFlag, ?_, ?_, fun _ => rfl, payloads, unread, read⟩
    · simp [notCollateral, before.collateral]
    · simp [notCollateral, before.collateralSum]
    · simp [shape, ← before.token, first]
  | payload pc tagged scanned =>
    have zero := scanMintPayload_first scanned
    have none_seen : ddPayloads seen = [] :=
      List.length_eq_zero_iff.mp (before.payloads.symm.trans zero)
    obtain ⟨read, result⟩ := scanMintPayload_eq_ok scanned (before.unread none_seen).2
    obtain ⟨notCollateral, notToken⟩ := plain_of_tagged tagged
    have single : ddPayloads (seen ++ [output]) = [pc] := by
      rw [ddPayloads, List.filterMap_append, ← ddPayloads, none_seen]
      simp [tagged]
    rw [result]
    refine ⟨?_, before.collateralFlag, ?_, ?_, before.tokenFlag, ?_, ?_, ?_⟩
    · simp [notCollateral, before.collateral]
    · simp [notCollateral, before.collateralSum]
    · simp [notToken, before.token]
    · simp [single]
    · simp [single]
    · intro pc' more payload
      rw [single] at payload
      cases payload
      exact ⟨rfl, read.congr rfl rfl rfl rfl⟩
  | other notCollateral notToken untagged result =>
    obtain ⟨payloads, unread, read⟩ := before.untagged s' untagged (by simp [result])
    subst result
    refine ⟨?_, before.collateralFlag, ?_, ?_, before.tokenFlag, payloads, unread, read⟩
    · simp [notCollateral, before.collateral]
    · simp [notCollateral, before.collateralSum]
    · simp [notToken, before.token]

private theorem scanInvariant_run {ctx : ValidationContext} {registry : ScriptRegistry}
    {vout seen : List CTxOut} {s s' : MintScan} (before : ScanInvariant ctx seen s)
    (h : scanMintOutputs ctx registry vout s = .ok s') : ScanInvariant ctx (seen ++ vout) s' := by
  induction vout generalizing seen s with
  | nil =>
    cases h
    simpa using before
  | cons output rest ih =>
    simp only [scanMintOutputs, bind_eq_ok] at h
    obtain ⟨s₁, first, later⟩ := h
    have next := scanInvariant_step before (scanMintOutput_cases first)
    simpa using ih next later

/-- The final scan of an accepted mint with everything the rules made sure of. -/
structure AcceptedMint (curve : TaprootCurve) (tx : CTransaction) (ctx : ValidationContext)
    (node : NodeState) (pc : Bytes) (out : CTxOut) (s : MintScan) : Prop where
  payload : ddPayloads tx.vout = [pc]
  read : MintPayload ctx pc s
  collateral : tx.vout.filter isCollateralOutput = [out]
  totalCollateral : s.totalCollateral = out.nValue
  token : (tx.vout.filter isTokenOutput).length = 1
  price : 0 < ctx.oraclePriceMicroUSD
  amount : validateMintAmount s.totalDD ctx.params ctx.nHeight = true
  funded : checkMintCollateral ctx node s.totalDD s = .ok ()

theorem acceptedMint_of_scan {curve : TaprootCurve} {tx : CTransaction} {ctx : ValidationContext}
    {node : NodeState} (h : validateMintTransaction curve tx ctx node = .ok ()) :
    ∃ pc out s, scanMintOutputs ctx node.registry tx.vout {} = .ok s ∧
      AcceptedMint curve tx ctx node pc out s := by
  simp only [validateMintTransaction, checkMintScan, bind_eq_ok, rejectIf_eq_ok] at h
  obtain ⟨_, _, _, _, _, _, _, price, _, _, _, _, _, _, s, scanned, totalDD, total, _,
    hasCollateral, _, hasToken, _, lock, _, _, _, _, _, amount, funded⟩ := h
  have scan : ScanInvariant ctx tx.vout s := by
    simpa using scanInvariant_run (scanInvariant_nil ctx) scanned
  -- a positive lock height can only come from a payload
  obtain ⟨pc, more, payload⟩ : ∃ pc more, ddPayloads tx.vout = pc :: more := by
    cases payload : ddPayloads tx.vout with
    | nil => exact absurd (scan.unread payload).1 (by omega)
    | cons pc more => exact ⟨pc, more, rfl⟩
  obtain ⟨rfl, read⟩ := scan.read pc more payload
  have positive : 0 < s.totalDD := by
    obtain ⟨_, _, _, _, _, _, _, _, low, _⟩ := taggedAmount_eq_some read.amount
    omega
  have same : totalDD = s.totalDD := by
    rw [mintTotalDD, if_neg (by omega)] at total
    cases total
    rfl
  subst same
  have one := scan.collateral.symm.trans (scan.collateralFlag (by simpa using hasCollateral))
  obtain ⟨out, single⟩ := List.length_eq_one_iff.mp one
  refine ⟨pc, out, s, scanned, payload, read, single, ?_, ?_,
    by omega, by simpa using amount, funded⟩
  · rw [scan.collateralSum, single]
    simp
  · exact scan.token.symm.trans (scan.tokenFlag (by simpa using hasToken))

theorem acceptedMint_of_ok {curve : TaprootCurve} {tx : CTransaction} {ctx : ValidationContext}
    {node : NodeState} (h : validateMintTransaction curve tx ctx node = .ok ()) :
    ∃ pc out s, AcceptedMint curve tx ctx node pc out s := by
  obtain ⟨pc, out, s, _, accepted⟩ := acceptedMint_of_scan h
  exact ⟨pc, out, s, accepted⟩

namespace AcceptedMint

variable {curve : TaprootCurve} {tx : CTransaction} {ctx : ValidationContext} {node : NodeState}
  {pc : Bytes} {out : CTxOut} {s : MintScan} (accepted : AcceptedMint curve tx ctx node pc out s)

include accepted

theorem mintStructure : MintStructure tx :=
  ⟨⟨pc, accepted.payload, accepted.read.type⟩, by simp [accepted.collateral], accepted.token⟩

theorem accounting (mint : getDigiDollarTxType tx = .mint) (registry : ScriptRegistry) :
    extractMintAccountingAmounts registry tx false = some (s.totalDD, out.nValue) := by
  obtain ⟨_, _, _, _, _, _, _, _, low, _⟩ := taggedAmount_eq_some accepted.read.amount
  rw [extractMintAccountingAmounts_eq accepted.payload, accepted.read.amount, accepted.collateral]
  simp [mint, show ¬ s.totalDD ≤ 0 by omega]

end AcceptedMint

theorem readPayload_mint {pc : Bytes} {d : ℤ}
    (type : (readMintType pc).1 = DigiDollarTxType.mint.toInt) (amount : taggedAmount pc = some d) :
    readPayload .mint pc = some [d] := by
  obtain ⟨opcode, data, first, typed⟩ := readMintType_eq_mint type
  obtain ⟨_, pc₁, field, pc₂, first', second, nonempty, number, _⟩ := taggedAmount_eq_some amount
  rw [first] at first'
  cases first'
  simp [readPayload, payloadAmounts, readAmount, first, typed, second, nonempty, number,
    DigiDollarTxType.toInt]

/-! A small chain that the rules accept: 100 dollars against 1000 DGB at a price
of one dollar, for the shortest tier, minted at the Thaw Day height. -/

namespace Sample

def params : CChainParams :=
  { consensus := { hashGenesisBlock := 1, DigiDollarHeight := 5, nDDThawDayHeight := 10 } }

/-- A curve on which every key is valid and every tree has one output key. -/
def curve : TaprootCurve := ⟨fun _ => true, fun _ _ => some (List.replicate 32 7)⟩

def p2tr (b : UInt8) : Bytes := OP_1 :: 32 :: List.replicate 32 b

def mint : CTransaction :=
  { hash := 2
    nVersion := 0x01000770
    vin := [{ prevout := ⟨1, 0⟩ }]
    vout := [⟨100000000000, p2tr 7⟩, ⟨0, p2tr 8⟩,
      ⟨0, [OP_RETURN, 2, 0x44, 0x44, 1, 1, 2, 0x10, 0x27, 2, 0xfa, 0, 0, 32] ++
        List.replicate 32 9⟩]
    nLockTime := 0 }

def funding : Coin := ⟨⟨200000000000, []⟩, false, 6⟩

def lookup : CanonicalTxLookup := fun hash height =>
  if hash = 2 ∧ height = 10 then some mint else none

def mintCtx : ValidationContext :=
  { nHeight := 10
    oraclePriceMicroUSD := 1000000
    systemCollateral := 0
    params := params
    coins := some
      { getCoin := fun outpoint => if outpoint = ⟨1, 0⟩ then some funding else none
        digiDollarState := some
          { genesis_hash := 1, activation_height := 10, digidollar_height := 5, best_block := 9 } }
    skipOracleValidation := false
    txLookup := some lookup
    mempool := none
    candidateParent := some ⟨9, 9⟩
    mintReference :=
      { ready := true, candidate_height := 10, parent_hash := 9, genesis_hash := 1 } }

def node : NodeState := ⟨none, ⟨0, 0⟩, ⟨[], false, false⟩, false, 0, fun _ => none⟩

theorem mint_valid : validateMintTransaction curve mint mintCtx node = .ok () := by
  decide +kernel

end Sample

end DigiByte.DigiDollar
