import DigiByte.DigiDollar.AcceptedKinds

/-!
What the readers make of an accepted mint, and what its metadata looks like.

The readers are called at different times: the accounting reader when the mint
is connected, the others when its outputs are spent. On an accepted mint they
all report the numbers that the mint rules priced.
-/

set_option autoImplicit false
set_option relaxedAutoImplicit false

namespace DigiByte.DigiDollar

open Consensus Script
open Library.Checks (rejectIf bind_eq_ok rejectIf_eq_ok)

/-- Amount `d` and lock height `L`, with the vault `out` at index `k` and the
token at index `t`, as every reader sees them. -/
structure ReadersAgree (tx : CTransaction) (ctx : ValidationContext) (d L : ℤ) (k t : ℕ)
    (out : CTxOut) : Prop where
  collateral : ∀ n o, tx.vout[n]? = some o ∧ isCollateralOutput o = true ↔ n = k ∧ o = out
  token : ∀ n, (∃ o, tx.vout[n]? = some o ∧ isTokenOutput o = true) ↔ n = t
  accounting : ∀ registry, extractMintAccountingAmounts registry tx false = some (d, out.nValue)
  spends : ∀ n, extractDDAmountFromTxRef tx n = if n = t then some d else none
  release : ∀ ddOut, extractMintMetadataFromTx tx ddOut = (d, some L)
  identity : ∀ registry n, isMintCollateralOutput registry tx n = decide (n = k)
  vault : ∀ lookup : CanonicalTxLookup, lookup tx.hash ctx.nHeight.toNat = some tx →
    lookupCanonicalVault ⟨tx.hash, k⟩ ⟨out, false, ctx.nHeight.toNat⟩ ctx.params.consensus lookup =
      .vault ⟨⟨tx.hash, k⟩, d, out.nValue⟩

/-! A filter with one result has one position. -/

private theorem zipIdx_filter_single {α : Type} {p : α → Bool} {l : List α} {x : α}
    (single : l.filter p = [x]) :
    ∃ k, ∀ i, ((l.zipIdx i).filter fun entry => p entry.1) = [(x, i + k)] := by
  induction l with
  | nil => simp at single
  | cons a rest ih =>
    by_cases here : p a = true
    · rw [List.filter_cons_of_pos here, List.cons.injEq] at single
      obtain ⟨rfl, later⟩ := single
      refine ⟨0, ?_⟩
      intro i
      have none_later : ((rest.zipIdx (i + 1)).filter fun entry => p entry.1) = [] := by
        rw [List.filter_eq_nil_iff] at later ⊢
        intro entry member
        exact later entry.1 (List.fst_mem_of_mem_zipIdx member)
      simp [List.zipIdx_cons, here, none_later]
    · rw [List.filter_cons_of_neg here] at single
      obtain ⟨k, found⟩ := ih single
      refine ⟨k + 1, ?_⟩
      intro i
      simp only [List.zipIdx_cons, List.filter_cons, here, found, Bool.false_eq_true, if_false]
      rw [Nat.add_assoc, Nat.add_comm 1 k]

private theorem index_of_zipIdx_filter {α : Type} {p : α → Bool} {l : List α} {x : α} {k : ℕ}
    (single : (l.zipIdx.filter fun entry => p entry.1) = [(x, k)]) (n : ℕ) (y : α) :
    l[n]? = some y ∧ p y = true ↔ n = k ∧ y = x := by
  have member : (y, n) ∈ (l.zipIdx.filter fun entry => p entry.1) ↔
      l[n]? = some y ∧ p y = true := by
    rw [List.mem_filter, List.mk_mem_zipIdx_iff_getElem?]
  rw [← member, single, List.mem_singleton, Prod.mk.injEq, and_comm]

namespace AcceptedMint

variable {curve : TaprootCurve} {tx : CTransaction} {ctx : ValidationContext} {node : NodeState}
  {pc : Bytes} {out : CTxOut} {s : MintScan} (accepted : AcceptedMint curve tx ctx node pc out s)

include accepted

theorem amount_pos : 0 < s.totalDD := by
  obtain ⟨_, _, _, _, _, _, _, _, low, _⟩ := taggedAmount_eq_some accepted.read.amount
  omega

private theorem vault_shape : isCollateralOutput out = true := by
  have member : out ∈ tx.vout.filter isCollateralOutput := by simp [accepted.collateral]
  exact (List.mem_filter.mp member).2

theorem ready (active : ctx.canonical = true) : contextHealthState ctx ≠ none := by
  have funded := accepted.funded
  simp only [checkMintCollateral, bind_eq_ok] at funded
  obtain ⟨health, resolved, _⟩ := funded
  intro missing
  simp [mintHealth, resolveCanonicalHealth, active, missing] at resolved

theorem spends_eq (coinbase : tx.isCoinBase = false) (type : getDigiDollarTxType tx = .mint) :
    ∃ t, (∀ n, (∃ o, tx.vout[n]? = some o ∧ isTokenOutput o = true) ↔ n = t) ∧
      ∀ n, extractDDAmountFromTxRef tx n = if n = t then some s.totalDD else none := by
  obtain ⟨token, single⟩ := List.length_eq_one_iff.mp accepted.token
  obtain ⟨t, found, amounts⟩ := tokenAmounts_single accepted.amount_pos single
  obtain ⟨k, positions⟩ := zipIdx_filter_single single
  have at_k := index_of_zipIdx_filter (by simpa using positions 0)
  have shape : isTokenOutput token = true := by
    have member : token ∈ tx.vout.filter isTokenOutput := by simp [single]
    exact (List.mem_filter.mp member).2
  have same : t = k := ((at_k t token).mp ⟨found, shape⟩).1
  refine ⟨t, ?_, ?_⟩
  · intro n
    constructor
    · rintro ⟨o, entry⟩
      exact ((at_k n o).mp entry).1.trans same.symm
    · rintro rfl
      exact ⟨token, found, shape⟩
  · intro n
    have marked := hasDigiDollarMarker_of_type type (by decide)
    have read : readPayload (getDigiDollarTxType tx) pc = some [s.totalDD] := by
      rw [type]
      exact readPayload_mint accepted.read.type accepted.read.amount
    rw [extractDDAmountFromTxRef_eq n coinbase marked accepted.payload read, amounts]

theorem release_eq (type : getDigiDollarTxType tx = .mint) (ddOut : ℤ) :
    extractMintMetadataFromTx tx ddOut = (s.totalDD, some s.lockTime) := by
  have marked := hasDigiDollarMarker_of_type type (by decide)
  obtain ⟨opcode, data, first, typed⟩ := readMintType_eq_mint accepted.read.type
  have read := mintMetadataFrom_eq accepted.payload ⟨(opcode, data), by rw [first], typed⟩
    accepted.read.amount accepted.read.lock accepted.read.positive.le ddOut
  simp [extractMintMetadataFromTx, marked, type, read]

theorem identity_eq (coinbase : tx.isCoinBase = false) (type : getDigiDollarTxType tx = .mint)
    (registry : ScriptRegistry) {k : ℕ}
    (single : (tx.vout.zipIdx.filter fun entry => isCollateralOutput entry.1) = [(out, k)])
    (n : ℕ) :
    isMintCollateralOutput registry tx n = decide (n = k) := by
  have marked := hasDigiDollarMarker_of_type type (by decide)
  -- a P2TR script is spendable, so the two tests for a vault are one
  have same : ∀ o : CTxOut,
      (decide (0 < o.nValue) && isCanonicalP2TROutput o.scriptPubKey) = isCollateralOutput o := by
    intro o
    rw [Bool.eq_iff_iff, isCollateralOutput_iff]
    simp
  have readable : ((findDDOpReturn tx).bind fun i => (tx.vout[i]?).bind fun o =>
      extractDDAmount registry o.scriptPubKey false) = some s.totalDD := by
    rw [amount_of_findDDOpReturn accepted.payload, accepted.read.amount]
  unfold isMintCollateralOutput
  simp only [same, single, readable, coinbase, marked, type]
  by_cases here : n = k
  · subst here
    have found := ((index_of_zipIdx_filter single n out).mpr ⟨rfl, rfl⟩).1
    simp [found, accepted.vault_shape, accepted.amount_pos]
  · have other : ¬ k = n := fun eq => here eq.symm
    simp [here, other]

theorem vault_eq (coinbase : tx.isCoinBase = false) (type : getDigiDollarTxType tx = .mint)
    (active : ctx.canonical = true) {k : ℕ} (found : tx.vout[k]? = some out)
    {lookup : CanonicalTxLookup} (stored : lookup tx.hash ctx.nHeight.toNat = some tx) :
    lookupCanonicalVault ⟨tx.hash, k⟩ ⟨out, false, ctx.nHeight.toNat⟩ ctx.params.consensus lookup =
      .vault ⟨⟨tx.hash, k⟩, s.totalDD, out.nValue⟩ := by
  have marked := hasDigiDollarMarker_of_type type (by decide)
  obtain ⟨positive, p2tr⟩ := isCollateralOutput_iff.mp accepted.vault_shape
  obtain ⟨nonneg, _, scheduled, low, _⟩ := isThawDayActive_iff.mp active
  have started : 0 ≤ ctx.params.consensus.DigiDollarHeight :=
    digidollarHeight_nonneg (accepted.ready active)
  have reached : toUint32 ctx.params.consensus.DigiDollarHeight ≤ ctx.nHeight.toNat := by
    unfold toUint32
    omega
  have candidate : coinMayContainDigiDollar ⟨out, false, ctx.nHeight.toNat⟩ ctx.params.consensus =
      true := by
    have unspent : out.nValue ≠ -1 := by omega
    simp [coinMayContainDigiDollar, Coin.isSpent, unspent, scheduled, reached, p2tr]
  have creating : creatingTransaction lookup ⟨tx.hash, k⟩ ⟨out, false, ctx.nHeight.toNat⟩ =
      some tx := by
    simp [creatingTransaction, stored, found]
  unfold lookupCanonicalVault
  rw [if_neg (by simp [candidate, positive]), creating]
  simp [marked, coinbase, type, accepted.accounting type]

end AcceptedMint

/-- Every reader reports the amount and the lock height that the mint rules
took from the metadata, and finds the same vault and the same token. -/
theorem mint_readers_agree {curve : TaprootCurve} {tx : CTransaction} {ctx : ValidationContext}
    {node : NodeState} {s : MintScan} (coinbase : tx.isCoinBase = false)
    (type : getDigiDollarTxType tx = .mint)
    (active : isThawDayActive ctx.params.consensus ctx.nHeight = true)
    (valid : validateMintTransaction curve tx ctx node = .ok ())
    (scanned : scanMintOutputs ctx node.registry tx.vout {} = .ok s) :
    ∃ k t out, ReadersAgree tx ctx s.totalDD s.lockTime k t out := by
  obtain ⟨pc, out, s', scanned', accepted⟩ := acceptedMint_of_scan valid
  rw [scanned, Except.ok.injEq] at scanned'
  subst scanned'
  obtain ⟨k, positions⟩ := zipIdx_filter_single accepted.collateral
  have single : (tx.vout.zipIdx.filter fun entry => isCollateralOutput entry.1) = [(out, k)] := by
    simpa using positions 0
  obtain ⟨t, token, spends⟩ := accepted.spends_eq coinbase type
  have found := ((index_of_zipIdx_filter single k out).mpr ⟨rfl, rfl⟩).1
  refine ⟨k, t, out, ?_⟩
  exact
    { collateral := index_of_zipIdx_filter single
      token := token
      accounting := accepted.accounting type
      spends := spends
      release := accepted.release_eq type
      identity := fun registry => accepted.identity_eq coinbase type registry single
      vault := fun _ => accepted.vault_eq coinbase type active found }

namespace Sample

/-- What the output loop reads off the mint. -/
def mintScan : MintScan :=
  { totalDD := 10000
    totalCollateral := 100000000000
    hasCollateralOutput := true
    hasDDOutput := true
    ddOutputCount := 1
    collateralOutputCount := 1
    ddOpReturnCount := 1
    lockTime := 250
    claimedLockTier := 0
    claimedTierLockBlocks := 240
    ownerXOnlyPubKeyData := List.replicate 32 9
    hasOwnerPubKey := true
    actualCollateralScript := p2tr 7 }

theorem mint_read : mint.isCoinBase = false ∧ getDigiDollarTxType mint = .mint ∧
    ∃ k t out, ReadersAgree mint mintCtx 10000 250 k t out := by
  have scanned : scanMintOutputs mintCtx node.registry mint.vout {} = .ok mintScan := by
    decide +kernel
  exact ⟨by decide, by decide,
    mint_readers_agree (by decide) (by decide) (by decide) mint_valid scanned⟩

end Sample

/-! The grammar of the metadata. -/

/-- One complete push of data; the bytes and the position after it. -/
def readPush (pc : Bytes) : Option (Bytes × Bytes) :=
  match getScriptOp pc with
  | (some (opcode, data), pc) => if opcode ≤ OP_PUSHDATA4 then some (data, pc) else none
  | (none, _) => none

structure MintFields where
  amount : ℤ
  lockHeight : ℤ
  tier : ℤ
  owner : Bytes
  deriving DecidableEq, Repr

/-- The metadata after the tag as the wallet writes it: five complete pushes of
the number 1, the amount, the lock height, the tier and the owner key. -/
def parseMintFields (pc : Bytes) : Option MintFields := do
  let (type, pc) ← readPush pc
  guard (scriptNum type true 4 = some 1)
  let (amount, pc) ← readPush pc
  let amount ← scriptNum amount true 8
  let (lock, pc) ← readPush pc
  let lock ← scriptNum lock true 8
  guard (0 < lock)
  let (tier, pc) ← readPush pc
  let tier ← scriptNum tier true 4
  guard (0 ≤ tier ∧ tier ≤ 9)
  let (owner, _) ← readPush pc
  guard (owner.length = 32)
  return ⟨amount, lock, tier, owner⟩

/-- The position after the third element, where the tier belongs. -/
def tierPosition (pc : Bytes) : Bytes := (getScriptOp (getScriptOp (getScriptOp pc).2).2).2

private theorem getScriptOp_of_readPush {pc data rest : Bytes}
    (h : readPush pc = some (data, rest)) :
    ∃ opcode, getScriptOp pc = (some (opcode, data), rest) := by
  unfold readPush at h
  rcases read : getScriptOp pc with ⟨_ | ⟨opcode, data'⟩, pc₁⟩
  · simp [read] at h
  · simp only [read, Option.ite_none_right_eq_some, Option.some.injEq, Prod.mk.injEq] at h
    obtain ⟨_, rfl, rfl⟩ := h
    exact ⟨opcode, rfl⟩

private theorem readPush_of_data {pc data rest : Bytes} {opcode : UInt8}
    (h : getScriptOp pc = (some (opcode, data), rest)) (nonempty : data ≠ []) :
    readPush pc = some (data, rest) := by
  have isPush := (getScriptOp_opcode_of_data h nonempty).1
  simp [readPush, h, isPush]

private theorem scanMintPayload_of_run {ctx : ValidationContext} {registry : ScriptRegistry}
    {vout : List CTxOut} {s s' : MintScan} (h : scanMintOutputs ctx registry vout s = .ok s')
    {pc : Bytes} (member : pc ∈ ddPayloads vout) : ∃ t t', scanMintPayload ctx pc t = .ok t' := by
  induction vout generalizing s with
  | nil => simp [ddPayloads] at member
  | cons output rest ih =>
    simp only [scanMintOutputs, bind_eq_ok] at h
    obtain ⟨s₁, first, later⟩ := h
    cases tagged : ddPayload output.scriptPubKey with
    | none =>
      have later_member : pc ∈ ddPayloads rest := by simpa [ddPayloads, tagged] using member
      exact ih later later_member
    | some pc' =>
      have cases_member : pc = pc' ∨ pc ∈ ddPayloads rest := by
        simpa [ddPayloads, tagged] using member
      rcases cases_member with rfl | later_member
      · cases scanMintOutput_cases first with
        | collateral shape =>
          rw [ddPayload_eq_none_of_p2tr (isCollateralOutput_iff.mp shape).2] at tagged
          cases tagged
        | token shape =>
          rw [ddPayload_eq_none_of_p2tr (isTokenOutput_iff.mp shape).2] at tagged
          cases tagged
        | payload pc₁ tagged' scanned =>
          rw [tagged, Option.some.injEq] at tagged'
          subst tagged'
          exact ⟨s, s₁, scanned⟩
        | other _ _ untagged =>
          rw [tagged] at untagged
          cases untagged
      · exact ih later later_member

private theorem fields_of_scanMintPayload {ctx : ValidationContext} {pc : Bytes} {t t' : MintScan}
    (h : scanMintPayload ctx pc t = .ok t') :
    ∃ type pc₁ amount pc₂ d lock pc₃ L tier pc₄ owner pc₅,
      readPush pc = some (type, pc₁) ∧ scriptNum type true 4 = some 1 ∧
      readPush pc₁ = some (amount, pc₂) ∧ scriptNum amount true 8 = some d ∧
      readPush pc₂ = some (lock, pc₃) ∧ scriptNum lock true 8 = some L ∧ 0 < L ∧
      tierPosition pc = pc₃ ∧ readMintTier ctx L pc₃ = .ok (tier, pc₄) ∧
      readPush pc₄ = some (owner, pc₅) ∧ owner.length = 32 := by
  simp only [scanMintPayload, bind_eq_ok, rejectIf_eq_ok] at h
  obtain ⟨_, _, _, type, ⟨d, pc₂⟩, readAmt, _, _, ⟨L, pc₃⟩, readLock, _, positive, ⟨tier, pc₄⟩,
    readTier, owner, readOwner, _⟩ := h
  obtain ⟨_, typeData, first, typed⟩ := readMintType_eq_mint (by simpa using type)
  obtain ⟨_, amount, second, amountNonempty, amountNumber⟩ := readMintNumber_eq_ok readAmt
  obtain ⟨_, lock, third, lockNonempty, lockNumber⟩ := readMintNumber_eq_ok readLock
  have typeNonempty : typeData ≠ [] := by
    rintro rfl
    simp [readTxType] at typed
  have position : tierPosition pc = pc₃ := by simp [tierPosition, first, second, third]
  rcases fifth : getScriptOp pc₄ with ⟨_ | ⟨_, key⟩, pc₅⟩
  · simp [readMintOwner, fifth] at readOwner
  · simp only [readMintOwner, fifth] at readOwner
    split_ifs at readOwner with size
    have keyNonempty : key ≠ [] := by
      rintro rfl
      cases size
    refine ⟨typeData, _, amount, pc₂, d, lock, pc₃, L, tier, pc₄, key, pc₅,
      readPush_of_data first typeNonempty, ?_, readPush_of_data second amountNonempty, amountNumber,
      readPush_of_data third lockNonempty, lockNumber, by simpa using positive, position, readTier,
      readPush_of_data fifth keyNonempty, size⟩
    simpa [readTxType, typeNonempty] using typed

private theorem tier_of_readMintTier {ctx : ValidationContext} {lockTime : ℤ}
    {pc data rest rest' : Bytes} {tier : Option (ℤ × ℤ)} (push : readPush pc = some (data, rest))
    (h : readMintTier ctx lockTime pc = .ok (tier, rest')) :
    rest' = rest ∧ ∃ n, scriptNum data true 4 = some n ∧ 0 ≤ n ∧ n ≤ 9 := by
  obtain ⟨opcode, read⟩ := getScriptOp_of_readPush push
  unfold readMintTier at h
  cases number : scriptNum data true 4 with
  | none => simp [read, number] at h
  | some n =>
    simp only [read, number, bind_eq_ok, rejectIf_eq_ok] at h
    obtain ⟨_, range, _, _, result⟩ := h
    simp only [Except.ok.injEq, Prod.mk.injEq] at result
    refine ⟨result.2.symm, n, rfl, ?_⟩
    unfold getint at range
    omega

/-- An accepted mint has one tagged output, and its metadata is well formed
exactly when a complete push follows the lock height. -/
theorem mint_metadata_grammar_iff {curve : TaprootCurve} {tx : CTransaction}
    {ctx : ValidationContext}
    {node : NodeState} (valid : validateMintTransaction curve tx ctx node = .ok ()) :
    ∃ pc, ddPayloads tx.vout = [pc] ∧
      ((parseMintFields pc).isSome = true ↔ (readPush (tierPosition pc)).isSome = true) := by
  obtain ⟨pc, out, s, scanned, accepted⟩ := acceptedMint_of_scan valid
  refine ⟨pc, accepted.payload, ?_⟩
  have member : pc ∈ ddPayloads tx.vout := by simp [accepted.payload]
  obtain ⟨t, t', payload⟩ := scanMintPayload_of_run scanned member
  obtain ⟨type, pc₁, amount, pc₂, d, lock, pc₃, L, tier, pc₄, owner, pc₅, first, typed, second,
    amountNumber, third, lockNumber, positive, position, readTier, fifth, size⟩ :=
    fields_of_scanMintPayload payload
  rw [position]
  cases fourth : readPush pc₃ with
  | none => simp [parseMintFields, first, typed, second, amountNumber, third, lockNumber, fourth]
  | some push =>
    obtain ⟨data, rest⟩ := push
    obtain ⟨rfl, n, number, low, high⟩ := tier_of_readMintTier fourth readTier
    simp [parseMintFields, first, typed, second, amountNumber, third, lockNumber, positive, fourth,
      number, low, high, fifth, size]

namespace Sample

/-- The mint above with the opcode of the tier push announcing 75 bytes, of
which 33 are there. -/
def truncatedTier : CTransaction :=
  { mint with
    vout := [⟨100000000000, p2tr 7⟩, ⟨0, p2tr 8⟩,
      ⟨0, [OP_RETURN, 2, 0x44, 0x44, 1, 1, 2, 0x10, 0x27, 2, 0xfa, 0, 0x4b, 32] ++
        List.replicate 32 9⟩] }

/-- The truncated push is passed over and the key is read from inside it. -/
theorem truncated_tier_accepted :
    validateMintTransaction curve truncatedTier mintCtx node = .ok () ∧
    (ddPayloads truncatedTier.vout).map parseMintFields = [none] := by
  decide +kernel

theorem mint_well_formed :
    (ddPayloads mint.vout).map
      (fun pc => (readPush (tierPosition pc)).isSome) = [true] ∧
    ∃ pc, ddPayloads mint.vout = [pc] ∧ (parseMintFields pc).isSome = true := by
  have pushed : (ddPayloads mint.vout).map (fun pc => (readPush (tierPosition pc)).isSome) =
      [true] := by
    decide +kernel
  refine ⟨pushed, ?_⟩
  obtain ⟨pc, payload, grammar⟩ := mint_metadata_grammar_iff mint_valid
  rw [payload, List.map_singleton, List.cons.injEq] at pushed
  exact ⟨pc, payload, grammar.mpr pushed.1⟩

end Sample

end DigiByte.DigiDollar
