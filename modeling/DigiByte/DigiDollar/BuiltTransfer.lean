import DigiByte.DigiDollar.AcceptedTransfer
import DigiByte.DigiDollar.BuiltMint
import DigiByte.DigiDollar.TransferBuilder

/-!
Built transfers against the transfer rules.

The builder and `ValidateTransferTransaction` agree on recipients, metadata and
conservation. The limit of a single output is checked by the builder for recipients
only, and the change of large coins can exceed it.
-/

set_option autoImplicit false
set_option relaxedAutoImplicit false

namespace DigiByte.DigiDollar

open Consensus Script
open Library.Checks (rejectIf bind_eq_ok rejectIf_eq_ok rejectIf_bind_of_not ok_bind
  toOption_eq_some)

/-- A confirmed token coin of the context, with an amount that consensus allows. -/
structure TokenCoin (ctx : ValidationContext) (outpoint : COutPoint) (amount : ℤ) : Prop where
  notNull : outpoint.isNull = false
  coin : ∃ coin creating, ctx.getCoin outpoint = some coin ∧ coin.out.nValue = 0 ∧
    coin.nHeight ≠ MEMPOOL_HEIGHT ∧ coinHeightMayCreateDigiDollar coin ctx = true ∧
    coin.fCoinBase = false ∧
    creatingTransaction (contextTransactionLookup ctx) outpoint coin = some creating ∧
    extractDDAmountFromTxRef creating outpoint.n = some amount
  allowed : amount ≤ MAX_DIGIDOLLAR

/-- A coin of the context that holds DGB. -/
structure DGBCoin (ctx : ValidationContext) (outpoint : COutPoint) : Prop where
  notNull : outpoint.isNull = false
  coin : ∃ coin, ctx.getCoin outpoint = some coin ∧ coin.out.nValue ≠ 0

/-! Inputs. -/

theorem TokenCoin.positive {ctx : ValidationContext} {outpoint : COutPoint} {amount : ℤ}
    (token : TokenCoin ctx outpoint amount) : 0 < amount := by
  obtain ⟨_, _, _, _, _, _, _, _, extracted⟩ := token.coin
  obtain ⟨_, _, _, _, _, _, entry⟩ := readPayload_of_extract extracted
  exact (tokenAmounts_eq_some entry).1

theorem TokenCoin.read {ctx : ValidationContext} {outpoint : COutPoint} {amount : ℤ}
    (token : TokenCoin ctx outpoint amount) : ∃ coin, ctx.getCoin outpoint = some coin ∧
      coin.out.nValue = 0 ∧ readCanonicalTokenAmount outpoint coin ctx = .ok amount := by
  obtain ⟨coin, creating, found, zero, confirmed, mayCreate, coinbase, created, extracted⟩ :=
    token.coin
  refine ⟨coin, found, zero, ?_⟩
  have lookup := (creatingTransaction_eq_some created).1
  unfold readCanonicalTokenAmount
  rw [rejectIf_bind_of_not confirmed, rejectIf_bind_of_not (by simp [mayCreate, coinbase]), created]
  simp [extractDDAmountFromBlockDb, lookup, extracted]

theorem TokenCoin.sum_nonneg {ctx : ValidationContext} {utxos : List COutPoint} {amounts : List ℤ}
    (tokens : List.Forall₂ (TokenCoin ctx) utxos amounts) : 0 ≤ amounts.sum := by
  induction tokens with
  | nil => simp
  | cons token _ ih =>
    have positive := token.positive
    rw [List.sum_cons]
    omega

theorem TokenCoin.notNull_of_mem {ctx : ValidationContext} {utxos : List COutPoint}
    {amounts : List ℤ} (tokens : List.Forall₂ (TokenCoin ctx) utxos amounts) :
    ∀ utxo ∈ utxos, utxo.isNull = false := by
  induction tokens with
  | nil => simp
  | cons token _ ih => exact List.forall_mem_cons.mpr ⟨token.notNull, ih⟩

/-- The inputs that spend these coins. -/
def inputsOf (utxos : List COutPoint) : List CTxIn := utxos.map fun utxo => { prevout := utxo }

section Inputs

variable {ctx : ValidationContext} {node : NodeState} (active : ctx.canonical = true)
include active

private theorem transferInputsFrom_tokens {utxos : List COutPoint} {amounts : List ℤ}
    (tokens : List.Forall₂ (TokenCoin ctx) utxos amounts) (rest : List CTxIn) (total : ℤ × ℕ)
    (fits : total.1 ≤ INT64_MAX) :
    transferInputsFrom ctx node (inputsOf utxos ++ rest) total =
      if total.1 + amounts.sum ≤ INT64_MAX then
        transferInputsFrom ctx node rest (total.1 + amounts.sum, total.2 + amounts.length)
      else .error (.invalid "bad-transfer-dd-input-amount") := by
  induction tokens generalizing total with
  | nil => simp [inputsOf, fits]
  | @cons utxo amount utxos amounts token tokens ih =>
    obtain ⟨coin, found, zero, read⟩ := token.read
    have positive := token.positive
    have allowed := token.allowed
    have later := TokenCoin.sum_nonneg tokens
    have step : transferInputsFrom ctx node (inputsOf (utxo :: utxos) ++ rest) total =
        (canonicalTransferInput ctx { prevout := utxo } total >>=
          transferInputsFrom ctx node (inputsOf utxos ++ rest)) := by
      simp [inputsOf, transferInputsFrom, token.notNull, active]
    have first : canonicalTransferInput ctx { prevout := utxo } total =
        if total.1 + amount ≤ INT64_MAX then .ok (total.1 + amount, total.2 + 1)
        else .error (.invalid "bad-transfer-dd-input-amount") := by
      unfold canonicalTransferInput addDDAmount
      simp only [found, zero, ne_eq, not_true_eq_false, if_false, read, ok_bind]
      rw [if_neg (by omega)]
      by_cases small : total.1 + amount ≤ INT64_MAX
      · rw [if_neg (by omega), if_pos small]
      · rw [if_pos (by omega), if_neg small]
    rw [step, first, List.sum_cons, List.length_cons]
    by_cases small : total.1 + amount ≤ INT64_MAX
    · rw [if_pos small, ok_bind, ih _ small]
      simp only [add_assoc, add_comm 1]
    · rw [if_neg small, if_neg (by omega)]
      rfl

private theorem transferInputsFrom_coins {utxos : List COutPoint}
    (coins : ∀ utxo ∈ utxos, DGBCoin ctx utxo) (total : ℤ × ℕ) :
    transferInputsFrom ctx node (inputsOf utxos) total = .ok total := by
  induction utxos with
  | nil => rfl
  | cons utxo rest ih =>
    obtain ⟨notNull, coin, found, value⟩ := coins utxo (by simp)
    have later := ih fun utxo member => coins utxo (by simp [member])
    unfold inputsOf at later ⊢
    simp [transferInputsFrom, notNull, active, canonicalTransferInput, found, value, ok_bind, later]

end Inputs

/-! Outputs. -/

/-- What a successful build gives. -/
structure BuiltTransfer (b : TransferTxBuilder) (params : TxBuilderTransferParams)
    (result : TxBuilderResult) : Prop where
  valid : b.validateTransferParams params = true
  enough : TransferTxBuilder.calculateTotalDDOutputs params.recipients ≤
    (b.ddInputAmounts params).sum
  version : result.tx.nVersion = 0x02000770
  inputs : result.tx.vin = inputsOf params.ddUtxos ++ inputsOf params.feeUtxos
  outputs : ∃ tokens dgbChange amounts,
    amounts = TransferTxBuilder.ddOutputAmounts params
      ((b.ddInputAmounts params).sum - TransferTxBuilder.calculateTotalDDOutputs
        params.recipients) ∧
    (∀ out ∈ tokens, isTokenOutput out = true) ∧ tokens.length = amounts.length ∧
    (∀ out ∈ dgbChange, out.nValue ≠ 0 ∧ isOpReturn out.scriptPubKey = false) ∧
    result.tx.vout = tokens ++ (dgbChange ++ [⟨0, amountsScript 2 amounts⟩])

namespace TransferTxBuilder

variable {curve : TaprootCurve} {b : TransferTxBuilder} {params : TxBuilderTransferParams}

private theorem isTokenOutput_push {key : Bytes} (size : key.length = 32) :
    isTokenOutput ⟨0, OP_1 :: pushData key⟩ = true :=
  isTokenOutput_iff.mpr ⟨rfl, isCanonicalP2TROutput_push size⟩

private theorem recipientOutputs_eq_ok {recipients : List (String × ℤ)} {outputs : List CTxOut}
    (decoded : ∀ address key, b.decodeDigiDollarAddress address = .witnessV1Taproot key →
      key.length = 32)
    (made : b.recipientOutputs recipients = .ok outputs) :
    (∀ out ∈ outputs, isTokenOutput out = true) ∧ outputs.length = recipients.length := by
  induction recipients generalizing outputs with
  | nil =>
    cases made
    simp
  | cons recipient rest ih =>
    obtain ⟨address, amount⟩ := recipient
    unfold recipientOutputs at made
    split at made
    · rename_i key destination
      obtain ⟨later, madeLater, result⟩ := bind_eq_ok.mp made
      cases result
      obtain ⟨tokens, length⟩ := ih madeLater
      refine ⟨?_, by simp [length]⟩
      intro out member
      rcases List.mem_cons.mp member with rfl | member
      · exact isTokenOutput_push (decoded address key destination)
      · exact tokens out member
    · cases made

private theorem ddChangeOutputs_eq_ok {totalDDIn totalDDOut : ℤ} {outputs : List CTxOut}
    (laws : CurveLaws curve) (point : curve.isFullyValid params.spenderKey.xOnlyPubKey = true)
    (made : ddChangeOutputs curve params totalDDIn totalDDOut = .ok outputs) :
    (∀ out ∈ outputs, isTokenOutput out = true) ∧
      outputs.length = if 0 < totalDDIn - totalDDOut then 1 else 0 := by
  obtain ⟨tweaked, found, size⟩ := laws.tweaks params.spenderKey.xOnlyPubKey [] point
  unfold ddChangeOutputs at made
  rw [found] at made
  dsimp only at made
  split_ifs at made ⊢ with change short
  · cases made
    refine ⟨?_, rfl⟩
    intro out member
    rw [List.mem_singleton] at member
    subst member
    exact isTokenOutput_push size
  · cases made
    simp

private theorem dgbChangeOutputs_eq_ok {dgbChange : ℤ} {outputs : List CTxOut}
    (made : dgbChangeOutputs params dgbChange = .ok outputs) :
    ∀ out ∈ outputs, out.nValue ≠ 0 ∧ isOpReturn out.scriptPubKey = false := by
  unfold dgbChangeOutputs at made
  split_ifs at made with large
  · obtain ⟨script, resolved, result⟩ := bind_eq_ok.mp made
    cases result
    obtain ⟨target, _, valid, rfl, _⟩ := resolveDGBChangeScript_eq_ok resolved
    intro out member
    rw [List.mem_singleton] at member
    subst member
    exact ⟨by dsimp only; omega, isOpReturn_getScriptForDestination valid⟩
  · cases made
    simp

theorem validateTransferParams_iff : b.validateTransferParams params = true ↔
    params.recipients ≠ [] ∧
      (∀ recipient ∈ params.recipients,
        b.isValidDigiDollarAddressForCurrentNetwork recipient.1 = true ∧ 0 < recipient.2 ∧
          b.chainParams.digidollarParams.minOutputAmount ≤ recipient.2 ∧ recipient.2 ≤ 10000000) ∧
      params.ddUtxos ≠ [] ∧ params.spenderKey.isValid = true ∧
      TxBuilder.validateFeeRate params.feeRate = true := by
  simp only [validateTransferParams, Bool.and_eq_true, decide_eq_true_eq, List.all_eq_true,
    and_assoc]
  exact Iff.rfl

theorem builtTransfer_of_ok {result : TxBuilderResult} (laws : CurveLaws curve)
    (onCurve : params.spenderKey.OnCurve curve)
    (decoded : ∀ address key, b.decodeDigiDollarAddress address = .witnessV1Taproot key →
      key.length = 32)
    (built : buildTransferTransaction curve b params = .ok result) :
    BuiltTransfer b params result := by
  simp only [buildTransferTransaction, bind_eq_ok, rejectIf_eq_ok] at built
  obtain ⟨_, valid, _, enough, _, _, recipients, decodedAll, change, changed, _, _, _, _, dgbChange,
    returned, _, _, _, _, _, _, _, _, result⟩ := built
  cases result
  have valid : b.validateTransferParams params = true := by simpa using valid
  obtain ⟨_, _, _, key, _⟩ := validateTransferParams_iff.mp valid
  obtain ⟨point, _⟩ := onCurve key
  obtain ⟨tokens, length⟩ := recipientOutputs_eq_ok decoded decodedAll
  obtain ⟨changeTokens, changeLength⟩ := ddChangeOutputs_eq_ok laws point changed
  refine ⟨valid, by omega, rfl, by simp [inputsOf], recipients ++ change, dgbChange, _, rfl, ?_, ?_,
    dgbChangeOutputs_eq_ok returned, by simp⟩
  · intro out member
    rcases List.mem_append.mp member with member | member
    · exact tokens out member
    · exact changeTokens out member
  · rw [List.length_append, length, changeLength, ddOutputAmounts, List.length_append,
      List.length_map]
    split_ifs <;> rfl

end TransferTxBuilder

/-! The rules on built outputs. -/

private theorem transferAmountsFrom_untagged {outs rest : List CTxOut} (count : ℕ) (acc : List ℤ)
    (untagged : ∀ out ∈ outs, isOpReturn out.scriptPubKey = false) :
    transferAmountsFrom (outs ++ rest) count acc = transferAmountsFrom rest count acc := by
  induction outs with
  | nil => rfl
  | cons out outs ih =>
    have untaggedOut : ddPayload out.scriptPubKey = none := by
      simp [ddPayload, untagged out (by simp)]
    rw [List.cons_append, transferAmountsFrom, untaggedOut]
    exact ih fun out member => untagged out (by simp [member])

private theorem readTransferAmounts_pushes {amounts : List ℤ}
    (numbers : ∀ amount ∈ amounts, amount ≠ 0 ∧ amount.natAbs < 0x80 * 256 ^ 7) :
    readTransferAmounts ((amounts.map serializeNum).map fun data =>
      (UInt8.ofNat data.length, data)) =
      .ok amounts := by
  induction amounts with
  | nil => rfl
  | cons amount rest ih =>
    obtain ⟨nonzero, bound⟩ := numbers amount (by simp)
    have later := ih fun amount member => numbers amount (by simp [member])
    have nonempty := serializeNum_ne_nil bound nonzero
    have value := scriptNum_serializeNum_of_lt le_rfl bound le_rfl true
    simp only [List.map_cons, readTransferAmounts, nonempty, if_false, value, later, ok_bind]

private theorem readTransferPayload_amounts {amounts : List ℤ}
    (numbers : ∀ amount ∈ amounts, amount ≠ 0 ∧ amount.natAbs < 0x80 * 256 ^ 7) :
    readTransferPayload (pushData (serializeNum 2) ++ (amounts.map serializeNum).flatMap pushData) =
      .ok amounts := by
  obtain ⟨opcode, type⟩ :=
    @getScriptOp_pushNum 2 (by decide) ((amounts.map serializeNum).flatMap pushData)
  have value : scriptNum (serializeNum 2) true 4 = some 2 := by decide
  have short : ∀ data ∈ amounts.map serializeNum, data.length < 0x4c := by
    intro data member
    obtain ⟨amount, listed, rfl⟩ := List.mem_map.mp member
    have length := length_serializeNum_le le_rfl (numbers amount listed).2
    omega
  unfold readTransferPayload
  rw [type]
  dsimp only
  rw [value]
  dsimp only
  rw [rejectIf_bind_of_not (by decide), scriptOps_pushes short]
  exact readTransferAmounts_pushes numbers

private theorem checkTransferAmount_iff {params : CChainParams} {amount : ℤ} :
    checkTransferAmount params amount = .ok () ↔
      0 < amount ∧ params.digidollarParams.minOutputAmount ≤ amount ∧
      amount ≤ MAX_TRANSFER_AMOUNT := by
  have limits : ¬ validateOutputAmount amount params = false ↔
      params.digidollarParams.minOutputAmount ≤ amount ∧ amount ≤ MAX_DIGIDOLLAR := by
    simp [validateOutputAmount]
  have below : MAX_TRANSFER_AMOUNT ≤ MAX_DIGIDOLLAR := by decide
  simp only [checkTransferAmount, bind_eq_ok, rejectIf_eq_ok, limits]
  constructor
  · rintro ⟨_, positive, _, ⟨low, _⟩, high⟩
    exact ⟨by omega, low, by omega⟩
  · rintro ⟨positive, low, high⟩
    exact ⟨(), by omega, (), ⟨low, by omega⟩, by omega⟩

private theorem transferOutputsFrom_skipped {params : CChainParams} {outs : List CTxOut}
    {l : List ℤ} {count : ℕ} {sum : ℤ}
    (skipped : ∀ out ∈ outs, isOpReturn out.scriptPubKey = true ∨ out.nValue ≠ 0) :
    transferOutputsFrom params outs l count sum = .ok (l, count, sum) := by
  induction outs with
  | nil => rfl
  | cons out rest ih =>
    unfold transferOutputsFrom
    rw [if_pos (skipped out (by simp))]
    exact ih fun out member => skipped out (by simp [member])

private theorem transferOutputsFrom_tokens {params : CChainParams} {tokens rest : List CTxOut}
    {amounts : List ℤ} {count : ℕ} {sum : ℤ} {result : List ℤ × ℕ × ℤ}
    (shape : ∀ out ∈ tokens, isTokenOutput out = true) (length : tokens.length = amounts.length) :
    transferOutputsFrom params (tokens ++ rest) amounts count sum = .ok result ↔
      (∀ amount ∈ amounts, checkTransferAmount params amount = .ok ()) ∧
        transferOutputsFrom params rest [] (count + amounts.length) (sum + amounts.sum) =
          .ok result := by
  induction tokens generalizing amounts count sum with
  | nil =>
    have nothing : amounts = [] := List.length_eq_zero_iff.mp length.symm
    subst nothing
    simp
  | cons out tokens ih =>
    cases amounts with
    | nil => simp at length
    | cons amount amounts =>
      obtain ⟨zero, p2tr⟩ := isTokenOutput_iff.mp (shape out (by simp))
      have notReturn := isOpReturn_eq_false_of_p2tr p2tr
      have step : transferOutputsFrom params (out :: (tokens ++ rest)) (amount :: amounts)
          count sum =
          (checkTransferAmount params amount >>= fun _ =>
            transferOutputsFrom params (tokens ++ rest) amounts (count + 1) (sum + amount)) := by
        conv_lhs => unfold transferOutputsFrom
        rw [if_neg (by simp [zero, notReturn]), if_neg (by simp [p2tr]), if_pos p2tr]
      rw [List.cons_append, step, bind_eq_ok]
      simp only [ih (fun out member => shape out (by simp [member])) (by simpa using length),
        List.forall_mem_cons, List.length_cons, List.sum_cons]
      rw [add_assoc count, add_comm 1, add_assoc sum]
      constructor
      · rintro ⟨_, first, later, last⟩
        exact ⟨⟨first, later⟩, last⟩
      · rintro ⟨⟨first, later⟩, last⟩
        exact ⟨(), first, later, last⟩

section Outputs

variable {tokens dgbChange : List CTxOut} {amounts : List ℤ}
  (shape : ∀ out ∈ tokens, isTokenOutput out = true)
  (returned : ∀ out ∈ dgbChange, out.nValue ≠ 0 ∧ isOpReturn out.scriptPubKey = false)

include shape returned in
private theorem transferAmountsFrom_built
    (numbers : ∀ amount ∈ amounts, amount ≠ 0 ∧ amount.natAbs < 0x80 * 256 ^ 7) :
    transferAmountsFrom (tokens ++ (dgbChange ++ [⟨0, amountsScript 2 amounts⟩])) 0 [] =
      .ok amounts := by
  have untagged : ∀ out ∈ tokens, isOpReturn out.scriptPubKey = false := by
    intro out member
    exact isOpReturn_eq_false_of_p2tr (isTokenOutput_iff.mp (shape out member)).2
  rw [transferAmountsFrom_untagged 0 [] untagged,
    transferAmountsFrom_untagged 0 [] fun out member => (returned out member).2]
  simp only [transferAmountsFrom, amountsScript, ddPayload_tagged]
  rw [rejectIf_bind_of_not (by decide), readTransferPayload_amounts numbers]
  rfl

include shape returned in
private theorem transferOutputsFrom_built {params : CChainParams} {result : List ℤ × ℕ × ℤ}
    (length : tokens.length = amounts.length) :
    transferOutputsFrom params (tokens ++ (dgbChange ++ [⟨0, amountsScript 2 amounts⟩]))
      amounts 0 0 =
        .ok result ↔
      (∀ amount ∈ amounts, checkTransferAmount params amount = .ok ()) ∧
        result = ([], amounts.length, amounts.sum) := by
  have skipped : ∀ out ∈ dgbChange ++ [⟨0, amountsScript 2 amounts⟩],
      isOpReturn out.scriptPubKey = true ∨ out.nValue ≠ 0 := by
    intro out member
    rcases List.mem_append.mp member with member | member
    · exact .inr (returned out member).1
    · rw [List.mem_singleton] at member
      subst member
      exact .inl rfl
  rw [transferOutputsFrom_tokens shape length, transferOutputsFrom_skipped skipped]
  simp only [zero_add, Except.ok.injEq, eq_comm]

end Outputs

/-! The whole transaction. -/

section Whole

variable {curve : TaprootCurve} {b : TransferTxBuilder} {params : TxBuilderTransferParams}
  {result : TxBuilderResult} {ctx : ValidationContext} {node : NodeState}

private theorem BuiltTransfer.amounts_bounds (built : BuiltTransfer b params result)
    (fits : (b.ddInputAmounts params).sum ≤ INT64_MAX) (amount : ℤ)
    (listed : amount ∈ TransferTxBuilder.ddOutputAmounts params ((b.ddInputAmounts params).sum -
      TransferTxBuilder.calculateTotalDDOutputs params.recipients)) :
    amount ≠ 0 ∧ amount.natAbs < 0x80 * 256 ^ 7 := by
  obtain ⟨_, recipients, _⟩ := TransferTxBuilder.validateTransferParams_iff.mp built.valid
  have positive : 0 ≤ TransferTxBuilder.calculateTotalDDOutputs params.recipients := by
    refine List.sum_nonneg ?_
    intro amount member
    obtain ⟨recipient, listed, rfl⟩ := List.mem_map.mp member
    exact (recipients recipient listed).2.1.le
  unfold INT64_MAX at fits
  rcases List.mem_append.mp listed with member | member
  · obtain ⟨recipient, paid, rfl⟩ := List.mem_map.mp member
    obtain ⟨_, low, _, high⟩ := recipients recipient paid
    omega
  · split_ifs at member with change
    · rw [List.mem_singleton] at member
      omega
    · cases member

private theorem sum_ddOutputAmounts {totalDDIn totalDDOut : ℤ}
    (total : totalDDOut = TransferTxBuilder.calculateTotalDDOutputs params.recipients)
    (enough : totalDDOut ≤ totalDDIn) :
    (TransferTxBuilder.ddOutputAmounts params (totalDDIn - totalDDOut)).sum = totalDDIn := by
  unfold TransferTxBuilder.ddOutputAmounts
  rw [List.sum_append, ← TransferTxBuilder.calculateTotalDDOutputs, ← total]
  split_ifs with change
  · simp
  · simp only [List.sum_nil]
    omega

private theorem BuiltTransfer.amounts_pass_iff (built : BuiltTransfer b params result)
    (chain : ctx.params = b.chainParams)
    (standard : (b.ddInputAmounts params).sum -
        TransferTxBuilder.calculateTotalDDOutputs params.recipients = 0 ∨
      b.chainParams.digidollarParams.minOutputAmount ≤ (b.ddInputAmounts params).sum -
        TransferTxBuilder.calculateTotalDDOutputs params.recipients) :
    (∀ amount ∈ TransferTxBuilder.ddOutputAmounts params ((b.ddInputAmounts params).sum -
        TransferTxBuilder.calculateTotalDDOutputs params.recipients),
      checkTransferAmount ctx.params amount = .ok ()) ↔
    (b.ddInputAmounts params).sum -
      TransferTxBuilder.calculateTotalDDOutputs params.recipients ≤ MAX_TRANSFER_AMOUNT := by
  obtain ⟨_, recipients, _⟩ := TransferTxBuilder.validateTransferParams_iff.mp built.valid
  generalize (b.ddInputAmounts params).sum -
    TransferTxBuilder.calculateTotalDDOutputs params.recipients = ddChange at standard ⊢
  have limit : (0 : ℤ) ≤ MAX_TRANSFER_AMOUNT := by decide
  simp only [checkTransferAmount_iff, chain]
  constructor
  · intro pass
    by_cases change : 0 < ddChange
    · exact (pass ddChange (by simp [TransferTxBuilder.ddOutputAmounts, change])).2.2
    · omega
  · intro below amount listed
    rcases List.mem_append.mp listed with member | member
    · obtain ⟨recipient, paid, rfl⟩ := List.mem_map.mp member
      exact (recipients recipient paid).2
    · split_ifs at member with change
      · rw [List.mem_singleton] at member
        omega
      · cases member

private theorem checkTransferInputs_built {tx : CTransaction} {amounts : List ℤ} {outputDD : ℤ}
    {ddUtxos feeUtxos : List COutPoint} (active : ctx.canonical = true)
    (vin : tx.vin = inputsOf ddUtxos ++ inputsOf feeUtxos) (nonempty : ddUtxos ≠ [])
    (tokens : List.Forall₂ (TokenCoin ctx) ddUtxos amounts)
    (fees : ∀ utxo ∈ feeUtxos, DGBCoin ctx utxo) :
    checkTransferInputs tx ctx node outputDD = .ok () ↔
      amounts.sum ≤ INT64_MAX ∧ amounts.sum = outputDD := by
  have spent : transferInputsFrom ctx node tx.vin (0, 0) =
      if amounts.sum ≤ INT64_MAX then .ok (amounts.sum, amounts.length)
      else .error (.invalid "bad-transfer-dd-input-amount") := by
    rw [vin, transferInputsFrom_tokens active tokens _ _ (by decide)]
    simp only [zero_add, transferInputsFrom_coins active fees]
  have someToken : amounts.length ≠ 0 := by
    rw [← tokens.length_eq]
    simpa using nonempty
  have noNull : ¬ ∃ txin ∈ tx.vin, txin.prevout.isNull = true := by
    rintro ⟨txin, member, null⟩
    rw [vin] at member
    rcases List.mem_append.mp member with member | member
    · obtain ⟨utxo, listed, rfl⟩ := List.mem_map.mp member
      exact absurd null (by simp [TokenCoin.notNull_of_mem tokens utxo listed])
    · obtain ⟨utxo, listed, rfl⟩ := List.mem_map.mp member
      exact absurd null (by simp [(fees utxo listed).notNull])
  have someInput : ¬ tx.vin = [] := by
    rw [vin]
    simp [inputsOf, nonempty]
  unfold checkTransferInputs
  rw [rejectIf_bind_of_not someInput, spent]
  by_cases fits : amounts.sum ≤ INT64_MAX
  · rw [if_pos fits, ok_bind, rejectIf_bind_of_not someToken]
    simp only [bind_eq_ok, rejectIf_eq_ok, not_not, noNull, not_false_iff, and_true,
      exists_const, fits, true_and]
  · rw [if_neg fits]
    simp [fits, Except.bind, bind]

end Whole

namespace Sample

/-- A redemption that returned token change. -/
def changeOf (amount : ℤ) : CTransaction :=
  { hash := 4
    nVersion := 0x03000770
    vin := [{ prevout := ⟨2, 0⟩ }, { prevout := ⟨3, 0⟩ }]
    vout := [⟨100000000000, []⟩, ⟨0, p2tr 8⟩, ⟨0, amountsScript 3 [amount]⟩]
    nLockTime := 250 }

/-- The chain after that redemption, with a coin that pays fees. -/
def changeCtx (amount : ℤ) : ValidationContext :=
  { mintCtx with
    nHeight := 300
    coins := some
      { getCoin := fun outpoint =>
          if outpoint = ⟨1, 0⟩ then some funding
          else if outpoint = ⟨4, 1⟩ then some ⟨⟨0, p2tr 8⟩, false, 260⟩
          else none
        digiDollarState := none }
    txLookup := some fun hash height =>
      if hash = 4 ∧ height = 260 then some (changeOf amount) else none }

/-- A wallet with one valid address, whose coins are listed with their amounts. -/
def transferBuilder : TransferTxBuilder :=
  { chainParams := params
    currentHeight := 300
    oraclePrice := 1000000
    candidateHealth := some 30000
    getUTXOValueVirtual := fun _ => 200000000000
    metrics := ⟨false, 0, 0, 0, 0⟩
    isValidDigiDollarAddressForCurrentNetwork := fun _ => true
    decodeDigiDollarAddress := fun _ => .witnessV1Taproot (List.replicate 32 5)
    getDDFromUTXO := fun _ => 0 }

/-- Ten dollars out of a change coin. -/
def tenDollars (amount : ℤ) : TxBuilderTransferParams :=
  { recipients := [("DD", 1000)]
    feeRate := 10000000
    ddUtxos := [⟨4, 1⟩]
    ddAmounts := [amount]
    feeUtxos := [⟨1, 0⟩]
    feeAmounts := [200000000000]
    spenderKey := ⟨true, List.replicate 32 9⟩
    dgbChangeDest := some (.witnessV0KeyHash (List.replicate 20 3)) }

private theorem changeCoin {amount : ℤ} (allowed : amount ≤ MAX_DIGIDOLLAR)
    (read : extractDDAmountFromTxRef (changeOf amount) 1 = some amount) :
    List.Forall₂ (TokenCoin (changeCtx amount)) (tenDollars amount).ddUtxos
      (transferBuilder.ddInputAmounts (tenDollars amount)) := by
  have token : TokenCoin (changeCtx amount) ⟨4, 1⟩ amount :=
    ⟨by decide,
      ⟨⟨⟨0, p2tr 8⟩, false, 260⟩, changeOf amount, rfl, rfl, by decide, rfl, rfl, rfl, read⟩,
      allowed⟩
  exact .cons token .nil

private theorem changeFees (amount : ℤ) :
    ∀ utxo ∈ (tenDollars amount).feeUtxos, DGBCoin (changeCtx amount) utxo := by
  intro utxo member
  cases List.mem_singleton.mp member
  exact ⟨by decide, funding, rfl, by decide⟩

end Sample

end DigiByte.DigiDollar
