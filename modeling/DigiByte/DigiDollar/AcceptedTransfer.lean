import DigiByte.DigiDollar.Transfer
import DigiByte.DigiDollar.Readers
import Mathlib.Algebra.Order.BigOperators.Group.List

/-!
What an accepted transfer moves from Thaw Day on: the readable amounts of its
token outputs add up to the readable amounts of its zero-value inputs.
-/

set_option autoImplicit false
set_option relaxedAutoImplicit false

namespace DigiByte.DigiDollar

open Consensus Script
open Library.Checks (rejectIf bind_eq_ok rejectIf_eq_ok)

/-- The amount that later spends can read from one output, 0 when there is none. -/
def readableAmount (tx : CTransaction) (n : ℕ) : ℤ := (extractDDAmountFromTxRef tx n).getD 0

/-- The readable amounts of all outputs. -/
def readableOutputs (tx : CTransaction) : ℤ :=
  ((List.range tx.vout.length).map (readableAmount tx)).sum

/-- The readable amount of a zero-value input of the context. -/
def inputAmount (ctx : ValidationContext) (txin : CTxIn) : ℤ :=
  match ctx.getCoin txin.prevout with
  | none => 0
  | some coin =>
    if coin.out.nValue ≠ 0 then 0
    else match creatingTransaction (contextTransactionLookup ctx) txin.prevout coin with
      | none => 0
      | some creating => readableAmount creating txin.prevout.n

theorem readableOutputs_eq {tx : CTransaction} {pc : Bytes} {l : List ℤ}
    (coinbase : tx.isCoinBase = false) (marked : hasDigiDollarMarker tx = true)
    (payload : ddPayloads tx.vout = [pc])
    (read : readPayload (getDigiDollarTxType tx) pc = some l) :
    readableOutputs tx = ((tokenAmounts l tx.vout).map (·.getD 0)).sum := by
  have entry : (List.range tx.vout.length).map (readableAmount tx) =
      (tokenAmounts l tx.vout).map (·.getD 0) := by
    apply List.ext_getElem
    · simp [tokenAmounts_length]
    · intro n inRange inRange'
      have bound : n < (tokenAmounts l tx.vout).length := by simpa using inRange'
      simp [readableAmount, extractDDAmountFromTxRef_eq n coinbase marked payload read,
        List.getElem?_eq_getElem bound]
  rw [readableOutputs, entry]

theorem readableOutputs_unmarked {tx : CTransaction} (unmarked : hasDigiDollarMarker tx = false) :
    readableOutputs tx = 0 := by
  have none_readable : readableAmount tx = fun _ => 0 := by
    funext n
    simp [readableAmount, extractDDAmountFromTxRef, unmarked]
  simp [readableOutputs, none_readable]

theorem readableAmount_nonneg (tx : CTransaction) (n : ℕ) : 0 ≤ readableAmount tx n := by
  unfold readableAmount
  cases extracted : extractDDAmountFromTxRef tx n with
  | none => simp
  | some amount =>
    obtain ⟨_, _, _, _, _, _, entry⟩ := readPayload_of_extract extracted
    exact (tokenAmounts_eq_some entry).1.le

theorem readableOutputs_nonneg (tx : CTransaction) : 0 ≤ readableOutputs tx := by
  refine List.sum_nonneg ?_
  intro amount member
  obtain ⟨n, _, rfl⟩ := List.mem_map.mp member
  exact readableAmount_nonneg tx n

theorem isTokenOutput_of_extract {tx : CTransaction} {n : ℕ} {amount : ℤ} {out : CTxOut}
    (extracted : extractDDAmountFromTxRef tx n = some amount) (at_n : tx.vout[n]? = some out) :
    isTokenOutput out = true := by
  obtain ⟨_, _, pc, l, _, _, entry⟩ := readPayload_of_extract extracted
  obtain ⟨_, out', at_n', token⟩ := tokenAmounts_eq_some entry
  rw [at_n] at at_n'
  cases at_n'
  exact token

theorem readableAmount_eq_zero {tx : CTransaction} {n : ℕ} {out : CTxOut}
    (at_n : tx.vout[n]? = some out) (notToken : isTokenOutput out = false) :
    readableAmount tx n = 0 := by
  cases extracted : extractDDAmountFromTxRef tx n with
  | none => simp [readableAmount, extracted]
  | some amount =>
    rw [isTokenOutput_of_extract extracted at_n] at notToken
    cases notToken

/-! Reading one input. -/

theorem readCanonicalTokenAmount_eq_ok {outpoint : COutPoint} {coin : Coin}
    {ctx : ValidationContext} {amount : ℤ}
    (h : readCanonicalTokenAmount outpoint coin ctx = .ok amount) :
    coinHeightMayCreateDigiDollar coin ctx = true ∧ coin.fCoinBase = false ∧
      ∃ creating, creatingTransaction (contextTransactionLookup ctx) outpoint coin = some creating ∧
        extractDDAmountFromTxRef creating outpoint.n = some amount := by
  simp only [readCanonicalTokenAmount, bind_eq_ok, rejectIf_eq_ok, not_or, Bool.not_eq_true,
    Bool.not_eq_false] at h
  obtain ⟨_, _, _, ⟨mayCreate, coinbase⟩, h⟩ := h
  refine ⟨mayCreate, coinbase, ?_⟩
  cases created : creatingTransaction (contextTransactionLookup ctx) outpoint coin with
  | none => simp [created] at h
  | some creating =>
    refine ⟨creating, rfl, ?_⟩
    have lookup := (creatingTransaction_eq_some created).1
    simp only [created, extractDDAmountFromBlockDb, lookup, Option.bind_some] at h
    cases extracted : extractDDAmountFromTxRef creating outpoint.n with
    | none => simp [extracted] at h
    | some value => simpa [extracted] using h

theorem reached_of_mayCreate {ctx : ValidationContext} {coin : Coin} (active : ctx.canonical = true)
    (nonneg : 0 ≤ ctx.params.consensus.DigiDollarHeight)
    (mayCreate : coinHeightMayCreateDigiDollar coin ctx = true) :
    toUint32 ctx.params.consensus.DigiDollarHeight ≤ coin.nHeight := by
  simp only [coinHeightMayCreateDigiDollar, active, if_true] at mayCreate
  split_ifs at mayCreate
  simp only [Bool.or_eq_true, decide_eq_true_eq] at mayCreate
  rcases mayCreate with low | reached
  · have zero : ctx.params.consensus.DigiDollarHeight = 0 := by omega
    simp [zero, toUint32]
  · exact reached

theorem addDDAmount_eq_some {total amount sum : ℤ} (h : addDDAmount total amount = some sum) :
    sum = total + amount := by
  unfold addDDAmount at h
  split_ifs at h
  cases h
  rfl

/-- The facts about a zero-value input that both validators rely on. -/
structure TokenInput (ctx : ValidationContext) (txin : CTxIn) : Prop where
  read : ∀ coin, ctx.getCoin txin.prevout = some coin → coin.out.nValue = 0 →
    ∃ amount, readCanonicalTokenAmount txin.prevout coin ctx = .ok amount

theorem inputAmount_of_read {ctx : ValidationContext} {txin : CTxIn} {coin : Coin} {amount : ℤ}
    (found : ctx.getCoin txin.prevout = some coin) (zero : coin.out.nValue = 0)
    (read : readCanonicalTokenAmount txin.prevout coin ctx = .ok amount) :
    inputAmount ctx txin = amount := by
  obtain ⟨_, _, creating, created, extracted⟩ := readCanonicalTokenAmount_eq_ok read
  simp [inputAmount, found, zero, created, readableAmount, extracted]

theorem inputAmount_of_value {ctx : ValidationContext} {txin : CTxIn} {coin : Coin}
    (found : ctx.getCoin txin.prevout = some coin) (value : coin.out.nValue ≠ 0) :
    inputAmount ctx txin = 0 := by
  simp [inputAmount, found, value]

private theorem canonicalTransferInput_eq_ok {ctx : ValidationContext} {txin : CTxIn}
    {total total' : ℤ × ℕ} (h : canonicalTransferInput ctx txin total = .ok total') :
    total'.1 = total.1 + inputAmount ctx txin ∧ TokenInput ctx txin := by
  unfold canonicalTransferInput at h
  cases found : ctx.getCoin txin.prevout with
  | none => simp [found] at h
  | some coin =>
    simp only [found] at h
    split_ifs at h with value
    · cases h
      refine ⟨by simp [inputAmount_of_value found value], ⟨fun coin' found' zero => ?_⟩⟩
      rw [found] at found'
      cases found'
      exact absurd zero value
    · have zero : coin.out.nValue = 0 := by simpa using value
      obtain ⟨ddAmt, read, h⟩ := bind_eq_ok.mp h
      cases added : addDDAmount total.1 ddAmt with
      | none => simp [added] at h
      | some inputDD =>
        simp only [added, Except.ok.injEq] at h
        subst h
        refine ⟨?_, ⟨fun coin' found' _ => ?_⟩⟩
        · rw [inputAmount_of_read found zero read]
          exact addDDAmount_eq_some added
        · rw [found] at found'
          cases found'
          exact ⟨ddAmt, read⟩

private theorem transferInputsFrom_eq_ok {ctx : ValidationContext} {node : NodeState}
    {vin : List CTxIn} {total total' : ℤ × ℕ} (active : ctx.canonical = true)
    (noNull : ∀ txin ∈ vin, txin.prevout.isNull = false)
    (h : transferInputsFrom ctx node vin total = .ok total') :
    total'.1 = total.1 + (vin.map (inputAmount ctx)).sum ∧ ∀ txin ∈ vin, TokenInput ctx txin := by
  induction vin generalizing total with
  | nil =>
    cases h
    simp
  | cons txin rest ih =>
    simp only [transferInputsFrom, noNull txin (by simp), active, Bool.false_eq_true, if_false,
      if_true, bind_eq_ok] at h
    obtain ⟨next, first, later⟩ := h
    obtain ⟨sum, read⟩ := canonicalTransferInput_eq_ok first
    obtain ⟨sum', read'⟩ := ih (fun txin' member => noNull txin' (by simp [member])) later
    refine ⟨?_, ?_⟩
    · rw [sum', sum, List.map_cons, List.sum_cons]
      ring
    · simpa using ⟨read, read'⟩

/-! Payload and outputs. -/

private theorem readTransferAmounts_eq_ok {ops : List (UInt8 × Bytes)} {l : List ℤ}
    (h : readTransferAmounts ops = .ok l) : (ops.filterMap fun op => readAmount op.2) = l := by
  induction ops generalizing l with
  | nil =>
    cases h
    rfl
  | cons op rest ih =>
    obtain ⟨opcode, data⟩ := op
    unfold readTransferAmounts at h
    split_ifs at h with empty
    · simpa [readAmount, empty] using ih h
    · cases number : scriptNum data true 8 with
      | none => simp [number] at h
      | some amount =>
        simp only [number, bind_eq_ok] at h
        obtain ⟨amounts, later, result⟩ := h
        cases result
        have head : readAmount data = some amount := by simp [readAmount, empty, number]
        simp [head, ih later]

private theorem readTransferPayload_eq_ok {pc : Bytes} {l : List ℤ}
    (h : readTransferPayload pc = .ok l) : readPayload .transfer pc = some l := by
  unfold readTransferPayload at h
  rcases first : getScriptOp pc with ⟨_ | ⟨opcode, data⟩, pc₁⟩
  · simp [first] at h
  · cases number : scriptNum data true 4 with
    | none => simp [first, number] at h
    | some txType =>
      simp only [first, number, bind_eq_ok, rejectIf_eq_ok, ne_eq, not_not] at h
      obtain ⟨_, type, amounts⟩ := h
      have typed : readTxType data = some txType := by
        unfold readTxType
        split_ifs with empty
        · rw [empty] at number
          simp [scriptNum, Library.SignMagnitude.minimal, Library.SignMagnitude.decode] at number
          rw [number]
        · exact number
      simp [readPayload, first, typed, type, payloadAmounts, readTransferAmounts_eq_ok amounts]

private theorem transferAmountsFrom_cases {vout : List CTxOut} {count : ℕ} {acc l : List ℤ}
    (h : transferAmountsFrom vout count acc = .ok l) :
    (ddPayloads vout = [] ∧ l = acc) ∨
      (count = 0 ∧ ∃ pc amounts, ddPayloads vout = [pc] ∧ readPayload .transfer pc = some amounts ∧
        l = acc ++ amounts) := by
  induction vout generalizing count acc with
  | nil =>
    cases h
    exact .inl ⟨rfl, rfl⟩
  | cons out rest ih =>
    cases tagged : ddPayload out.scriptPubKey with
    | none =>
      simp only [transferAmountsFrom, tagged] at h
      simpa [ddPayloads, tagged] using ih h
    | some pc =>
      simp only [transferAmountsFrom, tagged, bind_eq_ok, rejectIf_eq_ok] at h
      obtain ⟨_, first, amounts, read, later⟩ := h
      rcases ih later with ⟨none_left, rfl⟩ | ⟨counted, _⟩
      · refine .inr ⟨by omega, pc, amounts, ?_, readTransferPayload_eq_ok read, rfl⟩
        rw [ddPayloads, List.filterMap_cons, tagged, ← ddPayloads, none_left]
      · omega

private theorem transferAmountsFrom_eq_ok {vout : List CTxOut} {l : List ℤ}
    (h : transferAmountsFrom vout 0 [] = .ok l) (nonempty : l ≠ []) :
    ∃ pc, ddPayloads vout = [pc] ∧ readPayload .transfer pc = some l := by
  rcases transferAmountsFrom_cases h with ⟨_, rfl⟩ | ⟨_, pc, amounts, payload, read, rfl⟩
  · exact absurd rfl nonempty
  · exact ⟨pc, payload, read⟩

private theorem transferOutputsFrom_eq_ok {params : CChainParams} {vout : List CTxOut}
    {l rest : List ℤ} {count count' : ℕ} {sum sum' : ℤ}
    (h : transferOutputsFrom params vout l count sum = .ok (rest, count', sum')) :
    sum' = sum + ((tokenAmounts l vout).map (·.getD 0)).sum := by
  induction vout generalizing l count sum with
  | nil =>
    cases h
    simp [tokenAmounts]
  | cons out vout ih =>
    unfold transferOutputsFrom at h
    by_cases token : isTokenOutput out = true
    · obtain ⟨zero, p2tr⟩ := isTokenOutput_iff.mp token
      rw [if_neg (by simp [zero, isOpReturn_eq_false_of_p2tr p2tr]), if_neg (by simp [p2tr]),
        if_pos p2tr] at h
      cases l with
      | nil => simp at h
      | cons amount l =>
        simp only [checkTransferAmount, bind_eq_ok, rejectIf_eq_ok] at h
        obtain ⟨_, ⟨_, positive, _⟩, later⟩ := h
        have keep : (some amount).filter (0 < ·) = some amount := by
          simp [Option.filter, show 0 < amount by omega]
        rw [ih later, tokenAmounts, if_pos token, List.head?_cons, keep]
        simp
        ring
    · rw [tokenAmounts, if_neg token]
      split_ifs at h with skip impostor p2tr
      · simpa using ih h
      · exact absurd (isTokenOutput_iff.mpr ⟨by
          by_contra value
          exact skip (.inr value), p2tr⟩) token
      · simpa using ih h

private theorem transferOutputsFrom_readable {params : CChainParams} {vout : List CTxOut}
    {l : List ℤ} {count : ℕ} {sum : ℤ} {result : List ℤ × ℕ × ℤ}
    (h : transferOutputsFrom params vout l count sum = .ok result) {n : ℕ} {out : CTxOut}
    (at_n : vout[n]? = some out) (token : isTokenOutput out = true) :
    ((tokenAmounts l vout)[n]?).join.isSome = true := by
  induction vout generalizing l count sum n with
  | nil => simp at at_n
  | cons first rest ih =>
    unfold transferOutputsFrom at h
    by_cases here : isTokenOutput first = true
    · obtain ⟨zero, p2tr⟩ := isTokenOutput_iff.mp here
      rw [if_neg (by simp [zero, isOpReturn_eq_false_of_p2tr p2tr]), if_neg (by simp [p2tr]),
        if_pos p2tr] at h
      cases l with
      | nil => simp at h
      | cons amount l =>
        simp only [checkTransferAmount, bind_eq_ok, rejectIf_eq_ok] at h
        obtain ⟨_, ⟨_, positive, _⟩, later⟩ := h
        rw [tokenAmounts, if_pos here]
        cases n with
        | zero => simp [Option.filter, show 0 < amount by omega]
        | succ n => simpa using ih later (by simpa using at_n)
    · rw [tokenAmounts, if_neg here]
      cases n with
      | zero =>
        have same : first = out := by simpa using at_n
        exact absurd (same ▸ token) here
      | succ n =>
        have at_n : rest[n]? = some out := by simpa using at_n
        rw [List.getElem?_cons_succ]
        split_ifs at h with skip impostor p2tr
        · exact ih h at_n
        · exact absurd (isTokenOutput_iff.mpr ⟨by
            by_contra value
            exact skip (.inr value), p2tr⟩) here
        · exact ih h at_n

theorem validateTransferTransaction_readable {tx : CTransaction} {ctx : ValidationContext}
    {node : NodeState} (coinbase : tx.isCoinBase = false)
    (h : validateTransferTransaction tx ctx node = .ok ()) {n : ℕ} {out : CTxOut}
    (at_n : tx.vout[n]? = some out) (token : isTokenOutput out = true) :
    (extractDDAmountFromTxRef tx n).isSome = true := by
  simp only [validateTransferTransaction, bind_eq_ok, rejectIf_eq_ok] at h
  obtain ⟨_, marked, _, type, _, _, l, amounts, _, nonempty, result, outputs, _⟩ := h
  have marked : hasDigiDollarMarker tx = true := by simpa using marked
  have type : getDigiDollarTxType tx = .transfer := by simpa using type
  obtain ⟨pc, payload, read⟩ := transferAmountsFrom_eq_ok amounts nonempty
  rw [extractDDAmountFromTxRef_eq n coinbase marked payload (type ▸ read)]
  exact transferOutputsFrom_readable outputs at_n token

theorem validateTransferTransaction_conserves {tx : CTransaction} {ctx : ValidationContext}
    {node : NodeState} (active : ctx.canonical = true) (coinbase : tx.isCoinBase = false)
    (h : validateTransferTransaction tx ctx node = .ok ()) :
    readableOutputs tx = (tx.vin.map (inputAmount ctx)).sum ∧
      ∀ txin ∈ tx.vin, TokenInput ctx txin := by
  simp only [validateTransferTransaction, checkTransferInputs, bind_eq_ok, rejectIf_eq_ok] at h
  obtain ⟨_, marked, _, type, _, _, l, amounts, _, nonempty, ⟨rest, count, outputDD⟩, outputs, _, _,
    _, _, _, _, ⟨inputDD, inputs⟩, spent, _, _, _, equal, noNull⟩ := h
  have marked : hasDigiDollarMarker tx = true := by simpa using marked
  have type : getDigiDollarTxType tx = .transfer := by simpa using type
  have noNull : ∀ txin ∈ tx.vin, txin.prevout.isNull = false := by
    intro txin member
    by_contra null
    exact noNull ⟨txin, member, by simpa using null⟩
  obtain ⟨pc, payload, read⟩ := transferAmountsFrom_eq_ok amounts nonempty
  obtain ⟨sum, tokens⟩ := transferInputsFrom_eq_ok active noNull spent
  refine ⟨?_, tokens⟩
  have equal : inputDD = outputDD := by simpa using equal
  have created := transferOutputsFrom_eq_ok outputs
  rw [readableOutputs_eq coinbase marked payload (type ▸ read)]
  simp only [zero_add] at sum created
  rw [← created, ← equal, sum]

end DigiByte.DigiDollar
