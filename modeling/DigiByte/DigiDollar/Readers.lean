import DigiByte.DigiDollar.Vault

/-!
When the metadata readers agree.

A transaction is read through its tagged payloads. With exactly one payload the
reader of later spends, the accounting reader and the release reader all take
their numbers from it, and token outputs receive its amounts in order.
-/

set_option autoImplicit false
set_option relaxedAutoImplicit false

namespace DigiByte.DigiDollar

open Consensus Script

/-- The positions after the tag, one per tagged output. -/
def ddPayloads (vout : List CTxOut) : List Bytes :=
  vout.filterMap fun out => ddPayload out.scriptPubKey

/-- Type and amounts of one payload, as later spends read them. -/
def readPayload (type : DigiDollarTxType) (pc : Bytes) : Option (List ℤ) :=
  match getScriptOp pc with
  | (none, _) => some []
  | (some (_, data), pc) =>
    match readTxType data with
    | none => none
    | some txType => if txType ≠ type.toInt then none else some (payloadAmounts type pc)

/-- One entry per output: token outputs take the amounts in order, and only a
positive amount is readable. -/
def tokenAmounts : List ℤ → List CTxOut → List (Option ℤ)
  | _, [] => []
  | dd_amounts, out :: rest =>
    if isTokenOutput out then
      dd_amounts.head?.filter (0 < ·) :: tokenAmounts dd_amounts.tail rest
    else none :: tokenAmounts dd_amounts rest

/-- The third number of a payload. -/
def mintLockField (pc : Bytes) : Option ℤ :=
  match getScriptOp (getScriptOp (getScriptOp pc).2).2 with
  | (some (_, data), _) => readAmount data
  | (none, _) => none

/-- The lock height in the only metadata output of a transaction. -/
def recordedLockHeight (creating : CTransaction) : Option ℤ :=
  match ddPayloads creating.vout with
  | [pc] => mintLockField pc
  | _ => none

/-! Shapes of outputs. -/

theorem isTokenOutput_iff {out : CTxOut} : isTokenOutput out = true ↔
    out.nValue = 0 ∧ isCanonicalP2TROutput out.scriptPubKey = true := by
  simp only [isTokenOutput, Bool.and_eq_true, Bool.not_eq_true', beq_iff_eq]
  constructor
  · rintro ⟨⟨_, zero⟩, p2tr⟩
    exact ⟨zero, p2tr⟩
  · rintro ⟨zero, p2tr⟩
    exact ⟨⟨isOpReturn_eq_false_of_p2tr p2tr, zero⟩, p2tr⟩

theorem isCollateralOutput_iff {out : CTxOut} : isCollateralOutput out = true ↔
    0 < out.nValue ∧ isCanonicalP2TROutput out.scriptPubKey = true := by
  simp only [isCollateralOutput, Bool.and_eq_true, Bool.not_eq_true', decide_eq_true_eq]
  constructor
  · rintro ⟨⟨positive, _⟩, p2tr⟩
    exact ⟨positive, p2tr⟩
  · rintro ⟨positive, p2tr⟩
    exact ⟨⟨positive, isUnspendable_eq_false_of_p2tr p2tr⟩, p2tr⟩

theorem ddPayload_eq_none_of_p2tr {script : Bytes} (p2tr : isCanonicalP2TROutput script = true) :
    ddPayload script = none := by
  simp [ddPayload, isOpReturn_eq_false_of_p2tr p2tr]

/-! One payload. -/

theorem ddPayload_eq_some {script pc : Bytes} (h : ddPayload script = some pc) :
    ∃ tail opcode, script = OP_RETURN :: tail ∧
      getScriptOp tail = (some (opcode, DD_TAG), pc) := by
  unfold ddPayload at h
  split at h
  · rename_i isReturn
    match script with
    | [] => simp [isOpReturn] at isReturn
    | first :: tail =>
      have : first = OP_RETURN := by simpa [isOpReturn] using isReturn
      subst this
      have opened : getScriptOp (OP_RETURN :: tail) = (some (OP_RETURN, []), tail) := rfl
      rw [opened] at h
      dsimp only at h
      split at h
      · rename_i opcode data pc' read
        split at h
        · rename_i tag
          cases h
          exact ⟨tail, opcode, rfl, tag ▸ read⟩
        · cases h
      · cases h
  · cases h

theorem getScriptOp_opcode_of_data {pc data rest : Bytes} {opcode : UInt8}
    (h : getScriptOp pc = (some (opcode, data), rest)) (nonempty : data ≠ []) :
    opcode ≤ OP_PUSHDATA4 ∧ pc.head? = some opcode := by
  match pc with
  | [] => simp [getScriptOp] at h
  | first :: tail =>
    unfold getScriptOp at h
    dsimp only at h
    split at h
    · rename_i isPush
      split at h
      · cases h
      · split at h
        · cases h
        · simp only [Prod.mk.injEq, Option.some.injEq] at h
          obtain ⟨⟨rfl, _⟩, _⟩ := h
          exact ⟨isPush, rfl⟩
    · simp only [Prod.mk.injEq, Option.some.injEq] at h
      exact absurd h.1.2.symm nonempty

private theorem tag_opcode {tail pc : Bytes} {opcode : UInt8}
    (h : getScriptOp tail = (some (opcode, DD_TAG), pc)) :
    opcode ≠ OP_DIGIDOLLAR ∧ tail.head? = some opcode := by
  obtain ⟨isPush, first⟩ := getScriptOp_opcode_of_data h (by decide)
  refine ⟨?_, first⟩
  rintro rfl
  exact absurd isPush (by decide)

theorem extractDDAmount_of_ddPayload {registry : ScriptRegistry} {script pc : Bytes}
    (h : ddPayload script = some pc) : extractDDAmount registry script false = taggedAmount pc := by
  obtain ⟨tail, opcode, rfl, read⟩ := ddPayload_eq_some h
  have opened : getScriptOp (OP_RETURN :: tail) = (some (OP_RETURN, []), tail) := rfl
  simp [extractDDAmount, opened, read, (tag_opcode read).1]

theorem extractDDAmount_eq_none_of_p2tr {registry : ScriptRegistry} {script : Bytes}
    (p2tr : isCanonicalP2TROutput script = true) :
    extractDDAmount registry script false = none := by
  have notReturn := isOpReturn_eq_false_of_p2tr p2tr
  match script with
  | [] => rfl
  | first :: tail =>
    have first_ne : first ≠ OP_RETURN := by simpa [isOpReturn] using notReturn
    unfold extractDDAmount getScriptOp
    by_cases isPush : first ≤ OP_PUSHDATA4
    · simp only [Bool.false_eq_true, if_false, isPush, if_true]
      split
      · rfl
      · rename_i opened
        split at opened
        · cases opened
        · split at opened
          · cases opened
          · simp only [Prod.mk.injEq, Option.some.injEq] at opened
            obtain ⟨⟨rfl, _⟩, _⟩ := opened
            simp [first_ne]
    · simp [isPush, first_ne]

/-! The reader of later spends. -/

private theorem collectDDAmounts_counted (type : DigiDollarTxType) (vout : List CTxOut) (count : ℕ)
    (acc : List ℤ) : collectDDAmounts type vout (count + 1) acc =
      if ddPayloads vout = [] then some acc else none := by
  induction vout with
  | nil => rfl
  | cons out rest ih =>
    cases payload : ddPayload out.scriptPubKey with
    | none => simp [collectDDAmounts, ddPayloads, payload, ih]
    | some pc => simp [collectDDAmounts, ddPayloads, payload]

theorem collectDDAmounts_eq (type : DigiDollarTxType) (vout : List CTxOut) :
    collectDDAmounts type vout 0 [] =
      match ddPayloads vout with
      | [] => some []
      | [pc] => readPayload type pc
      | _ => none := by
  induction vout with
  | nil => rfl
  | cons out rest ih =>
    cases payload : ddPayload out.scriptPubKey with
    | none =>
      have same : ddPayloads (out :: rest) = ddPayloads rest := by simp [ddPayloads, payload]
      rw [same, ← ih]
      simp [collectDDAmounts, payload]
    | some pc =>
      have cons : ddPayloads (out :: rest) = pc :: ddPayloads rest := by
        simp [ddPayloads, payload]
      rw [cons]
      simp only [collectDDAmounts, payload, collectDDAmounts_counted, readPayload]
      -- a second payload is refused whatever the first one says
      rcases read : getScriptOp pc with ⟨_ | ⟨opcode, data⟩, pc₁⟩
      · cases later : ddPayloads rest <;> simp [read]
      · cases typed : readTxType data with
        | none => cases later : ddPayloads rest <;> simp [read, typed]
        | some txType => cases later : ddPayloads rest <;> simp [read, typed]

private theorem matchDDOutput_eq (dd_amounts : List ℤ) (target : ℕ) (vout : List CTxOut)
    (n idx : ℕ) : matchDDOutput dd_amounts target vout n idx =
      if target < n then none
      else ((tokenAmounts (dd_amounts.drop idx) vout)[target - n]?).join := by
  induction vout generalizing n idx with
  | nil => simp [matchDDOutput, tokenAmounts]
  | cons out rest ih =>
    rcases lt_trichotomy target n with before | rfl | after
    · have next : target < n + 1 := by omega
      simp only [matchDDOutput, ih, next, before, if_true]
      split_ifs with token here
      · omega
      · rfl
      · rfl
    · have next : target < target + 1 := by omega
      simp only [matchDDOutput, ih, next, if_true, lt_irrefl, if_false, Nat.sub_self]
      split_ifs with token
      · rw [tokenAmounts, if_pos token]
        cases found : dd_amounts[idx]? with
        | none => simp [List.head?_drop, found]
        | some amount =>
          by_cases positive : 0 < amount
          · simp [List.head?_drop, found, positive, Option.filter]
          · simp [List.head?_drop, found, positive, Option.filter]
      · rw [tokenAmounts, if_neg token]
        simp
    · obtain ⟨k, rfl⟩ : ∃ k, target = n + 1 + k := ⟨target - (n + 1), by omega⟩
      have here : ¬ n = n + 1 + k := by omega
      have low : ¬ n + 1 + k < n + 1 := by omega
      have low' : ¬ n + 1 + k < n := by omega
      have shift : n + 1 + k - n = k + 1 := by omega
      simp only [matchDDOutput, ih, here, low, low', if_false, shift]
      split_ifs with token
      · rw [tokenAmounts, if_pos token, List.tail_drop]
        simp
      · rw [tokenAmounts, if_neg token]
        simp

theorem tokenAmounts_length (l : List ℤ) (vout : List CTxOut) :
    (tokenAmounts l vout).length = vout.length := by
  induction vout generalizing l with
  | nil => rfl
  | cons out rest ih =>
    unfold tokenAmounts
    split_ifs <;> simp [ih]

theorem tokenAmounts_nil (vout : List CTxOut) :
    tokenAmounts [] vout = List.replicate vout.length none := by
  induction vout with
  | nil => rfl
  | cons out rest ih =>
    unfold tokenAmounts
    split_ifs <;> simp [ih, List.replicate_succ]

theorem sum_tokenAmounts_single {d : ℤ} (nonneg : 0 ≤ d) (vout : List CTxOut) :
    ((tokenAmounts [d] vout).map (·.getD 0)).sum ≤ d := by
  induction vout with
  | nil => simpa [tokenAmounts] using nonneg
  | cons out rest ih =>
    unfold tokenAmounts
    split_ifs
    · by_cases positive : 0 < d
      · simp [tokenAmounts_nil, Option.filter, positive]
      · simpa [tokenAmounts_nil, Option.filter, positive] using nonneg
    · simpa using ih

theorem sum_tokenAmounts_one {d : ℤ} (positive : 0 < d) {vout : List CTxOut} {token : CTxOut}
    (single : vout.filter isTokenOutput = [token]) :
    ((tokenAmounts [d] vout).map (·.getD 0)).sum = d := by
  induction vout with
  | nil => simp at single
  | cons out rest ih =>
    unfold tokenAmounts
    by_cases here : isTokenOutput out = true
    · simp [here, tokenAmounts_nil, Option.filter, positive]
    · rw [List.filter_cons_of_neg here] at single
      simpa [here] using ih single

theorem tokenAmounts_single {d : ℤ} (positive : 0 < d) {vout : List CTxOut} {token : CTxOut}
    (single : vout.filter isTokenOutput = [token]) :
    ∃ t : ℕ, vout[t]? = some token ∧
      ∀ n : ℕ, ((tokenAmounts [d] vout)[n]?).join = if n = t then some d else none := by
  induction vout with
  | nil => simp at single
  | cons out rest ih =>
    unfold tokenAmounts
    by_cases here : isTokenOutput out = true
    · rw [List.filter_cons_of_pos here, List.cons.injEq] at single
      obtain ⟨rfl, _⟩ := single
      refine ⟨0, rfl, ?_⟩
      intro n
      rw [if_pos here]
      cases n with
      | zero => simp [Option.filter, positive]
      | succ n =>
        simp only [List.tail_cons, tokenAmounts_nil, List.getElem?_cons_succ,
          List.getElem?_replicate]
        split_ifs <;> simp_all
    · rw [List.filter_cons_of_neg here] at single
      obtain ⟨t, found, amounts⟩ := ih single
      refine ⟨t + 1, by simpa using found, ?_⟩
      intro n
      rw [if_neg here]
      cases n with
      | zero => simp
      | succ n => simpa using amounts n

theorem tokenAmounts_eq_some {l : List ℤ} {vout : List CTxOut} {n : ℕ} {amount : ℤ}
    (h : (tokenAmounts l vout)[n]? = some (some amount)) :
    0 < amount ∧ ∃ out, vout[n]? = some out ∧ isTokenOutput out = true := by
  induction vout generalizing l n with
  | nil => simp [tokenAmounts] at h
  | cons out rest ih =>
    unfold tokenAmounts at h
    split_ifs at h with token
    · cases n with
      | zero =>
        simp only [List.getElem?_cons_zero, Option.some.injEq, Option.filter_eq_some_iff,
          decide_eq_true_eq] at h
        exact ⟨h.2, out, rfl, token⟩
      | succ n => simpa using ih (by simpa using h)
    · cases n with
      | zero => simp at h
      | succ n => simpa using ih (by simpa using h)

theorem readPayload_of_extract {tx : CTransaction} {n : ℕ} {amount : ℤ}
    (h : extractDDAmountFromTxRef tx n = some amount) :
    tx.isCoinBase = false ∧ hasDigiDollarMarker tx = true ∧
      ∃ pc l, ddPayloads tx.vout = [pc] ∧ readPayload (getDigiDollarTxType tx) pc = some l ∧
        (tokenAmounts l tx.vout)[n]? = some (some amount) := by
  unfold extractDDAmountFromTxRef at h
  rw [collectDDAmounts_eq] at h
  split_ifs at h with coinbase unmarked
  refine ⟨by simpa using coinbase, by simpa using unmarked, ?_⟩
  split at h
  · cases h
  · cases h
  · rename_i l nonempty collected
    rw [matchDDOutput_eq] at h
    simp only [not_lt_zero, if_false, List.drop_zero, Nat.sub_zero] at h
    split at collected
    · cases collected
      exact absurd rfl (nonempty)
    · rename_i pc payload
      exact ⟨pc, l, payload, collected, Option.join_eq_some_iff.mp h⟩
    · cases collected

theorem extractDDAmountFromTxRef_eq {tx : CTransaction} {pc : Bytes} {l : List ℤ} (n : ℕ)
    (coinbase : tx.isCoinBase = false) (marked : hasDigiDollarMarker tx = true)
    (payload : ddPayloads tx.vout = [pc])
    (read : readPayload (getDigiDollarTxType tx) pc = some l) :
    extractDDAmountFromTxRef tx n = ((tokenAmounts l tx.vout)[n]?).join := by
  unfold extractDDAmountFromTxRef
  rw [collectDDAmounts_eq, payload]
  simp only [coinbase, marked, read]
  cases l with
  | nil =>
    simp only [Bool.false_eq_true, if_false, Bool.not_true, tokenAmounts_nil,
      List.getElem?_replicate]
    split_ifs <;> rfl
  | cons a l => simp [matchDDOutput_eq]

/-! The accounting reader. -/

private theorem findDDOpReturnFrom_eq {vout : List CTxOut} {pc : Bytes} {more : List Bytes}
    (payload : ddPayloads vout = pc :: more) (i : ℕ) (legacyIdx : Option ℕ) :
    ∃ k out, findDDOpReturnFrom vout i legacyIdx = some (i + k) ∧ vout[k]? = some out ∧
      ddPayload out.scriptPubKey = some pc := by
  induction vout generalizing i legacyIdx with
  | nil => simp [ddPayloads] at payload
  | cons out rest ih =>
    cases here : ddPayload out.scriptPubKey with
    | none =>
      have later : ddPayloads rest = pc :: more := by simpa [ddPayloads, here] using payload
      have shift : ∀ legacyIdx, ∃ k out', findDDOpReturnFrom rest (i + 1) legacyIdx = some (i + k) ∧
          (out :: rest)[k]? = some out' ∧ ddPayload out'.scriptPubKey = some pc := by
        intro legacyIdx
        obtain ⟨k, out', found, at_k, tagged⟩ := ih later (i + 1) legacyIdx
        exact ⟨k + 1, out', by rw [found]; congr 1; omega, by simpa using at_k, tagged⟩
      unfold findDDOpReturnFrom
      dsimp only
      split_ifs
      · exact shift legacyIdx
      · exact shift _
      · simpa only [here] using shift legacyIdx
    | some pc' =>
      simp only [ddPayloads, List.filterMap_cons, here, List.cons.injEq] at payload
      obtain ⟨rfl, _⟩ := payload
      obtain ⟨tail, opcode, script, read⟩ := ddPayload_eq_some here
      obtain ⟨opcode_ne, first⟩ := tag_opcode read
      obtain ⟨tail', rfl⟩ : ∃ tail', tail = opcode :: tail' := by
        cases tail with
        | nil => simp at first
        | cons b tail' => exact ⟨tail', by simpa using first⟩
      refine ⟨0, out, ?_, rfl, here⟩
      unfold findDDOpReturnFrom
      dsimp only
      rw [if_neg (by simp [script, isOpReturn]), if_neg (by simpa [script] using opcode_ne), here]
      rfl

theorem amount_of_findDDOpReturn {registry : ScriptRegistry} {tx : CTransaction} {pc : Bytes}
    {more : List Bytes} (payload : ddPayloads tx.vout = pc :: more) :
    ((findDDOpReturn tx).bind fun i => (tx.vout[i]?).bind fun out =>
      extractDDAmount registry out.scriptPubKey false) = taggedAmount pc := by
  obtain ⟨k, out, found, at_k, tagged⟩ := findDDOpReturnFrom_eq payload 0 none
  rw [zero_add] at found
  unfold findDDOpReturn
  rw [found, Option.bind_some, at_k, Option.bind_some, extractDDAmount_of_ddPayload tagged]

theorem extractMintAccountingAmounts_eq_some {registry : ScriptRegistry} {tx : CTransaction}
    {allow_registry : Bool} {principal collateral : ℤ}
    (h : extractMintAccountingAmounts registry tx allow_registry = some (principal, collateral)) :
    getDigiDollarTxType tx = .mint ∧ 0 < principal ∧
      ∃ out, tx.vout.filter isCollateralOutput = [out] ∧ out.nValue = collateral := by
  unfold extractMintAccountingAmounts at h
  split_ifs at h with mint
  split at h
  · cases h
  · split at h
    · cases h
    · split_ifs at h with low
      split at h
      · rename_i out single
        simp only [Option.some.injEq, Prod.mk.injEq] at h
        obtain ⟨rfl, rfl⟩ := h
        exact ⟨not_not.mp mint, by omega, out, single, rfl⟩
      · cases h

theorem extractMintAccountingAmounts_other {registry : ScriptRegistry} {tx : CTransaction}
    {allow_registry : Bool} (other : getDigiDollarTxType tx ≠ .mint) :
    extractMintAccountingAmounts registry tx allow_registry = none :=
  if_pos other

theorem extractMintAccountingAmounts_eq {registry : ScriptRegistry} {tx : CTransaction} {pc : Bytes}
    {more : List Bytes} (payload : ddPayloads tx.vout = pc :: more) :
    extractMintAccountingAmounts registry tx false =
      if getDigiDollarTxType tx ≠ .mint then none
      else match taggedAmount pc, tx.vout.filter isCollateralOutput with
        | some ddAmount, [out] => if ddAmount ≤ 0 then none else some (ddAmount, out.nValue)
        | _, _ => none := by
  obtain ⟨k, out, found, at_k, tagged⟩ := findDDOpReturnFrom_eq payload 0 none
  rw [zero_add] at found
  unfold extractMintAccountingAmounts findDDOpReturn
  split_ifs with mint
  · rfl
  · simp only [found, at_k, Option.bind_some, extractDDAmount_of_ddPayload tagged]
    cases taggedAmount pc with
    | none => rfl
    | some ddAmount =>
      dsimp only
      cases tx.vout.filter isCollateralOutput with
      | nil => split_ifs <;> rfl
      | cons out rest =>
        cases rest with
        | nil => split_ifs with low <;> simp [low]
        | cons out' rest => split_ifs <;> rfl

/-! The reader of the release rule. -/

private theorem mintMetadataFrom_none {vout : List CTxOut} (payload : ddPayloads vout = [])
    (ddOut : ℤ) : mintMetadataFrom vout ddOut = (ddOut, none) := by
  induction vout with
  | nil => rfl
  | cons out rest ih =>
    have here : ddPayload out.scriptPubKey = none := by
      simp only [ddPayloads, List.filterMap_eq_nil_iff] at payload
      exact payload out (by simp)
    have later : ddPayloads rest = [] := by simpa [ddPayloads, here] using payload
    simp [mintMetadataFrom, here, ih later]

theorem taggedAmount_eq_some {pc : Bytes} {d : ℤ} (h : taggedAmount pc = some d) :
    ∃ type pc₁ amount pc₂, getScriptOp pc = (some type, pc₁) ∧
      getScriptOp pc₁ = (some amount, pc₂) ∧ amount.2 ≠ [] ∧ scriptNum amount.2 true 8 = some d ∧
      1 ≤ d ∧ d ≤ MAX_DIGIDOLLAR := by
  unfold taggedAmount at h
  rcases first : getScriptOp pc with ⟨_ | type, pc₁⟩
  · simp [first] at h
  · rcases second : getScriptOp pc₁ with ⟨_ | amount, pc₂⟩
    · simp [first, second] at h
    · simp only [first, second, Option.bind_eq_some_iff, boundedAmount,
        Option.ite_none_right_eq_some, Option.some.injEq] at h
      obtain ⟨value, read, ⟨low, high⟩, rfl⟩ := h
      refine ⟨type, pc₁, amount, pc₂, rfl, second, ?_, read, low, high⟩
      intro empty
      rw [empty] at read
      simp only [scriptNum, Library.SignMagnitude.minimal, Library.SignMagnitude.decode] at read
      simp at read
      omega

theorem mintMetadataFrom_eq {vout : List CTxOut} {pc : Bytes} {d L : ℤ}
    (payload : ddPayloads vout = [pc])
    (type : ∃ op, (getScriptOp pc).1 = some op ∧ readTxType op.2 = some 1)
    (tagged : taggedAmount pc = some d) (lock : mintLockField pc = some L) (nonneg : 0 ≤ L)
    (ddOut : ℤ) :
    mintMetadataFrom vout ddOut = (d, some L) := by
  induction vout with
  | nil => simp [ddPayloads] at payload
  | cons out rest ih =>
    cases here : ddPayload out.scriptPubKey with
    | none =>
      have later : ddPayloads rest = [pc] := by simpa [ddPayloads, here] using payload
      simpa [mintMetadataFrom, here] using ih later
    | some pc' =>
      simp only [ddPayloads, List.filterMap_cons, here, List.cons.injEq] at payload
      obtain ⟨rfl, _⟩ := payload
      obtain ⟨op, pc₁, amount, pc₂, first, second, nonempty, read, low, _⟩ :=
        taggedAmount_eq_some tagged
      obtain ⟨_, same, typed⟩ := type
      rw [first, Option.some.injEq] at same
      subst same
      unfold mintLockField at lock
      rw [first, second] at lock
      dsimp only at lock
      rcases third : getScriptOp pc₂ with ⟨_ | field, pc₃⟩
      · simp [third] at lock
      · rw [third] at lock
        simp [mintMetadataFrom, here, first, second, third, typed, nonempty, read, lock, nonneg,
          show ¬ d ≤ 0 by omega]

theorem mintMetadataFrom_eq_some {vout : List CTxOut} {pc : Bytes} {d d' L : ℤ}
    (payload : ddPayloads vout = [pc]) (tagged : taggedAmount pc = some d)
    (h : mintMetadataFrom vout 0 = (d', some L)) : d' = d ∧ mintLockField pc = some L := by
  induction vout with
  | nil => simp [ddPayloads] at payload
  | cons out rest ih =>
    cases here : ddPayload out.scriptPubKey with
    | none =>
      refine ih (by simpa [ddPayloads, here] using payload) ?_
      simpa [mintMetadataFrom, here] using h
    | some pc' =>
      simp only [ddPayloads, List.filterMap_cons, here, List.cons.injEq] at payload
      obtain ⟨rfl, later⟩ := payload
      obtain ⟨type, pc₁, amount, pc₂, first, second, nonempty, read, low, _⟩ :=
        taggedAmount_eq_some tagged
      -- every way to go on ends without a lock height, since no payload is left
      have rest_none := mintMetadataFrom_none later
      simp only [mintMetadataFrom, here, first, second, nonempty, read, rest_none, if_false,
        Option.getD_some, show ¬ d ≤ 0 by omega] at h
      split_ifs at h
      · simp at h
      · rcases third : getScriptOp pc₂ with ⟨_ | lock, pc₃⟩
        · simp [third] at h
        · simp only [third] at h
          split at h
          · rename_i lockHeight found
            split_ifs at h
            · simp only [Prod.mk.injEq, Option.some.injEq] at h
              obtain ⟨rfl, rfl⟩ := h
              exact ⟨rfl, by simp [mintLockField, first, second, third, found]⟩
            · simp at h
          · simp at h

end DigiByte.DigiDollar
