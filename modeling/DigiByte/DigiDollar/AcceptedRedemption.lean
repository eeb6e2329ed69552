import DigiByte.DigiDollar.AcceptedTransfer
import DigiByte.DigiDollar.Redemption

/-!
What an accepted redemption does from Thaw Day on.

`AcceptedRedemption` collects the outcome of every check under the names of the
quantities the checks compare; the burn, the lock and the value laws are read
off from it.
-/

set_option autoImplicit false
set_option relaxedAutoImplicit false

namespace DigiByte.DigiDollar

open Consensus Script
open Library.Checks (rejectIf bind_eq_ok rejectIf_eq_ok)

/-- The values of the positive coins among some inputs. -/
def feeValue (getCoin : COutPoint → Option Coin) (vin : List CTxIn) : ℤ :=
  (vin.map fun input => match getCoin input.prevout with
    | some coin => max 0 coin.out.nValue
    | none => 0).sum

/-- The nLockTime condition of the path that the health selects. -/
def LockTimeReached (tx : CTransaction) (ctx : ValidationContext) (health : ℤ) : Prop :=
  health < 100 ∧ tx.nLockTime = 0 ∨ toInt32 tx.nLockTime ≤ ctx.nHeight

structure AcceptedRedemption (tx : CTransaction) (ctx : ValidationContext) (view : CoinsView)
    (health : ℤ) (input : CTxIn) (rest : List CTxIn) (coin : Coin) (vault : CanonicalVault)
    (creating : CTransaction) (principal lockHeight : ℤ) : Prop where
  redeem : getDigiDollarTxType tx = .redeem
  coins : ctx.coins = some view
  healthState : contextHealthState ctx ≠ none
  resolved : (contextHealthState ctx).bind
    (fun state => calculateChainstateHealth state ctx.oraclePriceMicroUSD) = some health
  vin : tx.vin = input :: rest
  spent : view.getCoin input.prevout = some coin
  isVault : lookupCanonicalVault input.prevout coin ctx.params.consensus
    (contextTransactionLookup ctx) = .vault vault
  created : ctx.txLookup.bind (fun lookup => lookup input.prevout.hash coin.nHeight) = some creating
  metadata : extractMintMetadataFromTx creating 0 = (principal, some lockHeight)
  positive : 0 < principal
  lockRange : 0 ≤ lockHeight ∧ lockHeight ≤ 0xffffffff
  locked : toUint32 lockHeight ≤ tx.nLockTime.toNat
  reached : LockTimeReached tx ctx health
  tokens : ∀ txin ∈ rest, TokenInput ctx txin
  burned : getRequiredDDBurn principal health ≤
    (rest.map (inputAmount ctx)).sum - readableOutputs tx
  oneVault : ∀ txin ∈ rest, ∀ other, view.getCoin txin.prevout = some other → 0 < other.out.nValue →
    lookupCanonicalVault txin.prevout other ctx.params.consensus (contextTransactionLookup ctx) =
      .notVault
  released : coin.out.nValue ≤ totalDGBOutputs tx.vout ∧
    totalDGBOutputs tx.vout ≤ coin.out.nValue + feeValue view.getCoin rest

/-! Inputs. -/

private theorem redeemInput_eq_ok {ctx : ValidationContext} {node : NodeState} {input : CTxIn}
    {view : CoinsView} {acc acc' : Bool × ℤ} (active : ctx.canonical = true)
    (coins : ctx.coins = some view) (h : redeemInput ctx node input acc = .ok acc') :
    acc'.2 = acc.2 + inputAmount ctx input ∧ TokenInput ctx input := by
  have getCoin : ctx.getCoin input.prevout = view.getCoin input.prevout := by
    simp [ValidationContext.getCoin, coins]
  unfold redeemInput at h
  simp only [coins] at h
  cases found : view.getCoin input.prevout with
  | none =>
    simp only [found, Except.ok.injEq] at h
    subst h
    refine ⟨by simp [inputAmount, getCoin, found], ⟨fun coin held => ?_⟩⟩
    rw [getCoin, found] at held
    cases held
  | some coin =>
    have held := getCoin.trans found
    simp only [found] at h
    split_ifs at h with value
    · cases h
      refine ⟨by simp [inputAmount_of_value held value], ⟨fun coin' held' zero => ?_⟩⟩
      rw [held] at held'
      cases held'
      exact absurd zero value
    · have zero : coin.out.nValue = 0 := by simpa using value
      simp only [bind_eq_ok, rejectIf_eq_ok] at h
      obtain ⟨_, _, _, _, amount, read, h⟩ := h
      cases added : addDDAmount acc.2 amount with
      | none => simp [added] at h
      | some total =>
        simp only [added, Except.ok.injEq] at h
        subst h
        refine ⟨?_, ⟨fun coin' held' _ => ?_⟩⟩
        · rw [inputAmount_of_read held zero read]
          exact addDDAmount_eq_some added
        · rw [held] at held'
          cases held'
          exact ⟨amount, read⟩

private theorem redeemInputs_eq_ok {ctx : ValidationContext} {node : NodeState} {vin : List CTxIn}
    {view : CoinsView} {acc acc' : Bool × ℤ} (active : ctx.canonical = true)
    (coins : ctx.coins = some view) (h : redeemInputs ctx node vin acc = .ok acc') :
    acc'.2 = acc.2 + (vin.map (inputAmount ctx)).sum ∧ ∀ txin ∈ vin, TokenInput ctx txin := by
  induction vin generalizing acc with
  | nil =>
    cases h
    simp
  | cons input rest ih =>
    simp only [redeemInputs, bind_eq_ok] at h
    obtain ⟨next, first, later⟩ := h
    obtain ⟨sum, read⟩ := redeemInput_eq_ok active coins first
    obtain ⟨sum', read'⟩ := ih later
    refine ⟨?_, by simpa using ⟨read, read'⟩⟩
    rw [sum', sum, List.map_cons, List.sum_cons]
    ring

/-! Change outputs. -/

private theorem redeemOutputsFrom_eq_ok {tx : CTransaction} {ctx : ValidationContext}
    {found : Option ℤ} {vout : List CTxOut} {outIdx : ℕ} {o o' : RedeemOutputs}
    (active : ctx.canonical = true) (suffix : tx.vout.drop outIdx = vout)
    (h : redeemOutputsFrom tx ctx found vout outIdx o = .ok o') :
    o'.totalDDOutputs = o.totalDDOutputs +
      ((List.range' outIdx vout.length).map (readableAmount tx)).sum := by
  induction vout generalizing outIdx o with
  | nil =>
    cases h
    simp
  | cons out rest ih =>
    have at_idx : tx.vout[outIdx]? = some out := by
      have := congrArg List.head? suffix
      simpa [List.head?_drop] using this
    have later : tx.vout.drop (outIdx + 1) = rest := by
      have := congrArg List.tail suffix
      simpa [List.tail_drop] using this
    unfold redeemOutputsFrom at h
    split_ifs at h with positive skip
    · have notToken : isTokenOutput out = false := by
        simpa [← Bool.not_eq_true, isTokenOutput_iff] using fun zero => by omega
      rw [ih later h]
      simp [List.range'_succ, readableAmount_eq_zero at_idx notToken]
    · have notToken : isTokenOutput out = false := by
        rw [← Bool.not_eq_true, isTokenOutput_iff]
        rintro ⟨_, p2tr⟩
        simp [p2tr, isOpReturn_eq_false_of_p2tr p2tr] at skip
      rw [ih later h]
      simp [List.range'_succ, readableAmount_eq_zero at_idx notToken]
    · simp only [redeemChange, active, if_true, bind_eq_ok, rejectIf_eq_ok] at h
      obtain ⟨_, _, total, change, h⟩ := h
      cases extracted : extractDDAmountFromTxRef tx outIdx with
      | none => simp [extracted] at change
      | some amount =>
        cases added : addDDAmount o.totalDDOutputs amount with
        | none => simp [extracted, added] at change
        | some sum =>
          simp only [extracted, Option.bind_some, added, Except.ok.injEq] at change
          subst change
          rw [ih later h, addDDAmount_eq_some added]
          simp [List.range'_succ, readableAmount, extracted]
          ring

private theorem redeemOutputsFrom_readable {tx : CTransaction} {ctx : ValidationContext}
    {found : Option ℤ} {vout : List CTxOut} {outIdx : ℕ} {o o' : RedeemOutputs}
    (active : ctx.canonical = true)
    (h : redeemOutputsFrom tx ctx found vout outIdx o = .ok o') {n : ℕ}
    {out : CTxOut} (at_n : vout[n]? = some out) (token : isTokenOutput out = true) :
    (extractDDAmountFromTxRef tx (outIdx + n)).isSome = true := by
  induction vout generalizing outIdx o n with
  | nil => simp at at_n
  | cons first rest ih =>
    have later : ∀ o, redeemOutputsFrom tx ctx found rest (outIdx + 1) o = .ok o' → ∀ m,
        n = m + 1 → (extractDDAmountFromTxRef tx (outIdx + n)).isSome = true := by
      rintro o h m rfl
      have shifted := ih h (by simpa using at_n)
      rwa [Nat.add_assoc, Nat.add_comm 1 m] at shifted
    unfold redeemOutputsFrom at h
    cases n with
    | zero =>
      obtain rfl : first = out := by simpa using at_n
      obtain ⟨zero, p2tr⟩ := isTokenOutput_iff.mp token
      rw [if_neg (by omega), if_neg (by simp [p2tr, isOpReturn_eq_false_of_p2tr p2tr])] at h
      simp only [redeemChange, active, if_true, bind_eq_ok, rejectIf_eq_ok] at h
      obtain ⟨_, _, total, change, _⟩ := h
      cases extracted : extractDDAmountFromTxRef tx outIdx with
      | none => simp [extracted] at change
      | some amount => simp
    | succ n =>
      split_ifs at h
      · exact later _ h n rfl
      · exact later _ h n rfl
      · simp only [bind_eq_ok] at h
        obtain ⟨_, _, _, _, h⟩ := h
        exact later _ h n rfl

theorem validateRedemptionTransaction_readable {tx : CTransaction} {ctx : ValidationContext}
    {node : NodeState} (active : ctx.canonical = true)
    (h : validateRedemptionTransaction tx ctx node = .ok ()) {n : ℕ} {out : CTxOut}
    (at_n : tx.vout[n]? = some out) (token : isTokenOutput out = true) :
    (extractDDAmountFromTxRef tx n).isSome = true := by
  simp only [validateRedemptionTransaction, bind_eq_ok] at h
  obtain ⟨_, _, _, _, _, _, _, _, _, _, _, _, metadata, _, _, _, outputs, changed, _⟩ := h
  have readable := redeemOutputsFrom_readable active changed at_n token
  rwa [zero_add] at readable

/-! The bound on the tokens that are spent. -/

private theorem redeemInput_le {ctx : ValidationContext} {node : NodeState} {input : CTxIn}
    {acc acc' : Bool × ℤ} (bound : acc.2 ≤ INT64_MAX) (active : ctx.canonical = true)
    (h : redeemInput ctx node input acc = .ok acc') : acc'.2 ≤ INT64_MAX := by
  unfold redeemInput at h
  split at h
  · cases h
    exact bound
  · split at h
    · cases h
      exact bound
    · split_ifs at h
      · cases h
        exact bound
      · simp only [bind_eq_ok, rejectIf_eq_ok] at h
        obtain ⟨_, _, _, _, amount, _, h⟩ := h
        cases added : addDDAmount acc.2 amount with
        | none => simp [added] at h
        | some total =>
          simp only [added, Except.ok.injEq] at h
          subst h
          unfold addDDAmount at added
          split_ifs at added with outside room
          cases added
          dsimp only
          omega

private theorem redeemInputs_le {ctx : ValidationContext} {node : NodeState} {vin : List CTxIn}
    {acc acc' : Bool × ℤ} (bound : acc.2 ≤ INT64_MAX) (active : ctx.canonical = true)
    (h : redeemInputs ctx node vin acc = .ok acc') : acc'.2 ≤ INT64_MAX := by
  induction vin generalizing acc with
  | nil =>
    cases h
    exact bound
  | cons input rest ih =>
    simp only [redeemInputs, bind_eq_ok] at h
    obtain ⟨next, first, later⟩ := h
    exact ih (redeemInput_le bound active first) later

theorem validateRedemptionTransaction_spent_le {tx : CTransaction} {ctx : ValidationContext}
    {node : NodeState} {view : CoinsView} (active : ctx.canonical = true)
    (coins : ctx.coins = some view) (h : validateRedemptionTransaction tx ctx node = .ok ()) :
    (tx.vin.tail.map (inputAmount ctx)).sum ≤ INT64_MAX := by
  simp only [validateRedemptionTransaction, bind_eq_ok] at h
  obtain ⟨_, _, _, _, _, _, _, _, inputs, spent, _⟩ := h
  have sum := (redeemInputs_eq_ok active coins spent).1
  have bound := redeemInputs_le (by decide) active spent
  simp only [zero_add] at sum
  rwa [sum] at bound

/-! The release rule. -/

private theorem feeInputsFrom_eq_ok {ctx : ValidationContext} {node : NodeState} {view : CoinsView}
    {vin : List CTxIn} {i : ℕ} {total total' : ℤ} (active : ctx.canonical = true)
    (h : feeInputsFrom ctx node view vin i total = .ok total') :
    total' = total + feeValue view.getCoin vin ∧
      ∀ txin ∈ vin, ∀ other, view.getCoin txin.prevout = some other → 0 < other.out.nValue →
        lookupCanonicalVault txin.prevout other ctx.params.consensus
          (contextTransactionLookup ctx) = .notVault := by
  induction vin generalizing i total with
  | nil =>
    cases h
    simp [feeValue]
  | cons input rest ih =>
    unfold feeInputsFrom at h
    cases found : view.getCoin input.prevout with
    | none =>
      simp only [found] at h
      obtain ⟨sum, others⟩ := ih h
      refine ⟨by simpa [feeValue, found] using sum, ?_⟩
      simpa [found] using others
    | some coin =>
      simp only [found] at h
      split_ifs at h with positive
      · simp only [isCollateralFeeInput, active, if_true, bind_eq_ok, rejectIf_eq_ok] at h
        obtain ⟨isCollateral, looked, _, notCollateral, h⟩ := h
        obtain ⟨sum, others⟩ := ih h
        have notVault : lookupCanonicalVault input.prevout coin ctx.params.consensus
            (contextTransactionLookup ctx) = .notVault := by
          split at looked
          · cases looked
          · assumption
          · cases looked
            exact absurd rfl notCollateral
        refine ⟨?_, ?_⟩
        · rw [sum]
          simp only [feeValue, List.map_cons, List.sum_cons, found, max_eq_right positive.le]
          ring
        · intro txin member other held value
          rcases List.mem_cons.mp member with rfl | member
          · rw [found] at held
            cases held
            exact notVault
          · exact others txin member other held value
      · obtain ⟨sum, others⟩ := ih h
        refine ⟨?_, ?_⟩
        · rw [sum]
          simp [feeValue, found, max_eq_left (not_lt.mp positive)]
        · intro txin member other held value
          rcases List.mem_cons.mp member with rfl | member
          · rw [found] at held
            cases held
            exact absurd value positive
          · exact others txin member other held value

private theorem checkReleasedVault_eq_ok {ctx : ValidationContext} {node : NodeState}
    {prevout : COutPoint} {coin : Coin} (active : ctx.canonical = true)
    (h : checkReleasedVault ctx node prevout coin = .ok ()) :
    ∃ vault, lookupCanonicalVault prevout coin ctx.params.consensus (contextTransactionLookup ctx) =
      .vault vault := by
  simp only [checkReleasedVault, active, if_true, bind_eq_ok] at h
  obtain ⟨_, _, h⟩ := h
  split at h
  · cases h
  · cases h
  · exact ⟨_, by assumption⟩

theorem originalMintMetadata_canonical {ctx : ValidationContext} {node : NodeState}
    {prevout : COutPoint} {height : ℕ} (active : ctx.canonical = true) :
    originalMintMetadata ctx node prevout height =
      match ctx.txLookup.bind fun lookup => lookup prevout.hash height with
      | some prev_tx => extractMintMetadataFromTx prev_tx 0
      | none => (0, none) := by
  cases found : ctx.txLookup.bind fun lookup => lookup prevout.hash height with
  | none => simp [originalMintMetadata, active, found]
  | some prev_tx => simp [originalMintMetadata, active, found]

private theorem checkOriginalMint_eq_ok {tx : CTransaction} {metadata : ℤ × Option ℤ} {d : ℤ}
    (h : checkOriginalMint tx metadata = .ok d) :
    ∃ lockHeight, metadata = (d, some lockHeight) ∧ 0 < d ∧ 0 ≤ lockHeight ∧
      lockHeight ≤ 0xffffffff ∧ toUint32 lockHeight ≤ tx.nLockTime.toNat := by
  obtain ⟨original, lock⟩ := metadata
  cases lock with
  | none => simp [checkOriginalMint] at h
  | some lockHeight =>
    simp only [checkOriginalMint, bind_eq_ok, rejectIf_eq_ok, not_or, not_lt, not_le] at h
    obtain ⟨_, positive, _, ⟨low, high⟩, _, locked, result⟩ := h
    cases result
    exact ⟨lockHeight, rfl, positive, low, by omega, locked⟩

private theorem checkRequiredBurn_eq_ok {health principal burned : ℤ} (positive : 0 < principal)
    (h : checkRequiredBurn health principal burned = .ok ()) :
    getRequiredDDBurn principal health ≤ burned ∧ 0 < burned := by
  simp only [checkRequiredBurn, bind_eq_ok, rejectIf_eq_ok, not_le, not_lt] at h
  obtain ⟨_, required, enough⟩ := h
  split_ifs at required enough with err
  · exact ⟨enough, by omega⟩
  · refine ⟨?_, by omega⟩
    rw [getRequiredDDBurn, if_neg (by omega), if_pos (by omega)]
    exact enough

private theorem validateRedemptionConditions_eq_ok {tx : CTransaction} {ctx : ValidationContext}
    (h : validateRedemptionConditions tx ctx = .ok ()) :
    LockTimeReached tx ctx ctx.systemCollateral := by
  unfold validateRedemptionConditions at h
  split_ifs at h with err
  · simp only [validateEmergencyRedemptionConditions, bind_eq_ok, rejectIf_eq_ok, not_and,
      not_lt] at h
    obtain ⟨_, _, _, reached, _⟩ := h
    by_cases zero : tx.nLockTime = 0
    · exact .inl ⟨err, zero⟩
    · exact .inr (reached (UInt32.pos_iff_ne_zero.mpr zero))
  · simp only [validateNormalRedemptionConditions, bind_eq_ok, rejectIf_eq_ok, not_lt] at h
    obtain ⟨_, reached, _⟩ := h
    exact .inr reached

private theorem coins_of_healthState {ctx : ValidationContext} {state : ChainstateHealth}
    (h : contextHealthState ctx = some state) : ∃ view, ctx.coins = some view := by
  unfold contextHealthState at h
  split at h
  · exact ⟨_, by assumption⟩
  · cases h

private theorem redemptionHealth_eq_ok {ctx : ValidationContext} {node : NodeState} {health : ℤ}
    (h : redemptionHealth ctx node = .ok health) :
    resolveCanonicalHealth ctx node = some health := by
  unfold redemptionHealth at h
  split at h
  · cases h
    assumption
  · split_ifs at h

private theorem creating_of_metadata {ctx : ValidationContext} {node : NodeState}
    {prevout : COutPoint} {height : ℕ} {principal lockHeight : ℤ} (active : ctx.canonical = true)
    (found : originalMintMetadata ctx node prevout height = (principal, some lockHeight)) :
    ∃ creating, ctx.txLookup.bind (fun lookup => lookup prevout.hash height) = some creating ∧
      extractMintMetadataFromTx creating 0 = (principal, some lockHeight) := by
  rw [originalMintMetadata_canonical active] at found
  split at found
  · exact ⟨_, by assumption, found⟩
  · cases found

theorem acceptedRedemption_of_ok {tx : CTransaction} {ctx : ValidationContext} {node : NodeState}
    (active : ctx.canonical = true) (h : validateRedemptionTransaction tx ctx node = .ok ()) :
    ∃ view health input rest coin vault creating principal lockHeight,
      AcceptedRedemption tx ctx view health input rest coin vault creating principal
        lockHeight := by
  simp only [validateRedemptionTransaction, checkRedemption, bind_eq_ok, rejectIf_eq_ok] at h
  obtain ⟨_, _, _, _, _, _, _, _, ⟨hasDD, totalIn⟩, inputs, _, _, metadata, _, _, _, outputs,
    changed, _, _, _, _, _, type, health, resolved, _, conditions, release⟩ := h
  have resolved := redemptionHealth_eq_ok resolved
  have resolved' := (resolveCanonicalHealth_canonical active).symm.trans resolved
  obtain ⟨state, ready, _⟩ := Option.bind_eq_some_iff.mp resolved'
  obtain ⟨view, coins⟩ := coins_of_healthState ready
  -- the release rule resolves the health again, in the context that carries it
  have active' : ({ ctx with systemCollateral := health } : ValidationContext).canonical = true :=
    active
  have again := (resolveCanonicalHealth_withHealth active health).trans resolved
  simp only [validateCollateralReleaseAmount, active', again, if_true] at release
  simp only [coins] at release
  cases vin : tx.vin with
  | nil => simp [vin] at release
  | cons input rest =>
    simp only [vin] at release
    unfold checkRelease at release
    cases spent : view.getCoin input.prevout with
    | none => simp [spent] at release
    | some coin =>
      simp only [spent, bind_eq_ok, rejectIf_eq_ok] at release
      obtain ⟨_, _, _, vaulted, principal, original, _, burn, fees, feeSum, value⟩ := release
      obtain ⟨vault, isVault⟩ := checkReleasedVault_eq_ok (by exact active) vaulted
      obtain ⟨lockHeight, found, positive, low, high, locked⟩ := checkOriginalMint_eq_ok original
      obtain ⟨creating, created, minted⟩ := creating_of_metadata active' found
      obtain ⟨required, burned⟩ := checkRequiredBurn_eq_ok positive burn
      obtain ⟨feeTotal, oneVault⟩ := feeInputsFrom_eq_ok (by exact active) feeSum
      simp only [checkReleasedValue, bind_eq_ok, rejectIf_eq_ok, not_lt, gt_iff_lt] at value
      obtain ⟨_, notExcessive, complete⟩ := value
      rw [vin, List.tail_cons] at inputs
      obtain ⟨spentSum, tokens⟩ := redeemInputs_eq_ok active coins inputs
      have changeSum := redeemOutputsFrom_eq_ok active (by simp) changed
      simp only [zero_add] at spentSum changeSum feeTotal
      refine ⟨view, health, input, rest, coin, vault, creating, principal, lockHeight,
        ⟨by simpa using type, coins, by simp [ready], resolved', vin, spent, isVault, created,
          minted, positive, ⟨low, high⟩, locked, validateRedemptionConditions_eq_ok conditions,
          tokens, ?_, oneVault, ⟨complete, feeTotal ▸ notExcessive⟩⟩⟩
      have change : outputs.totalDDOutputs = readableOutputs tx := by
        rw [changeSum, readableOutputs, List.range_eq_range']
      split_ifs at required burned with more
      · rw [← change, ← spentSum]
        exact required
      · omega

end DigiByte.DigiDollar
