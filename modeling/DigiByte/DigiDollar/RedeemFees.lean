import DigiByte.DigiDollar.BuiltRedemption

/-!
Fee coins of a redemption (`digidollar/txbuilder.cpp`): the fee estimate and the loop
that asks a wallet for coins until they pay the fee of the transaction they produce.

The selector is any function with a state of its own. The loop also records the targets
it asked for and its last estimate.
-/

set_option autoImplicit false
set_option relaxedAutoImplicit false

namespace DigiByte.DigiDollar

open Consensus Script
open Library.Checks (rejectIf bind_eq_ok rejectIf_eq_ok rejectIf_bind_of_not ErrorsIn)

def MAX_STANDARD_TX_WEIGHT : ℕ := 400000

structure FeeEstimate where
  vsize : ℕ := 0
  fee : ℤ := 0
  deriving DecidableEq, Repr

/-- A taproot output script of the right length. -/
def taprootPlaceholder : Bytes := OP_1 :: pushData (List.replicate 32 0)

namespace TxBuilder

/-- The inputs and outputs that exist when the build fixes its fee, by size. -/
def feeSkeleton (params : TxBuilderRedeemParams) (ddChange : ℤ) : CMutableTransaction :=
  let collateralReturnScript := match params.collateralDest with
    | some dest => getScriptForDestination dest
    | none => taprootPlaceholder
  { nVersion := makeDigiDollarVersion 3 0
    vin := redemptionInputs params
    vout := ⟨1, collateralReturnScript⟩ ::
      if 0 < ddChange then [⟨0, taprootPlaceholder⟩, ⟨0, amountsScript 3 [ddChange]⟩] else [] }

def estimateRedemptionFee (b : TxBuilder) (params : TxBuilderRedeemParams) :
    Except String FeeEstimate := do
  let ddMinted := if params.collateralAmount ≤ 0 then
    (getCollateralPosition params.collateralOutpoint).ddMinted else params.ddMinted
  let ddToBurn ← b.redemptionBurn params ddMinted
  let totalDDInput := params.ddAmounts.sum
  let ddChange := totalDDInput - ddToBurn
  rejectIf (ddChange < 0) s!"Insufficient DD selected (input: {totalDDInput}, need: {ddToBurn})"
  let skeleton := feeSkeleton params ddChange
  let vsize := estimateTransactionVSize skeleton
  let weight := vsize * WITNESS_SCALE_FACTOR
  rejectIf (weight > MAX_STANDARD_TX_WEIGHT)
    (s!"Projected redemption transaction is too large: {weight} weight units ({vsize} vB), " ++
      s!"standard limit is {MAX_STANDARD_TX_WEIGHT} WU. Consolidate DGB fee coins first.")
  .ok ⟨vsize, max (calculateFee skeleton params.feeRate) MIN_DD_TX_FEE⟩

end TxBuilder

/-! The loop. -/

structure FeeCoins where
  utxos : List COutPoint
  amounts : List ℤ
  total : ℤ

/-- A `FeeCoinSelector`: the coins for a target, or none, and the next state. -/
abbrev FeeCoinSelector (σ : Type) := σ → ℤ → Option FeeCoins × σ

/-- What `SelectRedemptionFeeInputs` leaves behind, with the targets it asked for. -/
structure FeeSelection (σ : Type) where
  ok : Bool
  params : TxBuilderRedeemParams
  error : String
  estimate : FeeEstimate
  targets : List ℤ
  selector : σ

/-- Eight decimals, as `%.8f` prints amounts of at most 53 bits. -/
def formatDGB (amount : ℤ) : String :=
  let fraction := toString (amount % COIN).toNat
  toString (amount / COIN) ++ "." ++ String.ofList (List.replicate (8 - fraction.length) '0') ++
    fraction

def balanceTooLow (target : ℤ) : String :=
  let dgb := formatDGB target
  s!"Insufficient DGB balance for the redemption fee: need at least {target} sats ({dgb} DGB) " ++
    "in spendable DGB coins other than the collateral and DD token outputs"

def coinsTooSmall (count : ℕ) (total : ℤ) (estimate : FeeEstimate) : String :=
  let fee := estimate.fee
  let vsize := estimate.vsize
  s!"Insufficient DGB fee inputs: {count} DGB coins worth {total} sats " ++
    s!"cannot pay the {fee} sat fee " ++
    s!"of the {vsize} vB redemption they would produce, because each additional small coin adds " ++
    "more fee than value. Consolidate small DGB coins into one larger coin and retry."

def TxBuilderRedeemParams.withFees (params : TxBuilderRedeemParams) (coins : FeeCoins) :
    TxBuilderRedeemParams :=
  { params with
    feeUtxos := coins.utxos
    feeAmounts := coins.amounts }

def TxBuilderRedeemParams.withoutFees (params : TxBuilderRedeemParams) : TxBuilderRedeemParams :=
  { params with
    feeUtxos := []
    feeAmounts := [] }

namespace TxBuilder

variable {σ : Type}

/-- The loop with `n` attempts left. -/
def feeAttempts (b : TxBuilder) (select : FeeCoinSelector σ) :
    ℕ → TxBuilderRedeemParams → ℤ → ℤ → ℕ → FeeEstimate → List ℤ → σ → FeeSelection σ
  | 0, params, _, lastTotal, lastCount, estimate, targets, s =>
    ⟨false, params.withoutFees, coinsTooSmall lastCount lastTotal estimate, estimate, targets, s⟩
  | n + 1, params, target, lastTotal, lastCount, estimate, targets, s =>
    let targets := targets ++ [target]
    match select s target with
    | (none, s) => ⟨false, params.withoutFees, balanceTooLow target, estimate, targets, s⟩
    | (some coins, s) =>
      if coins.utxos = [] ∨ coins.utxos.length ≠ coins.amounts.length then
        ⟨false, params.withoutFees, "DGB fee coin selection returned no usable coins", estimate,
          targets, s⟩
      else
        let params := params.withFees coins
        match b.estimateRedemptionFee params with
        | .error e => ⟨false, params.withoutFees, e, estimate, targets, s⟩
        | .ok estimate =>
          if estimate.fee ≤ coins.total then ⟨true, params, "", estimate, targets, s⟩
          else if coins.total ≤ lastTotal ∧ coins.utxos.length ≤ lastCount then
            ⟨false, params.withoutFees, coinsTooSmall lastCount lastTotal estimate, estimate,
              targets, s⟩
          else
            feeAttempts b select n params (max estimate.fee (coins.total + 1)) coins.total
              coins.utxos.length estimate targets s

/-- A missing selector stands for an empty `std::function`. -/
def selectRedemptionFeeInputs (b : TxBuilder) (params : TxBuilderRedeemParams)
    (select_coins : Option (FeeCoinSelector σ)) (max_attempts : ℤ) (s : σ) : FeeSelection σ :=
  match select_coins with
  | none => ⟨false, params, "No DGB fee coin selector provided", {}, [], s⟩
  | some select =>
    let max_attempts := if max_attempts < 1 then 1 else max_attempts
    -- The smallest redemption has one fee coin.
    match b.estimateRedemptionFee
        { params with feeUtxos := [⟨0, 0xffffffff⟩], feeAmounts := [] } with
    | .error e => ⟨false, params.withoutFees, e, {}, [], s⟩
    | .ok first => feeAttempts b select max_attempts.toNat params first.fee (-1) 0 {} [] s

/-! What one attempt can do, and what the loop keeps. -/

section Loop

variable {b : TxBuilder} {select : FeeCoinSelector σ} {params : TxBuilderRedeemParams}
  {target lastTotal : ℤ} {n lastCount : ℕ} {estimate : FeeEstimate} {targets : List ℤ} {s : σ}

/-- The coins of an answer pay for the transaction that they produce. -/
structure Pays (b : TxBuilder) (select : FeeCoinSelector σ) (params : TxBuilderRedeemParams)
    (coins : FeeCoins) (r : FeeSelection σ) : Prop where
  answered : ∃ s target s', select s target = (some coins, s')
  nonempty : coins.utxos ≠ []
  aligned : coins.utxos.length = coins.amounts.length
  params_eq : r.params = params.withFees coins
  estimated : b.estimateRedemptionFee r.params = .ok r.estimate
  enough : r.estimate.fee ≤ coins.total

private theorem feeAttempts_cases {r : FeeSelection σ}
    (run : feeAttempts b select (n + 1) params target lastTotal lastCount estimate targets s = r) :
    (r.ok = false ∧ r.params.feeUtxos = [] ∧ r.params.feeAmounts = [] ∧
      r.targets = targets ++ [target]) ∨
    (r.ok = true ∧ (∃ coins, Pays b select params coins r) ∧ r.targets = targets ++ [target]) ∨
    ∃ coins s' next, select s target = (some coins, s') ∧
      feeAttempts b select n (params.withFees coins) (max next.fee (coins.total + 1)) coins.total
        coins.utxos.length next (targets ++ [target]) s' = r := by
  unfold feeAttempts at run
  dsimp only at run
  split at run
  · subst run
    exact .inl ⟨rfl, rfl, rfl, rfl⟩
  · rename_i coins s' answered
    by_cases unusable : coins.utxos = [] ∨ coins.utxos.length ≠ coins.amounts.length
    · rw [if_pos unusable] at run
      subst run
      exact .inl ⟨rfl, rfl, rfl, rfl⟩
    · rw [if_neg unusable] at run
      push Not at unusable
      split at run
      · subst run
        exact .inl ⟨rfl, rfl, rfl, rfl⟩
      · rename_i next estimated
        split_ifs at run with enough same
        · subst run
          exact .inr (.inl ⟨rfl, ⟨coins, ⟨s, target, s', answered⟩, unusable.1, unusable.2, rfl,
            estimated, enough⟩, rfl⟩)
        · subst run
          exact .inl ⟨rfl, rfl, rfl, rfl⟩
        · exact .inr (.inr ⟨coins, s', next, answered, run⟩)

private theorem feeAttempts_outcome {r : FeeSelection σ}
    (run : feeAttempts b select n params target lastTotal lastCount estimate targets s = r) :
    (r.ok = false → r.params.feeUtxos = [] ∧ r.params.feeAmounts = []) ∧
      (r.ok = true → ∃ coins, Pays b select params coins r) := by
  induction n generalizing params target lastTotal lastCount estimate targets s with
  | zero =>
    subst run
    exact ⟨fun _ => ⟨rfl, rfl⟩, nofun⟩
  | succ n ih =>
    rcases feeAttempts_cases run with ⟨failed, utxos, amounts, _⟩ | ⟨ok, pays, _⟩ |
      ⟨coins, s', next, _, again⟩
    · exact ⟨fun _ => ⟨utxos, amounts⟩, fun ok => by simp [failed] at ok⟩
    · exact ⟨fun failed => by simp [ok] at failed, fun _ => pays⟩
    · obtain ⟨failed, pays⟩ := ih again
      refine ⟨failed, ?_⟩
      intro ok
      obtain ⟨coins', answered, nonempty, aligned, params_eq, estimated, enough⟩ := pays ok
      exact ⟨coins', answered, nonempty, aligned, params_eq, estimated, enough⟩

private theorem feeAttempts_length {r : FeeSelection σ}
    (run : feeAttempts b select n params target lastTotal lastCount estimate targets s = r) :
    r.targets.length ≤ targets.length + n := by
  induction n generalizing params target lastTotal lastCount estimate targets s with
  | zero =>
    subst run
    exact le_rfl
  | succ n ih =>
    rcases feeAttempts_cases run with ⟨_, _, _, asked⟩ | ⟨_, _, asked⟩ | ⟨coins, s', next, _, again⟩
    · rw [asked, List.length_append, List.length_singleton]
      omega
    · rw [asked, List.length_append, List.length_singleton]
      omega
    · have later := ih again
      rw [List.length_append, List.length_singleton] at later
      omega

private theorem feeAttempts_increasing {r : FeeSelection σ}
    (covers : ∀ s target coins s', select s target = (some coins, s') → target ≤ coins.total)
    (sorted : targets.Pairwise (· < ·)) (below : ∀ earlier ∈ targets, earlier < target)
    (run : feeAttempts b select n params target lastTotal lastCount estimate targets s = r) :
    r.targets.Pairwise (· < ·) := by
  have extended : (targets ++ [target]).Pairwise (· < ·) :=
    List.pairwise_append.mpr ⟨sorted, List.pairwise_singleton _ _, by simpa using below⟩
  induction n generalizing params target lastTotal lastCount estimate targets s with
  | zero =>
    subst run
    exact sorted
  | succ n ih =>
    rcases feeAttempts_cases run with ⟨_, _, _, asked⟩ | ⟨_, _, asked⟩ |
      ⟨coins, s', next, answered, again⟩
    · rw [asked]
      exact extended
    · rw [asked]
      exact extended
    · have reached := covers s target coins s' answered
      have above : ∀ earlier ∈ targets ++ [target], earlier < max next.fee (coins.total + 1) := by
        intro earlier member
        rcases List.mem_append.mp member with member | member
        · have := below earlier member
          omega
        · rw [List.mem_singleton] at member
          omega
      exact ih extended above again
        (List.pairwise_append.mpr ⟨extended, List.pairwise_singleton _ _, by simpa using above⟩)

end Loop

/-! The estimate against the build. -/

section Estimate

variable {curve : TaprootCurve} {b : TxBuilder} {params : TxBuilderRedeemParams}

private theorem calculateFee_congr {tx tx' : CMutableTransaction} (feeRate : ℤ)
    (vin : tx.vin = tx'.vin) (lengths : tx.vout.map (fun out => out.scriptPubKey.length) =
      tx'.vout.map fun out => out.scriptPubKey.length) :
    calculateFee tx feeRate = calculateFee tx' feeRate := by
  have count : tx.vout.length = tx'.vout.length := by simpa using congrArg List.length lengths
  have bytes := congrArg (List.map fun length => 8 + compactSizeLength length + length) lengths
  rw [List.map_map, List.map_map] at bytes
  have base : (tx.toTransaction 0).baseSize = (tx'.toTransaction 0).baseSize := by
    simp only [CTransaction.baseSize, CMutableTransaction.toTransaction, vin, count]
    exact congrArg (fun sizes : List ℕ => _ + sizes.sum + 4) bytes
  simp only [calculateFee, estimateTransactionVSize, base, vin]

private theorem redemptionChange_lengths (laws : CurveLaws curve)
    (point : curve.isFullyValid params.ownerKey.xOnlyPubKey = true) (ddChange : ℤ) :
    (redemptionChange curve params ddChange).map (fun out => out.scriptPubKey.length) =
      ((if 0 < ddChange then [⟨0, taprootPlaceholder⟩, ⟨0, amountsScript 3 [ddChange]⟩] else [] :
        List CTxOut).map fun out => out.scriptPubKey.length) := by
  unfold redemptionChange
  split_ifs with positive
  · obtain ⟨output, size, script⟩ := createDigiDollarP2TR_eq laws positive point
    have same : (createDigiDollarP2TR curve params.ownerKey.xOnlyPubKey ddChange).length =
        taprootPlaceholder.length := by
      rw [script]
      simp [taprootPlaceholder, pushData, size]
    simp [same]
  · rfl

private theorem redemptionPosition_ddMinted {position : CCollateralPosition}
    (found : redemptionPosition params = .ok position) :
    (if params.collateralAmount ≤ 0 then (getCollateralPosition params.collateralOutpoint).ddMinted
      else params.ddMinted) = position.ddMinted := by
  unfold redemptionPosition at found
  by_cases given : 0 < params.collateralAmount
  · rw [if_pos given] at found
    simp only [bind_eq_ok, rejectIf_eq_ok] at found
    obtain ⟨_, _, result⟩ := found
    cases result
    rw [if_neg (by omega)]
  · rw [if_neg given] at found
    cases found
    rw [if_pos (by omega)]

private theorem prepared_fee {p : PreparedRedemption} {estimate : FeeEstimate}
    (laws : CurveLaws curve)
    (onCurve : params.ownerKey.OnCurve curve) (noMinimum : params.minimumFee = 0)
    (estimated : b.estimateRedemptionFee params = .ok estimate)
    (prepared : prepareRedemption curve b params = .ok p) : p.totalFees = estimate.fee := by
  obtain ⟨position, ddToBurn, script, prepares⟩ := prepares_of_ok prepared
  have valid := prepares.valid
  simp only [validateRedeemParams, Bool.and_eq_true] at valid
  obtain ⟨point, _⟩ := onCurve (by simp [valid])
  obtain ⟨target, dest, _, rfl⟩ := resolveCollateralReturnScript_eq_ok prepares.returned
  simp only [estimateRedemptionFee, redemptionPosition_ddMinted prepares.found, prepares.burn,
    bind_eq_ok, rejectIf_eq_ok, Except.ok.injEq, exists_eq_left'] at estimated
  obtain ⟨_, _, _, _, result⟩ := estimated
  have sizes := redemptionChange_lengths laws point (params.ddAmounts.sum - ddToBurn)
  have same : calculateFee p.tx params.feeRate =
      calculateFee (feeSkeleton params (params.ddAmounts.sum - ddToBurn)) params.feeRate := by
    rw [prepares.tx]
    apply calculateFee_congr
    · rfl
    · simp only [feeSkeleton, dest, List.map_cons, sizes]
  rw [(redemptionFee_eq_ok prepares.charged).2 noMinimum, same, ← result]

/-! The errors of a build before its fee. -/

/-- The error of a build whose fee coins do not pay. -/
def insufficientFee : String := "Insufficient fee inputs for DD redemption fee"

private theorem append_ne {first second s : String} (n : ℕ) (short : n ≤ first.toList.length)
    (differ : first.toList.take n ≠ s.toList.take n) : first ++ second ≠ s := by
  intro same
  apply differ
  rw [← same, String.toList_append, List.take_append_of_le_length short]

private theorem resolveDGBChangeScript_errors (dest : Option CTxDestination) (allowTaproot : Bool) :
    ErrorsIn (· ≠ insufficientFee) (resolveDGBChangeScript dest allowTaproot) := by
  unfold resolveDGBChangeScript
  split
  · exact .error (by decide)
  · exact .bind (.rejectIf (by decide)) fun _ _ => .bind (.rejectIf (by decide)) fun _ _ => .ok _

private theorem prepareRedemption_errors :
    ErrorsIn (· ≠ insufficientFee) (prepareRedemption curve b params) := by
  have position : ErrorsIn (· ≠ insufficientFee) (redemptionPosition params) := by
    unfold redemptionPosition
    split
    · exact .bind (.rejectIf (by decide)) fun _ _ => .ok _
    · exact .ok _
  have path : ErrorsIn (· ≠ insufficientFee) (b.checkRedemptionPath params) := by
    unfold checkRedemptionPath
    split
    · exact .bind (.rejectIf (by decide)) fun _ _ => .rejectIf (by decide)
    · exact .ok _
  have burn (ddMinted : ℤ) : ErrorsIn (· ≠ insufficientFee) (b.redemptionBurn params ddMinted) := by
    unfold redemptionBurn
    split
    · exact .ok _
    · exact .bind (.rejectIf (by decide)) fun _ _ => .bind (.rejectIf (by decide)) fun _ _ => .ok _
  have returned : ErrorsIn (· ≠ insufficientFee)
      (resolveCollateralReturnScript params.collateralDest) := by
    unfold resolveCollateralReturnScript
    split
    · exact .error (by decide)
    · exact .bind (.rejectIf (by decide)) fun _ _ => .ok _
  have fee (tx : CMutableTransaction) :
      ErrorsIn (· ≠ insufficientFee) (b.redemptionFee params tx) := by
    unfold redemptionFee
    dsimp only
    split
    · exact .bind (.rejectIf (by decide)) fun _ _ => .ok _
    · exact .ok _
  unfold prepareRedemption
  refine .bind (.rejectIf (by decide)) fun _ _ => .bind position fun _ _ => .bind path fun _ _ =>
    .bind (burn _) fun _ _ => .bind (.rejectIf ?_) fun _ _ =>
      .bind (.rejectIf (by decide)) fun _ _ =>
      .bind returned fun _ _ => .bind (.rejectIf ?_) fun _ _ => .bind (fee _) fun _ _ => .ok _
  · exact append_ne 1 (by decide) (by decide)
  · simp only [String.append_assoc]
    exact append_ne 14 (by decide) (by decide)

private theorem build_errors {estimate : FeeEstimate} (laws : CurveLaws curve)
    (onCurve : params.ownerKey.OnCurve curve) (noMinimum : params.minimumFee = 0)
    (estimated : b.estimateRedemptionFee params = .ok estimate)
    (paid : 0 < redemptionFeeIn params ∧ estimate.fee ≤ redemptionFeeIn params) :
    ErrorsIn (· ≠ insufficientFee) (buildRedemptionTransaction curve b params) := by
  refine .bind prepareRedemption_errors ?_
  intro p prepared
  obtain ⟨position, ddToBurn, script, prepares⟩ := prepares_of_ok prepared
  have fee := prepared_fee laws onCurve noMinimum estimated prepared
  have feeIn := prepares.feeIn
  unfold finishRedemption
  rw [rejectIf_bind_of_not (by omega), rejectIf_bind_of_not (by omega)]
  dsimp only
  split
  · exact .bind (resolveDGBChangeScript_errors _ _) fun _ _ => .ok _
  · exact .ok _

end Estimate

private theorem redemptionFeeIn_withFees {params : TxBuilderRedeemParams} {coins : FeeCoins}
    (nonempty : coins.utxos ≠ []) (aligned : coins.utxos.length = coins.amounts.length) :
    redemptionFeeIn (params.withFees coins) = coins.amounts.sum := by
  have given : coins.amounts ≠ [] := by
    rintro empty
    rw [empty] at aligned
    exact nonempty (List.length_eq_zero_iff.mp aligned)
  unfold redemptionFeeIn TxBuilderRedeemParams.withFees
  rw [if_neg nonempty, if_pos ⟨given, aligned.symm⟩]

private theorem estimateRedemptionFee_pos {b : TxBuilder} {params : TxBuilderRedeemParams}
    {estimate : FeeEstimate} (estimated : b.estimateRedemptionFee params = .ok estimate) :
    0 < estimate.fee := by
  simp only [estimateRedemptionFee, bind_eq_ok, rejectIf_eq_ok] at estimated
  obtain ⟨_, _, _, _, _, _, result⟩ := estimated
  cases result
  exact lt_max_of_lt_right (by decide)

/-- The loop ends within its attempts. On success the build pays the fee of the last
estimate, on failure no fee coins are left, and the targets increase for a selector
that reaches them. -/
theorem fee_selection_sound (curve : TaprootCurve) (b : TxBuilder) (params : TxBuilderRedeemParams)
    (select : FeeCoinSelector σ) (max_attempts : ℤ) (s : σ) (laws : CurveLaws curve)
    (onCurve : params.ownerKey.OnCurve curve) (noMinimum : params.minimumFee = 0)
    (totals : ∀ s target coins s', select s target = (some coins, s') →
      coins.total = coins.amounts.sum) :
    let r := b.selectRedemptionFeeInputs params (some select) max_attempts s
    (r.targets.length : ℤ) ≤ max max_attempts 1 ∧
      (r.ok = true →
        buildRedemptionTransaction curve b r.params ≠ .error insufficientFee ∧
          b.estimateRedemptionFee r.params = .ok r.estimate ∧
          ∀ p, prepareRedemption curve b r.params = .ok p → p.totalFees = r.estimate.fee) ∧
      (r.ok = false → r.params.feeUtxos = [] ∧ r.params.feeAmounts = []) ∧
      ((∀ s target coins s', select s target = (some coins, s') →
          target ≤ coins.total ∧ ∀ amount ∈ coins.amounts, 0 < amount) →
        r.targets.Pairwise (· < ·)) := by
  intro r
  have run : b.selectRedemptionFeeInputs params (some select) max_attempts s = r := rfl
  clear_value r
  unfold selectRedemptionFeeInputs at run
  dsimp only at run
  split at run
  · subst run
    exact ⟨by simp, nofun, fun _ => ⟨rfl, rfl⟩, fun _ => .nil⟩
  · obtain ⟨failed, chosen⟩ := feeAttempts_outcome run
    have length := feeAttempts_length run
    refine ⟨?_, ?_, failed, ?_⟩
    · rw [List.length_nil] at length
      split_ifs at length <;> omega
    · intro ok
      obtain ⟨coins, pays⟩ := chosen ok
      obtain ⟨_, _, _, answered⟩ := pays.answered
      have total := totals _ _ _ _ answered
      have feeIn : redemptionFeeIn r.params = coins.amounts.sum := by
        rw [pays.params_eq]
        exact redemptionFeeIn_withFees pays.nonempty pays.aligned
      have fee := estimateRedemptionFee_pos pays.estimated
      have enough := pays.enough
      have onCurve' : r.params.ownerKey.OnCurve curve := by
        rw [pays.params_eq]
        exact onCurve
      have noMinimum' : r.params.minimumFee = 0 := by
        rw [pays.params_eq]
        exact noMinimum
      refine ⟨?_, pays.estimated, fun p => prepared_fee laws onCurve' noMinimum' pays.estimated⟩
      intro short
      exact build_errors laws onCurve' noMinimum' pays.estimated (by omega) _ short rfl
    · intro covers
      exact feeAttempts_increasing (fun s target coins s' answered =>
        (covers s target coins s' answered).1)
        .nil (by simp) run

end TxBuilder

namespace Sample

/-- A wallet that offers two small coins while they reach the target, and then a large one. -/
def twoOffers : FeeCoinSelector Unit := fun _ target =>
  if target ≤ 40000000 then (some ⟨[⟨1, 0⟩, ⟨1, 1⟩], [20000000, 20000000], 40000000⟩, ())
  else if target ≤ 200000000000 then (some ⟨[⟨1, 2⟩], [200000000000], 200000000000⟩, ())
  else (none, ())

def costlyVault : TxBuilderRedeemParams := { wholeVault with feeRate := 100000000 }

private theorem twoOffers_cases {s : Unit} {target : ℤ} {coins : FeeCoins} {s' : Unit}
    (offered : twoOffers s target = (some coins, s')) :
    target ≤ 40000000 ∧ coins = ⟨[⟨1, 0⟩, ⟨1, 1⟩], [20000000, 20000000], 40000000⟩ ∨
      target ≤ 200000000000 ∧ coins = ⟨[⟨1, 2⟩], [200000000000], 200000000000⟩ := by
  unfold twoOffers at offered
  split_ifs at offered with small large
  · exact .inl ⟨small, (Option.some.inj (congrArg Prod.fst offered)).symm⟩
  · exact .inr ⟨large, (Option.some.inj (congrArg Prod.fst offered)).symm⟩
  · cases offered

/-- With two inputs the transaction costs more than the small coins hold, so that the wallet is
asked again and the large coin pays. -/
theorem second_offer_selected :
    let r := (redeemBuilder 1000).selectRedemptionFeeInputs costlyVault (some twoOffers) 12 ()
    r.ok = true ∧ r.targets = [33200000, 42500000] ∧ r.targets.Pairwise (· < ·) ∧
      r.params.feeUtxos = [⟨1, 2⟩] ∧
      TxBuilder.buildRedemptionTransaction curve (redeemBuilder 1000) r.params ≠
        .error TxBuilder.insufficientFee := by
  intro r
  have ok : r.ok = true := by decide +kernel
  have sound := TxBuilder.fee_selection_sound curve (redeemBuilder 1000) costlyVault twoOffers 12 ()
    curve_laws (fun _ => ⟨rfl, rfl⟩) rfl (fun _ _ _ _ offered => by
      rcases twoOffers_cases offered with ⟨_, rfl⟩ | ⟨_, rfl⟩ <;> decide)
  refine ⟨ok, by decide +kernel, sound.2.2.2 ?_, by decide +kernel, (sound.2.1 ok).1⟩
  intro _ target coins _ offered
  rcases twoOffers_cases offered with ⟨reached, rfl⟩ | ⟨reached, rfl⟩
  · exact ⟨reached, by decide⟩
  · exact ⟨reached, by decide⟩

end Sample

end DigiByte.DigiDollar
