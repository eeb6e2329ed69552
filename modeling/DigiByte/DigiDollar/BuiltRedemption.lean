import DigiByte.DigiDollar.BuiltTransfer
import DigiByte.DigiDollar.RedeemBuilder
import DigiByte.DigiDollar.RedemptionLaw
import DigiByte.DigiDollar.Supply

/-!
Built redemptions against the redemption rules.

The builder fixes path, burn, change, lock time and returned value once; the rules
derive all of them again from the coins, and agree at every later height.
-/

set_option autoImplicit false
set_option relaxedAutoImplicit false

namespace DigiByte.DigiDollar

open Consensus Script
open Library.Checks (rejectIf bind_eq_ok rejectIf_eq_ok rejectIf_bind_of_not ok_bind
  toOption_eq_some)

/-- An open vault of the context, with the height that its mint recorded. -/
structure OpenVault (curve : TaprootCurve) (ctx : ValidationContext) (outpoint : COutPoint)
    (collateral principal lockHeight : ℤ) (coin : Coin) (creating : CTransaction) : Prop where
  spent : SpentVault ctx outpoint coin ⟨outpoint, principal, collateral⟩
  created : creatingTransaction (contextTransactionLookup ctx) outpoint coin = some creating
  indexed : (ctx.txLookup.bind fun lookup => lookup outpoint.hash coin.nHeight) = some creating
  recorded : recordedLockHeight creating = some lockHeight
  minted : ∃ mintCtx mintNode, validateMintTransaction curve creating mintCtx mintNode = .ok ()

/-- An ordinary coin of the context that is worth `amount`. -/
structure FeeCoin (ctx : ValidationContext) (outpoint : COutPoint) (amount : ℤ) : Prop where
  positive : 0 < amount
  coin : ∃ coin, ctx.getCoin outpoint = some coin ∧ coin.out.nValue = amount ∧
    lookupCanonicalVault outpoint coin ctx.params.consensus (contextTransactionLookup ctx) =
      .notVault

theorem OpenVault.metadata {curve : TaprootCurve} {ctx : ValidationContext} {outpoint : COutPoint}
    {collateral principal lockHeight : ℤ} {coin : Coin} {creating : CTransaction}
    (vault : OpenVault curve ctx outpoint collateral principal lockHeight coin creating) :
    extractMintMetadataFromTx creating 0 = (principal, some lockHeight) ∧ 0 < principal ∧
      principal ≤ MAX_DIGIDOLLAR := by
  obtain ⟨_, _, creating', created, type, accounted⟩ := canonicalVault_cases vault.spent.2
  obtain rfl := Option.some.inj (vault.created.symm.trans created)
  obtain ⟨_, _, mint⟩ := vault.minted
  obtain ⟨_, _, s, accepted⟩ := acceptedMint_of_ok mint
  have released := accepted.release_eq type 0
  obtain ⟨same, small, recorded⟩ := principal_of_metadata accepted.mintStructure accounted released
  obtain rfl := Option.some.inj (recorded.symm.trans vault.recorded)
  dsimp only at same small
  subst same
  exact ⟨released, accepted.amount_pos, small⟩

/-! Inputs. -/

section Inputs

variable {ctx : ValidationContext} {node : NodeState} {view : CoinsView} {input : COutPoint → CTxIn}
  (coins : ctx.coins = some view) (prevout : ∀ utxo, (input utxo).prevout = utxo)

include coins

private theorem getCoin (outpoint : COutPoint) : ctx.getCoin outpoint = view.getCoin outpoint := by
  simp [ValidationContext.getCoin, coins]

include prevout

private theorem redeemInputs_tokens (active : ctx.canonical = true) {utxos : List COutPoint}
    {amounts : List ℤ} (tokens : List.Forall₂ (TokenCoin ctx) utxos amounts) (rest : List CTxIn)
    (acc : Bool × ℤ) (fits : acc.2 + amounts.sum ≤ INT64_MAX) :
    redeemInputs ctx node (utxos.map input ++ rest) acc =
      redeemInputs ctx node rest (acc.1 || utxos ≠ [], acc.2 + amounts.sum) := by
  induction tokens generalizing acc with
  | nil => simp
  | @cons utxo amount utxos amounts token tokens ih =>
    obtain ⟨coin, creating, found, zero, confirmed, mayCreate, _⟩ := token.coin
    obtain ⟨coin', found', _, read⟩ := token.read
    obtain rfl := Option.some.inj (found.symm.trans found')
    have positive := token.positive
    have allowed := token.allowed
    have later := TokenCoin.sum_nonneg tokens
    rw [List.sum_cons] at fits ⊢
    have added : addDDAmount acc.2 amount = some (acc.2 + amount) := by
      rw [addDDAmount, if_neg (by omega), if_neg (by omega)]
    have first : redeemInput ctx node (input utxo) acc = .ok (true, acc.2 + amount) := by
      rw [getCoin coins] at found
      unfold redeemInput
      simp only [coins, prevout, found, zero, ne_eq, not_true_eq_false, if_false]
      rw [rejectIf_bind_of_not confirmed, rejectIf_bind_of_not (by simp [mayCreate]), if_pos active,
        read, ok_bind, added]
    rw [List.map_cons, List.cons_append, redeemInputs, first, ok_bind, ih _ (by dsimp only; omega)]
    simp [add_assoc]

private theorem redeemInputs_fees {utxos : List COutPoint} {amounts : List ℤ}
    (fees : List.Forall₂ (FeeCoin ctx) utxos amounts) (acc : Bool × ℤ) :
    redeemInputs ctx node (utxos.map input) acc = .ok acc := by
  induction fees with
  | nil => rfl
  | @cons utxo amount utxos amounts fee _ ih =>
    obtain ⟨positive, coin, found, value, _⟩ := fee
    have first : redeemInput ctx node (input utxo) acc = .ok acc := by
      rw [getCoin coins] at found
      unfold redeemInput
      simp only [coins, prevout, found]
      rw [if_pos (by omega)]
    rw [List.map_cons, redeemInputs, first, ok_bind, ih]

private theorem feeInputsFrom_tokens {utxos : List COutPoint} {amounts : List ℤ}
    (tokens : List.Forall₂ (TokenCoin ctx) utxos amounts) (rest : List CTxIn) (i : ℕ) (total : ℤ) :
    feeInputsFrom ctx node view (utxos.map input ++ rest) i total =
      feeInputsFrom ctx node view rest (i + utxos.length) total := by
  induction tokens generalizing i with
  | nil => rfl
  | @cons utxo amount utxos amounts token _ ih =>
    obtain ⟨coin, found, zero, _⟩ := token.read
    rw [getCoin coins] at found
    rw [List.map_cons, List.cons_append, feeInputsFrom, prevout, found]
    dsimp only
    rw [if_neg (by omega), ih, List.length_cons, add_assoc, add_comm 1]

private theorem feeInputsFrom_fees (active : ctx.canonical = true) {utxos : List COutPoint}
    {amounts : List ℤ} (fees : List.Forall₂ (FeeCoin ctx) utxos amounts) (i : ℕ) (total : ℤ) :
    feeInputsFrom ctx node view (utxos.map input) i total = .ok (total + amounts.sum) := by
  induction fees generalizing i total with
  | nil => simp [feeInputsFrom]
  | @cons utxo amount utxos amounts fee _ ih =>
    obtain ⟨positive, coin, found, value, notVault⟩ := fee
    rw [getCoin coins] at found
    have ordinary : isCollateralFeeInput ctx node utxo coin = .ok false := by
      simp [isCollateralFeeInput, active, notVault]
    rw [List.map_cons, feeInputsFrom, prevout, found]
    dsimp only
    rw [if_pos (by omega), ordinary, ok_bind, rejectIf_bind_of_not (by decide), ih, value,
      List.sum_cons, add_assoc]

end Inputs

/-! What a successful build gives. -/

structure BuiltRedemption (curve : TaprootCurve) (b : TxBuilder) (params : TxBuilderRedeemParams)
    (health : ℤ) (result : RedeemBuilderResult) : Prop where
  owner : params.ownerKey.isValid = true
  someToken : params.ddUtxos ≠ []
  reached : (params.unlockHeight.toNat : ℤ) ≤ b.currentHeight
  enough : getRequiredDDBurn params.ddMinted health ≤ params.ddAmounts.sum
  version : result.tx.nVersion = 0x03000770
  inputs : result.tx.vin = redemptionInputs params
  lockTime : result.tx.nLockTime = params.unlockHeight
  outputs : ∃ script feeChange, isOpReturn script = false ∧
    (∀ out ∈ feeChange, 0 < out.nValue ∧ isOpReturn out.scriptPubKey = false) ∧
    (feeChange.map CTxOut.nValue).sum ≤ redemptionFeeIn params ∧
    result.tx.vout = ⟨params.collateralAmount, script⟩ :: (TxBuilder.redemptionChange curve params
      (params.ddAmounts.sum - getRequiredDDBurn params.ddMinted health) ++ feeChange)

namespace TxBuilder

variable {curve : TaprootCurve} {b : TxBuilder} {params : TxBuilderRedeemParams} {health : ℤ}

private theorem checkRedemptionPath_eq_ok
    (active : isThawDayActive b.chainParams.consensus b.currentHeight = true)
    (candidate : b.candidateHealth = some health)
    (checked : b.checkRedemptionPath params = .ok ()) :
    b.getCurrentSystemCollateral = health ∧
      params.path = if health < 100 then .err else .normal := by
  have current : b.getCurrentSystemCollateral = if 0 ≤ health ∧ health ≤ 30000 then health
      else -1 := by
    simp [getCurrentSystemCollateral, active, candidate]
  unfold checkRedemptionPath at checked
  rw [if_pos active] at checked
  simp only [bind_eq_ok, rejectIf_eq_ok, not_not] at checked
  obtain ⟨_, ready, path⟩ := checked
  have known : b.getCurrentSystemCollateral = health := by
    rw [current] at ready ⊢
    split_ifs at ready ⊢ with range
    · rfl
    · exact absurd (by decide) ready
  rw [known] at path
  exact ⟨known, path⟩

private theorem redemptionBurn_eq_ok {ddToBurn : ℤ}
    (current : b.getCurrentSystemCollateral = health)
    (path : params.path = if health < 100 then .err else .normal) (positive : 0 < params.ddMinted)
    (whole : params.ddToRedeem = params.ddMinted)
    (burns : b.redemptionBurn params params.ddMinted = .ok ddToBurn) :
    ddToBurn = getRequiredDDBurn params.ddMinted health := by
  unfold redemptionBurn at burns
  by_cases err : health < 100
  · rw [if_pos err] at path
    simp only [path, bind_eq_ok, rejectIf_eq_ok] at burns
    obtain ⟨_, _, _, _, result⟩ := burns
    cases result
    rw [current]
  · rw [if_neg err] at path
    simp only [path] at burns
    cases burns
    rw [whole, getRequiredDDBurn, if_neg (by omega), if_pos (by omega)]

private theorem finishRedemption_eq_ok {p : PreparedRedemption} {result : RedeemBuilderResult}
    (fee : 0 ≤ p.totalFees) (finished : finishRedemption params p = .ok result) :
    ∃ feeChange, (∀ out ∈ feeChange, 0 < out.nValue ∧ isOpReturn out.scriptPubKey = false) ∧
      (feeChange.map CTxOut.nValue).sum ≤ p.totalFeeIn ∧
      result.tx = { p.tx with vout := p.tx.vout ++ feeChange } := by
  simp only [finishRedemption, bind_eq_ok, rejectIf_eq_ok] at finished
  obtain ⟨_, some_fee, _, covered, finished⟩ := finished
  by_cases large : DUST_THRESHOLD ≤ p.totalFeeIn - p.totalFees
  · rw [if_pos large] at finished
    obtain ⟨script, resolved, result⟩ := bind_eq_ok.mp finished
    cases result
    obtain ⟨target, _, valid, rfl, _⟩ := resolveDGBChangeScript_eq_ok resolved
    refine ⟨[⟨p.totalFeeIn - p.totalFees, getScriptForDestination target⟩], ?_, ?_, rfl⟩
    · intro out member
      rw [List.mem_singleton] at member
      subst member
      unfold DUST_THRESHOLD at large
      exact ⟨by dsimp only; omega, isOpReturn_getScriptForDestination valid⟩
    · simpa using fee
  · rw [if_neg large] at finished
    cases finished
    refine ⟨[], by simp, ?_, by simp⟩
    simp only [List.map_nil, List.sum_nil]
    omega

theorem builtRedemption_of_ok {result : RedeemBuilderResult}
    (active : isThawDayActive b.chainParams.consensus b.currentHeight = true)
    (candidate : b.candidateHealth = some health) (locked : 0 < params.collateralAmount)
    (positive : 0 < params.ddMinted) (whole : params.ddToRedeem = params.ddMinted)
    (built : buildRedemptionTransaction curve b params = .ok result) :
    BuiltRedemption curve b params health result := by
  obtain ⟨p, prepared, finished⟩ := bind_eq_ok.mp built
  obtain ⟨position, ddToBurn, script, prepares⟩ := prepares_of_ok prepared
  have given : redemptionPosition params =
      .ok ⟨params.collateralAmount, params.ddMinted, params.unlockHeight.toNat⟩ := by
    rw [redemptionPosition, if_pos locked, rejectIf_bind_of_not (by omega)]
  obtain rfl := Except.ok.inj (given.symm.trans prepares.found)
  obtain ⟨current, path⟩ := checkRedemptionPath_eq_ok active candidate prepares.path
  obtain rfl := redemptionBurn_eq_ok current path positive whole prepares.burn
  obtain ⟨feeChange, shape, covered, tx⟩ :=
    finishRedemption_eq_ok (redemptionFee_eq_ok prepares.charged).1 finished
  obtain ⟨target, _, usable, rfl⟩ := resolveCollateralReturnScript_eq_ok prepares.returned
  have valid := prepares.valid
  simp only [validateRedeemParams, Bool.and_eq_true, decide_eq_true_eq] at valid
  have reached : (params.unlockHeight.toNat : ℤ) ≤ b.currentHeight := by
    have conditions := prepares.conditions
    unfold verifyRedemptionConditions at conditions
    split_ifs at conditions with early
    exact not_lt.mp early
  have lockTime : UInt32.ofNat (toUint32 (params.unlockHeight.toNat : ℤ)) =
      params.unlockHeight := by
    rw [toUint32_toNat, UInt32.ofNat_toNat]
  rw [prepares.tx] at tx
  rw [prepares.feeIn] at covered
  refine ⟨by simp [valid], by simpa using valid.2, reached, prepares.enough, by rw [tx]; rfl,
    by rw [tx], by rw [tx]; exact lockTime, _, feeChange, isOpReturn_getScriptForDestination usable,
    shape, covered, by rw [tx]; rfl⟩

end TxBuilder

/-! The rules on built outputs. -/

section Change

variable {change : ℤ} (positive : 0 < change) (allowed : change ≤ MAX_DIGIDOLLAR)

/-- The fields behind the tag of a change record. -/
private def changeFields (change : ℤ) : Bytes :=
  pushData (serializeNum 3) ++ ([change].map serializeNum).flatMap pushData

include positive allowed

private theorem changeFields_read : ∃ first second rest,
    getScriptOp (changeFields change) = (some (first, serializeNum 3), rest) ∧
      getScriptOp rest = (some (second, serializeNum change), []) ∧ serializeNum change ≠ [] ∧
      scriptNum (serializeNum change) true 8 = some change := by
  have bound : change.natAbs < 0x80 * 256 ^ 7 := by
    unfold MAX_DIGIDOLLAR at allowed
    omega
  obtain ⟨first, type⟩ := @getScriptOp_pushNum 3 (by decide)
    (([change].map serializeNum).flatMap pushData)
  obtain ⟨second, amount⟩ := getScriptOp_pushNum bound []
  exact ⟨first, second, _, type, by simpa using amount, serializeNum_ne_nil bound positive.ne',
    scriptNum_serializeNum_of_lt le_rfl bound le_rfl true⟩

private theorem readRedeemPayload_change :
    readRedeemPayload (changeFields change) = .ok change := by
  obtain ⟨first, second, rest, type, amount, nonempty, value⟩ := changeFields_read positive allowed
  have three : scriptNum (serializeNum 3) true 4 = some 3 := by decide
  unfold readRedeemPayload
  rw [type]
  dsimp only
  rw [rejectIf_bind_of_not (by decide), three]
  dsimp only
  rw [rejectIf_bind_of_not (by decide), amount]
  dsimp only
  rw [rejectIf_bind_of_not nonempty, value]
  dsimp only
  rw [rejectIf_bind_of_not (by omega)]

private theorem readPayload_change : readPayload .redeem (changeFields change) = some [change] := by
  obtain ⟨first, second, rest, type, amount, nonempty, value⟩ := changeFields_read positive allowed
  have three : readTxType (serializeNum 3) = some 3 := by decide
  simp [readPayload, payloadAmounts, readAmount, type, three, amount, nonempty, value,
    DigiDollarTxType.toInt]

private theorem scanRedeemMetadata_change :
    scanRedeemMetadata ⟨0, amountsScript 3 [change]⟩ {} =
      .ok { ddOpReturnCount := 1, ddAmountFromOpReturn := some change } := by
  have opened : getScriptOp (amountsScript 3 [change]) =
      (some (OP_RETURN, []), pushData DD_TAG ++ changeFields change) := rfl
  have tag := @getScriptOp_pushData DD_TAG (by decide) (changeFields change)
  have marked : isOpReturn (amountsScript 3 [change]) = true := rfl
  have distinct : UInt8.ofNat DD_TAG.length ≠ OP_DIGIDOLLAR := by decide
  simp only [scanRedeemMetadata, marked, opened, tag, ne_eq, not_true_eq_false, Bool.true_eq_false,
    or_self, if_false, distinct, if_true]
  rw [rejectIf_bind_of_not (by decide), readRedeemPayload_change positive allowed]
  rfl

end Change

private theorem scanRedeemMetadatas_plain {outs : List CTxOut} (rest : List CTxOut)
    (m : RedeemMetadata)
    (plain : ∀ out ∈ outs, out.nValue ≠ 0 ∨ isOpReturn out.scriptPubKey = false) :
    scanRedeemMetadatas (outs ++ rest) m = scanRedeemMetadatas rest m := by
  induction outs with
  | nil => rfl
  | cons out outs ih =>
    have first : scanRedeemMetadata out m = .ok m := by
      rw [scanRedeemMetadata, if_pos (plain out (by simp))]
    rw [List.cons_append, scanRedeemMetadatas, first, ok_bind]
    exact ih fun out member => plain out (by simp [member])

private theorem redeemOutputsFrom_values {tx : CTransaction} {ctx : ValidationContext}
    {amount : Option ℤ} {outs : List CTxOut} {outIdx : ℕ} {o : RedeemOutputs}
    (values : ∀ out ∈ outs, 0 < out.nValue) (seen : o.hasDGBOutput = true) :
    redeemOutputsFrom tx ctx amount outs outIdx o = .ok o := by
  induction outs generalizing outIdx with
  | nil => rfl
  | cons out outs ih =>
    have same : { o with hasDGBOutput := true } = o := by
      cases o
      simp_all
    rw [redeemOutputsFrom, if_pos (values out (by simp)), same]
    exact ih fun out member => values out (by simp [member])

/-! The whole transaction. -/

namespace BuiltRedemption

variable {curve : TaprootCurve} {b : TxBuilder} {params : TxBuilderRedeemParams} {health : ℤ}
  {result : RedeemBuilderResult} {ctx : ValidationContext} {node : NodeState} {hash : ℕ}
  (built : BuiltRedemption curve b params health result)

include built

private theorem type_eq : getDigiDollarTxType (result.tx.toTransaction hash) = .redeem := by
  rw [getDigiDollarTxType, hasDigiDollarMarker]
  simp only [CMutableTransaction.toTransaction, built.version]
  rfl

private theorem not_coinbase : (result.tx.toTransaction hash).isCoinBase = false := by
  obtain ⟨utxo, rest, some_token⟩ := List.exists_cons_of_ne_nil built.someToken
  simp [CTransaction.isCoinBase, CMutableTransaction.toTransaction, built.inputs, redemptionInputs,
    some_token]

private theorem change_p2tr (laws : CurveLaws curve) (onCurve : params.ownerKey.OnCurve curve)
    {change : ℤ} (positive : 0 < change) :
    isCanonicalP2TROutput (createDigiDollarP2TR curve params.ownerKey.xOnlyPubKey change) = true :=
  createDigiDollarP2TR_p2tr laws positive (onCurve built.owner).1

private theorem extract_change (laws : CurveLaws curve) (onCurve : params.ownerKey.OnCurve curve)
    {change : ℤ}
    (change_eq : change = params.ddAmounts.sum - getRequiredDDBurn params.ddMinted health)
    (locked : 0 < params.collateralAmount) (positive : 0 < change)
    (allowed : change ≤ MAX_DIGIDOLLAR) :
    extractDDAmountFromTxRef (result.tx.toTransaction hash) 1 = some change := by
  obtain ⟨script, feeChange, notReturn, shape, _, vout⟩ := built.outputs
  have p2tr := built.change_p2tr laws onCurve positive
  rw [← change_eq, TxBuilder.redemptionChange, if_pos positive] at vout
  have outputs : (result.tx.toTransaction hash).vout = result.tx.vout := rfl
  have tagged : ddPayload (amountsScript 3 [change]) = some (changeFields change) :=
    ddPayload_tagged _
  have first : ddPayload script = none := by simp [ddPayload, notReturn]
  have untagged : ddPayloads feeChange = [] := by
    rw [ddPayloads, List.filterMap_eq_nil_iff]
    intro out member
    simp [ddPayload, (shape out member).2]
  have payload : ddPayloads (result.tx.toTransaction hash).vout = [changeFields change] := by
    rw [outputs, vout]
    unfold ddPayloads at untagged ⊢
    simp [first, ddPayload_eq_none_of_p2tr p2tr, tagged, untagged]
  have read : readPayload (getDigiDollarTxType (result.tx.toTransaction hash))
      (changeFields change) =
      some [change] := by
    rw [built.type_eq]
    exact readPayload_change positive allowed
  have marked : hasDigiDollarMarker (result.tx.toTransaction hash) = true :=
    hasDigiDollarMarker_of_type built.type_eq (by decide)
  have collateral : isTokenOutput ⟨params.collateralAmount, script⟩ = false := by
    rw [Bool.eq_false_iff, ne_eq, isTokenOutput_iff]
    rintro ⟨zero, _⟩
    exact absurd zero locked.ne'
  have token : isTokenOutput
      ⟨0, createDigiDollarP2TR curve params.ownerKey.xOnlyPubKey change⟩ = true :=
    isTokenOutput_iff.mpr ⟨rfl, p2tr⟩
  rw [extractDDAmountFromTxRef_eq 1 built.not_coinbase marked payload read, outputs, vout]
  simp [tokenAmounts, collateral, token, Option.filter, positive]

private theorem scanned (laws : CurveLaws curve) (onCurve : params.ownerKey.OnCurve curve)
    (locked : 0 < params.collateralAmount)
    (allowed : params.ddAmounts.sum - getRequiredDDBurn params.ddMinted health ≤ MAX_DIGIDOLLAR) :
    ∃ m, scanRedeemMetadatas result.tx.vout {} = .ok m ∧ m.foundLegacyDDOpReturn = false := by
  obtain ⟨script, feeChange, _, shape, _, vout⟩ := built.outputs
  have paid : ∀ m, scanRedeemMetadatas feeChange m = .ok m := by
    intro m
    have plain := scanRedeemMetadatas_plain [] m fun out member => .inl (shape out member).1.ne'
    simpa [scanRedeemMetadatas] using plain
  have returned : ∀ out ∈ [CTxOut.mk params.collateralAmount script],
      out.nValue ≠ 0 ∨ isOpReturn out.scriptPubKey = false := by
    simpa using .inl locked.ne'
  rw [vout, ← List.singleton_append, scanRedeemMetadatas_plain _ {} returned]
  unfold TxBuilder.redemptionChange
  split_ifs with positive
  · have token : ∀ out ∈ [CTxOut.mk 0 (createDigiDollarP2TR curve params.ownerKey.xOnlyPubKey
          (params.ddAmounts.sum - getRequiredDDBurn params.ddMinted health))],
        out.nValue ≠ 0 ∨ isOpReturn out.scriptPubKey = false := by
      simpa using isOpReturn_eq_false_of_p2tr (built.change_p2tr laws onCurve positive)
    have record := scanRedeemMetadatas_plain (⟨0, amountsScript 3 [params.ddAmounts.sum -
      getRequiredDDBurn params.ddMinted health]⟩ :: feeChange) {} token
    rw [scanRedeemMetadatas, scanRedeemMetadata_change positive allowed, ok_bind, paid] at record
    exact ⟨_, record, rfl⟩
  · exact ⟨{}, paid {}, rfl⟩

private theorem counted (laws : CurveLaws curve) (onCurve : params.ownerKey.OnCurve curve)
    (active : ctx.canonical = true) (locked : 0 < params.collateralAmount)
    (allowed : params.ddAmounts.sum - getRequiredDDBurn params.ddMinted health ≤ MAX_DIGIDOLLAR)
    (amount : Option ℤ) :
    ∃ o, redeemOutputsFrom (result.tx.toTransaction hash) ctx amount result.tx.vout 0 {} = .ok o ∧
      o.hasDGBOutput = true ∧
      o.totalDDOutputs = params.ddAmounts.sum - getRequiredDDBurn params.ddMinted health := by
  have enough := built.enough
  obtain ⟨script, feeChange, _, shape, _, vout⟩ := built.outputs
  have values : ∀ out ∈ feeChange, 0 < out.nValue := fun out member => (shape out member).1
  by_cases positive : 0 < params.ddAmounts.sum - getRequiredDDBurn params.ddMinted health
  · have read : extractDDAmountFromTxRef (result.tx.toTransaction hash) 1 = some _ :=
      built.extract_change laws onCurve rfl locked positive allowed
    have p2tr := built.change_p2tr laws onCurve positive
    rw [vout, TxBuilder.redemptionChange, if_pos positive]
    generalize params.ddAmounts.sum - getRequiredDDBurn params.ddMinted health = change at *
    have added : addDDAmount 0 change = some change := by
      rw [addDDAmount, if_neg (by omega), if_neg (by unfold INT64_MAX MAX_DIGIDOLLAR at *; omega),
        zero_add]
    have paid : redeemChange (result.tx.toTransaction hash) ctx amount 1 0 = .ok change := by
      simp [redeemChange, active, read, added]
    refine ⟨{ hasDGBOutput := true, totalDDOutputs := change, ddChangeOutputCount := 1 }, ?_,
      rfl, rfl⟩
    have notReturn := isOpReturn_eq_false_of_p2tr p2tr
    have record : isOpReturn (amountsScript 3 [change]) = true := rfl
    simp only [List.cons_append, List.nil_append, redeemOutputsFrom, locked, lt_irrefl, if_true,
      if_false,
      notReturn, p2tr, record, Bool.false_eq_true, or_false, Bool.true_eq_false, true_or, zero_add]
    rw [rejectIf_bind_of_not (by decide), paid, ok_bind]
    exact redeemOutputsFrom_values values rfl
  · have noChange : params.ddAmounts.sum - getRequiredDDBurn params.ddMinted health = 0 := by omega
    refine ⟨{ hasDGBOutput := true }, ?_, rfl, noChange.symm⟩
    rw [vout, TxBuilder.redemptionChange, if_neg positive, List.nil_append, redeemOutputsFrom,
      if_pos locked]
    exact redeemOutputsFrom_values values rfl

private theorem conditions (later : b.currentHeight ≤ ctx.nHeight)
    (height : b.currentHeight ≤ INT_MAX) (judged : ctx.systemCollateral = health) :
    validateRedemptionConditions (result.tx.toTransaction hash) ctx = .ok () := by
  have reached := built.reached
  have small : toInt32 params.unlockHeight = params.unlockHeight.toNat :=
    toInt32_of_lt (by unfold INT_MAX at height; omega)
  have open_ : ¬ ctx.nHeight < toInt32 (result.tx.toTransaction hash).nLockTime := by
    simp only [CMutableTransaction.toTransaction, built.lockTime, small]
    omega
  unfold validateRedemptionConditions
  by_cases err : ctx.systemCollateral < 100
  · rw [if_pos err]
    unfold validateEmergencyRedemptionConditions
    rw [rejectIf_bind_of_not (by simp [CMutableTransaction.toTransaction, built.inputs,
      redemptionInputs]), rejectIf_bind_of_not fun bad => open_ bad.2, rejectIf_eq_ok]
    omega
  · rw [if_neg err]
    unfold validateNormalRedemptionConditions
    rw [rejectIf_bind_of_not open_, rejectIf_eq_ok]
    exact fun bad => err bad.2

private theorem released (locked : 0 < params.collateralAmount) :
    checkReleasedValue params.collateralAmount (redemptionFeeIn params)
      (totalDGBOutputs (result.tx.toTransaction hash).vout) = .ok () := by
  obtain ⟨script, feeChange, _, shape, covered, vout⟩ := built.outputs
  have values : (feeChange.map CTxOut.nValue).filter (0 < ·) = feeChange.map CTxOut.nValue := by
    rw [List.filter_eq_self]
    intro value member
    obtain ⟨out, listed, rfl⟩ := List.mem_map.mp member
    simpa using (shape out listed).1
  have tokens (change : ℤ) : ((TxBuilder.redemptionChange curve params change).map
      CTxOut.nValue).filter (0 < ·) = [] := by
    unfold TxBuilder.redemptionChange
    split_ifs <;> rfl
  have total : totalDGBOutputs result.tx.vout =
      params.collateralAmount + (feeChange.map CTxOut.nValue).sum := by
    simp only [totalDGBOutputs, vout, List.map_cons, List.map_append, List.filter_cons, locked,
      decide_true, if_true, List.filter_append, tokens, values, List.nil_append, List.sum_cons]
  have nonneg : 0 ≤ (feeChange.map CTxOut.nValue).sum := by
    apply List.sum_nonneg
    intro value member
    obtain ⟨out, listed, rfl⟩ := List.mem_map.mp member
    exact (shape out listed).1.le
  change checkReleasedValue _ _ (totalDGBOutputs result.tx.vout) = _
  simp only [checkReleasedValue, bind_eq_ok, rejectIf_eq_ok, total]
  exact ⟨(), by omega, by omega⟩

end BuiltRedemption

section Whole

variable {curve : TaprootCurve} {b : TxBuilder} {params : TxBuilderRedeemParams} {health : ℤ}
  {result : RedeemBuilderResult} {ctx : ValidationContext} {node : NodeState}
  {coin : Coin} {creating : CTransaction}

private theorem redemptionFeeIn_eq
    (fees : List.Forall₂ (FeeCoin ctx) params.feeUtxos params.feeAmounts) :
    redemptionFeeIn params = params.feeAmounts.sum := by
  have length := fees.length_eq
  unfold redemptionFeeIn
  split_ifs with noFees given
  · rw [noFees] at length
    rw [List.length_eq_zero_iff.mp length.symm]
    rfl
  · rfl
  · refine absurd ⟨?_, length.symm⟩ given
    rintro empty
    rw [empty] at length
    exact noFees (List.length_eq_zero_iff.mp length)

private theorem checkReleasedVault_ok (active : ctx.canonical = true)
    (height : ctx.params.consensus.DigiDollarHeight ≤ INT_MAX) {outpoint : COutPoint}
    {vault : CanonicalVault} (spent : SpentVault ctx outpoint coin vault) :
    checkReleasedVault ctx node outpoint coin = .ok () := by
  have mayContain : coinMayContainDigiDollar coin ctx.params.consensus = true := by
    by_contra none
    have isVault := spent.2
    rw [lookupCanonicalVault, if_pos (.inl (by simpa using none))] at isVault
    cases isVault
  simp only [coinMayContainDigiDollar, Bool.and_eq_true, decide_eq_true_eq] at mayContain
  obtain ⟨⟨⟨_, scheduled⟩, created⟩, _⟩ := mayContain
  have floor : ¬ (0 < earliestActivationFloor ctx.params.consensus ∧
      coin.nHeight < toUint32 (earliestActivationFloor ctx.params.consensus)) := by
    rintro ⟨positive, early⟩
    rw [earliestActivationFloor, if_neg scheduled] at positive early
    have low := toUint32_of_nonneg positive.le (by unfold INT_MAX at height; omega)
    have high := toUint32_of_nonneg (x := ctx.params.consensus.DigiDollarHeight) (by omega)
      (by unfold INT_MAX at height; omega)
    omega
  rw [checkReleasedVault, rejectIf_bind_of_not floor, if_pos active, spent.2]


private theorem checkOriginalMint_ok {hash : ℕ}
    (built : BuiltRedemption curve b params health result) (positive : 0 < params.ddMinted) :
    checkOriginalMint (result.tx.toTransaction hash)
      (params.ddMinted, some (params.unlockHeight.toNat : ℤ)) = .ok params.ddMinted := by
  have bound := params.unlockHeight.toNat_lt
  have same := toUint32_toNat params.unlockHeight
  have lockTime : (result.tx.toTransaction hash).nLockTime = params.unlockHeight := built.lockTime
  unfold checkOriginalMint
  dsimp only
  rw [rejectIf_bind_of_not (by omega), rejectIf_bind_of_not (by omega),
    rejectIf_bind_of_not (by rw [lockTime, same]; exact lt_irrefl _)]

private theorem checkRequiredBurn_ok {burned : ℤ} (positive : 0 < params.ddMinted)
    (small : params.ddMinted ≤ MAX_DIGIDOLLAR)
    (burns : burned = getRequiredDDBurn params.ddMinted health) :
    checkRequiredBurn health params.ddMinted burned = .ok () := by
  have raised := le_getRequiredDDBurn health positive
    (small.trans (by decide : MAX_DIGIDOLLAR ≤ INT64_MAX))
  have required :
      (if health < 100 then getRequiredDDBurn params.ddMinted health else params.ddMinted) =
      getRequiredDDBurn params.ddMinted health := by
    split_ifs with err
    · rfl
    · rw [getRequiredDDBurn, if_neg (by omega), if_pos (by omega)]
  simp only [checkRequiredBurn, required, bind_eq_ok, rejectIf_eq_ok]
  exact ⟨(), by omega, by omega⟩

private theorem checkRelease_ok {hash : ℕ} {view : CoinsView} {burned : ℤ}
    (active : ctx.canonical = true) (coins : ctx.coins = some view)
    (height : ctx.params.consensus.DigiDollarHeight ≤ INT_MAX)
    (vault : OpenVault curve ctx params.collateralOutpoint params.collateralAmount params.ddMinted
      params.unlockHeight.toNat coin creating)
    (tokens : List.Forall₂ (TokenCoin ctx) params.ddUtxos params.ddAmounts)
    (fees : List.Forall₂ (FeeCoin ctx) params.feeUtxos params.feeAmounts)
    (built : BuiltRedemption curve b params health result)
    (burns : burned = getRequiredDDBurn params.ddMinted health) :
    checkRelease (result.tx.toTransaction hash) ctx node view health burned
      { prevout := params.collateralOutpoint, nSequence := 0xfffffffe }
      (redemptionInputs params).tail = .ok () := by
  obtain ⟨metadata, positive, small⟩ := vault.metadata
  obtain ⟨value, locked, _⟩ := canonicalVault_cases vault.spent.2
  dsimp only at locked
  have found : view.getCoin params.collateralOutpoint = some coin := by
    rw [← getCoin coins, vault.spent.1]
  have original : originalMintMetadata ctx node params.collateralOutpoint coin.nHeight =
      (params.ddMinted, some (params.unlockHeight.toNat : ℤ)) := by
    rw [originalMintMetadata_canonical active, vault.indexed]
    exact metadata
  have feeSum : feeInputsFrom ctx node view (redemptionInputs params).tail 1 0 =
      .ok (redemptionFeeIn params) := by
    rw [redemptionInputs, List.tail_cons, feeInputsFrom_tokens coins (fun _ => rfl) tokens,
      feeInputsFrom_fees coins (fun _ => rfl) active fees, zero_add, redemptionFeeIn_eq fees]
  unfold checkRelease
  rw [found]
  dsimp only
  rw [rejectIf_bind_of_not (by omega), checkReleasedVault_ok active height vault.spent, ok_bind,
    original,
    checkOriginalMint_ok built positive, ok_bind, checkRequiredBurn_ok positive small burns,
    ok_bind, feeSum, ok_bind, ← locked]
  exact built.released (by omega)

private theorem redeemInputs_built {view : CoinsView} (canonical : ctx.canonical = true)
    (coins : ctx.coins = some view)
    (tokens : List.Forall₂ (TokenCoin ctx) params.ddUtxos params.ddAmounts)
    (fees : List.Forall₂ (FeeCoin ctx) params.feeUtxos params.feeAmounts)
    (built : BuiltRedemption curve b params health result)
    (fits : params.ddAmounts.sum ≤ INT64_MAX) :
    redeemInputs ctx node (redemptionInputs params).tail (false, 0) =
      .ok (true, params.ddAmounts.sum) := by
  have someToken : decide (params.ddUtxos ≠ []) = true := by simpa using built.someToken
  rw [← zero_add params.ddAmounts.sum] at fits
  rw [redemptionInputs, List.tail_cons,
    redeemInputs_tokens coins (fun _ => rfl) canonical tokens _ _ fits,
    redeemInputs_fees coins (fun _ => rfl) fees, someToken, zero_add]
  rfl

private theorem tokens_withHealth {utxos : List COutPoint} {amounts : List ℤ}
    (tokens : List.Forall₂ (TokenCoin ctx) utxos amounts) :
    List.Forall₂ (TokenCoin { ctx with systemCollateral := health }) utxos amounts :=
  tokens.imp fun _ _ token => ⟨token.notNull, token.coin, token.allowed⟩

private theorem fees_withHealth {utxos : List COutPoint} {amounts : List ℤ}
    (fees : List.Forall₂ (FeeCoin ctx) utxos amounts) :
    List.Forall₂ (FeeCoin { ctx with systemCollateral := health }) utxos amounts :=
  fees.imp fun _ _ fee => ⟨fee.positive, fee.coin⟩

/-- What the builder makes from true data is accepted from the height of the build on,
on both paths. -/
theorem built_redemption_validates {hash : ℕ} (laws : CurveLaws curve)
    (onCurve : params.ownerKey.OnCurve curve) (chain : ctx.params = b.chainParams)
    (active : isThawDayActive b.chainParams.consensus b.currentHeight = true)
    (height : b.currentHeight ≤ INT_MAX) (candidate : b.candidateHealth = some health)
    (later : b.currentHeight ≤ ctx.nHeight)
    (resolved : resolveCanonicalHealth ctx node = some health)
    (vault : OpenVault curve ctx params.collateralOutpoint params.collateralAmount params.ddMinted
      params.unlockHeight.toNat coin creating)
    (tokens : List.Forall₂ (TokenCoin ctx) params.ddUtxos params.ddAmounts)
    (fees : List.Forall₂ (FeeCoin ctx) params.feeUtxos params.feeAmounts)
    (whole : params.ddToRedeem = params.ddMinted)
    (allowed : params.ddAmounts.sum - getRequiredDDBurn params.ddMinted health ≤ MAX_DIGIDOLLAR)
    (built : TxBuilder.buildRedemptionTransaction curve b params = .ok result) :
    validateRedemptionTransaction (result.tx.toTransaction hash) ctx node = .ok () := by
  obtain ⟨nonneg, thaw, scheduled, low, high⟩ := isThawDayActive_iff.mp active
  have canonical : ctx.canonical = true := by
    rw [ValidationContext.canonical, chain]
    exact isThawDayActive_iff.mpr ⟨by omega, thaw, scheduled, by omega, by omega⟩
  obtain ⟨metadata, positive, small⟩ := vault.metadata
  obtain ⟨value, locked, _⟩ := canonicalVault_cases vault.spent.2
  dsimp only at locked
  obtain ⟨view, coins, _⟩ := Option.bind_eq_some_iff.mp vault.spent.1
  have redemption :=
    TxBuilder.builtRedemption_of_ok active candidate (by omega) positive whole built
  have raised := le_getRequiredDDBurn health positive
    (small.trans (by decide : MAX_DIGIDOLLAR ≤ INT64_MAX))
  have doubled := getRequiredDDBurn_le health positive
  obtain ⟨m, scanned, legacy⟩ := redemption.scanned laws onCurve (by omega) allowed
  obtain ⟨o, counted, hasDGB, change⟩ : ∃ o, redeemOutputsFrom (result.tx.toTransaction hash) ctx
        m.ddAmountFromOpReturn result.tx.vout 0 {} = .ok o ∧ o.hasDGBOutput = true ∧
        o.totalDDOutputs = params.ddAmounts.sum - getRequiredDDBurn params.ddMinted health :=
    redemption.counted laws onCurve canonical (by omega) allowed m.ddAmountFromOpReturn
  have fits : params.ddAmounts.sum ≤ INT64_MAX := by
    unfold INT64_MAX MAX_DIGIDOLLAR at *
    omega
  have spent : redeemInputs ctx node (redemptionInputs params).tail (false, 0) =
      .ok (true, params.ddAmounts.sum) :=
    redeemInputs_built canonical coins tokens fees redemption fits
  have judged : redemptionHealth ctx node = .ok health := by rw [redemptionHealth, resolved]
  have again := (resolveCanonicalHealth_withHealth canonical health).trans resolved
  have release : checkRelease (result.tx.toTransaction hash)
      { ctx with systemCollateral := health } node
      view health (getRequiredDDBurn params.ddMinted health)
      { prevout := params.collateralOutpoint, nSequence := 0xfffffffe }
      (redemptionInputs params).tail = .ok () :=
    checkRelease_ok canonical coins (by rw [chain]; omega)
      ⟨vault.spent, vault.created, vault.indexed, vault.recorded, vault.minted⟩
      (tokens_withHealth tokens) (fees_withHealth fees) redemption rfl
  have vin : (result.tx.toTransaction hash).vin = redemptionInputs params := redemption.inputs
  have outs : (result.tx.toTransaction hash).vout = result.tx.vout := rfl
  have type : getDigiDollarTxType (result.tx.toTransaction hash) = .redeem := redemption.type_eq
  have twoInputs : 2 ≤ (redemptionInputs params).length := by
    have one := List.length_pos_of_ne_nil redemption.someToken
    simp only [redemptionInputs, List.length_cons, List.length_append, List.length_map]
    omega
  obtain ⟨_, _, _, _, _, vout⟩ := redemption.outputs
  unfold validateRedemptionTransaction
  rw [vin, outs, rejectIf_bind_of_not (by simp [redemptionInputs]),
    rejectIf_bind_of_not (by simp [canonical]), rejectIf_bind_of_not (by simp [vout]),
    rejectIf_bind_of_not (not_lt.mpr twoInputs), spent, ok_bind, rejectIf_bind_of_not (by simp),
    scanned, ok_bind, rejectIf_bind_of_not (by simp [legacy]), counted, ok_bind,
    rejectIf_bind_of_not (by simp [hasDGB])]
  unfold checkRedemption
  rw [rejectIf_bind_of_not (by omega), rejectIf_bind_of_not (by simp [type]), judged, ok_bind]
  dsimp only
  rw [redemption.conditions (by exact later) height rfl, ok_bind, if_pos (by omega), change,
    sub_sub_cancel]
  unfold validateCollateralReleaseAmount
  rw [if_pos (by exact canonical), again]
  dsimp only
  rw [coins] at release ⊢
  dsimp only
  rw [vin]
  exact release

end Whole

namespace Sample

/-- The sample vault and its token at a height, with a coin that pays fees. -/
def vaultCtx (height : ℤ) : ValidationContext :=
  { redeemCtx height with
    coins := (redeemCtx height).coins.map fun view => { view with
      getCoin := fun outpoint => if outpoint = ⟨1, 0⟩ then some funding
        else view.getCoin outpoint } }

/-- The wallet at the lock height of the sample vault, with a given health. -/
def redeemBuilder (health : ℤ) : TxBuilder :=
  { chainParams := params
    currentHeight := 250
    oraclePrice := 1000000
    candidateHealth := some health
    getUTXOValueVirtual := fun _ => 200000000000
    metrics := ⟨false, 0, 0, 0, 0⟩ }

/-- The sample vault is redeemed with its own token. -/
def wholeVault : TxBuilderRedeemParams :=
  { collateralOutpoint := ⟨2, 0⟩
    ddToRedeem := 10000
    path := .normal
    ownerKey := ⟨true, List.replicate 32 9⟩
    feeRate := 10000000
    ddUtxos := [⟨2, 1⟩]
    ddAmounts := [10000]
    feeUtxos := [⟨1, 0⟩]
    feeAmounts := [200000000000]
    collateralDest := some (.witnessV0KeyHash (List.replicate 20 3))
    dgbChangeDest := none
    collateralAmount := 100000000000
    ddMinted := 10000
    unlockHeight := 250 }

private theorem wholeVault_open : OpenVault curve (vaultCtx 260) ⟨2, 0⟩ 100000000000 10000 250
    ⟨⟨100000000000, p2tr 7⟩, false, 10⟩ mint where
  spent := ⟨by decide +kernel, by decide +kernel⟩
  created := by decide +kernel
  indexed := by decide +kernel
  recorded := by decide +kernel
  minted := ⟨mintCtx, node, mint_valid⟩

/-- The redemption built at height 250 is accepted at height 260. -/
theorem whole_vault_built_and_validates :
    ∃ result, TxBuilder.buildRedemptionTransaction curve (redeemBuilder 1000) wholeVault =
      .ok result ∧
      validateRedemptionTransaction (result.tx.toTransaction 5) (vaultCtx 260) node = .ok () := by
  have succeeds : (TxBuilder.buildRedemptionTransaction curve (redeemBuilder 1000)
      wholeVault).toOption.isSome = true := by decide +kernel
  obtain ⟨result, succeeded⟩ := Option.isSome_iff_exists.mp succeeds
  have built := toOption_eq_some.mp succeeded
  have token : TokenCoin (vaultCtx 260) ⟨2, 1⟩ 10000 :=
    ⟨by decide,
      ⟨⟨⟨0, p2tr 8⟩, false, 10⟩, mint, by decide +kernel, rfl, by decide, by decide, rfl,
        by decide +kernel, by decide +kernel⟩,
      by decide⟩
  have fee : FeeCoin (vaultCtx 260) ⟨1, 0⟩ 200000000000 :=
    ⟨by decide, funding, by decide +kernel, rfl, by decide +kernel⟩
  exact ⟨result, built, built_redemption_validates curve_laws (fun _ => ⟨rfl, rfl⟩) rfl (by decide)
    (by decide) rfl (by decide) (by decide +kernel) wholeVault_open (.cons token .nil)
    (.cons fee .nil) rfl (by decide) built⟩

/-- A redemption below Thaw Day with a change of more than `MAX_DIGIDOLLAR`. -/
def oversize : CTransaction :=
  { forgery 11 2 with
    vout := [⟨99999999999, []⟩, ⟨0, p2tr 8⟩, ⟨1, amountsScript 3 [2100000005000]⟩] }

/-- The vault of the other mint from Thaw Day on, the change, and a coin that pays fees. -/
def oversizeCtx : ValidationContext :=
  { lateCtx with
    coins := some
      { getCoin := fun outpoint =>
          if outpoint = ⟨1, 0⟩ then some funding
          else if outpoint = ⟨3, 0⟩ then some ⟨⟨100000000000, p2tr 7⟩, false, 10⟩
          else if outpoint = ⟨11, 1⟩ then some forgedCoin
          else none
        digiDollarState := some
          { genesis_hash := 1, activation_height := 300, digidollar_height := 5, best_block := 309
            open_vault_principal := 10000, collateral := 100000000000, active_vaults := 1
            history_checked := true } }
    txLookup := some fun hash height =>
      if hash = 3 ∧ height = 10 then some { mint with hash := 3 }
      else if hash = 11 ∧ height = 260 then some oversize
      else none }

def oversizeBuilder : TxBuilder :=
  { redeemBuilder 1000 with chainParams := lateParams, currentHeight := 310 }

def oversizeRedeem : TxBuilderRedeemParams :=
  { wholeVault with
    collateralOutpoint := ⟨3, 0⟩
    ddUtxos := [⟨11, 1⟩]
    ddAmounts := [2100000005000] }

private theorem oversize_open : OpenVault curve oversizeCtx ⟨3, 0⟩ 100000000000 10000 250
    ⟨⟨100000000000, p2tr 7⟩, false, 10⟩ { mint with hash := 3 } where
  spent := ⟨by decide +kernel, by decide +kernel⟩
  created := by decide +kernel
  indexed := by decide +kernel
  recorded := by decide +kernel
  minted := ⟨mintCtx, node, by decide +kernel⟩

/-- The change of the first redemption is confirmed and its amount is true. Spending it leaves a
change of less than `MAX_DIGIDOLLAR`, so the redemption is built; it is refused for its input. -/
theorem oversize_coin_built_and_refused :
    validateDigiDollarTransaction curve oversize forgeryCtx node = .ok () ∧
      isThawDayActive oversizeBuilder.chainParams.consensus oversizeBuilder.currentHeight = true ∧
      resolveCanonicalHealth oversizeCtx node = oversizeBuilder.candidateHealth ∧
      OpenVault curve oversizeCtx oversizeRedeem.collateralOutpoint oversizeRedeem.collateralAmount
        oversizeRedeem.ddMinted oversizeRedeem.unlockHeight.toNat
        ⟨⟨100000000000, p2tr 7⟩, false, 10⟩ { mint with hash := 3 } ∧
      oversizeCtx.getCoin ⟨11, 1⟩ = some forgedCoin ∧
      readCanonicalTokenAmount ⟨11, 1⟩ forgedCoin oversizeCtx = .ok 2100000005000 ∧
      List.Forall₂ (FeeCoin oversizeCtx) oversizeRedeem.feeUtxos oversizeRedeem.feeAmounts ∧
      oversizeRedeem.ddToRedeem = oversizeRedeem.ddMinted ∧
      oversizeRedeem.ddAmounts.sum - getRequiredDDBurn oversizeRedeem.ddMinted 1000 =
        2099999995000 ∧
      2099999995000 ≤ MAX_DIGIDOLLAR ∧
      ∃ result, TxBuilder.buildRedemptionTransaction curve oversizeBuilder oversizeRedeem =
          .ok result ∧
        validateRedemptionTransaction (result.tx.toTransaction 5) oversizeCtx node =
          .error (.invalid "bad-redeem-dd-input-amount") := by
  have fee : FeeCoin oversizeCtx ⟨1, 0⟩ 200000000000 :=
    ⟨by decide, funding, by decide +kernel, rfl, by decide +kernel⟩
  have refused : (TxBuilder.buildRedemptionTransaction curve oversizeBuilder
      oversizeRedeem).toOption.map
        (fun result => validateRedemptionTransaction (result.tx.toTransaction 5) oversizeCtx node) =
      some (.error (.invalid "bad-redeem-dd-input-amount")) := by decide +kernel
  refine ⟨by decide +kernel, by decide, by decide +kernel, oversize_open, by decide +kernel,
    by decide +kernel, .cons fee .nil, rfl, by decide, by decide, ?_⟩
  obtain ⟨result, built, refused⟩ := Option.map_eq_some_iff.mp refused
  exact ⟨result, toOption_eq_some.mp built, refused⟩

end Sample

end DigiByte.DigiDollar
