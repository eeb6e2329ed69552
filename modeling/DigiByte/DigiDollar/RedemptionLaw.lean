import DigiByte.DigiDollar.AcceptedKinds
import DigiByte.DigiDollar.Backing

/-!
The redemption law and the lock law from Thaw Day on.

The lock law fails for lock times from 2^31 on: the height check compares with
the lock time as a signed number, the mint check as an unsigned one.
-/

set_option autoImplicit false
set_option relaxedAutoImplicit false

namespace DigiByte.DigiDollar

open Consensus Script
open Library.Checks (rejectIf bind_eq_ok rejectIf_eq_ok)

/-- Both lookups of a context answer for every coin with its creating transaction. -/
def CreatorsAvailable (ctx : ValidationContext) : Prop :=
  ∀ outpoint coin, ctx.getCoin outpoint = some coin →
    ∃ creating, creatingTransaction (contextTransactionLookup ctx) outpoint coin = some creating ∧
      (ctx.txLookup.bind fun lookup => lookup outpoint.hash coin.nHeight) = some creating

/-- The canonical vault that a spent outpoint refers to. -/
def SpentVault (ctx : ValidationContext) (outpoint : COutPoint) (coin : Coin)
    (vault : CanonicalVault) : Prop :=
  ctx.getCoin outpoint = some coin ∧
    lookupCanonicalVault outpoint coin ctx.params.consensus (contextTransactionLookup ctx) =
      .vault vault

/-- Every canonical vault was created by a mint that passed its validator. -/
def VaultsMinted (curve : TaprootCurve) (ctx : ValidationContext) : Prop :=
  ∀ outpoint coin vault, SpentVault ctx outpoint coin vault →
    ∀ creating, creatingTransaction (contextTransactionLookup ctx) outpoint coin = some creating →
      ∃ mintCtx mintNode, validateMintTransaction curve creating mintCtx mintNode = .ok ()

/-- What a transaction that spends a vault must look like. -/
structure RedemptionLaw (tx : CTransaction) (ctx : ValidationContext) (node : NodeState)
    (input : CTxIn) (rest : List CTxIn) (coin : Coin) (vault : CanonicalVault)
    (creating : CTransaction) (health lockHeight : ℤ) : Prop where
  redeem : getDigiDollarTxType tx = .redeem
  vin : tx.vin = input :: rest
  spent : SpentVault ctx input.prevout coin vault
  onlyVault : ∀ txin ∈ rest, ∀ other vault', ¬ SpentVault ctx txin.prevout other vault'
  created : creatingTransaction (contextTransactionLookup ctx) input.prevout coin = some creating
  resolved : resolveCanonicalHealth ctx node = some health
  burned : getRequiredDDBurn vault.principal health ≤
    (rest.map (inputAmount ctx)).sum - readableOutputs tx
  principal : vault.principal ≤ getRequiredDDBurn vault.principal health
  recorded : recordedLockHeight creating = some lockHeight
  locked : lockHeight ≤ tx.nLockTime.toNat
  returned : coin.out.nValue ≤ totalDGBOutputs tx.vout
  bounded : totalDGBOutputs tx.vout ≤ coin.out.nValue + feeValue ctx.getCoin rest

/-- Only a redemption opens a vault, one at a time, through input 0, against the
required burn, not before the recorded lock height, and for its full value. -/
theorem vault_spend_is_lawful_redemption (curve : TaprootCurve) (tx : CTransaction)
    (ctx : ValidationContext) (node : NodeState)
    (active : isThawDayActive ctx.params.consensus ctx.nHeight = true)
    (available : CreatorsAvailable ctx) (minted : VaultsMinted curve ctx)
    (accepted : validateDigiDollarTransaction curve tx ctx node = .ok ())
    (spends : ∃ txin ∈ tx.vin, ∃ coin vault, SpentVault ctx txin.prevout coin vault) :
    ∃ input rest coin vault creating health lockHeight,
      RedemptionLaw tx ctx node input rest coin vault creating health lockHeight := by
  have canonical : ctx.canonical = true := active
  obtain ⟨_, kind⟩ := acceptedKind_of_ok canonical accepted
  have none_spent : ¬ SpendsNoVault tx ctx := by
    intro noVault
    obtain ⟨txin, member, coin, vault, found, isVault⟩ := spends
    rw [noVault txin member coin found] at isVault
    cases isVault
  cases kind with
  | plain _ noVault => exact absurd noVault none_spent
  | mint _ noVault _ => exact absurd noVault none_spent
  | transfer _ noVault _ => exact absurd noVault none_spent
  | redeem _ valid =>
    obtain ⟨view, health, input, rest, coin, vault, creating, principal, lockHeight, redemption⟩ :=
      acceptedRedemption_of_ok active valid
    have getCoin : ∀ outpoint, ctx.getCoin outpoint = view.getCoin outpoint := by
      simp [ValidationContext.getCoin, redemption.coins]
    have found : ctx.getCoin input.prevout = some coin := by
      rw [getCoin, redemption.spent]
    obtain ⟨_, _, creating', created, _, accounted⟩ := canonicalVault_cases redemption.isVault
    obtain ⟨_, created', indexed⟩ := available _ _ found
    obtain rfl := Option.some.inj (created'.symm.trans created)
    obtain rfl := Option.some.inj (indexed.symm.trans redemption.created)
    obtain ⟨mintCtx, mintNode, mint⟩ := minted _ _ _ ⟨found, redemption.isVault⟩ _ created
    obtain ⟨pc, out, s, acceptedMint⟩ := acceptedMint_of_ok mint
    obtain ⟨rfl, small, recorded⟩ :=
      principal_of_metadata acceptedMint.mintStructure accounted redemption.metadata
    refine ⟨input, rest, coin, vault, _, health, lockHeight, redemption.redeem, redemption.vin,
      ⟨found, redemption.isVault⟩, ?_, created, ?_, redemption.burned, ?_, recorded, ?_,
      redemption.released.1, ?_⟩
    · rintro txin member other vault' ⟨other_found, other_vault⟩
      have value := (canonicalVault_cases other_vault).1
      rw [redemption.oneVault txin member other (by rw [← getCoin, other_found]) value]
        at other_vault
      cases other_vault
    · rw [resolveCanonicalHealth_canonical canonical]
      exact redemption.resolved
    · exact le_getRequiredDDBurn health redemption.positive
        (small.trans (by decide : MAX_DIGIDOLLAR ≤ INT64_MAX))
    · have exactly := toUint32_of_nonneg redemption.lockRange.1 (by
        have := redemption.lockRange.2
        omega)
      have := redemption.locked
      omega
    · rw [show ctx.getCoin = view.getCoin from funext getCoin]
      exact redemption.released.2

namespace Sample

/-- The redemption of the sample vault with a given lock time. -/
def redeem (lockTime : UInt32) : CTransaction :=
  { hash := 3
    nVersion := 0x03000770
    vin := [{ prevout := ⟨2, 0⟩ }, { prevout := ⟨2, 1⟩ }]
    vout := [⟨100000000000, []⟩]
    nLockTime := lockTime }

/-- A context in which the sample mint is confirmed and its vault is the only one. -/
def redeemCtx (height : ℤ) : ValidationContext :=
  { nHeight := height
    oraclePriceMicroUSD := 1000000
    systemCollateral := 0
    params := params
    coins := some
      { getCoin := fun outpoint =>
          if outpoint.hash = 2 ∧ outpoint.n < 2 then
            (mint.vout[outpoint.n]?).map fun out => ⟨out, false, 10⟩
          else none
        digiDollarState := some
          { genesis_hash := 1, activation_height := 10, digidollar_height := 5, best_block := 9
            open_vault_principal := 10000, collateral := 100000000000, active_vaults := 1
            history_checked := true } }
    skipOracleValidation := false
    txLookup := some lookup
    mempool := none
    candidateParent := some ⟨9, height - 1⟩
    mintReference := {} }

private theorem redeemCtx_held {height : ℤ} {outpoint : COutPoint} {coin : Coin}
    (found : (redeemCtx height).getCoin outpoint = some coin) :
    (outpoint = ⟨2, 0⟩ ∧ coin = ⟨⟨100000000000, p2tr 7⟩, false, 10⟩) ∨
      (outpoint = ⟨2, 1⟩ ∧ coin = ⟨⟨0, p2tr 8⟩, false, 10⟩) := by
  obtain ⟨hash, n⟩ := outpoint
  simp only [ValidationContext.getCoin, redeemCtx, Option.bind_some] at found
  split_ifs at found with here
  obtain ⟨rfl, small⟩ := here
  have two : n = 0 ∨ n = 1 := by omega
  rcases two with rfl | rfl
  · exact .inl ⟨rfl, by simpa [mint] using found.symm⟩
  · exact .inr ⟨rfl, by simpa [mint] using found.symm⟩

theorem redeem_is_lawful : ∃ input rest coin vault creating health lockHeight,
    RedemptionLaw (redeem 250) (redeemCtx 250) node input rest coin vault creating health
      lockHeight := by
  refine vault_spend_is_lawful_redemption curve (redeem 250) (redeemCtx 250) node (by decide) ?_ ?_
    (by decide +kernel) ?_
  · intro outpoint coin found
    refine ⟨mint, ?_⟩
    rcases redeemCtx_held found with ⟨rfl, rfl⟩ | ⟨rfl, rfl⟩
    · decide +kernel
    · decide +kernel
  · intro outpoint coin vault spent creating created
    have same : creating = mint := by
      rcases redeemCtx_held spent.1 with ⟨rfl, rfl⟩ | ⟨rfl, rfl⟩
      · exact Option.some.inj (created.symm.trans (by decide +kernel))
      · exact Option.some.inj (created.symm.trans (by decide +kernel))
    exact ⟨mintCtx, node, same ▸ mint_valid⟩
  · refine ⟨{ prevout := ⟨2, 0⟩ }, by simp [redeem], ⟨⟨100000000000, p2tr 7⟩, false, 10⟩,
      ⟨⟨2, 0⟩, 10000, 100000000000⟩, by decide +kernel, by decide +kernel⟩

end Sample

/-! The lock law. -/

/-- The lock height that the release rule reads for input 0. -/
def InputLockHeight (tx : CTransaction) (ctx : ValidationContext) (lockHeight : ℤ) : Prop :=
  ∃ input coin creating, tx.vin.head? = some input ∧ ctx.getCoin input.prevout = some coin ∧
    (ctx.txLookup.bind fun lookup => lookup input.prevout.hash coin.nHeight) = some creating ∧
    (extractMintMetadataFromTx creating 0).2 = some lockHeight

/-- An accepted redemption with this lock time never comes before the lock height. -/
def NoEarlyRedemption (lockTime : UInt32) : Prop :=
  ∀ tx ctx node lockHeight, tx.nLockTime = lockTime →
    isThawDayActive ctx.params.consensus ctx.nHeight = true →
    ctx.coins.isSome = true → InputLockHeight tx ctx lockHeight →
    validateRedemptionTransaction tx ctx node = .ok () → lockHeight ≤ ctx.nHeight

theorem toInt32_of_lt {x : UInt32} (small : x.toNat < 2 ^ 31) : toInt32 x = x.toNat := by
  unfold toInt32
  rw [BitVec.toInt_eq_toNat_of_lt (by simpa using by omega)]
  rfl

private theorem toInt32_neg {x : UInt32} (large : 2 ^ 31 ≤ x.toNat) : toInt32 x < 0 := by
  unfold toInt32
  have bound := x.toNat_lt
  rw [BitVec.toInt_eq_toNat_cond, if_neg (by simpa using by omega)]
  simp only [UInt32.toNat_toBitVec]
  omega

private theorem noEarlyRedemption_of_lt {lockTime : UInt32} (small : lockTime.toNat < 2 ^ 31) :
    NoEarlyRedemption lockTime := by
  rintro tx ctx node lockHeight rfl active _ ⟨input, coin, creating, first, found, created,
    lock⟩ valid
  obtain ⟨view, health, input', rest, coin', vault, creating', principal, lockHeight',
    redemption⟩ :=
    acceptedRedemption_of_ok active valid
  have getCoin : ∀ outpoint, ctx.getCoin outpoint = view.getCoin outpoint := by
    simp [ValidationContext.getCoin, redemption.coins]
  obtain rfl : input' = input := by simpa [redemption.vin] using first
  obtain rfl := Option.some.inj ((getCoin _ ▸ found).symm.trans redemption.spent)
  obtain rfl := Option.some.inj (created.symm.trans redemption.created)
  obtain rfl : lockHeight' = lockHeight := by simpa [redemption.metadata] using lock
  have exactly := toUint32_of_nonneg redemption.lockRange.1 (by
    have := redemption.lockRange.2
    omega)
  have locked := redemption.locked
  obtain ⟨nonneg, _⟩ := isThawDayActive_iff.mp active
  rcases redemption.reached with ⟨_, zero⟩ | reached
  · rw [zero] at locked
    simp at locked
    omega
  · rw [toInt32_of_lt small] at reached
    omega

namespace Sample

private theorem earlyRelease {lockTime : UInt32} (large : 2 ^ 31 ≤ lockTime.toNat) :
    checkOriginalMint (redeem lockTime) (10000, some 250) = .ok 10000 := by
  have locked : ¬ (redeem lockTime).nLockTime.toNat < toUint32 250 := by
    have exactly : toUint32 250 = 250 := by decide
    rw [exactly]
    simp only [redeem]
    omega
  simp only [checkOriginalMint, bind_eq_ok, rejectIf_eq_ok]
  exact ⟨(), by decide, (), by decide, (), locked, trivial⟩

private theorem earlyConditions {lockTime : UInt32} (large : 2 ^ 31 ≤ lockTime.toNat) :
    validateRedemptionConditions (redeem lockTime)
      { redeemCtx 249 with systemCollateral := 1000 } = .ok () := by
  have negative := toInt32_neg large
  have reached : ¬ (249 : ℤ) < toInt32 lockTime := by omega
  rw [validateRedemptionConditions, if_neg (by decide)]
  simp only [validateNormalRedemptionConditions, bind_eq_ok, rejectIf_eq_ok]
  exact ⟨(), reached, by decide⟩

private theorem redeem_type (lockTime : UInt32) :
    getDigiDollarTxType (redeem lockTime) = .redeem := by
  have version : (redeem lockTime).nVersion = 0x03000770 := rfl
  rw [getDigiDollarTxType, hasDigiDollarMarker, version]
  decide

private theorem earlyReleaseAmount {lockTime : UInt32} (large : 2 ^ 31 ≤ lockTime.toNat) :
    validateCollateralReleaseAmount (redeem lockTime)
      { redeemCtx 249 with systemCollateral := 1000 } node 10000 = .ok () := by
  have health : resolveCanonicalHealth { redeemCtx 249 with systemCollateral := 1000 } node =
      some 1000 := by decide +kernel
  have active : ({ redeemCtx 249 with systemCollateral := 1000 } : ValidationContext).canonical =
      true := by decide
  simp only [validateCollateralReleaseAmount, active, if_true, health]
  show checkRelease (redeem lockTime) _ node _ 1000 10000 { prevout := ⟨2, 0⟩ }
    [{ prevout := ⟨2, 1⟩ }] = .ok ()
  have metadata : originalMintMetadata { redeemCtx 249 with systemCollateral := 1000 } node
      ⟨2, 0⟩ 10 =
      (10000, some 250) := by decide +kernel
  have vaulted : checkReleasedVault { redeemCtx 249 with systemCollateral := 1000 } node ⟨2, 0⟩
      ⟨⟨100000000000, p2tr 7⟩, false, 10⟩ = .ok () := by decide +kernel
  unfold checkRelease
  show (rejectIf ((100000000000 : ℤ) ≤ 0) _ >>= _) = _
  simp only [bind_eq_ok, rejectIf_eq_ok]
  refine ⟨(), by decide, (), vaulted, 10000, ?_, (), by decide, 0, by decide +kernel, ?_⟩
  · show checkOriginalMint _ (originalMintMetadata _ node ⟨2, 0⟩ 10) = _
    rw [metadata]
    exact earlyRelease large
  · show checkReleasedValue 100000000000 0 (totalDGBOutputs [⟨100000000000, []⟩]) = .ok ()
    decide

/-- The sample vault opens one block before its lock height when the lock time
has its top bit set. -/
theorem early_redeem_valid {lockTime : UInt32} (large : 2 ^ 31 ≤ lockTime.toNat) :
    validateRedemptionTransaction (redeem lockTime) (redeemCtx 249) node = .ok () := by
  simp only [validateRedemptionTransaction, checkRedemption, bind_eq_ok, rejectIf_eq_ok]
  refine ⟨(), by simp [redeem], (), by decide, (), by simp [redeem], (), by simp [redeem],
    (true, 10000), ?_, (), by decide, {}, ?_, (), by decide, { hasDGBOutput := true }, ?_, (),
    by decide, (), ?_, (), not_not.mpr (redeem_type lockTime), 1000, ?_, (), earlyConditions large,
    earlyReleaseAmount large⟩
  · show redeemInputs (redeemCtx 249) node [{ prevout := ⟨2, 1⟩ }] (false, 0) = _
    decide +kernel
  · rfl
  · rfl
  · simp
  · decide +kernel

private theorem early_lockHeight (lockTime : UInt32) :
    InputLockHeight (redeem lockTime) (redeemCtx 249) 250 :=
  ⟨{ prevout := ⟨2, 0⟩ }, ⟨⟨100000000000, p2tr 7⟩, false, 10⟩, mint, rfl, by decide +kernel, rfl,
    by decide +kernel⟩

/-- At height 249, lock time 2147483648 opens a vault that is locked to 250. -/
theorem early_redeem_accepted :
    isThawDayActive (redeemCtx 249).params.consensus (redeemCtx 249).nHeight = true ∧
      InputLockHeight (redeem 2147483648) (redeemCtx 249) 250 ∧
      validateRedemptionTransaction (redeem 2147483648) (redeemCtx 249) node = .ok () ∧
      ¬ (250 : ℤ) ≤ (redeemCtx 249).nHeight :=
  ⟨by decide, early_lockHeight _, early_redeem_valid (by decide), by decide⟩

end Sample

/-- The lock law holds exactly for lock times that fit a signed 32-bit number. -/
theorem noEarlyRedemption_iff (lockTime : UInt32) :
    NoEarlyRedemption lockTime ↔ lockTime.toNat < 2 ^ 31 := by
  refine ⟨fun law => ?_, noEarlyRedemption_of_lt⟩
  by_contra large
  have early := law (Sample.redeem lockTime) (Sample.redeemCtx 249) Sample.node 250 rfl (by decide)
    rfl (Sample.early_lockHeight lockTime) (Sample.early_redeem_valid (not_lt.mp large))
  exact absurd early (by decide)

end DigiByte.DigiDollar
