import DigiByte.DigiDollar.AcceptedKinds
import DigiByte.DigiDollar.Chain
import Mathlib.Algebra.Order.BigOperators.Group.List

/-!
The backing invariant: from Thaw Day on the readable tokens in the UTXO set never
exceed the principals of the open vaults.

A step is one accepted transaction. Both totals move by what the inputs weigh
and what the outputs weigh; each accepted kind bounds the difference, and the
parsers that validate and the parser that later reads agree on every amount.
-/

set_option autoImplicit false
set_option relaxedAutoImplicit false

namespace DigiByte.DigiDollar

open Consensus Script
open Library.FinmapTotal

/-- A transaction that the chain may take next: no coinbase, a new identifier,
distinct inputs from the set, validated in a context that shows the set, at a
height from Thaw Day on, with lookups that know every creating transaction. -/
structure Admissible (curve : TaprootCurve) (params : Params) (lookup : CanonicalTxLookup)
    (utxo : UtxoSet) (tx : CTransaction) (height : ℕ) (ctx : ValidationContext)
    (node : NodeState) : Prop where
  notCoinbase : tx.isCoinBase = false
  fresh : ∀ n, utxo.lookup ⟨tx.hash, n⟩ = none
  present : ∀ txin ∈ tx.vin, txin.prevout ∈ utxo
  distinct : (tx.vin.map CTxIn.prevout).Nodup
  params_eq : ctx.params.consensus = params
  height_eq : ctx.nHeight = height
  active : isThawDayActive params height = true
  view : ∀ outpoint, ctx.getCoin outpoint = utxo.lookup outpoint
  available : ∀ outpoint coin, utxo.lookup outpoint = some coin →
    contextTransactionLookup ctx outpoint.hash coin.nHeight = lookup outpoint.hash coin.nHeight ∧
      (ctx.txLookup.bind fun find => find outpoint.hash coin.nHeight) =
        lookup outpoint.hash coin.nHeight
  recorded : lookup tx.hash height = some tx
  accepted : validateDigiDollarTransaction curve tx ctx node = .ok ()

/-- A sequence of admissible transactions. -/
inductive Run (curve : TaprootCurve) (params : Params) (lookup : CanonicalTxLookup)
    (start : UtxoSet) : UtxoSet → Prop
  | refl : Run curve params lookup start start
  | step {utxo : UtxoSet} {tx : CTransaction} {height : ℕ} {ctx : ValidationContext}
      {node : NodeState} (before : Run curve params lookup start utxo)
      (admissible : Admissible curve params lookup utxo tx height ctx node) :
      Run curve params lookup start (connect utxo tx height)

/-- Every open vault was created by a mint of the required structure. -/
def StructuredVaults (params : Params) (lookup : CanonicalTxLookup) (utxo : UtxoSet) : Prop :=
  ∀ outpoint coin vault, utxo.lookup outpoint = some coin →
    lookupCanonicalVault outpoint coin params lookup = .vault vault →
    ∃ creating, creatingTransaction lookup outpoint coin = some creating ∧ MintStructure creating

/-- The readable tokens are covered by the open principals. -/
def Backed (params : Params) (lookup : CanonicalTxLookup) (utxo : UtxoSet) : Prop :=
  tokenTotal params lookup utxo ≤ principalTotal params lookup utxo

instance (params : Params) (lookup : CanonicalTxLookup) (utxo : UtxoSet) :
    Decidable (Backed params lookup utxo) :=
  inferInstanceAs (Decidable (_ ≤ _))

/-! Vaults. -/

theorem principal_of_metadata {creating : CTransaction} {principal collateral d L : ℤ}
    (structured : MintStructure creating)
    (accounted : extractMintAccountingAmounts (fun _ => none) creating false =
      some (principal, collateral))
    (metadata : extractMintMetadataFromTx creating 0 = (d, some L)) :
    d = principal ∧ principal ≤ MAX_DIGIDOLLAR ∧ recordedLockHeight creating = some L := by
  obtain ⟨pc, payload, _⟩ := structured.payload
  have tagged : taggedAmount pc = some principal := by
    rw [extractMintAccountingAmounts_eq payload] at accounted
    split_ifs at accounted
    split at accounted
    · rename_i found _
      split_ifs at accounted
      cases accounted
      exact found
    · cases accounted
  obtain ⟨_, _, _, _, _, _, _, _, _, high⟩ := taggedAmount_eq_some tagged
  unfold extractMintMetadataFromTx at metadata
  split_ifs at metadata
  · cases metadata
  · cases metadata
  · obtain ⟨same, lock⟩ := mintMetadataFrom_eq_some payload tagged metadata
    exact ⟨same, high, by simp [recordedLockHeight, payload, lock]⟩

/-! Weights of the inputs. -/

private theorem weightAt_token_nonneg (params : Params) (lookup : CanonicalTxLookup)
    (utxo : UtxoSet)
    (outpoint : COutPoint) : 0 ≤ weightAt (tokenWeight params lookup) utxo outpoint := by
  unfold weightAt tokenWeight
  split
  · split_ifs
    · split
      · exact readableAmount_nonneg _ _
      · rfl
    · rfl
  · rfl

private theorem sum_token_nonneg (params : Params) (lookup : CanonicalTxLookup) (utxo : UtxoSet)
    (vin : List CTxIn) :
    0 ≤ (vin.map fun txin => weightAt (tokenWeight params lookup) utxo txin.prevout).sum := by
  refine List.sum_nonneg fun weight member => ?_
  obtain ⟨txin, _, rfl⟩ := List.mem_map.mp member
  exact weightAt_token_nonneg params lookup utxo txin.prevout

section Step

variable {curve : TaprootCurve} {params : Params} {lookup : CanonicalTxLookup} {utxo : UtxoSet}
  {tx : CTransaction} {height : ℕ} {ctx : ValidationContext} {node : NodeState}
  (admissible : Admissible curve params lookup utxo tx height ctx node)

include admissible

private theorem canonical : ctx.canonical = true := by
  rw [ValidationContext.canonical, admissible.params_eq, admissible.height_eq]
  exact admissible.active

private theorem spentOutpoints_eq : spentOutpoints tx = tx.vin.map CTxIn.prevout := by
  simp [spentOutpoints, admissible.notCoinbase]

private theorem lookupCanonicalVault_context {outpoint : COutPoint} {coin : Coin}
    (held : utxo.lookup outpoint = some coin) :
    lookupCanonicalVault outpoint coin ctx.params.consensus (contextTransactionLookup ctx) =
      lookupCanonicalVault outpoint coin params lookup := by
  rw [admissible.params_eq]
  exact lookupCanonicalVault_congr (admissible.available outpoint coin held).1

private theorem weightAt_token_eq {txin : CTxIn} (member : txin ∈ tx.vin)
    (input : TokenInput ctx txin) (nonneg : 0 ≤ params.DigiDollarHeight) :
    weightAt (tokenWeight params lookup) utxo txin.prevout = inputAmount ctx txin := by
  obtain ⟨coin, held⟩ := Finmap.mem_iff.mp (admissible.present txin member)
  have found : ctx.getCoin txin.prevout = some coin := (admissible.view txin.prevout).trans held
  by_cases zero : coin.out.nValue = 0
  · obtain ⟨amount, read⟩ := input.read coin found zero
    rw [inputAmount_of_read found zero read]
    obtain ⟨mayCreate, _, creating, created, extracted⟩ := readCanonicalTokenAmount_eq_ok read
    have created : creatingTransaction lookup txin.prevout coin = some creating :=
      (creatingTransaction_congr (admissible.available _ _ held).1).symm.trans created
    have reached : toUint32 params.DigiDollarHeight ≤ coin.nHeight := by
      rw [← admissible.params_eq] at nonneg ⊢
      exact reached_of_mayCreate (canonical admissible) nonneg mayCreate
    have token := isTokenOutput_of_extract extracted (creatingTransaction_eq_some created).2.2
    simp [weightAt, held, tokenWeight, reached, token, created, readableAmount, extracted]
  · have notToken : isTokenOutput coin.out = false := by
      simpa [← Bool.not_eq_true, isTokenOutput_iff] using fun h => absurd h zero
    simp [weightAt, held, tokenWeight, notToken, inputAmount_of_value found zero]

private theorem weightAt_principal_eq_zero {txin : CTxIn} (member : txin ∈ tx.vin)
    (notVault : ∀ coin, ctx.getCoin txin.prevout = some coin →
      lookupCanonicalVault txin.prevout coin ctx.params.consensus (contextTransactionLookup ctx) =
        .notVault) :
    weightAt (vaultWeight (fun principal _ => principal) params lookup) utxo txin.prevout = 0 := by
  obtain ⟨coin, held⟩ := Finmap.mem_iff.mp (admissible.present txin member)
  have found : ctx.getCoin txin.prevout = some coin := (admissible.view txin.prevout).trans held
  have := (lookupCanonicalVault_context admissible held).symm.trans (notVault coin found)
  simp [weightAt, held, vaultWeight, this]

private theorem backed_connect (ready : contextHealthState ctx ≠ none)
    (before : Backed params lookup utxo)
    (step : mintWeight (fun principal _ => principal) tx -
        (tx.vin.map fun txin => weightAt (vaultWeight (fun principal _ => principal) params lookup)
          utxo txin.prevout).sum ≥
      readableOutputs tx -
        (tx.vin.map fun txin => weightAt (tokenWeight params lookup) utxo txin.prevout).sum) :
    Backed params lookup (connect utxo tx height) := by
  have nonneg := digidollarHeight_nonneg ready
  rw [admissible.params_eq] at nonneg
  obtain ⟨_, _, scheduled, low, _⟩ := isThawDayActive_iff.mp admissible.active
  have reached : toUint32 params.DigiDollarHeight ≤ height := by
    unfold toUint32
    omega
  have spent := spentOutpoints_eq admissible
  have present : ∀ outpoint ∈ spentOutpoints tx, outpoint ∈ utxo := by
    rw [spent]
    simpa using admissible.present
  have distinct : (spentOutpoints tx).Nodup := spent ▸ admissible.distinct
  have tokens := total_connect (tokenWeight params lookup) height distinct present admissible.fresh
  have principals := total_connect (vaultWeight (fun principal _ => principal) params lookup)
    height distinct present admissible.fresh
  rw [sum_tokenWeight_newCoins admissible.recorded reached, spent, List.map_map] at tokens
  rw [sum_vaultWeight_newCoins admissible.recorded _ admissible.notCoinbase scheduled reached,
    spent, List.map_map] at principals
  simp only [Function.comp_def] at tokens principals
  unfold Backed tokenTotal principalTotal at before ⊢
  omega

private theorem sum_principal_eq_zero (noVault : SpendsNoVault tx ctx) :
    (tx.vin.map fun txin => weightAt (vaultWeight (fun principal _ => principal) params lookup)
      utxo txin.prevout).sum = 0 :=
  List.sum_eq_zero (by
    simpa using fun txin member =>
      weightAt_principal_eq_zero admissible member (noVault txin member))

private theorem sum_token_eq {vin : List CTxIn} (included : ∀ txin ∈ vin, txin ∈ tx.vin)
    (tokens : ∀ txin ∈ vin, TokenInput ctx txin) (nonneg : 0 ≤ params.DigiDollarHeight) :
    (vin.map fun txin => weightAt (tokenWeight params lookup) utxo txin.prevout).sum =
      (vin.map (inputAmount ctx)).sum :=
  congrArg List.sum (List.map_congr_left fun txin member =>
    weightAt_token_eq admissible (included txin member) (tokens txin member) nonneg)

private theorem redeem_step (ready : contextHealthState ctx ≠ none)
    (structured : StructuredVaults params lookup utxo)
    (valid : validateRedemptionTransaction tx ctx node = .ok ()) :
    readableOutputs tx +
        (tx.vin.map fun txin => weightAt (vaultWeight (fun principal _ => principal) params lookup)
          utxo txin.prevout).sum ≤
      (tx.vin.map fun txin => weightAt (tokenWeight params lookup) utxo txin.prevout).sum := by
  have nonneg := digidollarHeight_nonneg ready
  rw [admissible.params_eq] at nonneg
  obtain ⟨view, health, input, rest, coin, vault, creating, principal, lockHeight, redemption⟩ :=
    acceptedRedemption_of_ok (canonical admissible) valid
  have getCoin : ∀ outpoint, ctx.getCoin outpoint = view.getCoin outpoint := by
    simp [ValidationContext.getCoin, redemption.coins]
  have held : utxo.lookup input.prevout = some coin := by
    rw [← admissible.view, getCoin, redemption.spent]
  have isVault := (lookupCanonicalVault_context admissible held).symm.trans redemption.isVault
  obtain ⟨positive, _, creating', created, _, accounted⟩ := canonicalVault_cases isVault
  -- the three readers meet in the creating mint
  have same : creating' = creating := by
    have found := (creatingTransaction_eq_some created).1
    rw [← (admissible.available _ _ held).2, redemption.created] at found
    exact (Option.some.inj found).symm
  subst same
  obtain ⟨creating'', created', structure'⟩ := structured _ _ _ held isVault
  obtain rfl : creating'' = creating' := Option.some.inj (created'.symm.trans created)
  obtain ⟨rfl, small, _⟩ := principal_of_metadata structure' accounted redemption.metadata
  have required := le_getRequiredDDBurn health redemption.positive
    (small.trans (by decide : MAX_DIGIDOLLAR ≤ INT64_MAX))
  have burned := redemption.burned
  have inVin : ∀ txin ∈ rest, txin ∈ tx.vin := fun txin member => by
    simp [redemption.vin, member]
  have released : weightAt (vaultWeight (fun principal _ => principal) params lookup) utxo
      input.prevout = vault.principal := by
    simp [weightAt, held, vaultWeight, isVault]
  have others : (rest.map fun txin => weightAt (vaultWeight (fun principal _ => principal) params
      lookup) utxo txin.prevout).sum = 0 := by
    refine List.sum_eq_zero ?_
    simp only [List.mem_map, forall_exists_index, and_imp]
    rintro _ txin member rfl
    refine weightAt_principal_eq_zero admissible (inVin txin member) fun other found => ?_
    rw [getCoin] at found
    by_cases value : 0 < other.out.nValue
    · exact redemption.oneVault txin member other found value
    · rw [lookupCanonicalVault, if_pos (.inr (not_lt.mp value))]
  have first : weightAt (tokenWeight params lookup) utxo input.prevout = 0 := by
    have notToken : isTokenOutput coin.out = false := by
      simpa [← Bool.not_eq_true, isTokenOutput_iff] using fun zero => by omega
    simp [weightAt, held, tokenWeight, notToken]
  have tokens := sum_token_eq admissible inVin redemption.tokens nonneg
  rw [redemption.vin, List.map_cons, List.sum_cons, List.map_cons, List.sum_cons, released, others,
    first, tokens]
  omega

private theorem mint_step (type : getDigiDollarTxType tx = .mint)
    (valid : validateMintTransaction curve tx ctx node = .ok ()) :
    ∃ principal collateral, extractMintAccountingAmounts (fun _ => none) tx false =
      some (principal, collateral) ∧ readableOutputs tx ≤ principal := by
  obtain ⟨pc, out, s, accepted⟩ := acceptedMint_of_ok valid
  refine ⟨s.totalDD, out.nValue, accepted.accounting type _, ?_⟩
  have read := readPayload_mint accepted.read.type accepted.read.amount
  obtain ⟨_, _, _, _, _, _, _, _, positive, _⟩ := taggedAmount_eq_some accepted.read.amount
  rw [readableOutputs_eq admissible.notCoinbase (hasDigiDollarMarker_of_type type (by simp))
    accepted.payload (type ▸ read)]
  exact sum_tokenAmounts_single (by omega) tx.vout

private theorem backed_step (structured : StructuredVaults params lookup utxo)
    (before : Backed params lookup utxo) : Backed params lookup (connect utxo tx height) := by
  obtain ⟨ready, kind⟩ := acceptedKind_of_ok (canonical admissible) admissible.accepted
  have nonneg := digidollarHeight_nonneg ready
  rw [admissible.params_eq] at nonneg
  have burnt := sum_token_nonneg params lookup utxo tx.vin
  refine backed_connect admissible ready before ?_
  cases kind with
  | plain unmarked noVault =>
    have readable : readableOutputs tx = 0 := readableOutputs_unmarked unmarked
    rw [mintWeight, extractMintAccountingAmounts_other (by simp [getDigiDollarTxType, unmarked]),
      readable, sum_principal_eq_zero admissible noVault]
    simpa using burnt
  | mint type noVault valid =>
    obtain ⟨principal, collateral, accounted, bound⟩ := mint_step admissible type valid
    rw [mintWeight, accounted, sum_principal_eq_zero admissible noVault]
    simp only
    omega
  | transfer type noVault valid =>
    obtain ⟨conserved, tokens⟩ := validateTransferTransaction_conserves (canonical admissible)
      admissible.notCoinbase valid
    rw [mintWeight, extractMintAccountingAmounts_other (by simp [type]), conserved,
      sum_principal_eq_zero admissible noVault,
      sum_token_eq admissible (fun _ member => member) tokens nonneg]
    simp
  | redeem type valid =>
    rw [mintWeight, extractMintAccountingAmounts_other (by simp [type])]
    have := redeem_step admissible ready structured valid
    simp only
    omega

private theorem structured_step (structured : StructuredVaults params lookup utxo) :
    StructuredVaults params lookup (connect utxo tx height) := by
  intro outpoint coin vault found isVault
  rcases lookup_connect found with added | kept
  · obtain ⟨hash, coinbase, rfl, at_n, _⟩ := mem_newCoins.mp added
    obtain ⟨_, _, creating, created, type, _⟩ := canonicalVault_cases isVault
    refine ⟨creating, created, ?_⟩
    have same : creating = tx := by
      have known := (creatingTransaction_eq_some created).1
      dsimp only at hash
      rw [hash, admissible.recorded] at known
      exact (Option.some.inj known).symm
    subst same
    obtain ⟨_, kind⟩ := acceptedKind_of_ok (canonical admissible) admissible.accepted
    cases kind with
    | plain unmarked noVault => simp [getDigiDollarTxType, unmarked] at type
    | mint _ _ valid =>
      obtain ⟨pc, out, s, accepted⟩ := acceptedMint_of_ok valid
      exact accepted.mintStructure
    | transfer other _ _ => simp [other] at type
    | redeem other _ => simp [other] at type
  · exact structured outpoint coin vault kept isVault

end Step

/-- From any backed set of structured vaults, every run of accepted transactions
leads to a backed set. -/
theorem run_preserves_backing (curve : TaprootCurve) (params : Params) (lookup : CanonicalTxLookup)
    (start final : UtxoSet) (structured : StructuredVaults params lookup start)
    (backed : Backed params lookup start) (run : Run curve params lookup start final) :
    Backed params lookup final := by
  suffices StructuredVaults params lookup final ∧ Backed params lookup final from this.2
  induction run with
  | refl => exact ⟨structured, backed⟩
  | step _ admissible ih =>
    exact ⟨structured_step admissible ih.1, backed_step admissible ih.1 ih.2⟩

namespace Sample

/-- One coin that can pay for the sample mint. -/
def utxo : UtxoSet := Finmap.singleton ⟨1, 0⟩ funding

private theorem utxo_lookup (outpoint : COutPoint) :
    utxo.lookup outpoint = if outpoint = ⟨1, 0⟩ then some funding else none := by
  split_ifs with here
  · rw [here]
    exact Finmap.lookup_singleton_eq
  · rw [Finmap.lookup_eq_none]
    exact fun member => here ((Finmap.mem_singleton _ _ _).mp member)

private theorem utxo_held {outpoint : COutPoint} {coin : Coin}
    (held : utxo.lookup outpoint = some coin) : outpoint = ⟨1, 0⟩ ∧ coin = funding := by
  rw [utxo_lookup] at held
  split_ifs at held with here
  exact ⟨here, (Option.some.inj held).symm⟩

private theorem mint_admissible :
    Admissible curve params.consensus lookup utxo mint 10 mintCtx node where
  notCoinbase := rfl
  fresh n := by simp [utxo_lookup, mint]
  present := by decide +kernel
  distinct := by decide
  params_eq := rfl
  height_eq := rfl
  active := by decide
  view outpoint := (utxo_lookup outpoint).symm
  available outpoint coin held := by
    obtain ⟨rfl, rfl⟩ := utxo_held held
    decide +kernel
  recorded := rfl
  accepted := by decide +kernel

theorem backed_after_mint : Backed params.consensus lookup (connect utxo mint 10) := by
  refine run_preserves_backing curve params.consensus lookup utxo _ ?_ (by decide +kernel)
    (.step .refl mint_admissible)
  intro outpoint coin vault held isVault
  obtain ⟨rfl, rfl⟩ := utxo_held held
  cases isVault

end Sample

end DigiByte.DigiDollar
