import DigiByte.DigiDollar.Chain
import DigiByte.DigiDollar.MintReaders
import Mathlib.Algebra.Order.BigOperators.Group.List

/-!
The change of the circulating supply (`GetCirculatingSupplyChange` of
`digidollar/health.cpp`) and what it reports about validated transactions.

The function counts amounts coin by coin, with no regard to the type of the
transaction; the validators count them with rules of their own per type.
-/

set_option autoImplicit false
set_option relaxedAutoImplicit false

namespace DigiByte.DigiDollar

open Consensus Script

inductive SupplyChangeResult
  | known (change : ℤ)
  | unknownMetadata (error : String)
  | failure (error : String)
  deriving DecidableEq, Repr

/-- The lambda `token_amount`: `none` is unknown metadata, an error a failure. -/
def supplyTokenAmount (params : Params) (source : CanonicalTxLookup) (outpoint : COutPoint)
    (coin : Coin) : Except String (Option ℤ) :=
  if coinMayContainDigiDollar coin params = false ∨ coin.out.nValue ≠ 0 then .ok (some 0)
  else match creatingTransaction source outpoint coin with
    | none => .error
        s!"DigiDollar supply not ready: restore the creating block at height {coin.nHeight}"
    | some creating =>
      if hasDigiDollarMarker creating = false then .ok (some 0)
      else
        let verified_source : CanonicalTxLookup := fun hash height =>
          if hash ≠ outpoint.hash ∨ height ≠ coin.nHeight then none else some creating
        .ok ((extractDDAmountFromBlockDb outpoint coin.nHeight verified_source).filter (0 < ·))

/-- Both coin loops: the inputs with sign -1, the outputs with sign 1. The state is
`delta` and `unknown_metadata`. -/
def supplyLoop (params : Params) (source : CanonicalTxLookup) (sign : ℤ) :
    List (COutPoint × Coin) → ℤ × Bool → Except String (ℤ × Bool)
  | [], state => .ok state
  | (outpoint, coin) :: rest, (delta, unknown_metadata) =>
    match supplyTokenAmount params source outpoint coin with
    | .error error => .error error
    | .ok none => supplyLoop params source sign rest (delta, true)
    | .ok (some amount) => supplyLoop params source sign rest (delta + sign * amount,
        unknown_metadata)

/-- The coins that the outputs of a transaction would become. -/
def createdCoins (tx : CTransaction) (height : ℕ) : List (COutPoint × Coin) :=
  tx.vout.zipIdx.map fun p => (⟨tx.hash, p.2⟩, ⟨p.1, false, height⟩)

def createdLookup (tx : CTransaction) (height : ℕ) : CanonicalTxLookup := fun txid coin_height =>
  if txid ≠ tx.hash ∨ coin_height ≠ height then none else some tx

def getCirculatingSupplyChange (tx : CTransaction) (inputs : List Coin) (height : ℕ)
    (params : Params) (lookup : CanonicalTxLookup) : SupplyChangeResult :=
  if tx.isCoinBase then .known 0
  else if inputs.length ≠ tx.vin.length then
    .failure "DigiDollar supply requires complete input coins"
  else match supplyLoop params lookup (-1) ((tx.vin.map CTxIn.prevout).zip inputs) (0, false) with
    | .error error => .failure error
    | .ok state =>
      match supplyLoop params (createdLookup tx height) 1 (createdCoins tx height) state with
      | .error error => .failure error
      | .ok (delta, unknown_metadata) =>
        if unknown_metadata then .unknownMetadata
          ("DigiDollar supply unavailable: creating token metadata does not establish an " ++
            "unambiguous amount")
        else if delta < -INT64_MAX - 1 ∨ delta > INT64_MAX then
          .failure "DigiDollar circulating supply change exceeds the supported range"
        else .known delta

/-! What the coins are worth. -/

/-- The DigiDollar amount of a coin. An output of a transaction without the marker
has none. -/
def coinTokens (params : Params) (lookup : CanonicalTxLookup) (outpoint : COutPoint)
    (coin : Coin) : ℤ :=
  if coinMayContainDigiDollar coin params = true ∧ coin.out.nValue = 0 then
    match creatingTransaction lookup outpoint coin with
    | some creating => readableAmount creating outpoint.n
    | none => 0
  else 0

/-- The amounts of the coins that a transaction spends. -/
def spentTokens (params : Params) (lookup : CanonicalTxLookup) (tx : CTransaction)
    (inputs : List Coin) : ℤ :=
  (((tx.vin.map CTxIn.prevout).zip inputs).map fun e => coinTokens params lookup e.1 e.2).sum

/-- A coin that looks like a token has a readable creating transaction and, if that
one has the marker, a readable amount. -/
def ReadableToken (params : Params) (lookup : CanonicalTxLookup) (outpoint : COutPoint)
    (coin : Coin) : Prop :=
  coinMayContainDigiDollar coin params = true → coin.out.nValue = 0 →
    ∃ creating, creatingTransaction lookup outpoint coin = some creating ∧
      (hasDigiDollarMarker creating = true →
        (extractDDAmountFromTxRef creating outpoint.n).isSome = true)

/-- What a validated transaction does to the supply: a mint adds its amount, a
transfer nothing, a redemption takes what it burns, and tokens that enter a
transaction without the marker are lost. -/
def supplyEffect (tx : CTransaction) (spent : ℤ) : ℤ :=
  match getDigiDollarTxType tx with
  | .mint => mintWeight (fun principal _ => principal) tx - spent
  | .transfer => 0
  | .redeem => -(spent - readableOutputs tx)
  | .none => -spent

/-! The loops over readable coins. -/

theorem coinTokens_nonneg (params : Params) (lookup : CanonicalTxLookup) (outpoint : COutPoint)
    (coin : Coin) : 0 ≤ coinTokens params lookup outpoint coin := by
  unfold coinTokens
  split_ifs
  · split
    · exact readableAmount_nonneg _ _
    · rfl
  · rfl

theorem spentTokens_nonneg (params : Params) (lookup : CanonicalTxLookup) (tx : CTransaction)
    (inputs : List Coin) : 0 ≤ spentTokens params lookup tx inputs := by
  refine List.sum_nonneg ?_
  intro amount member
  obtain ⟨e, _, rfl⟩ := List.mem_map.mp member
  exact coinTokens_nonneg _ _ _ _

theorem coinTokens_congr {params : Params} {lookup lookup' : CanonicalTxLookup}
    {outpoint : COutPoint}
    {coin : Coin} (same : lookup outpoint.hash coin.nHeight = lookup' outpoint.hash coin.nHeight) :
    coinTokens params lookup outpoint coin = coinTokens params lookup' outpoint coin := by
  simp only [coinTokens, creatingTransaction_congr same]

theorem readableToken_congr {params : Params} {lookup lookup' : CanonicalTxLookup}
    {outpoint : COutPoint} {coin : Coin}
    (same : lookup outpoint.hash coin.nHeight = lookup' outpoint.hash coin.nHeight) :
    ReadableToken params lookup outpoint coin ↔ ReadableToken params lookup' outpoint coin := by
  simp only [ReadableToken, creatingTransaction_congr same]

theorem supplyTokenAmount_eq {params : Params} {lookup : CanonicalTxLookup} {outpoint : COutPoint}
    {coin : Coin} (readable : ReadableToken params lookup outpoint coin) :
    supplyTokenAmount params lookup outpoint coin =
      .ok (some (coinTokens params lookup outpoint coin)) := by
  unfold supplyTokenAmount coinTokens
  by_cases candidate : coinMayContainDigiDollar coin params = true ∧ coin.out.nValue = 0
  · obtain ⟨creating, created, amounts⟩ := readable candidate.1 candidate.2
    rw [if_neg (by simp [candidate.1, candidate.2]), if_pos candidate, created]
    dsimp only
    by_cases marked : hasDigiDollarMarker creating = true
    · obtain ⟨amount, extracted⟩ := Option.isSome_iff_exists.mp (amounts marked)
      obtain ⟨_, _, _, _, _, _, entry⟩ := readPayload_of_extract extracted
      have positive := (tokenAmounts_eq_some entry).1
      simp [marked, extractDDAmountFromBlockDb, extracted, readableAmount, Option.filter, positive]
    · simp [marked, readableAmount, extractDDAmountFromTxRef]
  · have skip : coinMayContainDigiDollar coin params = false ∨ coin.out.nValue ≠ 0 := by
      by_contra both
      simp only [not_or, Bool.not_eq_false, not_not] at both
      exact candidate both
    rw [if_pos skip, if_neg candidate]

theorem supplyLoop_eq {params : Params} {source : CanonicalTxLookup} {sign delta : ℤ}
    {entries : List (COutPoint × Coin)}
    (readable : ∀ e ∈ entries, ReadableToken params source e.1 e.2) :
    supplyLoop params source sign entries (delta, false) =
      .ok (delta + sign * (entries.map fun e => coinTokens params source e.1 e.2).sum, false) := by
  induction entries generalizing delta with
  | nil => simp [supplyLoop]
  | cons e rest ih =>
    have later := fun e' member => readable e' (List.mem_cons_of_mem e member)
    simp only [supplyLoop, supplyTokenAmount_eq (readable e (by simp)), ih later, List.map_cons,
      List.sum_cons, Except.ok.injEq, Prod.mk.injEq, and_true]
    ring

/-! The outputs. -/

private theorem mem_createdCoins {tx : CTransaction} {height : ℕ} {e : COutPoint × Coin}
    (member : e ∈ createdCoins tx height) :
    ∃ n out, tx.vout[n]? = some out ∧ e = (⟨tx.hash, n⟩, ⟨out, false, height⟩) := by
  obtain ⟨⟨out, n⟩, indexed, rfl⟩ := List.mem_map.mp member
  exact ⟨n, out, List.mk_mem_zipIdx_iff_getElem?.mp indexed, rfl⟩

theorem creatingTransaction_created {tx : CTransaction} {height n : ℕ} {out : CTxOut}
    (at_n : tx.vout[n]? = some out) :
    creatingTransaction (createdLookup tx height) ⟨tx.hash, n⟩ ⟨out, false, height⟩ = some tx := by
  simp [creatingTransaction, createdLookup, at_n]

private theorem isTokenOutput_of_candidate {params : Params} {coin : Coin}
    (candidate : coinMayContainDigiDollar coin params = true) (zero : coin.out.nValue = 0) :
    isTokenOutput coin.out = true := by
  simp only [coinMayContainDigiDollar, Bool.and_eq_true] at candidate
  exact isTokenOutput_iff.mpr ⟨zero, candidate.2⟩

private theorem readable_createdCoins {tx : CTransaction} {height : ℕ} {params : Params}
    (readable : hasDigiDollarMarker tx = true → ∀ n out, tx.vout[n]? = some out →
      isTokenOutput out = true → (extractDDAmountFromTxRef tx n).isSome = true) :
    ∀ e ∈ createdCoins tx height, ReadableToken params (createdLookup tx height) e.1 e.2 := by
  intro e member candidate zero
  obtain ⟨n, out, at_n, rfl⟩ := mem_createdCoins member
  refine ⟨tx, creatingTransaction_created at_n, ?_⟩
  intro marked
  exact readable marked n out at_n (isTokenOutput_of_candidate candidate zero)

private theorem sum_createdCoins {tx : CTransaction} {height : ℕ} {params : Params}
    (scheduled : params.DigiDollarHeight ≠ INT_MAX)
    (reached : toUint32 params.DigiDollarHeight ≤ height) :
    ((createdCoins tx height).map fun e =>
      coinTokens params (createdLookup tx height) e.1 e.2).sum = readableOutputs tx := by
  have each : ∀ p ∈ tx.vout.zipIdx, coinTokens params (createdLookup tx height) ⟨tx.hash, p.2⟩
      ⟨p.1, false, height⟩ = readableAmount tx p.2 := by
    rintro ⟨out, n⟩ member
    have at_n : tx.vout[n]? = some out := List.mk_mem_zipIdx_iff_getElem?.mp member
    unfold coinTokens
    rw [creatingTransaction_created at_n]
    by_cases token : isTokenOutput out = true
    · obtain ⟨zero, p2tr⟩ := isTokenOutput_iff.mp token
      simp [coinMayContainDigiDollar, Coin.isSpent, zero, p2tr, scheduled, reached]
    · have unreadable := readableAmount_eq_zero at_n (by simpa using token)
      simp [unreadable]
  unfold createdCoins readableOutputs
  rw [List.map_map, Function.comp_def, List.map_congr_left each, List.range_eq_range',
    ← List.zipIdx_map_snd, List.map_map]
  rfl

/-! The inputs. -/

section Inputs

variable {ctx : ValidationContext} {lookup : CanonicalTxLookup}

private theorem coinTokens_eq_inputAmount {txin : CTxIn} {coin : Coin}
    (active : ctx.canonical = true) (nonneg : 0 ≤ ctx.params.consensus.DigiDollarHeight)
    (held : ctx.getCoin txin.prevout = some coin)
    (same : lookup txin.prevout.hash coin.nHeight =
      contextTransactionLookup ctx txin.prevout.hash coin.nHeight)
    (input : TokenInput ctx txin) :
    coinTokens ctx.params.consensus lookup txin.prevout coin = inputAmount ctx txin := by
  by_cases zero : coin.out.nValue = 0
  · obtain ⟨amount, read⟩ := input.read coin held zero
    rw [inputAmount_of_read held zero read]
    obtain ⟨mayCreate, coinbase, creating, created, extracted⟩ :=
      readCanonicalTokenAmount_eq_ok read
    have created' : creatingTransaction lookup txin.prevout coin = some creating :=
      (creatingTransaction_congr same).trans created
    have reached := reached_of_mayCreate active nonneg mayCreate
    have scheduled := (isThawDayActive_iff.mp active).2.2.1
    have token := isTokenOutput_of_extract extracted (creatingTransaction_eq_some created').2.2
    have candidate : coinMayContainDigiDollar coin ctx.params.consensus = true := by
      simp [coinMayContainDigiDollar, Coin.isSpent, zero, coinbase, scheduled, reached,
        (isTokenOutput_iff.mp token).2]
    simp [coinTokens, candidate, zero, created', readableAmount, extracted]
  · rw [inputAmount_of_value held zero, coinTokens, if_neg (by simp [zero])]

private theorem sum_zip_inputs {vin : List CTxIn} {inputs : List Coin}
    {weight : COutPoint → Coin → ℤ}
    {value : CTxIn → ℤ} (held : inputs.map some = vin.map fun txin => ctx.getCoin txin.prevout)
    (each : ∀ txin ∈ vin, ∀ coin, ctx.getCoin txin.prevout = some coin →
      weight txin.prevout coin = value txin) :
    (((vin.map CTxIn.prevout).zip inputs).map fun e => weight e.1 e.2).sum =
    (vin.map value).sum := by
  induction vin generalizing inputs with
  | nil => simp
  | cons txin rest ih =>
    cases inputs with
    | nil => simp at held
    | cons coin inputs =>
      simp only [List.map_cons, List.cons.injEq] at held
      have first := each txin (by simp) coin held.1.symm
      have later := ih held.2 fun txin' member => each txin' (List.mem_cons_of_mem txin member)
      simp only [List.map_cons, List.zip_cons_cons, List.sum_cons, first, later]

end Inputs

/-! The law. -/

private theorem getCirculatingSupplyChange_eq {tx : CTransaction} {inputs : List Coin} {height : ℕ}
    {params : Params} {lookup : CanonicalTxLookup} (coinbase : tx.isCoinBase = false)
    (complete : inputs.length = tx.vin.length) (scheduled : params.DigiDollarHeight ≠ INT_MAX)
    (reached : toUint32 params.DigiDollarHeight ≤ height)
    (spent : ∀ e ∈ (tx.vin.map CTxIn.prevout).zip inputs, ReadableToken params lookup e.1 e.2)
    (readable : hasDigiDollarMarker tx = true → ∀ n out, tx.vout[n]? = some out →
      isTokenOutput out = true → (extractDDAmountFromTxRef tx n).isSome = true)
    (low : -INT64_MAX - 1 ≤ readableOutputs tx - spentTokens params lookup tx inputs)
    (high : readableOutputs tx - spentTokens params lookup tx inputs ≤ INT64_MAX) :
    getCirculatingSupplyChange tx inputs height params lookup =
      .known (readableOutputs tx - spentTokens params lookup tx inputs) := by
  unfold getCirculatingSupplyChange
  rw [supplyLoop_eq spent]
  dsimp only
  rw [supplyLoop_eq (readable_createdCoins readable), sum_createdCoins scheduled reached]
  simp only [coinbase, complete, spentTokens] at *
  rw [if_neg (by simp), if_neg (by simp)]
  rw [if_neg (by simp), if_neg (by omega)]
  congr 1
  ring

section Law

variable {curve : TaprootCurve} {tx : CTransaction} {ctx : ValidationContext} {node : NodeState}
  {inputs : List Coin} {lookup : CanonicalTxLookup}

private theorem readableOutputs_mint (coinbase : tx.isCoinBase = false)
    (type : getDigiDollarTxType tx = .mint)
    (valid : validateMintTransaction curve tx ctx node = .ok ()) :
    readableOutputs tx = mintWeight (fun principal _ => principal) tx ∧
      mintWeight (fun principal _ => principal) tx ≤ MAX_DIGIDOLLAR := by
  obtain ⟨pc, out, s, accepted⟩ := acceptedMint_of_ok valid
  have marked := hasDigiDollarMarker_of_type type (by decide)
  have read := readPayload_mint accepted.read.type accepted.read.amount
  obtain ⟨token, single⟩ := List.length_eq_one_iff.mp accepted.token
  obtain ⟨_, _, _, _, _, _, _, _, _, high⟩ := taggedAmount_eq_some accepted.read.amount
  have weight : mintWeight (fun principal _ => principal) tx = s.totalDD := by
    simp [mintWeight, accepted.accounting type]
  rw [weight]
  refine ⟨?_, high⟩
  rw [readableOutputs_eq coinbase marked accepted.payload (type ▸ read)]
  exact sum_tokenAmounts_one accepted.amount_pos single

private theorem spentTokens_eq (active : ctx.canonical = true)
    (nonneg : 0 ≤ ctx.params.consensus.DigiDollarHeight)
    (held : inputs.map some = tx.vin.map fun txin => ctx.getCoin txin.prevout)
    (same : ∀ txin ∈ tx.vin, ∀ coin, ctx.getCoin txin.prevout = some coin →
      lookup txin.prevout.hash coin.nHeight =
        contextTransactionLookup ctx txin.prevout.hash coin.nHeight)
    (tokens : ∀ txin ∈ tx.vin, TokenInput ctx txin) :
    spentTokens ctx.params.consensus lookup tx inputs = (tx.vin.map (inputAmount ctx)).sum := by
  refine sum_zip_inputs held ?_
  intro txin member coin found
  exact coinTokens_eq_inputAmount active nonneg found (same txin member coin found)
    (tokens txin member)

private theorem redeem_spent (active : ctx.canonical = true)
    (nonneg : 0 ≤ ctx.params.consensus.DigiDollarHeight)
    (held : inputs.map some = tx.vin.map fun txin => ctx.getCoin txin.prevout)
    (same : ∀ txin ∈ tx.vin, ∀ coin, ctx.getCoin txin.prevout = some coin →
      lookup txin.prevout.hash coin.nHeight =
        contextTransactionLookup ctx txin.prevout.hash coin.nHeight)
    (valid : validateRedemptionTransaction tx ctx node = .ok ()) :
    readableOutputs tx ≤ spentTokens ctx.params.consensus lookup tx inputs ∧
      spentTokens ctx.params.consensus lookup tx inputs ≤ INT64_MAX := by
  obtain ⟨view, health, input, rest, coin, vault, creating, principal, lockHeight, redemption⟩ :=
    acceptedRedemption_of_ok active valid
  have bound := validateRedemptionTransaction_spent_le active redemption.coins valid
  have burned := redemption.burned
  have required := getRequiredDDBurn_nonneg principal health
  have found : ctx.getCoin input.prevout = some coin := by
    simp [ValidationContext.getCoin, redemption.coins, redemption.spent]
  have positive := (canonicalVault_cases redemption.isVault).1
  -- the vault is no token, and the validator read all the other inputs
  have tokens : ∀ txin ∈ tx.vin, TokenInput ctx txin := by
    rw [redemption.vin]
    rintro txin member
    rcases List.mem_cons.mp member with rfl | member
    · refine ⟨?_⟩
      intro coin' found' zero
      rw [found] at found'
      cases found'
      omega
    · exact redemption.tokens txin member
  have vaultAmount : inputAmount ctx input = 0 := inputAmount_of_value found (by omega)
  rw [spentTokens_eq active nonneg held same tokens]
  rw [redemption.vin] at bound ⊢
  rw [List.tail_cons] at bound
  rw [List.map_cons, List.sum_cons, vaultAmount]
  omega

/-- The reported change of a validated transaction is its effect on the supply. The
report fails where the tokens that a mint or a plain transaction destroys exceed an
amount; no other kind can spend that many. -/
theorem supply_change_exact (active : isThawDayActive ctx.params.consensus ctx.nHeight = true)
    (coinbase : tx.isCoinBase = false)
    (valid : validateDigiDollarTransaction curve tx ctx node = .ok ())
    (held : inputs.map some = tx.vin.map fun txin => ctx.getCoin txin.prevout)
    (same : ∀ txin ∈ tx.vin, ∀ coin, ctx.getCoin txin.prevout = some coin →
      lookup txin.prevout.hash coin.nHeight =
        contextTransactionLookup ctx txin.prevout.hash coin.nHeight)
    (readable : ∀ e ∈ (tx.vin.map CTxIn.prevout).zip inputs,
      ReadableToken ctx.params.consensus lookup e.1 e.2)
    (fits : getDigiDollarTxType tx = .mint ∨ getDigiDollarTxType tx = .none →
      -INT64_MAX - 1 ≤ supplyEffect tx (spentTokens ctx.params.consensus lookup tx inputs)) :
    getCirculatingSupplyChange tx inputs ctx.nHeight.toNat ctx.params.consensus lookup =
      .known (supplyEffect tx (spentTokens ctx.params.consensus lookup tx inputs)) := by
  obtain ⟨ready, kind⟩ := acceptedKind_of_ok (show ctx.canonical = true from active) valid
  have started := digidollarHeight_nonneg ready
  obtain ⟨nonneg, _, scheduled, low, _⟩ := isThawDayActive_iff.mp active
  have reached : toUint32 ctx.params.consensus.DigiDollarHeight ≤ ctx.nHeight.toNat := by
    unfold toUint32
    omega
  have complete : inputs.length = tx.vin.length := by
    have lengths := congrArg List.length held
    simpa using lengths
  have spent₀ := spentTokens_nonneg ctx.params.consensus lookup tx inputs
  have limits : 0 ≤ INT64_MAX ∧ MAX_DIGIDOLLAR ≤ INT64_MAX := by decide
  have report := fun outputs low high => getCirculatingSupplyChange_eq coinbase complete scheduled
    reached readable outputs low high
  unfold supplyEffect at fits ⊢
  cases kind with
  | plain unmarked _ =>
    have type : getDigiDollarTxType tx = .none := by simp [getDigiDollarTxType, unmarked]
    have created : readableOutputs tx = 0 := readableOutputs_unmarked unmarked
    rw [created, zero_sub] at report
    simp only [type, or_true, forall_const] at fits ⊢
    refine report ?_ fits (by omega)
    intro marked
    rw [unmarked] at marked
    cases marked
  | mint type _ minted =>
    obtain ⟨created, small⟩ := readableOutputs_mint coinbase type minted
    rw [created] at report
    simp only [type, true_or, forall_const] at fits ⊢
    obtain ⟨pc, out, s, accepted⟩ := acceptedMint_of_ok minted
    obtain ⟨t, token, spends⟩ := accepted.spends_eq coinbase type
    refine report ?_ fits (by omega)
    intro _ n o at_n shape
    have here : n = t := (token n).mp ⟨o, at_n, shape⟩
    simp [spends, here]
  | transfer type _ transferred =>
    obtain ⟨conserved, tokens⟩ := validateTransferTransaction_conserves
      (show ctx.canonical = true from active) coinbase transferred
    have spent := spentTokens_eq active started held same tokens
    rw [conserved, ← spent, sub_self] at report
    simp only [type]
    refine report ?_ (by omega) (by omega)
    intro _ n o at_n shape
    exact validateTransferTransaction_readable coinbase transferred at_n shape
  | redeem type redeemed =>
    obtain ⟨least, most⟩ := redeem_spent active started held same redeemed
    simp only [type, neg_sub]
    refine report ?_ ?_ ?_
    · intro _ n o at_n shape
      exact validateRedemptionTransaction_readable active redeemed at_n shape
    · have := readableOutputs_nonneg tx
      omega
    · omega

end Law

namespace Sample

theorem mint_supply_change :
    supplyEffect mint (spentTokens params.consensus lookup mint [funding]) = 10000 ∧
      getCirculatingSupplyChange mint [funding] 10 params.consensus lookup = .known 10000 := by
  have effect : supplyEffect mint (spentTokens params.consensus lookup mint [funding]) = 10000 := by
    decide +kernel
  have exactly :=
    @supply_change_exact curve mint mintCtx node [funding] lookup (by decide) (by decide)
    (by decide +kernel) (by decide) ?_ ?_ (fun _ => by decide +kernel)
  · exact ⟨effect, exactly.trans (congrArg SupplyChangeResult.known effect)⟩
  · intro txin _ coin _
    rfl
  · intro e member _ zero
    obtain rfl : e = (⟨1, 0⟩, funding) := by simpa [mint] using member
    cases zero

/-- Two redemptions below Thaw Day, each of the vault of a mint like the one above.
The amount of the change stands in a tagged output that has a value; the rules of
that time look at zero-value outputs only and count no change. -/
def forgery (hash source : ℕ) : CTransaction :=
  { hash := hash
    nVersion := 0x03000770
    vin := [{ prevout := ⟨source, 0⟩ }, { prevout := ⟨source, 1⟩ }]
    vout := [⟨99999999999, []⟩, ⟨0, p2tr 8⟩,
      ⟨1, [OP_RETURN, 2, 0x44, 0x44, 1, 3, 8, 0xff, 0xff, 0xff, 0xff, 0xff, 0xff, 0xff, 0x7f]⟩]
    nLockTime := 250 }

def lateParams : CChainParams :=
  { consensus := { hashGenesisBlock := 1, DigiDollarHeight := 5, nDDThawDayHeight := 300 } }

def forgeryCtx : ValidationContext :=
  { mintCtx with
    nHeight := 260
    params := lateParams
    coins := some
      { getCoin := fun outpoint =>
          if outpoint.hash = 2 ∨ outpoint.hash = 3 then
            (mint.vout[outpoint.n]?).map fun out => ⟨out, false, 10⟩
          else none
        digiDollarState := none }
    txLookup := some fun hash height =>
      if (hash = 2 ∨ hash = 3) ∧ height = 10 then some { mint with hash := hash } else none }

/-- The change of a forgery. -/
def forgedCoin : Coin := ⟨⟨0, p2tr 8⟩, false, 260⟩

def forgedLookup : CanonicalTxLookup := fun hash height =>
  if hash = 11 ∧ height = 260 then some (forgery 11 2)
  else if hash = 12 ∧ height = 260 then some (forgery 12 3)
  else none

def lateCtx : ValidationContext :=
  { mintCtx with
    nHeight := 310
    params := lateParams
    coins := some
      { getCoin := fun outpoint =>
          if outpoint = ⟨11, 1⟩ ∨ outpoint = ⟨12, 1⟩ then some forgedCoin else none
        digiDollarState := some
          { genesis_hash := 1
            activation_height := 300
            digidollar_height := 5
            best_block := 309
            history_checked := true } }
    txLookup := some forgedLookup
    candidateParent := some ⟨309, 309⟩ }

/-- A plain transaction that destroys both forgeries. -/
def burnBoth : CTransaction :=
  { hash := 13
    nVersion := 2
    vin := [{ prevout := ⟨11, 1⟩ }, { prevout := ⟨12, 1⟩ }]
    vout := [⟨0, [OP_RETURN]⟩]
    nLockTime := 0 }

/-- Both amounts are readable, but their sum is no amount. -/
theorem large_burn_unreported :
    validateDigiDollarTransaction curve (forgery 11 2) forgeryCtx node = .ok () ∧
      validateDigiDollarTransaction curve (forgery 12 3) forgeryCtx node = .ok () ∧
      lateCtx.canonical = true ∧ burnBoth.isCoinBase = false ∧
      validateDigiDollarTransaction curve burnBoth lateCtx node = .ok () ∧
      creatingTransaction forgedLookup ⟨11, 1⟩ forgedCoin = some (forgery 11 2) ∧
      extractDDAmountFromTxRef (forgery 11 2) 1 = some INT64_MAX ∧
      creatingTransaction forgedLookup ⟨12, 1⟩ forgedCoin = some (forgery 12 3) ∧
      extractDDAmountFromTxRef (forgery 12 3) 1 = some INT64_MAX ∧
      getCirculatingSupplyChange burnBoth [forgedCoin, forgedCoin] 310 lateParams.consensus
        forgedLookup =
          .failure "DigiDollar circulating supply change exceeds the supported range" := by
  decide +kernel

end Sample

end DigiByte.DigiDollar
