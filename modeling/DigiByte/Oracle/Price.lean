import DigiByte.Oracle.Messages
import Mathlib.Data.List.GetD
import Mathlib.Data.List.Sort

/-!
Price messages and the consensus values computed from them
(`primitives/oracle.cpp`, `bundle_manager.cpp`, `signing_orchestrator.cpp`).
-/

set_option autoImplicit false
set_option relaxedAutoImplicit false

namespace DigiByte.Oracle

def ORACLE_MIN_PRICE_MICRO_USD : ℕ := 100
def ORACLE_MAX_PRICE_MICRO_USD : ℕ := 100000000
def ORACLE_MAX_AGE_SECONDS : ℤ := 3600

def COraclePriceMessage.inRange (msg : COraclePriceMessage) : Bool :=
  ORACLE_MIN_PRICE_MICRO_USD ≤ msg.price_micro_usd &&
    msg.price_micro_usd ≤ ORACLE_MAX_PRICE_MICRO_USD

/-- `VerifyAttestation`. -/
def OracleEnv.verifyAttestation (env : OracleEnv) (msg : COraclePriceMessage) : Bool :=
  env.verifySigned msg.oracle_pubkey
    (env.sha (.priceAttestation msg.oracle_id msg.price_micro_usd msg.timestamp)) msg.schnorr_sig

/-- `COraclePriceMessage::IsValid` at the time `now`. -/
def OracleEnv.priceIsValid (env : OracleEnv) (msg : COraclePriceMessage) (now : ℤ) : Bool :=
  if msg.inRange = false then false
  else if msg.timestamp > now + 60 then false
  else if msg.timestamp < now - ORACLE_MAX_AGE_SECONDS then false
  else env.verifyAttestation msg

/-- The middle of sorted values, or the mean of the two middle ones. -/
def middle (values : List ℤ) : ℤ :=
  let mid := values.length / 2
  if values.length % 2 = 0 then (values.getD (mid - 1) 0 + values.getD mid 0).tdiv 2
  else values.getD mid 0

/-- The prices within one and a half interquartile ranges of the quartiles. -/
def withoutOutliers (prices : List ℤ) : List ℤ :=
  let q1 := prices.getD (prices.length / 4) 0
  let q3 := prices.getD (prices.length * 3 / 4) 0
  let iqr := q3 - q1
  let lower_bound := q1 - (iqr * 3).tdiv 2
  let upper_bound := q3 + (iqr * 3).tdiv 2
  prices.filter fun price => lower_bound ≤ price ∧ price ≤ upper_bound

def calculateConsensusPrice (messages : List COraclePriceMessage) : ℤ :=
  let prices := ((messages.filter COraclePriceMessage.inRange).map
    fun msg => (msg.price_micro_usd : ℤ)).insertionSort (· ≤ ·)
  if prices = [] then 0
  else if prices.length < 4 then middle prices
  else
    let filtered := withoutOutliers prices
    if filtered = [] then middle prices else middle (filtered.insertionSort (· ≤ ·))

/-- `ComputeConsensusValuesFromEvidence`: price and timestamp. -/
def computeConsensusValuesFromEvidence (messages : List COraclePriceMessage) : Option (ℕ × ℤ) :=
  if messages = [] then none
  else
    let price := calculateConsensusPrice messages
    if price ≤ 0 then none
    else some (price.toNat,
      middle ((messages.map COraclePriceMessage.timestamp).insertionSort (· ≤ ·)))

/-! A consensus price lies in the range of the prices. -/

private theorem getD_bounds {values : List ℤ} {low high : ℤ} {i : ℕ} (inside : i < values.length)
    (bounds : ∀ v ∈ values, low ≤ v ∧ v ≤ high) :
    low ≤ values.getD i 0 ∧ values.getD i 0 ≤ high := by
  rw [List.getD_eq_getElem _ _ inside]
  exact bounds _ (List.getElem_mem inside)

private theorem middle_bounds {values : List ℤ} {low high : ℤ} (nonempty : values ≠ [])
    (positive : 0 ≤ low) (bounds : ∀ v ∈ values, low ≤ v ∧ v ≤ high) :
    low ≤ middle values ∧ middle values ≤ high := by
  have length := List.length_pos_iff.mpr nonempty
  have upper := getD_bounds (i := values.length / 2) (by omega) bounds
  unfold middle
  dsimp only
  split_ifs with even
  · have lower := getD_bounds (i := values.length / 2 - 1) (by omega) bounds
    rw [Int.tdiv_eq_ediv_of_nonneg (by omega)]
    omega
  · exact upper

theorem calculateConsensusPrice_range (messages : List COraclePriceMessage)
    (positive : 0 < calculateConsensusPrice messages) :
    (ORACLE_MIN_PRICE_MICRO_USD : ℤ) ≤ calculateConsensusPrice messages ∧
      calculateConsensusPrice messages ≤ (ORACLE_MAX_PRICE_MICRO_USD : ℤ) := by
  unfold calculateConsensusPrice at positive ⊢
  dsimp only at positive ⊢
  generalize sorted : ((messages.filter COraclePriceMessage.inRange).map
    fun msg => (msg.price_micro_usd : ℤ)).insertionSort (· ≤ ·) = prices at positive ⊢
  have bounds : ∀ v ∈ prices, (ORACLE_MIN_PRICE_MICRO_USD : ℤ) ≤ v ∧
      v ≤ (ORACLE_MAX_PRICE_MICRO_USD : ℤ) := by
    intro v member
    rw [← sorted, List.mem_insertionSort, List.mem_map] at member
    obtain ⟨msg, kept, rfl⟩ := member
    have range := (List.mem_filter.mp kept).2
    simp only [COraclePriceMessage.inRange, Bool.and_eq_true, decide_eq_true_eq] at range
    omega
  split_ifs at positive ⊢ with nonempty few all
  · omega
  · exact middle_bounds nonempty (by decide) bounds
  · exact middle_bounds nonempty (by decide) bounds
  · refine middle_bounds ?_ (by decide) fun v member => bounds v ?_
    · intro empty
      exact all (by simpa using congrArg List.length empty)
    · rw [List.mem_insertionSort] at member
      exact List.mem_of_mem_filter member

theorem computeConsensusValues_range {messages : List COraclePriceMessage} {price : ℕ}
    {timestamp : ℤ}
    (computed : computeConsensusValuesFromEvidence messages = some (price, timestamp)) :
    ORACLE_MIN_PRICE_MICRO_USD ≤ price ∧ price ≤ ORACLE_MAX_PRICE_MICRO_USD := by
  unfold computeConsensusValuesFromEvidence at computed
  dsimp only at computed
  split_ifs at computed with empty low
  have range := calculateConsensusPrice_range messages (by omega)
  simp only [Option.some.injEq, Prod.mk.injEq] at computed
  omega

end DigiByte.Oracle
