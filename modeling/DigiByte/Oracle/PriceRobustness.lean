import DigiByte.Library.FixedWidth
import DigiByte.Library.RankBounds
import DigiByte.Oracle.Price

/-!
How far adversarial oracles can move the consensus price (`CalculateConsensusPrice`,
`COracleBundle::GetConsensusPrice`).

The quartile filter cuts off at most a quarter of the prices at either end. If it cuts at
one end only, the median moves by half of that, so that three eighths of the prices have to
be adversarial before it leaves the honest range.
-/

set_option autoImplicit false
set_option relaxedAutoImplicit false

namespace DigiByte.Oracle

open Library.FixedWidth (pattern pattern_of_nonneg)
open Library.RankBounds

/-- The size is compared with the threshold converted to `size_t`. -/
def hasConsensus (messages : List COraclePriceMessage) (min_required : ℤ) : Bool :=
  (messages.map COraclePriceMessage.oracle_id).Nodup &&
    pattern (2 ^ 64) min_required ≤ messages.length

/-- The messages whose prices count. -/
def counted (messages : List COraclePriceMessage) : List COraclePriceMessage :=
  messages.filter COraclePriceMessage.inRange

/-- The prices in range, sorted. -/
def sortedPrices (messages : List COraclePriceMessage) : List ℤ :=
  ((counted messages).map fun msg => (msg.price_micro_usd : ℤ)).insertionSort (· ≤ ·)

/-- `COracleBundle::GetConsensusPrice`, with its conversions to `uint64_t`. -/
def getConsensusPrice (messages : List COraclePriceMessage) (min_required : ℤ) : ℕ :=
  if hasConsensus messages min_required = false then 0
  else
    let prices := sortedPrices messages
    if prices = [] then 0
    else if prices.length < 4 then pattern (2 ^ 64) (middle prices)
    else
      let filtered := withoutOutliers prices
      if filtered = [] then pattern (2 ^ 64) (middle prices)
      else pattern (2 ^ 64) (middle (filtered.insertionSort (· ≤ ·)))

/-! The middle of a list. -/

theorem middle_between {values : List ℤ} (sorted : values.Pairwise (· ≤ ·))
    (positive : ∀ v ∈ values, 0 ≤ v) (nonempty : 0 < values.length) :
    values[(values.length - 1) / 2] ≤ middle values ∧
      middle values ≤ values[values.length / 2] := by
  unfold middle
  dsimp only
  by_cases even : values.length % 2 = 0
  · have low : values.getD (values.length / 2 - 1) 0 = values[(values.length - 1) / 2] := by
      rw [List.getD_eq_getElem _ _ (by omega)]
      congr 1
      omega
    have high := List.getD_eq_getElem values 0 (show values.length / 2 < values.length by omega)
    have order : values[(values.length - 1) / 2] ≤ values[values.length / 2] :=
      sorted.rel_get_of_le (show (⟨(values.length - 1) / 2, by omega⟩ : Fin values.length) ≤
        ⟨values.length / 2, by omega⟩ from by simp; omega)
    have nonneg :=
      positive _ (List.getElem_mem (show (values.length - 1) / 2 < values.length by omega))
    rw [if_pos even, low, high, Int.tdiv_eq_ediv_of_nonneg (by omega)]
    omega
  · have index : (values.length - 1) / 2 = values.length / 2 := by omega
    rw [if_neg even, List.getD_eq_getElem _ _ (by omega)]
    simp only [index, le_refl, and_self]

/-! What the filter leaves. -/

/-- The list whose middle is the price: the prices but for at most a quarter at either end. -/
structure Trimmed (prices kept : List ℤ) (low high : ℕ) : Prop where
  sorted : kept.Pairwise (· ≤ ·)
  subset : kept ⊆ prices
  nonempty : 0 < kept.length
  length : prices.length = kept.length + low + high
  low_quarter : low ≤ prices.length / 4
  high_quarter : high ≤ prices.length - 1 - prices.length * 3 / 4
  below : ∀ k (inside : k < kept.length), (prices.countP fun x => x < kept[k]) ≤ k + low
  above : ∀ k (inside : k < kept.length), (prices.countP fun x => kept[k] < x) ≤
    kept.length - 1 - k + high

theorem trimmed_self {prices : List ℤ} (sorted : prices.Pairwise (· ≤ ·)) (nonempty : prices ≠ []) :
    Trimmed prices prices 0 0 where
  sorted := sorted
  subset := List.Subset.refl prices
  nonempty := List.length_pos_iff.mpr nonempty
  length := rfl
  low_quarter := Nat.zero_le _
  high_quarter := Nat.zero_le _
  below _ inside := countP_lt_getElem_le sorted inside
  above _ inside := countP_gt_getElem_le sorted inside

theorem trimmed_withoutOutliers {prices : List ℤ} (sorted : prices.Pairwise (· ≤ ·))
    (nonempty : prices ≠ []) :
    ∃ low high, Trimmed prices (withoutOutliers prices) low high := by
  have length := List.length_pos_iff.mpr nonempty
  have first : prices.getD (prices.length / 4) 0 = prices[prices.length / 4] :=
    List.getD_eq_getElem _ _ (by omega)
  have third : prices.getD (prices.length * 3 / 4) 0 = prices[prices.length * 3 / 4] :=
    List.getD_eq_getElem _ _ (by omega)
  set q1 := prices[prices.length / 4] with q1_def
  set q3 := prices[prices.length * 3 / 4] with q3_def
  have order : q1 ≤ q3 :=
    sorted.rel_get_of_le (show (⟨prices.length / 4, by omega⟩ : Fin prices.length) ≤
      ⟨prices.length * 3 / 4, by omega⟩ from by simp; omega)
  have spread : 0 ≤ ((q3 - q1) * 3).tdiv 2 := Int.tdiv_nonneg (by omega) (by decide)
  set lower := q1 - ((q3 - q1) * 3).tdiv 2 with lower_def
  set upper := q3 + ((q3 - q1) * 3).tdiv 2 with upper_def
  have shape : withoutOutliers prices = within lower upper prices := by
    unfold withoutOutliers within
    dsimp only
    rw [first, third]
  have kept_first : q1 ∈ within lower upper prices := by
    refine List.mem_filter.mpr ⟨List.getElem_mem _, decide_eq_true ?_⟩
    omega
  rw [shape]
  refine ⟨countBelow lower prices, countAbove upper prices, sorted.filter _,
    List.filter_sublist.subset,
    List.length_pos_of_mem kept_first, length_eq_within prices (by omega), ?_, ?_, ?_, ?_⟩
  · -- what is below the lower bound is below the first quartile
    refine le_trans (List.countP_mono_left ?_)
      (countP_lt_getElem_le sorted (i := prices.length / 4) (by omega))
    intro x _ cut
    simp only [decide_eq_true_eq] at cut ⊢
    omega
  · refine le_trans (List.countP_mono_left ?_)
      (countP_gt_getElem_le sorted (i := prices.length * 3 / 4) (by omega))
    intro x _ cut
    simp only [decide_eq_true_eq] at cut ⊢
    omega
  · exact fun k inside => countP_lt_within prices sorted inside
  · exact fun k inside => countP_gt_within prices sorted inside

/-! The price. -/

section Price

variable {messages : List COraclePriceMessage}

theorem sortedPrices_perm (messages : List COraclePriceMessage) :
    (sortedPrices messages).Perm
      ((counted messages).map fun msg => (msg.price_micro_usd : ℤ)) :=
  List.perm_insertionSort _ _

theorem sortedPrices_sorted (messages : List COraclePriceMessage) :
    (sortedPrices messages).Pairwise (· ≤ ·) :=
  List.pairwise_insertionSort _ _

theorem length_sortedPrices (messages : List COraclePriceMessage) :
    (sortedPrices messages).length = (counted messages).length := by
  rw [(sortedPrices_perm messages).length_eq, List.length_map]

theorem countP_sortedPrices (messages : List COraclePriceMessage) (p : ℤ → Bool) :
    (sortedPrices messages).countP p =
      (counted messages).countP fun msg => p msg.price_micro_usd := by
  rw [(sortedPrices_perm messages).countP_eq, List.countP_map]
  rfl

theorem sortedPrices_nonneg : ∀ v ∈ sortedPrices messages, 0 ≤ v := by
  intro v member
  obtain ⟨msg, _, rfl⟩ := List.mem_map.mp ((sortedPrices_perm messages).mem_iff.mp member)
  exact Int.natCast_nonneg _

theorem sortedPrices_eq_of_perm {messages' : List COraclePriceMessage}
    (reordered : messages'.Perm messages) :
    sortedPrices messages' = sortedPrices messages := by
  have same := (sortedPrices_perm messages').trans
    (((reordered.filter _).map _).trans (sortedPrices_perm messages).symm)
  exact same.eq_of_pairwise' (sortedPrices_sorted _) (sortedPrices_sorted _)

theorem calculateConsensusPrice_eq_of_perm {messages' : List COraclePriceMessage}
    (reordered : messages'.Perm messages) :
    calculateConsensusPrice messages' = calculateConsensusPrice messages := by
  have same := sortedPrices_eq_of_perm reordered
  unfold sortedPrices counted at same
  unfold calculateConsensusPrice
  rw [same]

theorem calculateConsensusPrice_trimmed (some_price : sortedPrices messages ≠ []) :
    ∃ kept low high, Trimmed (sortedPrices messages) kept low high ∧
      calculateConsensusPrice messages = middle kept := by
  have sorted := sortedPrices_sorted messages
  by_cases few : (sortedPrices messages).length < 4
  · refine ⟨_, 0, 0, trimmed_self sorted some_price, ?_⟩
    exact (if_neg some_price).trans (if_pos few)
  · obtain ⟨low, high, trimmed⟩ := trimmed_withoutOutliers sorted some_price
    have kept : withoutOutliers (sortedPrices messages) ≠ [] :=
      List.length_pos_iff.mp trimmed.nonempty
    refine ⟨_, low, high, trimmed, ?_⟩
    have unfolded : calculateConsensusPrice messages =
        middle ((withoutOutliers (sortedPrices messages)).insertionSort (· ≤ ·)) :=
      (if_neg some_price).trans ((if_neg few).trans (if_neg kept))
    rw [unfolded, trimmed.sorted.insertionSort_eq]

/-- With less than three eighths of the prices adversarial, an honest price is at most the consensus
price and an honest one is at least it. -/
theorem honest_on_both_sides {adversarial : COraclePriceMessage → Bool} {f : ℕ}
    (few : (counted messages).countP adversarial ≤ f)
    (bound : 8 * f < 3 * (counted messages).length) :
    (∃ msg ∈ counted messages, adversarial msg = false ∧
      (msg.price_micro_usd : ℤ) ≤ calculateConsensusPrice messages) ∧
    (∃ msg ∈ counted messages, adversarial msg = false ∧
      calculateConsensusPrice messages ≤ (msg.price_micro_usd : ℤ)) := by
  have some_price : sortedPrices messages ≠ [] := by
    rw [← List.length_pos_iff, length_sortedPrices]
    omega
  obtain ⟨kept, low, high, trimmed, price⟩ := calculateConsensusPrice_trimmed some_price
  have nonempty := trimmed.nonempty
  have between := middle_between trimmed.sorted
    (fun v member => sortedPrices_nonneg v (trimmed.subset member)) nonempty
  have honest : (counted messages).length ≤
      ((counted messages).countP fun msg => !adversarial msg) + f := by
    have total := List.length_eq_countP_add_countP adversarial (l := counted messages)
    have same : ((counted messages).countP fun msg => decide ¬ adversarial msg = true) =
        (counted messages).countP fun msg => !adversarial msg := by
      congr
      funext msg
      cases adversarial msg <;> rfl
    rw [same] at total
    omega
  have sized := trimmed.length
  have lowQuarter := trimmed.low_quarter
  have highQuarter := trimmed.high_quarter
  rw [length_sortedPrices] at sized lowQuarter highQuarter
  rw [price]
  constructor
  · have above := trimmed.above ((kept.length - 1) / 2) (by omega)
    rw [countP_sortedPrices] at above
    have fewer : ((counted messages).countP fun msg =>
        decide (kept[(kept.length - 1) / 2] < (msg.price_micro_usd : ℤ))) <
        (counted messages).countP fun msg => !adversarial msg := lt_of_le_of_lt above (by omega)
    obtain ⟨msg, member, good, notAbove⟩ := exists_not_of_countP_lt fewer
    refine ⟨msg, member, by simpa using good, le_trans ?_ between.1⟩
    exact not_lt.mp (of_decide_eq_false notAbove)
  · have below := trimmed.below (kept.length / 2) (by omega)
    rw [countP_sortedPrices] at below
    have fewer : ((counted messages).countP fun msg =>
        decide ((msg.price_micro_usd : ℤ) < kept[kept.length / 2])) <
        (counted messages).countP fun msg => !adversarial msg := lt_of_le_of_lt below (by omega)
    obtain ⟨msg, member, good, notBelow⟩ := exists_not_of_countP_lt fewer
    refine ⟨msg, member, by simpa using good, le_trans between.2 ?_⟩
    exact not_lt.mp (of_decide_eq_false notBelow)

theorem getConsensusPrice_of_consensus {min_required : ℤ}
    (met : hasConsensus messages min_required = true) :
    getConsensusPrice messages min_required =
      pattern (2 ^ 64) (calculateConsensusPrice messages) := by
  have unfolded : calculateConsensusPrice messages =
      if sortedPrices messages = [] then 0
      else if (sortedPrices messages).length < 4 then middle (sortedPrices messages)
      else if withoutOutliers (sortedPrices messages) = [] then middle (sortedPrices messages)
      else middle ((withoutOutliers (sortedPrices messages)).insertionSort (· ≤ ·)) := rfl
  rw [unfolded, getConsensusPrice, if_neg (by rw [met]; decide)]
  dsimp only
  split_ifs <;> rfl

theorem calculateConsensusPrice_bounds (messages : List COraclePriceMessage) :
    0 ≤ calculateConsensusPrice messages ∧ calculateConsensusPrice messages < 2 ^ 64 := by
  by_cases some_price : sortedPrices messages = []
  · have zero : calculateConsensusPrice messages = 0 := if_pos some_price
    rw [zero]
    decide
  · obtain ⟨kept, low, high, trimmed, price⟩ := calculateConsensusPrice_trimmed some_price
    have nonempty := trimmed.nonempty
    have nonneg : ∀ v ∈ kept, 0 ≤ v := fun v member => sortedPrices_nonneg v (trimmed.subset member)
    have between := (middle_between trimmed.sorted nonneg nonempty).1
    have first := nonneg _ (List.getElem_mem (show (kept.length - 1) / 2 < kept.length by omega))
    rcases (show 0 ≤ calculateConsensusPrice messages by rw [price]; omega).eq_or_lt with zero |
      positive
    · rw [← zero]
      decide
    · have range := calculateConsensusPrice_range messages positive
      simp only [ORACLE_MIN_PRICE_MICRO_USD, ORACLE_MAX_PRICE_MICRO_USD] at range
      omega

end Price

/-- With less than three eighths of the prices in range adversarial, the consensus price lies
between two honest prices in range. The filter keeps some price, the order of the messages is of no
account, and the bundle computes the same price for any threshold that its messages meet. -/
theorem consensus_price_robust (messages : List COraclePriceMessage)
    (adversarial : COraclePriceMessage → Bool) (f : ℕ)
    (distinct : (messages.map COraclePriceMessage.oracle_id).Nodup)
    (few : (counted messages).countP adversarial ≤ f)
    (bound : 8 * f < 3 * (counted messages).length) :
    ((∃ msg ∈ counted messages, adversarial msg = false ∧
        (msg.price_micro_usd : ℤ) ≤ calculateConsensusPrice messages) ∧
      (∃ msg ∈ counted messages, adversarial msg = false ∧
        calculateConsensusPrice messages ≤ (msg.price_micro_usd : ℤ))) ∧
    withoutOutliers (sortedPrices messages) ≠ [] ∧
    (∀ messages' : List COraclePriceMessage, messages'.Perm messages →
      calculateConsensusPrice messages' = calculateConsensusPrice messages) ∧
    (∀ min_required : ℤ, 0 ≤ min_required → min_required ≤ messages.length →
      hasConsensus messages min_required = true) ∧
    (∀ min_required : ℤ, hasConsensus messages min_required = true →
      (getConsensusPrice messages min_required : ℤ) = calculateConsensusPrice messages) := by
  have some_price : sortedPrices messages ≠ [] := by
    rw [← List.length_pos_iff, length_sortedPrices]
    omega
  obtain ⟨low, high, trimmed⟩ := trimmed_withoutOutliers (sortedPrices_sorted messages) some_price
  refine ⟨honest_on_both_sides few bound, List.length_pos_iff.mp trimmed.nonempty, ?_, ?_, ?_⟩
  · intro messages' reordered
    exact calculateConsensusPrice_eq_of_perm reordered
  · intro min_required nonneg enough
    have converted := pattern_of_nonneg (2 ^ 64) nonneg
    have remainder : min_required % (2 ^ 64 : ℕ) ≤ min_required := by omega
    simp only [hasConsensus, Bool.and_eq_true, decide_eq_true_eq]
    exact ⟨distinct, by omega⟩
  · intro min_required met
    obtain ⟨nonneg, small⟩ := calculateConsensusPrice_bounds messages
    rw [getConsensusPrice_of_consensus met, pattern_of_nonneg _ nonneg]
    exact Int.emod_eq_of_lt nonneg (by omega)

namespace PriceSample

def price (id price_micro_usd : ℕ) : COraclePriceMessage where
  oracle_id := id
  price_micro_usd
  timestamp := 0
  block_height := 0
  nonce := 0
  oracle_pubkey := []
  schnorr_sig := []

/-- Five honest prices around 20000 and two that are far above. -/
def messages : List COraclePriceMessage :=
  [price 0 20000, price 1 20100, price 2 19900, price 3 20050, price 4 19950, price 5 9000000,
    price 6 9000000]

theorem two_of_seven_adversarial :
    calculateConsensusPrice messages = 20050 ∧
      ∃ msg ∈ counted messages, decide (5 ≤ msg.oracle_id) = false ∧
        calculateConsensusPrice messages ≤ (msg.price_micro_usd : ℤ) :=
  ⟨by decide +kernel,
    (consensus_price_robust messages (fun msg => 5 ≤ msg.oracle_id) 2 (by decide)
      (by decide +kernel)
      (by decide +kernel)).1.2⟩

end PriceSample

end DigiByte.Oracle
