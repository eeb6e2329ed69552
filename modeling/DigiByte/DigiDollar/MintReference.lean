import DigiByte.DigiDollar.Context
import DigiByte.Library.RankBounds

/-!
The ancestor price reference of a candidate block (`consensus/volatility.cpp`).

A pointer to a block index is the list of the block and of the blocks that its `pprev`
links lead to; the null pointer is the empty list.
-/

set_option autoImplicit false
set_option relaxedAutoImplicit false

namespace DigiByte.DigiDollar

open Consensus
open Library.RankBounds (IsLowerMedian isLowerMedian_insertionSort)

def MINT_REFERENCE_MIN_DEPTH : ℤ := 240
def MINT_REFERENCE_MAX_DEPTH : ℤ := 1440

inductive AncestorPriceResult where
  | noBundle
  | price
  | unavailable
  deriving DecidableEq, Repr

/-- The answer of a reader, which may leave the price and the error text as they were. -/
structure AncestorRead where
  status : AncestorPriceResult
  price : ℤ := 0
  error : Option String := none

/-- A reader is given a block and its ancestors. -/
abbrev AncestorPriceReader := BlockRef → List BlockRef → AncestorRead

def AncestorRead.Usable (read : AncestorRead) : Prop :=
  read.status ≠ .unavailable ∧ (read.status = .price → 0 < read.price)

instance (read : AncestorRead) : Decidable read.Usable := inferInstanceAs (Decidable (_ ∧ _))

/-- The loop over the ancestors, with the prices found so far and the error text. -/
def collectPrices (read_price : Option AncestorPriceReader) (oldest : ℤ) :
    ℤ → List BlockRef → List ℤ → String → Except String (List ℤ × String)
  | height, ancestor, prices, error =>
    if ¬ (height ≥ oldest ∧ prices.length < MINT_REFERENCE_SAMPLES) then .ok (prices, error)
    else
      match ancestor, read_price with
      | block :: pprev, some reader =>
        if block.nHeight ≠ height then
          .error "DigiDollar volatility state not ready: required ancestor data is unavailable"
        else
          let read := reader block pprev
          let error := read.error.getD error
          if read.status = .unavailable ∨ (read.status = .price ∧ read.price ≤ 0) then
            .error (if error = "" then
              "DigiDollar volatility state not ready: required ancestor price is unavailable"
                else error)
          else
            collectPrices (some reader) oldest (height - 1) pprev
              (if read.status = .price then prices ++ [read.price] else prices) error
      | _, _ =>
        .error "DigiDollar volatility state not ready: required ancestor data is unavailable"

/-- The end of the function: without prices the price keeps its initial value 0. -/
def MintReference.withPrices (result : MintReference) :
    Except String (List ℤ × String) → MintReference
  | .error error => { result with error }
  | .ok (prices, error) =>
    { result with
      ready := true, error, sample_count := prices.length
      price_micro_usd := (prices.insertionSort (· ≤ ·)).getD ((prices.length - 1) / 2) 0 }

def parentMismatched (candidate_height : ℤ) : List BlockRef → Bool
  | [] => candidate_height ≠ 0
  | block :: _ => block.nHeight ≠ candidate_height - 1

def buildMintReference (candidate_height : ℤ) (parent : List BlockRef) (params : Params)
    (read_price : Option AncestorPriceReader) : MintReference :=
  let result : MintReference := { candidate_height, genesis_hash := params.hashGenesisBlock }
  if candidate_height < 0 ∨ parentMismatched candidate_height parent then
    { result with
      error :=
        "DigiDollar volatility state not ready: candidate parent is unavailable or mismatched" }
  else
    let window_start_height := max 0 (candidate_height - MINT_REFERENCE_MAX_DEPTH)
    let window_end_height := candidate_height - MINT_REFERENCE_MIN_DEPTH
    let result := { result with
      parent_hash := (parent.head?.map BlockRef.hash).getD 0, window_start_height,
        window_end_height }
    let oldest := max window_start_height params.DigiDollarHeight
    result.withPrices <|
      if window_end_height ≥ oldest then
        collectPrices read_price oldest window_end_height
          (parent.dropWhile fun block => block.nHeight > window_end_height) [] ""
      else .ok ([], "")

/-! What the reference is meant to be. -/

/-- The height of each block is the number of its ancestors. -/
def Rooted : List BlockRef → Prop
  | [] => True
  | block :: pprev => block.nHeight = pprev.length ∧ Rooted pprev

/-- The prices of the ancestors in a range of heights, the most recent first. -/
def pricedAncestors (reader : AncestorPriceReader) (oldest last : ℤ) : List BlockRef → List ℤ
  | [] => []
  | block :: pprev =>
    if oldest ≤ block.nHeight ∧ block.nHeight ≤ last ∧ (reader block pprev).status = .price then
      (reader block pprev).price :: pricedAncestors reader oldest last pprev
    else pricedAncestors reader oldest last pprev

/-- The lowest height whose price may be used. -/
def oldestSample (params : Params) (h : ℤ) : ℤ :=
  max (max 0 (h - MINT_REFERENCE_MAX_DEPTH)) params.DigiDollarHeight

/-- The highest height whose price may be used. -/
def latestSample (h : ℤ) : ℤ := h - MINT_REFERENCE_MIN_DEPTH

/-- The prices of the most recent priced ancestors in the window. -/
def mintSamples (params : Params) (reader : AncestorPriceReader) (h : ℤ)
    (parent : List BlockRef) : List ℤ :=
  (pricedAncestors reader (oldestSample params h) (latestSample h) parent).take
    MINT_REFERENCE_SAMPLES

/-- The reader can read each ancestor in the window that fewer than 15 priced ones come before. -/
def ReadsNeeded (params : Params) (reader : AncestorPriceReader) (h : ℤ)
    (parent : List BlockRef) : Prop :=
  ∀ block pprev, block :: pprev <:+ parent → oldestSample params h ≤ block.nHeight →
    block.nHeight ≤ latestSample h →
      (pricedAncestors reader (block.nHeight + 1) (latestSample h) parent).length <
        MINT_REFERENCE_SAMPLES →
        (reader block pprev).Usable

/-- The ancestors up to a height. -/
def ancestorsUpTo (last : ℤ) (parent : List BlockRef) : List BlockRef :=
  parent.filter fun block => block.nHeight ≤ last

section Rooted

variable {reader : AncestorPriceReader} {chain : List BlockRef} {oldest last : ℤ}

theorem Rooted.suffix {rest : List BlockRef} (rooted : Rooted chain)
    (suffix : rest <:+ chain) : Rooted rest := by
  induction chain with
  | nil => rwa [List.suffix_nil.mp suffix]
  | cons block pprev ih =>
    rcases List.suffix_cons_iff.mp suffix with rfl | inside
    · exact rooted
    · exact ih rooted.2 inside

theorem Rooted.height_lt {block : BlockRef} (rooted : Rooted chain) (member : block ∈ chain) :
    block.nHeight < chain.length := by
  induction chain with
  | nil => cases member
  | cons first pprev ih =>
    rw [List.length_cons, Nat.cast_add, Nat.cast_one]
    rcases List.mem_cons.mp member with rfl | inside
    · rw [rooted.1]
      omega
    · have := ih rooted.2 inside
      omega

theorem pricedAncestors_of_high (rooted : Rooted chain) (high : (chain.length : ℤ) ≤ oldest) :
    pricedAncestors reader oldest last chain = [] := by
  induction chain with
  | nil => rfl
  | cons block pprev ih =>
    have height := rooted.1
    rw [List.length_cons, Nat.cast_add, Nat.cast_one] at high
    rw [pricedAncestors, if_neg (by omega)]
    exact ih rooted.2 (by omega)

theorem pricedAncestors_of_empty (empty : last < oldest) :
    pricedAncestors reader oldest last chain = [] := by
  induction chain with
  | nil => rfl
  | cons block pprev ih =>
    rw [pricedAncestors, if_neg (by omega)]
    exact ih

theorem pricedAncestors_cons {block : BlockRef} {pprev : List BlockRef}
    (low : oldest ≤ block.nHeight) (high : block.nHeight ≤ last) :
    pricedAncestors reader oldest last (block :: pprev) =
      if (reader block pprev).status = .price then
        (reader block pprev).price :: pricedAncestors reader oldest last pprev
      else pricedAncestors reader oldest last pprev := by
  simp only [pricedAncestors, low, high, true_and]

theorem Rooted.dropWhile_eq (rooted : Rooted chain) :
    (chain.dropWhile fun block => block.nHeight > last) = ancestorsUpTo last chain := by
  unfold ancestorsUpTo
  induction chain with
  | nil => rfl
  | cons block pprev ih =>
    by_cases above : block.nHeight > last
    · rw [List.dropWhile_cons_of_pos (by simpa using above),
      List.filter_cons_of_neg (by simpa using above)]
      exact ih rooted.2
    · rw [List.dropWhile_cons_of_neg (by simpa using above), Eq.comm, List.filter_eq_self]
      intro other member
      have height := rooted.height_lt member
      have first := rooted.1
      rw [List.length_cons, Nat.cast_add, Nat.cast_one] at height
      rw [decide_eq_true_eq]
      omega

theorem Rooted.length_ancestorsUpTo (rooted : Rooted chain) (start : -1 ≤ last)
    (inside : last < chain.length) :
    ((ancestorsUpTo last chain).length : ℤ) = last + 1 := by
  rw [← rooted.dropWhile_eq]
  induction chain with
  | nil =>
    rw [List.length_nil] at inside
    rw [List.dropWhile_nil, List.length_nil]
    omega
  | cons block pprev ih =>
    have height := rooted.1
    rw [List.length_cons, Nat.cast_add, Nat.cast_one] at inside
    by_cases above : block.nHeight > last
    · rw [List.dropWhile_cons_of_pos (by simpa using above)]
      exact ih rooted.2 (by omega)
    · rw [List.dropWhile_cons_of_neg (by simpa using above), List.length_cons, Nat.cast_add,
        Nat.cast_one]
      omega

theorem Rooted.pricedAncestors_upTo (rooted : Rooted chain) :
    pricedAncestors reader oldest last (ancestorsUpTo last chain) =
      pricedAncestors reader oldest last chain := by
  rw [← rooted.dropWhile_eq]
  induction chain with
  | nil => rfl
  | cons block pprev ih =>
    by_cases above : block.nHeight > last
    · rw [List.dropWhile_cons_of_pos (by simpa using above), pricedAncestors, if_neg (by omega)]
      exact ih rooted.2
    · rw [List.dropWhile_cons_of_neg (by simpa using above)]

end Rooted

theorem collectPrices_of_stop {read_price : Option AncestorPriceReader} {ancestor : List BlockRef}
    {oldest height : ℤ}
    {prices : List ℤ} {error : String}
    (stops : ¬ (height ≥ oldest ∧ prices.length < MINT_REFERENCE_SAMPLES)) :
    collectPrices read_price oldest height ancestor prices error = .ok (prices, error) := by
  unfold collectPrices
  exact if_pos stops

theorem collectPrices_of_usable {reader : AncestorPriceReader} {block : BlockRef}
    {pprev : List BlockRef}
    {oldest height : ℤ} {prices : List ℤ} (above : oldest ≤ height)
    (room : prices.length < MINT_REFERENCE_SAMPLES)
    (here : block.nHeight = height) (usable : (reader block pprev).Usable) (error : String) :
    collectPrices (some reader) oldest height (block :: pprev) prices error =
      collectPrices (some reader) oldest (height - 1) pprev
        (if (reader block pprev).status = .price then prices ++ [(reader block pprev).price]
          else prices)
        ((reader block pprev).error.getD error) := by
  have readable : ¬ ((reader block pprev).status = .unavailable ∨
      ((reader block pprev).status = .price ∧ (reader block pprev).price ≤ 0)) := by
    rintro (missing | ⟨priced, low⟩)
    · exact usable.1 missing
    · exact absurd (usable.2 priced) (by omega)
  rw [collectPrices, if_neg (not_not.mpr ⟨above, room⟩)]
  dsimp only
  rw [if_neg (not_not.mpr here), if_neg readable]

/-- The loop from a height on, in a chain whose first block has that height: it adds the prices of
the next priced ancestors, as many as are still missing. -/
theorem collectPrices_eq {reader : AncestorPriceReader} {ancestor : List BlockRef}
    {oldest last height : ℤ}
    {prices : List ℤ} (rooted : Rooted ancestor) (first : (ancestor.length : ℤ) = height + 1)
    (inside : height ≤ last) (start : 0 ≤ oldest)
    (reads : ∀ block pprev, block :: pprev <:+ ancestor → oldest ≤ block.nHeight →
      prices.length + (pricedAncestors reader (block.nHeight + 1) last ancestor).length <
        MINT_REFERENCE_SAMPLES →
        (reader block pprev).Usable) (error : String) :
    ∃ error', collectPrices (some reader) oldest height ancestor prices error =
      .ok (prices ++ (pricedAncestors reader oldest last ancestor).take
        (MINT_REFERENCE_SAMPLES - prices.length),
        error') := by
  induction ancestor generalizing height prices error with
  | nil =>
    rw [List.length_nil, Nat.cast_zero] at first
    refine ⟨error, ?_⟩
    rw [collectPrices_of_stop (by omega), pricedAncestors, List.take_nil, List.append_nil]
  | cons block pprev ih =>
    have blockHeight := rooted.1
    have length : ((block :: pprev).length : ℤ) = block.nHeight + 1 := by
      rw [blockHeight, List.length_cons, Nat.cast_add, Nat.cast_one]
    have here : block.nHeight = height := by omega
    by_cases stops : ¬ (height ≥ oldest ∧ prices.length < MINT_REFERENCE_SAMPLES)
    · refine ⟨error, ?_⟩
      rw [collectPrices_of_stop stops]
      by_cases full : prices.length < MINT_REFERENCE_SAMPLES
      · rw [pricedAncestors_of_high rooted (by omega), List.take_nil, List.append_nil]
      · rw [Nat.sub_eq_zero_of_le (not_lt.mp full), List.take_zero, List.append_nil]
    · obtain ⟨above, room⟩ := not_not.mp stops
      have usable : (reader block pprev).Usable := by
        apply reads block pprev List.suffix_rfl (by omega)
        rw [pricedAncestors_of_high rooted (by omega), List.length_nil]
        exact room
      rw [collectPrices_of_usable above room here usable,
        pricedAncestors_cons (by omega) (by omega)]
      have later : ∀ other rest, other :: rest <:+ pprev → other.nHeight + 1 ≤ block.nHeight := by
        intro other rest suffix
        have := rooted.2.height_lt (suffix.subset List.mem_cons_self)
        omega
      by_cases priced : (reader block pprev).status = .price
      · rw [if_pos priced, if_pos priced]
        obtain ⟨error', collected⟩ :=
          @ih (height - 1) (prices ++ [(reader block pprev).price]) rooted.2
          (by omega) (by omega) (by
            intro other rest suffix low few
            apply reads other rest (suffix.trans (List.suffix_cons _ _)) low
            rw [pricedAncestors_cons (later other rest suffix) (by omega), if_pos priced,
              List.length_cons]
            rw [List.length_append, List.length_singleton] at few
            omega) ((reader block pprev).error.getD error)
        refine ⟨error', ?_⟩
        rw [collected, List.length_append, List.length_singleton, List.append_assoc,
          List.singleton_append]
        obtain ⟨missing, count⟩ := Nat.exists_eq_add_of_lt room
        rw [count, show prices.length + missing + 1 - (prices.length + 1) = missing by omega,
          show prices.length + missing + 1 - prices.length = missing + 1 by omega,
          List.take_succ_cons]
      · rw [if_neg priced, if_neg priced]
        apply ih rooted.2 (by omega) (by omega)
        intro other rest suffix low few
        apply reads other rest (suffix.trans (List.suffix_cons _ _)) low
        rw [pricedAncestors_cons (later other rest suffix) (by omega), if_neg priced]
        exact few

theorem collectPrices_pos {read_price : Option AncestorPriceReader} {ancestor : List BlockRef}
    {oldest height : ℤ} {prices found : List ℤ} {error error' : String}
    (result : collectPrices read_price oldest height ancestor prices error = .ok (found, error'))
    (positive : ∀ price ∈ prices, 0 < price) : ∀ price ∈ found, 0 < price := by
  induction ancestor generalizing height prices error with
  | nil =>
    by_cases stops : ¬ (height ≥ oldest ∧ prices.length < MINT_REFERENCE_SAMPLES)
    · rw [collectPrices_of_stop stops] at result
      cases result
      exact positive
    · unfold collectPrices at result
      rw [if_neg stops] at result
      cases result
  | cons block pprev ih =>
    by_cases stops : ¬ (height ≥ oldest ∧ prices.length < MINT_REFERENCE_SAMPLES)
    · rw [collectPrices_of_stop stops] at result
      cases result
      exact positive
    · unfold collectPrices at result
      rw [if_neg stops] at result
      cases read_price with
      | none => cases result
      | some reader =>
        dsimp only at result
        split_ifs at result with _ refused priced
        · refine ih result ?_
          intro price member
          rcases List.mem_append.mp member with old | new
          · exact positive price old
          · rw [List.mem_singleton.mp new]
            by_contra low
            exact refused (.inr ⟨priced, not_lt.mp low⟩)
        · exact ih result positive

section Reference

variable {params : Params} {reader : AncestorPriceReader} {h : ℤ} {parent : List BlockRef}

/-- What the walk over the window finds. -/
private def windowPrices (params : Params) (read_price : Option AncestorPriceReader) (h : ℤ)
    (parent : List BlockRef) : Except String (List ℤ × String) :=
  if latestSample h ≥ oldestSample params h then
    collectPrices read_price (oldestSample params h) (latestSample h)
      (ancestorsUpTo (latestSample h) parent) [] ""
  else .ok ([], "")

private theorem buildMintReference_eq (read_price : Option AncestorPriceReader)
    (rooted : Rooted parent) (height : (parent.length : ℤ) = h) :
    ∃ start : MintReference, start.rules_version = MINT_REFERENCE_RULE_VERSION ∧
      start.sample_count = 0 ∧
      start.price_micro_usd = 0 ∧
      buildMintReference h parent params read_price =
        start.withPrices (windowPrices params read_price h parent) := by
  have fits : ¬ (h < 0 ∨ parentMismatched h parent) := by
    rintro (negative | mismatched)
    · omega
    · cases parent with
      | nil =>
        rw [List.length_nil, Nat.cast_zero] at height
        exact of_decide_eq_true mismatched height.symm
      | cons block pprev =>
        rw [List.length_cons, Nat.cast_add, Nat.cast_one] at height
        exact of_decide_eq_true mismatched (by rw [rooted.1]; omega)
  unfold buildMintReference
  dsimp only
  rw [if_neg fits, rooted.dropWhile_eq]
  exact ⟨_, rfl, rfl, rfl, rfl⟩

private theorem windowPrices_ok (rooted : Rooted parent) (height : (parent.length : ℤ) = h)
    (reads : ReadsNeeded params reader h parent) :
    ∃ error, windowPrices params (some reader) h parent =
      .ok (mintSamples params reader h parent, error) := by
  have start : 0 ≤ oldestSample params h := (le_max_left _ _).trans (le_max_left _ _)
  unfold windowPrices
  by_cases window : latestSample h ≥ oldestSample params h
  · rw [if_pos window]
    have inside : latestSample h < parent.length := by
      unfold latestSample MINT_REFERENCE_MIN_DEPTH
      omega
    have first := rooted.length_ancestorsUpTo (by omega) inside
    have upTo : ancestorsUpTo (latestSample h) parent <:+ parent := by
      rw [← rooted.dropWhile_eq]
      exact List.dropWhile_suffix _
    obtain ⟨error, found⟩ :=
      @collectPrices_eq reader _ _ _ _ [] (rooted.suffix upTo) first le_rfl start (by
        intro block pprev suffix low few
        have within := (rooted.suffix upTo).height_lt (suffix.subset List.mem_cons_self)
        rw [List.length_nil, Nat.zero_add, rooted.pricedAncestors_upTo] at few
        exact reads block pprev (suffix.trans upTo) low (by omega) few) ""
    refine ⟨error, ?_⟩
    rw [found, rooted.pricedAncestors_upTo, List.nil_append, List.length_nil, Nat.sub_zero]
    rfl
  · rw [if_neg window]
    refine ⟨"", ?_⟩
    rw [mintSamples, pricedAncestors_of_empty (not_le.mp window), List.take_nil]

private theorem mintSamples_pos (rooted : Rooted parent) (height : (parent.length : ℤ) = h)
    (reads : ReadsNeeded params reader h parent) :
    ∀ price ∈ mintSamples params reader h parent, 0 < price := by
  obtain ⟨error, found⟩ := windowPrices_ok rooted height reads
  unfold windowPrices at found
  split_ifs at found
  · exact collectPrices_pos found (by simp)
  · rw [Except.ok.injEq, Prod.mk.injEq] at found
    rw [← found.1]
    simp

private theorem quote_available_eq (candidate : ℤ) (reference : MintReference) :
    (evaluateMintPrice candidate reference).quote_available = decide (0 < candidate) := by
  unfold evaluateMintPrice
  split_ifs <;> rfl

private theorem bounds_of_unrestricted {candidate : ℤ} {reference : MintReference}
    (ready : reference.ready = true)
    (version : reference.rules_version = MINT_REFERENCE_RULE_VERSION)
    (sampled : reference.sample_count ≠ 0)
    (capped : reference.sample_count ≤ MINT_REFERENCE_SAMPLES)
    (positive : 0 < reference.price_micro_usd)
    (quoted : (evaluateMintPrice candidate reference).quote_available = true)
    (unrestricted : (evaluateMintPrice candidate reference).restricted = false) :
    4 * reference.price_micro_usd < 5 * candidate ∧
      5 * candidate < 6 * reference.price_micro_usd := by
  rw [quote_available_eq, decide_eq_true_eq] at quoted
  unfold evaluateMintPrice at unrestricted
  rw [if_neg (not_not.mpr quoted), if_neg (by simp [ready, version]), if_neg sampled,
    if_neg (by omega)] at unrestricted
  have near := of_decide_eq_false unrestricted
  unfold MINT_MAX_DEVIATION_BPS at near
  rcases abs_cases (candidate - reference.price_micro_usd) with ⟨same, _⟩ |
    ⟨same, _⟩ <;> rw [same] at near <;> omega

end Reference

/-- The reference of a candidate depends on the ancestors up to 240 blocks below it only. When
they can be read, it is the lower median of the most recent prices in the window, it stays where
all but a minority of them lie, and a price that it does not restrict is within 20% of there. -/
theorem mint_reference_stable_median (params : Params) (reader : AncestorPriceReader) (h : ℤ)
    (parent : List BlockRef) (rooted : Rooted parent) (height : (parent.length : ℤ) = h) :
    (∀ parent', Rooted parent' → (parent'.length : ℤ) = h →
      ancestorsUpTo (h - 240) parent' = ancestorsUpTo (h - 240) parent →
      (buildMintReference h parent' params (some reader)).price_micro_usd =
          (buildMintReference h parent params (some reader)).price_micro_usd ∧
        (buildMintReference h parent' params (some reader)).sample_count =
          (buildMintReference h parent params (some reader)).sample_count) ∧
    (ReadsNeeded params reader h parent →
      let samples := mintSamples params reader h parent
      let reference := buildMintReference h parent params (some reader)
      reference.ready = true ∧ reference.sample_count = samples.length ∧
        (0 < samples.length → IsLowerMedian reference.price_micro_usd samples ∧
          ∀ lo hi, (samples.countP fun price => ¬ (lo ≤ price ∧ price ≤ hi)) ≤
            (samples.length - 1) / 2 →
            (lo ≤ reference.price_micro_usd ∧ reference.price_micro_usd ≤ hi) ∧
            ∀ candidate, (evaluateMintPrice candidate reference).quote_available = true →
              (evaluateMintPrice candidate reference).restricted = false →
                4 * lo < 5 * candidate ∧ 5 * candidate < 6 * hi)) := by
  obtain ⟨start, version, count, price, built⟩ :=
    @buildMintReference_eq params h parent (some reader) rooted height
  constructor
  · intro parent' rooted' height' shared
    obtain ⟨start', _, count', price', built'⟩ :=
      @buildMintReference_eq params h parent' (some reader) rooted' height'
    have same : windowPrices params (some reader) h parent' =
        windowPrices params (some reader) h parent := by
      unfold windowPrices latestSample MINT_REFERENCE_MIN_DEPTH
      rw [shared]
    rw [built, built', same]
    cases windowPrices params (some reader) h parent with
    | error error => exact ⟨price'.trans price.symm, count'.trans count.symm⟩
    | ok found => exact ⟨rfl, rfl⟩
  · intro reads
    obtain ⟨error, found⟩ := windowPrices_ok rooted height reads
    dsimp only
    rw [built, found]
    refine ⟨rfl, rfl, ?_⟩
    intro sampled
    have median : IsLowerMedian
        (start.withPrices (.ok (mintSamples params reader h parent, error))).price_micro_usd
        (mintSamples params reader h parent) := isLowerMedian_insertionSort sampled 0
    refine ⟨median, ?_⟩
    intro lo hi few
    obtain ⟨low, high⟩ := median.mem_interval few
    refine ⟨⟨low, high⟩, ?_⟩
    intro candidate quoted unrestricted
    obtain ⟨lowest, member, atMost⟩ := median.exists_le
    have positive := mintSamples_pos rooted height reads lowest member
    obtain ⟨above, below⟩ :=
      @bounds_of_unrestricted candidate (start.withPrices (.ok (_, error))) rfl version
      (Nat.ne_of_gt sampled) (List.length_take_le _ _) (positive.trans_le atMost) quoted
        unrestricted
    exact ⟨by omega, by omega⟩

namespace ReferenceSample

/-- A chain of blocks whose hashes are their heights. -/
def blocks : ℕ → List BlockRef
  | 0 => []
  | n + 1 => ⟨n, n⟩ :: blocks n

theorem length_blocks (n : ℕ) : (blocks n).length = n := by
  induction n with
  | zero => rfl
  | succ n ih => rw [blocks, List.length_cons, ih]

theorem rooted_blocks (n : ℕ) : Rooted (blocks n) := by
  induction n with
  | zero => trivial
  | succ n ih =>
    refine ⟨?_, ih⟩
    rw [length_blocks]

/-- The genesis block has a price out of line. -/
def reader : AncestorPriceReader := fun block _ =>
  if block.nHeight = 0 then ⟨.price, 5000, none⟩
  else if block.nHeight = 1 then ⟨.price, 110, none⟩
  else if block.nHeight = 2 then ⟨.price, 100, none⟩
  else ⟨.noBundle, 0, none⟩

theorem reader_usable (block : BlockRef) (pprev : List BlockRef) : (reader block pprev).Usable := by
  unfold reader
  split_ifs <;> decide

/-- Three samples of which one is arbitrary, and a price of 120 against them. -/
theorem reference_within_samples :
    (buildMintReference 242 (blocks 242) { DigiDollarHeight := 0 } (some reader)).ready = true ∧
      (mintSamples { DigiDollarHeight := 0 } reader 242 (blocks 242)).length = 3 ∧
      (4 * 100 < 5 * (120 : ℤ) ∧ 5 * (120 : ℤ) < 6 * 110) := by
  obtain ⟨_, described⟩ :=
    mint_reference_stable_median { DigiDollarHeight := 0 } reader 242 (blocks 242)
    (rooted_blocks 242) (by rw [length_blocks]; rfl)
  obtain ⟨ready, _, bounded⟩ := described fun block pprev _ _ _ _ => reader_usable block pprev
  have three : (mintSamples { DigiDollarHeight := 0 } reader 242 (blocks 242)).length = 3 := by
    decide +kernel
  obtain ⟨_, robust⟩ := bounded (by rw [three]; decide)
  exact ⟨ready, three, (robust 100 110 (by decide +kernel)).2 120 (by decide +kernel)
    (by decide +kernel)⟩

end ReferenceSample

end DigiByte.DigiDollar
