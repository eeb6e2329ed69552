import DigiByte.Library.OrderedMap
import Mathlib.Algebra.Order.Group.Int

/-!
The cache of on-chain oracle prices while blocks are connected and disconnected
(`bundle_manager.cpp`).
-/

set_option autoImplicit false
set_option relaxedAutoImplicit false

namespace DigiByte.Oracle

open Library (OrderedMap)

structure PriceCache where
  height_to_price : OrderedMap ℤ UInt64 := .empty
  height_to_price_time : OrderedMap ℤ ℤ := .empty
  cached_price : ℤ := 0
  last_update_time : ℤ := 0

/-- `static_cast<CAmount>` of a price. -/
def amountOfPrice (price_micro_usd : UInt64) : ℤ := price_micro_usd.toInt64.toInt

namespace PriceCache

def MAX_CACHED_PRICES : ℕ := 1000

/-- Drop the lowest height of a cache that holds too many. -/
def limited (cache : PriceCache) : PriceCache :=
  if cache.height_to_price.size > MAX_CACHED_PRICES then
    match cache.height_to_price.entries with
    | [] => cache
    | (erase_height, _) :: _ => { cache with
        height_to_price := cache.height_to_price.erase erase_height
        height_to_price_time := cache.height_to_price_time.erase erase_height }
  else cache

/-- `UpdatePriceCache` at the time `now`. -/
def updatePriceCache (cache : PriceCache) (now height : ℤ) (price_micro_usd : UInt64)
    (source_time : ℤ) :
    PriceCache :=
  let effective_update_time := if source_time > 0 then source_time else now
  { limited { cache with
      height_to_price := cache.height_to_price.assign height price_micro_usd
      height_to_price_time := cache.height_to_price_time.assign height effective_update_time } with
    cached_price := amountOfPrice price_micro_usd
    last_update_time := effective_update_time }

/-- The latest price and time read off the greatest height. -/
def reverted (cache : PriceCache) : PriceCache :=
  match cache.height_to_price.last with
  | none => { cache with cached_price := 0, last_update_time := 0 }
  | some (restored_height, price) => { cache with
      cached_price := amountOfPrice price
      last_update_time := (cache.height_to_price_time.find restored_height).getD 0 }

def removePriceCache (cache : PriceCache) (height : ℤ) : PriceCache :=
  match cache.height_to_price.find height with
  | none => cache
  | some _ => reverted { cache with
      height_to_price := cache.height_to_price.erase height
      height_to_price_time := cache.height_to_price_time.erase height }

end PriceCache

/-! Connecting and disconnecting blocks. -/

/-- The price and the time in the bundle of a block. -/
structure BundlePrice where
  median_price_micro_usd : UInt64
  timestamp : ℤ
  positive : 0 < timestamp

structure PricedBlock where
  nHeight : ℤ
  bundle : Option BundlePrice

/-- The cache after a block is connected at the time `now`. -/
def PriceCache.connect (cache : PriceCache) (now : ℤ) (block : PricedBlock) : PriceCache :=
  match block.bundle with
  | none => cache
  | some bundle => cache.updatePriceCache now block.nHeight bundle.median_price_micro_usd
      bundle.timestamp

/-- The heights with a price among the connected blocks. -/
def pricedHeights (connected : List PricedBlock) : ℕ :=
  connected.countP fun block => block.bundle.isSome

/-- The connected blocks, the tip first, and the cache after a run from an empty cache that
never holds more than 1000 prices. -/
inductive CacheRun : List PricedBlock → PriceCache → Prop
  | start : CacheRun [] {}
  | connect {connected : List PricedBlock} {cache : PriceCache} (now : ℤ) {block : PricedBlock} :
      CacheRun connected cache → (∀ tip ∈ connected.head?, tip.nHeight < block.nHeight) →
      pricedHeights (block :: connected) ≤ PriceCache.MAX_CACHED_PRICES →
      CacheRun (block :: connected) (cache.connect now block)
  | disconnect {tip : PricedBlock} {connected : List PricedBlock} {cache : PriceCache} :
      CacheRun (tip :: connected) cache → CacheRun connected (cache.removePriceCache tip.nHeight)

/-- The cache from connecting these blocks only, the tip last, at the times `now`. -/
def replay (now : PricedBlock → ℤ) : List PricedBlock → PriceCache
  | [] => {}
  | tip :: connected => (replay now connected).connect (now tip) tip

/-! The invariant of the cache. -/

/-- Every height of the cache is below a bound. -/
def PriceCache.Below (cache : PriceCache) (height : ℤ) : Prop :=
  (∀ entry ∈ cache.height_to_price.entries, entry.1 < height) ∧
    ∀ entry ∈ cache.height_to_price_time.entries, entry.1 < height

/-- Heights grow from each block to the next. -/
def Ascending : List PricedBlock → Prop
  | [] => True
  | tip :: connected => (∀ before ∈ connected.head?, before.nHeight < tip.nHeight) ∧
      Ascending connected

/-- The cache of a connected chain: its latest values belong to the greatest height, and it holds
one price for each block with a bundle, none above the tip. -/
structure PriceCache.Holds (cache : PriceCache) (connected : List PricedBlock) : Prop where
  latest : cache.reverted = cache
  size : cache.height_to_price.size = pricedHeights connected
  below : ∀ height, (∀ tip ∈ connected.head?, tip.nHeight < height) → cache.Below height

namespace PriceCache

variable {cache : PriceCache} {height : ℤ}

private theorem reverted_of_maps (prices : OrderedMap ℤ UInt64) (times : OrderedMap ℤ ℤ)
    (price time price' time' : ℤ) :
    reverted ⟨prices, times, price, time⟩ = reverted ⟨prices, times, price', time'⟩ := by
  unfold reverted
  cases prices.last <;> rfl

theorem updatePriceCache_eq (below : cache.Below height)
    (room : cache.height_to_price.size < MAX_CACHED_PRICES)
    (now : ℤ) (price : UInt64) {source_time : ℤ} (positive : 0 < source_time) :
    cache.updatePriceCache now height price source_time =
      ⟨cache.height_to_price.assign height price,
        cache.height_to_price_time.assign height source_time,
        amountOfPrice price, source_time⟩ := by
  have size := OrderedMap.size_assign_above below.1 price
  have fits : ¬(cache.height_to_price.assign height price).size > MAX_CACHED_PRICES := by omega
  rw [updatePriceCache, if_pos positive]
  simp only [limited, if_neg fits]

theorem removePriceCache_updated (below : cache.Below height) (price : UInt64)
    (time latest latest' : ℤ) :
    removePriceCache ⟨cache.height_to_price.assign height price,
      cache.height_to_price_time.assign height time, latest, latest'⟩ height = cache.reverted := by
  unfold removePriceCache
  rw [OrderedMap.find_assign, if_pos rfl]
  simp only [OrderedMap.erase_assign_above below.1, OrderedMap.erase_assign_above below.2]
  exact reverted_of_maps _ _ _ _ _ _

theorem removePriceCache_absent (below : cache.Below height) :
    cache.removePriceCache height = cache := by
  rw [removePriceCache, OrderedMap.find_above below.1]

theorem Holds.start : Holds {} [] where
  latest := rfl
  size := rfl
  below _ _ := ⟨List.forall_mem_nil _, List.forall_mem_nil _⟩

theorem Holds.connect {connected : List PricedBlock} {block : PricedBlock}
    (holds : cache.Holds connected) (above : ∀ tip ∈ connected.head?, tip.nHeight < block.nHeight)
    (few : pricedHeights (block :: connected) ≤ MAX_CACHED_PRICES) (now : ℤ) :
    (cache.connect now block).Holds (block :: connected) := by
  have lower := holds.below block.nHeight above
  cases carried : block.bundle with
  | none =>
    have same : cache.connect now block = cache := by rw [PriceCache.connect, carried]
    rw [same]
    refine ⟨holds.latest, ?_, ?_⟩
    · rw [holds.size, pricedHeights, pricedHeights, List.countP_cons_of_neg (by simp [carried])]
    · intro height greater
      have step := greater block rfl
      exact holds.below height fun tip member => (above tip member).trans step
  | some bundle =>
    have counted : pricedHeights (block :: connected) = pricedHeights connected + 1 :=
      List.countP_cons_of_pos (by simp [carried])
    have updated : cache.connect now block =
        ⟨cache.height_to_price.assign block.nHeight bundle.median_price_micro_usd,
        cache.height_to_price_time.assign block.nHeight bundle.timestamp,
        amountOfPrice bundle.median_price_micro_usd, bundle.timestamp⟩ := by
      rw [PriceCache.connect, carried]
      exact updatePriceCache_eq lower (by rw [holds.size]; omega) now _ bundle.positive
    rw [updated]
    refine ⟨?_, ?_, ?_⟩
    · simp only [reverted, OrderedMap.last_assign_above lower.1, OrderedMap.find_assign, if_true,
        Option.getD_some]
    · rw [counted, ← holds.size]
      exact OrderedMap.size_assign_above lower.1 _
    · intro height greater
      have step := greater block rfl
      exact ⟨OrderedMap.assign_below lower.1 _ step, OrderedMap.assign_below lower.2 _ step⟩

theorem Holds.disconnect {connected : List PricedBlock} {block : PricedBlock}
    (holds : cache.Holds connected) (above : ∀ tip ∈ connected.head?, tip.nHeight < block.nHeight)
    (few : pricedHeights (block :: connected) ≤ MAX_CACHED_PRICES) (now : ℤ) :
    (cache.connect now block).removePriceCache block.nHeight = cache := by
  have lower := holds.below block.nHeight above
  unfold PriceCache.connect
  cases carried : block.bundle with
  | none => exact removePriceCache_absent lower
  | some bundle =>
    have counted : pricedHeights (block :: connected) = pricedHeights connected + 1 :=
      List.countP_cons_of_pos (by simp [carried])
    dsimp only
    rw [updatePriceCache_eq lower (by rw [holds.size]; omega) now _ bundle.positive,
      removePriceCache_updated lower]
    exact holds.latest

end PriceCache

section Replay

variable {connected : List PricedBlock}

theorem pricedHeights_le_cons (tip : PricedBlock) :
    pricedHeights connected ≤ pricedHeights (tip :: connected) :=
  List.Sublist.countP_le (List.sublist_cons_self tip connected)

theorem holds_replay (now : PricedBlock → ℤ) (ascending : Ascending connected)
    (few : pricedHeights connected ≤ PriceCache.MAX_CACHED_PRICES) :
    (replay now connected).Holds connected := by
  induction connected with
  | nil => exact .start
  | cons tip connected ih =>
    exact (ih ascending.2 ((pricedHeights_le_cons tip).trans few)).connect ascending.1 few (now tip)

theorem PriceCache.connect_now (cache : PriceCache) (now now' : ℤ) (block : PricedBlock) :
    cache.connect now block = cache.connect now' block := by
  unfold PriceCache.connect
  cases block.bundle with
  | none => rfl
  | some bundle =>
    dsimp only
    rw [updatePriceCache, updatePriceCache, if_pos bundle.positive, if_pos bundle.positive]

end Replay

/-- After any run of connecting and disconnecting, the cache is the one from connecting the blocks
that are connected now. -/
theorem disconnect_restores_price_cache {connected : List PricedBlock} {cache : PriceCache}
    (run : CacheRun connected cache) (now : PricedBlock → ℤ) : cache = replay now connected := by
  have invariant : Ascending connected ∧ pricedHeights connected ≤ PriceCache.MAX_CACHED_PRICES ∧
      cache = replay now connected := by
    induction run with
    | start => exact ⟨trivial, Nat.zero_le _, rfl⟩
    | @connect connected cache time block _ above few ih =>
      obtain ⟨ascending, _, same⟩ := ih
      refine ⟨⟨above, ascending⟩, few, ?_⟩
      rw [same]
      exact PriceCache.connect_now _ _ _ _
    | @disconnect tip connected cache _ ih =>
      obtain ⟨⟨above, ascending⟩, few, same⟩ := ih
      have fewer := (pricedHeights_le_cons tip).trans few
      have holds := holds_replay now ascending fewer
      refine ⟨ascending, fewer, ?_⟩
      rw [same]
      exact holds.disconnect above few (now tip)
  exact invariant.2.2

namespace CacheSample

def block100 : PricedBlock := ⟨100, some ⟨6500, 1000, by decide⟩⟩

def block101 : PricedBlock := ⟨101, none⟩

def block105 : PricedBlock := ⟨105, some ⟨7000, 1015, by decide⟩⟩

theorem run_restores :
    (((({} : PriceCache).connect 5 block100).connect 6 block101).connect 7 block105
      |>.removePriceCache 105 |>.removePriceCache 101) = replay (fun _ => 0) [block100] := by
  apply disconnect_restores_price_cache
  apply @CacheRun.disconnect block101
  apply @CacheRun.disconnect block105
  apply CacheRun.connect
  · apply CacheRun.connect
    · apply CacheRun.connect
      · exact .start
      · decide
      · decide
    · decide
    · decide
  · decide
  · decide

end CacheSample

end DigiByte.Oracle
