import DigiByte.DigiDollar.Mint
import DigiByte.DigiDollar.Volatility
import DigiByte.Library.BoundedHistory
import Mathlib.Data.List.Induction

/-!
The freezes of the volatility monitor across restarts and reorganisations.

A running node folds the freeze over the blocks; a restarting node samples the blocks
again and evaluates the thresholds once. The two keep the same price history: what a
running node drops early, a restarting node drops when it cleans the whole. Their
freezes can only differ where a freeze outlives the crossing that caused it.
-/

set_option autoImplicit false
set_option relaxedAutoImplicit false

namespace DigiByte.DigiDollar.Volatility

open Library.BoundedHistory
open Script (TaprootCurve)

/-- A block as the startup scan reads it, with the price of its oracle bundle if it carries
a valid one. -/
structure ScannedBlock where
  height : ℕ
  nTime : ℤ
  median_price_micro_usd : Option ℕ
  hasMint : Bool

/-- The price point of a block with a priced mint. -/
def ScannedBlock.mintPoint (block : ScannedBlock) : Option PricePoint :=
  match block.median_price_micro_usd with
  | none => none
  | some price =>
    if price = 0 then none
    else if block.hasMint then some ⟨price, block.nTime, block.height⟩
    else none

def VOLATILITY_HISTORY_BLOCKS : ℕ := 30 * 24 * 60 * 4

/-- The first height that `LoadPricesFromChain` scans. -/
def startHeight (tip_height : ℕ) : ℕ := tip_height - min VOLATILITY_HISTORY_BLOCKS tip_height + 1

/-- A price at least an hour after the last sample is sampled. -/
def sample (prices : List PricePoint) (point : PricePoint) : List PricePoint :=
  if Monitor.tooRecent prices point.timestamp then prices else prices ++ [point]

/-- The sampling loop of `LoadPricesFromChain`. -/
def volatilityPrices (tip_height : ℕ) (chain : List ScannedBlock) : List PricePoint :=
  chain.foldl
    (fun prices block =>
      if block.height < startHeight tip_height ∨ tip_height < block.height then prices
      else (block.mintPoint).elim prices (sample prices))
    []

/-- The monitor of a node that restarts at the tip. -/
def rebuilt (tip_height : ℕ) (chain : List ScannedBlock) : Monitor :=
  .reconstructFromBlockData (volatilityPrices tip_height chain) tip_height

/-- The monitor of a node that connected these priced mints. -/
def connected (now : ℤ) (points : List PricePoint) : Monitor :=
  points.foldl (Monitor.connectMint now) {}

/-- The monitor of a node that connected the blocks of a chain. -/
def running (now : ℤ) (chain : List ScannedBlock) : Monitor :=
  chain.foldl (fun monitor block => (block.mintPoint).elim monitor (monitor.connectMint now)) {}

/-- Priced mints with in-range prices, at increasing heights and positive times. -/
structure MintChain (points : List PricePoint) : Prop where
  price : ∀ point ∈ points,
    ORACLE_MIN_PRICE_MICRO_USD ≤ point.price ∧ point.price ≤ ORACLE_MAX_PRICE_MICRO_USD
  time : ∀ point ∈ points, 0 < point.timestamp
  times : points.Pairwise fun earlier later => earlier.timestamp < later.timestamp
  heights : points.Pairwise fun earlier later => earlier.height < later.height

theorem MintChain.init {points rest : List PricePoint} (chain : MintChain (points ++ rest)) :
    MintChain points where
  price point member := chain.price point (List.mem_append_left rest member)
  time point member := chain.time point (List.mem_append_left rest member)
  times := (List.pairwise_append.mp chain.times).1
  heights := (List.pairwise_append.mp chain.heights).1

/-! The freeze that a history alone gives. -/

def crossesMint (history : List PricePoint) : Bool :=
  (VolatilityState.measure history {}).shouldFreezeMint

def crossesAll (history : List PricePoint) : Bool :=
  (VolatilityState.measure history {}).shouldFreezeAll

def calm (history : List PricePoint) : Bool := (VolatilityState.measure history {}).canUnfreeze

/-- The answers of `ShouldFreezeMinting` and `ShouldFreezeAll`. -/
def VolatilityState.flags (state : VolatilityState) : Bool × Bool :=
  (state.mintingFrozen, state.allOperationsFrozen)

/-- The flags of a state that remembers no freeze. -/
def thresholdFlags (history : List PricePoint) : Bool × Bool :=
  (crossesMint history || crossesAll history, crossesAll history)

/-- The flags hold at least what the thresholds of the history give. -/
structure Covers (history : List PricePoint) (state : VolatilityState) : Prop where
  all : crossesAll history → state.allOperationsFrozen
  mint : crossesMint history → state.mintingFrozen
  order : state.allOperationsFrozen → state.mintingFrozen

section State

variable {history : List PricePoint} {state : VolatilityState} {height : ℕ}

theorem not_calm_of_crossesMint (crosses : crossesMint history) : calm history = false := by
  unfold crossesMint VolatilityState.shouldFreezeMint FREEZE_MINT_1H_BPS at crosses
  unfold calm VolatilityState.canUnfreeze WARNING_1H_BPS
  have high := of_decide_eq_true crosses
  have not_low : ¬ (VolatilityState.measure history {}).hourlyVolatilityBps < 1000 := by omega
  simp [not_low]

theorem not_calm_of_crossesAll (crosses : crossesAll history) : calm history = false := by
  unfold crossesAll VolatilityState.shouldFreezeAll FREEZE_ALL_24H_BPS EMERGENCY_7D_BPS at crosses
  unfold calm VolatilityState.canUnfreeze FREEZE_MINT_1H_BPS FREEZE_ALL_24H_BPS
  simp only [Bool.or_eq_true, decide_eq_true_eq] at crosses
  rcases crosses with daily | weekly
  · have not_low : ¬ (VolatilityState.measure history {}).dailyVolatilityBps < 2000 := by omega
    simp [not_low]
  · have not_low : ¬ (VolatilityState.measure history {}).weeklyVolatilityBps < 3000 := by omega
    simp [not_low]

theorem crossesMint_of_calm (low : calm history) : crossesMint history = false := by
  by_contra crosses
  rw [not_calm_of_crossesMint (Bool.of_not_eq_false crosses)] at low
  cases low

theorem crossesAll_of_calm (low : calm history) : crossesAll history = false := by
  by_contra crosses
  rw [not_calm_of_crossesAll (Bool.of_not_eq_false crosses)] at low
  cases low

theorem canUnfreeze_freeze :
    (VolatilityState.freeze height (.measure history state)).canUnfreeze = calm history := by
  unfold VolatilityState.freeze
  split_ifs <;> rfl

theorem freeze_of_calm (low : calm history) :
    VolatilityState.freeze height (.measure history state) = .measure history state := by
  have all : (VolatilityState.measure history state).shouldFreezeAll = false :=
    crossesAll_of_calm low
  have mint : (VolatilityState.measure history state).shouldFreezeMint = false :=
    crossesMint_of_calm low
  simp [VolatilityState.freeze, all, mint]

theorem flags_freeze (order : state.allOperationsFrozen → state.mintingFrozen) :
    (VolatilityState.freeze height (.measure history state)).flags =
      (state.mintingFrozen || crossesMint history || crossesAll history,
        state.allOperationsFrozen || crossesAll history) := by
  have all : (VolatilityState.measure history state).shouldFreezeAll = crossesAll history := rfl
  have mint : (VolatilityState.measure history state).shouldFreezeMint = crossesMint history := rfl
  have held : (VolatilityState.measure history state).flags = state.flags := rfl
  obtain ⟨held_mint, held_all⟩ := Prod.mk.inj held
  unfold VolatilityState.freeze
  rw [all, mint, held_mint, held_all]
  cases crossesAll history <;> cases crossesMint history <;> cases allFrozen :
    state.allOperationsFrozen <;>
    cases mintFrozen : state.mintingFrozen <;> simp_all [VolatilityState.flags]

/-- A freeze is lifted only by a calm history after the cooldown; else crossings add to it. -/
theorem flags_update (order : state.allOperationsFrozen → state.mintingFrozen) :
    (state.update history height).flags =
      if state.mintingFrozen && decide (state.cooldownEndHeight < height) && calm history then
        (false, false)
      else (state.mintingFrozen || crossesMint history || crossesAll history,
        state.allOperationsFrozen || crossesAll history) := by
  unfold VolatilityState.update VolatilityState.unfreeze
  rw [canUnfreeze_freeze]
  cases low : calm history with
  | false =>
    simp only [Bool.and_false, Bool.false_eq_true, if_false]
    exact flags_freeze order
  | true =>
    have flags : (VolatilityState.freeze height (.measure history state)).flags = _ :=
      flags_freeze order
    rw [freeze_of_calm low] at flags ⊢
    have frozen : (state.mintingFrozen || state.allOperationsFrozen) = state.mintingFrozen := by
      cases all : state.allOperationsFrozen with
      | false => simp
      | true => simp [order all]
    have cooldown : (VolatilityState.measure history state).cooldownEndHeight =
        state.cooldownEndHeight := rfl
    have either : ((VolatilityState.measure history state).mintingFrozen ||
        (VolatilityState.measure history state).allOperationsFrozen) = state.mintingFrozen := frozen
    rw [either, cooldown]
    split_ifs
    · rfl
    · exact flags

theorem flags_update_of_unfrozen (unfrozen : state.flags = (false, false)) :
    (state.update history height).flags = thresholdFlags history := by
  obtain ⟨mint, all⟩ := Prod.mk.inj unfrozen
  rw [flags_update (by simp [all]), mint, all]
  simp [thresholdFlags]

theorem covers_update (order : state.allOperationsFrozen → state.mintingFrozen) :
    Covers history (state.update history height) := by
  have flags : (state.update history height).flags = _ := flags_update order
  split_ifs at flags with lifted
  · have low : calm history := by simp_all
    obtain ⟨mint, all⟩ := Prod.mk.inj flags
    exact ⟨by simp [crossesAll_of_calm low], by simp [crossesMint_of_calm low], by simp [all]⟩
  · obtain ⟨mint, all⟩ := Prod.mk.inj flags
    refine ⟨fun crosses => by simp [all, crosses], fun crosses => by simp [mint, crosses], ?_⟩
    intro frozen
    rw [all, Bool.or_eq_true] at frozen
    rcases frozen with before | crosses
    · simp [mint, order before]
    · simp [mint, crosses]

theorem Covers.flags_update (covers : Covers history state) :
    (state.update history height).flags =
      if state.mintingFrozen && decide (state.cooldownEndHeight < height) && calm history then
        (false, false)
      else state.flags := by
  rw [Volatility.flags_update covers.order]
  have mint : (state.mintingFrozen || crossesMint history || crossesAll history) =
      state.mintingFrozen := by
    cases mint : crossesMint history with
    | true => simp [covers.mint mint]
    | false =>
      cases all : crossesAll history with
      | true => simp [covers.order (covers.all all)]
      | false => simp
  have all : (state.allOperationsFrozen || crossesAll history) = state.allOperationsFrozen := by
    cases all : crossesAll history with
    | false => simp
    | true => simp [covers.all all]
  rw [mint, all]
  rfl

end State

/-! The price history. -/

/-- What is kept of a history when a price at this time is recorded after it. -/
def retained (history : List PricePoint) (timestamp : ℤ) : List PricePoint :=
  keepRecent (timestamp - MAX_HISTORY_DAYS * 24 * 3600) (MAX_HISTORY_POINTS - 1) history

/-- The samples of a chain of priced mints. -/
def samples (points : List PricePoint) : List PricePoint := points.foldl sample []

/-- A list that the two loops of the cleaning leave alone. -/
def fits (cutoffTime : ℤ) (limit : ℕ) (kept : List PricePoint) : Bool :=
  !kept.head?.any (fun point => point.timestamp < cutoffTime) && decide (kept.length ≤ limit)

section History

variable {history : List PricePoint} {point : PricePoint} {cutoff : ℤ} {limit : ℕ}

/-- Entries at increasing times. -/
abbrev Timed (history : List PricePoint) : Prop :=
  history.Pairwise fun earlier later => earlier.timestamp < later.timestamp

theorem fits_mono {cutoff' : ℤ} {limit' : ℕ} {kept : List PricePoint} (cutoffs : cutoff' ≤ cutoff)
    (limits : limit ≤ limit') (fit : fits cutoff limit kept) : fits cutoff' limit' kept := by
  unfold fits at fit ⊢
  cases kept with
  | nil => simp
  | cons first rest =>
    simp only [List.head?_cons, Option.any_some, Bool.and_eq_true, Bool.not_eq_true',
      decide_eq_false_iff_not, decide_eq_true_eq] at fit ⊢
    omega

theorem keepRecent_eq_expire (timed : Timed history) :
    keepRecent cutoff limit history = expire (fits cutoff limit) history := by
  refine drop_dropWhile_eq_expire (timed.imp ?_) limit
  intro earlier later before old
  simp only [decide_eq_true_eq] at old ⊢
  omega

theorem cleanOldHistory_append (timed : Timed (history ++ [point])) :
    cleanOldHistory (history ++ [point]) = retained history point.timestamp ++ [point] := by
  have before : Timed history := (List.pairwise_append.mp timed).1
  unfold cleanOldHistory retained
  rw [List.getLast?_concat]
  dsimp only
  rw [keepRecent_eq_expire timed, keepRecent_eq_expire before]
  refine expire_append_singleton ?_ ?_ history
  · have young : ¬ point.timestamp < point.timestamp - MAX_HISTORY_DAYS * 24 * 3600 := by
      unfold MAX_HISTORY_DAYS
      omega
    simp [fits, young, MAX_HISTORY_POINTS]
  · intro entries nonempty
    obtain ⟨first, rest, rfl⟩ := List.exists_cons_of_ne_nil nonempty
    have lengths : rest.length + 2 ≤ MAX_HISTORY_POINTS ↔
        rest.length + 1 ≤ MAX_HISTORY_POINTS - 1 := by
      unfold MAX_HISTORY_POINTS
      omega
    simp [fits, lengths]

theorem getLast?_cleanOldHistory (timed : Timed history) :
    (cleanOldHistory history).getLast? = history.getLast? := by
  induction history using List.reverseRecOn with
  | nil => rfl
  | append_singleton older last =>
    rw [cleanOldHistory_append timed, List.getLast?_concat, List.getLast?_concat]

theorem retained_sublist (timestamp : ℤ) : (retained history timestamp).Sublist history :=
  (List.drop_sublist ..).trans (List.dropWhile_sublist _)

theorem retained_cleanOldHistory (timed : Timed (history ++ [point])) :
    retained (cleanOldHistory history) point.timestamp = retained history point.timestamp := by
  obtain ⟨before, _, later⟩ := List.pairwise_append.mp timed
  induction history using List.reverseRecOn with
  | nil => rfl
  | append_singleton older last =>
    have last_before : last.timestamp < point.timestamp := later last (by simp) point (by simp)
    have cleaned : cleanOldHistory (older ++ [last]) =
        expire (fits (last.timestamp - MAX_HISTORY_DAYS * 24 * 3600) MAX_HISTORY_POINTS)
          (older ++ [last]) := by
      unfold cleanOldHistory
      rw [List.getLast?_concat]
      exact keepRecent_eq_expire before
    have timed_cleaned : Timed (cleanOldHistory (older ++ [last])) := by
      rw [cleaned]
      exact before.sublist (expire_suffix ..).sublist
    unfold retained
    rw [keepRecent_eq_expire timed_cleaned, keepRecent_eq_expire before, cleaned]
    exact expire_expire (fun entries => fits_mono (by omega) (Nat.sub_le ..)) _

end History

section Run

variable {now : ℤ} {monitor : Monitor} {point : PricePoint} {points : List PricePoint}

@[simp] theorem priceHistory_updateVolatilityState :
    monitor.updateVolatilityState.priceHistory = monitor.priceHistory := by
  unfold Monitor.updateVolatilityState
  split <;> rfl

@[simp] theorem priceHistory_updateState (height : ℕ) :
    (monitor.updateState height).priceHistory = monitor.priceHistory := by
  unfold Monitor.updateState
  split_ifs <;> rfl

theorem currentState_updateState {height : ℕ} (recorded : monitor.priceHistory ≠ []) :
    (monitor.updateState height).currentState =
      monitor.currentState.update monitor.priceHistory height := by
  unfold Monitor.updateState
  rw [if_neg recorded]

theorem currentState_updateVolatilityState {back : PricePoint}
    (last : monitor.priceHistory.getLast? = some back) :
    monitor.updateVolatilityState.currentState =
      monitor.currentState.update monitor.priceHistory back.height := by
  unfold Monitor.updateVolatilityState
  rw [last]

theorem MintChain.recordPrice (chain : MintChain (points ++ [point])) :
    monitor.recordPrice now point =
      if Monitor.tooRecent monitor.priceHistory point.timestamp then monitor
      else Monitor.updateVolatilityState
        { monitor with priceHistory := cleanOldHistory (monitor.priceHistory ++ [point]) } := by
  have member : point ∈ points ++ [point] := by simp
  obtain ⟨low, high⟩ := chain.price point member
  have positive := chain.time point member
  unfold Monitor.recordPrice
  rw [if_neg (by omega), if_neg (by omega : ¬ point.timestamp = 0)]

variable (now) in
theorem connectMint_of_tooRecent (chain : MintChain (points ++ [point]))
    (recent : Monitor.tooRecent monitor.priceHistory point.timestamp) :
    (monitor.connectMint now point).priceHistory = monitor.priceHistory ∧
    (monitor.connectMint now point).currentState =
      monitor.currentState.update monitor.priceHistory point.height := by
  have recorded : monitor.priceHistory ≠ [] := by
    intro empty
    rw [empty] at recent
    cases recent
  unfold Monitor.connectMint
  rw [chain.recordPrice, if_pos recent]
  exact ⟨priceHistory_updateState _, currentState_updateState recorded⟩

variable (now) in
theorem connectMint_of_recorded (chain : MintChain (points ++ [point]))
    (timed : Timed (monitor.priceHistory ++ [point]))
    (recorded : Monitor.tooRecent monitor.priceHistory point.timestamp = false) :
    (monitor.connectMint now point).priceHistory =
      retained monitor.priceHistory point.timestamp ++ [point] ∧
    (monitor.connectMint now point).currentState =
      (monitor.currentState.update (retained monitor.priceHistory point.timestamp ++ [point])
        point.height).update (retained monitor.priceHistory point.timestamp ++ [point])
          point.height := by
  unfold Monitor.connectMint
  rw [chain.recordPrice, recorded, cleanOldHistory_append timed]
  rw [if_neg Bool.false_ne_true]
  refine ⟨by simp, ?_⟩
  rw [currentState_updateState (by simp),
    currentState_updateVolatilityState (List.getLast?_concat ..)]
  simp

theorem samples_append : samples (points ++ [point]) = sample (samples points) point := by
  simp [samples]

theorem samples_sublist (points : List PricePoint) : (samples points).Sublist points := by
  induction points using List.reverseRecOn with
  | nil => exact List.Sublist.refl []
  | append_singleton points point ih =>
    rw [samples_append]
    unfold sample
    split_ifs
    · exact ih.trans (List.sublist_append_left ..)
    · exact ih.append (List.Sublist.refl _)

theorem MintChain.timed (chain : MintChain points) : Timed (samples points) :=
  chain.times.sublist (samples_sublist points)

theorem MintChain.timed_append (chain : MintChain (points ++ [point])) :
    Timed (samples points ++ [point]) :=
  chain.times.sublist ((samples_sublist points).append (List.Sublist.refl _))

theorem connected_append :
    connected now (points ++ [point]) = (connected now points).connectMint now point := by
  simp [connected]

theorem tooRecent_cleanOldHistory {history : List PricePoint} (timed : Timed history)
    (timestamp : ℤ) :
    Monitor.tooRecent (cleanOldHistory history) timestamp =
      Monitor.tooRecent history timestamp := by
  unfold Monitor.tooRecent
  rw [getLast?_cleanOldHistory timed]

theorem cleanOldHistory_sublist (history : List PricePoint) :
    (cleanOldHistory history).Sublist history := by
  unfold cleanOldHistory
  split
  · exact List.Sublist.refl _
  · exact (List.drop_sublist ..).trans (List.dropWhile_sublist _)

theorem priceHistory_connected (chain : MintChain points) :
    (connected now points).priceHistory = cleanOldHistory (samples points) := by
  induction points using List.reverseRecOn with
  | nil => rfl
  | append_singleton points point ih =>
    have history := ih chain.init
    rw [connected_append, samples_append]
    unfold sample
    cases recent : Monitor.tooRecent (samples points) point.timestamp with
    | true =>
      rw [← tooRecent_cleanOldHistory chain.init.timed, ← history] at recent
      rw [(connectMint_of_tooRecent now chain recent).1, history]
      rfl
    | false =>
      have timed : Timed ((connected now points).priceHistory ++ [point]) := by
        rw [history]
        exact chain.timed_append.sublist ((cleanOldHistory_sublist _).append (List.Sublist.refl _))
      rw [← tooRecent_cleanOldHistory chain.init.timed, ← history] at recent
      rw [(connectMint_of_recorded now chain timed recent).1, history, if_neg Bool.false_ne_true,
        cleanOldHistory_append chain.timed_append, retained_cleanOldHistory chain.timed_append]

theorem priceHistory_sublist (chain : MintChain points) :
    (connected now points).priceHistory.Sublist points := by
  rw [priceHistory_connected chain]
  exact (cleanOldHistory_sublist _).trans (samples_sublist points)

theorem MintChain.timed_connected (chain : MintChain (points ++ [point])) :
    Timed ((connected now points).priceHistory ++ [point]) :=
  chain.times.sublist ((priceHistory_sublist chain.init).append (List.Sublist.refl _))

theorem thresholdFlags_nil : thresholdFlags [] = (false, false) := by decide

theorem covers_empty : Covers [] {} := ⟨by decide, by decide, by decide⟩

theorem covers_connected (chain : MintChain points) :
    Covers (connected now points).priceHistory (connected now points).currentState := by
  induction points using List.reverseRecOn with
  | nil => exact covers_empty
  | append_singleton points point ih =>
    have order := (ih chain.init).order
    rw [connected_append]
    cases recent : Monitor.tooRecent (connected now points).priceHistory point.timestamp with
    | true =>
      obtain ⟨history, state⟩ := connectMint_of_tooRecent now chain recent
      rw [history, state]
      exact covers_update order
    | false =>
      obtain ⟨history, state⟩ := connectMint_of_recorded now chain chain.timed_connected recent
      rw [history, state]
      exact covers_update (covers_update order).order

theorem flags_of_fresh {history : List PricePoint} {height : ℕ} :
    (Monitor.updateVolatilityState
      { priceHistory := history, lastUpdateHeight := height }).currentState.flags =
      thresholdFlags history := by
  induction history using List.reverseRecOn with
  | nil => exact thresholdFlags_nil.symm
  | append_singleton older last =>
    rw [currentState_updateVolatilityState (List.getLast?_concat ..)]
    exact flags_update_of_unfrozen rfl

theorem flags_update_update {history : List PricePoint} {state : VolatilityState} {height : ℕ}
    (unfrozen : state.flags = (false, false)) :
    ((state.update history height).update history height).flags = thresholdFlags history := by
  have once : (state.update history height).flags = thresholdFlags history :=
    flags_update_of_unfrozen unfrozen
  have covers : Covers history (state.update history height) := by
    refine covers_update ?_
    simp [(Prod.mk.inj unfrozen).2]
  rw [covers.flags_update]
  split_ifs with lifted
  · have low : calm history := by simp_all
    simp [thresholdFlags, crossesMint_of_calm low, crossesAll_of_calm low]
  · exact once

theorem flags_connectMint (chain : MintChain (points ++ [point]))
    (admitted : (connected now points).shouldFreezeMinting = false) :
    ((connected now points).connectMint now point).currentState.flags =
      thresholdFlags ((connected now points).connectMint now point).priceHistory := by
  have covers : Covers (connected now points).priceHistory (connected now points).currentState :=
    covers_connected chain.init
  have unfrozen : (connected now points).currentState.flags = (false, false) := by
    have mint : (connected now points).currentState.mintingFrozen = false := admitted
    have all : (connected now points).currentState.allOperationsFrozen = false := by
      by_contra frozen
      rw [covers.order (Bool.of_not_eq_false frozen)] at mint
      cases mint
    exact Prod.ext mint all
  cases recent : Monitor.tooRecent (connected now points).priceHistory point.timestamp with
  | true =>
    obtain ⟨history, state⟩ := connectMint_of_tooRecent now chain recent
    rw [history, state]
    exact flags_update_of_unfrozen unfrozen
  | false =>
    obtain ⟨history, state⟩ := connectMint_of_recorded now chain chain.timed_connected recent
    rw [history, state]
    exact flags_update_update unfrozen

end Run

/-! Restarts. -/

/-- The monitor as the validators read it. -/
def Monitor.view (monitor : Monitor) : VolatilityMonitor :=
  ⟨monitor.priceHistory.map PricePoint.price, monitor.shouldFreezeMinting, monitor.shouldFreezeAll⟩

theorem not_frozen_of_accepted {curve : TaprootCurve} {tx : CTransaction} {ctx : ValidationContext}
    {node : NodeState} {monitor : Monitor}
    (accepted : validateMintTransaction curve tx ctx node = .ok ())
    (legacy : ctx.canonical = false) (view : node.volatility = monitor.view) :
    monitor.shouldFreezeMinting = false := by
  unfold validateMintTransaction at accepted
  simp only [Library.Checks.bind_eq_ok, Library.Checks.rejectIf_eq_ok] at accepted
  obtain ⟨_, _, _, _, _, _, _, _, _, open_, _⟩ := accepted
  have unfrozen : ¬ node.volatility.mintingFrozen = true := fun frozen => open_ ⟨legacy, frozen⟩
  rw [view] at unfrozen
  exact Bool.eq_false_of_not_eq_true unfrozen

theorem running_eq (now : ℤ) (chain : List ScannedBlock) :
    running now chain = connected now (chain.filterMap ScannedBlock.mintPoint) := by
  unfold running connected
  generalize ({} : Monitor) = start
  induction chain generalizing start with
  | nil => rfl
  | cons block rest ih =>
    cases found : block.mintPoint with
    | none => simpa [found] using ih start
    | some point => simpa [found] using ih (start.connectMint now point)

theorem height_of_mintPoint {block : ScannedBlock} {point : PricePoint}
    (found : block.mintPoint = some point) : point.height = block.height := by
  unfold ScannedBlock.mintPoint at found
  split at found
  · cases found
  · split_ifs at found
    rw [← Option.some.inj found]

theorem volatilityPrices_eq (tip_height : ℕ) (chain : List ScannedBlock)
    (scanned : ∀ point ∈ chain.filterMap ScannedBlock.mintPoint,
      startHeight tip_height ≤ point.height ∧ point.height ≤ tip_height) :
    volatilityPrices tip_height chain = samples (chain.filterMap ScannedBlock.mintPoint) := by
  unfold volatilityPrices samples
  generalize ([] : List PricePoint) = prices
  induction chain generalizing prices with
  | nil => rfl
  | cons block rest ih =>
    cases found : block.mintPoint with
    | none =>
      rw [List.filterMap_cons_none found] at scanned ⊢
      rw [List.foldl_cons, found]
      simpa using ih scanned prices
    | some point =>
      rw [List.filterMap_cons_some found] at scanned ⊢
      have height := height_of_mintPoint found
      have inside := scanned point (List.mem_cons_self ..)
      rw [List.foldl_cons, List.foldl_cons, found, if_neg (by omega)]
      exact ih (fun later member => scanned later (List.mem_cons_of_mem _ member)) _

section Restart

variable {now : ℤ} {tip_height : ℕ} {chain : List ScannedBlock}

private theorem restart_flags (mints : MintChain (chain.filterMap ScannedBlock.mintPoint))
    (scanned : ∀ point ∈ chain.filterMap ScannedBlock.mintPoint,
      startHeight tip_height ≤ point.height ∧ point.height ≤ tip_height)
    (admitted : (connected now
      (chain.filterMap ScannedBlock.mintPoint).dropLast).shouldFreezeMinting = false) :
    (running now chain).currentState.flags = (rebuilt tip_height chain).currentState.flags := by
  have history : (connected now (chain.filterMap ScannedBlock.mintPoint)).priceHistory = _ :=
    priceHistory_connected mints
  have again : (rebuilt tip_height chain).currentState.flags =
      thresholdFlags (connected now (chain.filterMap ScannedBlock.mintPoint)).priceHistory := by
    unfold rebuilt Monitor.reconstructFromBlockData
    rw [volatilityPrices_eq tip_height chain scanned, flags_of_fresh, history]
  rw [again, running_eq]
  clear history again scanned
  revert mints admitted
  induction chain.filterMap ScannedBlock.mintPoint using List.reverseRecOn with
  | nil => exact fun _ _ => thresholdFlags_nil.symm
  | append_singleton points point =>
    intro mints admitted
    rw [connected_append]
    rw [List.dropLast_concat] at admitted
    exact flags_connectMint mints admitted

end Restart

/-- A restart at the tip of a chain gives back the freeze of the running node, if the last
priced mint came while minting was not frozen, as the freeze rule demands of every mint. -/
theorem restart_keeps_freeze (now : ℤ) (tip_height : ℕ) (chain : List ScannedBlock)
    (points : List PricePoint) (priced : chain.filterMap ScannedBlock.mintPoint = points)
    (mints : MintChain points)
    (scanned : ∀ point ∈ points, startHeight tip_height ≤ point.height ∧ point.height ≤ tip_height)
    (admitted : (connected now points.dropLast).shouldFreezeMinting = false) :
    (running now chain).shouldFreezeMinting = (rebuilt tip_height chain).shouldFreezeMinting ∧
    (running now chain).shouldFreezeAll = (rebuilt tip_height chain).shouldFreezeAll := by
  subst priced
  exact Prod.mk.inj (restart_flags mints scanned admitted)

/-- The last mint of the chain was accepted below Thaw Day by the running node. -/
theorem restart_after_accepted_mint {curve : TaprootCurve} {tx : CTransaction}
    {ctx : ValidationContext} {node : NodeState} {now : ℤ} {tip_height : ℕ}
    {chain : List ScannedBlock} {points : List PricePoint}
    (priced : chain.filterMap ScannedBlock.mintPoint = points) (mints : MintChain points)
    (scanned : ∀ point ∈ points, startHeight tip_height ≤ point.height ∧ point.height ≤ tip_height)
    (legacy : ctx.canonical = false)
    (view : node.volatility = (connected now points.dropLast).view)
    (accepted : validateMintTransaction curve tx ctx node = .ok ()) :
    (running now chain).shouldFreezeMinting = (rebuilt tip_height chain).shouldFreezeMinting ∧
    (running now chain).shouldFreezeAll = (rebuilt tip_height chain).shouldFreezeAll := by
  subst priced
  exact Prod.mk.inj (restart_flags mints scanned (not_frozen_of_accepted accepted legacy view))

namespace Sample

/-- A mint block with its price in micro-USD. -/
def mintBlock (price : ℕ) (nTime : ℤ) (height : ℕ) : ScannedBlock :=
  ⟨height, nTime, some price, true⟩

/-- The price rises by a quarter within an hour, and a mint comes two days later. -/
def cooldownChain : List ScannedBlock :=
  [mintBlock 10000 1000000 100, mintBlock 12500 1003600 340, mintBlock 12500 1176400 11860]

/-- The running node is still in its cooldown; the restarted node knows nothing of it. -/
theorem cooldown_forgotten :
    MintChain (cooldownChain.filterMap ScannedBlock.mintPoint) ∧
    (∀ point ∈ cooldownChain.filterMap ScannedBlock.mintPoint,
      startHeight 11860 ≤ point.height ∧ point.height ≤ 11860) ∧
    (running 0 cooldownChain).shouldFreezeMinting = true ∧
    (rebuilt 11860 cooldownChain).shouldFreezeMinting = false :=
  ⟨⟨by decide, by decide, by decide, by decide⟩, by decide, by decide +kernel, by decide +kernel⟩

/-- The price rises by less than a fifth at each mint, and by almost a third in a day. -/
def risingChain : List ScannedBlock :=
  [mintBlock 10000 1000000 100, mintBlock 11500 1036000 2500, mintBlock 13100 1072000 4900]

theorem rising_freeze_kept :
    (running 0 risingChain).shouldFreezeAll = true ∧
    (running 0 risingChain).shouldFreezeMinting = (rebuilt 4900 risingChain).shouldFreezeMinting ∧
    (running 0 risingChain).shouldFreezeAll = (rebuilt 4900 risingChain).shouldFreezeAll :=
  ⟨by decide +kernel, restart_keeps_freeze 0 4900 risingChain _ rfl
    ⟨by decide, by decide, by decide, by decide⟩ (by decide) (by decide +kernel)⟩

end Sample

/-! Reorganisations. -/

/-- When disconnecting a block undoes its connecting. A block that is not sampled must not
lift a freeze. For one that is, the freeze before it must be the one that the thresholds
give on the samples that the block does not push out. -/
def Undoable (monitor : Monitor) (point : PricePoint) : Prop :=
  if Monitor.tooRecent monitor.priceHistory point.timestamp then
    ¬ (monitor.shouldFreezeMinting ∧ monitor.currentState.cooldownEndHeight < point.height ∧
      calm monitor.priceHistory)
  else monitor.currentState.flags = thresholdFlags (retained monitor.priceHistory point.timestamp)

section Undo

variable {now : ℤ} {monitor : Monitor} {point : PricePoint} {points history : List PricePoint}

theorem cleanOldHistory_retained (timed : Timed (history ++ [point])) :
    cleanOldHistory (retained history point.timestamp) = retained history point.timestamp := by
  obtain ⟨before, _, later⟩ := List.pairwise_append.mp timed
  have kept : retained history point.timestamp =
      expire (fits (point.timestamp - MAX_HISTORY_DAYS * 24 * 3600) (MAX_HISTORY_POINTS - 1))
        history :=
    keepRecent_eq_expire before
  have sub : (retained history point.timestamp).Sublist history := retained_sublist point.timestamp
  unfold cleanOldHistory
  split
  · rfl
  · next back last =>
    have back_before : back.timestamp < point.timestamp :=
      later back (sub.subset (List.mem_of_getLast? last)) point (by simp)
    have fit : fits (point.timestamp - MAX_HISTORY_DAYS * 24 * 3600) (MAX_HISTORY_POINTS - 1)
        (retained history point.timestamp) := by
      rw [kept] at last ⊢
      refine keep_expire _ ?_
      intro empty
      rw [empty] at last
      cases last
    rw [keepRecent_eq_expire (before.sublist sub)]
    exact expire_of_keep (fits_mono (by omega) (Nat.sub_le ..) fit)

theorem filter_of_fresh {height : ℕ} (fresh : ∀ recorded ∈ history, recorded.height ≠ height) :
    (history.filter fun recorded => recorded.height ≠ height) = history := by
  rw [List.filter_eq_self]
  intro recorded member
  simpa using fresh recorded member

theorem removePriceForHeight_of_fresh {height : ℕ}
    (fresh : ∀ recorded ∈ monitor.priceHistory, recorded.height ≠ height) :
    monitor.removePriceForHeight height = monitor := by
  unfold Monitor.removePriceForHeight
  dsimp only
  rw [filter_of_fresh fresh, if_pos rfl]

theorem flags_removePriceForHeight {before : List PricePoint}
    (recorded : monitor.priceHistory = before ++ [point]) (clean : cleanOldHistory before = before)
    (fresh : ∀ earlier ∈ before, earlier.height ≠ point.height) :
    (monitor.removePriceForHeight point.height).currentState.flags = thresholdFlags before := by
  have rest : (monitor.priceHistory.filter fun earlier => earlier.height ≠ point.height) =
      before := by
    rw [recorded, List.filter_append, filter_of_fresh fresh]
    simp
  unfold Monitor.removePriceForHeight
  dsimp only
  rw [rest, if_neg (by simp [recorded]), clean]
  exact flags_of_fresh

theorem MintChain.fresh (chain : MintChain (points ++ [point])) :
    ∀ recorded ∈ (connected now points).priceHistory, recorded.height ≠ point.height := by
  intro recorded member
  have earlier := (priceHistory_sublist chain.init).subset member
  exact ((List.pairwise_append.mp chain.heights).2.2 recorded earlier point (by simp)).ne

end Undo

/-- Connecting a priced mint and disconnecting it gives back the freeze exactly when the
block is undoable in the state before it. -/
theorem disconnect_undoes_connect_iff (now : ℤ) (points : List PricePoint) (point : PricePoint)
    (chain : MintChain (points ++ [point])) (before after : Monitor)
    (start : before = connected now points)
    (undone : after = (before.connectMint now point).removePriceForHeight point.height) :
    (after.shouldFreezeMinting = before.shouldFreezeMinting ∧
      after.shouldFreezeAll = before.shouldFreezeAll) ↔
      Undoable before point := by
  have fresh : ∀ recorded ∈ before.priceHistory, recorded.height ≠ point.height := by
    rw [start]
    exact chain.fresh
  have timed : Timed (before.priceHistory ++ [point]) := by
    rw [start]
    exact chain.timed_connected
  have covers : Covers before.priceHistory before.currentState := by
    rw [start]
    exact covers_connected chain.init
  have answers : (after.shouldFreezeMinting = before.shouldFreezeMinting ∧
      after.shouldFreezeAll = before.shouldFreezeAll) ↔
        after.currentState.flags = before.currentState.flags :=
    (Prod.mk.injEq ..).symm.to_iff
  rw [answers]
  unfold Undoable
  cases recent : Monitor.tooRecent before.priceHistory point.timestamp with
  | true =>
    obtain ⟨history, state⟩ := connectMint_of_tooRecent now chain recent
    rw [if_pos rfl, undone, removePriceForHeight_of_fresh (by rw [history]; exact fresh), state,
      covers.flags_update]
    unfold Monitor.shouldFreezeMinting
    split_ifs with lifted
    · simp only [Bool.and_eq_true, decide_eq_true_eq] at lifted
      simp [VolatilityState.flags, lifted]
    · simp only [Bool.and_eq_true, decide_eq_true_eq, and_assoc] at lifted
      simp only [true_iff]
      exact lifted
  | false =>
    obtain ⟨history, _⟩ := connectMint_of_recorded now chain timed recent
    have flags := flags_removePriceForHeight history (cleanOldHistory_retained timed)
      fun earlier member => fresh earlier ((retained_sublist point.timestamp).subset member)
    rw [if_neg Bool.false_ne_true, undone, flags]
    exact eq_comm

namespace Sample

/-- Four mints within a day, each within a fifth of the last sample. -/
def quietPoints : List PricePoint :=
  [⟨11500, 1000000, 100⟩, ⟨10000, 1036000, 2500⟩, ⟨11500, 1061200, 4180⟩, ⟨13100, 1086400, 5860⟩]

/-- A mint at the same price a month later, which pushes the first sample out. -/
def laterPoint : PricePoint := ⟨13100, 3595600, 173140⟩

/-- Nothing is frozen before the block or after it, and every mint is one that the freeze
rule admits; disconnecting the block freezes everything. -/
theorem disconnect_freezes :
    MintChain (quietPoints ++ [laterPoint]) ∧
    (∀ count ∈ List.range 5,
      (connected 0 ((quietPoints ++ [laterPoint]).take count)).view.mintingFrozen = false ∧
      ∀ point ∈ (quietPoints ++ [laterPoint])[count]?,
        wouldCandidateFreezeMinting (connected 0 ((quietPoints ++ [laterPoint]).take count)).view
          point.price =
          false) ∧
    (connected 0 quietPoints).shouldFreezeAll = false ∧
    (((connected 0 quietPoints).connectMint 0 laterPoint).removePriceForHeight
      173140).shouldFreezeMinting = true ∧
    (((connected 0 quietPoints).connectMint 0 laterPoint).removePriceForHeight
      173140).shouldFreezeAll = true :=
  ⟨⟨by decide, by decide, by decide, by decide⟩,
    by decide +kernel, by decide +kernel, by decide +kernel, by decide +kernel⟩

/-- A day later the same mint pushes nothing out, and disconnecting it is harmless. -/
theorem disconnect_harmless :
    let before := connected 0 quietPoints
    let after := (before.connectMint 0 ⟨13100, 1172800, 11620⟩).removePriceForHeight 11620
    after.shouldFreezeMinting = before.shouldFreezeMinting ∧
      after.shouldFreezeAll = before.shouldFreezeAll :=
  (disconnect_undoes_connect_iff 0 quietPoints ⟨13100, 1172800, 11620⟩
    ⟨by decide, by decide, by decide, by decide⟩ _ _ rfl rfl).mpr (by
      unfold Undoable
      rw [if_neg (by decide +kernel)]
      decide +kernel)

end Sample

end DigiByte.DigiDollar.Volatility
