import DigiByte.DigiDollar.Context
import Mathlib.Data.Nat.Sqrt

/-!
The volatility monitor (`consensus/volatility.cpp`), whose freezes are consensus rules
below Thaw Day.

The price history has its oldest entry first, as the deque of the source. Heights are
32-bit numbers. The percentages kept for display beside the basis points are left out.
-/

set_option autoImplicit false
set_option relaxedAutoImplicit false

namespace DigiByte.DigiDollar.Volatility

open Consensus (INT64_MAX)

structure PricePoint where
  price : ℤ
  timestamp : ℤ
  height : ℕ
  deriving DecidableEq, Repr

structure VolatilityState where
  hourlyVolatilityBps : ℤ := 0
  dailyVolatilityBps : ℤ := 0
  weeklyVolatilityBps : ℤ := 0
  mintingFrozen : Bool := false
  allOperationsFrozen : Bool := false
  freezeHeight : ℕ := 0
  cooldownEndHeight : ℕ := 0
  deriving DecidableEq, Repr

/-- `VolatilityMonitor`. -/
structure Monitor where
  priceHistory : List PricePoint := []
  currentState : VolatilityState := {}
  lastUpdateHeight : ℕ := 0
  deriving DecidableEq, Repr

def ORACLE_MIN_PRICE_MICRO_USD : ℤ := 100
def ORACLE_MAX_PRICE_MICRO_USD : ℤ := 100000000

def WARNING_1H_BPS : ℤ := 1000
def FREEZE_MINT_1H_BPS : ℤ := 2000
def FREEZE_ALL_24H_BPS : ℤ := 3000
def EMERGENCY_7D_BPS : ℤ := 5000
def COOLDOWN_BLOCKS : ℕ := 8640

def MAX_HISTORY_DAYS : ℤ := 30
def MAX_HISTORY_POINTS : ℕ := 30 * 24
def MIN_PRICE_INTERVAL : ℤ := 3600

def UINT32_MAX : ℕ := 4294967295

/-! Volatility of a price history. -/

/-- The bisection of `IntegerSqrtFloor`, whose range halves at each round. -/
def sqrtSearch (value : ℕ) : ℕ → ℕ → ℕ → ℕ
  | 0, low, _ => low
  | rounds + 1, low, high =>
    if low < high then
      let mid := low + (high - low) / 2 + 1
      if mid * mid ≤ value then sqrtSearch value rounds mid high
      else sqrtSearch value rounds low (mid - 1)
    else low

def integerSqrtFloor (value : ℕ) : ℕ := sqrtSearch value 64 0 (2 ^ 64 - 1)

/-- The sample standard deviation in whole basis points. The 128-bit products do not
overflow for prices in range. -/
def calculateStandardDeviationBps (values : List ℤ) : ℤ :=
  if values.length < 2 then 0
  else
    let sum := values.sum
    let sumSquares := (values.map fun value => value * value).sum
    let count : ℤ := values.length
    let numerator := count * sumSquares - sum * sum
    if numerator ≤ 0 then 0
    else
      let denominator := count * (count - 1)
      min INT64_MAX (integerSqrtFloor (numerator.tdiv denominator).toNat)

/-- The newest entries that are at most `timeWindow` older than the last, oldest first. -/
def getPricesInWindow (history : List PricePoint) (timeWindow : ℤ) : List PricePoint :=
  match history.getLast? with
  | none => []
  | some back =>
    (history.reverse.takeWhile fun point => back.timestamp - timeWindow ≤ point.timestamp).reverse

/-- The change between each price and the next. -/
def stepChanges : List PricePoint → List ℤ
  | [] => []
  | [_] => []
  | first :: second :: rest =>
    absBps (calculatePercentageChangeBps first.price second.price) :: stepChanges (second :: rest)

def calculateVolatilityBps (history : List PricePoint) (timeWindow : ℤ) : ℤ :=
  if history.length < 2 then 0
  else
    match getPricesInWindow history timeWindow with
    | [] => 0
    | [_] => 0
    | start :: next :: rest =>
      let changes := (next :: rest).map fun point =>
        absBps (calculatePercentageChangeBps start.price point.price)
      let maxAbsChangeBps := changes.foldl max 0
      let stdDevVolatilityBps := calculateStandardDeviationBps (stepChanges (start :: next :: rest))
      let doubledStdDevBps :=
        if stdDevVolatilityBps > INT64_MAX / 2 then INT64_MAX else stdDevVolatilityBps * 2
      max maxAbsChangeBps doubledStdDevBps

/-! The freeze state. -/

namespace VolatilityState

/-- The volatilities of the history, with the freeze as it was. -/
def measure (history : List PricePoint) (state : VolatilityState) : VolatilityState :=
  { state with
    hourlyVolatilityBps := calculateVolatilityBps history 3600
    dailyVolatilityBps := calculateVolatilityBps history (24 * 3600)
    weeklyVolatilityBps := calculateVolatilityBps history (7 * 24 * 3600) }

def shouldFreezeMint (state : VolatilityState) : Bool :=
  FREEZE_MINT_1H_BPS ≤ state.hourlyVolatilityBps

def shouldFreezeAll (state : VolatilityState) : Bool :=
  FREEZE_ALL_24H_BPS ≤ state.dailyVolatilityBps || EMERGENCY_7D_BPS ≤ state.weeklyVolatilityBps

def canUnfreeze (state : VolatilityState) : Bool :=
  state.hourlyVolatilityBps < WARNING_1H_BPS && state.dailyVolatilityBps < FREEZE_MINT_1H_BPS &&
    state.weeklyVolatilityBps < FREEZE_ALL_24H_BPS

def cooldownEnd (height : ℕ) : ℕ :=
  if height > UINT32_MAX - COOLDOWN_BLOCKS then UINT32_MAX else height + COOLDOWN_BLOCKS

def freeze (currentHeight : ℕ) (state : VolatilityState) : VolatilityState :=
  if state.shouldFreezeAll && !state.allOperationsFrozen then
    { state with
      allOperationsFrozen := true
      mintingFrozen := true
      freezeHeight := currentHeight
      cooldownEndHeight := cooldownEnd currentHeight }
  else if state.shouldFreezeMint && !state.mintingFrozen then
    { state with
      mintingFrozen := true
      freezeHeight := currentHeight
      cooldownEndHeight := cooldownEnd currentHeight }
  else state

def unfreeze (currentHeight : ℕ) (state : VolatilityState) : VolatilityState :=
  if (state.mintingFrozen || state.allOperationsFrozen) &&
      currentHeight > state.cooldownEndHeight && state.canUnfreeze then
    { state with
      mintingFrozen := false
      allOperationsFrozen := false
      freezeHeight := 0
      cooldownEndHeight := 0 }
  else state

/-- The common body of `UpdateState` and `UpdateVolatilityState`. -/
def update (history : List PricePoint) (currentHeight : ℕ)
    (state : VolatilityState) : VolatilityState :=
  unfreeze currentHeight (freeze currentHeight (measure history state))

end VolatilityState

/-! The monitor. -/

/-- The loops of `CleanOldHistory`: entries before the cutoff leave at the front, then
those above the limit. -/
def keepRecent (cutoffTime : ℤ) (limit : ℕ) (history : List PricePoint) : List PricePoint :=
  let recent := history.dropWhile fun point => point.timestamp < cutoffTime
  recent.drop (recent.length - limit)

/-- The 30 days and the 720 points that are kept, counted from the newest entry. -/
def cleanOldHistory (history : List PricePoint) : List PricePoint :=
  match history.getLast? with
  | none => history
  | some back => keepRecent (back.timestamp - MAX_HISTORY_DAYS * 24 * 3600)
      MAX_HISTORY_POINTS history

namespace Monitor

/-- Uses the height of the newest entry. -/
def updateVolatilityState (monitor : Monitor) : Monitor :=
  match monitor.priceHistory.getLast? with
  | none => monitor
  | some back =>
    { monitor with currentState := monitor.currentState.update monitor.priceHistory back.height }

def updateState (monitor : Monitor) (currentHeight : ℕ) : Monitor :=
  if monitor.priceHistory = [] then monitor
  else
    { monitor with
      lastUpdateHeight := currentHeight
      currentState := monitor.currentState.update monitor.priceHistory currentHeight }

/-- Whether the price comes less than an hour after the newest entry. -/
def tooRecent (history : List PricePoint) (timestamp : ℤ) : Bool :=
  match history.getLast? with
  | none => false
  | some back => timestamp - back.timestamp < MIN_PRICE_INTERVAL

/-- A time stamp of zero stands for the node's clock. -/
def recordPrice (now : ℤ) (monitor : Monitor) (point : PricePoint) : Monitor :=
  if point.price < ORACLE_MIN_PRICE_MICRO_USD ∨
    point.price > ORACLE_MAX_PRICE_MICRO_USD then monitor
  else
    let timestamp := if point.timestamp = 0 then now else point.timestamp
    if tooRecent monitor.priceHistory timestamp then monitor
    else
      updateVolatilityState
        { monitor with
          priceHistory := cleanOldHistory (monitor.priceHistory ++ [{ point with timestamp }]) }

def reconstructFromBlockData (blockPrices : List PricePoint) (currentHeight : ℕ) : Monitor :=
  updateVolatilityState
    { priceHistory := cleanOldHistory blockPrices, lastUpdateHeight := currentHeight }

def removePriceForHeight (monitor : Monitor) (height : ℕ) : Monitor :=
  let rest := monitor.priceHistory.filter fun point => point.height ≠ height
  if rest.length = monitor.priceHistory.length then monitor
  else
    updateVolatilityState
      { priceHistory := cleanOldHistory rest
        lastUpdateHeight := (rest.getLast?.map PricePoint.height).getD 0 }

def shouldFreezeMinting (monitor : Monitor) : Bool := monitor.currentState.mintingFrozen

def shouldFreezeAll (monitor : Monitor) : Bool := monitor.currentState.allOperationsFrozen

/-- What `RecordAcceptedMintVolatility` does for a block with an accepted mint, at the
block's own height and time. -/
def connectMint (now : ℤ) (monitor : Monitor) (point : PricePoint) : Monitor :=
  (monitor.recordPrice now point).updateState point.height

end Monitor

end DigiByte.DigiDollar.Volatility
