import Mathlib.Data.List.Sort
import SolTrade.Clmm.SwapStep
import SolTrade.Clmm.Swap
import SolTrade.Library.BoundedLoop
import SolTrade.Library.SortedSearch
import SolTrade.Whirlpool.TickMath

/-!
The Whirlpool exact-in traversal, with its adaptive fee.

The loop walks from tick to tick inside the window of the loaded tick arrays. In
the core range of tick groups, where the volatility is not capped yet, it also
stops at every group boundary; outside of it the groups are skipped.
-/

namespace SolTrade.Whirlpool

open Library
open Clmm (ClmmPool ClmmTick ClmmSwapStep clmmSwapStep minTick maxTick)

structure WhirlpoolAdaptiveFee where
  filterPeriod : ℤ
  decayPeriod : ℤ
  reductionFactor : ℤ
  controlFactor : ℤ
  maximumVolatility : ℤ
  tickGroupSize : ℤ
  lastReferenceTimestamp : ℤ
  lastMajorSwapTimestamp : ℤ
  volatilityReference : ℤ
  referenceGroup : ℤ
  volatility : ℤ
  deriving DecidableEq, Repr

structure WhirlpoolSwapResult where
  consumed : ℤ
  amountOut : ℤ
  fee : ℤ
  minimumFeeRate : ℤ
  maximumFeeRate : ℤ
  sqrtPrice : ℤ
  tickCurrent : ℤ
  liquidity : ℤ
  deriving DecidableEq, Repr

/-- The adaptive fee as the loop uses it. Between `lowerGroup` and `upperGroup`
lies the core range; an end beyond the tick range is `none`. -/
structure Adaptive where
  groupSize : ℤ
  reference : ℤ
  volatilityReference : ℤ
  maximum : ℤ
  control : ℤ
  lowerGroup : Option ℤ
  upperGroup : Option ℤ
  deriving DecidableEq, Repr

/-- What is fixed before the first iteration. The ticks are in ascending order. -/
structure WhirlpoolSwap where
  pool : ClmmPool
  ticks : List ClmmTick
  amount : ℤ
  limit : ℤ
  lower : ℤ
  upper : ℤ
  down : Bool
  adaptive : Option Adaptive
  deriving DecidableEq, Repr

/-- What an iteration changes. -/
structure WhirlpoolState where
  current : ℤ
  tick : ℤ
  liquidity : ℤ
  remaining : ℤ
  output : ℤ
  fees : ℤ
  minimumFee : ℤ
  maximumFee : ℤ
  first : Bool
  group : ℤ
  deriving DecidableEq, Repr

/-! ### Before the loop -/

def checkPool (pool : ClmmPool) (amount timestamp : ℤ) : Except ValueError Unit := do
  let _ ← unsigned amount u64
  let _ ← unsigned timestamp u64
  let _ ← unsigned pool.sqrtPrice u128
  let _ ← unsigned pool.liquidity u128
  let _ ← unsigned pool.tickSpacing 65535
  let _ ← unsigned pool.feeRate 65535
  require (amount ≠ 0 ∧ pool.tickSpacing ≠ 0 ∧
    (minTick ≤ pool.tickCurrent ∧ pool.tickCurrent ≤ maxTick) ∧
    (minSqrtPrice ≤ pool.sqrtPrice ∧ pool.sqrtPrice ≤ maxSqrtPrice)) .invalidWhirlpoolPoolInput

/-- The number of ticks in a tick array. -/
def arrayStep (pool : ClmmPool) : ℤ := 88 * pool.tickSpacing

def sortedStarts (arrayStarts : List ℤ) : List ℤ := arrayStarts.insertionSort (· ≤ ·)

def checkArrays (pool : ClmmPool) (starts : List ℤ) : Except ValueError Unit :=
  require ((1 ≤ starts.length ∧ starts.length ≤ 6) ∧
    (∀ s ∈ starts, s % arrayStep pool = 0 ∧ s ≤ maxTick ∧ minTick < s + arrayStep pool) ∧
    starts.IsChain (fun a b => b - a = arrayStep pool)) .invalidWhirlpoolArraySequence

/-- The ends of the window that sorted array starts cover. -/
def windowLower (starts : List ℤ) : ℤ := max (starts.headD 0) minTick

def windowUpper (pool : ClmmPool) (starts : List ℤ) : ℤ :=
  min (starts.getLastD 0 + arrayStep pool - 1) maxTick

/-- The limit, zero standing for none. -/
def limitOr (limit : ℤ) (down : Bool) : ℤ :=
  if limit ≠ 0 then limit else if down then minSqrtPrice else maxSqrtPrice

def checkLimit (pool : ClmmPool) (limit : ℤ) (down : Bool) : Except ValueError Unit :=
  require ((minSqrtPrice ≤ limit ∧ limit ≤ maxSqrtPrice) ∧
    ¬ (if down then limit ≥ pool.sqrtPrice else limit ≤ pool.sqrtPrice))
    .invalidWhirlpoolPriceLimit

def checkTick (pool : ClmmPool) (lower upper : ℤ) (t : ClmmTick) : Except ValueError Unit :=
  require ((lower ≤ t.tick ∧ t.tick ≤ upper) ∧ t.tick % pool.tickSpacing = 0 ∧
    (-2 ^ 127 ≤ t.liquidityNet ∧ t.liquidityNet < 2 ^ 127)) .invalidWhirlpoolTick

def orderedTicks (ticks : List ClmmTick) : List ClmmTick :=
  if ticks.IsChain (fun a b => a.tick < b.tick) then ticks
  else ticks.insertionSort (fun a b => a.tick ≤ b.tick)

def checkAdaptive (a : WhirlpoolAdaptiveFee) : Except ValueError Unit := do
  forM [a.filterPeriod, a.decayPeriod, a.reductionFactor, a.tickGroupSize] fun v => do
    let _ ← unsigned v 65535
    return ()
  forM [a.controlFactor, a.maximumVolatility, a.volatilityReference, a.volatility] fun v => do
    let _ ← unsigned v 0xFFFFFFFF
    return ()
  let _ ← unsigned a.lastReferenceTimestamp u64
  let _ ← unsigned a.lastMajorSwapTimestamp u64
  require (a.tickGroupSize ≠ 0 ∧ a.reductionFactor ≤ 10000 ∧
    a.volatilityReference ≤ a.maximumVolatility ∧
    a.maximumVolatility * a.tickGroupSize ≤ 0xFFFFFFFF ∧
    (-2 ^ 31 ≤ a.referenceGroup ∧ a.referenceGroup < 2 ^ 31)) .invalidWhirlpoolAdaptiveFee

/-- The reference group and its volatility at the time of the swap. -/
def decayReference (a : WhirlpoolAdaptiveFee) (group timestamp : ℤ) : ℤ × ℤ :=
  let last := max a.lastReferenceTimestamp a.lastMajorSwapTimestamp
  if timestamp - a.lastReferenceTimestamp > 3600 ∨ timestamp - last ≥ a.decayPeriod then
    (group, 0)
  else if timestamp - last ≥ a.filterPeriod then
    (group, a.volatility * a.reductionFactor / 10000)
  else (a.referenceGroup, a.volatilityReference)

def prepareAdaptive (pool : ClmmPool) (timestamp : ℤ) (a : WhirlpoolAdaptiveFee) :
    Except ValueError Adaptive := do
  checkAdaptive a
  require (¬ timestamp < max a.lastReferenceTimestamp a.lastMajorSwapTimestamp)
    .whirlpoolTimestampPredatesReference
  let (reference, volatilityReference) :=
    decayReference a (pool.tickCurrent / a.tickGroupSize) timestamp
  require (volatilityReference ≤ a.maximumVolatility) .invalidWhirlpoolVolatilityReference
  let distance := ceil (a.maximumVolatility - volatilityReference) 10000
  return {
    groupSize := a.tickGroupSize
    reference
    volatilityReference
    maximum := a.maximumVolatility
    control := a.controlFactor
    lowerGroup :=
      if (reference - distance) * a.tickGroupSize > minTick then some (reference - distance)
      else none
    upperGroup :=
      if (reference + distance + 1) * a.tickGroupSize < maxTick then some (reference + distance)
      else none }

/-- The tick group of the pool. -/
def initialGroup (pool : ClmmPool) : Option Adaptive → ℤ
  | none => 0
  | some a => pool.tickCurrent / a.groupSize

def whirlpoolPrepare (pool : ClmmPool) (ticks : List ClmmTick) (arrayStarts : List ℤ)
    (amount timestamp : ℤ) (down : Bool) (adaptive : Option WhirlpoolAdaptiveFee) (limit : ℤ) :
    Except ValueError (WhirlpoolSwap × WhirlpoolState) := do
  checkPool pool amount timestamp
  let starts := sortedStarts arrayStarts
  checkArrays pool starts
  let lower := windowLower starts
  let upper := windowUpper pool starts
  let _ ← unsigned limit u128
  checkLimit pool (limitOr limit down) down
  forM ticks (checkTick pool lower upper)
  let ordered := orderedTicks ticks
  require (ordered.IsChain (fun a b => a.tick ≠ b.tick)) .duplicateWhirlpoolTick
  let adaptive ← adaptive.mapM (prepareAdaptive pool timestamp)
  return (
    { pool, ticks := ordered, amount, limit := limitOr limit down, lower, upper, down, adaptive },
    { current := pool.sqrtPrice, tick := pool.tickCurrent, liquidity := pool.liquidity
      remaining := amount, output := 0, fees := 0
      minimumFee := pool.feeRate, maximumFee := pool.feeRate, first := true
      group := initialGroup pool adaptive })

/-! ### One iteration -/

/-- The loaded tick met first. -/
def nextTick (c : WhirlpoolSwap) (s : WhirlpoolState) : Option ClmmTick :=
  let position : ℤ := bisectRight (c.ticks.map (·.tick)) s.tick - (if c.down then 1 else 0)
  if 0 ≤ position ∧ position < c.ticks.length then c.ticks[position.toNat]? else none

/-- The end of the window in the direction of the swap. -/
def windowEdge (c : WhirlpoolSwap) : ℤ := if c.down then c.lower else c.upper

def nextIndexOf (c : WhirlpoolSwap) : Option ClmmTick → ℤ
  | some t => t.tick
  | none => windowEdge c

/-- The volatility charged in a tick group. -/
def volatilityAt (a : Adaptive) (group : ℤ) : ℤ :=
  min (a.volatilityReference + |a.reference - group| * 10000) a.maximum

def adaptiveFee (pool : ClmmPool) (a : Adaptive) (volatility : ℤ) : ℤ :=
  let crossed := volatility * a.groupSize
  min (pool.feeRate + min (ceil (a.control * crossed * crossed) 10000000000000) 100000) 100000

/-- Whether the tick groups are skipped, and the tick where the step has to stop
on their account. -/
def groupStop (down : Bool) (a : Adaptive) (s : WhirlpoolState) : Bool × Option ℤ :=
  let inside :=
    (false, some (max minTick (min maxTick
      ((if down then s.group else s.group + 1) * a.groupSize))))
  let upper :=
    match a.upperGroup with
    | none => inside
    | some u =>
        if s.group > u then (true, if down then some ((u + 1) * a.groupSize) else none) else inside
  if a.control = 0 ∨ s.liquidity = 0 then (true, none)
  else
    match a.lowerGroup with
    | none => upper
    | some l =>
        if s.group < l then (true, if down then none else some (l * a.groupSize)) else upper

structure WhirlpoolPlan where
  next : Option ClmmTick
  nextIndex : ℤ
  nextPrice : ℤ
  fee : ℤ
  skipped : Bool
  bound : ℤ
  deriving DecidableEq, Repr

def whirlpoolPlan (c : WhirlpoolSwap) (s : WhirlpoolState) : Except ValueError WhirlpoolPlan := do
  let next := nextTick c s
  let nextIndex := nextIndexOf c next
  let nextPrice ← whirlpoolSqrtPriceAtTick nextIndex
  let target := nearer c.down nextPrice c.limit
  match c.adaptive with
  | none => return ⟨next, nextIndex, nextPrice, c.pool.feeRate, false, target⟩
  | some a =>
      let fee := adaptiveFee c.pool a (volatilityAt a s.group)
      match groupStop c.down a s with
      | (skipped, none) => return ⟨next, nextIndex, nextPrice, fee, skipped, target⟩
      | (skipped, some stop) =>
          let price ← whirlpoolSqrtPriceAtTick stop
          return ⟨next, nextIndex, nextPrice, fee, skipped, nearer c.down target price⟩

/-- What a step leaves of the input, before it is checked. -/
def stepRemaining (s : WhirlpoolState) (step : ClmmSwapStep) : ℤ :=
  s.remaining - step.amountIn - step.fee

def whirlpoolTakeStep (c : WhirlpoolSwap) (s : WhirlpoolState) (plan : WhirlpoolPlan) :
    Except ValueError WhirlpoolState := do
  let step ← clmmSwapStep s.current plan.bound s.liquidity s.remaining plan.fee c.down
  let remaining ← unsigned (stepRemaining s step) u64
  let output ← unsigned (s.output + step.amountOut) u64
  let fees ← unsigned (s.fees + step.fee) u64
  return { s with
    remaining, output, fees, current := step.sqrtPrice
    minimumFee := if s.first then plan.fee else min s.minimumFee plan.fee
    maximumFee := if s.first then plan.fee else max s.maximumFee plan.fee
    first := false }

/-- The tick and the liquidity where the step from the price `old` ended. -/
def whirlpoolLand (c : WhirlpoolSwap) (plan : WhirlpoolPlan) (old : ℤ) (s : WhirlpoolState) :
    Except ValueError WhirlpoolState :=
  if s.current = plan.nextPrice then do
    let liquidity ←
      (match plan.next with
      | some t =>
          unsigned (s.liquidity + (if c.down then -t.liquidityNet else t.liquidityNet)) u128
      | none => .ok s.liquidity)
    return { s with
      liquidity, tick := if c.down then plan.nextIndex - 1 else plan.nextIndex }
  else if s.current ≠ old then do
    let tick ← whirlpoolTickAtSqrtPrice s.current
    return { s with tick }
  else .ok s

/-- The tick group tracked for the next iteration. The tick whose price is
compared is one that has just been read off a price or crossed, so its price is
read without the range check. -/
def advanceGroup (c : WhirlpoolSwap) (plan : WhirlpoolPlan) (s : WhirlpoolState) :
    Except ValueError WhirlpoolState :=
  match c.adaptive with
  | none => .ok s
  | some a => do
      let last ←
        (if plan.skipped then do
          let ti ←
            (if s.current = plan.nextPrice then .ok plan.nextIndex
            else whirlpoolTickAtSqrtPrice s.current)
          let onBoundary := ti % a.groupSize = 0 ∧ s.current = tickPrice ti
          let last := ti / a.groupSize - (if ¬ c.down ∧ onBoundary then 1 else 0)
          return if (if c.down then last < s.group else last > s.group) then last else s.group
        else .ok s.group)
      return { s with group := last + (if c.down then -1 else 1) }

def whirlpoolResult (c : WhirlpoolSwap) (s : WhirlpoolState) : WhirlpoolSwapResult :=
  ⟨c.amount - s.remaining, s.output, s.fees, s.minimumFee, s.maximumFee, s.current, s.tick,
    s.liquidity⟩

/-- The tick is past the last loaded array. -/
def OutsideWindow (c : WhirlpoolSwap) (s : WhirlpoolState) : Prop :=
  if c.down then s.tick < c.lower else s.tick ≥ c.upper

instance (c : WhirlpoolSwap) (s : WhirlpoolState) : Decidable (OutsideWindow c s) :=
  inferInstanceAs (Decidable (if c.down then s.tick < c.lower else s.tick ≥ c.upper))

def whirlpoolIteration (c : WhirlpoolSwap) (s : WhirlpoolState) :
    Except ValueError (Flow WhirlpoolState WhirlpoolSwapResult) :=
  if s.remaining = 0 ∨ s.current = c.limit then .ok (.ret (whirlpoolResult c s))
  else do
    require (¬ OutsideWindow c s) .whirlpoolRequiresMoreTickArrays
    let plan ← whirlpoolPlan c s
    let moved ← whirlpoolTakeStep c s plan
    let landed ← whirlpoolLand c plan s.current moved
    let next ← advanceGroup c plan landed
    return .next next

def whirlpoolSwapExactIn (pool : ClmmPool) (ticks : List ClmmTick) (arrayStarts : List ℤ)
    (amount timestamp : ℤ) (down : Bool) (adaptive : Option WhirlpoolAdaptiveFee) (limit : ℤ) :
    Except ValueError WhirlpoolSwapResult := do
  let (c, s) ← whirlpoolPrepare pool ticks arrayStarts amount timestamp down adaptive limit
  BoundedLoop.run (whirlpoolIteration c) (fun _ => .error .whirlpoolBudgetExhausted) 8192 s

end SolTrade.Whirlpool
