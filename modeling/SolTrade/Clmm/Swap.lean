import Mathlib.Data.List.MinMax
import SolTrade.Library.BoundedLoop
import SolTrade.Clmm.SwapStep
import SolTrade.Clmm.TickMath

/-!
The CLMM exact-in traversal.

Everything computed before the loop is collected in a `ClmmSwap`; what the loop
changes is a `ClmmState`. One iteration plans a step (`clmmPlan`), takes it
(`clmmTakeStep`), and where the price meets an initialized tick fills the limit
orders there (`clmmFillOrders`) and crosses it (`clmmCrossTick`).
-/

namespace SolTrade.Clmm

open Library

structure ClmmTick where
  tick : ℤ
  liquidityNet : ℤ
  liquidityGross : ℤ
  orders : ℤ := 0
  partialOrders : ℤ := 0
  deriving DecidableEq, Repr

structure ClmmPool where
  sqrtPrice : ℤ
  liquidity : ℤ
  tickCurrent : ℤ
  tickSpacing : ℤ
  feeRate : ℤ
  deriving DecidableEq, Repr

structure ClmmSwapResult where
  consumed : ℤ
  amountOut : ℤ
  sqrtPrice : ℤ
  tickCurrent : ℤ
  liquidity : ℤ
  deriving DecidableEq, Repr

/-- What is fixed before the first iteration. -/
structure ClmmSwap where
  pool : ClmmPool
  ticks : List ClmmTick
  amount : ℤ
  limit : ℤ
  down : Bool
  inputFee : Bool
  enabled : Bool
  reference : ℤ
  volatilityReference : ℤ
  maximum : ℤ
  control : ℤ
  deriving DecidableEq, Repr

/-- What an iteration changes. `orders` runs parallel to the tick list. -/
structure ClmmState where
  current : ℤ
  tick : ℤ
  liquidity : ℤ
  remaining : ℤ
  output : ℤ
  orders : List ℤ
  group : ℤ
  deriving DecidableEq, Repr

/-! ### Before the loop -/

/-- `int.from_bytes(bytes, "little")`. -/
def littleEndian : List UInt8 → ℤ
  | [] => 0
  | b :: bs => b.toNat + 256 * littleEndian bs

/-- The number in bytes `o` to `o + n` of the dynamic-fee block. -/
def number (d : List UInt8) (o n : ℕ) (signed : Bool) : ℤ :=
  let v := littleEndian ((d.drop o).take n)
  if signed ∧ 2 ^ (8 * n - 1) ≤ v then v - 2 ^ (8 * n) else v

def checkPool (pool : ClmmPool) (amount limit feeOn timestamp : ℤ) (down : Bool) :
    Except ValueError Unit := do
  let _ ← unsigned amount u64
  let _ ← unsigned timestamp u64
  let _ ← unsigned pool.liquidity u128
  let _ ← unsigned pool.sqrtPrice u128
  let _ ← unsigned limit u128
  let _ ← unsigned pool.tickSpacing 65535
  let _ ← unsigned pool.feeRate 999999
  let _ ← unsigned feeOn 2
  require ((minSqrtPrice ≤ pool.sqrtPrice ∧ pool.sqrtPrice ≤ maxSqrtPrice) ∧
    (minTick ≤ pool.tickCurrent ∧ pool.tickCurrent ≤ maxTick) ∧
    (1 ≤ pool.tickSpacing ∧ pool.tickSpacing ≤ 65535) ∧
    (0 ≤ pool.feeRate ∧ pool.feeRate < 1000000) ∧ (feeOn = 0 ∨ feeOn = 1 ∨ feeOn = 2))
    .invalidClmmPool
  require ((minSqrtPrice ≤ limit ∧ limit ≤ maxSqrtPrice) ∧
    ¬ (if down then limit ≥ pool.sqrtPrice else limit ≤ pool.sqrtPrice)) .invalidClmmLimit

def checkDynamicFee (pool : ClmmPool) (d : List UInt8) : Except ValueError Unit :=
  require (number d 0 2 false > 0 ∧ number d 2 2 false > number d 0 2 false ∧
    (1 ≤ number d 4 2 false ∧ number d 4 2 false < 10000) ∧
    (1 ≤ number d 6 4 false ∧ number d 6 4 false < 100000) ∧
    number d 10 4 false * pool.tickSpacing ≤ 0xFFFFFFFF) .invalidClmmDynamicFeeParams

/-- The reference group and its volatility, decayed by the time since the last
update. -/
def decayReference (d : List UInt8) (group timestamp : ℤ) : ℤ × ℤ :=
  let elapsed := max 0 (timestamp - number d 26 8 false)
  if elapsed ≥ number d 0 2 false then
    (group,
      if elapsed < number d 2 2 false then number d 22 4 false * number d 4 2 false / 10000 else 0)
  else (number d 14 4 true, number d 18 4 false)

def checkTick (pool : ClmmPool) (t : ClmmTick) : Except ValueError Unit := do
  require ((minTick ≤ t.tick ∧ t.tick ≤ maxTick) ∧ t.tick % pool.tickSpacing = 0 ∧
    (-2 ^ 127 ≤ t.liquidityNet ∧ t.liquidityNet < 2 ^ 127)) .invalidClmmTick
  let _ ← unsigned t.liquidityGross u128
  return ()

def tickOrders (t : ClmmTick) : Except ValueError ℤ := do
  let orders ← unsigned t.orders u64
  let partialOrders ← unsigned t.partialOrders u64
  unsigned (orders + partialOrders) u64

def clmmPrepare (pool : ClmmPool) (ticks : List ClmmTick) (amount limit feeOn : ℤ)
    (dynamic : List UInt8) (timestamp : ℤ) (down : Bool) :
    Except ValueError (ClmmSwap × ClmmState) := do
  checkPool pool amount limit feeOn timestamp down
  require (dynamic.length = 80) .invalidClmmDynamicFeeBytes
  let enabled := dynamic.any (· ≠ 0)
  let group := pool.tickCurrent / pool.tickSpacing
  (if enabled then checkDynamicFee pool dynamic else .ok ())
  let reference :=
    if enabled then decayReference dynamic group timestamp
    else (number dynamic 14 4 true, number dynamic 18 4 false)
  require (ticks.map (·.tick)).Nodup .duplicateClmmTick
  forM ticks (checkTick pool)
  let orders ← ticks.mapM tickOrders
  return (
    { pool, ticks, amount, limit, down
      inputFee := feeOn = 0 ∨ feeOn = 1 ∧ down ∨ feeOn = 2 ∧ ¬ down
      enabled
      reference := reference.1
      volatilityReference := reference.2
      maximum := number dynamic 10 4 false
      control := number dynamic 6 4 false },
    { current := pool.sqrtPrice, tick := pool.tickCurrent, liquidity := pool.liquidity
      remaining := amount, output := 0, orders, group })

/-! ### One iteration -/

/-- The initialized ticks ahead, with their positions in the tick list. -/
def candidates (c : ClmmSwap) (s : ClmmState) : List (ClmmTick × ℕ) :=
  c.ticks.zipIdx.filter fun ti =>
    (ti.1.liquidityGross ≠ 0 ∨ s.orders.getD ti.2 0 ≠ 0) ∧
      (if c.down then ti.1.tick ≤ s.tick else ti.1.tick > s.tick)

/-- The first entry with the least key. -/
def minBy {α β : Type} [LinearOrder β] (key : α → β) (entries : List α) : Option α :=
  entries.argmin key

/-- The initialized tick met first. -/
def nextInitialized (c : ClmmSwap) (s : ClmmState) : Option (ClmmTick × ℕ) :=
  minBy (fun ti => if c.down then -ti.1.tick else ti.1.tick) (candidates c s)

/-- Its tick, or the end of the tick range. -/
def nextTickOf (c : ClmmSwap) : Option (ClmmTick × ℕ) → ℤ
  | some (t, _) => t.tick
  | none => if c.down then minTick else maxTick

structure ClmmPlan where
  next : Option (ClmmTick × ℕ)
  nextTick : ℤ
  nextPrice : ℤ
  fee : ℤ
  skipped : Bool
  bound : ℤ
  deriving DecidableEq, Repr

/-- The dynamic fee's volatility in a tick group. -/
def volatilityAt (c : ClmmSwap) (group : ℤ) : ℤ :=
  min (c.volatilityReference + |c.reference - group| * 10000) c.maximum

def dynamicFee (c : ClmmSwap) (volatility : ℤ) : ℤ :=
  let crossed := volatility * c.pool.tickSpacing
  min (c.pool.feeRate + ceil (c.control * crossed * crossed) 10000000000000) 100000

/-- The tick at which the current group ends, kept within the tick range. -/
def groupBoundary (c : ClmmSwap) (group : ℤ) : ℤ :=
  max minTick (min maxTick ((if c.down then group else group + 1) * c.pool.tickSpacing))

/-- The tick and price met next, the fee charged on the way, and the price at
which the step has to stop. -/
def clmmPlan (c : ClmmSwap) (s : ClmmState) : Except ValueError ClmmPlan := do
  let next := nextInitialized c s
  let nextTick := nextTickOf c next
  let nextPrice ← clmmSqrtPriceAtTick nextTick
  let target := nearer c.down nextPrice c.limit
  if c.enabled then
    let volatility := volatilityAt c s.group
    let fee := dynamicFee c volatility
    if s.liquidity = 0 ∨ volatility = c.maximum then
      return ⟨next, nextTick, nextPrice, fee, true, target⟩
    else do
      let price ← clmmSqrtPriceAtTick (groupBoundary c s.group)
      return ⟨next, nextTick, nextPrice, fee, false, nearer c.down target price⟩
  else return ⟨next, nextTick, nextPrice, c.pool.feeRate, true, target⟩

/-- What a swap step leaves of the input, before it is checked. A fee on the
output leaves the step's own fee uncharged. -/
def stepRemaining (c : ClmmSwap) (s : ClmmState) (step : ClmmSwapStep) : ℤ :=
  s.remaining - step.amountIn - (if c.inputFee then step.fee else 0)

def clmmTakeStep (c : ClmmSwap) (s : ClmmState) (plan : ClmmPlan) :
    Except ValueError ClmmState :=
  if s.current ≠ plan.bound then do
    let step ← clmmSwapStep s.current plan.bound s.liquidity s.remaining
      (if c.inputFee then plan.fee else 0) c.down
    let remaining ← unsigned (stepRemaining c s step) u64
    let net :=
      if c.inputFee then step.amountOut
      else step.amountOut - ceil (step.amountOut * plan.fee) 1000000
    let output ← unsigned (s.output + net) u64
    return { s with remaining, output, current := step.sqrtPrice }
  else .ok s

/-- How much of a limit order the remaining input matches: what the order gives
and what the input pays, with its fee. -/
structure OrderMatch where
  gross : ℤ
  consumed : ℤ
  feeAmount : ℤ
  deriving DecidableEq, Repr

def orderPrice (current : ℤ) (down : Bool) : ℤ :=
  current * current / q64 + (if ¬ down ∧ current * current % q64 ≠ 0 then 1 else 0)

def matchOrders (down inputFee : Bool) (remaining fee orders price : ℤ) :
    Except ValueError OrderMatch :=
  let feeAmount := if inputFee then ceil (remaining * fee) 1000000 else 0
  let available := remaining - feeAmount
  let matched := if down then available * price / q64 else available * q64 / price
  let gross := min matched orders
  if matched > orders then do
    let consumed ← unsigned (if down then ceil (gross * q64) price else ceil (gross * price) q64) u64
    return ⟨gross, consumed, if inputFee then ceil (consumed * fee) (1000000 - fee) else 0⟩
  else .ok ⟨gross, available, feeAmount⟩

/-- What filling the orders leaves of the input, before it is checked. -/
def fillRemaining (s : ClmmState) (m : OrderMatch) : ℤ := s.remaining - (m.consumed + m.feeAmount)

def clmmFillOrders (c : ClmmSwap) (s : ClmmState) (fee : ℤ) (i : ℕ) :
    Except ValueError ClmmState :=
  if s.orders.getD i 0 ≠ 0 ∧ s.remaining ≠ 0 then do
    let price := orderPrice s.current c.down
    require (price ≠ 0) .clmmZeroOrderPrice
    let m ← matchOrders c.down c.inputFee s.remaining fee (s.orders.getD i 0) price
    let _ ← unsigned (m.consumed + m.feeAmount) u64
    let remaining ← unsigned (fillRemaining s m) u64
    let output ← unsigned
      (s.output + m.gross - (if c.inputFee then 0 else ceil (m.gross * fee) 1000000)) u64
    return { s with remaining, output, orders := s.orders.set i (s.orders.getD i 0 - m.gross) }
  else .ok s

def clmmCrossTick (c : ClmmSwap) (s : ClmmState) (t : ClmmTick) (i : ℕ) :
    Except ValueError ClmmState := do
  let left := s.orders.getD i 0
  let liquidity ←
    (if t.liquidityGross ≠ 0 ∧ left = 0 then
      unsigned (s.liquidity + (if c.down then -t.liquidityNet else t.liquidityNet)) u128
    else .ok s.liquidity)
  return { s with
    liquidity
    tick := if (c.down ∧ left = 0) ∨ (¬ c.down ∧ left ≠ 0) then t.tick - 1 else t.tick }

/-- The tick group tracked for the next iteration. -/
def advanceGroup (c : ClmmSwap) (plan : ClmmPlan) (s : ClmmState) : ClmmState :=
  if c.enabled then
    let boundaryTick := if s.current = plan.nextPrice then plan.nextTick else s.tick
    let group :=
      if plan.skipped then
        boundaryTick / c.pool.tickSpacing -
          (if ¬ c.down ∧ boundaryTick % c.pool.tickSpacing = 0 then 1 else 0)
      else s.group
    { s with group := group + (if c.down then -1 else 1) }
  else s

def clmmResult (c : ClmmSwap) (s : ClmmState) : ClmmSwapResult :=
  ⟨c.amount - s.remaining, s.output, s.current, s.tick, s.liquidity⟩

def clmmIteration (c : ClmmSwap) (s : ClmmState) :
    Except ValueError (Flow ClmmState ClmmSwapResult) :=
  if s.remaining = 0 ∨ s.current = c.limit then .ok (.ret (clmmResult c s))
  else do
    let plan ← clmmPlan c s
    let moved ← clmmTakeStep c s plan
    if moved.current = plan.nextPrice then
      match plan.next with
      | none => return .brk moved
      | some (t, i) =>
          let filled ← clmmFillOrders c moved plan.fee i
          let crossed ← clmmCrossTick c filled t i
          return .next (advanceGroup c plan crossed)
    else if moved.current ≠ s.current then
      let tick ← clmmTickAtSqrtPrice moved.current
      return .next (advanceGroup c plan { moved with tick })
    else return .next (advanceGroup c plan moved)

/-- After the loop, reached by a break or by using up the budget. -/
def clmmFinish (c : ClmmSwap) (s : ClmmState) : Except ValueError ClmmSwapResult :=
  if s.remaining ≠ 0 ∧ s.current ≠ c.limit then .error .clmmBudgetExhausted
  else .ok (clmmResult c s)

def clmmSwapExactIn (pool : ClmmPool) (ticks : List ClmmTick) (amount limit feeOn : ℤ)
    (dynamic : List UInt8) (timestamp : ℤ) (down : Bool) : Except ValueError ClmmSwapResult := do
  let (c, s) ← clmmPrepare pool ticks amount limit feeOn dynamic timestamp down
  BoundedLoop.run (clmmIteration c) (clmmFinish c) 8192 s

end SolTrade.Clmm
