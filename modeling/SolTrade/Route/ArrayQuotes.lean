import SolTrade.Clmm.Swap
import SolTrade.Library.Wire
import SolTrade.Route.ReserveQuotes
import SolTrade.Subscription.Snapshot
import SolTrade.Whirlpool.Swap

/-!
The exact-in quotes that load tick or bin arrays one after the other until the
swap consumes its input.

Reading an account and decoding it is what the cached pool's functions stand for.
They may answer anything, and raise.
-/

namespace SolTrade.Route

open Library Wire
open Clmm (ClmmPool ClmmTick ClmmSwapResult clmmSwapExactIn clmmSqrtPriceAtTick minTick maxTick)
open Whirlpool (WhirlpoolAdaptiveFee WhirlpoolSwapResult whirlpoolSwapExactIn)
open Dlmm (DlmmPool DlmmBin DlmmQuote dlmmSwapExactIn)
open Subscription (CacheReadContext)

/-! ### Instruction data -/

/-- `struct.pack("<Q", v)`. -/
def packU64 (v : ℤ) : Except RouteError (List UInt8) := do
  require (0 ≤ v ∧ v ≤ u64) .packRange
  return littleEndian 8 v.toNat

structure SwapV2Args where
  amount : ℤ
  otherAmountThreshold : ℤ
  sqrtPriceLimit : ℤ := 0
  amountSpecifiedIsInput : Bool := true

def dataV2 (args : SwapV2Args) : Except ValueError (List UInt8) := do
  require (∀ v ∈ [args.amount, args.otherAmountThreshold], 0 ≤ v ∧ v < 2 ^ 64) .swapAmountOutsideU64
  require (0 ≤ args.sqrtPriceLimit ∧ args.sqrtPriceLimit < 2 ^ 128) .sqrtPriceOutsideU128
  return [43, 4, 237, 11, 26, 201, 30, 98] ++ littleEndian 8 args.amount.toNat ++
    littleEndian 8 args.otherAmountThreshold.toNat ++ littleEndian 16 args.sqrtPriceLimit.toNat ++
    [if args.amountSpecifiedIsInput then 1 else 0]

/-! ### What the three protocols share -/

/-- A quote against loaded arrays, by the slot and epoch of its state. -/
structure CachedArrayQuote where
  amountIn : ℤ
  estimatedNetAmountOut : ℤ
  minimumNetAmountOut : ℤ
  minimumAmountOut : ℤ
  stateSlot : ℤ
  epoch : ℤ
  deriving DecidableEq

structure ArrayRequest where
  unixTimestamp : ℤ
  amount : ℤ
  slippageBps : ℤ
  maximumArrays : ℤ
  deriving DecidableEq

def ArrayRequest.check (r : ArrayRequest) (timestampMaximum : ℤ) (e : ValueError) :
    Except ValueError Unit := do
  let _ ← unsigned r.amount u64
  let _ ← unsigned r.unixTimestamp timestampMaximum
  require (¬ (r.amount = 0 ∨ ¬ (0 ≤ r.slippageBps ∧ r.slippageBps < 10000) ∨
    ¬ (1 ≤ r.maximumArrays ∧ r.maximumArrays ≤ 32))) e

/-- The input that reaches the pool. -/
def netInput (amount : ℤ) (feeIn : TokenTransferFee) (e : ValueError) : Except ValueError ℤ := do
  let net := amount - (← feeIn.calculate amount)
  require (net ≠ 0) e
  return net

/-- The quote of an output, less its transfer fee and the slippage. -/
def protectedQuote (context : CacheReadContext) (r : ArrayRequest) (amountOut : ℤ)
    (feeOut : TokenTransferFee) (e : ValueError) : Except ValueError CachedArrayQuote := do
  let net := amountOut - (← feeOut.calculate amountOut)
  let minimum := net * (10000 - r.slippageBps) / 10000
  require (minimum ≠ 0) e
  return ⟨r.amount, net, minimum, minimum, context.slot, context.epoch⟩

/-! ### CLMM -/

structure CachedClmmPool where
  mint0 : Pubkey
  pool : ClmmPool
  fee0 : TokenTransferFee
  fee1 : TokenTransferFee
  feeOn : ℤ
  dynamic : List UInt8
  /-- The bit of an array, in the pool or in its bitmap extension. -/
  initialized : ℤ → Except RouteError Bool
  tickArray : ℤ → Except RouteError (Pubkey × List ClmmTick)
  accounts : Pubkey → List Pubkey → Bool → Except RouteError (List AccountMeta)

/-- What is loaded so far; `bitmap` tells whether the extension was read. -/
structure ClmmLoad where
  ticks : List ClmmTick := []
  arrays : List Pubkey := []
  bitmap : Bool := false

def clmmArrays (c : CachedClmmPool) (r : ArrayRequest) (net : ℤ) (down : Bool) :
    List ℕ → ClmmLoad → Except RouteError (ClmmSwapResult × ℤ × ClmmLoad)
  | [], _ => .error (.value .insufficientClmmLiquidity)
  | offset :: offsets, load => do
      let step := 60 * c.pool.tickSpacing
      let start := c.pool.tickCurrent / step * step
      let nextStart := start + (if down then -(offset : ℤ) else offset) * step
      if nextStart > maxTick ∨ nextStart + step ≤ minTick then
        .error (.value .insufficientClmmLiquidity)
      else
        let index := nextStart / step
        let initialized ← c.initialized index
        let bitmap : Bool := load.bitmap || decide (¬ (-512 ≤ index ∧ index < 512))
        if initialized = false then clmmArrays c r net down offsets { load with bitmap }
        else
          let (address, ticks) ← c.tickArray nextStart
          let load : ClmmLoad := ⟨load.ticks ++ ticks, load.arrays ++ [address], bitmap⟩
          require (load.arrays.length ≤ r.maximumArrays) (.value .clmmArrayBudget)
          let boundary :=
            if down then max nextStart minTick else min (nextStart + step - 1) maxTick
          let limit ← clmmSqrtPriceAtTick boundary
          if (if down then limit ≥ c.pool.sqrtPrice else limit ≤ c.pool.sqrtPrice) then
            clmmArrays c r net down offsets load
          else
            let result ← clmmSwapExactIn c.pool load.ticks net limit c.feeOn c.dynamic
              r.unixTimestamp down
            if result.consumed = net then return (result, limit, load)
            else
              require (load.arrays.length < r.maximumArrays) (.value .clmmArrayBudget)
              clmmArrays c r net down offsets load

/-- The quote, the price limit of the swap and what it loaded. -/
def calculateCachedClmm (c : CachedClmmPool) (hint : PoolTradeHint) (context : CacheReadContext)
    (r : ArrayRequest) : Except RouteError (CachedArrayQuote × ℤ × ClmmLoad) := do
  let down : Bool := hint.inputMint = c.mint0
  let (feeIn, feeOut) := if down then (c.fee0, c.fee1) else (c.fee1, c.fee0)
  let net ← netInput r.amount feeIn .clmmZeroInput
  let offsets := List.range ((maxTick - minTick) / (60 * c.pool.tickSpacing) + 2).toNat
  let (result, limit, load) ← clmmArrays c r net down offsets {}
  let quote ← protectedQuote context r result.amountOut feeOut .clmmZeroOutput
  return (quote, limit, load)

def checkCachedClmm (r : ArrayRequest) : Except ValueError Unit :=
  r.check u64 .invalidCachedClmmRequest

def buildRaydiumClmmSwapV2 (c : CachedClmmPool) (payer : Pubkey) (load : ClmmLoad)
    (args : SwapV2Args) : Except RouteError Instruction := do
  require (load.arrays ≠ []) (.value .clmmRequiresArray)
  let accounts ← c.accounts payer load.arrays load.bitmap
  let data ← dataV2 args
  return ⟨clmmProgram, data, accounts⟩

/-! ### Whirlpool -/

structure CachedWhirlpoolPool where
  mintA : Pubkey
  pool : ClmmPool
  feeA : TokenTransferFee
  feeB : TokenTransferFee
  adaptive : Option WhirlpoolAdaptiveFee
  tickArray : ℤ → Except RouteError (Pubkey × List ClmmTick)
  accounts : Pubkey → List Pubkey → Except RouteError (List AccountMeta)

structure WhirlpoolLoad where
  ticks : List ClmmTick := []
  starts : List ℤ := []
  arrays : List Pubkey := []

def whirlpoolArrays (c : CachedWhirlpoolPool) (r : ArrayRequest) (net : ℤ) (down : Bool) :
    List ℕ → WhirlpoolLoad → Except RouteError (WhirlpoolSwapResult × WhirlpoolLoad)
  | [], _ => .error (.value .whirlpoolArrayBudget)
  | i :: rest, load => do
      let step := 88 * c.pool.tickSpacing
      let shifted := c.pool.tickCurrent + (if down then 0 else c.pool.tickSpacing)
      let start := shifted / step * step
      let st := start + (if down then -(i : ℤ) else i) * step
      if st > maxTick ∨ st + step ≤ minTick then .error (.value .whirlpoolArrayBudget)
      else
        let (address, ticks) ← c.tickArray st
        let load : WhirlpoolLoad :=
          ⟨load.ticks ++ ticks, load.starts ++ [st], load.arrays ++ [address]⟩
        match whirlpoolSwapExactIn c.pool load.ticks load.starts net r.unixTimestamp down
          c.adaptive 0 with
        | .error .whirlpoolRequiresMoreTickArrays => whirlpoolArrays c r net down rest load
        | .error e => .error (.value e)
        | .ok result =>
            if result.consumed ≠ net then whirlpoolArrays c r net down rest load
            else .ok (result, load)

def calculateCachedWhirlpool (c : CachedWhirlpoolPool) (hint : PoolTradeHint)
    (context : CacheReadContext) (r : ArrayRequest) :
    Except RouteError (CachedArrayQuote × WhirlpoolLoad) := do
  let down : Bool := hint.inputMint = c.mintA
  let (feeIn, feeOut) := if down then (c.feeA, c.feeB) else (c.feeB, c.feeA)
  let net ← netInput r.amount feeIn .whirlpoolZeroInput
  let (result, load) ← whirlpoolArrays c r net down (List.range (min r.maximumArrays 6).toNat) {}
  let quote ← protectedQuote context r result.amountOut feeOut .whirlpoolZeroOutput
  return (quote, load)

def checkCachedWhirlpool (r : ArrayRequest) : Except ValueError Unit :=
  r.check u64 .invalidCachedWhirlpoolRequest

/-- The last array stands in for missing ones. -/
def padArrays (arrays : List Pubkey) : List Pubkey :=
  arrays ++ List.replicate (3 - arrays.length) (arrays.getLastD .default)

def buildWhirlpoolSwapV2 (c : CachedWhirlpoolPool) (payer : Pubkey) (arrays : List Pubkey)
    (args : SwapV2Args) (aToB : Bool) : Except RouteError Instruction := do
  require (3 ≤ arrays.length ∧ arrays.length ≤ 6) (.value .whirlpoolRequiresArrays)
  let accounts ← c.accounts payer arrays
  let limit :=
    if args.sqrtPriceLimit ≠ 0 then args.sqrtPriceLimit
    else if aToB then 4295048016 else 79226673515401279992447579055
  let data ← dataV2 { args with sqrtPriceLimit := limit }
  let supplemental : List UInt8 :=
    if arrays.length > 3 then
      [1] ++ littleEndian 4 1 ++ [6, UInt8.ofNat (arrays.length - 3)]
    else [0]
  return ⟨whirlpoolProgram, data ++ [if aToB then 1 else 0] ++ supplemental, accounts⟩

/-! ### DLMM -/

structure CachedDlmmPool where
  mintX : Pubkey
  pool : DlmmPool
  feeX : TokenTransferFee
  feeY : TokenTransferFee
  orders : Bool
  /-- The bit of an array, in the pool or in its bitmap extension. -/
  initialized : ℤ → Except RouteError Bool
  binArray : ℤ → Except RouteError (Pubkey × List DlmmBin)
  accounts : Pubkey → List Pubkey → Bool → Except RouteError (List AccountMeta)

structure DlmmLoad where
  bins : List DlmmBin := []
  loaded : List ℤ := []
  arrays : List Pubkey := []
  bitmap : Bool := false

def dlmmArrays (c : CachedDlmmPool) (r : ArrayRequest) (net : ℤ) (down : Bool) :
    List ℕ → DlmmLoad → Except RouteError (DlmmQuote × DlmmLoad)
  | [], _ => .error (.value .insufficientDlmmLiquidity)
  | offset :: offsets, load => do
      let index := c.pool.activeId / 70 + (if down then -(offset : ℤ) else offset)
      if index * 70 > 443636 ∨ (index + 1) * 70 ≤ -443636 then
        .error (.value .insufficientDlmmLiquidity)
      else
        let initialized ← c.initialized index
        let bitmap : Bool := load.bitmap || decide (¬ (-512 ≤ index ∧ index < 512))
        let load := { load with loaded := load.loaded ++ [index], bitmap }
        if initialized = false then dlmmArrays c r net down offsets load
        else
          let (address, bins) ← c.binArray index
          let load := { load with bins := load.bins ++ bins, arrays := load.arrays ++ [address] }
          match dlmmSwapExactIn c.pool load.bins load.loaded net r.unixTimestamp down c.orders
            true false with
          | .error (.insufficientArrays _) =>
              require (load.arrays.length < r.maximumArrays) (.value .dlmmArrayBudget)
              dlmmArrays c r net down offsets load
          | .error e => .error (.dlmm e)
          | .ok q =>
              if q.complete = true ∧ q.remainingIn = 0 ∧ load.arrays ≠ [] then .ok (q, load)
              else
                require (load.arrays.length < r.maximumArrays) (.value .dlmmArrayBudget)
                dlmmArrays c r net down offsets load

def calculateCachedDlmm (c : CachedDlmmPool) (hint : PoolTradeHint) (context : CacheReadContext)
    (r : ArrayRequest) : Except RouteError (CachedArrayQuote × DlmmLoad) := do
  let down : Bool := hint.inputMint = c.mintX
  let (feeIn, feeOut) := if down then (c.feeX, c.feeY) else (c.feeY, c.feeX)
  let net ← netInput r.amount feeIn .dlmmZeroInput
  let (result, load) ← dlmmArrays c r net down (List.range 12676) {}
  let quote ← protectedQuote context r result.amountOut feeOut .dlmmZeroOutput
  return (quote, load)

def checkCachedDlmm (r : ArrayRequest) : Except ValueError Unit :=
  r.check (2 ^ 63 - 1) .invalidCachedDlmmRequest

def buildMeteoraDlmmSwap2 (c : CachedDlmmPool) (payer : Pubkey) (load : DlmmLoad)
    (amountIn minOut : ℤ) : Except RouteError Instruction := do
  require (load.arrays ≠ []) (.value .dlmmRequiresArray)
  require (∀ v ∈ [amountIn, minOut], 0 ≤ v ∧ v < 2 ^ 64) (.value .swapAmountOutsideU64)
  let accounts ← c.accounts payer load.arrays load.bitmap
  return ⟨dlmmProgram, [65, 75, 63, 76, 235, 91, 91, 136] ++ littleEndian 8 amountIn.toNat ++
    littleEndian 8 minOut.toNat ++ littleEndian 4 0, accounts⟩

end SolTrade.Route
