import Mathlib.Data.List.Sort
import SolTrade.Library.BoundedLoop
import SolTrade.Library.SortedSearch
import SolTrade.Numeric

/-!
The DLMM exact-in walk over bins.

The walk visits the bins from the active one on. A bin without liquidity for the
direction of the swap is left by `advanceEmpty`, which jumps to the next live bin
of the same array or past the array's edge. Arrays that are not loaded end the
walk, or are passed over in exhaustive mode.
-/

namespace SolTrade.Dlmm

open Library

def precision : ℤ := 1000000000

structure DlmmStaticFee where
  baseFactor : ℤ
  power : ℤ
  control : ℤ
  maximumVolatility : ℤ
  filterPeriod : ℤ
  decayPeriod : ℤ
  reductionFactor : ℤ
  deriving DecidableEq, Repr

structure DlmmVariableFee where
  volatility : ℤ
  reference : ℤ
  indexReference : ℤ
  lastTimestamp : ℤ
  deriving DecidableEq, Repr

structure DlmmBin where
  binId : ℤ
  amountX : ℤ
  amountY : ℤ
  price : ℤ
  openOrder : ℤ := 0
  processedOrder : ℤ := 0
  askSide : ℤ := 0
  deriving DecidableEq, Repr

structure DlmmPool where
  activeId : ℤ
  binStep : ℤ
  feeMode : ℤ
  staticFee : DlmmStaticFee
  variableFee : DlmmVariableFee
  deriving DecidableEq, Repr

structure DlmmQuote where
  amountOut : ℤ
  remainingIn : ℤ
  binsCrossed : ℤ
  complete : Bool
  missingBinId : Option ℤ := none
  deriving DecidableEq, Repr

/-- The `ValueError`s of the DLMM quote. A missing array carries the partial
quote. -/
inductive DlmmError where
  | unsignedOutsideRange
  | signedOutsideRange
  | invalidPool
  | invalidFeeTimeState
  | invalidArray
  | invalidBin
  | zeroPriceWithLiquidity
  | outputOverflows
  | insufficientArrays (partialQuote : DlmmQuote)
  deriving DecidableEq, Repr

/-- The text each error carries. -/
def DlmmError.text : DlmmError → String
  | unsignedOutsideRange => "DLMM unsigned integer outside range"
  | signedOutsideRange => "DLMM signed integer outside range"
  | invalidPool => "Invalid DLMM pool"
  | invalidFeeTimeState => "Invalid DLMM fee/time state"
  | invalidArray => "Invalid/duplicate DLMM array"
  | invalidBin => "Invalid/duplicate/unloaded DLMM bin"
  | zeroPriceWithLiquidity => "Zero DLMM price with liquidity"
  | outputOverflows => "DLMM output overflows u64"
  | insufficientArrays quote =>
      "Missing DLMM bin array for bin " ++
        (match quote.missingBinId with
        | none => "None"
        | some bin => toString bin)

/-- What is fixed before the walk. `byId` are the bins with a price. -/
structure DlmmSwap where
  pool : DlmmPool
  loaded : List ℤ
  byId : List DlmmBin
  liveIds : List ℤ
  reference : ℤ
  indexReference : ℤ
  swapForY : Bool
  supportOrders : Bool
  strict : Bool
  exhaustive : Bool
  deriving DecidableEq, Repr

/-- What an iteration changes. -/
structure DlmmState where
  current : ℤ
  remaining : ℤ
  total : ℤ
  crossed : ℤ
  deriving DecidableEq, Repr

/-- A bin id of the range. -/
def InRange (current : ℤ) : Prop := -443636 ≤ current ∧ current ≤ 443636

instance (current : ℤ) : Decidable (InRange current) := inferInstanceAs (Decidable (_ ∧ _))

/-! ### Before the walk -/

def uint (v : ℤ) (bits : ℕ) : Except DlmmError Unit :=
  require (0 ≤ v ∧ v < 2 ^ bits) .unsignedOutsideRange

def sint (v : ℤ) (bits : ℕ) : Except DlmmError Unit :=
  require (-2 ^ (bits - 1) ≤ v ∧ v < 2 ^ (bits - 1)) .signedOutsideRange

def checkPool (pool : DlmmPool) (amount timestamp : ℤ) : Except DlmmError Unit := do
  uint amount 64
  uint timestamp 63
  sint pool.activeId 32
  uint pool.binStep 16
  require (InRange pool.activeId ∧ pool.binStep ≠ 0 ∧
    (pool.feeMode = 0 ∨ pool.feeMode = 1)) .invalidPool
  uint pool.staticFee.baseFactor 16
  uint pool.staticFee.power 8
  uint pool.staticFee.control 32
  uint pool.staticFee.maximumVolatility 32
  uint pool.staticFee.filterPeriod 16
  uint pool.staticFee.decayPeriod 16
  uint pool.staticFee.reductionFactor 16
  uint pool.variableFee.volatility 32
  uint pool.variableFee.reference 32
  uint pool.variableFee.lastTimestamp 63
  sint pool.variableFee.indexReference 32
  require (pool.staticFee.power ≤ 18 ∧ pool.staticFee.reductionFactor ≤ 10000 ∧
    pool.variableFee.lastTimestamp ≤ timestamp) .invalidFeeTimeState

/-- Reads the array indices, of which `loaded` have been read. -/
def checkLoaded (loaded : List ℤ) : List ℤ → Except DlmmError Unit
  | [] => return ()
  | i :: rest => do
      sint i 64
      require (i ∉ loaded ∧ ¬ i * 70 > 443636 ∧ ¬ (i + 1) * 70 ≤ -443636) .invalidArray
      checkLoaded (i :: loaded) rest

def checkBin (b : DlmmBin) : Except DlmmError Unit := do
  uint b.amountX 64
  uint b.amountY 64
  uint b.price 128
  uint b.openOrder 64
  uint b.processedOrder 64
  uint b.askSide 8
  require (b.price = 0 →
    b.amountX = 0 ∧ b.amountY = 0 ∧ b.openOrder = 0 ∧ b.processedOrder = 0) .zeroPriceWithLiquidity

/-- Reads the bins, of which those with the ids `seen` have been read. -/
def checkBins (loaded seen : List ℤ) : List DlmmBin → Except DlmmError Unit
  | [] => return ()
  | b :: rest => do
      sint b.binId 32
      require (InRange b.binId ∧ b.binId ∉ seen ∧ b.binId / 70 ∈ loaded)
        .invalidBin
      checkBin b
      checkBins loaded (b.binId :: seen) rest

/-- The side of the bin that the swap takes from. -/
def reserve (swapForY : Bool) (b : DlmmBin) : ℤ := if swapForY then b.amountY else b.amountX

/-- The orders of the bin are on the side that the swap takes from. -/
def relevant (swapForY supportOrders : Bool) (b : DlmmBin) : Bool :=
  supportOrders && (if swapForY then b.askSide == 0 else b.askSide != 0)

/-- The test by which the ids of live bins are collected. -/
def isLive (swapForY supportOrders : Bool) (b : DlmmBin) : Bool :=
  reserve swapForY b != 0 ||
    (relevant swapForY supportOrders b && (b.processedOrder != 0 || b.openOrder != 0))

/-- The volatility reference and its bin at the time of the swap. -/
def decayReference (pool : DlmmPool) (timestamp : ℤ) : ℤ × ℤ :=
  let elapsed := timestamp - pool.variableFee.lastTimestamp
  if elapsed ≥ pool.staticFee.filterPeriod then
    (if elapsed < pool.staticFee.decayPeriod then
      pool.variableFee.volatility * pool.staticFee.reductionFactor / 10000
    else 0, pool.activeId)
  else (pool.variableFee.reference, pool.variableFee.indexReference)

def dlmmPrepare (pool : DlmmPool) (bins : List DlmmBin) (loadedArrays : List ℤ)
    (amount timestamp : ℤ) (swapForY supportOrders strict exhaustive : Bool) :
    Except DlmmError (DlmmSwap × DlmmState) := do
  checkPool pool amount timestamp
  checkLoaded [] loadedArrays
  checkBins loadedArrays [] bins
  let byId := bins.filter (·.price ≠ 0)
  let liveIds := ((byId.filter (isLive swapForY supportOrders)).map (·.binId)).insertionSort (· ≤ ·)
  let (reference, indexReference) := decayReference pool timestamp
  return (
    { pool, loaded := loadedArrays, byId, liveIds, reference, indexReference, swapForY
      supportOrders, strict, exhaustive },
    { current := pool.activeId, remaining := amount, total := 0, crossed := 0 })

/-! ### One iteration -/

def stepOf (swapForY : Bool) : ℤ := if swapForY then -1 else 1

/-- The first bin past the edge of an array. -/
def pastEdge (swapForY : Bool) (array : ℤ) : ℤ :=
  if swapForY then array * 70 - 1 else (array + 1) * 70

/-- The live bin met next, in whatever array. -/
def nextLive (c : DlmmSwap) (current : ℤ) : Option ℤ :=
  let position : ℤ :=
    if c.swapForY then bisectLeft c.liveIds current - 1 else bisectRight c.liveIds current
  if 0 ≤ position ∧ position < c.liveIds.length then c.liveIds[position.toNat]? else none

/-- Stops at the edge of the array even where the next live bin is further away:
whether the array in between is loaded has to be seen first. -/
def advanceEmpty (c : DlmmSwap) (current : ℤ) : ℤ :=
  let array := current / 70
  match nextLive c current with
  | some id => if id / 70 = array then id else pastEdge c.swapForY array
  | none => pastEdge c.swapForY array

/-- What the swap can take from a bin, in the order in which it does. -/
def tiers (c : DlmmSwap) (b : DlmmBin) : List ℤ :=
  [reserve c.swapForY b,
    if relevant c.swapForY c.supportOrders b then b.processedOrder else 0,
    if relevant c.swapForY c.supportOrders b then b.openOrder else 0]

def feeInput (c : DlmmSwap) : Prop := c.pool.feeMode = 0 ∨ c.swapForY = false

instance (c : DlmmSwap) : Decidable (feeInput c) := inferInstanceAs (Decidable (_ ∨ _))

/-- The fee rate in a bin. -/
def binRate (c : DlmmSwap) (current : ℤ) : ℤ :=
  let baseRate :=
    c.pool.staticFee.baseFactor * c.pool.binStep * 10 * 10 ^ c.pool.staticFee.power.toNat
  let volatility :=
    min (c.reference + |c.indexReference - current| * 10000) c.pool.staticFee.maximumVolatility
  let variableRate :=
    ceil ((volatility * c.pool.binStep) ^ 2 * c.pool.staticFee.control) 100000000000
  min (baseRate + variableRate) 100000000

/-- What is left of the input, and what has been used and received, within a bin. -/
structure Fill where
  left : ℤ
  used : ℤ
  out : ℤ
  deriving DecidableEq, Repr

/-- Takes from one tier. Once nothing is left, the tiers change nothing. -/
def fillTier (numerator denominator : ℤ) (f : Fill) (r : ℤ) : Fill :=
  if f.left = 0 ∨ r = 0 then f
  else
    let needed := ceil (r * numerator) denominator
    if f.left ≥ needed then ⟨f.left - needed, f.used + needed, f.out + r⟩
    else ⟨0, f.used + f.left, f.out + f.left * denominator / numerator⟩

def fillBin (c : DlmmSwap) (b : DlmmBin) (left : ℤ) : Fill :=
  (tiers c b).foldl
    (fillTier (if c.swapForY then q64 else b.price) (if c.swapForY then b.price else q64))
    ⟨left, 0, 0⟩

/-- What the input that remains does in a bin. -/
def binFill (c : DlmmSwap) (s : DlmmState) (b : DlmmBin) : Fill :=
  fillBin c b
    (if feeInput c then s.remaining - ceil (s.remaining * binRate c s.current) precision
    else s.remaining)

def tradeTotal (c : DlmmSwap) (s : DlmmState) (b : DlmmBin) : ℤ :=
  let out := (binFill c s b).out
  s.total + (if feeInput c then out else out - ceil (out * binRate c s.current) precision)

def tradeRemaining (c : DlmmSwap) (s : DlmmState) (b : DlmmBin) : ℤ :=
  let used := (binFill c s b).used
  s.remaining -
    (if feeInput c then ceil (used * precision) (precision - binRate c s.current) else used)

def tradeBin (c : DlmmSwap) (s : DlmmState) (b : DlmmBin) :
    Except DlmmError (Flow DlmmState DlmmQuote) := do
  require (¬ tradeTotal c s b ≥ 2 ^ 64) .outputOverflows
  if (binFill c s b).left ≠ 0 then
    return .next
      { current := s.current + stepOf c.swapForY, remaining := tradeRemaining c s b
        total := tradeTotal c s b, crossed := s.crossed + 1 }
  else return .ret { amountOut := tradeTotal c s b, remainingIn := 0, binsCrossed := s.crossed + 1,
                     complete := true }

/-- The lowest and the highest bin id of the loaded arrays. -/
def loadedSpan (loaded : List ℤ) : ℤ × ℤ :=
  match loaded.min?, loaded.max? with
  | some low, some high => (low * 70, high * 70 + 69)
  | _, _ => (0, -1)

def OutsideSpan (c : DlmmSwap) (current : ℤ) : Prop :=
  current < (loadedSpan c.loaded).1 ∨ current > (loadedSpan c.loaded).2

instance (c : DlmmSwap) (current : ℤ) : Decidable (OutsideSpan c current) :=
  inferInstanceAs (Decidable (_ ∨ _))

/-- The walk goes on: input is left, and the bin id is in range. -/
def Walking (s : DlmmState) : Prop := s.remaining ≠ 0 ∧ InRange s.current

instance (s : DlmmState) : Decidable (Walking s) := inferInstanceAs (Decidable (_ ∧ _))

/-- An iteration at a bin of a loaded array, with the rule by which an empty bin
is left. -/
def visitBin (advance : ℤ → ℤ) (c : DlmmSwap) (s : DlmmState) :
    Except DlmmError (Flow DlmmState DlmmQuote) :=
  match c.byId.find? (·.binId = s.current) with
  | none => .ok (.next { s with current := advance s.current })
  | some b =>
      if ∀ r ∈ tiers c b, r = 0 then .ok (.next { s with current := advance s.current })
      else tradeBin c s b

/-- An iteration at a bin of an array that is not loaded. -/
def visitGap (c : DlmmSwap) (s : DlmmState) : Except DlmmError (Flow DlmmState DlmmQuote) :=
  if c.exhaustive then
    if OutsideSpan c s.current then .ok (.brk s)
    else .ok (.next { s with current := pastEdge c.swapForY (s.current / 70) })
  else
    let partialQuote : DlmmQuote := ⟨s.total, s.remaining, s.crossed, false, some s.current⟩
    if c.strict then .error (.insufficientArrays partialQuote) else .ok (.ret partialQuote)

def dlmmIteration (advance : ℤ → ℤ) (c : DlmmSwap) (s : DlmmState) :
    Except DlmmError (Flow DlmmState DlmmQuote) :=
  if ¬ Walking s then .ok (.brk s)
  else if s.current / 70 ∉ c.loaded then visitGap c s
  else visitBin advance c s

/-- The quote of a walk that has come to its end. -/
def dlmmFinish (s : DlmmState) : Except DlmmError DlmmQuote :=
  .ok { amountOut := s.total, remainingIn := s.remaining, binsCrossed := s.crossed + 1
        complete := true }

/-- More than the bin ids there are, so that the walk ends by itself. -/
def walkFuel : ℕ := 887274

def dlmmWalk (advance : ℤ → ℤ) (c : DlmmSwap) (s : DlmmState) : Except DlmmError DlmmQuote :=
  BoundedLoop.run (dlmmIteration advance c) dlmmFinish walkFuel s

def dlmmSwapExactIn (pool : DlmmPool) (bins : List DlmmBin) (loadedArrays : List ℤ)
    (amount timestamp : ℤ) (swapForY supportOrders strict exhaustive : Bool) :
    Except DlmmError DlmmQuote := do
  let (c, s) ←
    dlmmPrepare pool bins loadedArrays amount timestamp swapForY supportOrders strict exhaustive
  dlmmWalk (advanceEmpty c) c s

end SolTrade.Dlmm
