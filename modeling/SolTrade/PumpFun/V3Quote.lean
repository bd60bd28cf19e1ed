import SolTrade.Library.ConstantProduct
import SolTrade.Library.SeparateFees
import SolTrade.Numeric

/-!
Buying on a V3 curve, for an exact output and for an exact input.

A purchase that exhausts the curve goes on in the pool that the curve turns into. An
exact input is turned into a net amount, and what it buys into a curve cost and a
pool payment; an exact output is priced leg by leg.
-/

namespace SolTrade.PumpFun

open Library

structure PumpV3QuoteState where
  virtualBase : ℤ
  virtualQuote : ℤ
  remainingBase : ℤ
  realQuote : ℤ
  curveBaseBalance : ℤ
  migrationFee : ℤ := 0
  protocolBps : ℤ := 0
  creatorBps : ℤ := 0
  complete : Bool := false
  mayhem : Bool := false
  deriving DecidableEq, Repr

structure PumpV3Quote where
  curveBase : ℤ := 0
  curveQuote : ℤ := 0
  poolBase : ℤ := 0
  poolQuote : ℤ := 0
  protocolFee : ℤ := 0
  creatorFee : ℤ := 0
  deriving DecidableEq, Repr

def PumpV3Quote.baseOut (q : PumpV3Quote) : ℤ := q.curveBase + q.poolBase

def PumpV3Quote.quoteIn (q : PumpV3Quote) : ℤ :=
  q.curveQuote + q.poolQuote + q.protocolFee + q.creatorFee

def validate (s : PumpV3QuoteState) (amount : ℤ) : Except ValueError Unit := do
  require (∀ value ∈ [s.virtualBase, s.virtualQuote, s.remainingBase, s.realQuote,
      s.curveBaseBalance, s.migrationFee, s.protocolBps, s.creatorBps, amount],
    0 ≤ value ∧ value ≤ u64) .expectedU64StateAndAmount
  require (s.complete = false) .bondingCurveComplete
  require (¬ (s.virtualBase ≤ s.remainingBase ∨ s.virtualQuote = 0 ∨
    s.protocolBps + s.creatorBps > 10000)) .invalidCurveReserves

def fee (n bps : ℤ) : ℤ := (n * bps + 9999) / 10000

/-- What is left of a budget after both fees. -/
def net (budget : ℤ) (s : PumpV3QuoteState) : ℤ :=
  let n := budget * 10000 / (10000 + s.protocolBps + s.creatorBps)
  let cost := n + fee n s.protocolBps + fee n s.creatorBps
  n - max 0 (cost - budget)

def curveCost (n : ℤ) (s : PumpV3QuoteState) : ℤ :=
  if n = 0 then 0 else n * s.virtualQuote / (s.virtualBase - n) + 1

/-- The reserves of the pool that the curve turns into. -/
def pool (s : PumpV3QuoteState) (curveQuote : ℤ) : Except ValueError (ℤ × ℤ) :=
  let base := s.curveBaseBalance - s.remainingBase
  let quote := s.realQuote + curveQuote - s.migrationFee
  if base ≤ 0 ∨ quote ≤ 0 then .error .emptyPoolToBe else .ok (base, quote)

def result (cb cq pb pq : ℤ) (s : PumpV3QuoteState) : Except ValueError PumpV3Quote :=
  let out : PumpV3Quote :=
    { curveBase := cb
      curveQuote := cq
      poolBase := pb
      poolQuote := pq
      protocolFee := fee cq s.protocolBps + fee pq s.protocolBps
      creatorFee := fee cq s.creatorBps + fee pq s.creatorBps }
  if out.baseOut > u64 ∨ out.quoteIn > u64 then .error .quoteExceedsU64 else .ok out

def quotePumpBuyV3ExactOut (s : PumpV3QuoteState) (amount : ℤ) (partialFill : Bool := false) :
    Except ValueError PumpV3Quote := do
  validate s amount
  let cb := min amount s.remainingBase
  let cq := curveCost cb s
  if amount ≤ s.remainingBase then result cb cq 0 0 s
  else if s.mayhem then
    if partialFill then result cb cq 0 0 s else .error .notEnoughTokensToBuy
  else do
    let (base, quote) ← pool s cq
    let pb := amount - cb
    if pb ≥ base then .error .notEnoughTokensToBuy
    else
      let pq := (quote * pb + base - pb - 1) / (base - pb)
      result cb cq pb pq s

def quotePumpBuyV3ExactIn (s : PumpV3QuoteState) (budget : ℤ) : Except ValueError PumpV3Quote := do
  validate s budget
  let n := net budget s
  if n ≤ 1 then return {}
  let tokens := (n - 1) * s.virtualBase / (s.virtualQuote + n - 1)
  let cb := min tokens s.remainingBase
  let cq := curveCost cb s
  if tokens ≤ s.remainingBase ∨ s.mayhem then result cb cq 0 0 s
  else
    let left := budget - cq - fee cq s.protocolBps - fee cq s.creatorBps
    if left ≤ 0 ∨ net left s ≤ 1 then result cb cq 0 0 s
    else do
      let (base, quote) ← pool s cq
      let leg := net left s
      let pb := (leg - 1) * base / (quote + leg - 1)
      -- dust that buys no token of the pool stays with the user
      if pb = 0 then result cb cq 0 0 s else result cb cq pb leg s

end SolTrade.PumpFun
