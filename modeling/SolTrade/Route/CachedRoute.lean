import SolTrade.PumpFun.CachedQuote
import SolTrade.Route.ArrayQuotes

/-!
Preparing a route from a frozen cache.

Each leg is quoted by the protocol that owns its pool and spends at most the
protected output of the leg before it.
-/

namespace SolTrade.Route

open Library Wire
open PumpFun (CachedPumpFunState quoteCachedPumpfunExactIn)
open Subscription (CacheReadContext)

/-! ### What a route is prepared from -/

/-- The addresses that are derived from others. -/
structure Derivation where
  associatedTokenAddress : Pubkey → Pubkey → Pubkey → Pubkey
  temporaryAccount : Pubkey → String → Pubkey

/-- A curve, and the instruction that trades on it: the data and the accounts, of the
version that the hint asks for. -/
structure CachedPumpFunCurve where
  state : CachedPumpFunState
  quote : Pubkey
  instruction : PoolTradeHint → Pubkey → ℤ → ℤ → Bool →
    Except RouteError (List UInt8 × List AccountMeta)

structure CachedPumpSwapPool where
  state : CachedPumpSwapState
  accounts : Pubkey → Bool → Except RouteError (List AccountMeta)

structure CachedAmmV4Pool where
  state : CachedAmmV4State
  accounts : Pubkey → PoolTradeHint → List AccountMeta

structure CachedCpmmPool where
  state : CachedCpmmState
  accounts : Pubkey → Bool → List AccountMeta

structure LaunchLabCurve where
  quoteMint : Pubkey
  state : LaunchLabQuoteState
  accounts : Pubkey → Except RouteError (List AccountMeta)

/-- The reads of a snapshot: who owns an account, and what a pool decodes to. -/
structure RouteSnapshot where
  owner : Pubkey → Except RouteError Pubkey
  cachedPumpfun : PoolTradeHint → Except RouteError CachedPumpFunCurve
  cachedPumpswap : PoolTradeHint → Except RouteError CachedPumpSwapPool
  cachedClmm : PoolTradeHint → ℤ → Except RouteError CachedClmmPool
  cachedWhirlpool : PoolTradeHint → ℤ → Except RouteError CachedWhirlpoolPool
  cachedDlmm : PoolTradeHint → ℤ → Except RouteError CachedDlmmPool
  cachedAmmV4 : PoolTradeHint → ℤ → Except RouteError CachedAmmV4Pool
  cachedCpmm : PoolTradeHint → ℤ → Except RouteError CachedCpmmPool
  launchlabCurve : PoolTradeHint → Except RouteError LaunchLabCurve

/-- `bridgeLimits` are the pool that is no bridge, and the slippage and the price
impact that bridges are allowed. -/
structure RouteRequest where
  context : CacheReadContext
  unixTimestamp : ℤ
  payer : Pubkey
  amount : ℤ
  slippageBps : ℤ := 100
  maximumArrays : ℤ := 8
  allowPumpfunNativeSettlement : Bool := false
  bridgeLimits : Option (Pubkey × ℤ × ℤ) := none

structure CachedRouteLeg where
  hint : PoolTradeHint
  amountIn : ℤ
  estimatedNetAmountOut : Option ℤ
  minimumNetAmountOut : ℤ
  instruction : Instruction
  deriving DecidableEq

structure PreparedCachedRoute where
  legs : List CachedRouteLeg
  setupInstructions : List Instruction
  swapInstructions : List Instruction
  minimumNetAmountOut : ℤ
  estimatedIntermediateResiduals : List (Pubkey × ℤ)
  deriving DecidableEq

/-! ### One leg -/

/-- What a leg uses, is estimated to return, and returns at least. -/
structure LegQuote where
  used : ℤ
  estimated : ℤ
  minimum : ℤ
  deriving DecidableEq

section Leg

variable (snapshot : RouteSnapshot) (r : RouteRequest) (hint : PoolTradeHint)

/-- The request of an array protocol for a leg. -/
def RouteRequest.arrays (spend slippageBps : ℤ) : ArrayRequest :=
  ⟨r.unixTimestamp, spend, slippageBps, r.maximumArrays⟩

def CachedArrayQuote.leg (q : CachedArrayQuote) : LegQuote :=
  ⟨q.amountIn, q.estimatedNetAmountOut, q.minimumNetAmountOut⟩

def preparePumpfunLeg (spend slippageBps : ℤ) : Except RouteError (LegQuote × Instruction) := do
  require (r.payer ≠ .default) (.value .missingPumpFunPayer)
  let c ← snapshot.cachedPumpfun hint
  require (¬ (c.quote = wsolTokenAccount ∧ r.allowPumpfunNativeSettlement = false))
    (.value .pumpFunNativeQuote)
  let buy : Bool := hint.inputMint = c.quote
  let q ← quoteCachedPumpfunExactIn c.state spend buy slippageBps
  let (data, accounts) ← c.instruction hint r.payer spend q.minimumNetAmountOut buy
  return (⟨q.amountIn, q.estimatedNetAmountOut, q.minimumNetAmountOut⟩,
    ⟨pumpFunProgram, data, accounts⟩)

def preparePumpswap (spend slippageBps : ℤ) : Except RouteError (LegQuote × Instruction) := do
  checkPumpSwapRequest r.payer spend slippageBps
  let c ← snapshot.cachedPumpswap hint
  let quoteIn : Bool := hint.inputMint = c.state.quoteMint
  let q ← quotePumpSwapState c.state quoteIn spend slippageBps
  let accounts ← c.accounts r.payer quoteIn
  let discriminator : List UInt8 :=
    if quoteIn then [198, 46, 21, 82, 180, 217, 232, 112] else [51, 230, 133, 164, 1, 127, 131, 173]
  let amountBytes ← packU64 spend
  let minimumBytes ← packU64 q.minimumAmountOut
  return (⟨q.amountIn, q.amountOut, q.minimumAmountOut⟩,
    ⟨pumpSwapProgram, discriminator ++ amountBytes ++ minimumBytes ++ (if quoteIn then [1] else []),
      accounts⟩)

def prepareClmm (spend slippageBps : ℤ) : Except RouteError (LegQuote × Instruction) := do
  let request := r.arrays spend slippageBps
  checkCachedClmm request
  let c ← snapshot.cachedClmm hint r.unixTimestamp
  let (q, limit, load) ← calculateCachedClmm c hint r.context request
  let ix ← buildRaydiumClmmSwapV2 c r.payer load
    { amount := spend, otherAmountThreshold := q.minimumAmountOut, sqrtPriceLimit := limit }
  return (q.leg, ix)

def prepareWhirlpool (spend slippageBps : ℤ) : Except RouteError (LegQuote × Instruction) := do
  let request := r.arrays spend slippageBps
  checkCachedWhirlpool request
  let c ← snapshot.cachedWhirlpool hint r.unixTimestamp
  let (q, load) ← calculateCachedWhirlpool c hint r.context request
  let ix ← buildWhirlpoolSwapV2 c r.payer (padArrays load.arrays)
    { amount := spend, otherAmountThreshold := q.minimumAmountOut } (hint.inputMint = c.mintA)
  return (q.leg, ix)

def prepareDlmm (spend slippageBps : ℤ) : Except RouteError (LegQuote × Instruction) := do
  let request := r.arrays spend slippageBps
  checkCachedDlmm request
  let c ← snapshot.cachedDlmm hint r.unixTimestamp
  let (q, load) ← calculateCachedDlmm c hint r.context request
  let ix ← buildMeteoraDlmmSwap2 c r.payer load spend q.minimumAmountOut
  return (q.leg, ix)

def prepareAmmV4 (spend slippageBps : ℤ) : Except RouteError (LegQuote × Instruction) := do
  let c ← snapshot.cachedAmmV4 hint r.unixTimestamp
  let q ← quoteCachedAmmV4ExactIn c.state spend (hint.inputMint = c.state.coinMint) slippageBps
  require (q.minimumAmountOut ≠ 0) (.value .ammV4ZeroOutput)
  let amountBytes ← packU64 q.amountIn
  let minimumBytes ← packU64 q.minimumAmountOut
  return (⟨q.amountIn, q.amountOut, q.minimumAmountOut⟩,
    ⟨ammV4Program, [16] ++ amountBytes ++ minimumBytes, c.accounts r.payer hint⟩)

def prepareCpmm (spend slippageBps : ℤ) : Except RouteError (LegQuote × Instruction) := do
  let c ← snapshot.cachedCpmm hint r.unixTimestamp
  let baseIn : Bool := hint.inputMint = c.state.baseMint
  let q ← quoteCachedCpmmExactIn c.state spend baseIn slippageBps
  require (q.minimumAmountOut ≠ 0) (.value .cpmmZeroOutput)
  let _ ← unsigned q.amountIn u64
  let _ ← unsigned q.minimumAmountOut u64
  require (q.amountIn ≠ 0) (.value .positiveAmountRequired)
  return (⟨q.amountIn, q.amountOut, q.minimumAmountOut⟩,
    ⟨cpmmProgram, [143, 190, 90, 218, 196, 30, 51, 222] ++ littleEndian 8 q.amountIn.toNat ++
      littleEndian 8 q.minimumAmountOut.toNat, c.accounts r.payer baseIn⟩)

/-- The instruction carries the share fee rate, which a route leaves at zero. -/
def buildLaunchlabCurveExactIn (c : LaunchLabCurve) (payer : Pubkey) (amountIn minimum : ℤ)
    (buy : Bool) : Except RouteError Instruction := do
  let _ ← unsigned amountIn u64
  let _ ← unsigned minimum u64
  require (amountIn ≠ 0) (.value .amountIsZero)
  let accounts ← c.accounts payer
  let discriminator : List UInt8 :=
    if buy then [250, 234, 13, 123, 213, 156, 19, 236] else [149, 39, 222, 155, 211, 124, 152, 26]
  return ⟨launchLabProgram, discriminator ++ littleEndian 8 amountIn.toNat ++
    littleEndian 8 minimum.toNat ++ littleEndian 8 0, accounts⟩

/-- A purchase may use less than it may spend; the estimate is the protected output
at no slippage. -/
def prepareLaunchlab (spend slippageBps : ℤ) : Except RouteError (LegQuote × Instruction) := do
  let c ← snapshot.launchlabCurve hint
  let buy : Bool := hint.inputMint = c.quoteMint
  let q ← quoteLaunchlabExactIn c.state spend buy slippageBps
  let ix ← buildLaunchlabCurveExactIn c r.payer q.amountIn q.minimumAmountOut buy
  let estimated ← quoteLaunchlabExactIn c.state spend buy 0
  return (⟨q.amountIn, estimated.minimumAmountOut, q.minimumAmountOut⟩, ix)

/-- The leg, quoted by the owner of its pool. -/
def quoteLeg (spend slippageBps : ℤ) : Except RouteError (LegQuote × Instruction) := do
  let program ← snapshot.owner hint.pool
  if program = pumpFunProgram then preparePumpfunLeg snapshot r hint spend slippageBps
  else if program = pumpSwapProgram then preparePumpswap snapshot r hint spend slippageBps
  else if program = clmmProgram then prepareClmm snapshot r hint spend slippageBps
  else if program = whirlpoolProgram then prepareWhirlpool snapshot r hint spend slippageBps
  else if program = dlmmProgram then prepareDlmm snapshot r hint spend slippageBps
  else if program = ammV4Program then prepareAmmV4 snapshot r hint spend slippageBps
  else if program = cpmmProgram then prepareCpmm snapshot r hint spend slippageBps
  else if program = launchLabProgram then prepareLaunchlab snapshot r hint spend slippageBps
  else .error (.value .noNativeQuote)

/-- What a leg of the amount would use and return, without its instruction. -/
def quoteRouteLeg (amount : ℤ) : Except RouteError (ℤ × ℤ) := do
  let program ← snapshot.owner hint.pool
  let request := r.arrays amount 0
  if program = clmmProgram then
    checkCachedClmm request
    let c ← snapshot.cachedClmm hint r.unixTimestamp
    let (q, _) ← calculateCachedClmm c hint r.context request
    return (q.amountIn, q.estimatedNetAmountOut)
  else if program = dlmmProgram then
    checkCachedDlmm request
    let c ← snapshot.cachedDlmm hint r.unixTimestamp
    let (q, _) ← calculateCachedDlmm c hint r.context request
    return (q.amountIn, q.estimatedNetAmountOut)
  else if program = whirlpoolProgram then
    checkCachedWhirlpool request
    let c ← snapshot.cachedWhirlpool hint r.unixTimestamp
    let (q, _) ← calculateCachedWhirlpool c hint r.context request
    return (q.amountIn, q.estimatedNetAmountOut)
  else if program = pumpSwapProgram then
    checkPumpSwapRequest r.payer amount 0
    let c ← snapshot.cachedPumpswap hint
    let q ← quotePumpSwapState c.state (hint.inputMint = c.state.quoteMint) amount 0
    return (q.amountIn, q.amountOut)
  else if program = ammV4Program then
    let c ← snapshot.cachedAmmV4 hint r.unixTimestamp
    let q ← quoteCachedAmmV4ExactIn c.state amount (hint.inputMint = c.state.coinMint)
    return (q.amountIn, q.amountOut)
  else if program = cpmmProgram then
    let c ← snapshot.cachedCpmm hint r.unixTimestamp
    let q ← quoteCachedCpmmExactIn c.state amount (hint.inputMint = c.state.baseMint)
    return (q.amountIn, q.amountOut)
  else if program = pumpFunProgram then
    let c ← snapshot.cachedPumpfun hint
    require (c.quote ≠ wsolTokenAccount) (.value .pumpFunNativeQuote)
    let q ← quoteCachedPumpfunExactIn c.state amount (hint.inputMint = c.quote)
    return (q.amountIn, q.estimatedNetAmountOut)
  else if program = launchLabProgram then
    let c ← snapshot.launchlabCurve hint
    let q ← quoteLaunchlabExactIn c.state amount (hint.inputMint = c.quoteMint) 0
    return (q.amountIn, q.minimumAmountOut)
  else .error (.value .noNativeQuote)

/-- A bridge must use its whole input and move the price of a small probe by no more
than the limit. -/
def checkBridge (q : LegQuote) (spend maximumImpact : ℤ) : Except RouteError Unit := do
  let probeAmount := max 1 (spend / 100)
  let (probeUsed, reference) ← quoteRouteLeg snapshot r hint probeAmount
  require (¬ (reference = 0 ∨ q.used ≠ spend ∨ probeUsed ≠ probeAmount ∨
    q.estimated * probeAmount * 10000 < reference * spend * (10000 - maximumImpact)))
    (.value .bridgePriceImpact)

def prepareLeg (spend : ℤ) : Except RouteError CachedRouteLeg := do
  let bridge := r.bridgeLimits.filter fun limits => hint.pool ≠ limits.1
  let slippageBps := (bridge.map fun limits => limits.2.1).getD r.slippageBps
  let (q, ix) ← quoteLeg snapshot r hint spend slippageBps
  require (¬ (¬ (0 < q.used ∧ q.used ≤ spend) ∨ q.minimum = 0)) (.value .routeZeroOutput)
  if let some limits := bridge then checkBridge snapshot r hint q spend limits.2.2
  return ⟨hint, q.used, some q.estimated, q.minimum, ix⟩

end Leg

/-! ### The route -/

/-- The legs of the hints, each spending the protected output of the one before, and
the protected output of the last. -/
def prepareLegs (snapshot : RouteSnapshot) (r : RouteRequest) :
    List PoolTradeHint → ℤ → Except RouteError (List CachedRouteLeg × ℤ)
  | [], spend => return ([], spend)
  | hint :: hints, spend => do
      let leg ← prepareLeg snapshot r hint spend
      let (legs, final) ← prepareLegs snapshot r hints leg.minimumNetAmountOut
      return (leg :: legs, final)

/-- The mints that the hints pass through. -/
def routeMints : List PoolTradeHint → List Pubkey
  | [] => []
  | hint :: hints => hint.inputMint :: (hint :: hints).map (·.outputMint)

def createAssociatedTokenAccountIdempotent (d : Derivation) (payer owner mint program : Pubkey) :
    Instruction :=
  ⟨associatedTokenProgram, [1],
    [⟨payer, true, true⟩, ⟨d.associatedTokenAddress owner mint program, false, true⟩,
      ⟨owner, false, false⟩, ⟨mint, false, false⟩, ⟨systemProgram, false, false⟩,
      ⟨program, false, false⟩]⟩

/-- What a leg returns beyond what the next one uses. Every leg here has an estimate. -/
def estimatedResiduals (legs : List CachedRouteLeg) : List (Pubkey × ℤ) :=
  legs.zipWith (fun a b => (a.hint.outputMint, a.estimatedNetAmountOut.getD 0 - b.amountIn))
    legs.tail

def checkRouteRequest (hints : List PoolTradeHint) (r : RouteRequest) :
    Except RouteError Unit := do
  let _ ← unsigned r.amount u64
  let _ ← unsigned r.unixTimestamp u64
  require (¬ (r.amount = 0 ∨ ¬ (1 ≤ hints.length ∧ hints.length ≤ 5) ∨
    ¬ (0 ≤ r.slippageBps ∧ r.slippageBps < 10000) ∨
    ¬ (1 ≤ r.maximumArrays ∧ r.maximumArrays ≤ 32))) (.value .invalidCachedRouteRequest)
  require (hints.map (·.pool)).Nodup (.value .routeReusesPool)
  require (routeMints hints).Nodup (.value .routeAssetCycle)
  require (hints.IsChain fun previous current => previous.outputMint = current.inputMint)
    (.value .disconnectedRoute)
  require (∀ limits ∈ r.bridgeLimits, ∀ v ∈ [limits.2.1, limits.2.2], 0 ≤ v ∧ v < 10000)
    (.value .invalidBridgeLimits)

def prepareCachedRoute (snapshot : RouteSnapshot) (d : Derivation) (hints : List PoolTradeHint)
    (r : RouteRequest) : Except RouteError PreparedCachedRoute := do
  checkRouteRequest hints r
  let (legs, final) ← prepareLegs snapshot r hints r.amount
  let setup ← (routeMints hints).mapM fun mint => do
    return createAssociatedTokenAccountIdempotent d r.payer r.payer mint (← snapshot.owner mint)
  return {
    legs
    setupInstructions := setup
    swapInstructions := legs.map (·.instruction)
    minimumNetAmountOut := final
    estimatedIntermediateResiduals := estimatedResiduals legs }

end SolTrade.Route
