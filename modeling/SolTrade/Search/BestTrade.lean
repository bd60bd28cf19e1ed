import Mathlib.Data.List.Sort
import SolTrade.Library.KeyedTable
import SolTrade.Library.Multigraph
import SolTrade.Library.Yielding
import SolTrade.PumpSwap.Pool
import SolTrade.Route.CachedRoute
import SolTrade.Subscription.Snapshot

/-!
The best trade through a PumpSwap pool.

The payment asset is converted to the other mint of the pool, or back from it, over
pools that the caller supplies. Every conversion path within the limits is prepared, and
the trade that credits most is selected.
-/

namespace SolTrade.Search

open Library KeyedTable Multigraph Yielding
open PumpSwap Route Subscription

/-! ### Requests and results -/

def solMint : Pubkey :=
  .ofNat 0x069b8857feab8184fb687f634618c035dac439dc1aeb3b5598a0f00000000000

example : base58Text solMint = "So11111111111111111111111111111111111111111" := by decide +kernel

/-- Native SOL is traded as wrapped SOL. -/
def canonical (mint : Pubkey) : Pubkey := if mint = solMint then wsolTokenAccount else mint

structure PumpSwapQuoteRequest where
  payer : Pubkey
  amountIn : ℤ
  unixTimestamp : ℤ
  slippageBps : ℤ := 100
  maximumArrays : ℤ := 8
  amount_range : 0 < amountIn ∧ amountIn ≤ u64
  timestamp_range : 0 ≤ unixTimestamp ∧ unixTimestamp ≤ u64
  payer_ne_default : payer ≠ .default
  slippage_range : 0 ≤ slippageBps ∧ slippageBps < 10000
  arrays_range : 1 ≤ maximumArrays ∧ maximumArrays ≤ 32

structure PreparedPumpSwapTrade where
  route : PreparedCachedRoute
  inputMint : Pubkey
  outputMint : Pubkey
  request : PumpSwapQuoteRequest
  context : CacheReadContext
  isBuy : Bool

def PreparedPumpSwapTrade.minimumOutputCredit (t : PreparedPumpSwapTrade) : ℤ :=
  t.route.minimumNetAmountOut

structure PumpSwapRouteSearch where
  pool : Pubkey
  tokenMint : Pubkey
  assetMint : Pubkey
  conversionPools : List PoolTradeHint := []
  maximumConversionHops : ℤ := 2
  maximumSearchNodes : ℤ := 512
  bridgeSlippageBps : ℤ := 100
  maximumBridgePriceImpactBps : ℤ := 100

structure PumpSwapRouteRejection where
  pools : List Pubkey
  reason : String
  deriving DecidableEq

structure PumpSwapRouteSelection where
  trade : PreparedPumpSwapTrade
  routesEvaluated : ℕ
  rejectedRoutes : List PumpSwapRouteRejection

/-- What preparing a path raises. A cache that is not ready is told apart. -/
inductive PreparationError where
  | cacheNotReady (e : CacheNotReadyError)
  | value (text : String)
  deriving DecidableEq

inductive RouteSearchError where
  | value (e : ValueError)
  | snapshot (e : SnapshotError)
  | preparation (e : PreparationError)
  | invalidPoolDiscriminator
  | noExecutableRoute (reason : String)
  | listIndexOutOfRange
  deriving DecidableEq

def PreparationError.text : PreparationError → String
  | cacheNotReady e => e.text
  | value text => text

def RouteSearchError.text (str : PubkeyText) : RouteSearchError → String
  | value e => e.text
  | snapshot e => e.text str
  | preparation e => e.text
  | invalidPoolDiscriminator => "Invalid cached PumpSwap pool discriminator"
  | noExecutableRoute reason => "No executable PumpSwap route: " ++ reason
  | listIndexOutOfRange => "list index out of range"

/-- What the search calls: the check of the pool, and the preparation of a path between
two mints under the limits for its conversions. -/
structure PumpSwapPreparation where
  pumpswap : PoolTradeHint → CacheReadContext → Except PreparationError Unit
  preparePumpswapTrade : List PoolTradeHint → Pubkey → Pubkey → PumpSwapQuoteRequest →
    CacheReadContext → Bool → Pubkey × ℤ × ℤ → Except PreparationError PreparedPumpSwapTrade

/-! ### Conversion pools -/

structure PumpSwapTopology where
  candidates : List PoolTradeHint
  adjacency : Pubkey → List PoolTradeHint

/-- Puts a pool under its address, with its canonical mints. -/
def insertConversionPool (candidates : List PoolTradeHint) (hint : PoolTradeHint) :
    Except ValueError (List PoolTradeHint) := do
  let a := canonical hint.inputMint
  let b := canonical hint.outputMint
  require (¬ (a = b ∨ .default ∈ [a, b, hint.pool])) .invalidConversionPool
  require (∀ old ∈ lookup PoolTradeHint.pool candidates hint.pool, old.mints = {a, b})
    .conflictingConversionMints
  let replaced := { hint with inputMint := a, outputMint := b }
  replaced.postInit
  return put PoolTradeHint.pool candidates replaced

def buildPumpswapTopology (pools : List PoolTradeHint) : Except ValueError PumpSwapTopology := do
  let candidates ← pools.foldlM insertConversionPool []
  let sorted := candidates.insertionSort fun a b => a.pool.bytes ≤ b.pool.bytes
  return ⟨candidates, group (sorted.flatMap fun hint =>
    [(hint.inputMint, hint), (hint.outputMint, hint)])⟩

/-- The hint in the direction that leaves the mint. -/
def orient (mint : Pubkey) (hint : PoolTradeHint) : PoolTradeHint :=
  { hint with
    inputMint := mint
    outputMint := if mint = hint.inputMint then hint.outputMint else hint.inputMint }

/-- Adds the paths that continue `path` from the mint where it ends. `left` hops may be
added; the state is the number of nodes that may still be visited and the paths found. -/
def walk (adjacency : Pubkey → List PoolTradeHint) (token target : Pubkey) :
    ℕ → Pubkey → List PoolTradeHint → List Pubkey → ℕ × List (List PoolTradeHint) →
      Except ValueError (ℕ × List (List PoolTradeHint))
  | 0, mint, path, _, (remaining, paths) => do
      require (remaining ≠ 0) .searchBudgetExhausted
      if mint = target then return (remaining - 1, paths ++ [path])
      return (remaining - 1, paths)
  | left + 1, mint, path, visited, (remaining, paths) => do
      require (remaining ≠ 0) .searchBudgetExhausted
      if mint = target then return (remaining - 1, paths ++ [path])
      (adjacency mint).foldlM (fun state hint => do
        let hop := orient mint hint
        if hop.outputMint = token ∨ hop.outputMint ∈ visited then return state
        hop.postInit
        walk adjacency token target left hop.outputMint (path ++ [hop]) (hop.outputMint :: visited)
          state) (remaining - 1, paths)

/-! ### Selection -/

/-- The best trade so far with its key, and the paths that were rejected. -/
structure Evaluation where
  best : Option (PreparedPumpSwapTrade × (ℤ ×ₗ ℕ ×ₗ List (List ℕ)))
  rejections : List PumpSwapRouteRejection

/-- Trades compare by their credit, the greater first, then by the number of hops and by
the addresses of the pools. -/
def tradeKey (trade : PreparedPumpSwapTrade) (path : List PoolTradeHint) :
    ℤ ×ₗ ℕ ×ₗ List (List ℕ) :=
  toLex (-trade.minimumOutputCredit, toLex (path.length, path.map (·.pool.bytes)))

/-- Prepares one path. A path that is handed to preparation counts as yielded. -/
def evaluatePath (prepare : List PoolTradeHint → Except PreparationError PreparedPumpSwapTrade)
    (evaluation : Evaluation) (path : List PoolTradeHint) :
    Generator RouteSearchError (List PoolTradeHint) Evaluation := do
  modify (· ++ [path])
  match prepare path with
  | .error (.cacheNotReady e) => throw (.preparation (.cacheNotReady e))
  | .error (.value reason) =>
      return { evaluation with
        rejections := evaluation.rejections ++ [⟨path.map (·.pool), reason⟩] }
  | .ok trade =>
      let key := tradeKey trade path
      if ∀ best ∈ evaluation.best, key < best.2 then
        return { evaluation with best := some (trade, key) }
      else return evaluation

instance : MonadLift (Except ValueError) (Except RouteSearchError) where
  monadLift x := x.mapError .value

instance : MonadLift (Except SnapshotError) (Except RouteSearchError) where
  monadLift x := x.mapError .snapshot

instance : MonadLift (Except PreparationError) (Except RouteSearchError) where
  monadLift x := x.mapError .preparation

section Best

variable (sys : SubscriptionSystem) (snapshot : AccountCacheSnapshot)
  (preparation : PumpSwapPreparation) (search : PumpSwapRouteSearch)
  (request : PumpSwapQuoteRequest) (context : CacheReadContext) (isBuy : Bool)

def checkRouteSearch : Except ValueError Unit := do
  require (∀ v ∈ [search.bridgeSlippageBps, search.maximumBridgePriceImpactBps],
    0 ≤ v ∧ v < 10000) .invalidBridgeLimits
  require (¬ (128 < search.conversionPools.length ∨
    ¬ (0 ≤ search.maximumConversionHops ∧ search.maximumConversionHops ≤ 3) ∨
    ¬ (1 ≤ search.maximumSearchNodes ∧ search.maximumSearchNodes ≤ 4096))) .searchLimits
  require (canonical search.tokenMint ≠ canonical search.assetMint) .tokenIsAsset

/-- The selected pool in the direction of the trade. -/
def selectedAnchor : Except RouteSearchError PoolTradeHint := do
  let token := canonical search.tokenMint
  let raw := (← snapshot.get sys search.pool context (some pumpSwapProgram)).data
  require (raw.take 8 = poolDiscriminator) .invalidPoolDiscriminator
  match decodePool (raw.drop 8) with
  | none => throw (.value .tokenNotInPool)
  | some pool =>
      require (token = pool.baseMint ∨ token = pool.quoteMint) (.value .tokenNotInPool)
      let other := if token = pool.baseMint then pool.quoteMint else pool.baseMint
      let anchor : PoolTradeHint :=
        ⟨search.pool, if isBuy then other else token, if isBuy then token else other, none⟩
      anchor.postInit
      preparation.pumpswap anchor context
      return anchor

/-- The pool to trade in, and the conversions to reach it. -/
def planSearch : Except RouteSearchError (PoolTradeHint × PumpSwapTopology) := do
  checkRouteSearch search
  let anchor ← selectedAnchor sys snapshot preparation search context isBuy
  let topology ← buildPumpswapTopology search.conversionPools
  require (search.pool ∉ topology.candidates.map (·.pool)) (.value .conversionReusesPool)
  return (anchor, topology)

/-- The mints between which the asset is converted: from the payment side to the mint
that is required. -/
def conversionEnds (anchor : PoolTradeHint) : Pubkey × Pubkey :=
  let asset := canonical search.assetMint
  if isBuy then (asset, anchor.inputMint) else (anchor.outputMint, asset)

/-- The conversion before the trade in the pool, or after it. -/
def anchored (anchor : PoolTradeHint) (path : List PoolTradeHint) : List PoolTradeHint :=
  if isBuy then path ++ [anchor] else anchor :: path

def preparePath (path : List PoolTradeHint) : Except PreparationError PreparedPumpSwapTrade :=
  let (source, target) :=
    if isBuy then (search.assetMint, search.tokenMint) else (search.tokenMint, search.assetMint)
  preparation.preparePumpswapTrade path source target request context isBuy
    (search.pool, search.bridgeSlippageBps, search.maximumBridgePriceImpactBps)

def conversionPaths (anchor : PoolTradeHint) (topology : PumpSwapTopology) :
    Except ValueError (ℕ × List (List PoolTradeHint)) :=
  let (start, target) := conversionEnds search isBuy anchor
  walk topology.adjacency (canonical search.tokenMint) target search.maximumConversionHops.toNat
    start [] [start] (search.maximumSearchNodes.toNat, [])

def prepareBestPumpswapTrade :
    Generator RouteSearchError (List PoolTradeHint) PumpSwapRouteSelection := do
  let (anchor, topology) ← ofExcept (planSearch sys snapshot preparation search context isBuy)
  let (_, paths) ← ofExcept ((conversionPaths search isBuy anchor topology).mapError .value)
  if paths = [] then throw (.value .noConversionPath)
  let evaluation ← (paths.map (anchored isBuy anchor)).foldlM
    (evaluatePath (preparePath preparation search request context isBuy)) ⟨none, []⟩
  match evaluation.best, evaluation.rejections with
  | some (trade, _), rejections => return ⟨trade, paths.length, rejections⟩
  | none, first :: _ => throw (.noExecutableRoute first.reason)
  | none, [] => throw .listIndexOutOfRange

/-- The selection or the error, and the paths handed to preparation. -/
def bestPumpswapTrade :
    Except RouteSearchError PumpSwapRouteSelection × List (List PoolTradeHint) :=
  runFrom (prepareBestPumpswapTrade sys snapshot preparation search request context isBuy) []

end Best

end SolTrade.Search
