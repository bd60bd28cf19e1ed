import Mathlib.Data.List.Sort
import Mathlib.Data.Prod.Lex
import Mathlib.Data.String.Basic
import SolTrade.Library.KeyedTable
import SolTrade.Library.Multigraph
import SolTrade.Library.Yielding
import SolTrade.Route.Hint

/-!
Candidate routes over pools that the caller supplies.

The routes come out one by one, fewer hops first, in an order that the candidates fix.
Too many pools, routes or paths under way end the search with an error.
-/

namespace SolTrade.Search

open Library KeyedTable Multigraph Yielding
open Route (PoolTradeHint)

/-! ### The graph -/

/-- Puts a candidate under its pool. -/
def insertCandidate (byPool : List PoolTradeHint) (h : PoolTradeHint) :
    Except ValueError (List PoolTradeHint) := do
  h.postInit
  require (∀ old ∈ lookup PoolTradeHint.pool byPool h.pool, old.mints = h.mints)
    .conflictingCandidateMints
  let byPool := put PoolTradeHint.pool byPool h
  require (byPool.length ≤ 64) .candidatePoolBudget
  return byPool

/-- `(str(h.pool), str(h.output_mint))`. -/
def edgeKey (str : PubkeyText) (h : PoolTradeHint) : String ×ₗ String :=
  toLex (str h.pool, str h.outputMint)

structure CandidateRouteGraph where
  adjacent : Pubkey → List PoolTradeHint

def candidateRouteGraph (str : PubkeyText) (candidates : List PoolTradeHint) :
    Except ValueError CandidateRouteGraph := do
  let byPool ← candidates.foldlM insertCandidate []
  let edges := (byPool.flatMap fun h => [h, h.reverse]).insertionSort
    fun a b => edgeKey str a ≤ edgeKey str b
  return ⟨group (edges.map fun h => (h.inputMint, h))⟩

/-! ### Iteration -/

/-- Yields routes. -/
abbrev RouteGenerator := Generator ValueError (List PoolTradeHint)

/-- A path under way: the hints, the mint where they end and the mints met. -/
abbrev Frontier := List (List PoolTradeHint × Pubkey × List Pubkey)

namespace CandidateRouteGraph

variable (g : CandidateRouteGraph) (inputMint outputMint : Pubkey)

/-- Takes one more hop. `paths` counts the routes that have been yielded. -/
def hop (last : Bool) (entry : List PoolTradeHint × Pubkey × List Pubkey)
    (nextPaths : Frontier) (h : PoolTradeHint) : RouteGenerator Frontier := do
  let (hints, _, seen) := entry
  if h.outputMint ∈ seen ∨ ∃ x ∈ hints, x.pool = h.pool then return nextPaths
  let route := hints ++ [h]
  if h.outputMint = outputMint then
    let paths := (← get).length + 1
    if 64 < paths then throw .candidatePathBudget
    modify (· ++ [route])
    return nextPaths
  else if last then return nextPaths
  else
    if 4096 ≤ nextPaths.length then throw .candidateSearchBudget
    return nextPaths ++ [(route, h.outputMint, h.outputMint :: seen)]

/-- The hops that are left, a layer of the frontier at a time. -/
def hops : ℕ → Frontier → RouteGenerator Unit
  | 0, _ => return
  | left + 1, frontier => do
      let nextPaths ← frontier.foldlM (fun nextPaths entry =>
        (g.adjacent entry.2.1).foldlM (hop outputMint (left = 0) entry) nextPaths) []
      if nextPaths = [] then return
      hops left nextPaths

def iterate (maximumHops : ℤ := 5) : RouteGenerator Unit := do
  if ¬ (1 ≤ maximumHops ∧ maximumHops ≤ 5) ∨ inputMint = outputMint ∨ inputMint = .default ∨
      outputMint = .default then
    throw .invalidCandidateRequest
  g.hops outputMint maximumHops.toNat [([], inputMint, [inputMint])]
  if (← get) = [] then throw .noCandidateRoute

/-- The routes that were yielded, and how the iteration ended. -/
def routes (maximumHops : ℤ := 5) : Except ValueError Unit × List (List PoolTradeHint) :=
  runFrom (g.iterate inputMint outputMint maximumHops) []

end CandidateRouteGraph

end SolTrade.Search
