import SolTrade.Builder.PoolBuys
import SolTrade.Route.NativeSol
import SolTrade.Route.PumpFunSettlement
import SolTrade.Route.PumpRoute
import SolTrade.Search.CandidateRoutes
import SolTrade.Serialization.V1
import SolTrade.Subscription.Readiness
import SolTrade.Trading.Types

/-!
Independent buys and sells from a frozen cache.

The caller names the route, or pools to search for one. The route is prepared by the protocol of
the pool that the trade is about, settled in native SOL where that is asked for, and compiled into
one message behind the tip.
-/

namespace SolTrade.Trading

open Route
open MeteoraDammV2 (meteoraDammV2Program)

/-- `PROGRAMS`. -/
def DexType.program : DexType → Pubkey
  | pumpFun => pumpFunProgram
  | meteoraDammV2 => meteoraDammV2Program
  | pumpSwap => pumpSwapProgram
  | raydiumAmmV4 => ammV4Program
  | launchLab | bonk | stonkFun => launchLabProgram
  | raydiumCpmm => cpmmProgram
  | raydiumClmm => clmmProgram
  | orcaWhirlpool => whirlpoolProgram
  | meteoraDlmm => dlmmProgram

end SolTrade.Trading

namespace SolTrade.Route

open Library Wire Yielding
open PathSearch (pairwise_layers)
open Search (CandidateRoute candidateRouteGraph)
open Serialization (Blockhash CompiledV1Message V1Config compileV1Message)
open Subscription (CacheNotReadyError CacheReadContext)
open Trading (DexType TradeType)

/-! ### Requests -/

/-- `configVersion` is the version of the trade configuration. -/
structure CachedTradeRequest where
  dexType : DexType
  tradeType : TradeType
  hints : List PoolTradeHint
  context : CacheReadContext
  unixTimestamp : ℤ
  payer : Pubkey
  amount : ℤ
  recentBlockhash : String
  slippageBps : ℤ := 100
  maximumArrays : ℤ := 8
  v1Config : V1Config :=
    { computeUnitLimit := some 300000, loadedAccountsDataSizeLimit := some (64 * 1024 * 1024) }
  nativeInput : Bool := false
  nativeOutput : Bool := false
  temporaryWsolSeed : String := ""
  rentLamports : ℤ := 0
  tipAccount : Option Pubkey := none
  tipLamports : ℤ := 0
  candidates : List PoolTradeHint := []
  inputMint : Option Pubkey := none
  outputMint : Option Pubkey := none
  fixedOutputAmount : Option ℤ := none
  pumpfunVersion : Option String := none
  configVersion : Option String := none
  pumpRoute : Option PumpRouteOptions := none

structure PreparedCachedTrade where
  route : PreparedCachedRoute
  instructions : List Instruction
  compiled : CompiledV1Message
  requiredNativeLamports : ℤ
  estimatedNativeResidualLamports : ℤ := 0

inductive TradeError where
  | invalidSlippage
  | independentDirection
  | missingEndpoints
  | noCandidateRoute (failures : List TradeError)
  | emptyPath
  | anchorMismatch
  | launchLabDirection
  | pumpFunDirection
  | officialUnsupported
  | officialSizing
  | fixedOutputOnly
  | missingFixedOutput
  | explicitDammV2
  | dammV2TransferFee
  | weakMinimum
  | invalidTip
  | route (e : RouteError)
  | pump (e : PumpRouteError)
  | cacheNotReady (e : CacheNotReadyError)

def TradeError.text : TradeError → String
  | invalidSlippage => "Invalid cached trade slippage: expected integer basis points in [0, 10000)"
  | independentDirection => "Cached trade requires independent Buy or Sell"
  | missingEndpoints => "Provide explicit hints or candidate pools and endpoint mints"
  | noCandidateRoute _ => "No candidate route passed current state validation and quoting"
  | emptyPath => "Unsupported cached trade protocol or empty path"
  | anchorMismatch => "Trade protocol does not match anchor pool"
  | launchLabDirection => "LaunchLab anchor direction does not match independent trade type"
  | pumpFunDirection => "PumpFun anchor direction does not match independent trade type"
  | officialUnsupported => "Requested route does not support official Pump execution"
  | officialSizing => "Official Pump routes require exact-input sizing"
  | fixedOutputOnly => "fixed_output_amount is only supported by explicit DAMM v2 preparation"
  | missingFixedOutput => "DAMM v2 requires explicit fixed_output_amount; it is not a quote"
  | explicitDammV2 => "Explicit DAMM v2 requires one independent positive exact-in swap"
  | dammV2TransferFee => "DAMM v2 net transfer-fee thresholds are not yet verified"
  | weakMinimum =>
      "Sequential route cannot guarantee the requested final output; refresh its quotes"
  | invalidTip => "Provide a positive tip and a distinct non-default recipient"
  | route e => e.text
  | pump e => e.text
  | cacheNotReady e => e.text

/-! ### What a trade is prepared from -/

/-- A pool with the instruction that swaps in it, and the token programs of its mints. -/
structure CachedDammV2Pool where
  transferFees : List TokenTransferFee
  tokenProgram : Pubkey → Pubkey
  instruction : Pubkey → ℤ → ℤ → Bool → Except RouteError Instruction

/-- `curveMint` is the base mint of a LaunchLab curve. `usable` is what the continuity guard says
while a route of these hints is prepared; at the start there are none. -/
structure TradeSnapshot where
  routes : RouteSnapshot
  pump : PumpSnapshot
  dammV2 : PoolTradeHint → ℤ → Except RouteError CachedDammV2Pool
  curveMint : DexType → PoolTradeHint → Except RouteError Pubkey
  usable : List PoolTradeHint → Except CacheNotReadyError Unit

section Trade

variable (find : ProgramAddress) (temporaryAccount : Pubkey → String → Pubkey)
  (b58decode : String → Except ValueError (List UInt8)) (snapshot : TradeSnapshot)
  (r : CachedTradeRequest)

/-! ### The route of a trade -/

def CachedTradeRequest.isBuy : Bool := r.tradeType = .buy

/-- The pool that the trade is about: a purchase ends in it, a sale starts from it. -/
def CachedTradeRequest.anchor : Option PoolTradeHint :=
  if r.isBuy then r.hints.getLast? else r.hints.head?

/-- The token that the trade is about. -/
def CachedTradeRequest.anchorToken (anchor : PoolTradeHint) : Pubkey :=
  if r.isBuy then anchor.outputMint else anchor.inputMint

/-- Tells whether the curve of the trade is quoted in native SOL. -/
def checkAnchor : Except TradeError Bool :=
  match r.anchor with
  | none => .error .emptyPath
  | some anchor => do
      let program ← (snapshot.routes.owner anchor.pool).mapError .route
      require (program = r.dexType.program) .anchorMismatch
      match r.dexType with
      | .stonkFun | .launchLab | .bonk =>
          let mint ← (snapshot.curveMint r.dexType anchor).mapError .route
          require (r.anchorToken anchor = mint) .launchLabDirection
          return false
      | .pumpFun =>
          let state ← (snapshot.pump.cachedPumpfun anchor).mapError .pump
          require (state.mint = r.anchorToken anchor) .pumpFunDirection
          return state.quote = wsolTokenAccount
      | _ => return false

/-- A swap for an output that the caller fixes; nothing is estimated. -/
def prepareExplicitDammV2Route : Except TradeError PreparedCachedRoute := do
  let _ ← (unsigned r.amount u64).mapError fun e => .route (.value e)
  match r.fixedOutputAmount with
  | none => .error .missingFixedOutput
  | some minimum =>
      let _ ← (unsigned minimum u64).mapError fun e => .route (.value e)
      match r.hints with
      | [hint] =>
          require (¬ (r.amount = 0 ∨ minimum = 0 ∨ r.payer = .default)) .explicitDammV2
          let state ← (snapshot.dammV2 hint r.unixTimestamp).mapError .route
          require (∀ fee ∈ state.transferFees, noTransferFee fee = true) .dammV2TransferFee
          let swap ← (state.instruction r.payer r.amount minimum r.isBuy).mapError .route
          return {
            legs := [⟨hint, r.amount, none, minimum, swap⟩]
            setupInstructions := [hint.inputMint, hint.outputMint].map fun mint =>
              createAssociatedTokenAccountIdempotent (addresses find temporaryAccount) r.payer
                r.payer mint (state.tokenProgram mint)
            swapInstructions := [swap]
            minimumNetAmountOut := minimum
            estimatedIntermediateResiduals := [] }
      | _ => .error .explicitDammV2

def CachedTradeRequest.routeRequest (stateNative : Bool) : RouteRequest where
  context := r.context
  unixTimestamp := r.unixTimestamp
  payer := r.payer
  amount := r.amount
  slippageBps := r.slippageBps
  maximumArrays := r.maximumArrays
  allowPumpfunNativeSettlement := stateNative

def officialRoute : Except TradeError (Option PreparedCachedRoute) :=
  if r.dexType = .pumpFun ∨ r.dexType = .pumpSwap then
    (prepareOfficialPumpRoute find temporaryAccount snapshot.pump (r.pumpRoute.getD {}) r.hints
      r.payer r.amount (r.nativeInput || r.nativeOutput)).mapError .pump
  else return none

/-- The route, and whether its curve is settled in native SOL. -/
def tradeRoute (stateNative : Bool) : Except TradeError (PreparedCachedRoute × Bool) := do
  let official ← officialRoute find temporaryAccount snapshot r
  require (¬ (official = none ∧ ∃ options ∈ r.pumpRoute, options.execution = .official))
    .officialUnsupported
  match official with
  | some route =>
      require (r.fixedOutputAmount = none) .officialSizing
      return (route, false)
  | none =>
      if r.dexType = .meteoraDammV2 then
        return (← prepareExplicitDammV2Route find temporaryAccount snapshot r, stateNative)
      else
        require (r.fixedOutputAmount = none) .fixedOutputOnly
        let route ← (prepareCachedRoute snapshot.routes (addresses find temporaryAccount) r.hints
          (r.routeRequest stateNative)).mapError .route
        return (route, stateNative)

/-- The minimum that a route which may be official was asked for. -/
def CachedTradeRequest.askedMinimum : Option ℤ := do
  let options ← r.pumpRoute
  guard (options.execution ≠ .sequential)
  options.minimumOutputAmount

/-! ### Settlement -/

/-- After a sale the surplus of the curve stays SOL; only the protected credit is wrapped. -/
def CachedTradeRequest.creditResidual (route : PreparedCachedRoute) : PreparedCachedRoute :=
  match route.legs with
  | first :: second :: _ =>
      if r.tradeType = .sell then
        { route with
          estimatedIntermediateResiduals :=
            (first.hint.outputMint, first.minimumNetAmountOut - second.amountIn) ::
              route.estimatedIntermediateResiduals.tail }
      else route
  | _ => route

/-- The instructions of a route, the lamports that they need and the lamports that are estimated
to be left over. -/
structure SettledTrade where
  route : PreparedCachedRoute
  instructions : List Instruction
  required : ℤ
  residual : ℤ

def settleTrade (route : PreparedCachedRoute) (stateNative : Bool) :
    Except TradeError SettledTrade :=
  let d := addresses find temporaryAccount
  if stateNative = true then do
    let (instructions, required, residual) ←
      (settlePumpfunNativeQuote d route r.payer r.nativeInput r.nativeOutput r.temporaryWsolSeed
        r.rentLamports).mapError fun e => .route (.value e)
    return ⟨r.creditResidual route, instructions, required, residual⟩
  else if r.nativeInput = true ∨ r.nativeOutput = true then do
    let n ← (settleCachedRouteWithNativeSol d route r.payer r.temporaryWsolSeed r.rentLamports
      r.nativeInput r.nativeOutput).mapError fun e => .route (.value e)
    return ⟨route, n.instructions, n.requiredLamports, 0⟩
  else return ⟨route, route.setupInstructions ++ route.swapInstructions, 0, 0⟩

/-- The tip comes first. -/
def addTip (required : ℤ) (instructions : List Instruction) :
    Except TradeError (ℤ × List Instruction) := do
  let tip ← (unsigned r.tipLamports u64).mapError fun e => .route (.value e)
  match r.tipAccount with
  | some account =>
      require (tip ≠ 0 ∧ account ≠ .default ∧ account ≠ r.payer) .invalidTip
      let required ← (unsigned (required + tip) u64).mapError fun e => .route (.value e)
      return (required, fundAccount r.payer account tip :: instructions)
  | none =>
      require (tip = 0) .invalidTip
      return (required, instructions)

/-- The limits that are not given. -/
def CachedTradeRequest.config : V1Config :=
  { r.v1Config with
    computeUnitLimit := some (r.v1Config.computeUnitLimit.getD 300000)
    loadedAccountsDataSizeLimit :=
      some (r.v1Config.loadedAccountsDataSizeLimit.getD (64 * 1024 * 1024)) }

/-! ### Trades -/

def checkTradeRequest : Except TradeError Unit := do
  require (0 ≤ r.slippageBps ∧ r.slippageBps < 10000) .invalidSlippage
  require (r.tradeType = .buy ∨ r.tradeType = .sell) .independentDirection
  (snapshot.usable r.hints).mapError .cacheNotReady

/-- A trade along its hints. -/
def prepareHintedTrade : Except TradeError PreparedCachedTrade := do
  checkTradeRequest snapshot r
  let stateNative ← checkAnchor snapshot r
  let (route, stateNative) ← tradeRoute find temporaryAccount snapshot r stateNative
  require (∀ minimum ∈ r.askedMinimum, minimum ≤ route.minimumNetAmountOut) .weakMinimum
  let settled ← settleTrade find temporaryAccount r route stateNative
  let (required, instructions) ← addTip r settled.required settled.instructions
  let compiled ← (compileV1Message b58decode r.payer instructions (.text r.recentBlockhash)
    r.config).mapError fun e => .route (.value e)
  return ⟨settled.route, instructions, compiled, required, settled.residual⟩

/-- How trying the routes ended. -/
inductive Attempts where
  | prepared (trade : PreparedCachedTrade)
  | interrupted (e : TradeError)
  | refused (failures : List TradeError)

/-- Tries the routes until one is prepared, the cache is not ready, or an amount that does not fit
its field raises what is not a `ValueError`. -/
def tryRoutes (prepare : List PoolTradeHint → Except TradeError PreparedCachedTrade) :
    List (List PoolTradeHint) → List TradeError → Attempts
  | [], failures => .refused failures
  | hints :: rest, failures =>
      match prepare hints with
      | .ok trade => .prepared trade
      | .error (.cacheNotReady e) => .interrupted (.cacheNotReady e)
      | .error (.route .packRange) => .interrupted (.route .packRange)
      | .error e => tryRoutes prepare rest (failures ++ [e])

/-- The version of the request, where a hint has none. An empty text counts as none. -/
def CachedTradeRequest.versioned : CachedTradeRequest :=
  match (r.pumpfunVersion.filter (· ≠ "")).or r.configVersion with
  | none => r
  | some version =>
      let apply (h : PoolTradeHint) : PoolTradeHint :=
        { h with pumpfunVersion := some ((h.pumpfunVersion.filter (· ≠ "")).getD version) }
      { r with hints := r.hints.map apply, candidates := r.candidates.map apply }

/-- A trade along the given hints or, without any, along the first candidate route that can be
prepared. -/
def prepareCachedTrade (str : PubkeyText) : Except TradeError PreparedCachedTrade := do
  let r := r.versioned
  if r.hints ≠ [] then prepareHintedTrade find temporaryAccount b58decode snapshot r
  else
    checkTradeRequest snapshot r
    match r.inputMint, r.outputMint with
    | some input, some output =>
        require (r.candidates ≠ []) .missingEndpoints
        let g ← (candidateRouteGraph str r.candidates).mapError fun e => .route (.value e)
        let tried := g.routes input output
        match tryRoutes (fun hints => prepareHintedTrade find temporaryAccount b58decode snapshot
            { r with hints, candidates := [] }) tried.2 [] with
        | .prepared trade => return trade
        | .interrupted e => .error e
        | .refused failures =>
            tried.1.mapError fun e => .route (.value e)
            .error (.noCandidateRoute failures)
    | _, _ => .error .missingEndpoints

end Trade

/-! ### Trades from candidates -/

section Candidates

variable {str : PubkeyText} {find : ProgramAddress} {temporaryAccount : Pubkey → String → Pubkey}
  {b58decode : String → Except ValueError (List UInt8)} {snapshot : TradeSnapshot}
  {r : CachedTradeRequest} {trade : PreparedCachedTrade}
  {prepare : List PoolTradeHint → Except TradeError PreparedCachedTrade}
  {routes : List (List PoolTradeHint)} {failures : List TradeError}

/-- The error is a `ValueError`, and not the one of a cache that is not ready. -/
def TradeError.IsValue (e : TradeError) : Prop :=
  (∀ n, e ≠ .cacheNotReady n) ∧ e ≠ .route .packRange

/-- The route was tried and refused. -/
def Refused (prepare : List PoolTradeHint → Except TradeError PreparedCachedTrade)
    (hints : List PoolTradeHint) : Prop :=
  ∃ e, prepare hints = .error e ∧ e.IsValue

theorem tryRoutes_prepared (h : tryRoutes prepare routes failures = .prepared trade) :
    ∃ before hints after, routes = before ++ hints :: after ∧ prepare hints = .ok trade ∧
      ∀ refused ∈ before, Refused prepare refused := by
  induction routes generalizing failures with
  | nil => cases h
  | cons hints routes ih =>
      rw [tryRoutes] at h
      split at h
      · rename_i found hfound
        obtain rfl : found = trade := Attempts.prepared.inj h
        exact ⟨[], hints, routes, rfl, hfound, fun _ hmem => absurd hmem List.not_mem_nil⟩
      · cases h
      · cases h
      · rename_i e hready hpack herror
        obtain ⟨before, found, after, rfl, hfound, hrefused⟩ := ih h
        refine ⟨hints :: before, found, after, rfl, hfound, ?_⟩
        exact List.forall_mem_cons.2
          ⟨⟨e, herror, hready, hpack⟩, hrefused⟩

theorem tryRoutes_refused {all : List TradeError}
    (h : tryRoutes prepare routes failures = .refused all) :
    (∀ hints ∈ routes, Refused prepare hints) ∧ ∃ later, all = failures ++ later ∧
      List.Forall₂ (fun hints e => prepare hints = .error e) routes later := by
  induction routes generalizing failures with
  | nil =>
      obtain rfl := Attempts.refused.inj h
      exact ⟨fun _ hmem => absurd hmem List.not_mem_nil, [], (List.append_nil _).symm, .nil⟩
  | cons hints routes ih =>
      rw [tryRoutes] at h
      split at h
      · cases h
      · cases h
      · cases h
      · rename_i e hready hpack herror
        obtain ⟨hrefused, later, rfl, hlater⟩ := ih h
        refine ⟨List.forall_mem_cons.2 ⟨⟨e, herror, ?_⟩, hrefused⟩, e :: later, by simp,
          .cons herror hlater⟩
        exact ⟨hready, hpack⟩

theorem tryRoutes_interrupted {e : TradeError}
    (h : tryRoutes prepare routes failures = .interrupted e) : ¬ e.IsValue := by
  induction routes generalizing failures with
  | nil => cases h
  | cons hints routes ih =>
      rw [tryRoutes] at h
      split at h
      · cases h
      · obtain rfl := Attempts.interrupted.inj h
        exact fun hvalue => hvalue.1 _ rfl
      · obtain rfl := Attempts.interrupted.inj h
        exact fun hvalue => hvalue.2 rfl
      · exact ih h

theorem versioned_hints (h : r.hints = []) : r.versioned.hints = [] := by
  unfold CachedTradeRequest.versioned
  split
  · exact h
  · rw [h]
    rfl

theorem versioned_mints :
    r.versioned.inputMint = r.inputMint ∧ r.versioned.outputMint = r.outputMint := by
  unfold CachedTradeRequest.versioned
  split <;> exact ⟨rfl, rfl⟩

/-- A trade along one route of the candidates. -/
def prepareAlong (find : ProgramAddress) (temporaryAccount : Pubkey → String → Pubkey)
    (b58decode : String → Except ValueError (List UInt8)) (snapshot : TradeSnapshot)
    (r : CachedTradeRequest) (hints : List PoolTradeHint) :
    Except TradeError PreparedCachedTrade :=
  prepareHintedTrade find temporaryAccount b58decode snapshot
    { r.versioned with hints, candidates := [] }

/-- The routes that are tried, in their order: each one once, the shorter first, and all of them
unless the iteration raised. -/
theorem routes_tried {candidates : List PoolTradeHint} {g : Search.CandidateRouteGraph}
    (hg : candidateRouteGraph str candidates = .ok g) (input output : Pubkey) :
    ∃ rest, ((g.routes input output).2 ++ rest).Nodup ∧
      ((g.routes input output).2 ++ rest).Pairwise (fun a b => a.length ≤ b.length) ∧
      (∀ hints, hints ∈ (g.routes input output).2 ++ rest ↔
        CandidateRoute candidates input output 5 hints) ∧
      ((g.routes input output).1 = .ok () → rest = []) := by
  have haccepted := (Search.candidateRouteGraph_eq_ok.1 hg).1
  by_cases hvalid : Search.ValidRequest input output 5
  · have hlength : ∀ p ∈ [([] : List PoolTradeHint)], p.length = 0 :=
      List.forall_mem_singleton.2 rfl
    obtain ⟨⟨rest, hrest⟩, hcomplete⟩ := Search.routes_of_valid (g := g) hvalid rfl
    refine ⟨rest, ?_, ?_, fun hints => ?_, fun hok => ?_⟩
    · rw [hrest]
      exact PathSearch.nodup_layers (Multigraph.nodup_onward (Search.nodup_adjacent hg))
        (List.nodup_singleton []) hlength
    · rw [hrest]
      exact pairwise_layers hlength
    · rw [hrest]
      exact Search.mem_layers_iff hg hvalid.2.1
    · rcases hcomplete with ⟨hall, -⟩ | ⟨e, -, herror⟩
      · rw [← hrest] at hall
        exact List.append_cancel_left (hall.symm.trans (List.append_nil _).symm)
      · exact absurd (hok.symm.trans herror) (by simp)
  · rw [Search.routes_of_not_valid hvalid]
    refine ⟨[], .nil, .nil, fun hints => ?_, fun hok => rfl⟩
    exact iff_of_false List.not_mem_nil fun hroute => hvalid (hroute.valid haccepted le_rfl)

/-- A trade without hints takes a route over the candidates, and none with fewer hops could be
prepared. -/
theorem prepareCachedTrade_fewest_hops (hhints : r.hints = [])
    (h : prepareCachedTrade find temporaryAccount b58decode snapshot r str = .ok trade) :
    ∃ input output hints, r.inputMint = some input ∧ r.outputMint = some output ∧
      CandidateRoute r.versioned.candidates input output 5 hints ∧
      prepareAlong find temporaryAccount b58decode snapshot r hints = .ok trade ∧
      ∀ other, CandidateRoute r.versioned.candidates input output 5 other →
        other.length < hints.length →
          Refused (prepareAlong find temporaryAccount b58decode snapshot r) other := by
  obtain ⟨hinput, houtput⟩ := versioned_mints (r := r)
  unfold prepareCachedTrade at h
  rw [if_neg (not_not.2 (versioned_hints hhints))] at h
  obtain ⟨_, -, h⟩ := bind_eq_ok.1 h
  split at h
  case h_2 => cases h
  rename_i input output hin hout
  obtain ⟨_, -, h⟩ := bind_eq_ok.1 h
  obtain ⟨g, hg, h⟩ := bind_eq_ok.1 h
  rw [mapError_eq_ok] at hg
  obtain ⟨rest, -, hordered, hroutes, -⟩ := routes_tried hg input output
  dsimp only at h
  split at h
  · rename_i found hfound
    obtain rfl := pure_eq_ok.1 h
    obtain ⟨before, hints, after, hsplit, hprepared, hrefused⟩ := tryRoutes_prepared hfound
    rw [hsplit] at hordered hroutes
    refine ⟨input, output, hints, hinput.symm.trans hin, houtput.symm.trans hout,
      (hroutes hints).1 (by simp), hprepared, fun other hother hshorter => ?_⟩
    have hmem := (hroutes other).2 hother
    rw [List.append_assoc, List.mem_append] at hmem
    rw [List.append_assoc, List.pairwise_append, List.cons_append, List.pairwise_cons] at hordered
    refine hmem.elim (hrefused other) fun hlater => ?_
    rw [List.cons_append, List.mem_cons] at hlater
    rcases hlater with rfl | hlater
    · exact absurd hshorter (lt_irrefl _)
    · exact absurd hshorter (not_lt.2 (hordered.2.1.1 other hlater))
  · cases h
  · obtain ⟨_, -, h⟩ := bind_eq_ok.1 h
    cases h

theorem checkTradeRequest_ne :
    checkTradeRequest snapshot r ≠ .error (.noCandidateRoute failures) := by
  refine bind_ne_error (require_ne_error (by simp)) fun _ => ?_
  exact bind_ne_error (require_ne_error (by simp)) fun _ => mapError_ne_error (by simp)

/-- A trade that fails for want of a route has tried every route over the candidates once, and every
one was refused. -/
theorem prepareCachedTrade_exhausted (hhints : r.hints = [])
    (h : prepareCachedTrade find temporaryAccount b58decode snapshot r str =
      .error (.noCandidateRoute failures)) :
    ∃ input output routes, r.inputMint = some input ∧ r.outputMint = some output ∧ routes.Nodup ∧
      (∀ hints, hints ∈ routes ↔ CandidateRoute r.versioned.candidates input output 5 hints) ∧
      List.Forall₂ (fun hints e => prepareAlong find temporaryAccount b58decode snapshot r hints =
        .error e ∧ e.IsValue) routes failures := by
  obtain ⟨hinput, houtput⟩ := versioned_mints (r := r)
  unfold prepareCachedTrade at h
  rw [if_neg (not_not.2 (versioned_hints hhints))] at h
  rcases bind_eq_error.1 h with h | ⟨_, -, h⟩
  · exact absurd h checkTradeRequest_ne
  split at h
  case h_2 => cases h
  rename_i input output hin hout
  rcases bind_eq_error.1 h with h | ⟨_, -, h⟩
  · exact absurd h (require_ne_error (by simp))
  rcases bind_eq_error.1 h with h | ⟨g, hg, h⟩
  · exact absurd h (mapError_ne_error (by simp))
  rw [mapError_eq_ok] at hg
  obtain ⟨rest, hnodup, -, hroutes, hall⟩ := routes_tried hg input output
  dsimp only at h
  split at h
  · cases h
  · rename_i e he
    obtain rfl := Except.error.inj h
    exact absurd ⟨nofun, nofun⟩ (tryRoutes_interrupted he)
  · rename_i found hfound
    rcases bind_eq_error.1 h with h | ⟨_, hended, h⟩
    · exact absurd h (mapError_ne_error (by simp))
    · obtain rfl := TradeError.noCandidateRoute.inj (Except.error.inj h)
      obtain ⟨hrefused, later, hlater, herrors⟩ := tryRoutes_refused hfound
      rw [mapError_eq_ok] at hended
      obtain rfl := hall hended
      rw [List.nil_append] at hlater
      subst hlater
      rw [List.append_nil] at hnodup
      simp only [List.append_nil] at hroutes
      refine ⟨input, output, _, hinput.symm.trans hin, houtput.symm.trans hout, hnodup, hroutes, ?_⟩
      refine ((List.forall₂_and_left _ _).2 ⟨hrefused, herrors⟩).imp ?_
      rintro hints e ⟨⟨e', he', hvalue⟩, he⟩
      obtain rfl := Except.error.inj (he'.symm.trans he)
      exact ⟨he, hvalue⟩

end Candidates

/-! ### A purchase over two candidates -/

def sampleTradeDerivation : Derivation := addresses curveFind fun _ _ => sampleKey 4

def sampleTradeSnapshot : TradeSnapshot where
  routes := twoPools sampleTradeDerivation (sampleKey 5)
  pump := twoCurveSnapshot
  dammV2 _ _ := .error (.unreadable "Invalid DAMM v2 pool discriminator or size")
  curveMint _ _ := .error (.unreadable "Invalid LaunchLab pool")
  usable _ := .ok ()

/-- A purchase with wrapped SOL; the last pool is of the protocol. -/
def samplePurchase (dexType : DexType) : CachedTradeRequest where
  dexType
  tradeType := .buy
  hints := []
  context := sampleRequest.context
  unixTimestamp := 1
  payer := sampleKey 3
  amount := 10000
  recentBlockhash := "blockhash"
  candidates := twoHops (sampleKey 5) (sampleKey 6)
  inputMint := some wsolTokenAccount
  outputMint := some (sampleKey 6)

def sampleTrade (dexType : DexType) : Except TradeError PreparedCachedTrade :=
  prepareCachedTrade curveFind (fun _ _ => sampleKey 4) (fun _ => .ok (List.replicate 32 4))
    sampleTradeSnapshot (samplePurchase dexType) base58Text

theorem prepareCachedTrade_fewest_hops_twoPools :
    ∃ trade hints, sampleTrade .raydiumCpmm = .ok trade ∧
      CandidateRoute (twoHops (sampleKey 5) (sampleKey 6)) wsolTokenAccount (sampleKey 6) 5 hints ∧
      prepareAlong curveFind (fun _ _ => sampleKey 4) (fun _ => .ok (List.replicate 32 4))
        sampleTradeSnapshot (samplePurchase .raydiumCpmm) hints = .ok trade := by
  obtain ⟨trade, h⟩ := exists_of_isOk (show (sampleTrade .raydiumCpmm).isOk by decide +kernel)
  obtain ⟨input, output, hints, hinput, houtput, hroute, hprepared, -⟩ :=
    prepareCachedTrade_fewest_hops rfl h
  obtain rfl := Option.some.inj hinput
  obtain rfl := Option.some.inj houtput
  exact ⟨trade, hints, h, hroute, hprepared⟩

/-- The error of a trade that fails. -/
def failuresOf : Except TradeError PreparedCachedTrade → Option (List TradeError)
  | .error (.noCandidateRoute failures) => some failures
  | _ => none

/-- The last pool is of another protocol. -/
theorem prepareCachedTrade_exhausted_twoPools :
    ∃ failures routes, sampleTrade .raydiumAmmV4 = .error (.noCandidateRoute failures) ∧
      routes.Nodup ∧
      List.Forall₂ (fun hints e => prepareAlong curveFind (fun _ _ => sampleKey 4)
        (fun _ => .ok (List.replicate 32 4)) sampleTradeSnapshot (samplePurchase .raydiumAmmV4)
          hints = .error e ∧ e.IsValue) routes failures := by
  obtain ⟨failures, hfailures⟩ := Option.isSome_iff_exists.1
    (show (failuresOf (sampleTrade .raydiumAmmV4)).isSome = true by decide +kernel)
  unfold failuresOf at hfailures
  split at hfailures
  · rename_i failures' h
    obtain ⟨input, output, routes, -, -, hnodup, -, hrefused⟩ := prepareCachedTrade_exhausted rfl h
    exact ⟨failures', routes, h, hnodup, hrefused⟩
  · cases hfailures

end SolTrade.Route
