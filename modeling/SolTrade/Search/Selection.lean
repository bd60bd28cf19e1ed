import Mathlib.Data.Int.ConditionallyCompleteOrder
import Mathlib.Data.List.MinMax
import SolTrade.Search.ConversionPaths

/-!
The selected trade is the best one over all conversion paths.

Every path is handed to preparation once, in the order of the walk. The selection and
the paths prepared do not depend on how the conversion pools are listed.
-/

namespace SolTrade.Search

open Library KeyedTable Multigraph PathSearch Yielding
open PumpSwap Route Subscription

/-! ### Evaluation -/

section Evaluation

variable (prepare : List PoolTradeHint → Except PreparationError PreparedPumpSwapTrade)

/-- The trades that were prepared, with their keys. -/
def preparedTrade (path : List PoolTradeHint) :
    Option (PreparedPumpSwapTrade × (ℤ ×ₗ ℕ ×ₗ List (List ℕ))) :=
  match prepare path with
  | .ok trade => some (trade, tradeKey trade path)
  | .error _ => none

def rejection (path : List PoolTradeHint) : Option PumpSwapRouteRejection :=
  match prepare path with
  | .error (.value reason) => some ⟨path.map (·.pool), reason⟩
  | _ => none

/-- The preparation of the path does not find the cache not ready, which ends the call. -/
def Ready (path : List PoolTradeHint) : Prop := ∀ e, prepare path ≠ .error (.cacheNotReady e)

/-- The evaluation of all paths. -/
noncomputable def evaluationOf (paths : List (List PoolTradeHint)) : Evaluation :=
  ⟨(paths.filterMap (preparedTrade prepare)).argmin Prod.snd, paths.filterMap (rejection prepare)⟩

/-- The evaluation after one more path. -/
def Evaluation.add (evaluation : Evaluation) (path : List PoolTradeHint) : Evaluation :=
  ⟨match preparedTrade prepare path with
    | none => evaluation.best
    | some trade =>
        if ∀ best ∈ evaluation.best, trade.2 < best.2 then some trade else evaluation.best,
    evaluation.rejections ++ (rejection prepare path).toList⟩

variable {prepare} {path : List PoolTradeHint} {paths : List (List PoolTradeHint)}
  {evaluation : Evaluation} {yielded : List (List PoolTradeHint)} {e : CacheNotReadyError}

/-- Evaluating a path hands it to preparation and adds it. -/
theorem runFrom_evaluatePath (hready : Ready prepare path) :
    runFrom (evaluatePath prepare evaluation path) yielded =
      (.ok (evaluation.add prepare path), yielded ++ [path]) := by
  unfold evaluatePath Evaluation.add preparedTrade rejection
  rw [runFrom_bind_ok (runFrom_modify _)]
  cases hprepare : prepare path with
  | ok trade =>
      dsimp only
      rw [Option.toList_none, List.append_nil]
      split <;> rfl
  | error failure =>
      cases failure with
      | value reason => rfl
      | cacheNotReady e => exact absurd hprepare (hready e)

theorem runFrom_evaluatePath_of_notReady (h : prepare path = .error (.cacheNotReady e)) :
    runFrom (evaluatePath prepare evaluation path) yielded =
      (.error (.preparation (.cacheNotReady e)), yielded ++ [path]) := by
  unfold evaluatePath
  rw [runFrom_bind_ok (runFrom_modify _), h]
  rfl

variable (prepare) in
/-- All paths are handed to preparation in order, or those up to the first that finds the
cache not ready. -/
theorem runFrom_evaluation (paths : List (List PoolTradeHint)) (evaluation : Evaluation)
    (yielded : List (List PoolTradeHint)) :
    ((∀ path ∈ paths, Ready prepare path) ∧
        runFrom (paths.foldlM (evaluatePath prepare) evaluation) yielded =
          (.ok (paths.foldl (Evaluation.add prepare) evaluation), yielded ++ paths)) ∨
      ∃ earlier path later e, paths = earlier ++ path :: later ∧
        (∀ path ∈ earlier, Ready prepare path) ∧ prepare path = .error (.cacheNotReady e) ∧
        runFrom (paths.foldlM (evaluatePath prepare) evaluation) yielded =
          (.error (.preparation (.cacheNotReady e)), yielded ++ (earlier ++ [path])) := by
  induction paths generalizing evaluation yielded with
  | nil =>
      refine .inl ⟨fun path hpath => absurd hpath List.not_mem_nil, ?_⟩
      rw [List.append_nil]
      rfl
  | cons path paths ih =>
      rw [List.foldlM_cons]
      by_cases hready : Ready prepare path
      · rw [runFrom_bind_ok (runFrom_evaluatePath hready)]
        rcases ih (evaluation.add prepare path) (yielded ++ [path]) with
          ⟨hall, hrun⟩ | ⟨earlier, notReady, later, e, rfl, hearlier, hprepare, hrun⟩
        · refine .inl ⟨List.forall_mem_cons.2 ⟨hready, hall⟩, ?_⟩
          rw [hrun, List.foldl_cons, List.append_assoc, List.singleton_append]
        · refine .inr ⟨path :: earlier, notReady, later, e, rfl,
            List.forall_mem_cons.2 ⟨hready, hearlier⟩, hprepare, ?_⟩
          rw [hrun, List.append_assoc, List.singleton_append, List.cons_append]
      · obtain ⟨e, hprepare⟩ : ∃ e, prepare path = .error (.cacheNotReady e) := by
          simpa [Ready] using hready
        refine .inr ⟨[], path, paths, e, rfl, fun p hp => absurd hp List.not_mem_nil, hprepare, ?_⟩
        exact runFrom_bind_error (runFrom_evaluatePath_of_notReady hprepare)

theorem add_evaluationOf :
    (evaluationOf prepare paths).add prepare path = evaluationOf prepare (paths ++ [path]) := by
  unfold Evaluation.add evaluationOf
  rw [List.filterMap_append, List.filterMap_append]
  congr 1
  · cases hprepared : preparedTrade prepare path with
    | none => simp [hprepared]
    | some trade =>
        rw [List.filterMap_cons_some hprepared, List.filterMap_nil, List.argmin_concat]
        cases List.argmin Prod.snd (paths.filterMap (preparedTrade prepare)) <;> simp

theorem foldl_add :
    paths.foldl (Evaluation.add prepare) ⟨none, []⟩ = evaluationOf prepare paths := by
  induction paths using List.reverseRecOn with
  | nil => rfl
  | append_singleton paths path ih => rw [List.foldl_concat, ih, add_evaluationOf]

theorem preparedTrade_eq_some {trade : PreparedPumpSwapTrade} {key} :
    preparedTrade prepare path = some (trade, key) ↔
      prepare path = .ok trade ∧ tradeKey trade path = key := by
  unfold preparedTrade
  cases prepare path with
  | error failure => simp
  | ok t =>
      rw [Option.some_inj, Except.ok.injEq, Prod.mk.injEq]
      exact and_congr_right fun h => by rw [h]

theorem rejection_eq_some {r : PumpSwapRouteRejection} :
    rejection prepare path = some r ↔
      prepare path = .error (.value r.reason) ∧ r.pools = path.map (·.pool) := by
  unfold rejection
  split
  · rename_i reason hprepare
    rw [hprepare]
    cases r
    simp [eq_comm, and_comm]
  · rename_i hother
    exact iff_of_false (by simp) fun h => hother _ h.1

/-- No trade was prepared. -/
theorem best_eq_none : (evaluationOf prepare paths).best = none ↔
    ∀ path ∈ paths, ∀ trade, prepare path ≠ .ok trade := by
  rw [evaluationOf, List.argmin_eq_none, List.filterMap_eq_nil_iff]
  apply forall₂_congr
  intro path _
  unfold preparedTrade
  cases prepare path <;> simp

/-- The best trade comes from one of the paths, and its key is the least. -/
theorem of_best {trade : PreparedPumpSwapTrade} {key : ℤ ×ₗ ℕ ×ₗ List (List ℕ)}
    (h : (evaluationOf prepare paths).best = some (trade, key)) :
    ∃ path ∈ paths, prepare path = .ok trade ∧ ∀ other ∈ paths, ∀ t, prepare other = .ok t →
      tradeKey trade path ≤ tradeKey t other := by
  obtain ⟨path, hpath, hprepared⟩ := List.mem_filterMap.1 (List.argmin_mem h)
  obtain ⟨hprepare, rfl⟩ := preparedTrade_eq_some.1 hprepared
  refine ⟨path, hpath, hprepare, fun other hother t ht => ?_⟩
  exact List.le_of_mem_argmin
    (List.mem_filterMap.2 ⟨other, hother, preparedTrade_eq_some.2 ⟨ht, rfl⟩⟩) h

end Evaluation

/-- A trade is preferred for a greater credit, then for fewer hops, then for the addresses
of its pools. -/
def Preferred (trade : PreparedPumpSwapTrade) (path : List PoolTradeHint)
    (trade' : PreparedPumpSwapTrade) (path' : List PoolTradeHint) : Prop :=
  trade'.minimumOutputCredit < trade.minimumOutputCredit ∨
    trade.minimumOutputCredit = trade'.minimumOutputCredit ∧
      (path.length < path'.length ∨ path.length = path'.length ∧
        path.map (·.pool.bytes) < path'.map (·.pool.bytes))

theorem tradeKey_lt {trade trade' : PreparedPumpSwapTrade} {path path' : List PoolTradeHint} :
    tradeKey trade path < tradeKey trade' path' ↔ Preferred trade path trade' path' := by
  unfold tradeKey Preferred
  rw [Prod.Lex.toLex_lt_toLex, Prod.Lex.toLex_lt_toLex, neg_lt_neg_iff, neg_inj]

theorem pools_of_tradeKey {trade trade' : PreparedPumpSwapTrade} {path path' : List PoolTradeHint}
    (h : tradeKey trade path = tradeKey trade' path') :
    path.map (·.pool) = path'.map (·.pool) := by
  have hbytes : path.map (·.pool.bytes) = path'.map (·.pool.bytes) :=
    (Prod.mk.inj (Prod.mk.inj h).2).2
  apply List.map_injective_iff.2 Pubkey.bytes_injective
  rwa [List.map_map, List.map_map]

/-- How the search ends when the nodes suffice, by the paths that there are: the result,
and the paths handed to preparation. -/
inductive SearchOutcome
    (prepare : List PoolTradeHint → Except PreparationError PreparedPumpSwapTrade)
    (all : List (List PoolTradeHint)) :
    Except RouteSearchError PumpSwapRouteSelection × List (List PoolTradeHint) → Prop
  | unconnected (hnone : all = []) :
      SearchOutcome prepare all (.error (.value .noConversionPath), [])
  | interrupted {path : List PoolTradeHint} {e : CacheNotReadyError}
      {earlier later : List (List PoolTradeHint)} (hsplit : all = earlier ++ path :: later)
      (hready : ∀ path ∈ earlier, Ready prepare path)
      (hprepare : prepare path = .error (.cacheNotReady e)) :
      SearchOutcome prepare all (.error (.preparation (.cacheNotReady e)), earlier ++ [path])
  | rejected {path : List PoolTradeHint} {reason : String}
      (hready : ∀ path ∈ all, Ready prepare path) (hpath : all.head? = some path)
      (hreason : prepare path = .error (.value reason))
      (hnone : ∀ path ∈ all, ∀ trade, prepare path ≠ .ok trade) :
      SearchOutcome prepare all (.error (.noExecutableRoute reason), all)
  | selected {path : List PoolTradeHint} {trade : PreparedPumpSwapTrade}
      (hready : ∀ path ∈ all, Ready prepare path) (hpath : path ∈ all)
      (hprepare : prepare path = .ok trade)
      (hbest : ∀ path' ∈ all, ∀ trade', prepare path' = .ok trade' →
        path' = path ∨ Preferred trade path trade' path') :
      SearchOutcome prepare all
        (.ok ⟨trade, all.length, all.filterMap (rejection prepare)⟩, all)

section Outcome

variable {prepare : List PoolTradeHint → Except PreparationError PreparedPumpSwapTrade}
  {all : List (List PoolTradeHint)}

/-- What is returned after the evaluation. -/
def selectionOf (count : ℕ) (evaluation : Evaluation) :
    Generator RouteSearchError (List PoolTradeHint) PumpSwapRouteSelection :=
  match evaluation.best, evaluation.rejections with
  | some (trade, _), rejections => return ⟨trade, count, rejections⟩
  | none, first :: _ => throw (.noExecutableRoute first.reason)
  | none, [] => throw .listIndexOutOfRange

/-- The evaluation of the paths that there are, none of which has the pools of another. -/
theorem searchOutcome_evaluation (hsome : all ≠ [])
    (hpools : ∀ path ∈ all, ∀ path' ∈ all,
      path.map (·.pool) = path'.map (·.pool) → path = path') :
    SearchOutcome prepare all (runFrom
      (all.foldlM (evaluatePath prepare) ⟨none, []⟩ >>= selectionOf all.length) []) := by
  rcases runFrom_evaluation prepare all ⟨none, []⟩ [] with
    ⟨hready, hok⟩ | ⟨earlier, path, later, e, rfl, hready, hprepare, herror⟩
  · rw [runFrom_bind_ok hok, foldl_add, List.nil_append]
    rcases hbest : (evaluationOf prepare all).best with _ | ⟨trade, key⟩
    · have hnone := best_eq_none.1 hbest
      obtain ⟨path, rest, rfl⟩ := List.exists_cons_of_ne_nil hsome
      obtain ⟨reason, hreason⟩ : ∃ reason, prepare path = .error (.value reason) := by
        cases hprepare : prepare path with
        | ok trade => exact absurd hprepare (hnone path List.mem_cons_self trade)
        | error failure =>
            cases failure with
            | value reason => exact ⟨reason, rfl⟩
            | cacheNotReady e => exact absurd hprepare (hready path List.mem_cons_self e)
      have hrejections : (evaluationOf prepare (path :: rest)).rejections =
          ⟨path.map (·.pool), reason⟩ :: rest.filterMap (rejection prepare) :=
        List.filterMap_cons_some (rejection_eq_some.2 ⟨hreason, rfl⟩)
      unfold selectionOf
      rw [hbest, hrejections]
      exact .rejected hready rfl hreason hnone
    · obtain ⟨path, hpath, hprepare, hleast⟩ := of_best hbest
      unfold selectionOf
      rw [hbest]
      refine .selected hready hpath hprepare fun path' hpath' trade' hprepare' => ?_
      rcases (hleast path' hpath' trade' hprepare').eq_or_lt with heq | hlt
      · exact .inl (hpools path' hpath' path hpath (pools_of_tradeKey heq.symm))
      · exact .inr (tradeKey_lt.1 hlt)
  · rw [runFrom_bind_error herror, List.nil_append]
    exact .interrupted rfl hready hprepare

end Outcome

/-! ### The search -/

/-- The nodes that the walk visits. -/
def visitedNodes (topology : PumpSwapTopology) (search : PumpSwapRouteSearch)
    (start target : Pubkey) : ℕ :=
  visits (topology.onward (canonical search.tokenMint) start)
    (Arrived PoolTradeHint.outputMint start target) search.maximumConversionHops.toNat []

section Plan

variable {sys : SubscriptionSystem} {snapshot : AccountCacheSnapshot}
  {preparation : PumpSwapPreparation} {search : PumpSwapRouteSearch}
  {request : PumpSwapQuoteRequest} {context : CacheReadContext} {isBuy : Bool}
  {anchor : PoolTradeHint} {topology : PumpSwapTopology} {α : Type}

theorem lift_value_eq_ok {x : Except ValueError α} {a : α} :
    (liftM x : Except RouteSearchError α) = .ok a ↔ x = .ok a := mapError_eq_ok

theorem lift_snapshot_eq_ok {x : Except SnapshotError α} {a : α} :
    (liftM x : Except RouteSearchError α) = .ok a ↔ x = .ok a := mapError_eq_ok

theorem lift_preparation_eq_ok {x : Except PreparationError α} {a : α} :
    (liftM x : Except RouteSearchError α) = .ok a ↔ x = .ok a := mapError_eq_ok

theorem planSearch_eq_ok :
    planSearch sys snapshot preparation search context isBuy = .ok (anchor, topology) ↔
      checkRouteSearch search = .ok () ∧
      selectedAnchor sys snapshot preparation search context isBuy = .ok anchor ∧
      buildPumpswapTopology search.conversionPools = .ok topology ∧
      search.pool ∉ topology.candidates.map (·.pool) := by
  simp only [planSearch, bind_eq_ok, lift_value_eq_ok, require_eq_ok, pure_eq_ok, Prod.mk.injEq]
  constructor
  · rintro ⟨⟨⟩, hchecked, _, hanchor, _, htopology, ⟨⟩, hreuse, rfl, rfl⟩
    exact ⟨hchecked, hanchor, htopology, hreuse⟩
  · rintro ⟨hchecked, hanchor, htopology, hreuse⟩
    exact ⟨(), hchecked, _, hanchor, _, htopology, (), hreuse, rfl, rfl⟩

theorem checkRouteSearch_eq_ok (h : checkRouteSearch search = .ok ()) :
    0 ≤ search.maximumConversionHops ∧
      canonical search.tokenMint ≠ canonical search.assetMint := by
  simp only [checkRouteSearch, bind_eq_ok, require_eq_ok] at h
  obtain ⟨_, -, _, hlimits, hne⟩ := h
  exact ⟨by tauto, hne⟩

/-- One side of the selected pool is the token, the other is not. -/
theorem mints_of_selectedAnchor
    (h : selectedAnchor sys snapshot preparation search context isBuy = .ok anchor) :
    (if isBuy then anchor.outputMint else anchor.inputMint) = canonical search.tokenMint ∧
      anchor.inputMint ≠ anchor.outputMint := by
  simp only [selectedAnchor, bind_eq_ok, lift_snapshot_eq_ok, require_eq_ok] at h
  obtain ⟨account, -, _, -, h⟩ := h
  split at h
  · cases h
  · simp only [bind_eq_ok, require_eq_ok, lift_value_eq_ok, lift_preparation_eq_ok, pure_eq_ok] at h
    obtain ⟨_, -, _, hvalid, _, -, rfl⟩ := h
    refine ⟨?_, (postInit_eq_ok.1 hvalid).2.2.2⟩
    cases isBuy <;> rfl

theorem start_ne_token (hchecked : checkRouteSearch search = .ok ())
    (hanchor : selectedAnchor sys snapshot preparation search context isBuy = .ok anchor) :
    (conversionEnds search isBuy anchor).1 ≠ canonical search.tokenMint := by
  obtain ⟨htoken, hne⟩ := mints_of_selectedAnchor hanchor
  cases isBuy with
  | true => exact (checkRouteSearch_eq_ok hchecked).2.symm
  | false =>
      intro heq
      exact hne (htoken.trans heq.symm)

theorem conversionPaths_eq
    (htopology : buildPumpswapTopology search.conversionPools = .ok topology) :
    conversionPaths search isBuy anchor topology =
      spend .searchBudgetExhausted
        (visitedNodes topology search (conversionEnds search isBuy anchor).1
          (conversionEnds search isBuy anchor).2)
        (foundPaths topology search (conversionEnds search isBuy anchor).1
          (conversionEnds search isBuy anchor).2) (search.maximumSearchNodes.toNat, []) := by
  have hvalid : ∀ mint, ∀ h ∈ topology.adjacency mint, (orient mint h).postInit = .ok () := by
    intro mint h hh
    have hout : orient mint h ∈ topology.out mint := List.mem_map_of_mem hh
    exact (buildPumpswapTopology_eq_ok.1 htopology).1.postInit_edge
      ((mem_out htopology mint _).1 hout).1
  exact @walk_eq topology _ (conversionEnds search isBuy anchor).1
    (conversionEnds search isBuy anchor).2 [] _ _ hvalid

theorem bestPumpswapTrade_of_error {e : RouteSearchError}
    (h : planSearch sys snapshot preparation search context isBuy = .error e) :
    bestPumpswapTrade sys snapshot preparation search request context isBuy = (.error e, []) := by
  unfold bestPumpswapTrade prepareBestPumpswapTrade
  rw [h]
  exact runFrom_bind_error runFrom_ofExcept

/-- The search after the plan, with the paths that the walk finds. -/
theorem bestPumpswapTrade_eq
    (h : planSearch sys snapshot preparation search context isBuy = .ok (anchor, topology))
    {found : List (List PoolTradeHint)}
    (hfound : foundPaths topology search (conversionEnds search isBuy anchor).1
      (conversionEnds search isBuy anchor).2 = found) :
    bestPumpswapTrade sys snapshot preparation search request context isBuy =
      if visitedNodes topology search (conversionEnds search isBuy anchor).1
          (conversionEnds search isBuy anchor).2 ≤ search.maximumSearchNodes.toNat then
        if found = [] then (.error (.value .noConversionPath), [])
        else runFrom ((found.map (anchored isBuy anchor)).foldlM
          (evaluatePath (preparePath preparation search request context isBuy)) ⟨none, []⟩ >>=
            selectionOf found.length) []
      else (.error (.value .searchBudgetExhausted), []) := by
  unfold bestPumpswapTrade prepareBestPumpswapTrade
  rw [h, runFrom_bind_ok runFrom_ofExcept]
  dsimp only
  rw [conversionPaths_eq (planSearch_eq_ok.1 h).2.2.1, hfound, spend]
  by_cases hnodes : visitedNodes topology search (conversionEnds search isBuy anchor).1
      (conversionEnds search isBuy anchor).2 ≤ search.maximumSearchNodes.toNat
  · rw [if_pos hnodes, if_pos hnodes, List.nil_append]
    refine (runFrom_bind_ok runFrom_ofExcept).trans ?_
    dsimp only
    by_cases hnone : found = []
    · rw [if_pos hnone, if_pos hnone]
      rfl
    · rw [if_neg hnone, if_neg hnone]
      rfl
  · rw [if_neg hnodes, if_neg hnodes]
    exact runFrom_bind_error runFrom_ofExcept

theorem anchored_injective : Function.Injective (anchored isBuy anchor) := by
  intro p q h
  cases isBuy with
  | true => exact List.append_cancel_right h
  | false => exact (List.cons.inj h).2

theorem pools_of_anchored {p q : List PoolTradeHint}
    (h : (anchored isBuy anchor p).map (·.pool) = (anchored isBuy anchor q).map (·.pool)) :
    p.map (·.pool) = q.map (·.pool) := by
  cases isBuy with
  | true =>
      have h : (p ++ [anchor]).map (·.pool) = (q ++ [anchor]).map (·.pool) := h
      rw [List.map_append, List.map_append] at h
      exact List.append_cancel_right h
  | false => exact (List.cons.inj h).2

theorem searchOutcome_of_plan
    (h : planSearch sys snapshot preparation search context isBuy = .ok (anchor, topology)) :
    ∃ all : List (List PoolTradeHint), all.Nodup ∧
      (∀ path, path ∈ all ↔ ∃ conversion,
        ConversionPath search (conversionEnds search isBuy anchor).1
          (conversionEnds search isBuy anchor).2 conversion ∧
        anchored isBuy anchor conversion = path) ∧
      if visitedNodes topology search (conversionEnds search isBuy anchor).1
          (conversionEnds search isBuy anchor).2 ≤ search.maximumSearchNodes then
        SearchOutcome (preparePath preparation search request context isBuy) all
          (bestPumpswapTrade sys snapshot preparation search request context isBuy)
      else bestPumpswapTrade sys snapshot preparation search request context isBuy =
        (.error (.value .searchBudgetExhausted), []) := by
  obtain ⟨hchecked, hanchor, htopology, -⟩ := planSearch_eq_ok.1 h
  have hhops := (checkRouteSearch_eq_ok hchecked).1
  have hstart := start_ne_token hchecked hanchor
  have hconsistent := (buildPumpswapTopology_eq_ok.1 htopology).1
  have hnodes : 1 ≤ search.maximumSearchNodes := by
    simp only [checkRouteSearch, bind_eq_ok, require_eq_ok] at hchecked
    obtain ⟨_, -, _, hlimits, -⟩ := hchecked
    tauto
  generalize hfound : foundPaths topology search (conversionEnds search isBuy anchor).1
    (conversionEnds search isBuy anchor).2 = found
  have hmem : ∀ path, path ∈ found ↔ ConversionPath search (conversionEnds search isBuy anchor).1
      (conversionEnds search isBuy anchor).2 path := by
    intro path
    rw [← hfound]
    exact mem_foundPaths htopology hhops hstart
  refine ⟨found.map (anchored isBuy anchor), ?_, fun path => ?_, ?_⟩
  · rw [← hfound]
    exact (nodup_foundPaths htopology).map anchored_injective
  · simp only [List.mem_map, hmem]
  · rw [bestPumpswapTrade_eq h hfound]
    by_cases henough : visitedNodes topology search (conversionEnds search isBuy anchor).1
        (conversionEnds search isBuy anchor).2 ≤ search.maximumSearchNodes.toNat
    · rw [if_pos henough, if_pos (by omega)]
      by_cases hnone : found = []
      · rw [if_pos hnone, hnone]
        exact .unconnected rfl
      · rw [if_neg hnone, ← List.length_map (anchored isBuy anchor)]
        apply searchOutcome_evaluation (mt List.map_eq_nil_iff.1 hnone)
        intro path hpath path' hpath' hpools
        obtain ⟨p, hp, rfl⟩ := List.mem_map.1 hpath
        obtain ⟨q, hq, rfl⟩ := List.mem_map.1 hpath'
        have hp := ((hmem p).1 hp).simple
        have hq := ((hmem q).1 hq).simple
        rw [eq_of_pools hconsistent hp.edges hq.edges hp.connected hq.connected
          (pools_of_anchored hpools)]
    · rw [if_neg henough, if_neg (by omega)]

/-- The pools may be listed otherwise. -/
theorem bestPumpswapTrade_congr {pools' : List PoolTradeHint}
    (h : planSearch sys snapshot preparation search context isBuy = .ok (anchor, topology))
    (hsame : SameEntries search.conversionPools pools')
    (hversions : VersionsAgree search.conversionPools) (hlength : pools'.length ≤ 128) :
    bestPumpswapTrade sys snapshot preparation { search with conversionPools := pools' } request
        context isBuy =
      bestPumpswapTrade sys snapshot preparation search request context isBuy := by
  obtain ⟨hchecked, hanchor, htopology, hreuse⟩ := planSearch_eq_ok.1 h
  have hconsistent := (buildPumpswapTopology_eq_ok.1 htopology).1
  have hcanonical : SameEntries (search.conversionPools.map canonicalHint)
      (pools'.map canonicalHint) := hsame.map fun _ => rfl
  have hversions' : VersionsAgree (search.conversionPools.map canonicalHint) := by
    unfold VersionsAgree
    simp only [List.forall_mem_map]
    exact hversions
  obtain ⟨topology', htopology'⟩ : ∃ topology', buildPumpswapTopology pools' = .ok topology' :=
    ⟨_, buildPumpswapTopology_eq_ok.2 ⟨hconsistent.of_sameEntries hcanonical, rfl⟩⟩
  have hout : topology.out = topology'.out :=
    out_eq htopology htopology' fun e => hconsistent.edge_congr hversions' hcanonical
  have hplan : planSearch sys snapshot preparation { search with conversionPools := pools' } context
      isBuy = .ok (anchor, topology') := by
    refine planSearch_eq_ok.2 ⟨?_, hanchor, htopology', fun hpool => hreuse ?_⟩
    · simp only [checkRouteSearch, bind_eq_ok, require_eq_ok] at hchecked ⊢
      obtain ⟨_, hbridge, _, hlimits, hne⟩ := hchecked
      exact ⟨(), hbridge, (), not_or.2 ⟨not_lt.2 hlength, (not_or.1 hlimits).2⟩, hne⟩
    · obtain ⟨-, rfl⟩ := buildPumpswapTopology_eq_ok.1 htopology
      obtain ⟨-, rfl⟩ := buildPumpswapTopology_eq_ok.1 htopology'
      rcases mem_keys_fill.1 hpool with hnil | hpool
      · cases hnil
      · exact mem_keys_fill.2 (.inr (hcanonical.symm.mem_pools hpool))
  have hfound : foundPaths topology' { search with conversionPools := pools' }
      (conversionEnds search isBuy anchor).1 (conversionEnds search isBuy anchor).2 =
      foundPaths topology search (conversionEnds search isBuy anchor).1
        (conversionEnds search isBuy anchor).2 := by
    unfold foundPaths PumpSwapTopology.onward
    rw [hout]
  have hvisited : visitedNodes topology' { search with conversionPools := pools' }
      (conversionEnds search isBuy anchor).1 (conversionEnds search isBuy anchor).2 =
      visitedNodes topology search (conversionEnds search isBuy anchor).1
        (conversionEnds search isBuy anchor).2 := by
    unfold visitedNodes PumpSwapTopology.onward
    rw [hout]
  rw [bestPumpswapTrade_eq h rfl]
  refine (bestPumpswapTrade_eq hplan hfound).trans ?_
  show (if visitedNodes topology' { search with conversionPools := pools' }
    (conversionEnds search isBuy anchor).1 (conversionEnds search isBuy anchor).2 ≤ _ then _
    else _) = _
  rw [hvisited]
  rfl

/-- The search prepares every conversion path once and selects the preferred trade. -/
theorem bestPumpswapTrade_exact (sys : SubscriptionSystem) (snapshot : AccountCacheSnapshot)
    (preparation : PumpSwapPreparation) (search : PumpSwapRouteSearch)
    (request : PumpSwapQuoteRequest) (context : CacheReadContext) (isBuy : Bool) :
    (∀ e, planSearch sys snapshot preparation search context isBuy = .error e →
      bestPumpswapTrade sys snapshot preparation search request context isBuy = (.error e, [])) ∧
    ∀ anchor topology,
      planSearch sys snapshot preparation search context isBuy = .ok (anchor, topology) →
      (∃ all : List (List PoolTradeHint), all.Nodup ∧
        (∀ path, path ∈ all ↔ ∃ conversion,
          ConversionPath search (conversionEnds search isBuy anchor).1
            (conversionEnds search isBuy anchor).2 conversion ∧
          anchored isBuy anchor conversion = path) ∧
        if visitedNodes topology search (conversionEnds search isBuy anchor).1
            (conversionEnds search isBuy anchor).2 ≤ search.maximumSearchNodes then
          SearchOutcome (preparePath preparation search request context isBuy) all
            (bestPumpswapTrade sys snapshot preparation search request context isBuy)
        else bestPumpswapTrade sys snapshot preparation search request context isBuy =
          (.error (.value .searchBudgetExhausted), [])) ∧
      ∀ pools', SameEntries search.conversionPools pools' →
        VersionsAgree search.conversionPools → pools'.length ≤ 128 →
        bestPumpswapTrade sys snapshot preparation { search with conversionPools := pools' }
            request context isBuy =
          bestPumpswapTrade sys snapshot preparation search request context isBuy :=
  ⟨fun _ h => bestPumpswapTrade_of_error h, fun _ _ h =>
    ⟨searchOutcome_of_plan h, fun _ hsame hversions hlength =>
      bestPumpswapTrade_congr h hsame hversions hlength⟩⟩

end Plan

/-! ### Two pools in parallel -/

def samplePoolData : List UInt8 :=
  poolDiscriminator ++ List.replicate 35 0 ++ (Pubkey.ofNat 1).toList ++ (Pubkey.ofNat 2).toList ++
    List.replicate 145 0

def sampleSystem : SubscriptionSystem :=
  ⟨.empty, fun _ => ⟨∅, "", 0, .initializing, ∅, none⟩, []⟩

def sampleSnapshot : AccountCacheSnapshot where
  accounts key :=
    if key = .ofNat 10 then
      some ⟨⟨pumpSwapProgram, samplePoolData, 5, 0⟩, by decide, by decide⟩
    else none
  continuityGuard := none
  observedThrough := none

def sampleContext : CacheReadContext := ⟨10, 2, 100, by decide, by decide, by decide⟩

def sampleRequest : PumpSwapQuoteRequest where
  payer := .ofNat 7
  amountIn := 1000
  unixTimestamp := 60
  amount_range := by decide
  timestamp_range := by decide
  payer_ne_default := by decide
  slippage_range := by decide
  arrays_range := by decide

/-- A path through the first pool finds the cache not ready. -/
def samplePreparation : PumpSwapPreparation where
  pumpswap _ _ := .ok ()
  preparePumpswapTrade path source target request context isBuy _ :=
    if path.map (·.pool) = [.ofNat 11, .ofNat 10] then
      .error (.cacheNotReady ⟨⟨"recovering", 1, "", [], none⟩⟩)
    else .ok ⟨⟨[], [], [], 900, []⟩, source, target, request, context, isBuy⟩

/-- A search over the pools, between the same mints, of the two addresses. -/
def sampleSearch (pools : List ℕ) : PumpSwapRouteSearch where
  pool := .ofNat 10
  tokenMint := .ofNat 1
  assetMint := .ofNat 3
  conversionPools := pools.map fun n => ⟨.ofNat n, .ofNat 3, .ofNat 2, none⟩

theorem bestPumpswapTrade_exact_sample : ∃ anchor topology all,
    planSearch sampleSystem sampleSnapshot samplePreparation (sampleSearch [12, 13]) sampleContext
        true = .ok (anchor, topology) ∧
      (∀ path, path ∈ all ↔ ∃ conversion,
        ConversionPath (sampleSearch [12, 13])
          (conversionEnds (sampleSearch [12, 13]) true anchor).1
          (conversionEnds (sampleSearch [12, 13]) true anchor).2 conversion ∧
        anchored true anchor conversion = path) ∧
      SearchOutcome (preparePath samplePreparation (sampleSearch [12, 13]) sampleRequest
          sampleContext true) all
        (bestPumpswapTrade sampleSystem sampleSnapshot samplePreparation (sampleSearch [12, 13])
          sampleRequest sampleContext true) ∧
      (bestPumpswapTrade sampleSystem sampleSnapshot samplePreparation (sampleSearch [12, 13])
          sampleRequest sampleContext true).2.map (List.map PoolTradeHint.pool) =
        [[.ofNat 12, .ofNat 10], [.ofNat 13, .ofNat 10]] ∧
      bestPumpswapTrade sampleSystem sampleSnapshot samplePreparation
          { sampleSearch [12, 13] with
            conversionPools := (sampleSearch [13, 12, 13]).conversionPools }
          sampleRequest sampleContext true =
        bestPumpswapTrade sampleSystem sampleSnapshot samplePreparation (sampleSearch [12, 13])
          sampleRequest sampleContext true := by
  obtain ⟨⟨anchor, topology⟩, hplan⟩ := exists_of_isOk (show (planSearch sampleSystem sampleSnapshot
    samplePreparation (sampleSearch [12, 13]) sampleContext true).isOk = true by decide +kernel)
  obtain ⟨-, hsearch⟩ := bestPumpswapTrade_exact sampleSystem sampleSnapshot samplePreparation
    (sampleSearch [12, 13]) sampleRequest sampleContext true
  obtain ⟨⟨all, -, hall, hends⟩, hcongr⟩ := hsearch anchor topology hplan
  have hselects : (bestPumpswapTrade sampleSystem sampleSnapshot samplePreparation
      (sampleSearch [12, 13]) sampleRequest sampleContext true).1.isOk = true := by decide +kernel
  refine ⟨anchor, topology, all, hplan, hall, ?_, by decide +kernel,
    hcongr _ ⟨by simp [sampleSearch], by simp [sampleSearch]⟩
      (by simp [VersionsAgree, sampleSearch]) (by decide)⟩
  split at hends
  · exact hends
  · rw [hends] at hselects
    cases hselects

/-- A list over 128 entries is rejected, though the entries are all one pool that does for
a trade. A path that finds the cache not ready ends the call before the next one. -/
theorem bestPumpswapTrade_long_list_and_interruption :
    (bestPumpswapTrade sampleSystem sampleSnapshot samplePreparation (sampleSearch [12])
        sampleRequest sampleContext true).1.isOk = true ∧
      bestPumpswapTrade sampleSystem sampleSnapshot samplePreparation
          (sampleSearch (List.replicate 129 12)) sampleRequest sampleContext true =
        (.error (.value .searchLimits), []) ∧
      (bestPumpswapTrade sampleSystem sampleSnapshot samplePreparation (sampleSearch [11, 12])
          sampleRequest sampleContext true).2 =
        [[⟨.ofNat 11, .ofNat 3, .ofNat 2, none⟩, ⟨.ofNat 10, .ofNat 2, .ofNat 1, none⟩]] ∧
      ConversionPath (sampleSearch [11, 12]) (.ofNat 3) (.ofNat 2)
        [⟨.ofNat 12, .ofNat 3, .ofNat 2, none⟩] := by
  have hlimits : checkRouteSearch (sampleSearch (List.replicate 129 12)) =
      .error .searchLimits := by decide +kernel
  have hplan : planSearch sampleSystem sampleSnapshot samplePreparation
      (sampleSearch (List.replicate 129 12)) sampleContext true =
      .error (.value .searchLimits) := by
    unfold planSearch
    rw [hlimits]
    rfl
  refine ⟨by decide +kernel, bestPumpswapTrade_of_error hplan, by decide +kernel,
    ⟨⟨?_, ⟨rfl, trivial⟩, by decide, rfl⟩, by decide, by decide⟩⟩
  exact List.forall_mem_singleton.2 ⟨_, ⟨[⟨.ofNat 11, .ofNat 3, .ofNat 2, none⟩], [], rfl,
    List.not_mem_nil⟩, .inl rfl⟩

end SolTrade.Search
