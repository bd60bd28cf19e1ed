import SolTrade.Search.Candidates
import SolTrade.Search.Edges

/-!
The candidate routes are the simple routes over the candidates, shortest first.

The graph is fixed by the edges that the candidates stand for. Each layer of the search
holds the simple paths of one length, so that what is yielded is the beginning of the
list of all routes, and all of it unless a budget runs out.
-/

namespace SolTrade.Search

open Library KeyedTable Multigraph PathSearch Yielding
open Route (PoolTradeHint)

/-! ### Edges of the graph -/

/-- What the graph asks of its candidates. -/
structure Accepted (candidates : List PoolTradeHint) : Prop extends Consistent candidates where
  room : (fill (·.pool) [] candidates).length ≤ 64

section Graph

variable {str : PubkeyText} {candidates : List PoolTradeHint} {g : CandidateRouteGraph}
  {h o e f : PoolTradeHint} {v : Pubkey}

theorem insertCandidate_eq_ok {byPool filled : List PoolTradeHint} :
    insertCandidate byPool h = .ok filled ↔
      h.postInit = .ok () ∧ (∀ old ∈ lookup PoolTradeHint.pool byPool h.pool, old.mints = h.mints) ∧
        (put PoolTradeHint.pool byPool h).length ≤ 64 ∧ put PoolTradeHint.pool byPool h = filled := by
  simp only [insertCandidate, bind_eq_ok, require_eq_ok, pure_eq_ok]
  constructor
  · rintro ⟨⟨⟩, hvalid, _, hagree, _, hroom, hfilled⟩
    exact ⟨hvalid, hagree, hroom, hfilled⟩
  · rintro ⟨hvalid, hagree, hroom, hfilled⟩
    exact ⟨(), hvalid, (), hagree, (), hroom, hfilled⟩

theorem foldlM_insertCandidate {filled : List PoolTradeHint} :
    candidates.foldlM insertCandidate [] = .ok filled ↔
      Accepted candidates ∧ fill PoolTradeHint.pool [] candidates = filled := by
  have hsymm : ∀ h o : PoolTradeHint, h.mints = o.mints → o.mints = h.mints := fun _ _ => Eq.symm
  rw [foldlM_insert_nil_eq_ok insertCandidate id (fun h => h.postInit = .ok ())
    (fun h => Eq.refl h.mints) hsymm (fun _ _ _ => Eq.trans)
    (fun m n hle hn => Nat.le_trans hle hn) (fun _ _ _ => insertCandidate_eq_ok) (Nat.zero_le 64),
    List.map_id]
  constructor
  · rintro ⟨hvalid, hagree, hroom, hfilled⟩
    exact ⟨⟨⟨hvalid, hagree⟩, hroom⟩, hfilled⟩
  · rintro ⟨⟨⟨hvalid, hagree⟩, hroom⟩, hfilled⟩
    exact ⟨hvalid, hagree, hroom, hfilled⟩

/-- The edges in the order of the graph. -/
def sortedEdges (str : PubkeyText) (candidates : List PoolTradeHint) : List PoolTradeHint :=
  ((fill PoolTradeHint.pool [] candidates).flatMap fun h => [h, h.reverse]).insertionSort
    fun a b => edgeKey str a ≤ edgeKey str b

theorem candidateRouteGraph_eq_ok : candidateRouteGraph str candidates = .ok g ↔
    Accepted candidates ∧
      ⟨group ((sortedEdges str candidates).map fun h => (h.inputMint, h))⟩ = g := by
  rw [candidateRouteGraph, bind_eq_ok]
  constructor
  · rintro ⟨byPool, hfold, h⟩
    obtain ⟨haccepted, rfl⟩ := foldlM_insertCandidate.1 hfold
    exact ⟨haccepted, pure_eq_ok.1 h⟩
  · rintro ⟨haccepted, rfl⟩
    exact ⟨_, foldlM_insertCandidate.2 ⟨haccepted, rfl⟩, rfl⟩

theorem mem_sortedEdges : e ∈ sortedEdges str candidates ↔ Edge candidates e := by
  rw [sortedEdges, List.mem_insertionSort, List.mem_flatMap]
  apply exists_congr
  intro h
  rw [mem_fill_nil, List.mem_pair]

/-- Edges of one key are one edge: reversed, they are edges of one pool from one mint. -/
theorem Accepted.eq_of_edgeKey_eq (ha : Accepted candidates) (he : Edge candidates e)
    (hf : Edge candidates f) (hkey : edgeKey str e = edgeKey str f) : e = f := by
  obtain ⟨hpool, hout⟩ := Prod.mk.inj hkey
  have hreverse : ∀ {e}, Edge candidates e → Edge candidates e.reverse := by
    rintro e ⟨h, hs, rfl | rfl⟩
    · exact ⟨_, hs, .inr rfl⟩
    · exact ⟨_, hs, .inl rfl⟩
  exact congrArg PoolTradeHint.reverse (ha.eq_of_pool_of_inputMint (hreverse he) (hreverse hf)
    (str.injective hpool) (str.injective hout))

theorem Accepted.nodup_sortedEdges (ha : Accepted candidates) :
    (sortedEdges str candidates).Nodup := by
  have hpools : ((fill PoolTradeHint.pool [] candidates).map (·.pool)).Nodup := nodup_fill_nil
  rw [sortedEdges, (List.perm_insertionSort _ _).nodup_iff, List.nodup_flatMap]
  constructor
  · intro h hmem
    have hne := ha.mints_ne (mem_fill_nil.1 hmem)
    rw [List.nodup_cons, List.mem_singleton]
    exact ⟨fun heq => hne (congrArg PoolTradeHint.inputMint heq), List.nodup_singleton _⟩
  · refine (List.pairwise_map.1 hpools).imp fun {h o} hne e he ho => hne ?_
    rw [← pool_of_direction (List.mem_pair.1 he), pool_of_direction (List.mem_pair.1 ho)]

theorem pairwise_sortedEdges :
    (sortedEdges str candidates).Pairwise fun a b => edgeKey str a ≤ edgeKey str b :=
  List.pairwise_insertionSort _ _

/-- The same edges make the same graph. -/
theorem Accepted.sortedEdges_eq {candidates' : List PoolTradeHint} (ha : Accepted candidates)
    (ha' : Accepted candidates') (hedges : ∀ e, Edge candidates e ↔ Edge candidates' e) :
    sortedEdges str candidates = sortedEdges str candidates' := by
  have hperm : (sortedEdges str candidates).Perm (sortedEdges str candidates') := by
    rw [List.perm_ext_iff_of_nodup ha.nodup_sortedEdges ha'.nodup_sortedEdges]
    intro e
    rw [mem_sortedEdges, mem_sortedEdges, hedges]
  refine hperm.eq_of_pairwise (fun e f he hf hle hle' => ?_) pairwise_sortedEdges
    pairwise_sortedEdges
  exact ha.eq_of_edgeKey_eq (mem_sortedEdges.1 he) ((hedges f).2 (mem_sortedEdges.1 hf))
    (le_antisymm hle hle')

/-- Acceptance and the graph do not depend on the order or the number of the candidates. -/
theorem candidateRouteGraph_congr {candidates' : List PoolTradeHint}
    (hversions : VersionsAgree candidates) (hsame : ∀ h, h ∈ candidates ↔ h ∈ candidates')
    (h : candidateRouteGraph str candidates = .ok g) :
    candidateRouteGraph str candidates' = .ok g := by
  obtain ⟨ha, rfl⟩ := candidateRouteGraph_eq_ok.1 h
  have hlength : (fill PoolTradeHint.pool [] candidates').length ≤
      (fill PoolTradeHint.pool [] candidates).length := by
    apply length_fill_nil_le
    rw [List.forall_mem_map]
    exact fun h hh => List.mem_map_of_mem ((hsame h).2 hh)
  have ha' : Accepted candidates' := by
    refine ⟨⟨fun h hh => ha.valid h ((hsame h).2 hh), fun h hh o ho => ?_⟩,
      hlength.trans ha.room⟩
    exact ha.agree h ((hsame h).2 hh) o ((hsame o).2 ho)
  have hversions' : VersionsAgree candidates' := fun h hh o ho =>
    hversions h ((hsame h).2 hh) o ((hsame o).2 ho)
  have hedges : ∀ e, Edge candidates e ↔ Edge candidates' e := by
    intro e
    rw [ha.edge_iff hversions, ha'.edge_iff hversions']
    simp only [hsame]
  rw [candidateRouteGraph_eq_ok, ha.sortedEdges_eq ha' hedges]
  exact ⟨ha', rfl⟩

theorem adjacent_eq (h : candidateRouteGraph str candidates = .ok g) :
    g.adjacent v = (sortedEdges str candidates).filter fun e => e.inputMint = v := by
  obtain ⟨-, rfl⟩ := candidateRouteGraph_eq_ok.1 h
  show group _ v = _
  rw [group_apply, List.filter_map, List.map_map]
  exact List.map_id _

theorem mem_adjacent (h : candidateRouteGraph str candidates = .ok g) (v : Pubkey)
    (e : PoolTradeHint) : e ∈ g.adjacent v ↔ Edge candidates e ∧ e.inputMint = v := by
  rw [adjacent_eq h, List.mem_filter, mem_sortedEdges, decide_eq_true_eq]

theorem nodup_adjacent (h : candidateRouteGraph str candidates = .ok g) (v : Pubkey) :
    (g.adjacent v).Nodup := by
  rw [adjacent_eq h]
  exact (candidateRouteGraph_eq_ok.1 h).1.nodup_sortedEdges.filter _

end Graph

/-! ### The iteration -/

/-- The pool has not been used. -/
def FreshPool (hints : List PoolTradeHint) (h : PoolTradeHint) : Prop :=
  h.pool ∉ hints.map (·.pool)

instance (hints : List PoolTradeHint) (h : PoolTradeHint) : Decidable (FreshPool hints h) :=
  inferInstanceAs (Decidable (_ ∉ _))

/-- The entry of the frontier for a path. -/
def entryOf (inputMint : Pubkey) (hints : List PoolTradeHint) :
    List PoolTradeHint × Pubkey × List Pubkey :=
  (hints, endpoint PoolTradeHint.outputMint inputMint hints,
    (stops PoolTradeHint.outputMint inputMint hints).reverse)

/-- Takes a path that repeats no mint and no pool. -/
def takePath (inputMint outputMint : Pubkey) (last : Bool) (nextPaths : Frontier)
    (route : List PoolTradeHint) : RouteGenerator Frontier := do
  if endpoint PoolTradeHint.outputMint inputMint route = outputMint then
    let paths := (← get).length + 1
    if 64 < paths then throw .candidatePathBudget
    modify (· ++ [route])
    return nextPaths
  else if last then return nextPaths
  else
    if 4096 ≤ nextPaths.length then throw .candidateSearchBudget
    return nextPaths ++ [entryOf inputMint route]

/-- The budgets of the search. -/
def searchBudgets : List ValueError := [.candidatePathBudget, .candidateSearchBudget]

section Iteration

variable {str : PubkeyText} {candidates : List PoolTradeHint} {g : CandidateRouteGraph}
  {inputMint outputMint : Pubkey}
  {hints route : List PoolTradeHint} {last : Bool} {nextPaths : Frontier} {e : PoolTradeHint}
  {yielded paths : List (List PoolTradeHint)} {left : ℕ}

theorem entryOf_concat : entryOf inputMint (hints ++ [e]) =
    (hints ++ [e], e.outputMint, e.outputMint :: (entryOf inputMint hints).2.2) := by
  simp [entryOf]

theorem hop_eq_take : CandidateRouteGraph.hop outputMint last (entryOf inputMint hints) nextPaths e =
    if e.outputMint ∈ (entryOf inputMint hints).2.2 ∨ ∃ x ∈ hints, x.pool = e.pool then
      pure nextPaths
    else takePath inputMint outputMint last nextPaths (hints ++ [e]) := by
  unfold takePath
  rw [entryOf_concat, endpoint_concat]
  rfl

theorem hop_entryOf :
    CandidateRouteGraph.hop outputMint last (entryOf inputMint hints) nextPaths e =
      if e.outputMint ∉ stops PoolTradeHint.outputMint inputMint hints ∧ FreshPool hints e then
        takePath inputMint outputMint last nextPaths (hints ++ [e])
      else pure nextPaths := by
  have hused : (e.outputMint ∈ (entryOf inputMint hints).2.2 ∨ ∃ x ∈ hints, x.pool = e.pool) ↔
      ¬ (e.outputMint ∉ stops PoolTradeHint.outputMint inputMint hints ∧ FreshPool hints e) := by
    rw [FreshPool, not_and_or, not_not, not_not, List.mem_map, entryOf, List.mem_reverse]
  rw [hop_eq_take]
  by_cases hfree : e.outputMint ∉ stops PoolTradeHint.outputMint inputMint hints ∧ FreshPool hints e
  · rw [if_pos hfree, if_neg (mt hused.1 (not_not_intro hfree))]
  · rw [if_neg hfree, if_pos (hused.2 hfree)]

/-- The edges that continue a path. -/
abbrev CandidateRouteGraph.onward (g : CandidateRouteGraph) (inputMint : Pubkey)
    (hints : List PoolTradeHint) : List PoolTradeHint :=
  Multigraph.onward PoolTradeHint.outputMint g.adjacent inputMint FreshPool hints

theorem foldlM_hop :
    (g.adjacent (entryOf inputMint hints).2.1).foldlM
        (CandidateRouteGraph.hop outputMint last (entryOf inputMint hints)) nextPaths =
      (children (g.onward inputMint) hints).foldlM (takePath inputMint outputMint last) nextPaths := by
  rw [children, List.foldlM_map, CandidateRouteGraph.onward, Multigraph.onward, List.foldlM_filter]
  congr 1
  funext nextPaths e
  rw [hop_entryOf]
  simp only [decide_eq_true_eq]

/-- One layer takes the paths of one hop more. -/
theorem foldlM_layer :
    (paths.map (entryOf inputMint)).foldlM (fun nextPaths entry =>
        (g.adjacent entry.2.1).foldlM (CandidateRouteGraph.hop outputMint last entry) nextPaths)
        nextPaths =
      (paths.flatMap (children (g.onward inputMint))).foldlM (takePath inputMint outputMint last)
        nextPaths := by
  rw [List.foldlM_map]
  induction paths generalizing nextPaths with
  | nil => rfl
  | cons hints paths ih =>
      rw [List.foldlM_cons, List.flatMap_cons, List.foldlM_append, foldlM_hop]
      congr 1
      funext nextPaths
      exact ih

theorem completes_take (nextPaths : Frontier) (route : List PoolTradeHint)
    (yielded : List (List PoolTradeHint)) :
    Completes searchBudgets (takePath inputMint outputMint last nextPaths route) yielded
      (if ¬ (last ∨ Arrived PoolTradeHint.outputMint inputMint outputMint route) then
        nextPaths ++ [entryOf inputMint route] else nextPaths)
      (yielded ++ if Arrived PoolTradeHint.outputMint inputMint outputMint route then [route]
        else []) := by
  unfold takePath
  by_cases hend : endpoint PoolTradeHint.outputMint inputMint route = outputMint
  · have harrived : Arrived PoolTradeHint.outputMint inputMint outputMint route := hend
    have hdone : ¬¬ (last ∨ Arrived PoolTradeHint.outputMint inputMint outputMint route) :=
      not_not_intro (.inr harrived)
    rw [if_neg hdone, if_pos harrived, if_pos hend]
    by_cases hpaths : 64 < yielded.length + 1
    · refine .inr ⟨.candidatePathBudget, List.mem_cons_self, yielded, List.prefix_append _ _, ?_⟩
      rw [runFrom_bind_ok runFrom_get]
      dsimp only
      rw [if_pos hpaths]
      rfl
    · left
      rw [runFrom_bind_ok runFrom_get]
      dsimp only
      rw [if_neg hpaths]
      rfl
  · have harrived : ¬ Arrived PoolTradeHint.outputMint inputMint outputMint route := hend
    rw [if_neg harrived, if_neg hend, List.append_nil]
    by_cases hlast : last
    · have hdone : ¬¬ (last ∨ Arrived PoolTradeHint.outputMint inputMint outputMint route) :=
        not_not_intro (.inl hlast)
      rw [if_neg hdone, if_pos hlast]
      exact Completes.pure
    · have hgoes : ¬ (last ∨ Arrived PoolTradeHint.outputMint inputMint outputMint route) :=
        not_or.2 ⟨hlast, harrived⟩
      rw [if_pos hgoes, if_neg hlast]
      dsimp only
      by_cases hfrontier : 4096 ≤ nextPaths.length
      · refine .inr ⟨.candidateSearchBudget, by simp [searchBudgets], yielded, List.prefix_rfl, ?_⟩
        rw [if_pos hfrontier]
        rfl
      · rw [if_neg hfrontier]
        exact Completes.pure

/-- The hops that are left yield the layers of the search. -/
theorem completes_hops : Completes searchBudgets
    (g.hops outputMint left (paths.map (entryOf inputMint))) yielded ()
    (yielded ++ layers (g.onward inputMint)
      (Arrived PoolTradeHint.outputMint inputMint outputMint) left paths) := by
  induction left generalizing paths yielded with
  | zero =>
      rw [layers, List.append_nil]
      exact Completes.pure
  | succ left ih =>
      rw [CandidateRouteGraph.hops, foldlM_layer, layers, ← List.append_assoc]
      refine (Completes.foldlM_filter completes_take _ [] yielded).bind ?_ (List.prefix_append _ _)
      rw [List.nil_append]
      cases left with
      | zero =>
          -- Nothing is kept in the last layer, and no hop is left for it.
          rw [layers, List.append_nil]
          split <;> exact Completes.pure
      | succ left =>
          have hkept : ∀ cs : List (List PoolTradeHint), (cs.filter fun p =>
              ¬ (decide (left + 1 = 0) ∨ Arrived PoolTradeHint.outputMint inputMint outputMint p)) =
              cs.filter fun p => ¬ Arrived PoolTradeHint.outputMint inputMint outputMint p := by
            intro cs
            apply List.filter_congr
            simp
          rw [hkept]
          split
          · rename_i hnone
            rw [List.map_eq_nil_iff.1 hnone, layers_nil, List.append_nil]
            exact Completes.pure
          · exact ih

end Iteration

/-! ### The routes -/

/-- A route over the candidates that repeats no mint and no pool. -/
structure CandidateRoute (candidates : List PoolTradeHint) (inputMint outputMint : Pubkey)
    (maximumHops : ℤ) (route : List PoolTradeHint) : Prop where
  simple : SimplePath PoolTradeHint.inputMint PoolTradeHint.outputMint (Edge candidates) inputMint
    outputMint route
  pools : (route.map (·.pool)).Nodup
  nonempty : route ≠ []
  hops : (route.length : ℤ) ≤ maximumHops

section Routes

variable {str : PubkeyText} {candidates : List PoolTradeHint} {g : CandidateRouteGraph}
  {inputMint outputMint : Pubkey}
  {maximumHops : ℤ} {route : List PoolTradeHint} {e : PoolTradeHint}

theorem allowed_freshPool : Allowed FreshPool route ↔ (route.map (·.pool)).Nodup := by
  induction route using List.reverseRecOn with
  | nil =>
      refine iff_of_true (fun q e r h => absurd h.symm (by simp)) List.nodup_nil
  | append_singleton route e ih =>
      rw [allowed_concat, ih, List.map_append, List.map_singleton, List.nodup_append',
        List.disjoint_singleton]
      exact and_congr_right fun _ => (and_iff_right (List.nodup_singleton _)).symm

theorem CandidateRoute.inputMint_ne_outputMint
    (h : CandidateRoute candidates inputMint outputMint maximumHops route) :
    inputMint ≠ outputMint := by
  have hne := endpoint_ne_of_nodup (p := []) h.simple.nodup h.nonempty
  rwa [List.nil_append, h.simple.ends] at hne

/-- A route goes from the mint of its first edge to that of its last. -/
theorem CandidateRoute.mints_ne_default (ha : Accepted candidates)
    (h : CandidateRoute candidates inputMint outputMint maximumHops route) :
    inputMint ≠ .default ∧ outputMint ≠ .default := by
  obtain ⟨⟨hedges, hconnected, -, hends⟩, -, hne, -⟩ := h
  constructor
  · obtain ⟨e, route, rfl⟩ := List.exists_cons_of_ne_nil hne
    rw [← hconnected.1]
    exact (postInit_eq_ok.1 (ha.postInit_edge (hedges e List.mem_cons_self))).2.1
  · obtain ⟨route, e, rfl⟩ := (List.eq_nil_or_concat' route).resolve_left hne
    rw [← hends, endpoint_concat]
    exact (postInit_eq_ok.1 (ha.postInit_edge (hedges e (by simp)))).2.2.1

/-- The layers hold the routes. -/
theorem mem_layers_iff (h : candidateRouteGraph str candidates = .ok g)
    (hne : inputMint ≠ outputMint) :
    route ∈ layers (g.onward inputMint) (Arrived PoolTradeHint.outputMint inputMint outputMint)
        maximumHops.toNat [[]] ↔
      CandidateRoute candidates inputMint outputMint maximumHops route := by
  have hstart : ∀ p ∈ [([] : List PoolTradeHint)],
      ¬ Arrived PoolTradeHint.outputMint inputMint outputMint p := List.forall_mem_singleton.2 hne
  rw [mem_layers hstart]
  simp only [List.mem_singleton, exists_eq_left, List.length_nil, zero_add]
  rw [← and_assoc, grows_iff_simplePath (mem_adjacent h), allowed_freshPool]
  constructor
  · rintro ⟨⟨hsimple, hpools⟩, hlength⟩
    have hroute : route ≠ [] := by
      rintro rfl
      exact hne hsimple.ends
    have hpos := List.length_pos_of_ne_nil hroute
    exact ⟨hsimple, hpools, hroute, by omega⟩
  · rintro ⟨hsimple, hpools, -, hlength⟩
    exact ⟨⟨hsimple, hpools⟩, by omega⟩

/-- What is asked of the endpoints and the limit. -/
def ValidRequest (inputMint outputMint : Pubkey) (maximumHops : ℤ) : Prop :=
  (1 ≤ maximumHops ∧ maximumHops ≤ 5) ∧ inputMint ≠ outputMint ∧ inputMint ≠ .default ∧
    outputMint ≠ .default

theorem routes_of_not_valid (h : ¬ ValidRequest inputMint outputMint maximumHops) :
    g.routes inputMint outputMint maximumHops = (.error .invalidCandidateRequest, []) := by
  unfold CandidateRouteGraph.routes CandidateRouteGraph.iterate
  rw [if_pos (by unfold ValidRequest at h; tauto)]
  rfl

theorem CandidateRoute.valid (ha : Accepted candidates)
    (h : CandidateRoute candidates inputMint outputMint maximumHops route)
    (hlimit : maximumHops ≤ 5) :
    ValidRequest inputMint outputMint maximumHops := by
  have hpos := List.length_pos_of_ne_nil h.nonempty
  have hhops := h.hops
  exact ⟨⟨by omega, hlimit⟩, h.inputMint_ne_outputMint, h.mints_ne_default ha⟩

theorem routes_eq_of_valid (h : ValidRequest inputMint outputMint maximumHops) :
    g.routes inputMint outputMint maximumHops =
      runFrom (g.hops outputMint maximumHops.toNat [([], inputMint, [inputMint])] >>= fun _ =>
        get >>= fun yielded => if yielded = [] then throw .noCandidateRoute else pure ()) [] := by
  unfold CandidateRouteGraph.routes CandidateRouteGraph.iterate
  rw [if_neg (by unfold ValidRequest at h; tauto)]

/-- A valid request yields the layers, or the beginning of them when a budget runs out. -/
theorem routes_of_valid (h : ValidRequest inputMint outputMint maximumHops)
    {all : List (List PoolTradeHint)}
    (hall : layers (g.onward inputMint) (Arrived PoolTradeHint.outputMint inputMint outputMint)
      maximumHops.toNat [[]] = all) :
    (g.routes inputMint outputMint maximumHops).2 <+: all ∧
      ((g.routes inputMint outputMint maximumHops).2 = all ∧
          ((g.routes inputMint outputMint maximumHops).1 = .ok () ∨ all = []) ∨
        ∃ e ∈ searchBudgets, (g.routes inputMint outputMint maximumHops).1 = .error e) := by
  have hhops : Completes searchBudgets
      (g.hops outputMint maximumHops.toNat [([], inputMint, [inputMint])]) [] () all := by
    rw [← hall]
    exact @completes_hops g inputMint outputMint [] [[]] maximumHops.toNat
  rw [routes_eq_of_valid h]
  rcases hhops with hok | ⟨e, he, yielded, hinitial, herror⟩
  · rw [runFrom_bind_ok hok, runFrom_bind_ok runFrom_get]
    by_cases hnone : all = []
    · rw [if_pos hnone]
      exact ⟨List.prefix_rfl, .inl ⟨rfl, .inr hnone⟩⟩
    · rw [if_neg hnone]
      exact ⟨List.prefix_rfl, .inl ⟨rfl, .inl rfl⟩⟩
  · rw [runFrom_bind_error herror]
    exact ⟨hinitial, .inr ⟨e, he, rfl⟩⟩

/-- Every route is yielded once, the shorter first, unless a budget runs out. -/
theorem routes_complete_or_budget (h : candidateRouteGraph str candidates = .ok g)
    (inputMint outputMint : Pubkey)
    (maximumHops : ℤ) :
    (maximumHops ≤ 5 → ∃ all : List (List PoolTradeHint), all.Nodup ∧
      all.Pairwise (fun p q => p.length ≤ q.length) ∧
      (∀ route, route ∈ all ↔ CandidateRoute candidates inputMint outputMint maximumHops route) ∧
      (∀ p q, p ++ q ∈ all → q ≠ [] →
        endpoint PoolTradeHint.outputMint inputMint p ≠ outputMint) ∧
      (g.routes inputMint outputMint maximumHops).2 <+: all ∧
      ((g.routes inputMint outputMint maximumHops).2 = all ∧
          ((g.routes inputMint outputMint maximumHops).1 = .ok () ∨ all = []) ∨
        ∃ e ∈ searchBudgets, (g.routes inputMint outputMint maximumHops).1 = .error e)) ∧
    (5 < maximumHops →
      g.routes inputMint outputMint maximumHops = (.error .invalidCandidateRequest, [])) ∧
    ∀ candidates', VersionsAgree candidates → (∀ h, h ∈ candidates ↔ h ∈ candidates') →
      ∃ g', candidateRouteGraph str candidates' = .ok g' ∧
        g'.routes inputMint outputMint maximumHops = g.routes inputMint outputMint maximumHops := by
  have ha := (candidateRouteGraph_eq_ok.1 h).1
  refine ⟨fun hlimit => ?_, fun hlimit => ?_, fun candidates' hversions hsame => ?_⟩
  · by_cases hvalid : ValidRequest inputMint outputMint maximumHops
    · have hnext : ∀ p, (g.onward inputMint p).Nodup := nodup_onward (nodup_adjacent h)
      have hlength : ∀ p ∈ [([] : List PoolTradeHint)], p.length = 0 :=
        List.forall_mem_singleton.2 rfl
      refine ⟨_, nodup_layers hnext (List.nodup_singleton []) hlength, pairwise_layers hlength,
        fun route => mem_layers_iff h hvalid.2.1, fun p q hroute hq => ?_,
        routes_of_valid hvalid rfl⟩
      have hsimple := ((mem_layers_iff h hvalid.2.1).1 hroute).simple
      rw [← hsimple.ends]
      exact endpoint_ne_of_nodup hsimple.nodup hq
    · rw [routes_of_not_valid hvalid]
      refine ⟨[], List.nodup_nil, .nil, fun route => ?_, fun p q hroute => ?_, List.prefix_rfl,
        .inl ⟨rfl, .inr rfl⟩⟩
      · exact iff_of_false List.not_mem_nil fun hroute => hvalid (hroute.valid ha hlimit)
      · cases hroute
  · exact routes_of_not_valid fun hvalid => absurd hvalid.1.2 (by omega)
  · exact ⟨g, candidateRouteGraph_congr hversions hsame h, rfl⟩

/-- Two pools between the same mints, and a detour over a third mint. -/
def sampleCandidates : List PoolTradeHint :=
  [⟨.ofNat 10, .ofNat 1, .ofNat 2, none⟩, ⟨.ofNat 11, .ofNat 2, .ofNat 1, none⟩,
    ⟨.ofNat 12, .ofNat 2, .ofNat 3, none⟩, ⟨.ofNat 13, .ofNat 3, .ofNat 1, none⟩]

theorem routes_complete_or_budget_sample :
    ∃ g, candidateRouteGraph base58Text sampleCandidates = .ok g ∧
      ∃ all : List (List PoolTradeHint), all.Nodup ∧
        all.Pairwise (fun p q => p.length ≤ q.length) ∧
        (∀ route, route ∈ all ↔
          CandidateRoute sampleCandidates (.ofNat 1) (.ofNat 3) 5 route) ∧
        (∀ p q, p ++ q ∈ all → q ≠ [] →
          endpoint PoolTradeHint.outputMint (.ofNat 1) p ≠ .ofNat 3) ∧
        (g.routes (.ofNat 1) (.ofNat 3)).2 = all ∧
        (g.routes (.ofNat 1) (.ofNat 3)).1 = .ok () := by
  obtain ⟨g, hg⟩ := exists_of_isOk
    (show (candidateRouteGraph base58Text sampleCandidates).isOk = true by decide +kernel)
  have hfinished : (g.routes (.ofNat 1) (.ofNat 3)).1 = .ok () := by
    have hrun : (candidateRouteGraph base58Text sampleCandidates).map
        (fun g => (g.routes (.ofNat 1) (.ofNat 3)).1) = .ok (.ok ()) := by decide +kernel
    rw [hg] at hrun
    exact Except.ok.inj hrun
  obtain ⟨hroutes, -, -⟩ := routes_complete_or_budget hg (.ofNat 1) (.ofNat 3) 5
  obtain ⟨all, hnodup, hsorted, hall, hends, -, ⟨hyielded, -⟩ | ⟨e, -, hbudget⟩⟩ :=
    hroutes le_rfl
  · exact ⟨g, hg, all, hnodup, hsorted, hall, hends, hyielded, hfinished⟩
  · exact absurd (hfinished.symm.trans hbudget) nofun

/-- A limit over five hops is rejected, though the pool itself is a route. -/
theorem routes_six_hops :
    ∃ g, candidateRouteGraph base58Text [⟨.ofNat 10, .ofNat 1, .ofNat 2, none⟩] = .ok g ∧
      CandidateRoute [⟨.ofNat 10, .ofNat 1, .ofNat 2, none⟩] (.ofNat 1) (.ofNat 2) 6
        [⟨.ofNat 10, .ofNat 1, .ofNat 2, none⟩] ∧
      g.routes (.ofNat 1) (.ofNat 2) 6 = (.error .invalidCandidateRequest, []) ∧
      ValueError.invalidCandidateRequest ∉ searchBudgets := by
  obtain ⟨g, hg⟩ := exists_of_isOk (show
    (candidateRouteGraph base58Text [⟨.ofNat 10, .ofNat 1, .ofNat 2, none⟩]).isOk = true
    by decide +kernel)
  refine ⟨g, hg, ⟨⟨?_, ⟨rfl, trivial⟩, by decide, rfl⟩, by decide, by simp, by simp⟩,
    routes_of_not_valid fun hvalid => absurd hvalid.1.2 (by decide), by decide⟩
  exact List.forall_mem_singleton.2 ⟨_, ⟨[], [], rfl, List.not_mem_nil⟩, .inl rfl⟩

end Routes

end SolTrade.Search
