import SolTrade.Search.BestTrade
import SolTrade.Search.Edges

/-!
The conversion paths are the simple paths over the pools that avoid the token.

The topology lists the edges of each mint by the address of their pool, so the walk does
not depend on the order, the number or the direction of the entries.
-/

namespace SolTrade.Search

open Library KeyedTable Multigraph PathSearch
open Route (PoolTradeHint)

/-! ### Edges of the topology -/

/-- The hint with its canonical mints. -/
def canonicalHint (h : PoolTradeHint) : PoolTradeHint :=
  { h with inputMint := canonical h.inputMint, outputMint := canonical h.outputMint }

/-- The edges that leave a mint. -/
def PumpSwapTopology.out (topology : PumpSwapTopology) (mint : Pubkey) : List PoolTradeHint :=
  (topology.adjacency mint).map (orient mint)

section Topology

variable {pools filled : List PoolTradeHint} {topology : PumpSwapTopology} {h e : PoolTradeHint}
  {mint : Pubkey}

theorem insertConversionPool_eq_ok {candidates : List PoolTradeHint} :
    insertConversionPool candidates h = .ok filled ↔
      (canonicalHint h).postInit = .ok () ∧
        (∀ old ∈ lookup PoolTradeHint.pool candidates (canonicalHint h).pool,
          old.mints = (canonicalHint h).mints) ∧
        True ∧ put PoolTradeHint.pool candidates (canonicalHint h) = filled := by
  simp only [insertConversionPool, bind_eq_ok, require_eq_ok, pure_eq_ok, true_and]
  constructor
  · rintro ⟨_, -, _, hagree, ⟨⟩, hvalid, hfilled⟩
    exact ⟨hvalid, hagree, hfilled⟩
  · rintro ⟨hvalid, hagree, hfilled⟩
    refine ⟨(), ?_, (), hagree, (), hvalid, hfilled⟩
    obtain ⟨hpool, hin, hout, hne⟩ := postInit_eq_ok.1 hvalid
    rw [not_or]
    refine ⟨hne, ?_⟩
    simpa only [List.mem_cons, List.not_mem_nil, or_false, not_or] using
      ⟨hin.symm, hout.symm, hpool.symm⟩

theorem foldlM_insertConversionPool :
    pools.foldlM insertConversionPool [] = .ok filled ↔
      Consistent (pools.map canonicalHint) ∧
        fill PoolTradeHint.pool [] (pools.map canonicalHint) = filled := by
  have hsymm : ∀ h o : PoolTradeHint, h.mints = o.mints → o.mints = h.mints := fun _ _ => Eq.symm
  rw [foldlM_insert_nil_eq_ok insertConversionPool canonicalHint (fun h => h.postInit = .ok ())
    (fun h => Eq.refl h.mints) hsymm (fun _ _ _ => Eq.trans)
    (fun _ _ _ (hn : True) => hn) (fun _ _ _ => insertConversionPool_eq_ok) trivial]
  constructor
  · rintro ⟨hvalid, hagree, -, hfilled⟩
    exact ⟨⟨hvalid, hagree⟩, hfilled⟩
  · rintro ⟨⟨hvalid, hagree⟩, hfilled⟩
    exact ⟨hvalid, hagree, trivial, hfilled⟩

/-- The candidates in the order of their addresses. -/
def sortedCandidates (pools : List PoolTradeHint) : List PoolTradeHint :=
  (fill PoolTradeHint.pool [] (pools.map canonicalHint)).insertionSort
    fun a b => a.pool.bytes ≤ b.pool.bytes

theorem buildPumpswapTopology_eq_ok : buildPumpswapTopology pools = .ok topology ↔
    Consistent (pools.map canonicalHint) ∧
      ⟨fill PoolTradeHint.pool [] (pools.map canonicalHint),
        group ((sortedCandidates pools).flatMap fun h =>
          [(h.inputMint, h), (h.outputMint, h)])⟩ = topology := by
  rw [buildPumpswapTopology, bind_eq_ok]
  constructor
  · rintro ⟨filled, hfold, h⟩
    obtain ⟨hconsistent, rfl⟩ := foldlM_insertConversionPool.1 hfold
    exact ⟨hconsistent, pure_eq_ok.1 h⟩
  · rintro ⟨hconsistent, rfl⟩
    exact ⟨_, foldlM_insertConversionPool.2 ⟨hconsistent, rfl⟩, rfl⟩

theorem mem_sortedCandidates :
    h ∈ sortedCandidates pools ↔ Stands (pools.map canonicalHint) h := by
  rw [sortedCandidates, List.mem_insertionSort, mem_fill_nil]

theorem pairwise_sortedCandidates :
    (sortedCandidates pools).Pairwise fun a b => a.pool.bytes < b.pool.bytes := by
  have hle : (sortedCandidates pools).Pairwise fun a b => a.pool.bytes ≤ b.pool.bytes :=
    List.pairwise_insertionSort _ _
  have hne : (sortedCandidates pools).Pairwise fun a b => a.pool ≠ b.pool := by
    rw [← List.pairwise_map, sortedCandidates]
    exact (((List.perm_insertionSort _ _).map _).nodup_iff.2 nodup_fill_nil)
  exact hle.imp₂ (fun a b hle hne => lt_of_le_of_ne hle fun h => hne (Pubkey.bytes_injective h)) hne

/-- The edges of a mint come from the candidates that name it. -/
theorem adjacency_eq (h : buildPumpswapTopology pools = .ok topology) (mint : Pubkey) :
    topology.adjacency mint =
      (sortedCandidates pools).filter fun h => h.inputMint = mint ∨ h.outputMint = mint := by
  obtain ⟨hconsistent, rfl⟩ := buildPumpswapTopology_eq_ok.1 h
  have hne : ∀ h ∈ sortedCandidates pools, h.inputMint ≠ h.outputMint :=
    fun h hh => hconsistent.mints_ne (mem_sortedCandidates.1 hh)
  show group _ mint = _
  rw [group_apply]
  generalize sortedCandidates pools = sorted at hne
  induction sorted with
  | nil => rfl
  | cons h sorted ih =>
      obtain ⟨hh, hrest⟩ := List.forall_mem_cons.1 hne
      rw [List.flatMap_cons, List.filter_append, List.map_append, ih hrest, List.filter_cons]
      by_cases hin : h.inputMint = mint <;> by_cases hout : h.outputMint = mint
      · exact absurd (hin.trans hout.symm) hh
      · simp [hin, hout]
      · simp [hin, hout]
      · simp [hin, hout]

/-- Leaving one of its mints, a hint is taken as it is or reversed. -/
theorem orient_eq (hmint : h.inputMint = mint ∨ h.outputMint = mint)
    (hne : h.inputMint ≠ h.outputMint) : orient mint h = h ∨ orient mint h = h.reverse := by
  rcases hmint with rfl | rfl
  · left
    rw [orient, if_pos rfl]
  · right
    rw [orient, if_neg hne.symm]
    rfl

theorem orient_of_direction (he : e = h ∨ e = h.reverse) (hne : h.inputMint ≠ h.outputMint) :
    orient e.inputMint h = e := by
  rcases he with rfl | rfl
  · rw [orient, if_pos rfl]
  · show orient h.outputMint h = h.reverse
    rw [orient, if_neg hne.symm]
    rfl

theorem mem_out (h : buildPumpswapTopology pools = .ok topology) (mint : Pubkey)
    (e : PoolTradeHint) :
    e ∈ topology.out mint ↔ Edge (pools.map canonicalHint) e ∧ e.inputMint = mint := by
  have hconsistent := (buildPumpswapTopology_eq_ok.1 h).1
  rw [PumpSwapTopology.out, adjacency_eq h, List.mem_map]
  simp only [List.mem_filter, mem_sortedCandidates, decide_eq_true_eq]
  constructor
  · rintro ⟨o, ⟨hs, hmint⟩, rfl⟩
    exact ⟨⟨o, hs, orient_eq hmint (hconsistent.mints_ne hs)⟩, rfl⟩
  · rintro ⟨⟨o, hs, he⟩, rfl⟩
    refine ⟨o, ⟨hs, ?_⟩, orient_of_direction he (hconsistent.mints_ne hs)⟩
    rcases he with rfl | rfl
    · exact .inl rfl
    · exact .inr rfl

theorem pairwise_out (h : buildPumpswapTopology pools = .ok topology) :
    (topology.out mint).Pairwise fun a b => a.pool.bytes < b.pool.bytes := by
  rw [PumpSwapTopology.out, adjacency_eq h, List.pairwise_map]
  exact pairwise_sortedCandidates.filter _

theorem nodup_out (h : buildPumpswapTopology pools = .ok topology) (mint : Pubkey) :
    (topology.out mint).Nodup := by
  refine (pairwise_out h).imp fun hlt heq => ?_
  rw [heq] at hlt
  exact lt_irrefl _ hlt

/-- The same edges are listed in the same order. -/
theorem out_eq {pools' : List PoolTradeHint} {topology' : PumpSwapTopology}
    (h : buildPumpswapTopology pools = .ok topology)
    (h' : buildPumpswapTopology pools' = .ok topology')
    (hedges : ∀ e, Edge (pools.map canonicalHint) e ↔ Edge (pools'.map canonicalHint) e) :
    topology.out = topology'.out := by
  funext mint
  have hperm : (topology.out mint).Perm (topology'.out mint) := by
    rw [List.perm_ext_iff_of_nodup (nodup_out h mint) (nodup_out h' mint)]
    intro e
    rw [mem_out h, mem_out h', hedges]
  exact hperm.eq_of_pairwise (fun e f _ _ hlt hlt' => absurd hlt (lt_asymm hlt')) (pairwise_out h)
    (pairwise_out h')

end Topology

/-! ### The walk -/

/-- The token is not to be traded on the way. -/
def AvoidsToken (token : Pubkey) (_ : List PoolTradeHint) (e : PoolTradeHint) : Prop :=
  e.outputMint ≠ token

instance (token : Pubkey) (path : List PoolTradeHint) (e : PoolTradeHint) :
    Decidable (AvoidsToken token path e) := inferInstanceAs (Decidable (_ ≠ _))

section Walk

variable {topology : PumpSwapTopology} {token start target : Pubkey} {path : List PoolTradeHint}
  {left : ℕ} {state : ℕ × List (List PoolTradeHint)}

/-- The edges that the walk follows. -/
abbrev PumpSwapTopology.onward (topology : PumpSwapTopology) (token start : Pubkey)
    (path : List PoolTradeHint) : List PoolTradeHint :=
  Multigraph.onward PoolTradeHint.outputMint topology.out start (AvoidsToken token) path

/-- The hops from a mint lead to the paths that go on. -/
theorem foldlM_walk
    (hvalid : ∀ mint, ∀ h ∈ topology.adjacency mint, (orient mint h).postInit = .ok ()) :
    ((topology.adjacency (endpoint PoolTradeHint.outputMint start path)).foldlM (fun state hint => do
        let hop := orient (endpoint PoolTradeHint.outputMint start path) hint
        if hop.outputMint = token ∨
            hop.outputMint ∈ (stops PoolTradeHint.outputMint start path).reverse then return state
        hop.postInit
        walk topology.adjacency token target left hop.outputMint (path ++ [hop])
          (hop.outputMint :: (stops PoolTradeHint.outputMint start path).reverse) state) state) =
      (topology.onward token start path).foldlM (fun state e =>
        walk topology.adjacency token target left e.outputMint (path ++ [e])
          (e.outputMint :: (stops PoolTradeHint.outputMint start path).reverse) state) state := by
  unfold PumpSwapTopology.onward Multigraph.onward PumpSwapTopology.out
  rw [List.foldlM_filter, List.foldlM_map]
  apply foldlM_congr
  intro h hh state
  simp only [decide_eq_true_eq]
  generalize hhop : orient (endpoint PoolTradeHint.outputMint start path) h = hop
  have hpost : hop.postInit = .ok () := hhop ▸ hvalid _ h hh
  have hskip : hop.outputMint = token ∨
      hop.outputMint ∈ (stops PoolTradeHint.outputMint start path).reverse ↔
      ¬ (hop.outputMint ∉ stops PoolTradeHint.outputMint start path ∧
        AvoidsToken token path hop) := by
    rw [List.mem_reverse, AvoidsToken]
    tauto
  by_cases hgoes : hop.outputMint ∉ stops PoolTradeHint.outputMint start path ∧
      AvoidsToken token path hop
  · rw [if_pos hgoes, if_neg (mt hskip.1 (not_not_intro hgoes)), hpost, ok_bind]
  · rw [if_neg hgoes, if_pos (hskip.2 hgoes)]

/-- A visit costs one node, whatever remains. -/
theorem walk_of_zero (hremaining : state.1 = 0) {mint : Pubkey} {visited : List Pubkey} :
    walk topology.adjacency token target left mint path visited state =
      .error .searchBudgetExhausted := by
  obtain ⟨remaining, paths⟩ := state
  obtain rfl : remaining = 0 := hremaining
  cases left <;> rfl

/-- The walk spends the nodes that it visits and finds the wanted paths. -/
theorem walk_eq
    (hvalid : ∀ mint, ∀ h ∈ topology.adjacency mint, (orient mint h).postInit = .ok ()) :
    walk topology.adjacency token target left (endpoint PoolTradeHint.outputMint start path) path
        (stops PoolTradeHint.outputMint start path).reverse state =
      spend .searchBudgetExhausted
        (visits (topology.onward token start) (Arrived PoolTradeHint.outputMint start target) left
          path)
        (collect (topology.onward token start) (Arrived PoolTradeHint.outputMint start target) left
          path) state := by
  induction left generalizing path state with
  | zero =>
      by_cases hremaining : state.1 = 0
      · rw [spend_of_zero visits_pos hremaining, walk_of_zero hremaining]
      · obtain ⟨remaining, paths⟩ := state
        rw [walk, require_of hremaining, ok_bind, visits, collect, spend_one hremaining]
        by_cases hend : endpoint PoolTradeHint.outputMint start path = target
        · have harrived : Arrived PoolTradeHint.outputMint start target path := hend
          rw [if_pos hend, if_pos harrived]
          rfl
        · have harrived : ¬ Arrived PoolTradeHint.outputMint start target path := hend
          rw [if_neg hend, if_neg harrived, List.append_nil]
          rfl
  | succ left ih =>
      by_cases hremaining : state.1 = 0
      · rw [spend_of_zero visits_pos hremaining, walk_of_zero hremaining]
      · obtain ⟨remaining, paths⟩ := state
        rw [walk, foldlM_walk hvalid, require_of hremaining, ok_bind, visits, collect]
        by_cases hend : endpoint PoolTradeHint.outputMint start path = target
        · have harrived : Arrived PoolTradeHint.outputMint start target path := hend
          rw [if_pos hend, if_pos harrived, if_pos harrived, spend_one hremaining]
          rfl
        · have harrived : ¬ Arrived PoolTradeHint.outputMint start target path := hend
          rw [if_neg hend, if_neg harrived, if_neg harrived, spend_add_one hremaining]
          apply foldlM_spend
          intro e _ state
          have hstep := @ih (path ++ [e]) state
          rwa [endpoint_concat, stops_append, List.map_singleton, List.reverse_concat] at hstep

end Walk

/-! ### The paths that are found -/

/-- A path over the conversion pools that keeps clear of the token. -/
structure ConversionPath (search : PumpSwapRouteSearch) (start target : Pubkey)
    (path : List PoolTradeHint) : Prop where
  simple : SimplePath PoolTradeHint.inputMint PoolTradeHint.outputMint
    (Edge (search.conversionPools.map canonicalHint)) start target path
  avoids : canonical search.tokenMint ∉ stops PoolTradeHint.outputMint start path
  hops : (path.length : ℤ) ≤ search.maximumConversionHops

/-- The paths in the order in which the walk finds them. -/
def foundPaths (topology : PumpSwapTopology) (search : PumpSwapRouteSearch) (start target : Pubkey) :
    List (List PoolTradeHint) :=
  collect (topology.onward (canonical search.tokenMint) start)
    (Arrived PoolTradeHint.outputMint start target) search.maximumConversionHops.toNat []

section Found

variable {search : PumpSwapRouteSearch} {topology : PumpSwapTopology} {start target token : Pubkey}
  {path other : List PoolTradeHint} {pools : List PoolTradeHint}

theorem allowed_avoidsToken :
    Allowed (AvoidsToken token) path ↔ ∀ e ∈ path, e.outputMint ≠ token := by
  constructor
  · intro h e he
    obtain ⟨before, after, rfl⟩ := List.append_of_mem he
    exact h before e after rfl
  · rintro h before e after rfl
    exact h e (List.mem_append_right _ List.mem_cons_self)

theorem mem_foundPaths (h : buildPumpswapTopology search.conversionPools = .ok topology)
    (hhops : 0 ≤ search.maximumConversionHops) (hstart : start ≠ canonical search.tokenMint) :
    path ∈ foundPaths topology search start target ↔ ConversionPath search start target path := by
  rw [foundPaths, mem_collect, ← and_assoc, grows_iff_simplePath (mem_out h), allowed_avoidsToken]
  have hstops : canonical search.tokenMint ∉ stops PoolTradeHint.outputMint start path ↔
      ∀ e ∈ path, e.outputMint ≠ canonical search.tokenMint := by
    rw [stops, List.mem_cons, not_or, List.mem_map, not_exists]
    simp only [not_and]
    exact and_iff_right hstart.symm
  rw [List.length_nil]
  constructor
  · rintro ⟨⟨hsimple, havoids⟩, hlength⟩
    exact ⟨hsimple, hstops.2 havoids, by omega⟩
  · rintro ⟨hsimple, havoids, hlength⟩
    exact ⟨⟨hsimple, hstops.1 havoids⟩, by omega⟩

theorem nodup_foundPaths (h : buildPumpswapTopology search.conversionPools = .ok topology) :
    (foundPaths topology search start target).Nodup :=
  nodup_collect (nodup_onward (nodup_out h))

/-- Paths from one mint over the same pools are one path. -/
theorem eq_of_pools (hc : Consistent pools) (hpath : ∀ e ∈ path, Edge pools e)
    (hother : ∀ e ∈ other, Edge pools e)
    (hconnected : Connected PoolTradeHint.inputMint PoolTradeHint.outputMint start path)
    (hconnected' : Connected PoolTradeHint.inputMint PoolTradeHint.outputMint start other)
    (hpools : path.map (·.pool) = other.map (·.pool)) : path = other := by
  induction path generalizing start other with
  | nil => exact (List.map_eq_nil_iff.1 hpools.symm).symm
  | cons e path ih =>
      cases other with
      | nil => cases hpools
      | cons f other =>
          obtain ⟨hpool, hrest⟩ := List.cons.inj hpools
          have hmint : e.inputMint = f.inputMint := hconnected.1.trans hconnected'.1.symm
          have heq : e = f := hc.eq_of_pool_of_inputMint (hpath e List.mem_cons_self)
            (hother f List.mem_cons_self) hpool hmint
          subst heq
          rw [ih (fun o ho => hpath o (List.mem_cons_of_mem _ ho))
            (fun o ho => hother o (List.mem_cons_of_mem _ ho)) hconnected.2 hconnected'.2 hrest]

end Found

end SolTrade.Search
