import SolTrade.Whirlpool.Soundness

/-!
The Whirlpool quote does not depend on how many tick arrays are loaded.

A run that ends strictly before the edge of its window never meets the edge, so
that a longer window changes only targets that the steps fall short of. Both runs
go through the same states.
-/

namespace SolTrade.Whirlpool

open Library BoundedLoop
open Clmm (ClmmPool ClmmTick ClmmSwapStep clmmSwapStep clmmSwapStep_of_further minTick maxTick)

/-- The same swap with other arrays loaded. -/
def WhirlpoolSwap.withArrays (c : WhirlpoolSwap) (ticks : List ClmmTick) (lower upper : ℤ) :
    WhirlpoolSwap :=
  { c with ticks, lower, upper }

/-- A window that is further in the direction of the swap, with new ticks beyond
the old edge only. -/
structure Extends (c : WhirlpoolSwap) (ticks : List ClmmTick) (lower upper : ℤ) : Prop where
  valid : c.Valid
  valid' : (c.withArrays ticks lower upper).Valid
  further : Beyond c.down (windowEdge c) (windowEdge (c.withArrays ticks lower upper))
  old : ∀ t ∈ c.ticks, t ∈ ticks
  new : ∀ t ∈ ticks, t ∈ c.ticks ∨ StrictlyBeyond c.down (windowEdge c) t.tick

section Next

variable {c : WhirlpoolSwap} {ticks : List ClmmTick} {lower upper : ℤ} {s : WhirlpoolState}
  {t : ClmmTick}

theorem Extends.tick_or_beyond (he : Extends c ticks lower upper)
    (h : IsAhead (c.withArrays ticks lower upper) s t) :
    IsAhead c s t ∨ StrictlyBeyond c.down (windowEdge c) t.tick :=
  (he.new t h.1).imp_left fun hmem => ⟨hmem, h.2⟩

theorem WhirlpoolSwap.Valid.tick_before_edge (hc : c.Valid) (ht : t ∈ c.ticks) :
    Beyond c.down t.tick (windowEdge c) := by
  have := hc.tick_range t ht
  cases hd : c.down <;> simp [windowEdge, hd] <;> omega

/-- A loaded tick that is met first is met first in the longer window. -/
theorem Extends.nextTick_some (he : Extends c ticks lower upper) (h : nextTick c s = some t) :
    nextTick (c.withArrays ticks lower upper) s = some t := by
  obtain ⟨hahead, hfirst⟩ := Whirlpool.nextTick_some he.valid h
  have hahead' : IsAhead (c.withArrays ticks lower upper) s t := ⟨he.old t hahead.1, hahead.2⟩
  cases hn : nextTick (c.withArrays ticks lower upper) s with
  | none => exact absurd hahead' (nextTick_none he.valid' hn)
  | some u =>
      obtain ⟨hu, hfirst'⟩ := Whirlpool.nextTick_some he.valid' hn
      have hut : Beyond c.down u.tick t.tick := hfirst' t hahead'
      rcases he.tick_or_beyond hu with hold | hnew
      · have heq := (hfirst u hold).antisymm hut
        rw [he.valid.tick_inj hahead.1 hold.1 heq]
      · have hedge := he.valid.tick_before_edge hahead.1
        exact absurd (hut.trans hedge) hnew.not_beyond

/-- Where the edge is next, the next tick of the longer window is at the edge or
beyond. -/
theorem Extends.nextTick_none (he : Extends c ticks lower upper) (h : nextTick c s = none) :
    Beyond c.down (windowEdge c) (nextIndexOf (c.withArrays ticks lower upper)
      (nextTick (c.withArrays ticks lower upper) s)) := by
  cases hn : nextTick (c.withArrays ticks lower upper) s with
  | none => exact he.further
  | some u =>
      obtain ⟨hu, -⟩ := Whirlpool.nextTick_some he.valid' hn
      rcases he.tick_or_beyond hu with hold | hnew
      · exact absurd hold (Whirlpool.nextTick_none he.valid h)
      · exact hnew.beyond

end Next

/-! ### One iteration of both runs -/

section Step

variable {c : WhirlpoolSwap} {ticks : List ClmmTick} {lower upper : ℤ}
  {s s' moved landed : WhirlpoolState} {plan plan' : WhirlpoolPlan}

theorem WhirlpoolSwap.Valid.nextIndex_range (hc : c.Valid) :
    minTick ≤ nextIndexOf c (nextTick c s) ∧ nextIndexOf c (nextTick c s) ≤ maxTick := by
  cases hn : nextTick c s with
  | none => exact ⟨hc.edge_ge, hc.edge_le⟩
  | some t =>
      have := hc.tick_range t (nextTick_some hc hn).1.1
      exact ⟨hc.window_ge.trans this.1, this.2.trans hc.window_le⟩

/-- How the plans of the two runs compare: they are equal, or the first leads to
the edge of its window and the second further. -/
inductive PlanSim (c : WhirlpoolSwap) (plan plan' : WhirlpoolPlan) : Prop
  | same : plan' = plan → PlanSim c plan plan'
  | edge : plan.next = none → plan.nextPrice = tickPrice (windowEdge c) →
      Beyond c.down plan.nextPrice plan'.nextPrice →
      (plan'.bound = plan.bound ∨
        plan.bound = plan.nextPrice ∧ Beyond c.down plan.nextPrice plan'.bound) →
      PlanSim c plan plan'

theorem stopAt_of_further {down : Bool} {a b : ℤ} (stop : Option ℤ) (h : Beyond down a b) :
    stopAt down stop b = stopAt down stop a ∨
      stopAt down stop a = a ∧ Beyond down a (stopAt down stop b) := by
  cases stop with
  | none => exact .inr ⟨rfl, h⟩
  | some t => exact nearer_of_further h _

theorem Extends.plan_sim (he : Extends c ticks lower upper) (h : whirlpoolPlan c s = .ok plan) :
    ∃ plan', whirlpoolPlan (c.withArrays ticks lower upper) s = .ok plan' ∧
      plan'.fee = plan.fee ∧ plan'.skipped = plan.skipped ∧ PlanSim c plan plan' := by
  obtain ⟨hrange, hstop, rfl⟩ := whirlpoolPlan_eq_ok.1 h
  have hrange' := he.valid'.nextIndex_range (s := s)
  refine ⟨_, whirlpoolPlan_eq_ok.2 ⟨hrange', hstop, rfl⟩, rfl, rfl, ?_⟩
  cases hn : nextTick c s with
  | some t =>
      refine .same ?_
      rw [he.nextTick_some hn]
      rfl
  | none =>
      rw [hn] at hrange
      have hfar : Beyond c.down (tickPrice (nextIndexOf c none))
          (tickPrice (nextIndexOf (c.withArrays ticks lower upper)
            (nextTick (c.withArrays ticks lower upper) s))) :=
        (tickTable.beyond_iff hrange.1 hrange.2 hrange'.1 hrange'.2).2 (he.nextTick_none hn)
      refine .edge rfl rfl hfar ?_
      have htarget := nearer_of_further hfar c.limit
      rcases htarget with heq | ⟨heq, hbeyond⟩
      · exact .inl (congrArg (stopAt c.down (stopOf c s).2) heq)
      · dsimp only
        rw [heq]
        exact stopAt_of_further (stopOf c s).2 hbeyond

/-- The bound of a planned step is a price of the range. -/
theorem PlanSpec.bound_range (hc : c.Valid) (hp : PlanSpec c s plan) :
    minSqrtPrice ≤ plan.bound ∧ plan.bound ≤ maxSqrtPrice := by
  have htick : ∀ t, minTick ≤ t → t ≤ maxTick →
      minSqrtPrice ≤ tickPrice t ∧ tickPrice t ≤ maxSqrtPrice := fun t h h' =>
    ⟨tickPrice_minTick ▸ tickTable.first_le h h', tickPrice_maxTick ▸ tickTable.le_last h h'⟩
  rcases hp.bound_cases with heq | heq | ⟨t, ht, heq⟩
  · rw [heq, hp.nextPrice_eq]
    exact htick _ hp.nextIndex_ge hp.nextIndex_le
  · rw [heq]
    exact ⟨hc.limit_ge, hc.limit_le⟩
  · have hr := hp.stop_range t ht
    rw [heq]
    exact htick t hr.1 hr.2

/-- A step that falls short of the edge is the same in the longer window. -/
theorem Extends.takeStep (he : Extends c ticks lower upper)
    (hp' : PlanSpec (c.withArrays ticks lower upper) s plan') (hfee : plan'.fee = plan.fee)
    (hsim : PlanSim c plan plan')
    (hinside : StrictlyBeyond c.down moved.current (tickPrice (windowEdge c)))
    (h : whirlpoolTakeStep c s plan = .ok moved) :
    whirlpoolTakeStep (c.withArrays ticks lower upper) s plan' = .ok moved := by
  obtain ⟨step, hstep, hr, ho, hf, rfl⟩ := whirlpoolTakeStep_eq_ok.1 h
  have hafter : afterStep s plan' step = afterStep s plan step := by simp only [afterStep, hfee]
  refine whirlpoolTakeStep_eq_ok.2 ⟨step, ?_, hr, ho, hf, hafter.symm⟩
  rw [hfee]
  cases hsim with
  | same heq =>
      rw [heq]
      exact hstep
  | edge hnone hprice hfar hbound =>
      rcases hbound with heq | ⟨heq, hbeyond⟩
      · rw [heq]
        exact hstep
      · have hrange := hp'.bound_range he.valid'
        have hmin : minSqrtPrice = 4295048016 := rfl
        have hmax : maxSqrtPrice ≤ u128 := by decide
        refine clmmSwapStep_of_further hstep ?_ (heq ▸ hbeyond) (by omega) (by omega)
        rw [heq, hprice]
        exact hinside.ne

/-- Neither run meets the edge. -/
theorem PlanSim.nextPrice_iff (hsim : PlanSim c plan plan') {p : ℤ}
    (hinside : StrictlyBeyond c.down p (tickPrice (windowEdge c))) :
    plan' = plan ∨ p ≠ plan.nextPrice ∧ p ≠ plan'.nextPrice := by
  cases hsim with
  | same h => exact .inl h
  | edge hnone hprice hfar hbound =>
      rw [← hprice] at hinside
      exact .inr ⟨hinside.ne, (hinside.trans_beyond hfar).ne⟩

/-- The step lemma: an iteration that ends before the edge is repeated. -/
theorem Extends.transition (he : Extends c ticks lower upper)
    (hinside : StrictlyBeyond c.down s'.current (tickPrice (windowEdge c)))
    (h : WhirlpoolTransition c s plan moved landed s') :
    ∃ plan', WhirlpoolTransition (c.withArrays ticks lower upper) s plan' moved landed s' := by
  obtain ⟨plan', hplan', hfee, hskip, hsim⟩ := he.plan_sim h.plan_ok
  rw [h.frame.1] at hinside
  have hmoved := he.takeStep (PlanSpec.of_ok he.valid' hplan') hfee hsim hinside h.moved_ok
  refine ⟨plan', hplan', hmoved, ?_, ?_⟩
  · have hland := h.landed_ok
    rcases hsim.nextPrice_iff hinside with heq | ⟨hne, hne'⟩
    · rw [heq]
      exact hland
    · rw [whirlpoolLand, if_neg hne] at hland
      rw [whirlpoolLand, if_neg hne']
      exact hland
  · have hgroup := h.group_ok
    rw [← (LandSpec.of_ok h.landed_ok).current_eq] at hinside
    rcases hsim.nextPrice_iff hinside with heq | ⟨hne, hne'⟩
    · rw [heq]
      exact hgroup
    · simp only [advanceGroup, if_neg hne, if_neg hne', hskip] at hgroup ⊢
      exact hgroup

theorem Extends.not_outside (he : Extends c ticks lower upper) (h : ¬ OutsideWindow c s) :
    ¬ OutsideWindow (c.withArrays ticks lower upper) s := by
  have hfar := he.further
  by_cases hd : c.down = true <;>
    simp [OutsideWindow, windowEdge, WhirlpoolSwap.withArrays, hd] at h hfar ⊢ <;> omega

end Step

/-! ### The two windows -/

section Arrays

variable {starts : List ℤ} {x : ℤ}

theorem sortedStarts_sorted (starts : List ℤ) : (sortedStarts starts).Pairwise (· ≤ ·) :=
  List.pairwise_insertionSort _ starts

theorem headD_sortedStarts_le (hx : x ∈ starts) : (sortedStarts starts).headD 0 ≤ x := by
  have hmem : x ∈ sortedStarts starts := (List.mem_insertionSort _).2 hx
  have hs := sortedStarts_sorted starts
  cases hl : sortedStarts starts with
  | nil => simp [hl] at hmem
  | cons y ys =>
      rw [hl] at hmem hs
      rcases List.mem_cons.1 hmem with rfl | hys
      · exact le_rfl
      · exact (List.pairwise_cons.1 hs).1 x hys

theorem le_getLastD_sortedStarts (hx : x ∈ starts) : x ≤ (sortedStarts starts).getLastD 0 := by
  have hmem : x ∈ sortedStarts starts := (List.mem_insertionSort _).2 hx
  rw [List.getLastD_eq_getLast?, List.getLast?_eq_some_getLast (List.ne_nil_of_mem hmem),
    Option.getD_some]
  exact (sortedStarts_sorted starts).rel_getLast hmem

theorem headD_sortedStarts_mem (hne : sortedStarts starts ≠ []) :
    (sortedStarts starts).headD 0 ∈ starts := by
  rw [← List.mem_insertionSort (· ≤ ·), List.headD_eq_head?_getD, ← sortedStarts,
    List.head?_eq_some_head hne, Option.getD_some]
  exact List.head_mem hne

theorem getLastD_sortedStarts_mem (hne : sortedStarts starts ≠ []) :
    (sortedStarts starts).getLastD 0 ∈ starts := by
  rw [← List.mem_insertionSort (· ≤ ·), List.getLastD_eq_getLast?, ← sortedStarts,
    List.getLast?_eq_some_getLast hne, Option.getD_some]
  exact List.getLast_mem hne

theorem orderedTicks_perm (ticks : List ClmmTick) : (orderedTicks ticks).Perm ticks := by
  unfold orderedTicks
  split
  · exact .refl _
  · exact List.perm_insertionSort _ ticks

/-- The check for duplicates finds every duplicate. -/
theorem orderedTicks_distinct {ticks : List ClmmTick} :
    (orderedTicks ticks).IsChain (fun a b => a.tick ≠ b.tick) ↔ (ticks.map (·.tick)).Nodup := by
  rw [← ((orderedTicks_perm ticks).map _).nodup_iff]
  constructor
  · intro h
    exact List.pairwise_map.2 ((orderedTicks_pairwise h).imp fun h => h.ne)
  · intro h
    exact (List.pairwise_map.1 h).isChain

end Arrays

/-! ### Whole runs -/

section Run

variable {pool : ClmmPool} {ticks extraTicks : List ClmmTick} {arrayStarts extraStarts : List ℤ}
  {amount timestamp limit : ℤ} {down : Bool} {adaptive : Option WhirlpoolAdaptiveFee}
  {c : WhirlpoolSwap} {s₀ s : WhirlpoolState} {r : WhirlpoolSwapResult}

/-- Further arrays of the swap sequence, with their ticks. -/
structure Appended (pool : ClmmPool) (arrayStarts : List ℤ) (down : Bool)
    (extraTicks : List ClmmTick) (extraStarts : List ℤ) : Prop where
  sequence : checkArrays pool (sortedStarts (arrayStarts ++ extraStarts)) = .ok ()
  further : ∀ e ∈ extraStarts, ∀ s ∈ arrayStarts, StrictlyBeyond down s e
  inArray : ∀ t ∈ extraTicks, ∃ e ∈ extraStarts, e ≤ t.tick ∧ t.tick < e + arrayStep pool
  valid : ∀ t ∈ extraTicks, (minTick ≤ t.tick ∧ t.tick ≤ maxTick) ∧
    t.tick % pool.tickSpacing = 0 ∧ (-2 ^ 127 ≤ t.liquidityNet ∧ t.liquidityNet < 2 ^ 127)
  distinct : (extraTicks.map (·.tick)).Nodup

/-- The edge of the window of the loaded arrays. -/
def loadedEdge (pool : ClmmPool) (arrayStarts : List ℤ) (down : Bool) : ℤ :=
  if down then windowLower (sortedStarts arrayStarts)
  else windowUpper pool (sortedStarts arrayStarts)

/-- Arrays do not overlap. -/
theorem Appended.array_beyond (h : Appended pool arrayStarts down extraTicks extraStarts)
    (hpos : 0 < arrayStep pool) {e x : ℤ} (he : e ∈ extraStarts) (hx : x ∈ arrayStarts) :
    if down then e + arrayStep pool ≤ x else x + arrayStep pool ≤ e := by
  obtain ⟨-, hmod, -⟩ := checkArrays_eq_ok.1 h.sequence
  have hmem : ∀ y, y ∈ arrayStarts ∨ y ∈ extraStarts → y % arrayStep pool = 0 := fun y hy =>
    (hmod y ((List.mem_insertionSort _).2 (List.mem_append.2 hy))).1
  obtain ⟨k, rfl⟩ := Int.dvd_of_emod_eq_zero (hmem e (.inr he))
  obtain ⟨l, rfl⟩ := Int.dvd_of_emod_eq_zero (hmem x (.inl hx))
  have hfar := h.further _ he _ hx
  have hsucc : ∀ m n : ℤ, arrayStep pool * m < arrayStep pool * n →
      arrayStep pool * m + arrayStep pool ≤ arrayStep pool * n := by
    intro m n hmn
    have hlt := lt_of_mul_lt_mul_left hmn hpos.le
    calc arrayStep pool * m + arrayStep pool = arrayStep pool * (m + 1) := by ring
      _ ≤ arrayStep pool * n := mul_le_mul_of_nonneg_left hlt hpos.le
  cases down with
  | true => simpa using hsucc k l hfar
  | false => simpa using hsucc l k hfar

/-- The ticks of further arrays are beyond the edge. -/
theorem Appended.tick_beyond (h : Appended pool arrayStarts down extraTicks extraStarts)
    (hpos : 0 < arrayStep pool) (hne : sortedStarts arrayStarts ≠ []) {t : ClmmTick}
    (ht : t ∈ extraTicks) : StrictlyBeyond down (loadedEdge pool arrayStarts down) t.tick := by
  obtain ⟨e, he, hle, hlt⟩ := h.inArray t ht
  cases down with
  | true =>
      have := h.array_beyond hpos he (headD_sortedStarts_mem hne)
      simp only [if_true] at this
      simp only [loadedEdge, if_true, strictlyBeyond_true, windowLower]
      omega
  | false =>
      have := h.array_beyond hpos he (getLastD_sortedStarts_mem hne)
      simp only [Bool.false_eq_true, if_false] at this
      simp only [loadedEdge, Bool.false_eq_true, if_false, strictlyBeyond_false, windowUpper]
      omega

theorem Appended.windowLower_le (hne : sortedStarts arrayStarts ≠ []) :
    windowLower (sortedStarts (arrayStarts ++ extraStarts)) ≤
      windowLower (sortedStarts arrayStarts) := by
  have := headD_sortedStarts_le (List.mem_append_left extraStarts (headD_sortedStarts_mem hne))
  simp only [windowLower]
  omega

theorem Appended.le_windowUpper (hne : sortedStarts arrayStarts ≠ []) :
    windowUpper pool (sortedStarts arrayStarts) ≤
      windowUpper pool (sortedStarts (arrayStarts ++ extraStarts)) := by
  have := le_getLastD_sortedStarts
    (List.mem_append_left extraStarts (getLastD_sortedStarts_mem hne))
  simp only [windowUpper]
  omega

theorem checkTick_eq_ok {lower upper : ℤ} {t : ClmmTick} {u : Unit} :
    checkTick pool lower upper t = .ok u ↔ (lower ≤ t.tick ∧ t.tick ≤ upper) ∧
      t.tick % pool.tickSpacing = 0 ∧ (-2 ^ 127 ≤ t.liquidityNet ∧ t.liquidityNet < 2 ^ 127) :=
  require_eq_ok

/-- The ticks of both windows pass the checks of the longer one. -/
theorem Appended.checkTick (h : Appended pool arrayStarts down extraTicks extraStarts)
    (hne : sortedStarts arrayStarts ≠ [])
    (hticks : ∀ t ∈ ticks, checkTick pool (windowLower (sortedStarts arrayStarts))
      (windowUpper pool (sortedStarts arrayStarts)) t = .ok ()) :
    ∀ t ∈ ticks ++ extraTicks, Whirlpool.checkTick pool
      (windowLower (sortedStarts (arrayStarts ++ extraStarts)))
      (windowUpper pool (sortedStarts (arrayStarts ++ extraStarts))) t = .ok () := by
  intro t ht
  rw [checkTick_eq_ok]
  rcases List.mem_append.1 ht with hold | hnew
  · obtain ⟨⟨hlo, hhi⟩, hrest⟩ := checkTick_eq_ok.1 (hticks t hold)
    exact ⟨⟨(windowLower_le hne).trans hlo, hhi.trans (le_windowUpper hne)⟩, hrest⟩
  · obtain ⟨⟨hmin, hmax⟩, hrest⟩ := h.valid t hnew
    obtain ⟨e, he, hle, hlt⟩ := h.inArray t hnew
    have hhead := headD_sortedStarts_le (List.mem_append_right arrayStarts he)
    have hlast := le_getLastD_sortedStarts (List.mem_append_right arrayStarts he)
    refine ⟨?_, hrest⟩
    simp only [windowLower, windowUpper]
    omega

/-- No further tick is a loaded one. -/
theorem Appended.nodup (h : Appended pool arrayStarts down extraTicks extraStarts)
    (hpos : 0 < arrayStep pool) (hne : sortedStarts arrayStarts ≠ [])
    (hticks : ∀ t ∈ ticks, Whirlpool.checkTick pool (windowLower (sortedStarts arrayStarts))
      (windowUpper pool (sortedStarts arrayStarts)) t = .ok ())
    (hdup : (ticks.map (·.tick)).Nodup) : ((ticks ++ extraTicks).map (·.tick)).Nodup := by
  rw [List.map_append, List.nodup_append]
  refine ⟨hdup, h.distinct, ?_⟩
  rintro _ hold _ hnew heq
  obtain ⟨t, ht, rfl⟩ := List.mem_map.1 hold
  obtain ⟨u, hu, rfl⟩ := List.mem_map.1 hnew
  obtain ⟨⟨hlo, hhi⟩, -⟩ := checkTick_eq_ok.1 (hticks t ht)
  have hbeyond := h.tick_beyond hpos hne hu
  cases down <;> simp [loadedEdge] at hbeyond <;> omega

/-- The second call prepares the same swap with a longer window. -/
theorem Appended.prepare (h : Appended pool arrayStarts down extraTicks extraStarts)
    (hprep : whirlpoolPrepare pool ticks arrayStarts amount timestamp down adaptive limit =
      .ok (c, s₀)) :
    ∃ ticks' lower upper, whirlpoolPrepare pool (ticks ++ extraTicks) (arrayStarts ++ extraStarts)
        amount timestamp down adaptive limit = .ok (c.withArrays ticks' lower upper, s₀) ∧
      Extends c ticks' lower upper := by
  have hc := WhirlpoolSwap.Valid.of_prepare hprep
  obtain ⟨hpool, harrays, hl, hlimit, hticks, hdup, ha, hceq, hseq⟩ :=
    whirlpoolPrepare_eq_ok.1 hprep
  have hne : sortedStarts arrayStarts ≠ [] :=
    List.ne_nil_of_length_pos (checkArrays_eq_ok.1 harrays).1.1
  have hpos : 0 < arrayStep pool := by
    have := (checkPool_eq_ok.1 hpool).2.2.2.2.1.1
    simp only [arrayStep]
    omega
  have hprep' : whirlpoolPrepare pool (ticks ++ extraTicks) (arrayStarts ++ extraStarts)
      amount timestamp down adaptive limit =
        .ok (c.withArrays (orderedTicks (ticks ++ extraTicks))
          (windowLower (sortedStarts (arrayStarts ++ extraStarts)))
          (windowUpper pool (sortedStarts (arrayStarts ++ extraStarts))), s₀) := by
    refine whirlpoolPrepare_eq_ok.2 ⟨hpool, h.sequence, hl, hlimit, h.checkTick hne hticks, ?_, ha,
      ?_, ?_⟩
    · exact orderedTicks_distinct.2 (h.nodup hpos hne hticks (orderedTicks_distinct.1 hdup))
    · rw [hceq]
      rfl
    · exact hseq
  have hdown : c.down = down := by rw [hceq]
  have hmem : ∀ t, t ∈ c.ticks ↔ t ∈ ticks := fun t => by
    rw [hceq]
    exact mem_orderedTicks
  have hedge : windowEdge c = loadedEdge pool arrayStarts down := by
    rw [hceq]
    rfl
  refine ⟨_, _, _, hprep', hc, WhirlpoolSwap.Valid.of_prepare hprep', ?_, ?_, ?_⟩
  · rw [hceq]
    cases down with
    | true => exact windowLower_le hne
    | false => exact le_windowUpper hne
  · intro t ht
    exact mem_orderedTicks.2 (List.mem_append_left _ ((hmem t).1 ht))
  · intro t ht
    rcases List.mem_append.1 (mem_orderedTicks.1 ht) with hold | hnew
    · exact .inl ((hmem t).2 hold)
    · rw [hdown, hedge]
      exact .inr (h.tick_beyond hpos hne hnew)

/-- The result is ahead of every state of the run. -/
theorem result_beyond {n : ℕ}
    (h : run (whirlpoolIteration c) (fun _ => .error .whirlpoolBudgetExhausted) n s = .ok r) :
    Beyond c.down s.current r.sqrtPrice := by
  obtain ⟨t, ht, hret | ⟨u, hbrk, -⟩ | ⟨-, ha⟩⟩ := run_ok h
  · rw [(whirlpoolIteration_ret.1 hret).2]
    exact ht.invariant (I := fun u => Beyond c.down s.current u.current)
      (fun u v hu hb => hu.trans ((stateSound c u).advances v hb)) (.refl _ _)
  · exact absurd hbrk whirlpoolIteration_brk
  · cases ha

/-- The Whirlpool quote does not depend on further arrays. A quote that ends
strictly inside the window of its arrays is the quote with any arrays appended in
the swap sequence; the pool's tick and price need not be consistent. -/
theorem whirlpoolSwapExactIn_more_arrays
    (h : whirlpoolSwapExactIn pool ticks arrayStarts amount timestamp down adaptive limit = .ok r)
    (hinside : StrictlyBeyond down r.sqrtPrice (tickPrice (loadedEdge pool arrayStarts down)))
    (happ : Appended pool arrayStarts down extraTicks extraStarts) :
    whirlpoolSwapExactIn pool (ticks ++ extraTicks) (arrayStarts ++ extraStarts) amount timestamp
      down adaptive limit = .ok r := by
  obtain ⟨⟨c, s₀⟩, hprep, hrun⟩ := bind_eq_ok.1 h
  obtain ⟨ticks', lower, upper, hprep', he⟩ := happ.prepare hprep
  obtain ⟨-, -, -, -, -, -, -, hceq, -⟩ := whirlpoolPrepare_eq_ok.1 hprep
  have hdown : c.down = down := by rw [hceq]
  have hedge : windowEdge c = loadedEdge pool arrayStarts down := by
    rw [hceq]
    rfl
  rw [← hedge, ← hdown] at hinside
  rw [whirlpoolSwapExactIn, hprep', ok_bind]
  refine run_simulation (R := fun s t => s = t) ?_ ?_ ?_ ?_ rfl hrun
  · rintro s _ s' n rfl hb hrest
    obtain ⟨hr, hl, hwin, plan, moved, landed, ht⟩ := whirlpoolIteration_next.1 hb
    obtain ⟨plan', ht'⟩ := he.transition ((result_beyond hrest).trans_strictly hinside) ht
    exact ⟨s', whirlpoolIteration_next.2 ⟨hr, hl, he.not_outside hwin, plan', moved, landed, ht'⟩,
      rfl⟩
  · rintro s _ s' rfl hb -
    exact absurd hb whirlpoolIteration_brk
  · rintro s _ rfl hb
    have hret := whirlpoolIteration_ret.1 hb
    exact whirlpoolIteration_ret.2 hret
  · rintro s _ rfl hafter
    cases hafter

end Run

/-- A second array, with a tick. -/
theorem whirlpoolSwapExactIn_more_arrays_up :
    whirlpoolSwapExactIn ⟨2 ^ 64, 1000000, 0, 8, 3000⟩ ([⟨24, 5, 5, 0, 0⟩] ++ [⟨712, 9, 9, 0, 0⟩])
        ([0] ++ [704]) 4000 100 false none 0 =
      .ok ⟨4000, 3970, 13, 3000, 3000, 18520284717535783355, 79, 1000005⟩ := by
  refine whirlpoolSwapExactIn_more_arrays (by decide +kernel) (by decide +kernel)
    ⟨by decide, by decide, ?_, by decide, by decide⟩
  intro t ht
  rw [List.mem_singleton.1 ht]
  exact ⟨704, List.mem_singleton_self _, by decide, by decide⟩

end SolTrade.Whirlpool
