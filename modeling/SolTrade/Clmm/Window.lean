import SolTrade.Clmm.Soundness

/-!
The CLMM quote does not depend on the window of loaded ticks.

A run that ends before its limit is repeated by a run with the same initialized
ticks up to that limit and a limit further away. The two runs differ in where
the tick list is searched and in the targets of steps that fall short of the old
limit; the simulation relates their states up to the list of orders.
-/

namespace SolTrade.Clmm

open Library BoundedLoop

/-- The same swap with another tick list and another limit. -/
def ClmmSwap.withWindow (c : ClmmSwap) (ticks : List ClmmTick) (limit : ℤ) : ClmmSwap :=
  { c with ticks, limit }

/-- The same state with the orders of another tick list. -/
def ClmmState.withOrders (s : ClmmState) (orders : List ℤ) : ClmmState :=
  { s with orders }

/-- The tick is at or before the limit. -/
def Visible (c : ClmmSwap) (t : ClmmTick) : Prop :=
  Beyond c.down (tickPrice t.tick) c.limit

/-- The ticks from the pool's tick to the limit that the direction can visit. -/
def InWindow (pool : ClmmPool) (limit : ℤ) (down : Bool) (t : ClmmTick) : Prop :=
  (if down then t.tick ≤ pool.tickCurrent else pool.tickCurrent < t.tick) ∧
    Beyond down (tickPrice t.tick) limit

/-- A window further out, with the same initialized ticks up to the old limit. -/
structure SameWindow (c : ClmmSwap) (ticks : List ClmmTick) (limit : ℤ)
    (orders₀ orders₀' : List ℤ) : Prop where
  valid : c.Valid
  valid' : (c.withWindow ticks limit).Valid
  further : Beyond c.down c.limit limit
  orders : OrdersOf c orders₀
  orders' : OrdersOf (c.withWindow ticks limit) orders₀'
  same : ∀ t : ClmmTick, t.Initialized → InWindow c.pool c.limit c.down t →
    (t ∈ c.ticks ↔ t ∈ ticks)

/-- The states of the two runs: equal up to the orders, which agree on the ticks
before the old limit. -/
structure WindowSim (c : ClmmSwap) (ticks : List ClmmTick) (limit : ℤ)
    (orders₀ orders₀' : List ℤ) (s : ClmmState) (orders : List ℤ) : Prop where
  inv : ClmmInvariant c orders₀ s
  inv' : ClmmInvariant (c.withWindow ticks limit) orders₀' (s.withOrders orders)
  agree : ∀ i j t, c.ticks[i]? = some t → ticks[j]? = some t → Visible c t →
    orders.getD j 0 = s.orders.getD i 0
  consistent : s.current ≠ c.limit → TickConsistent s.tick s.current
  progress : Beyond c.down c.pool.tickCurrent s.tick

section Next

variable {c : ClmmSwap} {ticks : List ClmmTick} {limit : ℤ} {orders₀ orders₀' orders : List ℤ}
  {s : ClmmState} {t : ClmmTick} {i : ℕ}

/-- The candidates before the old limit are the same in both runs. -/
theorem WindowSim.candidate_iff (hw : SameWindow c ticks limit orders₀ orders₀')
    (hs : WindowSim c ticks limit orders₀ orders₀' s orders) (hr : s.remaining ≠ 0)
    (hv : Visible c t) :
    (∃ i, IsCandidate c s t i) ↔
      ∃ j, IsCandidate (c.withWindow ticks limit) (s.withOrders orders) t j := by
  have hwindow : (if c.down then t.tick ≤ s.tick else s.tick < t.tick) →
      InWindow c.pool c.limit c.down t := by
    intro hside
    have hprogress := hs.progress
    refine ⟨?_, hv⟩
    cases hd : c.down <;> simp [hd] at hside hprogress ⊢ <;> omega
  constructor
  · rintro ⟨i, h⟩
    have hmem := (hw.same t (h.initialized hs.inv hw.orders hr) (hwindow h.2.2)).1 h.mem
    obtain ⟨j, hj⟩ := List.mem_iff_getElem?.1 hmem
    exact ⟨j, hj, hs.agree i j t h.1 hj hv ▸ h.2.1, h.2.2⟩
  · rintro ⟨j, h⟩
    have hmem := (hw.same t (h.initialized hs.inv' hw.orders' hr) (hwindow h.2.2)).2 h.mem
    obtain ⟨i, hi⟩ := List.mem_iff_getElem?.1 hmem
    exact ⟨i, hi, hs.agree i j t hi h.1 hv ▸ h.2.1, h.2.2⟩

/-- Where the candidates agree up to some point, a tick met first up to that
point is met first in both. -/
theorem nextInitialized_congr {c c' : ClmmSwap} {s s' : ClmmState} {V : ClmmTick → Prop}
    (hc' : c'.Valid) (hdown : c'.down = c.down)
    (hsame : ∀ t, V t → ((∃ i, IsCandidate c s t i) ↔ ∃ j, IsCandidate c' s' t j))
    (hclosed : ∀ t t' j, V t → IsCandidate c' s' t' j → Beyond c.down t'.tick t.tick → V t')
    (h : nextInitialized c s = some (t, i)) (hv : V t) :
    ∃ j, nextInitialized c' s' = some (t, j) := by
  obtain ⟨hcand, hfirst⟩ := nextInitialized_some h
  obtain ⟨j, hj⟩ := (hsame t hv).1 ⟨i, hcand⟩
  cases hn : nextInitialized c' s' with
  | none => exact absurd hj (nextInitialized_none hn)
  | some tj =>
      obtain ⟨t', j'⟩ := tj
      obtain ⟨hcand', hfirst'⟩ := nextInitialized_some hn
      have hle := hfirst' t j hj
      rw [hdown] at hle
      obtain ⟨i', hi'⟩ := (hsame t' (hclosed t t' j' hv hcand' hle)).2 ⟨j', hcand'⟩
      obtain ⟨rfl, rfl⟩ := hc'.index_inj hj.1 hcand'.1 ((hfirst t' i' hi').antisymm hle)
      exact ⟨j, rfl⟩

theorem Visible.of_nearer {t' : ClmmTick} (hv : Visible c t)
    (ht : minTick ≤ t.tick ∧ t.tick ≤ maxTick)
    (ht' : minTick ≤ t'.tick ∧ t'.tick ≤ maxTick) (h : Beyond c.down t'.tick t.tick) :
    Visible c t' := by
  have : Beyond c.down (tickPrice t'.tick) (tickPrice t.tick) :=
    (tickTable.beyond_iff ht'.1 ht'.2 ht.1 ht.2).2 h
  exact this.trans hv

theorem WindowSim.next_visible (hw : SameWindow c ticks limit orders₀ orders₀')
    (hs : WindowSim c ticks limit orders₀ orders₀' s orders) (hr : s.remaining ≠ 0)
    (h : nextInitialized c s = some (t, i)) (hv : Visible c t) :
    ∃ j, nextInitialized (c.withWindow ticks limit) (s.withOrders orders) = some (t, j) := by
  have ht := hw.valid.tick_range t (nextInitialized_some h).1.mem
  refine nextInitialized_congr (c := c) (s := s)
    (V := fun u => Visible c u ∧ minTick ≤ u.tick ∧ u.tick ≤ maxTick) hw.valid' rfl
    (fun u hu => hs.candidate_iff hw hr hu.1) (fun u u' j hu hu' hle => ?_) h ⟨hv, ht⟩
  have hr' := hw.valid'.tick_range u' hu'.mem
  exact ⟨hu.1.of_nearer hu.2 hr' hle, hr'⟩

theorem WindowSim.next_visible' (hw : SameWindow c ticks limit orders₀ orders₀')
    (hs : WindowSim c ticks limit orders₀ orders₀' s orders) (hr : s.remaining ≠ 0)
    (h : nextInitialized (c.withWindow ticks limit) (s.withOrders orders) = some (t, i))
    (hv : Visible c t) : ∃ j, nextInitialized c s = some (t, j) := by
  have ht := hw.valid'.tick_range t (nextInitialized_some h).1.mem
  refine nextInitialized_congr (c := c.withWindow ticks limit) (s := s.withOrders orders)
    (V := fun u => Visible c u ∧ minTick ≤ u.tick ∧ u.tick ≤ maxTick) hw.valid rfl
    (fun u hu => (hs.candidate_iff hw hr hu.1).symm) (fun u u' j hu hu' hle => ?_) h ⟨hv, ht⟩
  have hr' := hw.valid.tick_range u' hu'.mem
  exact ⟨hu.1.of_nearer hu.2 hr' hle, hr'⟩

end Next

/-! ### One iteration of both runs -/

section Plan

variable {c : ClmmSwap} {ticks : List ClmmTick} {limit : ℤ} {orders₀ orders₀' orders : List ℤ}
  {s : ClmmState} {plan : ClmmPlan}

/-- No initialized tick is left before the limit. -/
def Ahead (c : ClmmSwap) (next : Option (ClmmTick × ℕ)) : Prop :=
  ∀ t i, next = some (t, i) → ¬ Visible c t

theorem Ahead.limit_beyond {next : Option (ClmmTick × ℕ)} (hc : c.Valid) (h : Ahead c next) :
    Beyond c.down c.limit (tickPrice (nextTickOf c next)) := by
  cases next with
  | some ti => exact (not_beyond.1 (h ti.1 ti.2 rfl)).beyond
  | none =>
      have h₁ := hc.limit_ge
      have h₂ := hc.limit_le
      cases hd : c.down with
      | true => simpa [nextTickOf, hd, tickPrice_minTick] using h₁
      | false => simpa [nextTickOf, hd, tickPrice_maxTick] using h₂

/-- A price not beyond the limit meets the next tick only at the end of the tick
range, with no initialized tick left. -/
theorem Ahead.eq_none {next : Option (ClmmTick × ℕ)} {p : ℤ} (h : Ahead c next)
    (hp : Beyond c.down p c.limit) (heq : p = tickPrice (nextTickOf c next)) : next = none := by
  cases next with
  | none => rfl
  | some ti =>
      rw [heq] at hp
      exact absurd hp (h ti.1 ti.2 rfl)

/-- Such a price is the next price of any list without ticks before the limit. -/
theorem Ahead.next_price {next next' : Option (ClmmTick × ℕ)} {p : ℤ} (hc : c.Valid)
    (h : Ahead c next) (h' : Ahead c next') (hp : Beyond c.down p c.limit)
    (heq : p = tickPrice (nextTickOf c next)) (hge : minTick ≤ nextTickOf c next')
    (hle : nextTickOf c next' ≤ maxTick) : p = tickPrice (nextTickOf c next') := by
  have hfar := hp.trans (h'.limit_beyond hc)
  have h₁ : minSqrtPrice ≤ tickPrice (nextTickOf c next') :=
    tickPrice_minTick ▸ tickTable.first_le hge hle
  have h₂ : tickPrice (nextTickOf c next') ≤ maxSqrtPrice :=
    tickPrice_maxTick ▸ tickTable.le_last hge hle
  rw [h.eq_none hp heq] at heq
  cases hd : c.down with
  | true =>
      simp only [nextTickOf, hd, if_true, tickPrice_minTick] at heq
      rw [hd, beyond_true] at hfar
      omega
  | false =>
      simp only [nextTickOf, hd, Bool.false_eq_true, if_false, tickPrice_maxTick] at heq
      rw [hd, beyond_false] at hfar
      omega

/-- How the plans of the two runs compare: both lead to the same tick before the
old limit, or to none, and then only the bound may be further away. -/
inductive PlanSim (c : ClmmSwap) (limit : ℤ) (plan plan' : ClmmPlan) : Prop
  | visible {t : ClmmTick} {i j : ℕ} : plan.next = some (t, i) → plan'.next = some (t, j) →
      Visible c t → plan'.nextTick = plan.nextTick → plan'.nextPrice = plan.nextPrice →
      plan'.bound = plan.bound → PlanSim c limit plan plan'
  | ahead : Ahead c plan.next → Ahead c plan'.next → plan'.bound = plan.bound →
      PlanSim c limit plan plan'
  | further : Ahead c plan.next → Ahead c plan'.next → limit ≠ c.limit → plan.bound = c.limit →
      Beyond c.down c.limit plan'.bound → PlanSim c limit plan plan'

theorem groupStop_of_further (s : ClmmState) {a b : ℤ} (h : Beyond c.down a b) :
    groupStop c s b = groupStop c s a ∨
      groupStop c s a = a ∧ Beyond c.down a (groupStop c s b) := by
  unfold groupStop
  split
  · exact nearer_of_further h _
  · exact .inr ⟨rfl, h⟩

theorem WindowSim.plan_sim (hw : SameWindow c ticks limit orders₀ orders₀')
    (hs : WindowSim c ticks limit orders₀ orders₀' s orders) (hr : s.remaining ≠ 0)
    (h : clmmPlan c s = .ok plan) :
    ∃ plan', clmmPlan (c.withWindow ticks limit) (s.withOrders orders) = .ok plan' ∧
      plan'.fee = plan.fee ∧ plan'.skipped = plan.skipped ∧ PlanSim c limit plan plan' := by
  set c' := c.withWindow ticks limit with hc'
  set s' := s.withOrders orders with hs'
  obtain ⟨-, rfl⟩ := clmmPlan_eq_ok.1 h
  have hrange : minTick ≤ nextTickOf c (nextInitialized c' s') ∧
      nextTickOf c (nextInitialized c' s') ≤ maxTick := by
    cases hn : nextInitialized c' s' with
    | some ti => exact hw.valid'.tick_range ti.1 (nextInitialized_some hn).1.mem
    | none =>
        simp only [nextTickOf]
        split <;> exact ⟨by decide, by decide⟩
  refine ⟨_, clmmPlan_eq_ok.2 ⟨hrange, rfl⟩, rfl, rfl, ?_⟩
  by_cases hvis : ∃ t i, nextInitialized c s = some (t, i) ∧ Visible c t
  · obtain ⟨t, i, hn, hv⟩ := hvis
    obtain ⟨j, hn'⟩ := hs.next_visible hw hr hn hv
    rw [← hc', ← hs'] at hn'
    have htick : nextTickOf c' (nextInitialized c' s') = nextTickOf c (nextInitialized c s) := by
      rw [hn, hn']
      rfl
    refine .visible hn hn' hv htick (by dsimp only; rw [htick]) ?_
    dsimp only
    rw [htick, hn]
    have hv' : Beyond c.down (tickPrice t.tick) limit := Beyond.trans hv hw.further
    show groupStop c s (nearer c.down (tickPrice t.tick) limit) =
      groupStop c s (nearer c.down (tickPrice t.tick) c.limit)
    rw [nearer_eq_left hv, nearer_eq_left hv']
  · have ha : Ahead c (nextInitialized c s) := fun t i hn hv => hvis ⟨t, i, hn, hv⟩
    have ha' : Ahead c (nextInitialized c' s') := fun t i hn hv => by
      obtain ⟨j, hj⟩ := hs.next_visible' hw hr hn hv
      exact hvis ⟨t, j, hj, hv⟩
    have hfar := ha'.limit_beyond hw.valid
    have htarget := nearer_eq_right (ha.limit_beyond hw.valid)
    by_cases hlimit : limit = c.limit
    · refine .ahead ha ha' ?_
      show groupStop c s (nearer c.down (tickPrice (nextTickOf c (nextInitialized c' s'))) limit) =
        groupStop c s (nearer c.down (tickPrice (nextTickOf c (nextInitialized c s))) c.limit)
      rw [htarget, hlimit, nearer_eq_right hfar]
    · rcases groupStop_of_further s (beyond_nearer_iff.2 ⟨hfar, hw.further⟩) with heq | ⟨hb, hb'⟩
      · exact .ahead ha ha' (heq.trans (congrArg (groupStop c s) htarget.symm))
      · exact .further ha ha' hlimit ((congrArg (groupStop c s) htarget).trans hb) hb'

end Plan

section Iteration

variable {c : ClmmSwap} {ticks : List ClmmTick} {limit : ℤ} {orders₀ orders₀' orders : List ℤ}
  {s s' moved : ClmmState} {plan plan' : ClmmPlan}

/-- A step towards the same bound does not look at the ticks or the limit. -/
theorem clmmTakeStep_withWindow (hfee : plan'.fee = plan.fee) (hbound : plan'.bound = plan.bound)
    (h : clmmTakeStep c s plan = .ok moved) :
    clmmTakeStep (c.withWindow ticks limit) (s.withOrders orders) plan' =
      .ok (moved.withOrders orders) := by
  rw [clmmTakeStep_eq_ok]
  rcases clmmTakeStep_eq_ok.1 h with ⟨hb, rfl⟩ | ⟨hb, step, hstep, hr, ho, rfl⟩
  · exact .inl ⟨hb.trans hbound.symm, rfl⟩
  · have hnet : stepNet (c.withWindow ticks limit) plan' step = stepNet c plan step := by
      simp only [stepNet, hfee, ClmmSwap.withWindow]
    refine .inr ⟨hbound ▸ hb, step, ?_, hr, hnet ▸ ho, ?_⟩
    · rw [hfee, hbound]
      exact hstep
    · rw [hnet]
      rfl

/-- Neither does a step that falls short of a bound when the bound is moved
further away. -/
theorem clmmTakeStep_further (hfee : plan'.fee = plan.fee) (hb : s.current ≠ plan.bound)
    (hshort : moved.current ≠ plan.bound) (hfar : Beyond c.down plan.bound plan'.bound)
    (hpos : 0 < plan'.bound) (hle : plan'.bound ≤ u128)
    (h : clmmTakeStep c s plan = .ok moved) :
    clmmTakeStep (c.withWindow ticks limit) (s.withOrders orders) plan' =
      .ok (moved.withOrders orders) := by
  rw [clmmTakeStep_eq_ok]
  rcases clmmTakeStep_eq_ok.1 h with ⟨heq, -⟩ | ⟨-, step, hstep, hr, ho, rfl⟩
  · exact absurd heq hb
  · have hnet : stepNet (c.withWindow ticks limit) plan' step = stepNet c plan step := by
      simp only [stepNet, hfee, ClmmSwap.withWindow]
    have htowards := strictlyBeyond_iff.2 ⟨(StepInput.of_ok hstep).towards, hb⟩
    refine .inr ⟨(htowards.trans_beyond hfar).ne, step, ?_, hr, hnet ▸ ho, ?_⟩
    · rw [hfee]
      exact clmmSwapStep_of_further hstep hshort hfar hpos hle
    · rw [hnet]
      rfl

theorem clmmFillOrders_withWindow (ticks : List ClmmTick) (limit : ℤ) {filled : ClmmState}
    {fee : ℤ} {i j : ℕ}
    (hj : j < orders.length) (hi : i < s.orders.length)
    (hget : orders.getD j 0 = s.orders.getD i 0)
    (h : clmmFillOrders c s fee i = .ok filled) :
    clmmFillOrders (c.withWindow ticks limit) (s.withOrders orders) fee j =
      .ok (filled.withOrders (orders.set j (filled.orders.getD i 0))) := by
  rw [clmmFillOrders_eq_ok]
  simp only [ClmmState.withOrders, ClmmSwap.withWindow, hget]
  rcases clmmFillOrders_eq_ok.1 h with ⟨hskip, rfl⟩ | ⟨hdo, hprice, m, hm, h₁, h₂, h₃, rfl⟩
  · refine .inl ⟨hskip, ?_⟩
    rw [← hget, List.getD_eq_getElem _ _ hj, List.set_getElem_self]
  · refine .inr ⟨hdo, hprice, m, hm, h₁, h₂, h₃, ?_⟩
    have hset : (s.orders.set i (s.orders.getD i 0 - m.gross)).getD i 0 =
        s.orders.getD i 0 - m.gross := by rw [getD_set_eq, if_pos ⟨rfl, hi⟩]
    dsimp only
    rw [hset]
    rfl

theorem clmmCrossTick_withWindow (ticks : List ClmmTick) (limit : ℤ) {crossed : ClmmState}
    {t : ClmmTick} {i j : ℕ} (hget : orders.getD j 0 = s.orders.getD i 0)
    (h : clmmCrossTick c s t i = .ok crossed) :
    clmmCrossTick (c.withWindow ticks limit) (s.withOrders orders) t j =
      .ok (crossed.withOrders orders) := by
  obtain ⟨liquidity, hliq, rfl⟩ := clmmCrossTick_eq_ok.1 h
  rw [clmmCrossTick_eq_ok]
  simp only [ClmmState.withOrders, ClmmSwap.withWindow, hget]
  exact ⟨liquidity, hliq, rfl⟩

theorem advanceGroup_withWindow (ticks : List ClmmTick) (limit : ℤ) (orders : List ℤ)
    (s : ClmmState) (hskipped : plan'.skipped = plan.skipped)
    (hprice : s.current = plan'.nextPrice ↔ s.current = plan.nextPrice)
    (htick : s.current = plan.nextPrice → plan'.nextTick = plan.nextTick) :
    advanceGroup (c.withWindow ticks limit) plan' (s.withOrders orders) =
      (advanceGroup c plan s).withOrders orders := by
  cases he : c.enabled with
  | false => simp [advanceGroup, ClmmSwap.withWindow, he]
  | true =>
      by_cases h : s.current = plan.nextPrice
      · simp [advanceGroup, ClmmSwap.withWindow, ClmmState.withOrders, he, hskipped, htick h,
          hprice.2 h, ← h]
      · have h' : ¬ s.current = plan'.nextPrice := fun h' => h (hprice.1 h')
        simp [advanceGroup, ClmmSwap.withWindow, ClmmState.withOrders, he, hskipped, h, h']

end Iteration

section Simulation

variable {c : ClmmSwap} {ticks : List ClmmTick} {limit : ℤ} {orders₀ orders₀' orders : List ℤ}
  {s s' moved : ClmmState} {plan plan' : ClmmPlan}

/-- The step is the same in both runs, unless it ends at the old limit and the
new one is further away. -/
theorem SameWindow.takeStep (hw : SameWindow c ticks limit orders₀ orders₀')
    (hl : s.current ≠ c.limit)
    (hplan : clmmPlan (c.withWindow ticks limit) (s.withOrders orders) = .ok plan')
    (hfee : plan'.fee = plan.fee) (hsim : PlanSim c limit plan plan')
    (hlate : limit = c.limit ∨ moved.current ≠ c.limit)
    (hmoved : clmmTakeStep c s plan = .ok moved) :
    clmmTakeStep (c.withWindow ticks limit) (s.withOrders orders) plan' =
      .ok (moved.withOrders orders) := by
  cases hsim with
  | visible _ _ _ _ _ hb => exact clmmTakeStep_withWindow hfee hb hmoved
  | ahead _ _ hb => exact clmmTakeStep_withWindow hfee hb hmoved
  | further _ _ hne hb hb' =>
      have hstop := (PlanSpec.of_ok hw.valid' hplan).bound_limit
      have hmax : maxSqrtPrice ≤ u128 := by decide
      have hmin : 0 < minSqrtPrice := by decide
      have h₁ := hw.valid.limit_ge
      have h₂ := hw.valid.limit_le
      have h₃ : minSqrtPrice ≤ limit := hw.valid'.limit_ge
      have h₄ : limit ≤ maxSqrtPrice := hw.valid'.limit_le
      have hrange : 0 < plan'.bound ∧ plan'.bound ≤ u128 := by
        change Beyond c.down plan'.bound limit at hstop
        cases hd : c.down <;> simp [hd] at hstop hb' <;> omega
      exact clmmTakeStep_further hfee (hb ▸ hl) (hb ▸ hlate.resolve_left hne) (hb ▸ hb')
        hrange.1 hrange.2 hmoved

/-- A step that ends between ticks ends between ticks in both runs. -/
theorem SameWindow.between (hw : SameWindow c ticks limit orders₀ orders₀')
    (hp : PlanSpec c s plan)
    (hplan : clmmPlan (c.withWindow ticks limit) (s.withOrders orders) = .ok plan')
    (hsim : PlanSim c limit plan plan') (hlimit : Beyond c.down moved.current c.limit) :
    moved.current = plan'.nextPrice ↔ moved.current = plan.nextPrice := by
  have hp' := PlanSpec.of_ok hw.valid' hplan
  have htick : plan.nextTick = nextTickOf c plan.next := hp.nextTick_eq
  have htick' : plan'.nextTick = nextTickOf c plan'.next := hp'.nextTick_eq
  have hboth : Ahead c plan.next → Ahead c plan'.next →
      (moved.current = plan'.nextPrice ↔ moved.current = plan.nextPrice) := by
    intro ha ha'
    rw [hp.nextPrice_eq, hp'.nextPrice_eq, htick, htick']
    constructor
    · intro h
      exact ha'.next_price hw.valid ha hlimit h (htick ▸ hp.nextTick_ge) (htick ▸ hp.nextTick_le)
    · intro h
      exact ha.next_price hw.valid ha' hlimit h (htick' ▸ hp'.nextTick_ge)
        (htick' ▸ hp'.nextTick_le)
  cases hsim with
  | visible _ _ _ _ hprice _ => rw [hprice]
  | ahead ha ha' _ => exact hboth ha ha'
  | further ha ha' _ _ _ => exact hboth ha ha'

/-- The orders keep agreeing when those of one tick are changed in both runs. -/
theorem SameWindow.agree_set (hw : SameWindow c ticks limit orders₀ orders₀')
    (h : ∀ i j t, c.ticks[i]? = some t → ticks[j]? = some t → Visible c t →
      orders.getD j 0 = s.orders.getD i 0)
    {t : ClmmTick} {i j : ℕ} (hi : c.ticks[i]? = some t) (hj : ticks[j]? = some t)
    (hilt : i < s.orders.length) (hjlt : j < orders.length) (v : ℤ) :
    ∀ i₂ j₂ u, c.ticks[i₂]? = some u → ticks[j₂]? = some u → Visible c u →
      (orders.set j v).getD j₂ 0 = (s.orders.set i v).getD i₂ 0 := by
  intro i₂ j₂ u hu hu' hvis
  rw [getD_set_eq, getD_set_eq]
  by_cases hij : i = i₂
  · subst hij
    obtain rfl : t = u := Option.some.inj (hi.symm.trans hu)
    obtain ⟨rfl, -⟩ := hw.valid'.index_inj hj hu' rfl
    rw [if_pos ⟨rfl, hjlt⟩, if_pos ⟨rfl, hilt⟩]
  · have hij' : j ≠ j₂ := by
      rintro rfl
      obtain rfl : t = u := Option.some.inj (hj.symm.trans hu')
      exact hij (hw.valid.index_inj hi hu rfl).1
    rw [if_neg (fun h => hij' h.1), if_neg (fun h => hij h.1)]
    exact h i₂ j₂ u hu hu' hvis

/-- One iteration of the second run. -/
theorem WindowSim.transition (hw : SameWindow c ticks limit orders₀ orders₀')
    (hs : WindowSim c ticks limit orders₀ orders₀' s orders) (hr : s.remaining ≠ 0)
    (hl : s.current ≠ c.limit) (hlate : limit = c.limit ∨ s'.current ≠ c.limit)
    (ht : ClmmTransition c s s') :
    ∃ orders', ClmmTransition (c.withWindow ticks limit) (s.withOrders orders)
        (s'.withOrders orders') ∧
      ∀ i j t, c.ticks[i]? = some t → ticks[j]? = some t → Visible c t →
        orders'.getD j 0 = s'.orders.getD i 0 := by
  cases ht with
  | @cross plan moved filled crossed t i hplan hmoved hcur hnext hfill hcross =>
      have hp := PlanSpec.of_ok hw.valid hplan
      have hi := hs.inv.step hw.valid hplan hmoved
      obtain ⟨hcand, hnt⟩ := hp.next_index hnext
      obtain ⟨hccur, -, -, hcorders, -, -⟩ := clmmCrossTick_frame hcross
      have hfill_spec := FillSpec.of_ok (hp.index_lt hi hnext) hi.remaining_nonneg hp.fee_nonneg
        hp.fee_le (hi.orders_nonneg _) hfill
      have hlimit := hi.limit
      -- the tick that is crossed lies within the limit, so both windows show it
      have hv : Visible c t := by
        rw [hcur, hp.nextPrice_eq, hnt] at hlimit
        exact hlimit
      rw [advanceGroup_current, hccur, hfill_spec.current_eq] at hlate
      obtain ⟨plan', hplan', hfee, hskip, hsim⟩ := hs.plan_sim hw hr hplan
      have hmoved' := hw.takeStep hl hplan' hfee hsim hlate hmoved
      have hbetween := hw.between hp hplan' hsim hlimit
      have hi' := hs.inv'.step hw.valid' hplan' hmoved'
      cases hsim with
      -- the second plan can only stop elsewhere where the first tick is out of sight
      | ahead ha => exact absurd hv (ha t i hnext)
      | further ha => exact absurd hv (ha t i hnext)
      | @visible u i' j hn hn' _ htick hprice _ =>
          obtain ⟨rfl, rfl⟩ : t = u ∧ i = i' := by
            rw [hnext] at hn
            simpa using hn
          have hp' := PlanSpec.of_ok hw.valid' hplan'
          have hj : ticks[j]? = some t := (hp'.next_index hn').1.1
          have hjlt : j < orders.length := hp'.index_lt hi' hn'
          have hilt := hp.index_lt hi hnext
          have horders := (StepSpec.of_ok hs.inv.remaining_nonneg hmoved).orders_eq
          have hget : orders.getD j 0 = moved.orders.getD i 0 := by
            rw [horders]
            exact hs.agree i j t hcand.1 hj hv
          have hfill' := clmmFillOrders_withWindow ticks limit hjlt hilt hget hfill
          have hfilled : (orders.set j (filled.orders.getD i 0)).getD j 0 =
              filled.orders.getD i 0 := by rw [getD_set_eq, if_pos ⟨rfl, hjlt⟩]
          have hcross' := clmmCrossTick_withWindow ticks limit hfilled hcross
          have hgroup := advanceGroup_withWindow (c := c) ticks limit
            (orders.set j (filled.orders.getD i 0)) crossed hskip (by rw [hprice]) (fun _ => htick)
          refine ⟨orders.set j (filled.orders.getD i 0), ?_, ?_⟩
          · rw [← hgroup]
            exact .cross hplan' hmoved' (hbetween.2 hcur) hn' (hfee ▸ hfill') hcross'
          · have hset := hfill_spec.orders_eq
            rw [advanceGroup_orders, hcorders]
            generalize filled.orders.getD i 0 = v at hset ⊢
            rw [hset, horders]
            exact hw.agree_set hs.agree hcand.1 hj (horders ▸ hilt) hjlt v
  | @pass plan moved tick hplan hmoved hcur htick =>
      have hp := PlanSpec.of_ok hw.valid hplan
      have hi := hs.inv.step hw.valid hplan hmoved
      rw [advanceGroup_current] at hlate
      change limit = c.limit ∨ moved.current ≠ c.limit at hlate
      obtain ⟨plan', hplan', hfee, hskip, hsim⟩ := hs.plan_sim hw hr hplan
      have hmoved' := hw.takeStep hl hplan' hfee hsim hlate hmoved
      have hbetween := hw.between hp hplan' hsim hi.limit
      have hcur' : moved.current ≠ plan'.nextPrice := fun h => hcur (hbetween.1 h)
      have hgroup := advanceGroup_withWindow (c := c) ticks limit orders { moved with tick } hskip
        hbetween
        (fun h => absurd h hcur)
      refine ⟨orders, ?_, ?_⟩
      · rw [← hgroup]
        exact .pass hplan' hmoved' hcur' htick
      · rw [advanceGroup_orders]
        dsimp only
        rw [(StepSpec.of_ok hs.inv.remaining_nonneg hmoved).orders_eq]
        exact hs.agree

/-- The tick moves with the price. -/
theorem ClmmTransition.tick_advances (hc : c.Valid) (hr : 0 ≤ s.remaining)
    (hcons : TickConsistent s.tick s.current) (ht : ClmmTransition c s s') :
    Beyond c.down s.tick s'.tick := by
  cases ht with
  | cross hplan hmoved hcur hnext hfill hcross =>
      have hp := PlanSpec.of_ok hc hplan
      obtain ⟨⟨-, -, hside⟩, -⟩ := hp.next_index hnext
      obtain ⟨-, -, -, -, -, htick⟩ := clmmCrossTick_frame hcross
      rw [advanceGroup_tick, htick]
      cases hd : c.down with
      | true =>
          simp only [hd, if_true, beyond_true] at hside ⊢
          split <;> omega
      | false =>
          simp only [hd, Bool.false_eq_true, if_false, beyond_false] at hside ⊢
          split <;> omega
  | pass hplan hmoved hcur htick =>
      have hm := StepSpec.of_ok hr hmoved
      rw [advanceGroup_tick]
      dsimp only
      rcases htick with ⟨hne, htick⟩ | ⟨-, rfl⟩
      · obtain ⟨hholds, hlt⟩ := clmmTickAtSqrtPrice_spec htick
        exact hcons.advance hholds (strictlyBeyond_iff.2 ⟨hm.advances, hne.symm⟩) hlt
      · rw [hm.tick_eq]
        exact .refl _ _

/-- The step lemma of the simulation. -/
theorem WindowSim.next (hw : SameWindow c ticks limit orders₀ orders₀')
    (hs : WindowSim c ticks limit orders₀ orders₀' s orders) (hr : s.remaining ≠ 0)
    (hl : s.current ≠ c.limit) (hlate : limit = c.limit ∨ s'.current ≠ c.limit)
    (ht : ClmmTransition c s s') :
    ∃ orders', ClmmTransition (c.withWindow ticks limit) (s.withOrders orders)
        (s'.withOrders orders') ∧
      WindowSim c ticks limit orders₀ orders₀' s' orders' := by
  obtain ⟨orders', ht', hagree⟩ := hs.transition hw hr hl hlate ht
  have hinv := hs.inv.next hw.valid ht
  refine ⟨orders', ht', hinv, hs.inv'.next hw.valid' ht', hagree, fun hne => ?_,
    hs.progress.trans (ht.tick_advances hw.valid hs.inv.remaining_nonneg (hs.consistent hl))⟩
  refine ht.tickConsistent hw.valid hs.inv (hs.consistent hl) fun hend => hne ?_
  -- the limit lies within the price range, so the end of the range is the limit
  have hlimit := hinv.limit
  have h₁ := hw.valid.limit_ge
  have h₂ := hw.valid.limit_le
  cases hd : c.down <;> simp [hd] at hlimit hend <;> omega

/-- The limit not reached yet in the first run is not reached in the second. -/
theorem SameWindow.going (hw : SameWindow c ticks limit orders₀ orders₀')
    (hinv : ClmmInvariant c orders₀ s) (hl : s.current ≠ c.limit) : s.current ≠ limit :=
  ((strictlyBeyond_iff.2 ⟨hinv.limit, hl⟩).trans_beyond hw.further).ne

/-- A break happens in both runs at once. -/
theorem WindowSim.brk (hw : SameWindow c ticks limit orders₀ orders₀')
    (hs : WindowSim c ticks limit orders₀ orders₀' s orders) (hlimit : limit = c.limit)
    (h : clmmIteration c s = .ok (.brk s')) :
    clmmIteration (c.withWindow ticks limit) (s.withOrders orders) =
      .ok (.brk (s'.withOrders orders)) := by
  obtain ⟨hr, hl, plan, hplan, hmoved, hcur, hnone⟩ := clmmIteration_brk.1 h
  have hp := PlanSpec.of_ok hw.valid hplan
  have hi := hs.inv.step hw.valid hplan hmoved
  obtain ⟨plan', hplan', hfee, -, hsim⟩ := hs.plan_sim hw hr hplan
  have hp' := PlanSpec.of_ok hw.valid' hplan'
  have hmoved' := hw.takeStep hl hplan' hfee hsim (.inl hlimit) hmoved
  have hcur' := (hw.between hp hplan' hsim hi.limit).2 hcur
  refine clmmIteration_brk.2 ⟨hr, hw.going (s := s) hs.inv hl, plan', hplan', hmoved', hcur', ?_⟩
  have hahead : Ahead c plan'.next := by
    cases hsim with
    | visible hn => simp [hnone] at hn
    | ahead _ ha' => exact ha'
    | further _ ha' => exact ha'
  exact hahead.eq_none hi.limit (by rw [hcur', hp'.nextPrice_eq, hp'.nextTick_eq]; rfl)

end Simulation

/-! ### Whole runs -/

section Run

variable {c : ClmmSwap} {s : ClmmState} {r : ClmmSwapResult} {orders₀ : List ℤ}

/-- The result is ahead of every state of the run. -/
theorem ClmmInvariant.result_beyond (hc : c.Valid) (h : ClmmInvariant c orders₀ s) {n : ℕ}
    (hrun : run (clmmIteration c) (clmmFinish c) n s = .ok r) :
    Beyond c.down s.current r.sqrtPrice := by
  obtain ⟨t, ht, hexit⟩ := run_ok hrun
  have hreach : ClmmInvariant c orders₀ t ∧ Beyond c.down s.current t.current :=
    ht.invariant (I := fun u => ClmmInvariant c orders₀ u ∧ Beyond c.down s.current u.current)
      (fun u v hu hb => by
        have htrans := (clmmIteration_next.1 hb).2.2
        exact ⟨hu.1.next hc htrans, hu.2.trans (htrans.advances hu.1.remaining_nonneg)⟩)
      ⟨h, .refl _ _⟩
  rcases hexit with hret | ⟨u, hbrk, hu⟩ | ⟨-, ha⟩
  · rw [(clmmIteration_ret.1 hret).2]
    exact hreach.2
  · obtain ⟨-, -, plan, -, hmoved, -⟩ := clmmIteration_brk.1 hbrk
    rw [(clmmFinish_eq_ok.1 hu).2]
    exact hreach.2.trans (StepSpec.of_ok hreach.1.remaining_nonneg hmoved).advances
  · rw [(clmmFinish_eq_ok.1 ha).2]
    exact hreach.2

/-- A tick list that the checks before the loop accept. -/
def ValidTicks (pool : ClmmPool) (ticks : List ClmmTick) : Prop :=
  (ticks.map (·.tick)).Nodup ∧ (∀ t ∈ ticks, checkTick pool t = .ok ()) ∧
    ∀ t ∈ ticks, ∃ o, tickOrders t = .ok o

variable {pool : ClmmPool} {ticks ticks' : List ClmmTick} {amount limit limit' feeOn timestamp : ℤ}
  {dynamic : List UInt8} {down : Bool} {s₀ : ClmmState}

/-- The second call prepares the same swap with its own ticks and limit. -/
theorem clmmPrepare_withWindow
    (h : clmmPrepare pool ticks amount limit feeOn dynamic timestamp down = .ok (c, s₀))
    (hvalid : ValidTicks pool ticks') (hlimit : minSqrtPrice ≤ limit' ∧ limit' ≤ maxSqrtPrice)
    (hfar : Beyond down limit limit') :
    ∃ orders', clmmPrepare pool ticks' amount limit' feeOn dynamic timestamp down =
      .ok (c.withWindow ticks' limit', s₀.withOrders orders') := by
  obtain ⟨hpool, hlen, hdyn, -, -, -, hceq, href, hseq⟩ := clmmPrepare_eq_ok.1 h
  obtain ⟨ha, ht, hl, hp, htick, hs, hf, ho, -, hd⟩ := checkPool_eq_ok.1 hpool
  have hpool' : checkPool pool amount limit' feeOn timestamp down = .ok () :=
    checkPool_eq_ok.2 ⟨ha, ht, hl, hp, htick, hs, hf, ho, hlimit, hd.trans_beyond hfar⟩
  obtain ⟨orders', horders'⟩ : ∃ orders', List.Forall₂ (fun t o => tickOrders t = .ok o)
      ticks' orders' := by
    have hall := hvalid.2.2
    clear hvalid
    induction ticks' with
    | nil => exact ⟨[], .nil⟩
    | cons t ts ih =>
        obtain ⟨o, ho⟩ := hall t (List.mem_cons_self ..)
        obtain ⟨os, hos⟩ := ih fun u hu => hall u (List.mem_cons_of_mem _ hu)
        exact ⟨o :: os, .cons ho hos⟩
  refine ⟨orders', clmmPrepare_eq_ok.2 ⟨hpool', hlen, hdyn, hvalid.1, hvalid.2.1, horders', ?_,
    href, ?_⟩⟩
  · rw [hceq]
    rfl
  · rw [hseq]
    rfl

/-- Tick-window independence of the CLMM quote. A quote that did not run into its
limit, or keeps it, is the quote of every tick list with the same initialized
ticks between the current tick and that limit. -/
theorem clmmSwapExactIn_window (hcons : TickConsistent pool.tickCurrent pool.sqrtPrice)
    (hvalid : ValidTicks pool ticks') (hlimit : minSqrtPrice ≤ limit' ∧ limit' ≤ maxSqrtPrice)
    (hfar : Beyond down limit limit')
    (hsame : ∀ t : ClmmTick, t.Initialized → InWindow pool limit down t →
      (t ∈ ticks ↔ t ∈ ticks'))
    (h : clmmSwapExactIn pool ticks amount limit feeOn dynamic timestamp down = .ok r)
    (hdone : limit' = limit ∨ r.consumed = amount ∧ StrictlyBeyond down r.sqrtPrice limit) :
    clmmSwapExactIn pool ticks' amount limit' feeOn dynamic timestamp down = .ok r := by
  obtain ⟨⟨c, s₀⟩, hprep, hrun⟩ := bind_eq_ok.1 h
  obtain ⟨orders', hprep'⟩ := clmmPrepare_withWindow hprep hvalid hlimit hfar
  have hc := ClmmSwap.Valid.of_prepare hprep
  have h₀ := ClmmInvariant.init hprep
  have h₀' := ClmmInvariant.init hprep'
  obtain ⟨-, -, -, -, -, -, hceq, -, hseq⟩ := clmmPrepare_eq_ok.1 hprep
  have hpool : c.pool = pool := by rw [hceq]
  have hamount : c.amount = amount := by rw [hceq]
  have hclimit : c.limit = limit := by rw [hceq]
  have hdown : c.down = down := by rw [hceq]
  have hticks : c.ticks = ticks := by rw [hceq]
  have hw : SameWindow c ticks' limit' s₀.orders orders' :=
    { valid := hc
      valid' := ClmmSwap.Valid.of_prepare hprep'
      further := by rw [hdown, hclimit]; exact hfar
      orders := orders_of_prepare hprep
      orders' := orders_of_prepare hprep'
      same := by rw [hpool, hclimit, hdown, hticks]; exact hsame }
  have hs : WindowSim c ticks' limit' s₀.orders orders' s₀ orders' :=
    { inv := h₀
      inv' := h₀'
      agree := fun i j t hi hj _ => by
        rw [hw.orders i t hi]
        exact hw.orders' j t hj
      consistent := fun _ => by rw [hseq]; exact hcons
      progress := by rw [hseq, hpool]; exact .refl _ _ }
  rw [clmmSwapExactIn, hprep', ok_bind]
  -- a run that ends at the old limit has the same limit or no input left
  have hended : ∀ s : ClmmState, (s.remaining = 0 ∨ s.current = c.limit) ∧ r = clmmResult c s →
      s.remaining = 0 ∨ s.current = limit' := by
    rintro s ⟨hr | hl, rfl⟩
    · exact .inl hr
    · rcases hdone with heq | ⟨hamt, -⟩
      · exact .inr (hl.trans (hclimit.trans heq.symm))
      · simp only [clmmResult, hamount] at hamt
        exact .inl (by omega)
  refine run_simulation
    (R := fun s t => ∃ orders, t = s.withOrders orders ∧
      WindowSim c ticks' limit' s₀.orders orders' s orders)
    ?_ ?_ ?_ ?_ ⟨orders', rfl, hs⟩ hrun
  · rintro s _ s' n ⟨orders, rfl, hs⟩ hb hrest
    obtain ⟨hr, hl, ht⟩ := clmmIteration_next.1 hb
    have hlate : limit' = c.limit ∨ s'.current ≠ c.limit := by
      rw [hclimit]
      refine hdone.imp_right fun hd heq => ?_
      have hfinal := (hs.inv.next hc ht).result_beyond hc hrest
      rw [heq, hdown] at hfinal
      exact hd.2.not_beyond hfinal
    obtain ⟨orders₂, ht', hs'⟩ := hs.next hw hr hl hlate ht
    exact ⟨_, clmmIteration_next.2 ⟨hr, hw.going (s := s) hs.inv hl, ht'⟩, orders₂, rfl, hs'⟩
  · rintro s _ s' ⟨orders, rfl, hs⟩ hb hafter
    have hat := hs.inv.break_at_limit hc hb
    have hres := (clmmFinish_eq_ok.1 hafter).2
    have heq : limit' = c.limit := by
      rw [hclimit]
      refine hdone.resolve_right fun hd => ?_
      rw [hres, clmmResult, hat, hclimit] at hd
      exact hd.2.ne rfl
    exact ⟨_, hs.brk hw heq hb, clmmFinish_eq_ok.2 ⟨.inr (hat.trans heq.symm), hres⟩⟩
  · rintro s _ ⟨orders, rfl, hs⟩ hb
    have hret := clmmIteration_ret.1 hb
    exact clmmIteration_ret.2 ⟨hended s hret, hret.2⟩
  · rintro s _ ⟨orders, rfl, hs⟩ hafter
    have hret := clmmFinish_eq_ok.1 hafter
    exact clmmFinish_eq_ok.2 ⟨hended s hret, hret.2⟩

end Run

/-- More ticks, in another order, ahead of the limit and behind the price. -/
theorem clmmSwapExactIn_window_more_ticks :
    clmmSwapExactIn ⟨2 ^ 64, 1000000, 0, 60, 3000⟩
        [⟨-240, 7, 7, 0, 0⟩, ⟨60, 3, 3, 0, 0⟩, ⟨-60, 5, 10, 500, 300⟩] 4000 (tickPrice (-300)) 0
        (List.replicate 80 0) 100 true =
      .ok ⟨4000, 3969, 18388262870999268811, -64, 999995⟩ := by
  have h : clmmSwapExactIn ⟨2 ^ 64, 1000000, 0, 60, 3000⟩ [⟨-60, 5, 10, 500, 300⟩] 4000
      (tickPrice (-120)) 0 (List.replicate 80 0) 100 true =
        .ok ⟨4000, 3969, 18388262870999268811, -64, 999995⟩ := by decide +kernel
  refine clmmSwapExactIn_window (by decide +kernel) ⟨by decide, by decide +kernel, ?_⟩
    (by decide +kernel) (by decide +kernel) ?_ h (.inr (by decide +kernel))
  · intro t ht
    simp only [List.mem_cons, List.not_mem_nil, or_false] at ht
    rcases ht with rfl | rfl | rfl <;> exact ⟨_, rfl⟩
  · intro t _ hwindow
    simp only [List.mem_cons, List.not_mem_nil, or_false]
    refine ⟨fun ht => .inr (.inr ht), ?_⟩
    rintro (rfl | rfl | rfl)
    · exact absurd hwindow.2 (by decide +kernel)
    · exact absurd hwindow.1 (by decide)
    · rfl

end SolTrade.Clmm
