import Mathlib.Data.List.Perm.Subperm
import SolTrade.Clmm.Soundness

/-!
Progress of the CLMM traversal.

With the fee on the input, a step that falls short of its bound charges the whole
rest of the input. With the fee on the output it charges only the cost of the
rounded price, and what rounding leaves over stays in the input: such a step
makes progress exactly when some integer price costs the whole input
(`takeStep_progress_iff`). In a run whose steps all make progress every iteration
but the last is at a landmark of its own, an initialized tick that it crosses or
a boundary of the tick groups, so the budget measures the path.
-/

namespace SolTrade.Clmm

open Library BoundedLoop

/-- Some integer price costs exactly the net input, nothing being lost to the
rounding of the price. -/
def ExactCost (current liquidity net : ℤ) (down : Bool) : Prop :=
  ∃ price, 0 < price ∧ Beyond down current price ∧ amountInTo current price liquidity down = net

/-- When a step uses its input up or reaches its bound, as a condition on the
state before it. -/
def StepResolves (c : ClmmSwap) (s : ClmmState) (plan : ClmmPlan) : Prop :=
  c.inputFee = true ∨ amountInTo s.current plan.bound s.liquidity c.down ≤ s.remaining ∨
    ExactCost s.current s.liquidity s.remaining c.down

section Step

variable {c : ClmmSwap} {s moved : ClmmState} {plan : ClmmPlan}

/-- The price where an input is used up costs the whole input exactly when some
price does. -/
theorem amountIn_priceAfterInput_eq_iff {current liquidity net : ℤ} {down : Bool}
    (hc : 0 < current) (hL : 0 < liquidity) (hn : 0 ≤ net) :
    amountInTo current (priceAfterInput current liquidity net down) liquidity down = net ↔
      ExactCost current liquidity net down := by
  have hpos := priceAfterInput_pos down hc hL hn
  have hdir := current_beyond_priceAfterInput down hc hL hn
  constructor
  · intro heq
    exact ⟨_, hpos, hdir, heq⟩
  · rintro ⟨price, hp, hcp, hcost⟩
    have hfar := (amountIn_le_iff hc hp hL hn hcp).1 hcost.le
    have hmono := amountInTo_mono hc hp hpos hL.le hcp hfar
    have hle := amountIn_priceAfterInput_le down hc hL hn
    omega

theorem takeStep_progress_iff (hr : 0 < s.remaining) (hmoved : clmmTakeStep c s plan = .ok moved)
    (hb : s.current ≠ plan.bound) :
    (moved.current = plan.bound ∨ moved.remaining = 0) ↔ StepResolves c s plan := by
  rcases clmmTakeStep_eq_ok.1 hmoved with ⟨heq, -⟩ | ⟨-, step, hstep, -, -, rfl⟩
  · exact absurd heq hb
  · cases hfee : c.inputFee with
    | true =>
        have := (StepSpec.of_ok hr.le hmoved).progress hfee
        simp only [StepResolves, hfee, true_or, iff_true]
        exact this
    | false =>
        have hi := StepInput.of_ok hstep
        simp only [hfee, Bool.false_eq_true, if_false] at hstep hi
        simp only [StepResolves, stepRemaining, hfee, Bool.false_eq_true, if_false, false_or,
          sub_zero]
        rcases clmmSwapStep_cases hstep with ⟨hneeded, hprice, -⟩ |
          ⟨hneeded, hprice, hbeyond, -, hamount, -⟩
        · rw [netInput_zero] at hneeded
          simp [hprice, hneeded]
        · rw [netInput_zero] at hneeded hprice
          obtain ⟨hL, -⟩ := hi.target_strictlyBeyond (by rw [netInput_zero]; exact hneeded)
          have hnot : ¬ amountInTo s.current plan.bound s.liquidity c.down ≤ s.remaining := by
            omega
          rw [← amountIn_priceAfterInput_eq_iff hi.current_pos hL hr.le, ← hprice, ← hamount]
          simp only [hbeyond.ne, hnot, false_or]
          omega

end Step

/-! ### Landmarks -/

/-- Distinct initialized ticks and distinct group boundaries, all of them on the
path of the price from its start to the state `s`. -/
structure OnPath (c : ClmmSwap) (s : ClmmState) (crossed boundaries : List ℤ) : Prop where
  crossed_nodup : crossed.Nodup
  crossed_tick : ∀ t ∈ crossed, ∃ tk ∈ c.ticks, tk.tick = t ∧ tk.Initialized
  crossed_path : ∀ t ∈ crossed,
    Beyond c.down c.pool.sqrtPrice (tickPrice t) ∧ Beyond c.down (tickPrice t) s.current
  boundaries_nodup : boundaries.Nodup
  boundary_multiple : ∀ b ∈ boundaries, c.enabled = true ∧ b % c.pool.tickSpacing = 0 ∧
    minTick ≤ b ∧ b ≤ maxTick
  boundary_path : ∀ b ∈ boundaries,
    Beyond c.down c.pool.sqrtPrice (tickPrice b) ∧ Beyond c.down (tickPrice b) s.current

/-- The landmarks together with what keeps them from being met twice: crossed
ticks are no candidates any more, and the tracked group is past the boundaries. -/
structure Landmarks (c : ClmmSwap) (s : ClmmState) (crossed boundaries : List ℤ) : Prop
    extends OnPath c s crossed boundaries where
  crossed_passed : ∀ t ∈ crossed, ¬ (if c.down then t ≤ s.tick else s.tick < t)
  boundary_passed : ∀ b ∈ boundaries,
    if c.down then (s.group + 1) * c.pool.tickSpacing ≤ b else b ≤ s.group * c.pool.tickSpacing
  group_range : if c.down then s.group * c.pool.tickSpacing ≤ maxTick
    else minTick ≤ (s.group + 1) * c.pool.tickSpacing

section Landmarks

variable {c : ClmmSwap} {orders₀ : List ℤ} {s s' moved : ClmmState} {plan : ClmmPlan}
  {crossed boundaries : List ℤ}

theorem advanceGroup_group_stopped (he : c.enabled = true) (hs : plan.skipped = false) :
    (advanceGroup c plan s).group = s.group + (if c.down then -1 else 1) := by
  simp [advanceGroup, he, hs]

theorem advanceGroup_group_skipped (he : c.enabled = true) (hs : plan.skipped = true)
    (hcur : s.current = plan.nextPrice) (hmul : plan.nextTick % c.pool.tickSpacing = 0) :
    (advanceGroup c plan s).group =
      plan.nextTick / c.pool.tickSpacing - (if c.down then 1 else 0) := by
  cases hd : c.down
  · simp [advanceGroup, he, hs, hcur, hmul, hd]
  · simp [advanceGroup, he, hs, hcur, hd]
    omega

/-- The path only grows. -/
theorem OnPath.mono (h : OnPath c s crossed boundaries)
    (hadv : Beyond c.down s.current s'.current) :
    OnPath c s' crossed boundaries :=
  { h with
    crossed_path := fun t ht => ⟨(h.crossed_path t ht).1, (h.crossed_path t ht).2.trans hadv⟩
    boundary_path := fun b hb => ⟨(h.boundary_path b hb).1, (h.boundary_path b hb).2.trans hadv⟩ }

/-- A crossed tick behind the price stays passed when the tick is read off a
price further on. -/
theorem passed_of_tickAt {t tick p q : ℤ} {down : Bool} (ht : minTick ≤ t) (ht' : t ≤ maxTick)
    (hpath : Beyond down (tickPrice t) p) (hpq : StrictlyBeyond down p q)
    (htick : clmmTickAtSqrtPrice q = .ok tick) :
    ¬ (if down then t ≤ tick else tick < t) := by
  obtain ⟨hholds, hq⟩ := clmmTickAtSqrtPrice_spec htick
  obtain ⟨h₁, h₂, h₃, h₄⟩ := hholds.brackets hq
  have hlt := hpath.trans_strictly hpq
  cases down with
  | true =>
      have : tick < t := (tickTable.lt_iff h₁ h₂.le ht ht').1 (lt_of_le_of_lt h₃ hlt)
      simp only [if_true]
      omega
  | false =>
      have : t < tick + 1 :=
        (tickTable.lt_iff ht ht' (b := tick + 1) (h₁.trans (by omega)) (by exact h₂)).1
          (lt_of_lt_of_le hlt h₄)
      simp only [Bool.false_eq_true, if_false]
      omega

/-- A boundary that is met before the limit is not clamped: at the end of the tick range the
limit is met as well. -/
theorem groupBoundary_of_ne_limit (hc : c.Valid) {p : ℤ} (hl : Beyond c.down p c.limit)
    (hlimit : p ≠ c.limit) (hprice : p = tickPrice (groupBoundary c s.group))
    (hrange : if c.down then s.group * c.pool.tickSpacing ≤ maxTick
      else minTick ≤ (s.group + 1) * c.pool.tickSpacing) :
    groupBoundary c s.group =
      (if c.down then s.group else s.group + 1) * c.pool.tickSpacing := by
  have hnotmin : groupBoundary c s.group ≠ minTick ∨ c.down = false := by
    rw [or_iff_not_imp_right, Bool.not_eq_false]
    intro hd hmin
    have := hc.limit_ge
    rw [hmin, tickPrice_minTick] at hprice
    simp only [hd, beyond_true] at hl
    omega
  have hnotmax : groupBoundary c s.group ≠ maxTick ∨ c.down = true := by
    rw [or_iff_not_imp_right, Bool.not_eq_true]
    intro hd hmax
    have := hc.limit_le
    rw [hmax, tickPrice_maxTick] at hprice
    simp only [hd, beyond_false] at hl
    omega
  have hmm : minTick ≤ maxTick := minTick_le_maxTick
  simp only [groupBoundary] at hnotmin hnotmax ⊢
  cases hd : c.down <;> simp only [hd, if_true, Bool.false_eq_true, if_false, reduceCtorEq,
    or_false, or_true] at hnotmin hnotmax hrange ⊢ <;> omega

/-- An iteration that stops at a group boundary adds that boundary. -/
theorem Landmarks.pass (hc : c.Valid) (hinv : ClmmInvariant c orders₀ s)
    (h : Landmarks c s crossed boundaries) {tick : ℤ} (hplan : clmmPlan c s = .ok plan)
    (hmoved : clmmTakeStep c s plan = .ok moved) (hcur : moved.current ≠ plan.nextPrice)
    (htick : moved.current ≠ s.current ∧ clmmTickAtSqrtPrice moved.current = .ok tick ∨
      moved.current = s.current ∧ tick = moved.tick)
    (hbound : moved.current = plan.bound) (hlimit : moved.current ≠ c.limit) :
    ∃ b, Landmarks c (advanceGroup c plan { moved with tick }) crossed (b :: boundaries) := by
  have hp := PlanSpec.of_ok hc hplan
  have hm := StepSpec.of_ok hinv.remaining_nonneg hmoved
  have hi := hinv.step hc hplan hmoved
  have hsp := hc.spacing_pos
  obtain ⟨he, hskip, hprice⟩ : c.enabled = true ∧ plan.skipped = false ∧
      plan.bound = tickPrice (groupBoundary c s.group) := by
    rcases hp.bound_cases with hb | hb | hb
    · exact absurd (hbound.trans hb) hcur
    · exact absurd (hbound.trans hb) hlimit
    · exact hb
  have hrange := h.group_range
  have hbeq := groupBoundary_of_ne_limit hc hi.limit hlimit (hbound.trans hprice) hrange
  have hgroup := advanceGroup_group_stopped (s := { moved with tick }) he hskip
  have hpath := h.toOnPath.mono hm.advances
  refine ⟨groupBoundary c s.group, ?_⟩
  refine
    { crossed_nodup := h.crossed_nodup
      crossed_tick := h.crossed_tick
      crossed_path := by rw [advanceGroup_current]; exact hpath.crossed_path
      boundaries_nodup := List.nodup_cons.2 ⟨fun hmem => ?_, h.boundaries_nodup⟩
      boundary_multiple := ?_
      boundary_path := ?_
      crossed_passed := ?_
      boundary_passed := ?_
      group_range := ?_ }
  · have := h.boundary_passed _ hmem
    rw [hbeq] at this
    cases hd : c.down <;> simp [hd, add_mul] at this <;> omega
  · rintro b (_ | ⟨_, hb⟩)
    · refine ⟨he, ?_, groupBoundary_range _⟩
      rw [hbeq]
      exact Int.mul_emod_left _ _
    · exact h.boundary_multiple b hb
  · rw [advanceGroup_current]
    rintro b (_ | ⟨_, hb⟩)
    · rw [← hprice, ← hbound]
      exact ⟨hi.start, .refl _ _⟩
    · exact hpath.boundary_path b hb
  · rw [advanceGroup_tick]
    intro t ht
    dsimp only
    rcases htick with ⟨hne, htick⟩ | ⟨-, rfl⟩
    · obtain ⟨tk, htk, rfl, -⟩ := h.crossed_tick t ht
      have hr := hc.tick_range tk htk
      exact passed_of_tickAt hr.1 hr.2 (h.crossed_path _ ht).2
        (strictlyBeyond_iff.2 ⟨hm.advances, hne.symm⟩) htick
    · rw [hm.tick_eq]
      exact h.crossed_passed t ht
  · rw [hgroup]
    dsimp only
    rw [hm.group_eq]
    rintro b (_ | ⟨_, hb⟩)
    · rw [hbeq]
      cases hd : c.down <;> simp
    · have := h.boundary_passed b hb
      cases hd : c.down <;> simp [hd, add_mul] at this ⊢ <;> omega
  · rw [hgroup]
    dsimp only
    rw [hm.group_eq]
    cases hd : c.down <;> simp [hd, add_mul] at hrange ⊢ <;> omega

/-- A boundary that the price has met before a tick lies behind the group that the tick begins. -/
theorem passed_of_beyond {down : Bool} {spacing tick b : ℤ} (hmul : tick % spacing = 0)
    (hrange : minTick ≤ tick ∧ tick ≤ maxTick) (hb : minTick ≤ b ∧ b ≤ maxTick)
    (hpath : Beyond down (tickPrice b) (tickPrice tick)) :
    if down then (tick / spacing - (if down then 1 else 0) + 1) * spacing ≤ b
      else b ≤ (tick / spacing - (if down then 1 else 0)) * spacing := by
  have hdiv := Int.ediv_mul_cancel (Int.dvd_of_emod_eq_zero hmul)
  cases down with
  | true =>
      have hle : tick ≤ b := (tickTable.le_iff hrange.1 hrange.2 hb.1 hb.2).1 hpath
      simp only [if_true]
      rw [sub_add_cancel, hdiv]
      exact hle
  | false =>
      have hle : b ≤ tick := (tickTable.le_iff hb.1 hb.2 hrange.1 hrange.2).1 hpath
      simp only [Bool.false_eq_true, if_false, sub_zero]
      rw [hdiv]
      exact hle

/-- Crossing a tick makes it a landmark, unless filling its orders uses the
input up. -/
theorem Landmarks.cross (hc : c.Valid) (hinv : ClmmInvariant c orders₀ s)
    (horders : OrdersOf c orders₀)
    (h : Landmarks c s crossed boundaries) {filled out : ClmmState} {t : ClmmTick} {i : ℕ}
    (hplan : clmmPlan c s = .ok plan) (hmoved : clmmTakeStep c s plan = .ok moved)
    (hcur : moved.current = plan.nextPrice) (hnext : plan.next = some (t, i))
    (hfill : clmmFillOrders c moved plan.fee i = .ok filled)
    (hcross : clmmCrossTick c filled t i = .ok out) (hr : s.remaining ≠ 0)
    (hr' : out.remaining ≠ 0) :
    Landmarks c (advanceGroup c plan out) (t.tick :: crossed) boundaries := by
  have hp := PlanSpec.of_ok hc hplan
  have hm := StepSpec.of_ok hinv.remaining_nonneg hmoved
  have hi := hinv.step hc hplan hmoved
  have hf := FillSpec.of_ok (hp.index_lt hi hnext) hi.remaining_nonneg hp.fee_nonneg hp.fee_le
    (hi.orders_nonneg _) hfill
  obtain ⟨hcand, hnt⟩ := hp.next_index hnext
  have hside := hcand.2.2
  have hmem := hcand.mem
  have hrange := hc.tick_range t hmem
  have hmul := hc.tick_spacing t hmem
  have hsp := hc.spacing_pos
  obtain ⟨hocur, horem, -, -, hogroup, hotick⟩ := clmmCrossTick_frame hcross
  have hleft : filled.orders.getD i 0 = 0 := hf.exhausts.resolve_right (horem ▸ hr')
  rw [hf.group_eq, hm.group_eq] at hogroup
  rw [hf.current_eq, hcur] at hocur
  have hprice : plan.nextPrice = tickPrice t.tick := by rw [hp.nextPrice_eq, hnt]
  have hpath : OnPath c out crossed boundaries :=
    h.toOnPath.mono (hocur.trans hcur.symm ▸ hm.advances)
  refine
    { crossed_nodup := List.nodup_cons.2 ⟨fun hold => h.crossed_passed _ hold hside,
        h.crossed_nodup⟩
      crossed_tick := ?_
      crossed_path := ?_
      boundaries_nodup := h.boundaries_nodup
      boundary_multiple := h.boundary_multiple
      boundary_path := by rw [advanceGroup_current]; exact hpath.boundary_path
      crossed_passed := ?_
      boundary_passed := ?_
      group_range := ?_ }
  · rintro u (_ | ⟨_, hu⟩)
    · exact ⟨t, hmem, rfl, hcand.initialized hinv horders hr⟩
    · exact h.crossed_tick u hu
  · rw [advanceGroup_current]
    rintro u (_ | ⟨_, hu⟩)
    · rw [← hprice, ← hcur, hocur, hcur]
      exact ⟨hcur ▸ hi.start, .refl _ _⟩
    · exact hpath.crossed_path u hu
  · rw [advanceGroup_tick, hotick, hleft]
    rintro u (_ | ⟨_, hu⟩)
    · cases hd : c.down <;> simp
    · have := h.crossed_passed u hu
      cases hd : c.down <;> simp [hd] at this hside ⊢ <;> omega
  · intro b hb
    have hold := h.boundary_passed b hb
    obtain ⟨he, -, hb₁, hb₂⟩ := h.boundary_multiple b hb
    cases hs : plan.skipped with
    | false =>
        rw [advanceGroup_group_stopped he hs, hogroup]
        cases hd : c.down <;> simp [hd, add_mul] at hold ⊢ <;> omega
    | true =>
        rw [advanceGroup_group_skipped he hs hocur (hnt ▸ hmul), hnt]
        have hb := (hpath.boundary_path b hb).2
        rw [hocur, hprice] at hb
        exact passed_of_beyond hmul hrange ⟨hb₁, hb₂⟩ hb
  · have hold := h.group_range
    cases he : c.enabled with
    | false =>
        simp only [advanceGroup, he, Bool.false_eq_true, if_false]
        rw [hogroup]
        exact hold
    | true =>
        cases hs : plan.skipped with
        | false =>
            rw [advanceGroup_group_stopped he hs, hogroup]
            cases hd : c.down <;> simp [hd, add_mul] at hold ⊢ <;> omega
        | true =>
            rw [advanceGroup_group_skipped he hs hocur (hnt ▸ hmul), hnt]
            have hdiv := Int.ediv_mul_cancel (Int.dvd_of_emod_eq_zero hmul)
            cases hd : c.down <;> simp [sub_mul, add_mul] <;> omega

/-- Each iteration that does not end the swap adds one landmark, provided that
its step makes progress. -/
theorem Landmarks.next (hc : c.Valid) (hinv : ClmmInvariant c orders₀ s)
    (horders : OrdersOf c orders₀)
    (h : Landmarks c s crossed boundaries) (hr : s.remaining ≠ 0)
    (hprogress : ∀ plan moved, clmmPlan c s = .ok plan → clmmTakeStep c s plan = .ok moved →
      moved.current = plan.bound ∨ moved.remaining = 0)
    (ht : ClmmTransition c s s') (hr' : s'.remaining ≠ 0) (hl' : s'.current ≠ c.limit) :
    ∃ crossed' boundaries', Landmarks c s' crossed' boundaries' ∧
      crossed'.length + boundaries'.length = crossed.length + boundaries.length + 1 := by
  cases ht with
  | @cross plan moved filled out t i hplan hmoved hcur hnext hfill hcross =>
      rw [advanceGroup_remaining] at hr'
      exact ⟨t.tick :: crossed, boundaries,
        h.cross hc hinv horders hplan hmoved hcur hnext hfill hcross hr hr',
        by simp only [List.length_cons]; omega⟩
  | @pass plan moved tick hplan hmoved hcur htick =>
      rw [advanceGroup_remaining] at hr'
      rw [advanceGroup_current] at hl'
      have hbound := (hprogress plan moved hplan hmoved).resolve_right hr'
      obtain ⟨b, hb⟩ := h.pass hc hinv hplan hmoved hcur htick hbound hl'
      exact ⟨crossed, b :: boundaries, hb, by simp only [List.length_cons]; omega⟩

end Landmarks

/-! ### The budget -/

section Budget

variable {c : ClmmSwap} {s : ClmmState}

theorem unsigned_ne_budget (v maximum : ℤ) : unsigned v maximum ≠ .error .clmmBudgetExhausted :=
  unsigned_ne_error (by decide)

theorem clmmPlan_ne_budget : clmmPlan c s ≠ .error .clmmBudgetExhausted := by
  have htick : ∀ t, clmmSqrtPriceAtTick t ≠ .error .clmmBudgetExhausted :=
    fun _ => bind_ne_error (require_ne_error (by decide)) fun _ => pure_ne_error
  exact bind_ne_error (htick _) fun _ => ite_ne_error
    (ite_ne_error pure_ne_error (bind_ne_error (htick _) fun _ => pure_ne_error)) pure_ne_error

theorem clmmTakeStep_ne_budget {plan : ClmmPlan} :
    clmmTakeStep c s plan ≠ .error .clmmBudgetExhausted := by
  unfold clmmTakeStep
  split
  · exact bind_ne_error (clmmSwapStep_ne_error (by decide) (by decide) (by decide) (by decide))
      fun _ => bind_ne_error (unsigned_ne_budget _ _) fun _ =>
      bind_ne_error (unsigned_ne_budget _ _) fun _ => pure_ne_error
  · simp

theorem clmmFillOrders_ne_budget {fee : ℤ} {i : ℕ} :
    clmmFillOrders c s fee i ≠ .error .clmmBudgetExhausted := by
  unfold clmmFillOrders
  split
  · refine bind_ne_error (require_ne_error (by decide)) fun _ => bind_ne_error ?_ fun _ =>
      bind_ne_error (unsigned_ne_budget _ _) fun _ => bind_ne_error (unsigned_ne_budget _ _)
      fun _ => bind_ne_error (unsigned_ne_budget _ _) fun _ => pure_ne_error
    exact ite_ne_error (bind_ne_error (unsigned_ne_budget _ _) fun _ => pure_ne_error)
      pure_ne_error
  · simp

theorem clmmCrossTick_ne_budget {t : ClmmTick} {i : ℕ} :
    clmmCrossTick c s t i ≠ .error .clmmBudgetExhausted := by
  exact bind_ne_error (ite_ne_error (unsigned_ne_budget _ _) pure_ne_error) fun _ => pure_ne_error

theorem clmmIteration_ne_budget : clmmIteration c s ≠ .error .clmmBudgetExhausted := by
  unfold clmmIteration
  split
  · simp
  · refine bind_ne_error clmmPlan_ne_budget fun plan => bind_ne_error clmmTakeStep_ne_budget
      fun moved => ?_
    split
    · split
      · exact pure_ne_error
      · exact bind_ne_error clmmFillOrders_ne_budget fun _ =>
          bind_ne_error clmmCrossTick_ne_budget fun _ => pure_ne_error
    · split
      · refine bind_ne_error ?_ fun _ => pure_ne_error
        exact bind_ne_error (unsigned_ne_budget _ _) fun _ =>
          bind_ne_error (require_ne_error (by decide)) fun _ => pure_ne_error
      · exact pure_ne_error

theorem clmmPrepare_ne_budget {pool : ClmmPool} {ticks : List ClmmTick}
    {amount limit feeOn timestamp : ℤ} {dynamic : List UInt8} {down : Bool} :
    clmmPrepare pool ticks amount limit feeOn dynamic timestamp down ≠
      .error .clmmBudgetExhausted := by
  have hu := unsigned_ne_budget
  refine bind_ne_error ?_ fun _ => bind_ne_error (require_ne_error (by decide)) fun _ =>
    bind_ne_error ?_ fun _ => bind_ne_error (require_ne_error (by decide)) fun _ =>
    bind_ne_error ?_ fun _ => bind_ne_error ?_ fun _ => pure_ne_error
  · exact bind_ne_error (hu _ _) fun _ => bind_ne_error (hu _ _) fun _ =>
      bind_ne_error (hu _ _) fun _ => bind_ne_error (hu _ _) fun _ =>
      bind_ne_error (hu _ _) fun _ => bind_ne_error (hu _ _) fun _ =>
      bind_ne_error (hu _ _) fun _ => bind_ne_error (hu _ _) fun _ =>
      bind_ne_error (require_ne_error (by decide)) fun _ => require_ne_error (by decide)
  · exact ite_ne_error (require_ne_error (by decide)) pure_ne_error
  · exact forM_ne_error (fun _ => bind_ne_error (require_ne_error (by decide)) fun _ =>
      bind_ne_error (hu _ _) fun _ => pure_ne_error) _
  · exact mapM_ne_error (fun _ => bind_ne_error (hu _ _) fun _ => bind_ne_error (hu _ _) fun _ =>
      hu _ _) _

end Budget

/-! ### Whole runs -/

section Run

variable {pool : ClmmPool} {ticks : List ClmmTick} {amount limit feeOn timestamp : ℤ}
  {dynamic : List UInt8} {down : Bool} {c : ClmmSwap} {s₀ s : ClmmState}

theorem Landmarks.init
    (h : clmmPrepare pool ticks amount limit feeOn dynamic timestamp down = .ok (c, s₀)) :
    Landmarks c s₀ [] [] := by
  have hc := ClmmSwap.Valid.of_prepare h
  obtain ⟨hpool, -, -, -, -, -, hceq, -, hseq⟩ := clmmPrepare_eq_ok.1 h
  obtain ⟨-, -, -, -, htick, -⟩ := checkPool_eq_ok.1 hpool
  have hsp := hc.spacing_pos
  have hspacing : c.pool.tickSpacing = pool.tickSpacing := by rw [hceq]
  have hgroup : s₀.group = pool.tickCurrent / c.pool.tickSpacing := by rw [hseq, hspacing]
  refine
    { crossed_nodup := .nil
      crossed_tick := by simp
      crossed_path := by simp
      boundaries_nodup := .nil
      boundary_multiple := by simp
      boundary_path := by simp
      crossed_passed := by simp
      boundary_passed := by simp
      group_range := ?_ }
  have hlow := Rounding.floor_mul_le pool.tickCurrent hsp
  have hhigh := Int.lt_ediv_add_one_mul_self pool.tickCurrent hsp
  rw [hgroup]
  split <;> omega

/-- Every step taken in the run is one that resolves. -/
def StepsResolve (c : ClmmSwap) (s₀ : ClmmState) : Prop :=
  ∀ s plan, Reaches (clmmIteration c) s₀ s → s.remaining ≠ 0 → s.current ≠ c.limit →
    clmmPlan c s = .ok plan → s.current ≠ plan.bound → StepResolves c s plan

/-- A run that is still going after `k` iterations has met `k` landmarks. -/
theorem landmarks_of_steps
    (h : clmmPrepare pool ticks amount limit feeOn dynamic timestamp down = .ok (c, s₀))
    (hres : StepsResolve c s₀) {k : ℕ} (hk : Steps (clmmIteration c) k s₀ s)
    (hr : s.remaining ≠ 0) (hl : s.current ≠ c.limit) :
    ∃ crossed boundaries, Landmarks c s crossed boundaries ∧
      crossed.length + boundaries.length = k := by
  have hc := ClmmSwap.Valid.of_prepare h
  induction hk with
  | refl => exact ⟨[], [], Landmarks.init h, rfl⟩
  | @snoc k _ t u hk hb ih =>
      obtain ⟨htr, htl, htrans⟩ := clmmIteration_next.1 hb
      obtain ⟨crossed, boundaries, hmarks, hlen⟩ := ih h hres htr htl
      have hinv := ClmmInvariant.of_reaches hc (ClmmInvariant.init h) hk.reaches
      have hpos : 0 < t.remaining := lt_of_le_of_ne hinv.remaining_nonneg htr.symm
      obtain ⟨crossed', boundaries', hmarks', hlen'⟩ :=
        hmarks.next hc hinv (orders_of_prepare h) htr (fun plan moved hplan hmoved => by
          by_cases hb : t.current = plan.bound
          · rcases clmmTakeStep_eq_ok.1 hmoved with ⟨-, rfl⟩ | ⟨hne, -⟩
            · exact .inl hb
            · exact absurd hb hne
          · exact (takeStep_progress_iff hpos hmoved hb).2
              (hres t plan hk.reaches htr htl hplan hb)) htrans hr hl
      exact ⟨crossed', boundaries', hmarks', by omega⟩

/-- Crossed ticks are among the initialized ones. -/
theorem OnPath.crossed_length_le {crossed boundaries : List ℤ}
    (h : OnPath c s crossed boundaries) :
    crossed.length ≤ (c.ticks.filter (·.Initialized)).length := by
  have hsub : crossed ⊆ (c.ticks.filter (·.Initialized)).map (·.tick) := by
    intro t ht
    obtain ⟨tk, htk, rfl, hinit⟩ := h.crossed_tick t ht
    exact List.mem_map_of_mem (List.mem_filter.2 ⟨htk, by simpa using hinit⟩)
  simpa using (List.subperm_of_subset h.crossed_nodup hsub).length_le

/-- Without group boundaries only the initialized ticks take iterations. -/
theorem steps_le_of_disabled
    (h : clmmPrepare pool ticks amount limit feeOn dynamic timestamp down = .ok (c, s₀))
    (hres : StepsResolve c s₀) (he : c.enabled = false) {k : ℕ}
    (hk : Steps (clmmIteration c) k s₀ s) :
    k ≤ (c.ticks.filter (·.Initialized)).length + 1 := by
  cases hk with
  | refl => omega
  | @snoc k _ t _ hk hb =>
      obtain ⟨htr, htl, -⟩ := clmmIteration_next.1 hb
      obtain ⟨crossed, boundaries, hmarks, hlen⟩ := landmarks_of_steps h hres hk htr htl
      have hnone : boundaries = [] := List.eq_nil_iff_forall_not_mem.2 fun b hb => by
        have := (hmarks.boundary_multiple b hb).1
        simp [he] at this
      have hle := hmarks.toOnPath.crossed_length_le
      simp only [hnone, List.length_nil] at hlen
      omega

/-- Progress of the CLMM traversal. A step that is taken reaches its bound or
uses the input up exactly when it resolves. Where all steps do, the budget runs
out only on a path with 8192 distinct initialized ticks and group boundaries,
and without dynamic fees the iteration after the `n + 1`st, for `n` initialized
ticks, is the last. -/
theorem clmmSwapExactIn_progress
    (h : clmmPrepare pool ticks amount limit feeOn dynamic timestamp down = .ok (c, s₀)) :
    (∀ s plan moved, Reaches (clmmIteration c) s₀ s → s.remaining ≠ 0 → s.current ≠ c.limit →
      clmmPlan c s = .ok plan → clmmTakeStep c s plan = .ok moved → s.current ≠ plan.bound →
      (moved.current = plan.bound ∨ moved.remaining = 0 ↔ StepResolves c s plan)) ∧
    (StepsResolve c s₀ →
      (clmmSwapExactIn pool ticks amount limit feeOn dynamic timestamp down =
          .error .clmmBudgetExhausted →
        ∃ s crossed boundaries, Reaches (clmmIteration c) s₀ s ∧ OnPath c s crossed boundaries ∧
          crossed.length + boundaries.length = 8192) ∧
      ((∀ b ∈ dynamic, b = 0) → ∀ k s, Steps (clmmIteration c) k s₀ s →
        k ≤ (ticks.filter (·.Initialized)).length + 1)) := by
  have hc := ClmmSwap.Valid.of_prepare h
  have hinv := fun {s} => ClmmInvariant.of_reaches (s := s) hc (ClmmInvariant.init h)
  refine ⟨fun s plan moved hs hr _ _ hmoved hb => ?_, fun hres => ⟨fun herr => ?_, ?_⟩⟩
  · exact takeStep_progress_iff (lt_of_le_of_ne (hinv hs).remaining_nonneg hr.symm) hmoved hb
  · rcases bind_eq_error.1 herr with hprep | ⟨⟨c', s₀'⟩, hprep, hrun⟩
    · exact absurd hprep clmmPrepare_ne_budget
    · rw [h] at hprep
      cases hprep
      obtain ⟨s, hs, hbody | ⟨u, hbrk, hu⟩ | ⟨hn, hafter⟩⟩ := run_error hrun
      · exact absurd hbody clmmIteration_ne_budget
      · simp [clmmFinish, (hinv hs).break_at_limit hc hbrk] at hu
      · have hgoing : s.remaining ≠ 0 ∧ s.current ≠ c.limit := by
          by_contra hdone
          simp [clmmFinish, hdone] at hafter
        obtain ⟨crossed, boundaries, hmarks, hlen⟩ :=
          landmarks_of_steps h hres hn hgoing.1 hgoing.2
        exact ⟨s, crossed, boundaries, hs, hmarks.toOnPath, hlen⟩
  · intro hzero k s hk
    obtain ⟨-, -, -, -, -, -, hceq, -, -⟩ := clmmPrepare_eq_ok.1 h
    have hticks : c.ticks = ticks := by rw [hceq]
    have he : c.enabled = false := by
      rw [hceq]
      simpa using hzero
    exact hticks ▸ steps_le_of_disabled h hres he hk

end Run

/-- A swap up to its limit with the fee on the output, with more input than that costs. -/
def resolvingSwap : ClmmSwap :=
  { pool := ⟨2 ^ 64, 1000000, 0, 60, 3000⟩, ticks := [], amount := 4000, limit := tickPrice 60
    down := false, inputFee := false, enabled := false, reference := 0, volatilityReference := 0
    maximum := 0, control := 0 }

def resolvingStart : ClmmState :=
  { current := 2 ^ 64, tick := 0, liquidity := 1000000, remaining := 4000, output := 0
    orders := [], group := 0 }

theorem resolvingSwap_resolves : StepsResolve resolvingSwap resolvingStart := by
  have hfirst : clmmIteration resolvingSwap resolvingStart =
      .ok (.next { resolvingStart with
        current := tickPrice 60
        tick := 60
        remaining := 995
        output := 2986 }) := by decide +kernel
  intro s plan hs hr hl hplan hb
  have hcases : s = resolvingStart ∨ s.current = resolvingSwap.limit := by
    refine hs.invariant (I := fun s => s = resolvingStart ∨ s.current = resolvingSwap.limit)
      (fun u v hu hnext => ?_) (.inl rfl)
    rcases hu with rfl | hlimit
    · rw [hfirst] at hnext
      cases hnext
      exact .inr rfl
    · exact absurd hlimit (clmmIteration_next.1 hnext).2.1
  obtain rfl := hcases.resolve_right hl
  have hstart : clmmPlan resolvingSwap resolvingStart =
      .ok ⟨none, maxTick, maxSqrtPrice, 3000, true, tickPrice 60⟩ := by decide +kernel
  rw [hstart] at hplan
  cases hplan
  exact .inr (.inl (by decide +kernel))

/-- Every step resolves: with the fee on the input, and on the output where the one step reaches
the limit. -/
theorem clmmSwapExactIn_progress_resolving :
    (∃ c s₀, clmmPrepare ⟨2 ^ 64, 1000000, 0, 60, 3000⟩ [⟨-60, 5, 10, 500, 300⟩] 4000
        (tickPrice (-120)) 0 (List.replicate 80 0) 100 true = .ok (c, s₀) ∧
      StepsResolve c s₀ ∧ ∀ k s, Steps (clmmIteration c) k s₀ s → k ≤ 2) ∧
    clmmPrepare ⟨2 ^ 64, 1000000, 0, 60, 3000⟩ [] 4000 (tickPrice 60) 1 (List.replicate 80 0) 100
        false = .ok (resolvingSwap, resolvingStart) ∧
      StepsResolve resolvingSwap resolvingStart ∧
      ∀ k s, Steps (clmmIteration resolvingSwap) k resolvingStart s → k ≤ 1 := by
  constructor
  · obtain ⟨⟨c, s₀⟩, h⟩ : ∃ cs, clmmPrepare ⟨2 ^ 64, 1000000, 0, 60, 3000⟩
        [⟨-60, 5, 10, 500, 300⟩] 4000 (tickPrice (-120)) 0 (List.replicate 80 0) 100 true =
          .ok cs := exists_of_isOk (by decide +kernel)
    have hres : StepsResolve c s₀ := by
      obtain ⟨-, -, -, -, -, -, hceq, -, -⟩ := clmmPrepare_eq_ok.1 h
      exact fun _ _ _ _ _ _ _ => .inl (by rw [hceq]; rfl)
    exact ⟨c, s₀, h, hres,
      ((clmmSwapExactIn_progress h).2 hres).2 fun _ => List.eq_of_mem_replicate⟩
  · have h : clmmPrepare ⟨2 ^ 64, 1000000, 0, 60, 3000⟩ [] 4000 (tickPrice 60) 1
        (List.replicate 80 0) 100 false = .ok (resolvingSwap, resolvingStart) := by decide +kernel
    exact ⟨h, resolvingSwap_resolves,
      ((clmmSwapExactIn_progress h).2 resolvingSwap_resolves).2 fun _ => List.eq_of_mem_replicate⟩

/-- A swap up with the fee on the output, in a pool where a price unit costs
four units of input. -/
def idlingSwap : ClmmSwap :=
  { pool := ⟨2 ^ 64, 2 ^ 66, 0, 60, 3000⟩, ticks := [], amount := 1000001, limit := tickPrice 60
    down := false, inputFee := false, enabled := false, reference := 0, volatilityReference := 0
    maximum := 0, control := 0 }

def idlingStart : ClmmState :=
  { current := 2 ^ 64, tick := 0, liquidity := 2 ^ 66, remaining := 1000001, output := 0
    orders := [], group := 0 }

/-- One unit of the input is left, which buys no price. -/
def idlingState : ClmmState :=
  { idlingStart with current := 2 ^ 64 + 250000, remaining := 1, output := 996999 }

/-- The step that leaves a unit is followed by steps that neither move the price
nor spend it, and the budget runs out without a tick or a boundary in sight. -/
theorem clmmSwapExactIn_idles :
    clmmPrepare ⟨2 ^ 64, 2 ^ 66, 0, 60, 3000⟩ [] 1000001 (tickPrice 60) 1 (List.replicate 80 0)
        100 false = .ok (idlingSwap, idlingStart) ∧
      Reaches (clmmIteration idlingSwap) idlingStart idlingState ∧
      (∃ plan, clmmPlan idlingSwap idlingState = .ok plan ∧ idlingState.current ≠ plan.bound ∧
        clmmTakeStep idlingSwap idlingState plan = .ok idlingState) ∧
      idlingState.remaining ≠ 0 ∧
      clmmSwapExactIn ⟨2 ^ 64, 2 ^ 66, 0, 60, 3000⟩ [] 1000001 (tickPrice 60) 1
        (List.replicate 80 0) 100 false = .error .clmmBudgetExhausted := by
  have hprep : clmmPrepare ⟨2 ^ 64, 2 ^ 66, 0, 60, 3000⟩ [] 1000001 (tickPrice 60) 1
      (List.replicate 80 0) 100 false = .ok (idlingSwap, idlingStart) := by decide +kernel
  have hfirst : clmmIteration idlingSwap idlingStart = .ok (.next idlingState) := by decide +kernel
  have hidle : clmmIteration idlingSwap idlingState = .ok (.next idlingState) := by decide +kernel
  have hplan : clmmPlan idlingSwap idlingState =
      .ok ⟨none, maxTick, maxSqrtPrice, 3000, true, tickPrice 60⟩ := by decide +kernel
  refine ⟨hprep, (Reaches.refl _).snoc hfirst, ⟨_, hplan, by decide +kernel, by decide +kernel⟩,
    by decide, ?_⟩
  rw [clmmSwapExactIn, hprep, ok_bind]
  dsimp only
  rw [show 8192 = 8191 + 1 from rfl, run_next hfirst, run_of_fixpoint hidle]
  decide +kernel

end SolTrade.Clmm
