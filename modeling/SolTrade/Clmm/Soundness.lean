import SolTrade.Clmm.Iteration

/-!
The invariants of the CLMM traversal.

`ClmmInvariant` is the accounting: the input is only ever spent, the price only
moves towards the limit, and an order is filled in part only by the last of the
input. `TickConsistent` is the bookkeeping of tick and price, whose conventions
after a crossing differ between the two directions.
-/

namespace SolTrade.Clmm

open Library BoundedLoop

structure ClmmInvariant (c : ClmmSwap) (orders₀ : List ℤ) (s : ClmmState) : Prop where
  remaining_nonneg : 0 ≤ s.remaining
  remaining_le : s.remaining ≤ c.amount
  start : Beyond c.down c.pool.sqrtPrice s.current
  limit : Beyond c.down s.current c.limit
  orders_length : s.orders.length = c.ticks.length
  orders_nonneg : ∀ i, 0 ≤ s.orders.getD i 0
  orders_eq : ∀ i, s.orders.getD i 0 = orders₀.getD i 0 ∨ s.orders.getD i 0 = 0 ∨ s.remaining = 0

/-- A tick with liquidity or orders. -/
def ClmmTick.Initialized (t : ClmmTick) : Prop :=
  t.liquidityGross ≠ 0 ∨ t.orders + t.partialOrders ≠ 0

instance (t : ClmmTick) : Decidable t.Initialized :=
  inferInstanceAs (Decidable (_ ∨ _))

/-- The amounts on order that the tick list gives. -/
def OrdersOf (c : ClmmSwap) (orders : List ℤ) : Prop :=
  ∀ i t, c.ticks[i]? = some t → orders.getD i 0 = t.orders + t.partialOrders

section Frame

variable {c : ClmmSwap} {plan : ClmmPlan} {s : ClmmState}

@[simp] theorem advanceGroup_current : (advanceGroup c plan s).current = s.current := by
  unfold advanceGroup
  split <;> rfl

@[simp] theorem advanceGroup_tick : (advanceGroup c plan s).tick = s.tick := by
  unfold advanceGroup
  split <;> rfl

@[simp] theorem advanceGroup_remaining : (advanceGroup c plan s).remaining = s.remaining := by
  unfold advanceGroup
  split <;> rfl

@[simp] theorem advanceGroup_orders : (advanceGroup c plan s).orders = s.orders := by
  unfold advanceGroup
  split <;> rfl

theorem getD_set_eq (orders : List ℤ) (i j : ℕ) (v : ℤ) :
    (orders.set i v).getD j 0 = if i = j ∧ i < orders.length then v else orders.getD j 0 := by
  simp only [List.getD_eq_getElem?_getD, List.getElem?_set]
  split
  · rename_i h
    subst h
    split
    · simp [*]
    · rename_i hlt
      simp [hlt]
  · simp [*]

end Frame

section Step

variable {c : ClmmSwap} {orders₀ : List ℤ} {s s' moved : ClmmState} {plan : ClmmPlan}

theorem ClmmInvariant.current_le (hc : c.Valid) (h : ClmmInvariant c orders₀ s) :
    s.current ≤ maxSqrtPrice := by
  have h₁ := h.start
  have h₂ := h.limit
  have h₃ := hc.price_le
  have h₄ := hc.limit_le
  cases hd : c.down <;> simp [hd] at h₁ h₂ <;> omega

/-- A step keeps the accounting. -/
theorem ClmmInvariant.step (hc : c.Valid) (h : ClmmInvariant c orders₀ s)
    (hplan : clmmPlan c s = .ok plan) (hmoved : clmmTakeStep c s plan = .ok moved) :
    ClmmInvariant c orders₀ moved := by
  have hp := PlanSpec.of_ok hc hplan
  have hm := StepSpec.of_ok h.remaining_nonneg hmoved
  exact
    { remaining_nonneg := hm.remaining_nonneg
      remaining_le := hm.remaining_le.trans h.remaining_le
      start := h.start.trans hm.advances
      limit := hm.within_bound.trans hp.bound_limit
      orders_length := by rw [hm.orders_eq]; exact h.orders_length
      orders_nonneg := fun i => by rw [hm.orders_eq]; exact h.orders_nonneg i
      orders_eq := fun i => by
        rw [hm.orders_eq]
        refine (h.orders_eq i).imp_right (Or.imp_right fun h0 => ?_)
        have h₁ := hm.remaining_nonneg
        have h₂ := hm.remaining_le
        omega }

/-- What the loop meets as a tick to cross was initialized from the start. -/
theorem IsCandidate.initialized {t : ClmmTick} {i : ℕ} (h : IsCandidate c s t i)
    (hinv : ClmmInvariant c orders₀ s) (horders : OrdersOf c orders₀) (hr : s.remaining ≠ 0) :
    t.Initialized := by
  obtain ⟨hget, hlive, -⟩ := h
  refine hlive.imp_right fun ho => ?_
  rw [← horders i t hget]
  rcases hinv.orders_eq i with heq | h0 | h0
  · rwa [← heq]
  · exact absurd h0 ho
  · exact absurd h0 hr

/-- The tick that is crossed is in the list, at the position the orders use. -/
theorem PlanSpec.next_index {t : ClmmTick} {i : ℕ} (hp : PlanSpec c s plan)
    (hnext : plan.next = some (t, i)) :
    IsCandidate c s t i ∧ plan.nextTick = t.tick := by
  refine ⟨(nextInitialized_some (hp.next_eq.symm.trans hnext)).1, ?_⟩
  rw [hp.nextTick_eq, hnext]
  rfl

theorem PlanSpec.index_lt {t : ClmmTick} {i : ℕ} (hp : PlanSpec c s plan)
    (hinv : ClmmInvariant c orders₀ moved) (hnext : plan.next = some (t, i)) :
    i < moved.orders.length := by
  rw [hinv.orders_length]
  exact (List.getElem?_eq_some_iff.1 (hp.next_index hnext).1.1).1

/-- Filling the orders at a tick keeps the accounting. -/
theorem ClmmInvariant.fill {filled : ClmmState} {i : ℕ} (h : ClmmInvariant c orders₀ s)
    (hs : FillSpec s i filled) : ClmmInvariant c orders₀ filled := by
  have hget : ∀ j, filled.orders.getD j 0 = filled.orders.getD i 0 ∨
      filled.orders.getD j 0 = s.orders.getD j 0 := by
    intro j
    rw [hs.orders_eq, getD_set_eq, getD_set_eq]
    split
    · rename_i hij
      exact .inl (by rw [if_pos ⟨rfl, hij.2⟩])
    · exact .inr rfl
  have hrem₀ := hs.remaining_nonneg
  have hrem := hs.remaining_le
  exact
    { remaining_nonneg := hrem₀
      remaining_le := hrem.trans h.remaining_le
      start := hs.current_eq ▸ h.start
      limit := hs.current_eq ▸ h.limit
      orders_length := by rw [hs.orders_eq, List.length_set]; exact h.orders_length
      orders_nonneg := fun j => by
        rcases hget j with hj | hj <;> rw [hj]
        · exact hs.order_nonneg
        · exact h.orders_nonneg j
      orders_eq := fun j => by
        rcases hget j with hj | hj <;> rw [hj]
        · exact .inr hs.exhausts
        · exact (h.orders_eq j).imp_right (Or.imp_right fun h0 => by omega) }

/-- The accounting is kept by every iteration. -/
theorem ClmmInvariant.next (hc : c.Valid) (h : ClmmInvariant c orders₀ s)
    (ht : ClmmTransition c s s') : ClmmInvariant c orders₀ s' := by
  have hgroup : ∀ (u v : ClmmState), ClmmInvariant c orders₀ u → v.current = u.current →
      v.remaining = u.remaining → v.orders = u.orders → ClmmInvariant c orders₀ v := by
    intro u v hu h₁ h₂ h₃
    exact ⟨h₂ ▸ hu.1, h₂ ▸ hu.2, h₁ ▸ hu.3, h₁ ▸ hu.4, h₃ ▸ hu.5, h₃ ▸ hu.6, h₃ ▸ h₂ ▸ hu.7⟩
  cases ht with
  | cross hplan hmoved hcur hnext hfill hcross =>
      have hp := PlanSpec.of_ok hc hplan
      have hm := h.step hc hplan hmoved
      have hf := FillSpec.of_ok (hp.index_lt hm hnext) hm.remaining_nonneg hp.fee_nonneg hp.fee_le
        (hm.orders_nonneg _) hfill
      obtain ⟨_, -, rfl⟩ := clmmCrossTick_eq_ok.1 hcross
      exact hgroup _ _ (hm.fill hf) (by simp) (by simp) (by simp)
  | pass hplan hmoved hcur htick =>
      exact hgroup _ _ (h.step hc hplan hmoved) (by simp) (by simp) (by simp)

/-- The price only moves in the direction of the swap. -/
theorem ClmmTransition.advances (hr : 0 ≤ s.remaining) (ht : ClmmTransition c s s') :
    Beyond c.down s.current s'.current := by
  cases ht with
  | cross hplan hmoved hcur hnext hfill hcross =>
      obtain ⟨_, -, rfl⟩ := clmmCrossTick_eq_ok.1 hcross
      rw [advanceGroup_current]
      dsimp only
      rw [(clmmFillOrders_frame hfill).1]
      exact (StepSpec.of_ok hr hmoved).advances
  | pass hplan hmoved hcur htick =>
      rw [advanceGroup_current]
      exact (StepSpec.of_ok hr hmoved).advances

/-- Tick and price stay consistent, short of the end of the price range. Where a
tick is crossed, the direction and the orders left at it decide on which side of
it the swap is recorded. -/
theorem ClmmTransition.tickConsistent (hc : c.Valid) (hinv : ClmmInvariant c orders₀ s)
    (hcons : TickConsistent s.tick s.current) (ht : ClmmTransition c s s')
    (hend : s'.current ≠ if c.down then minSqrtPrice else maxSqrtPrice) :
    TickConsistent s'.tick s'.current := by
  cases ht with
  | @cross plan moved filled crossed t i hplan hmoved hcur hnext hfill hcross =>
      have hp := PlanSpec.of_ok hc hplan
      obtain ⟨⟨-, -, hside⟩, hnt⟩ := hp.next_index hnext
      obtain ⟨hcrossed, -, -, -, -, htick⟩ := clmmCrossTick_frame hcross
      rw [(clmmFillOrders_frame hfill).1, hcur, hp.nextPrice_eq, hnt] at hcrossed
      rw [advanceGroup_current, hcrossed] at hend ⊢
      rw [advanceGroup_tick, htick]
      have hge := hnt ▸ hp.nextTick_ge
      have hle := hnt ▸ hp.nextTick_le
      have hmin : c.down = true → minTick < t.tick := fun hd => by
        refine lt_of_le_of_ne hge fun h => hend ?_
        rw [← h, hd, if_pos rfl, tickPrice_minTick]
      have hmax : c.down = false → t.tick < maxTick := fun hd => by
        refine lt_of_le_of_ne hle fun h => hend ?_
        rw [h, hd, if_neg (by decide), tickPrice_maxTick]
      obtain ⟨(hs₁ : minTick ≤ s.tick), (hs₂ : s.tick < maxTick), -, -⟩ := hcons
      cases hd : c.down with
      | true =>
          have := hmin hd
          simp only [hd, if_true] at hside
          split
          · exact tickTable.brackets_below this hle
          · exact tickTable.brackets_self hge (show t.tick < maxTick by omega)
      | false =>
          have := hmax hd
          simp only [hd, Bool.false_eq_true, if_false] at hside
          split
          · exact tickTable.brackets_below (show minTick < t.tick by omega) hle
          · exact tickTable.brackets_self hge this
  | @pass plan moved tick hplan hmoved hcur htick =>
      rw [advanceGroup_current, advanceGroup_tick]
      dsimp only
      rcases htick with ⟨-, htick⟩ | ⟨hsame, rfl⟩
      · obtain ⟨hholds, hlt⟩ := clmmTickAtSqrtPrice_spec htick
        exact hholds.brackets hlt
      · rw [hsame, (StepSpec.of_ok hinv.remaining_nonneg hmoved).tick_eq]
        exact hcons

end Step

/-! ### Whole runs -/

section Run

variable {pool : ClmmPool} {ticks : List ClmmTick} {amount limit feeOn timestamp : ℤ}
  {dynamic : List UInt8} {down : Bool} {c : ClmmSwap} {s₀ s : ClmmState} {result : ClmmSwapResult}

theorem ClmmInvariant.init
    (h : clmmPrepare pool ticks amount limit feeOn dynamic timestamp down = .ok (c, s₀)) :
    ClmmInvariant c s₀.orders s₀ := by
  have hc := ClmmSwap.Valid.of_prepare h
  obtain ⟨-, -, -, -, -, horders, hceq, -, hseq⟩ := clmmPrepare_eq_ok.1 h
  have hpool : c.pool = pool := by rw [hceq]
  have hamount : c.amount = amount := by rw [hceq]
  have hticks : c.ticks = ticks := by rw [hceq]
  have hrem : s₀.remaining = c.amount := by rw [hseq, hamount]
  have hcur : s₀.current = c.pool.sqrtPrice := by rw [hseq, hpool]
  exact
    { remaining_nonneg := hrem ▸ hc.amount_nonneg
      remaining_le := hrem.le
      start := hcur ▸ .refl _ _
      limit := hcur ▸ hc.towards.beyond
      orders_length := by rw [hticks]; exact horders.length_eq.symm
      orders_nonneg := fun i => by
        rcases lt_or_ge i s₀.orders.length with hi | hi
        · have hi' : i < ticks.length := by rw [horders.length_eq]; exact hi
          have ho := horders.get hi' hi
          rw [List.getD_eq_getElem _ _ hi]
          exact (tickOrders_eq_ok.1 ho).2.2.1.1
        · rw [List.getD_eq_default _ _ hi]
      orders_eq := fun i => .inl rfl }

theorem orders_of_prepare
    (h : clmmPrepare pool ticks amount limit feeOn dynamic timestamp down = .ok (c, s₀)) :
    OrdersOf c s₀.orders := by
  intro i t ht
  obtain ⟨-, -, -, -, -, horders, hceq, -, -⟩ := clmmPrepare_eq_ok.1 h
  have hticks : c.ticks = ticks := by rw [hceq]
  rw [hticks, List.getElem?_eq_some_iff] at ht
  obtain ⟨hi, rfl⟩ := ht
  have hi' : i < s₀.orders.length := horders.length_eq ▸ hi
  have ho := horders.get hi hi'
  rw [List.getD_eq_getElem _ _ hi']
  exact (tickOrders_eq_ok.1 ho).2.2.2

theorem ClmmInvariant.of_reaches (hc : c.Valid) {orders₀ : List ℤ}
    (h₀ : ClmmInvariant c orders₀ s₀) (h : Reaches (clmmIteration c) s₀ s) :
    ClmmInvariant c orders₀ s :=
  h.invariant (fun _ _ hi hb => hi.next hc (clmmIteration_next.1 hb).2.2) h₀

/-- What holds whenever an iteration begins. -/
structure StateSound (c : ClmmSwap) (s₀ s : ClmmState) : Prop where
  /-- The price moves in the direction of the swap, whether the loop goes on or
  is left. -/
  advances : ∀ s', clmmIteration c s = .ok (.next s') ∨ clmmIteration c s = .ok (.brk s') →
    Beyond c.down s.current s'.current
  /-- The amount checked after a swap step is not negative. -/
  stepRemaining_nonneg : ∀ plan step, clmmPlan c s = .ok plan →
    clmmSwapStep s.current plan.bound s.liquidity s.remaining
      (if c.inputFee then plan.fee else 0) c.down = .ok step →
    0 ≤ stepRemaining c s step
  /-- The amount checked after filling orders is not negative. -/
  fillRemaining_nonneg : ∀ plan moved t i m, clmmPlan c s = .ok plan →
    clmmTakeStep c s plan = .ok moved → plan.next = some (t, i) →
    orderPrice moved.current c.down ≠ 0 →
    matchOrders c.down c.inputFee moved.remaining plan.fee (moved.orders.getD i 0)
      (orderPrice moved.current c.down) = .ok m →
    0 ≤ fillRemaining moved m
  /-- An order left partly filled means that the input is used up. -/
  partial_order : ∀ i, 0 < s.orders.getD i 0 → s.orders.getD i 0 < s₀.orders.getD i 0 →
    s.remaining = 0

theorem StateSound.of_invariant (hc : c.Valid) (h : ClmmInvariant c s₀.orders s) :
    StateSound c s₀ s where
  advances s' hs' := by
    rcases hs' with hb | hb
    · exact (clmmIteration_next.1 hb).2.2.advances h.remaining_nonneg
    · obtain ⟨-, -, plan, -, hmoved, -⟩ := clmmIteration_brk.1 hb
      exact (StepSpec.of_ok h.remaining_nonneg hmoved).advances
  stepRemaining_nonneg _ _ _ hstep := Clmm.stepRemaining_nonneg hstep
  fillRemaining_nonneg plan moved t i m hplan hmoved _ hprice hm := by
    have hp := PlanSpec.of_ok hc hplan
    have hi := h.step hc hplan hmoved
    exact Clmm.fillRemaining_nonneg hi.remaining_nonneg hp.fee_nonneg hp.fee_le
      (hi.orders_nonneg i) hprice hm
  partial_order i hpos hlt := by
    rcases h.orders_eq i with heq | h0 | hr
    · omega
    · omega
    · exact hr

theorem clmmFinish_eq_ok :
    clmmFinish c s = .ok result ↔
      (s.remaining = 0 ∨ s.current = c.limit) ∧ result = clmmResult c s := by
  unfold clmmFinish
  split
  · rename_i h
    simp only [reduceCtorEq, false_iff, not_and]
    exact fun hn => absurd hn (not_or.2 h)
  · rename_i h
    rw [not_and_or, not_not, not_not] at h
    simp only [h, true_and, Except.ok.injEq, eq_comm]

/-- The state from which a call returned. -/
theorem clmmSwapExactIn_state
    (h : clmmSwapExactIn pool ticks amount limit feeOn dynamic timestamp down = .ok result) :
    ∃ c s₀ s, clmmPrepare pool ticks amount limit feeOn dynamic timestamp down = .ok (c, s₀) ∧
      (Reaches (clmmIteration c) s₀ s ∨ ∃ t, Reaches (clmmIteration c) s₀ t ∧
        clmmIteration c t = .ok (.brk s)) ∧
      (s.remaining = 0 ∨ s.current = c.limit) ∧ result = clmmResult c s := by
  obtain ⟨⟨c, s₀⟩, hprep, hrun⟩ := bind_eq_ok.1 h
  obtain ⟨t, ht, hexit⟩ := run_ok hrun
  rcases hexit with hret | ⟨u, hbrk, hu⟩ | ⟨-, ha⟩
  · exact ⟨c, s₀, t, hprep, .inl ht, clmmIteration_ret.1 hret⟩
  · exact ⟨c, s₀, u, hprep, .inr ⟨t, ht, hbrk⟩, clmmFinish_eq_ok.1 hu⟩
  · exact ⟨c, s₀, t, hprep, .inl ht, clmmFinish_eq_ok.1 ha⟩

/-- A break leaves the price at the end of the price range. -/
theorem ClmmInvariant.break_price (hc : c.Valid) {orders₀ : List ℤ} {s' : ClmmState}
    (h : ClmmInvariant c orders₀ s) (hb : clmmIteration c s = .ok (.brk s')) :
    Beyond c.down s'.current c.limit ∧
      s'.current = if c.down then minSqrtPrice else maxSqrtPrice := by
  obtain ⟨-, -, plan, hplan, hmoved, hcur, hnone⟩ := clmmIteration_brk.1 hb
  have hp := PlanSpec.of_ok hc hplan
  have htick := hp.nextTick_eq
  rw [hnone, nextTickOf] at htick
  refine ⟨(h.step hc hplan hmoved).limit, ?_⟩
  rw [hcur, hp.nextPrice_eq, htick]
  cases c.down with
  | true => exact tickPrice_minTick
  | false => exact tickPrice_maxTick

/-- After a break the limit is met: the break happened at the end of the price
range, and the limit lies within it. -/
theorem ClmmInvariant.break_at_limit (hc : c.Valid) {orders₀ : List ℤ} {s' : ClmmState}
    (h : ClmmInvariant c orders₀ s) (hb : clmmIteration c s = .ok (.brk s')) :
    s'.current = c.limit := by
  obtain ⟨hlimit, hprice⟩ := h.break_price hc hb
  have h₁ := hc.limit_ge
  have h₂ := hc.limit_le
  cases hd : c.down <;> simp [hd] at hlimit hprice <;> omega

/-- A limit inside the price range is met before the end of the tick range, so
the loop is not left by a break. -/
theorem ClmmInvariant.no_break (hc : c.Valid) (hlo : minSqrtPrice < c.limit)
    (hhi : c.limit < maxSqrtPrice) {orders₀ : List ℤ} {s' : ClmmState}
    (h : ClmmInvariant c orders₀ s) : clmmIteration c s ≠ .ok (.brk s') := by
  intro hb
  obtain ⟨hlimit, hprice⟩ := h.break_price hc hb
  rw [hprice] at hlimit
  cases hd : c.down <;> simp [hd] at hlimit <;> omega

/-- The CLMM exact-in quote is sound. What it reports as consumed is part of the
amount; the price ends between its start and the limit, and at the limit unless
the whole amount was consumed; a consistent tick and price stay consistent; and
along the run the price is monotone, no remaining amount is negative when it is
checked, and a partly filled order ends the swap. -/
theorem clmmSwapExactIn_sound (hlo : minSqrtPrice < limit) (hhi : limit < maxSqrtPrice)
    (h : clmmSwapExactIn pool ticks amount limit feeOn dynamic timestamp down = .ok result) :
    (0 ≤ result.consumed ∧ result.consumed ≤ amount) ∧
      (Beyond down pool.sqrtPrice result.sqrtPrice ∧ Beyond down result.sqrtPrice limit) ∧
      (result.consumed = amount ∨ result.sqrtPrice = limit) ∧
      (TickConsistent pool.tickCurrent pool.sqrtPrice →
        TickConsistent result.tickCurrent result.sqrtPrice) ∧
      ∃ c s₀, clmmPrepare pool ticks amount limit feeOn dynamic timestamp down = .ok (c, s₀) ∧
        ∀ s, Reaches (clmmIteration c) s₀ s → StateSound c s₀ s := by
  obtain ⟨c, s₀, s, hprep, hs, hend, rfl⟩ := clmmSwapExactIn_state h
  have hc := ClmmSwap.Valid.of_prepare hprep
  have h₀ := ClmmInvariant.init hprep
  obtain ⟨-, -, -, -, -, -, hceq, -, hseq⟩ := clmmPrepare_eq_ok.1 hprep
  have hpool : c.pool = pool := by rw [hceq]
  have hamount : c.amount = amount := by rw [hceq]
  have hlimit : c.limit = limit := by rw [hceq]
  have hdown : c.down = down := by rw [hceq]
  rw [← hlimit] at hlo hhi
  have hreach : Reaches (clmmIteration c) s₀ s := by
    rcases hs with hs | ⟨t, ht, hbrk⟩
    · exact hs
    · exact absurd hbrk ((ClmmInvariant.of_reaches hc h₀ ht).no_break hc hlo hhi)
  have hinv := ClmmInvariant.of_reaches hc h₀ hreach
  have hrem₀ := hinv.remaining_nonneg
  have hrem := hinv.remaining_le
  simp only [clmmResult]
  refine ⟨⟨by omega, by omega⟩, ⟨?_, ?_⟩, ?_, ?_, c, s₀, hprep, fun t ht =>
    .of_invariant hc (ClmmInvariant.of_reaches hc h₀ ht)⟩
  · rw [← hdown, ← hpool]
    exact hinv.start
  · rw [← hdown, ← hlimit]
    exact hinv.limit
  · rcases hend with hr | hl
    · exact .inl (by omega)
    · exact .inr (hl.trans hlimit)
  · intro hcons
    have hcons₀ : TickConsistent s₀.tick s₀.current := by
      rw [hseq]
      exact hcons
    refine (hreach.invariant (I := fun u => ClmmInvariant c s₀.orders u ∧
      TickConsistent u.tick u.current) (fun u v hu hb => ?_) ⟨h₀, hcons₀⟩).2
    have ht := (clmmIteration_next.1 hb).2.2
    have hv := hu.1.next hc ht
    refine ⟨hv, ht.tickConsistent hc hu.1 hu.2 fun hend => ?_⟩
    have hlim := hv.limit
    rw [hend] at hlim
    cases hd : c.down <;> simp [hd] at hlim <;> omega

end Run

/-- A swap down through a tick whose orders the input fills completely. -/
theorem clmmSwapExactIn_sound_through_orders :
    (0 ≤ (4000 : ℤ) ∧ (4000 : ℤ) ≤ 4000) ∧
      (Beyond true (2 ^ 64 : ℤ) 18388262870999268811 ∧
        Beyond true (18388262870999268811 : ℤ) (tickPrice (-120))) ∧
      ((4000 : ℤ) = 4000 ∨ 18388262870999268811 = tickPrice (-120)) ∧
      (TickConsistent 0 (2 ^ 64) → TickConsistent (-64) 18388262870999268811) ∧
      ∃ c s₀, clmmPrepare ⟨2 ^ 64, 1000000, 0, 60, 3000⟩ [⟨-60, 5, 10, 500, 300⟩] 4000
          (tickPrice (-120)) 0 (List.replicate 80 0) 100 true = .ok (c, s₀) ∧
        ∀ s, Reaches (clmmIteration c) s₀ s → StateSound c s₀ s := by
  have h : clmmSwapExactIn ⟨2 ^ 64, 1000000, 0, 60, 3000⟩ [⟨-60, 5, 10, 500, 300⟩] 4000
      (tickPrice (-120)) 0 (List.replicate 80 0) 100 true =
        .ok ⟨4000, 3969, 18388262870999268811, -64, 999995⟩ := by decide +kernel
  exact clmmSwapExactIn_sound (by decide +kernel) (by decide +kernel) h

end SolTrade.Clmm
