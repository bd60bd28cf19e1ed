import SolTrade.Clmm.TwoSteps

/-!
More input never pays less.

Two swaps that differ in the amount alone go through the same states, the second
with its surplus on top, until the first comes to its end. From there the second
only gains, so its result is at least that of the first. What remains is the
first swap that is left with input it cannot spend: with the fee on the output a
step may leave less than the next price costs. Such a state is `Stuck`, and no
run returns from it.
-/

namespace SolTrade.Clmm

open Library BoundedLoop

/-! ### What a run adds -/

section Outcome

variable {c : ClmmSwap} {orders₀ : List ℤ} {s s' moved filled : ClmmState} {plan : ClmmPlan}
  {flow : Flow ClmmState ClmmSwapResult} {x : ClmmSwapResult} {i n : ℕ}

/-- `s'` has been paid and has charged at least what `s` has. -/
structure Later (s s' : ClmmState) : Prop where
  output_le : s.output ≤ s'.output
  remaining_le : s'.remaining ≤ s.remaining

theorem Later.refl (s : ClmmState) : Later s s := ⟨le_rfl, le_rfl⟩

theorem Later.trans {t u : ClmmState} (h : Later s t) (h' : Later t u) : Later s u :=
  ⟨h.output_le.trans h'.output_le, h'.remaining_le.trans h.remaining_le⟩

theorem Later.step (hf : plan.fee ≤ 999999) (hr : 0 ≤ s.remaining)
    (h : clmmTakeStep c s plan = .ok moved) : Later s moved := by
  refine ⟨?_, (StepSpec.of_ok hr h).remaining_le⟩
  rcases clmmTakeStep_eq_ok.1 h with ⟨-, rfl⟩ | ⟨-, step, hstep, -, -, rfl⟩
  · exact le_rfl
  · have hnet : 0 ≤ stepNet c plan step := by
      rw [stepNet_eq]
      exact credited_nonneg hf (clmmSwapStep_spec hstep).2.2.2.2.1
    exact le_add_of_nonneg_right hnet

theorem Later.fill {fee : ℤ} (hf : 0 ≤ fee) (hf' : fee ≤ 999999) (hr : 0 ≤ s.remaining)
    (ho : 0 ≤ s.orders.getD i 0) (h : clmmFillOrders c s fee i = .ok filled) :
    Later s filled := by
  rcases clmmFillOrders_cases h with ⟨-, rfl⟩ | ⟨-, hprice, m, hm, rfl⟩
  · exact .refl _
  · obtain ⟨hgross, -, hcharge, -, -⟩ := matchOrders_spec hm hr hf hf' ho hprice
    refine ⟨le_add_of_nonneg_right (credited_nonneg hf' hgross), ?_⟩
    simp only [afterFill, fillRemaining]
    omega

/-- An iteration that does not return: at the end of the tick range, past an
initialized tick, or between ticks. -/
inductive Iterated (c : ClmmSwap) (plan : ClmmPlan) (s moved : ClmmState) :
    Flow ClmmState ClmmSwapResult → Prop
  | brk : moved.current = plan.nextPrice → plan.next = none → Iterated c plan s moved (.brk moved)
  | cross {filled crossed : ClmmState} {t : ClmmTick} {i : ℕ} :
      moved.current = plan.nextPrice → plan.next = some (t, i) →
      clmmFillOrders c moved plan.fee i = .ok filled → clmmCrossTick c filled t i = .ok crossed →
      Iterated c plan s moved (.next (advanceGroup c plan crossed))
  | pass {tick : ℤ} : moved.current ≠ plan.nextPrice →
      (moved.current ≠ s.current ∧ clmmTickAtSqrtPrice moved.current = .ok tick ∨
        moved.current = s.current ∧ tick = moved.tick) →
      Iterated c plan s moved (.next (advanceGroup c plan { moved with tick }))

theorem clmmIteration_iterated (hend : ¬ (s.remaining = 0 ∨ s.current = c.limit))
    (h : clmmIteration c s = .ok flow) :
    ∃ plan moved, clmmPlan c s = .ok plan ∧ clmmTakeStep c s plan = .ok moved ∧
      Iterated c plan s moved flow := by
  cases flow with
  | ret r => exact absurd (clmmIteration_ret.1 h).1 hend
  | brk s' =>
      obtain ⟨-, -, plan, hplan, hmoved, hcur, hnext⟩ := clmmIteration_brk.1 h
      exact ⟨plan, s', hplan, hmoved, .brk hcur hnext⟩
  | next s' =>
      cases (clmmIteration_next.1 h).2.2 with
      | cross hplan hmoved hcur hnext hfill hcross =>
          exact ⟨_, _, hplan, hmoved, .cross hcur hnext hfill hcross⟩
      | pass hplan hmoved hcur htick => exact ⟨_, _, hplan, hmoved, .pass hcur htick⟩

@[simp] theorem advanceGroup_output : (advanceGroup c plan s).output = s.output := by
  unfold advanceGroup
  split <;> rfl

@[simp] theorem advanceGroup_liquidity : (advanceGroup c plan s).liquidity = s.liquidity := by
  unfold advanceGroup
  split <;> rfl

/-- After a fill, an iteration only tracks the tick and the liquidity. -/
theorem later_of_cross {crossed : ClmmState} {t : ClmmTick}
    (h : clmmCrossTick c filled t i = .ok crossed) :
    Later filled (advanceGroup c plan crossed) := by
  obtain ⟨-, hrem, hout, -⟩ := clmmCrossTick_frame h
  exact ⟨by rw [advanceGroup_output, hout], by rw [advanceGroup_remaining, hrem]⟩

/-- A result that pays and charges at least what `s` has, within the amount. -/
structure Outcome (c : ClmmSwap) (s : ClmmState) (x : ClmmSwapResult) : Prop where
  output_le : s.output ≤ x.amountOut
  consumed_ge : c.amount - s.remaining ≤ x.consumed
  consumed_le : x.consumed ≤ c.amount

theorem Outcome.of_later (h : Outcome c s' x) (hl : Later s s') : Outcome c s x := by
  have := hl.remaining_le
  have := h.consumed_ge
  exact ⟨hl.output_le.trans h.output_le, by omega, h.consumed_le⟩

theorem Outcome.result (hr : 0 ≤ s.remaining) : Outcome c s (clmmResult c s) := by
  refine ⟨le_rfl, le_rfl, ?_⟩
  simp only [clmmResult]
  omega

/-- Nothing is run after the end of a swap. -/
theorem run_ended (hend : s.remaining = 0 ∨ s.current = c.limit) (n : ℕ) :
    run (clmmIteration c) (clmmFinish c) n s = .ok (clmmResult c s) := by
  cases n with
  | zero => exact clmmFinish_eq_ok.2 ⟨hend, rfl⟩
  | succ n => simp only [run, clmmIteration_ret.2 ⟨hend, rfl⟩]

/-- What follows a step only adds to it, if what follows the iteration does. -/
theorem Iterated.outcome (hc : c.Valid) (hinv : ClmmInvariant c orders₀ s)
    (hplan : clmmPlan c s = .ok plan) (hmoved : clmmTakeStep c s plan = .ok moved)
    (hiter : Iterated c plan s moved flow) (hb : clmmIteration c s = .ok flow)
    (hrest : ∀ s', ClmmInvariant c orders₀ s' →
      run (clmmIteration c) (clmmFinish c) n s' = .ok x → Outcome c s' x)
    (hrun : run (clmmIteration c) (clmmFinish c) (n + 1) s = .ok x) : Outcome c moved x := by
  have hp := PlanSpec.of_ok hc hplan
  have hi := hinv.step hc hplan hmoved
  have hnext : ∀ s', flow = .next s' → Outcome c s' x := by
    rintro s' rfl
    rw [run_next hb] at hrun
    exact hrest s' (hinv.next hc (clmmIteration_next.1 hb).2.2) hrun
  cases hiter with
  | brk =>
      simp only [run, hb] at hrun
      rw [(clmmFinish_eq_ok.1 hrun).2]
      exact .result hi.remaining_nonneg
  | cross hcur hn hfill hcross =>
      exact ((hnext _ rfl).of_later (later_of_cross hcross)).of_later
        (.fill hp.fee_nonneg hp.fee_le hi.remaining_nonneg (hi.orders_nonneg _) hfill)
  | pass =>
      exact (hnext _ rfl).of_later
        ⟨by rw [advanceGroup_output], by rw [advanceGroup_remaining]⟩

/-- A run only adds to what its first state has. -/
theorem run_outcome (hc : c.Valid) (hinv : ClmmInvariant c orders₀ s)
    (hrun : run (clmmIteration c) (clmmFinish c) n s = .ok x) : Outcome c s x := by
  induction n generalizing s with
  | zero =>
      rw [(clmmFinish_eq_ok.1 hrun).2]
      exact .result hinv.remaining_nonneg
  | succ n ih =>
      by_cases hend : s.remaining = 0 ∨ s.current = c.limit
      · rw [run_ended hend] at hrun
        cases hrun
        exact .result hinv.remaining_nonneg
      · obtain ⟨flow, hb⟩ := first_ok hrun
        obtain ⟨plan, moved, hplan, hmoved, hiter⟩ := clmmIteration_iterated hend hb
        exact (hiter.outcome hc hinv hplan hmoved hb (fun _ => ih) hrun).of_later
          (.step (PlanSpec.of_ok hc hplan).fee_le hinv.remaining_nonneg hmoved)

end Outcome

/-! ### Input that cannot be spent -/

section Stuck

variable {c : ClmmSwap} {orders₀ : List ℤ} {s s' moved : ClmmState} {plan : ClmmPlan}
  {flow : Flow ClmmState ClmmSwapResult} {x : ClmmSwapResult} {n : ℕ}

/-- Input is left before the limit, short of the next tick, and every further
price costs more. -/
structure Stuck (c : ClmmSwap) (s : ClmmState) : Prop where
  left : s.remaining ≠ 0
  ne_limit : s.current ≠ c.limit
  ne_next : s.current ≠ tickPrice (nextTickOf c (nextInitialized c s))
  further : ∀ price, 0 < price → StrictlyBeyond c.down s.current price →
    s.remaining < amountInTo s.current price s.liquidity c.down

theorem nextInitialized_of_same (ho : s'.orders = s.orders) (ht : s'.tick = s.tick) :
    nextInitialized c s' = nextInitialized c s := by
  simp only [nextInitialized, candidates, ho, ht]

/-- A stuck state cannot spend anything in a step. -/
theorem Stuck.step (hfee : c.inputFee = false) (h : Stuck c s)
    (hmoved : clmmTakeStep c s plan = .ok moved) :
    moved.current = s.current ∧ moved.remaining = s.remaining := by
  rcases clmmTakeStep_eq_ok.1 hmoved with ⟨-, rfl⟩ | ⟨-, step, hstep, -, -, rfl⟩
  · exact ⟨rfl, rfl⟩
  · have hi := StepInput.of_ok hstep
    obtain ⟨hfrom, -, -, hf, -, hle, -⟩ := clmmSwapStep_spec hstep
    have hamount := (clmmSwapStep_amounts hstep).1
    have hsame : step.sqrtPrice = s.current := by
      by_contra hne
      have := h.further _ (clmmSwapStep_sqrtPrice_pos hstep)
        (strictlyBeyond_iff.2 ⟨hfrom, Ne.symm hne⟩)
      omega
    rw [hsame, amountInTo_self hi.current_pos] at hamount
    refine ⟨hsame, ?_⟩
    simp only [stepRemaining, hfee, Bool.false_eq_true, if_false, hamount]
    omega

theorem Stuck.next (hc : c.Valid) (hfee : c.inputFee = false) (hr : 0 ≤ s.remaining)
    (h : Stuck c s) (hb : clmmIteration c s = .ok flow) : ∃ s', flow = .next s' ∧ Stuck c s' := by
  obtain ⟨plan, moved, hplan, hmoved, hiter⟩ :=
    clmmIteration_iterated (not_or.2 ⟨h.left, h.ne_limit⟩) hb
  have hp := PlanSpec.of_ok hc hplan
  have hm := StepSpec.of_ok hr hmoved
  obtain ⟨hcur, hrem⟩ := h.step hfee hmoved
  have hnext : moved.current ≠ plan.nextPrice := by
    rw [hp.nextPrice_eq, hp.nextTick_eq, hp.next_eq, hcur]
    exact h.ne_next
  cases hiter with
  | brk hat => exact absurd hat hnext
  | cross hat => exact absurd hat hnext
  | @pass tick hne htick =>
      obtain rfl : tick = moved.tick := by
        rcases htick with ⟨hmove, -⟩ | ⟨-, htick⟩
        · exact absurd hcur hmove
        · exact htick
      refine ⟨_, rfl, ?_⟩
      have hcongr : nextInitialized c (advanceGroup c plan { moved with tick := moved.tick }) =
          nextInitialized c s :=
        nextInitialized_of_same (by simpa using hm.orders_eq) (by simpa using hm.tick_eq)
      exact
        { left := by simpa [hrem] using h.left
          ne_limit := by simpa [hcur] using h.ne_limit
          ne_next := by
            rw [hcongr]
            simpa [hcur] using h.ne_next
          further := by simpa [hcur, hrem, hm.liquidity_eq] using h.further }

/-- No run returns from a stuck state. -/
theorem Stuck.run_ne_ok (hc : c.Valid) (hfee : c.inputFee = false)
    (hinv : ClmmInvariant c orders₀ s) (h : Stuck c s) :
    run (clmmIteration c) (clmmFinish c) n s ≠ .ok x := by
  intro hrun
  obtain ⟨t, ht, hexit⟩ := run_ok hrun
  obtain ⟨hi, hstuck⟩ := ht.invariant (I := fun u => ClmmInvariant c orders₀ u ∧ Stuck c u)
    (fun u v hu hb => by
      obtain ⟨w, hw, hstuck⟩ := hu.2.next hc hfee hu.1.remaining_nonneg hb
      cases hw
      exact ⟨hu.1.next hc (clmmIteration_next.1 hb).2.2, hstuck⟩) ⟨hinv, h⟩
  have hend := not_or.2 ⟨hstuck.left, hstuck.ne_limit⟩
  rcases hexit with hret | ⟨u, hbrk, -⟩ | ⟨-, hfinish⟩
  · exact hend (clmmIteration_ret.1 hret).1
  · obtain ⟨w, hw, -⟩ := hstuck.next hc hfee hi.remaining_nonneg hbrk
    cases hw
  · exact hend (clmmFinish_eq_ok.1 hfinish).1

/-- No tick of the list lies above the swap's tick although its price is below the
swap's price. -/
def TickCovers (c : ClmmSwap) (s : ClmmState) : Prop :=
  ∀ t ∈ c.ticks, tickPrice t.tick < s.current → t.tick ≤ s.tick

theorem TickCovers.next (hc : c.Valid) (hr : 0 ≤ s.remaining) (h : TickCovers c s)
    (ht : ClmmTransition c s s') : TickCovers c s' := by
  intro u hu hprice
  have hrange := hc.tick_range u hu
  cases ht with
  | @cross plan moved filled crossed t i hplan hmoved hcur hnext hfill hcross =>
      have hp := PlanSpec.of_ok hc hplan
      obtain ⟨hcand, hnt⟩ := hp.next_index hnext
      have hrange' := hc.tick_range t hcand.mem
      obtain ⟨hcrossed, -, -, -, -, htick⟩ := clmmCrossTick_frame hcross
      rw [(clmmFillOrders_frame hfill).1, hcur, hp.nextPrice_eq, hnt] at hcrossed
      rw [advanceGroup_current, hcrossed] at hprice
      rw [advanceGroup_tick, htick]
      have hlt : u.tick < t.tick :=
        (tickTable.lt_iff hrange.1 hrange.2 hrange'.1 hrange'.2).1 hprice
      split <;> omega
  | @pass plan moved tick hplan hmoved hcur htick =>
      rw [advanceGroup_current] at hprice
      rw [advanceGroup_tick]
      rcases htick with ⟨-, htick⟩ | ⟨hsame, rfl⟩
      · exact (clmmTickAtSqrtPrice_spec htick).1.greatest hrange.1 hrange.2 hprice.le
      · rw [(StepSpec.of_ok hr hmoved).tick_eq]
        exact h u hu (hsame ▸ hprice)

/-- Where a step with the fee on the output falls short, the price is short of the
next tick, also of one that comes into sight when the tick is read off the
price. -/
theorem ne_next_of_short (hc : c.Valid) (hinv : ClmmInvariant c orders₀ s)
    (hcovers : c.down = true → TickCovers c s) {tick : ℤ} (hplan : clmmPlan c s = .ok plan)
    (hmoved : clmmTakeStep c s plan = .ok moved)
    (hshort : StrictlyBeyond c.down moved.current plan.bound)
    (htick : moved.current ≠ s.current ∧ clmmTickAtSqrtPrice moved.current = .ok tick ∨
      moved.current = s.current ∧ tick = moved.tick) :
    moved.current ≠ tickPrice (nextTickOf c (nextInitialized c { moved with tick })) := by
  have hp := PlanSpec.of_ok hc hplan
  have hm := StepSpec.of_ok hinv.remaining_nonneg hmoved
  have hnext := hshort.trans_beyond hp.bound_nextPrice
  have hlimit := hshort.trans_beyond hp.bound_limit
  rcases htick with ⟨hne, htick⟩ | ⟨-, rfl⟩
  · cases hn : nextInitialized c { moved with tick } with
    | none =>
        have h₁ := hc.limit_ge
        have h₂ := hc.limit_le
        rw [nextTickOf]
        cases hd : c.down with
        | true =>
            rw [hd, strictlyBeyond_true] at hlimit
            rw [if_pos rfl, tickPrice_minTick]
            omega
        | false =>
            rw [hd, strictlyBeyond_false] at hlimit
            rw [if_neg (by decide), tickPrice_maxTick]
            omega
    | some ti =>
        obtain ⟨u, j⟩ := ti
        obtain ⟨hget, hlive, hside⟩ := (nextInitialized_some hn).1
        have hmem := List.mem_of_getElem? hget
        have hrange := hc.tick_range u hmem
        intro hat
        change moved.current = tickPrice u.tick at hat
        have hle : u.tick ≤ tick :=
          (clmmTickAtSqrtPrice_spec htick).1.greatest hrange.1 hrange.2 hat.ge
        cases hd : c.down with
        | false =>
            simp only [hd, Bool.false_eq_true, if_false] at hside
            omega
        | true =>
            -- going down such a tick was a candidate of the step already
            have hadv := strictlyBeyond_iff.2 ⟨hm.advances, hne.symm⟩
            rw [hd, strictlyBeyond_true, hat] at hadv
            have hcand : IsCandidate c s u j := by
              refine ⟨hget, ?_, ?_⟩
              · rw [← hm.orders_eq]
                exact hlive
              · rw [if_pos hd]
                exact hcovers hd u hmem hadv
            rw [hp.nextPrice_eq, hp.nextTick_eq, hp.next_eq] at hnext
            cases hs : nextInitialized c s with
            | none => exact nextInitialized_none hs hcand
            | some vk =>
                obtain ⟨v, k⟩ := vk
                obtain ⟨hcand', hfirst⟩ := nextInitialized_some hs
                have hrange' := hc.tick_range v hcand'.mem
                have huv := hfirst u j hcand
                rw [hs, hat, hd, strictlyBeyond_true] at hnext
                rw [hd, beyond_true] at huv
                have : v.tick < u.tick :=
                  (tickTable.lt_iff hrange'.1 hrange'.2 hrange.1 hrange.2).1 hnext
                omega
  · rw [nextInitialized_of_same (s := s) hm.orders_eq hm.tick_eq, ← hp.next_eq, ← hp.nextTick_eq,
      ← hp.nextPrice_eq]
    exact hnext.ne

/-- A step that falls short with the fee on the output and leaves input behind
leaves the swap stuck. -/
theorem stuck_of_short (hc : c.Valid) (hinv : ClmmInvariant c orders₀ s)
    (hfee : c.inputFee = false) (hcovers : c.down = true → TickCovers c s) {tick : ℤ}
    (hplan : clmmPlan c s = .ok plan) (hmoved : clmmTakeStep c s plan = .ok moved)
    (hshort : StrictlyBeyond c.down moved.current plan.bound) (hleft : moved.remaining ≠ 0)
    (htick : moved.current ≠ s.current ∧ clmmTickAtSqrtPrice moved.current = .ok tick ∨
      moved.current = s.current ∧ tick = moved.tick) :
    Stuck c (advanceGroup c plan { moved with tick }) := by
  have hp := PlanSpec.of_ok hc hplan
  have hm := StepSpec.of_ok hinv.remaining_nonneg hmoved
  have hsame : nextInitialized c (advanceGroup c plan { moved with tick }) =
      nextInitialized c { moved with tick } := nextInitialized_of_same (by simp) (by simp)
  have hnext := ne_next_of_short hc hinv hcovers hplan hmoved hshort htick
  refine
    { left := by simpa using hleft
      ne_limit := by simpa using (hshort.trans_beyond hp.bound_limit).ne
      ne_next := by
        rw [hsame, advanceGroup_current]
        exact hnext
      further := fun price hpos hfar => ?_ }
  rw [advanceGroup_current] at hfar
  rw [advanceGroup_current, advanceGroup_remaining, advanceGroup_liquidity]
  dsimp only at hfar ⊢
  rw [hm.liquidity_eq]
  rcases clmmTakeStep_eq_ok.1 hmoved with ⟨hb, rfl⟩ | ⟨-, step, hstep, -, -, rfl⟩
  · exact absurd hb hshort.ne
  · simp only [hfee, Bool.false_eq_true, if_false] at hstep
    have hi := StepInput.of_ok hstep
    dsimp only at hshort hfar ⊢
    obtain ⟨hneeded, hprice⟩ : netInput s.remaining 0 < amountInTo s.current plan.bound s.liquidity
        c.down ∧ step.sqrtPrice =
          priceAfterInput s.current s.liquidity (netInput s.remaining 0) c.down := by
      rcases clmmSwapStep_cases hstep with ⟨-, hreach, -⟩ | ⟨hneeded, hprice, -⟩
      · exact absurd hreach hshort.ne
      · exact ⟨hneeded, hprice⟩
    obtain ⟨hL, -⟩ := hi.target_strictlyBeyond hneeded
    -- any price further than the one reached costs more than the whole input of the step;
    -- the part up to the price reached has been paid, so the rest costs more than what is left
    have hcost : netInput s.remaining 0 < amountInTo s.current price s.liquidity c.down := by
      rw [← not_le, amountIn_le_iff hi.current_pos hpos hL hi.netInput_nonneg
        ((clmmSwapStep_spec hstep).1.trans hfar.beyond), ← hprice]
      exact hfar.not_beyond
    have hadd := amountInTo_add_le s.liquidity hi.current_pos (clmmSwapStep_sqrtPrice_pos hstep)
      hpos (clmmSwapStep_spec hstep).1 hfar.beyond
    rw [netInput_zero] at hcost
    rw [← (clmmSwapStep_amounts hstep).1] at hadd
    simp only [stepRemaining, hfee, Bool.false_eq_true, if_false]
    omega

end Stuck

/-! ### Two runs -/

/-- The iteration from `s` fills an order to its last unit and charges more for it
than the order costs with its fee. -/
def OverpaysOrder (c : ClmmSwap) (s : ClmmState) : Prop :=
  ∃ plan moved t i, clmmPlan c s = .ok plan ∧ clmmTakeStep c s plan = .ok moved ∧
    moved.current = plan.nextPrice ∧ plan.next = some (t, i) ∧ OverpaysAt c moved plan.fee i

section TwoRuns

variable {c : ClmmSwap} {orders₀ : List ℤ} {s₀ s moved moved' filled filled' : ClmmState}
  {plan : ClmmPlan} {d : ℤ} {flow flow' : Flow ClmmState ClmmSwapResult} {x y : ClmmSwapResult}
  {n : ℕ}

/-- With the fee on the output, a swap down starts from a tick that covers its
price. -/
def StartCovers (c : ClmmSwap) (s₀ : ClmmState) : Prop :=
  c.inputFee = false → c.down = true → TickCovers c s₀

def NeverOverpays (c : ClmmSwap) (s₀ : ClmmState) : Prop :=
  ∀ s, Reaches (clmmIteration c) s₀ s → ¬ OverpaysOrder c s

/-- If both swaps return, the first pays and charges at most what the second does. -/
def AtMost (c : ClmmSwap) (s₀ : ClmmState) (first second : Except ValueError ClmmSwapResult) :
    Prop :=
  ∀ x y, first = .ok x → second = .ok y →
    (StartCovers c s₀ → x.amountOut ≤ y.amountOut) ∧ (NeverOverpays c s₀ → x.consumed ≤ y.consumed)

/-- Two swaps, the second with `d` more to spend. -/
structure TwoSwaps (c : ClmmSwap) (orders₀ : List ℤ) (s₀ : ClmmState) (d : ℤ) : Prop where
  surplus : 0 ≤ d
  valid : c.Valid
  valid' : (c.more d).Valid
  start : ClmmInvariant c orders₀ s₀
  start' : ClmmInvariant (c.more d) orders₀ (s₀.more d)

/-- Both swaps have come to the same state, up to the surplus. -/
structure Together (c : ClmmSwap) (s₀ : ClmmState) (d : ℤ) (s t : ClmmState) : Prop where
  reached : Reaches (clmmIteration c) s₀ s
  reached' : Reaches (clmmIteration (c.more d)) (s₀.more d) t
  eq : t = s.more d

theorem TickCovers.of_reaches (hc : c.Valid) (hinv : ClmmInvariant c orders₀ s₀)
    (h : TickCovers c s₀) (hs : Reaches (clmmIteration c) s₀ s) : TickCovers c s :=
  (hs.invariant (I := fun u => ClmmInvariant c orders₀ u ∧ TickCovers c u)
    (fun u v hu hb => by
      have ht := (clmmIteration_next.1 hb).2.2
      exact ⟨hu.1.next hc ht, hu.2.next hc hu.1.remaining_nonneg ht⟩) ⟨hinv, h⟩).2

/-- The result of a swap whose input an iteration uses up. -/
theorem result_of_used_up {s' : ClmmState} (hb : clmmIteration c s = .ok (.next s'))
    (hr : s'.remaining = 0) (hx : run (clmmIteration c) (clmmFinish c) (n + 1) s = .ok x) :
    x = clmmResult c s' := by
  rw [run_next hb, run_ended (.inl hr)] at hx
  exact (Except.ok.inj hx).symm

/-- The first swap ends in a step. -/
theorem TwoSwaps.step_ends (h : TwoSwaps c orders₀ s₀ d)
    (hs : Reaches (clmmIteration c) s₀ s)
    (hs' : Reaches (clmmIteration (c.more d)) (s₀.more d) (s.more d))
    (hplan : clmmPlan c s = .ok plan) (hmoved : clmmTakeStep c s plan = .ok moved)
    (hmoved' : clmmTakeStep (c.more d) (s.more d) plan = .ok moved')
    (hiter : Iterated c plan s moved flow)
    (hiter' : Iterated (c.more d) plan (s.more d) moved' flow')
    (hb : clmmIteration c s = .ok flow)
    (hb' : clmmIteration (c.more d) (s.more d) = .ok flow')
    (hends : StepEnds c plan d moved moved') (n : ℕ) :
    AtMost c s₀ (run (clmmIteration c) (clmmFinish c) (n + 1) s)
      (run (clmmIteration (c.more d)) (clmmFinish (c.more d)) (n + 1) (s.more d)) := by
  intro x y hx hy
  have hinv := ClmmInvariant.of_reaches h.valid h.start hs
  have hinv' := ClmmInvariant.of_reaches h.valid' h.start' hs'
  have hp := PlanSpec.of_ok h.valid hplan
  have hout' := hiter'.outcome h.valid' hinv' hplan hmoved' hb'
    (fun _ hi hrun => run_outcome h.valid' hi hrun) hy
  constructor
  · intro hcovers
    have hne : moved.current ≠ plan.nextPrice := (hends.short.trans_beyond hp.bound_nextPrice).ne
    cases hiter with
    | brk hcur => exact absurd hcur hne
    | cross hcur => exact absurd hcur hne
    | @pass tick _ htick =>
        by_cases hr : moved.remaining = 0
        · rw [result_of_used_up hb (by simpa using hr) hx]
          refine le_trans ?_ (hends.output_le.trans hout'.output_le)
          simp [clmmResult]
        · -- input is left that buys nothing, and the first swap never returns
          have hfee := hends.left.resolve_left hr
          have hstuck := stuck_of_short h.valid hinv hfee
            (fun hd => TickCovers.of_reaches h.valid h.start (hcovers hfee hd) hs) hplan hmoved
            hends.short hr htick
          rw [run_next hb] at hx
          exact absurd hx (hstuck.run_ne_ok h.valid hfee
            (hinv.next h.valid (clmmIteration_next.1 hb).2.2))
  · intro _
    have hle := (run_outcome h.valid hinv hx).consumed_le
    have hge := hout'.consumed_ge
    have hsurplus := hends.surplus_le
    rw [more_amount] at hge
    omega

/-- The first swap ends at an order. -/
theorem TwoSwaps.fill_ends (h : TwoSwaps c orders₀ s₀ d)
    (hs : Reaches (clmmIteration c) s₀ s)
    (hs' : Reaches (clmmIteration (c.more d)) (s₀.more d) (s.more d))
    (hplan : clmmPlan c s = .ok plan) (hmoved : clmmTakeStep c s plan = .ok moved)
    (hcur : moved.current = plan.nextPrice) {t : ClmmTick} {i : ℕ}
    (hnext : plan.next = some (t, i)) {crossed crossed' : ClmmState}
    (hcross : clmmCrossTick c filled t i = .ok crossed)
    (hcross' : clmmCrossTick (c.more d) filled' t i = .ok crossed')
    (hb : clmmIteration c s = .ok (.next (advanceGroup c plan crossed)))
    (hb' : clmmIteration (c.more d) (s.more d) =
      .ok (.next (advanceGroup (c.more d) plan crossed')))
    (hends : FillEnds c moved plan.fee i d filled filled') (n : ℕ) :
    AtMost c s₀ (run (clmmIteration c) (clmmFinish c) (n + 1) s)
      (run (clmmIteration (c.more d)) (clmmFinish (c.more d)) (n + 1) (s.more d)) := by
  intro x y hx hy
  have hinv' := ClmmInvariant.of_reaches h.valid' h.start' hs'
  obtain ⟨-, hrem, hout, -⟩ := clmmCrossTick_frame hcross
  rw [run_next hb'] at hy
  have hout' := (run_outcome h.valid' (hinv'.next h.valid' (clmmIteration_next.1 hb').2.2)
    hy).of_later (later_of_cross hcross')
  rw [result_of_used_up hb (by rw [advanceGroup_remaining, hrem, hends.left]) hx]
  simp only [clmmResult, advanceGroup_output, advanceGroup_remaining, hrem, hout, hends.left,
    sub_zero]
  refine ⟨fun _ => hends.output_le.trans hout'.output_le, fun hnever => ?_⟩
  have hsurplus := hends.surplus_le fun hover =>
    hnever s hs ⟨plan, moved, t, i, hplan, hmoved, hcur, hnext, hover⟩
  have hge := hout'.consumed_ge
  rw [more_amount] at hge
  omega

/-- Both swaps go on together, or the first one ends with at most what the second
comes to. -/
theorem TwoSwaps.iterate (h : TwoSwaps c orders₀ s₀ d) {t : ClmmState}
    (ht : Together c s₀ d s t) :
    (∃ s' t', clmmIteration c s = .ok (.next s') ∧ clmmIteration (c.more d) t = .ok (.next t') ∧
        Together c s₀ d s' t') ∨
      ∀ n, AtMost c s₀ (run (clmmIteration c) (clmmFinish c) (n + 1) s)
        (run (clmmIteration (c.more d)) (clmmFinish (c.more d)) (n + 1) t) := by
  obtain ⟨hs, hs', rfl⟩ := ht
  have hinv := ClmmInvariant.of_reaches h.valid h.start hs
  have hinv' := ClmmInvariant.of_reaches h.valid' h.start' hs'
  have hd := h.surplus
  have hr := hinv.remaining_nonneg
  -- the first swap is over: the second one only adds to what both have
  by_cases hend : s.remaining = 0 ∨ s.current = c.limit
  · refine .inr fun n x y hx hy => ?_
    rw [run_ended hend] at hx
    cases hx
    have hout := run_outcome h.valid' hinv' hy
    have hge := hout.consumed_ge
    rw [more_amount, more_remaining] at hge
    exact ⟨fun _ => hout.output_le, fun _ => by simp only [clmmResult]; omega⟩
  -- nothing is to be shown where one of the two iterations fails
  by_cases hok : (∃ flow, clmmIteration c s = .ok flow) ∧
      ∃ flow', clmmIteration (c.more d) (s.more d) = .ok flow'
  swap
  · exact .inr fun n x y hx hy => absurd ⟨first_ok hx, first_ok hy⟩ hok
  obtain ⟨⟨flow, hb⟩, flow', hb'⟩ := hok
  have hend' : ¬ ((s.more d).remaining = 0 ∨ (s.more d).current = (c.more d).limit) := by
    rw [not_or] at hend ⊢
    exact ⟨by rw [more_remaining]; omega, hend.2⟩
  obtain ⟨plan, moved, hplan, hmoved, hiter⟩ := clmmIteration_iterated hend hb
  obtain ⟨plan', moved', hplan', hmoved', hiter'⟩ := clmmIteration_iterated hend' hb'
  -- a plan does not look at the remaining input, so both iterations follow the same one
  obtain rfl : plan = plan' := Except.ok.inj (hplan.symm.trans (clmmPlan_more.symm.trans hplan'))
  have hp := PlanSpec.of_ok h.valid hplan
  have hi := hinv.step h.valid hplan hmoved
  -- either both steps reach the bound, or the step of the first swap uses its input up
  rcases clmmTakeStep_more hd hp.fee_le hmoved hmoved' with rfl | hends
  swap
  · exact .inr (h.step_ends hs hs' hplan hmoved hmoved' hiter hiter' hb hb' hends)
  cases hiter with
  | brk hcur hnext =>
      cases hiter' with
      | brk =>
          refine .inr fun n x y hx hy => ?_
          simp only [run, hb] at hx
          simp only [run, hb'] at hy
          rw [(clmmFinish_eq_ok.1 hx).2, (clmmFinish_eq_ok.1 hy).2]
          refine ⟨fun _ => le_rfl, fun _ => ?_⟩
          simp only [clmmResult, more_amount, more_remaining]
          omega
      | cross _ hnext' => cases hnext.symm.trans hnext'
      | pass hne => exact absurd hcur hne
  | @cross filled crossed t i hcur hnext hfill hcross =>
      cases hiter' with
      | brk _ hnext' => cases hnext.symm.trans hnext'
      | pass hne => exact absurd hcur hne
      | @cross filled' crossed' t' i' hcur' hnext' hfill' hcross' =>
          obtain ⟨rfl, rfl⟩ : t = t' ∧ i = i' := by
            simpa using hnext.symm.trans hnext'
          -- the same choice once more for the orders at the tick
          rcases clmmFillOrders_more hd hi.remaining_nonneg hp.fee_nonneg hp.fee_le
            (hi.orders_nonneg _) hfill hfill' with rfl | hends
          · obtain rfl := clmmCrossTick_more hcross hcross'
            exact .inl ⟨_, _, hb, hb', hs.snoc hb, hs'.snoc hb', advanceGroup_more⟩
          · exact .inr (h.fill_ends hs hs' hplan hmoved hcur hnext hcross hcross' hb hb' hends)
  | @pass tick hne htick =>
      cases hiter' with
      | brk hcur => exact absurd hcur hne
      | cross hcur => exact absurd hcur hne
      | @pass tick' _ htick' =>
          -- both prices are the same, and the tick is read off the price
          obtain rfl : tick = tick' := by
            rcases htick with ⟨hmove, ht⟩ | ⟨hstay, rfl⟩
            · rcases htick' with ⟨-, ht'⟩ | ⟨hstay', -⟩
              · exact Except.ok.inj (ht.symm.trans ht')
              · exact absurd hstay' hmove
            · rcases htick' with ⟨hmove', -⟩ | ⟨-, rfl⟩
              · exact absurd hstay hmove'
              · rfl
          exact .inl ⟨_, _, hb, hb', hs.snoc hb, hs'.snoc hb',
            advanceGroup_more (s := { moved with tick })⟩

/-- More input pays at least as much and charges at least as much. -/
theorem TwoSwaps.run_le (h : TwoSwaps c orders₀ s₀ d) (n : ℕ) :
    AtMost c s₀ (run (clmmIteration c) (clmmFinish c) n s₀)
      (run (clmmIteration (c.more d)) (clmmFinish (c.more d)) n (s₀.more d)) := by
  refine run_compare (R := Together c s₀ d) (fun s t ht => h.iterate ht) ?_ n
    ⟨.refl _, .refl _, rfl⟩
  rintro s t ⟨hs, hs', rfl⟩ x y hx hy
  rw [(clmmFinish_eq_ok.1 hx).2, (clmmFinish_eq_ok.1 hy).2]
  refine ⟨fun _ => le_rfl, fun _ => ?_⟩
  simp only [clmmResult, more_amount, more_remaining]
  omega

end TwoRuns

/-! ### Two calls -/

section Call

variable {pool : ClmmPool} {ticks : List ClmmTick} {a b limit feeOn timestamp : ℤ}
  {dynamic : List UInt8} {down : Bool} {c c' : ClmmSwap} {s₀ s₀' : ClmmState}

/-- Two calls that differ in the amount start from the same state, up to the
surplus. -/
theorem clmmPrepare_more
    (h : clmmPrepare pool ticks a limit feeOn dynamic timestamp down = .ok (c, s₀))
    (h' : clmmPrepare pool ticks b limit feeOn dynamic timestamp down = .ok (c', s₀')) :
    c' = c.more (b - a) ∧ s₀' = s₀.more (b - a) := by
  obtain ⟨-, -, -, -, -, horders, hc, href, hs⟩ := clmmPrepare_eq_ok.1 h
  obtain ⟨-, -, -, -, -, horders', hc', href', hs'⟩ := clmmPrepare_eq_ok.1 h'
  obtain ⟨hr, hv⟩ := Prod.mk.injEq .. ▸ href.trans href'.symm
  have ho : s₀.orders = s₀'.orders := by
    have hmap := mapM_eq_ok.2 horders
    have hmap' := mapM_eq_ok.2 horders'
    exact Except.ok.inj (hmap.symm.trans hmap')
  constructor
  · rw [hc', ← hr, ← hv, hc]
    simp [ClmmSwap.more]
  · rw [hs', ← ho, hs]
    simp [ClmmState.more]

theorem clmmSwapExactIn_le (hab : a ≤ b) {x y : ClmmSwapResult}
    (h : clmmSwapExactIn pool ticks a limit feeOn dynamic timestamp down = .ok x)
    (h' : clmmSwapExactIn pool ticks b limit feeOn dynamic timestamp down = .ok y) :
    ((feeOn = 2 → down = true → ∀ t ∈ ticks, tickPrice t.tick < pool.sqrtPrice →
        t.tick ≤ pool.tickCurrent) → x.amountOut ≤ y.amountOut) ∧
      ((∀ c s₀, clmmPrepare pool ticks a limit feeOn dynamic timestamp down = .ok (c, s₀) →
        NeverOverpays c s₀) → x.consumed ≤ y.consumed) := by
  obtain ⟨⟨c, s₀⟩, hprep, hrun⟩ := bind_eq_ok.1 h
  obtain ⟨⟨c', s₀'⟩, hprep', hrun'⟩ := bind_eq_ok.1 h'
  have hc' := ClmmSwap.Valid.of_prepare hprep'
  have hinv := ClmmInvariant.init hprep
  have hinv' := ClmmInvariant.init hprep'
  obtain ⟨hpool, -, -, -, -, -, hceq, -, hseq⟩ := clmmPrepare_eq_ok.1 hprep
  obtain ⟨rfl, rfl⟩ := clmmPrepare_more hprep hprep'
  have hswaps : TwoSwaps c s₀.orders s₀ (b - a) :=
    ⟨by omega, .of_prepare hprep, hc', hinv, hinv'⟩
  obtain ⟨hout, hconsumed⟩ := hswaps.run_le 8192 x y hrun hrun'
  refine ⟨fun hcovers => hout fun hfee hdown => ?_, fun hnever => hconsumed (hnever c s₀ hprep)⟩
  have hdown' : down = true := by rw [hceq] at hdown; exact hdown
  have hon : feeOn = 2 := by
    have hrange := (checkPool_eq_ok.1 hpool).2.2.2.2.2.2.2.1
    rw [hceq] at hfee
    simp [hdown'] at hfee
    omega
  have hticks : c.ticks = ticks := by rw [hceq]
  intro t ht hprice
  rw [hseq] at hprice ⊢
  exact hcovers hon hdown' t (hticks ▸ ht) hprice

/-- Without limit orders there is nothing to overpay. -/
theorem NeverOverpays.of_no_orders
    (h : clmmPrepare pool ticks a limit feeOn dynamic timestamp down = .ok (c, s₀))
    (hticks : ∀ t ∈ ticks, t.orders + t.partialOrders = 0) : NeverOverpays c s₀ := by
  rintro s hs ⟨plan, moved, t, i, hplan, hmoved, -, hnext, hne, hr, -⟩
  have hc := ClmmSwap.Valid.of_prepare h
  have hinv := ClmmInvariant.of_reaches hc (.init h) hs
  have hi := hinv.step hc hplan hmoved
  have hget := ((PlanSpec.of_ok hc hplan).next_index hnext).1.1
  have hmem : t ∈ ticks := by
    have hceq := (clmmPrepare_eq_ok.1 h).2.2.2.2.2.2.1
    have hmem := List.mem_of_getElem? hget
    rw [hceq] at hmem
    exact hmem
  rcases hi.orders_eq i with heq | h0 | h0
  · rw [orders_of_prepare h i t hget, hticks t hmem] at heq
    exact hne heq
  · exact hne h0
  · exact hr h0

/-- What overpays has input left to spend. -/
theorem OverpaysOrder.remaining_ne_zero (hr : 0 ≤ s₀.remaining) (h : OverpaysOrder c s₀) :
    s₀.remaining ≠ 0 := by
  obtain ⟨plan, moved, t, i, -, hmoved, -, -, -, hne, -⟩ := h
  have hm := StepSpec.of_ok hr hmoved
  have hnonneg := hm.remaining_nonneg
  have hle := hm.remaining_le
  omega

end Call

/-- A swap down to a limit order that takes the rest of its input. -/
def orderSwap : ClmmSwap :=
  { pool := ⟨2 ^ 64, 1000000, 0, 60, 3000⟩, ticks := [⟨-60, 5, 10, 5000, 0⟩], amount := 4000
    limit := tickPrice (-120), down := true, inputFee := true, enabled := false, reference := 0
    volatilityReference := 0, maximum := 0, control := 0 }

def orderStart : ClmmState :=
  { current := 2 ^ 64, tick := 0, liquidity := 1000000, remaining := 4000, output := 0
    orders := [5000], group := 0 }

/-- The order is filled in part, so what it is charged for is the input that was left. -/
theorem orderSwap_neverOverpays : NeverOverpays orderSwap orderStart := by
  have hfirst : clmmIteration orderSwap orderStart =
      .ok (.next { orderStart with
        current := tickPrice (-60)
        tick := -60
        remaining := 0
        output := 3971
        orders := [4024] }) := by decide +kernel
  have hplan : clmmPlan orderSwap orderStart =
      .ok ⟨some (⟨-60, 5, 10, 5000, 0⟩, 0), -60, tickPrice (-60), 3000, true, tickPrice (-60)⟩ := by
    decide +kernel
  have hstep : clmmTakeStep orderSwap orderStart
      ⟨some (⟨-60, 5, 10, 5000, 0⟩, 0), -60, tickPrice (-60), 3000, true, tickPrice (-60)⟩ =
        .ok { orderStart with current := tickPrice (-60), remaining := 985, output := 2995 } := by
    decide +kernel
  have hmatch : matchOrders true true 985 3000 5000 (orderPrice (tickPrice (-60)) true) =
      .ok ⟨976, 982, 3⟩ := by decide +kernel
  intro s hs hover
  have hcases : s = orderStart ∨ s.remaining = 0 := by
    refine hs.invariant (I := fun s => s = orderStart ∨ s.remaining = 0)
      (fun u v hu hnext => ?_) (.inl rfl)
    rcases hu with rfl | hzero
    · rw [hfirst] at hnext
      cases hnext
      exact .inr rfl
    · exact absurd hzero (clmmIteration_next.1 hnext).1
  rcases hcases with rfl | hzero
  · obtain ⟨plan, moved, t, i, hplan', hstep', -, hnext, -, -, m, hmatch', hgross, -⟩ := hover
    rw [hplan] at hplan'
    cases hplan'
    rw [hstep] at hstep'
    cases hstep'
    cases hnext
    obtain rfl : m = ⟨976, 982, 3⟩ := Except.ok.inj (hmatch'.symm.trans hmatch)
    exact absurd hgross (by decide)
  · exact hover.remaining_ne_zero hzero.ge hzero

end SolTrade.Clmm
