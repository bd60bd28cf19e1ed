import SolTrade.Clmm.Monotone
import SolTrade.Whirlpool.Soundness

/-!
More input never pays less, on a Whirlpool.

The argument is the one for the CLMM traversal, without its exceptions: the fee is
always on the input, so a step that falls short uses the input up, and there are
no orders.
-/

namespace SolTrade.Whirlpool

open Library BoundedLoop
open Clmm (ClmmPool ClmmTick ClmmSwapStep ClmmSwapResult clmmSwapStep clmmSwapStep_spec
  clmmSwapStep_more clmmSwapExactIn clmmSwapExactIn_le clmmPrepare NeverOverpays)

/-! ### More input -/

/-- The same swap with `d` more to spend. -/
def WhirlpoolSwap.more (c : WhirlpoolSwap) (d : ℤ) : WhirlpoolSwap :=
  { c with amount := c.amount + d }

/-- The same state with `d` more left to spend. -/
def WhirlpoolState.more (s : WhirlpoolState) (d : ℤ) : WhirlpoolState :=
  { s with remaining := s.remaining + d }

section More

variable {c : WhirlpoolSwap} {s s' t' moved moved' landed landed' : WhirlpoolState}
  {plan : WhirlpoolPlan} {d old : ℤ}

@[simp] theorem more_amount : (c.more d).amount = c.amount + d := rfl
@[simp] theorem more_limit : (c.more d).limit = c.limit := rfl
@[simp] theorem more_remaining : (s.more d).remaining = s.remaining + d := rfl
@[simp] theorem more_current : (s.more d).current = s.current := rfl
@[simp] theorem more_output : (s.more d).output = s.output := rfl

/-- A plan does not look at the input. -/
@[simp] theorem whirlpoolPlan_more : whirlpoolPlan (c.more d) (s.more d) = whirlpoolPlan c s := rfl

theorem stepRemaining_more (step : ClmmSwapStep) :
    stepRemaining (s.more d) step = stepRemaining s step + d := by
  simp only [stepRemaining, more_remaining]
  omega

/-- Landing does not look at the input either. -/
theorem whirlpoolLand_more (h : whirlpoolLand c plan old s = .ok landed) :
    whirlpoolLand (c.more d) plan old (s.more d) = .ok (landed.more d) := by
  unfold whirlpoolLand at h
  split at h
  · rename_i hcur
    obtain ⟨liquidity, hl, h⟩ := bind_eq_ok.1 h
    cases h
    rw [whirlpoolLand, if_pos (show (s.more d).current = plan.nextPrice from hcur)]
    exact bind_eq_ok.2 ⟨liquidity, hl, rfl⟩
  · rename_i hcur
    rw [whirlpoolLand, if_neg (show ¬ (s.more d).current = plan.nextPrice from hcur)]
    split at h
    · rename_i hne
      obtain ⟨tick, ht, h⟩ := bind_eq_ok.1 h
      cases h
      rw [if_pos (show (s.more d).current ≠ old from hne)]
      exact bind_eq_ok.2 ⟨tick, ht, rfl⟩
    · rename_i heq
      cases h
      rw [if_neg (show ¬ (s.more d).current ≠ old from heq)]

theorem advanceGroup_more (h : advanceGroup c plan s = .ok s') :
    advanceGroup (c.more d) plan (s.more d) = .ok (s'.more d) := by
  have hgroup : advanceGroup (c.more d) plan (s.more d) = (do
      let next ← advanceGroup c plan s
      return next.more d) := by
    obtain ⟨pool, ticks, amount, limit, lower, upper, down, adaptive⟩ := c
    cases adaptive with
    | none => rfl
    | some a =>
        simp only [advanceGroup, WhirlpoolSwap.more, bind_assoc]
        rfl
  rw [hgroup, h]
  rfl

/-- The first of two swaps comes to its end in a step, which uses its input up. -/
structure StepEnds (d : ℤ) (moved moved' : WhirlpoolState) : Prop where
  left : moved.remaining = 0
  output_le : moved.output ≤ moved'.output
  surplus_le : moved'.remaining ≤ d

theorem whirlpoolTakeStep_more (hd : 0 ≤ d) (h : whirlpoolTakeStep c s plan = .ok moved)
    (h' : whirlpoolTakeStep (c.more d) (s.more d) plan = .ok moved') :
    moved' = moved.more d ∨ StepEnds d moved moved' := by
  obtain ⟨step, hstep, -, -, -, rfl⟩ := whirlpoolTakeStep_eq_ok.1 h
  obtain ⟨step', hstep', -, -, -, rfl⟩ := whirlpoolTakeStep_eq_ok.1 h'
  rcases clmmSwapStep_more hd hstep hstep' with ⟨-, rfl⟩ | hshort
  · refine .inl ?_
    simp only [afterStep, stepRemaining_more]
    rfl
  · have hall := (clmmSwapStep_spec hstep).2.2.2.2.2.2.resolve_left hshort.short.ne
    have hcharge := hshort.charge_ge
    have hout := hshort.amountOut_le
    refine .inr ⟨?_, ?_, ?_⟩ <;> simp only [afterStep, stepRemaining, more_remaining, more_output]
    · omega
    · omega
    · omega

end More

/-! ### What a run adds -/

section Outcome

variable {c : WhirlpoolSwap} {s s' moved landed : WhirlpoolState} {plan : WhirlpoolPlan}
  {x : WhirlpoolSwapResult} {n : ℕ}

/-- After the loop: using up the budget is an error. -/
def whirlpoolFinish : WhirlpoolState → Except ValueError WhirlpoolSwapResult :=
  fun _ => .error .whirlpoolBudgetExhausted

theorem whirlpoolLand_output {old : ℤ} (h : whirlpoolLand c plan old moved = .ok landed) :
    landed.output = moved.output := by
  unfold whirlpoolLand at h
  split at h
  · obtain ⟨_, -, h⟩ := bind_eq_ok.1 h
    cases h
    rfl
  · split at h
    · obtain ⟨_, -, h⟩ := bind_eq_ok.1 h
      cases h
      rfl
    · cases h
      rfl

/-- The output of the next state is that of the step. -/
theorem WhirlpoolTransition.output_eq (h : WhirlpoolTransition c s plan moved landed s') :
    s'.output = moved.output := by
  have hout := whirlpoolLand_output h.landed_ok
  rw [(GroupSpec.of_ok h.group_ok).frame]
  exact hout

/-- An iteration only adds to the output and only takes from the input. -/
theorem whirlpoolTakeStep_adds (h : whirlpoolTakeStep c s plan = .ok moved) :
    s.output ≤ moved.output ∧ moved.remaining ≤ s.remaining := by
  obtain ⟨step, hstep, -, -, -, rfl⟩ := whirlpoolTakeStep_eq_ok.1 h
  obtain ⟨-, -, hin, hfee, hout, -, -⟩ := clmmSwapStep_spec hstep
  constructor <;> simp only [afterStep, stepRemaining] <;> omega

/-- A run only adds to what its first state has. -/
theorem run_outcome (hc : c.Valid) (hinv : WhirlpoolInvariant c s)
    (h : run (whirlpoolIteration c) whirlpoolFinish n s = .ok x) :
    s.output ≤ x.amountOut ∧ c.amount - s.remaining ≤ x.consumed ∧ x.consumed ≤ c.amount := by
  obtain ⟨t, ht, hret | ⟨u, hbrk, -⟩ | ⟨-, hfinish⟩⟩ := run_ok h
  · obtain ⟨hi, hout, hrem⟩ := ht.invariant
      (I := fun u => WhirlpoolInvariant c u ∧ s.output ≤ u.output ∧ u.remaining ≤ s.remaining)
      (fun u v hu hb => by
        obtain ⟨-, -, -, plan, moved, landed, htrans⟩ := whirlpoolIteration_next.1 hb
        obtain ⟨hout, hrem⟩ := whirlpoolTakeStep_adds htrans.moved_ok
        refine ⟨hu.1.next hc htrans, ?_, ?_⟩
        · rw [htrans.output_eq]
          exact hu.2.1.trans hout
        · rw [htrans.frame.2.1]
          exact hrem.trans hu.2.2) ⟨hinv, le_rfl, le_rfl⟩
    have hr := hi.remaining_nonneg
    rw [(whirlpoolIteration_ret.1 hret).2]
    simp only [whirlpoolResult]
    omega
  · exact absurd hbrk whirlpoolIteration_brk
  · cases hfinish

/-- Nothing is run after the end of a swap. -/
theorem run_ended (hend : s.remaining = 0 ∨ s.current = c.limit)
    (h : run (whirlpoolIteration c) whirlpoolFinish n s = .ok x) : x = whirlpoolResult c s := by
  cases n with
  | zero => cases h
  | succ n =>
      simp only [run, whirlpoolIteration_ret.2 ⟨hend, rfl⟩, Except.ok.injEq] at h
      exact h.symm

/-- A run that returns and has not ended goes on. -/
theorem run_goes_on (hend : ¬ (s.remaining = 0 ∨ s.current = c.limit))
    (h : run (whirlpoolIteration c) whirlpoolFinish (n + 1) s = .ok x) :
    ∃ s', whirlpoolIteration c s = .ok (.next s') := by
  obtain ⟨flow, hb⟩ := first_ok h
  cases flow with
  | next s' => exact ⟨s', hb⟩
  | brk s' => exact absurd hb whirlpoolIteration_brk
  | ret r => exact absurd (whirlpoolIteration_ret.1 hb).1 hend

end Outcome

/-! ### Two runs -/

section TwoRuns

variable {c : WhirlpoolSwap} {s₀ s t : WhirlpoolState} {d : ℤ}

/-- If both swaps return, the first pays and charges at most what the second does. -/
def AtMost (first second : Except ValueError WhirlpoolSwapResult) : Prop :=
  ∀ x y, first = .ok x → second = .ok y → x.amountOut ≤ y.amountOut ∧ x.consumed ≤ y.consumed

/-- Both swaps have come to the same state, up to the surplus. -/
structure Together (c : WhirlpoolSwap) (d : ℤ) (s t : WhirlpoolState) : Prop where
  sound : WhirlpoolInvariant c s
  sound' : WhirlpoolInvariant (c.more d) t
  eq : t = s.more d

/-- Both swaps go on together, or the first one ends with at most what the second
comes to. -/
theorem Together.iterate (hd : 0 ≤ d) (hc : c.Valid) (hc' : (c.more d).Valid)
    (h : Together c d s t) :
    (∃ s' t', whirlpoolIteration c s = .ok (.next s') ∧
        whirlpoolIteration (c.more d) t = .ok (.next t') ∧ Together c d s' t') ∨
      ∀ n, AtMost (run (whirlpoolIteration c) whirlpoolFinish (n + 1) s)
        (run (whirlpoolIteration (c.more d)) whirlpoolFinish (n + 1) t) := by
  obtain ⟨hinv, hinv', rfl⟩ := h
  have hr := hinv.remaining_nonneg
  -- the first swap is over: the second one only adds to what both have
  by_cases hend : s.remaining = 0 ∨ s.current = c.limit
  · refine .inr fun n x y hx hy => ?_
    rw [run_ended hend hx]
    obtain ⟨hout, hge, -⟩ := run_outcome hc' hinv' hy
    rw [more_amount, more_remaining] at hge
    refine ⟨hout, ?_⟩
    simp only [whirlpoolResult]
    omega
  have hend' : ¬ ((s.more d).remaining = 0 ∨ (s.more d).current = (c.more d).limit) := by
    rw [not_or] at hend ⊢
    exact ⟨by rw [more_remaining]; omega, hend.2⟩
  by_cases hok : (∃ s', whirlpoolIteration c s = .ok (.next s')) ∧
      ∃ t', whirlpoolIteration (c.more d) (s.more d) = .ok (.next t')
  swap
  · exact .inr fun n x y hx hy => absurd ⟨run_goes_on hend hx, run_goes_on hend' hy⟩ hok
  obtain ⟨⟨s', hb⟩, t', hb'⟩ := hok
  obtain ⟨-, -, -, plan, moved, landed, htrans⟩ := whirlpoolIteration_next.1 hb
  obtain ⟨-, -, -, plan', moved', landed', htrans'⟩ := whirlpoolIteration_next.1 hb'
  -- a plan does not look at the remaining input, so both iterations follow the same one
  obtain rfl : plan = plan' :=
    Except.ok.inj (htrans.plan_ok.symm.trans (whirlpoolPlan_more.symm.trans htrans'.plan_ok))
  have hnext := hinv.next hc htrans
  have hnext' := hinv'.next hc' htrans'
  -- either both steps reach the bound, or the step of the first swap uses its input up
  rcases whirlpoolTakeStep_more hd htrans.moved_ok htrans'.moved_ok with rfl | hends
  · refine .inl ⟨s', t', hb, hb', hnext, hnext', ?_⟩
    obtain rfl : landed' = landed.more d :=
      Except.ok.inj (htrans'.landed_ok.symm.trans (whirlpoolLand_more htrans.landed_ok))
    exact Except.ok.inj (htrans'.group_ok.symm.trans (advanceGroup_more htrans.group_ok))
  · refine .inr fun n x y hx hy => ?_
    rw [run_next hb] at hx
    rw [run_next hb'] at hy
    have hused : s'.remaining = 0 := htrans.frame.2.1.trans hends.left
    have hout := hends.output_le
    have hsurplus := hends.surplus_le
    obtain ⟨hout', hge, -⟩ := run_outcome hc' hnext' hy
    rw [htrans'.output_eq] at hout'
    rw [more_amount, htrans'.frame.2.1] at hge
    rw [run_ended (.inl hused) hx]
    simp only [whirlpoolResult, hused, htrans.output_eq]
    omega

/-- More input pays at least as much and charges at least as much. -/
theorem run_le (hd : 0 ≤ d) (hc : c.Valid) (hc' : (c.more d).Valid)
    (h : WhirlpoolInvariant c s₀) (h' : WhirlpoolInvariant (c.more d) (s₀.more d)) (n : ℕ) :
    AtMost (run (whirlpoolIteration c) whirlpoolFinish n s₀)
      (run (whirlpoolIteration (c.more d)) whirlpoolFinish n (s₀.more d)) := by
  refine run_compare (R := Together c d) (fun s t ht => ht.iterate hd hc hc') ?_ n ⟨h, h', rfl⟩
  intro s t _ x y hx
  cases hx

end TwoRuns

/-! ### Two calls -/

section Call

variable {pool : ClmmPool} {ticks : List ClmmTick} {arrayStarts : List ℤ}
  {a b timestamp limit : ℤ} {down : Bool} {adaptive : Option WhirlpoolAdaptiveFee}
  {c c' : WhirlpoolSwap} {s₀ s₀' : WhirlpoolState} {x y : WhirlpoolSwapResult}

/-- Two calls that differ in the amount start from the same state, up to the
surplus. -/
theorem whirlpoolPrepare_more
    (h : whirlpoolPrepare pool ticks arrayStarts a timestamp down adaptive limit = .ok (c, s₀))
    (h' : whirlpoolPrepare pool ticks arrayStarts b timestamp down adaptive limit =
      .ok (c', s₀')) : c' = c.more (b - a) ∧ s₀' = s₀.more (b - a) := by
  obtain ⟨-, -, -, -, -, -, ha, hc, hs⟩ := whirlpoolPrepare_eq_ok.1 h
  obtain ⟨-, -, -, -, -, -, ha', hc', hs'⟩ := whirlpoolPrepare_eq_ok.1 h'
  have hsame : c.adaptive = c'.adaptive := Except.ok.inj (ha.symm.trans ha')
  constructor
  · rw [hc', ← hsame, hc]
    simp [WhirlpoolSwap.more]
  · rw [hs', ← hsame, hs]
    simp [WhirlpoolState.more]

theorem whirlpoolSwapExactIn_le (hab : a ≤ b)
    (h : whirlpoolSwapExactIn pool ticks arrayStarts a timestamp down adaptive limit = .ok x)
    (h' : whirlpoolSwapExactIn pool ticks arrayStarts b timestamp down adaptive limit = .ok y) :
    x.amountOut ≤ y.amountOut ∧ x.consumed ≤ y.consumed := by
  obtain ⟨⟨c, s₀⟩, hprep, hrun⟩ := bind_eq_ok.1 h
  obtain ⟨⟨c', s₀'⟩, hprep', hrun'⟩ := bind_eq_ok.1 h'
  have hc' := WhirlpoolSwap.Valid.of_prepare hprep'
  have hinv' := WhirlpoolInvariant.init hprep'
  obtain ⟨rfl, rfl⟩ := whirlpoolPrepare_more hprep hprep'
  exact run_le (by omega) (.of_prepare hprep) hc' (.init hprep) hinv' 8192 x y hrun hrun'

/-- Both quotes are monotone in the input, in both directions. A Whirlpool is so
throughout. A CLMM swap pays at least as much for more input unless, with the fee
on the output, it goes down from a tick that is too low for its price; and it
charges at least as much unless the smaller swap overpays an order. -/
theorem exactIn_monotone (hab : a ≤ b) :
    (∀ (pool : ClmmPool) (ticks : List ClmmTick) (limit feeOn : ℤ) (dynamic : List UInt8)
      (timestamp : ℤ) (down : Bool) (x y : ClmmSwapResult),
      clmmSwapExactIn pool ticks a limit feeOn dynamic timestamp down = .ok x →
      clmmSwapExactIn pool ticks b limit feeOn dynamic timestamp down = .ok y →
      ((feeOn = 2 → down = true → ∀ t ∈ ticks, Clmm.tickPrice t.tick < pool.sqrtPrice →
          t.tick ≤ pool.tickCurrent) → x.amountOut ≤ y.amountOut) ∧
        ((∀ c s₀, clmmPrepare pool ticks a limit feeOn dynamic timestamp down = .ok (c, s₀) →
          NeverOverpays c s₀) → x.consumed ≤ y.consumed)) ∧
    ∀ (pool : ClmmPool) (ticks : List ClmmTick) (arrayStarts : List ℤ) (timestamp : ℤ)
      (down : Bool) (adaptive : Option WhirlpoolAdaptiveFee) (limit : ℤ)
      (x y : WhirlpoolSwapResult),
      whirlpoolSwapExactIn pool ticks arrayStarts a timestamp down adaptive limit = .ok x →
      whirlpoolSwapExactIn pool ticks arrayStarts b timestamp down adaptive limit = .ok y →
      x.amountOut ≤ y.amountOut ∧ x.consumed ≤ y.consumed :=
  ⟨fun _ _ _ _ _ _ _ _ _ h h' => clmmSwapExactIn_le hab h h',
    fun _ _ _ _ _ _ _ _ _ h h' => whirlpoolSwapExactIn_le hab h h'⟩

/-- Swaps down through a tick, with the fee on the output for the CLMM, and to a
limit order that both of them fill in part. -/
theorem exactIn_monotone_down :
    (((1990 : ℤ) ≤ 3971 ∧ (2000 : ℤ) ≤ 4000) ∧ (1988 : ℤ) ≤ 3970 ∧ (2000 : ℤ) ≤ 4000) ∧
      (3971 : ℤ) ≤ 4962 ∧ (4000 : ℤ) ≤ 5000 := by
  have h₁ : clmmSwapExactIn ⟨2 ^ 64, 1000000, 0, 60, 3000⟩ [⟨-60, 5, 10, 0, 0⟩] 2000
      (Clmm.tickPrice (-120)) 2 (List.replicate 80 0) 100 true =
        .ok ⟨2000, 1990, 18409924225259033549, -40, 1000000⟩ := by decide +kernel
  have h₂ : clmmSwapExactIn ⟨2 ^ 64, 1000000, 0, 60, 3000⟩ [⟨-60, 5, 10, 0, 0⟩] 4000
      (Clmm.tickPrice (-120)) 2 (List.replicate 80 0) 100 true =
        .ok ⟨4000, 3971, 18373262799080801710, -80, 999995⟩ := by decide +kernel
  have h₃ : whirlpoolSwapExactIn ⟨2 ^ 64, 1000000, 0, 1, 3000⟩ [⟨-20, 5, 10, 0, 0⟩] [-88, 0]
      2000 100 true none 0 =
        .ok ⟨2000, 1988, 7, 3000, 3000, 18410062850459191688, -40, 999995⟩ := by decide +kernel
  have h₄ : whirlpoolSwapExactIn ⟨2 ^ 64, 1000000, 0, 1, 3000⟩ [⟨-20, 5, 10, 0, 0⟩] [-88, 0]
      4000 100 true none 0 =
        .ok ⟨4000, 3970, 13, 3000, 3000, 18373498763042706156, -80, 999995⟩ := by decide +kernel
  have h₅ : clmmSwapExactIn ⟨2 ^ 64, 1000000, 0, 60, 3000⟩ [⟨-60, 5, 10, 5000, 0⟩] 4000
      (Clmm.tickPrice (-120)) 0 (List.replicate 80 0) 100 true =
        .ok ⟨4000, 3971, 18391489527427966291, -60, 1000000⟩ := by decide +kernel
  have h₆ : clmmSwapExactIn ⟨2 ^ 64, 1000000, 0, 60, 3000⟩ [⟨-60, 5, 10, 5000, 0⟩] 5000
      (Clmm.tickPrice (-120)) 0 (List.replicate 80 0) 100 true =
        .ok ⟨5000, 4962, 18391489527427966291, -60, 1000000⟩ := by decide +kernel
  have hprepare : clmmPrepare ⟨2 ^ 64, 1000000, 0, 60, 3000⟩ [⟨-60, 5, 10, 5000, 0⟩] 4000
      (Clmm.tickPrice (-120)) 0 (List.replicate 80 0) 100 true =
        .ok (Clmm.orderSwap, Clmm.orderStart) := by decide +kernel
  constructor
  · obtain ⟨hclmm, hwhirlpool⟩ := exactIn_monotone (a := 2000) (b := 4000) (by norm_num)
    obtain ⟨hout, hconsumed⟩ := hclmm _ _ _ _ _ _ _ _ _ h₁ h₂
    exact ⟨⟨hout fun _ _ => by decide +kernel,
      hconsumed fun _ _ hprep => .of_no_orders hprep (by decide)⟩,
      hwhirlpool _ _ _ _ _ _ _ _ _ h₃ h₄⟩
  · obtain ⟨hclmm, -⟩ := exactIn_monotone (a := 4000) (b := 5000) (by norm_num)
    obtain ⟨hout, hconsumed⟩ := hclmm _ _ _ _ _ _ _ _ _ h₅ h₆
    refine ⟨hout fun h => absurd h (by decide), hconsumed fun c s₀ hprep => ?_⟩
    rw [hprepare] at hprep
    cases hprep
    exact Clmm.orderSwap_neverOverpays

/-- A dynamic fee with the filter and decay periods 10 and 20, the reference group
`-2` and the timestamp 100. -/
def volatileFee : List UInt8 :=
  [10, 0, 20, 0, 136, 19, 159, 134, 1, 0, 160, 134, 1, 0, 254, 255, 255, 255] ++
    List.replicate 8 0 ++ [100] ++ List.replicate 53 0

/-- Monotonicity as such fails: an order matched exactly takes the whole input,
where more input takes it for what it costs; and from a tick that is too low for
its price, a swap down with the fee on the output fills an order that with more
input it passes by. -/
theorem exactIn_not_monotone :
    ¬ (∀ (pool : ClmmPool) (ticks : List ClmmTick) (a b limit feeOn : ℤ) (dynamic : List UInt8)
      (timestamp : ℤ) (down : Bool) (x y : ClmmSwapResult), a ≤ b →
      clmmSwapExactIn pool ticks a limit feeOn dynamic timestamp down = .ok x →
      clmmSwapExactIn pool ticks b limit feeOn dynamic timestamp down = .ok y →
      x.consumed ≤ y.consumed) ∧
    ¬ (∀ (pool : ClmmPool) (ticks : List ClmmTick) (a b limit feeOn : ℤ) (dynamic : List UInt8)
      (timestamp : ℤ) (down : Bool) (x y : ClmmSwapResult), a ≤ b →
      clmmSwapExactIn pool ticks a limit feeOn dynamic timestamp down = .ok x →
      clmmSwapExactIn pool ticks b limit feeOn dynamic timestamp down = .ok y →
      x.amountOut ≤ y.amountOut) := by
  have h₁ : clmmSwapExactIn ⟨Clmm.tickPrice (-69060), 0, -69060, 60, 0⟩ [⟨-69060, 0, 0, 5, 0⟩]
      5900 (Clmm.tickPrice (-69060) - 1) 0 (List.replicate 80 0) 100 true =
        .ok ⟨5900, 5, 583950255007053697, -69061, 0⟩ := by decide +kernel
  have h₂ : clmmSwapExactIn ⟨Clmm.tickPrice (-69060), 0, -69060, 60, 0⟩ [⟨-69060, 0, 0, 5, 0⟩]
      5991 (Clmm.tickPrice (-69060) - 1) 0 (List.replicate 80 0) 100 true =
        .ok ⟨4990, 5, 583950255007053696, -69061, 0⟩ := by decide +kernel
  have h₃ : clmmSwapExactIn ⟨2 ^ 64 + 1, 2 ^ 74, -1, 100, 0⟩ [⟨0, 0, 0, 5000, 0⟩] 2048
      (2 ^ 64 - 1) 2 volatileFee 100 true =
        .ok ⟨2048, 2037, 18446744073709551616, 0, 18889465931478580854784⟩ := by decide +kernel
  have h₄ : clmmSwapExactIn ⟨2 ^ 64 + 1, 2 ^ 74, -1, 100, 0⟩ [⟨0, 0, 0, 5000, 0⟩] 2049
      (2 ^ 64 - 1) 2 volatileFee 100 true =
        .ok ⟨2049, 2027, 18446744073709551615, -1, 18889465931478580854784⟩ := by decide +kernel
  refine ⟨fun h => ?_, fun h => ?_⟩
  · exact absurd (h _ _ _ _ _ _ _ _ _ _ _ (by norm_num) h₁ h₂) (by decide)
  · exact absurd (h _ _ _ _ _ _ _ _ _ _ _ (by norm_num) h₃ h₄) (by decide)

end Call

end SolTrade.Whirlpool
