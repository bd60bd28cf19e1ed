import SolTrade.Whirlpool.Iteration

/-!
The invariants of the Whirlpool traversal.

`WhirlpoolInvariant` is the accounting of input, fees and fee rates, which needs
nothing of the pool. Tick and price stay consistent up to the end of the price
range, and with them the window check means what it says.
-/

namespace SolTrade.Whirlpool

open Library BoundedLoop
open Clmm (ClmmPool ClmmTick clmmSwapStep clmmSwapStep_ne_error minTick maxTick)

structure WhirlpoolInvariant (c : WhirlpoolSwap) (s : WhirlpoolState) : Prop where
  remaining_nonneg : 0 ≤ s.remaining
  start : Beyond c.down c.pool.sqrtPrice s.current
  limit : Beyond c.down s.current c.limit
  fees_nonneg : 0 ≤ s.fees
  fees_le : s.fees ≤ c.amount - s.remaining
  minimumFee_ge : c.pool.feeRate ≤ s.minimumFee
  minimumFee_le : s.minimumFee ≤ s.maximumFee
  maximumFee_le : s.maximumFee ≤ 100000
  static : c.adaptive = none → s.minimumFee = c.pool.feeRate ∧ s.maximumFee = c.pool.feeRate

/-- The price at which the range ends in the direction of the swap. -/
def rangeEnd (down : Bool) : ℤ := if down then minSqrtPrice else maxSqrtPrice

section Step

variable {c : WhirlpoolSwap} {s s' moved landed : WhirlpoolState} {plan : WhirlpoolPlan}

theorem WhirlpoolSwap.Valid.limit_rangeEnd (hc : c.Valid) :
    Beyond c.down c.limit (rangeEnd c.down) := by
  have h₁ := hc.limit_ge
  have h₂ := hc.limit_le
  cases hd : c.down <;> simpa [rangeEnd]

/-- A swap that has not met its limit has not met the end of the range. -/
theorem WhirlpoolInvariant.ne_rangeEnd (hc : c.Valid) (h : WhirlpoolInvariant c s)
    (hl : s.current ≠ c.limit) : s.current ≠ rangeEnd c.down :=
  ((strictlyBeyond_iff.2 ⟨h.limit, hl⟩).trans_beyond hc.limit_rangeEnd).ne

theorem WhirlpoolInvariant.current_le (hc : c.Valid) (h : WhirlpoolInvariant c s) :
    s.current ≤ maxSqrtPrice := by
  have h₁ := h.start
  have h₂ := h.limit
  have h₃ := hc.price_le
  have h₄ := hc.limit_le
  cases hd : c.down <;> simp [hd] at h₁ h₂ <;> omega

/-- The price, the remaining amount and the fees of the next state are those of
the step. -/
theorem WhirlpoolTransition.frame (h : WhirlpoolTransition c s plan moved landed s') :
    s'.current = moved.current ∧ s'.remaining = moved.remaining ∧ s'.fees = moved.fees ∧
      s'.minimumFee = moved.minimumFee ∧ s'.maximumFee = moved.maximumFee ∧
      s'.tick = landed.tick := by
  have hl := LandSpec.of_ok h.landed_ok
  rw [(GroupSpec.of_ok h.group_ok).frame]
  exact ⟨hl.current_eq, hl.remaining_eq, hl.fees_eq, hl.minimumFee_eq, hl.maximumFee_eq, rfl⟩

theorem WhirlpoolTransition.advances (h : WhirlpoolTransition c s plan moved landed s') :
    Beyond c.down s.current s'.current := by
  rw [h.frame.1]
  exact (StepSpec.of_ok h.moved_ok).advances

/-- The accounting is kept by every iteration. -/
theorem WhirlpoolInvariant.next (hc : c.Valid) (hi : WhirlpoolInvariant c s)
    (h : WhirlpoolTransition c s plan moved landed s') : WhirlpoolInvariant c s' := by
  have hp := PlanSpec.of_ok hc h.plan_ok
  have hm := StepSpec.of_ok h.moved_ok
  obtain ⟨hcur, hrem, hfees, hmin, hmax, -⟩ := h.frame
  have hfee_ge := hp.fee_ge
  have hfee_le := hp.fee_le
  have hmin_ge := hi.minimumFee_ge
  have hmin_le := hi.minimumFee_le
  have hmax_le := hi.maximumFee_le
  have hfees₀ := hi.fees_nonneg
  have hfees₁ := hi.fees_le
  have hfees₂ := hm.fees_ge
  have hcharged := hm.charged
  rw [hm.minimumFee_eq] at hmin
  rw [hm.maximumFee_eq] at hmax
  refine
    { remaining_nonneg := hrem ▸ hm.remaining_nonneg
      start := hcur ▸ hi.start.trans hm.advances
      limit := hcur ▸ hm.within_bound.trans hp.bound_limit
      fees_nonneg := by omega
      fees_le := by omega
      minimumFee_ge := by rw [hmin]; split <;> omega
      minimumFee_le := by rw [hmin, hmax]; split <;> omega
      maximumFee_le := by rw [hmax]; split <;> omega
      static := fun ha => ?_ }
  have hfee : plan.fee = c.pool.feeRate := by rw [hp.fee_eq, feeOf, ha]
  obtain ⟨h₁, h₂⟩ := hi.static ha
  rw [hmin, hmax, hfee, h₁, h₂]
  split <;> simp

/-- A price reached by a move is below the last one, short of the end of the
range. -/
theorem WhirlpoolTransition.lt_last (hc : c.Valid) (hi : WhirlpoolInvariant c s)
    (h : WhirlpoolTransition c s plan moved landed s') (hne : moved.current ≠ s.current)
    (hend : s'.current ≠ rangeEnd c.down) : moved.current < tickPrice maxTick := by
  have hle := (hi.next hc h).current_le hc
  have hold := hi.current_le hc
  have hadv := (StepSpec.of_ok h.moved_ok).advances
  rw [h.frame.1] at hle hend
  rw [tickPrice_maxTick]
  cases hd : c.down with
  | true =>
      rw [hd, beyond_true] at hadv
      omega
  | false =>
      rw [hd] at hend
      exact lt_of_le_of_ne hle hend

/-- Tick and price stay consistent, short of the end of the price range. -/
theorem WhirlpoolTransition.tickConsistent (hc : c.Valid) (hi : WhirlpoolInvariant c s)
    (hcons : TickConsistent s.tick s.current)
    (h : WhirlpoolTransition c s plan moved landed s') (hend : s'.current ≠ rangeEnd c.down) :
    TickConsistent s'.tick s'.current := by
  have hp := PlanSpec.of_ok hc h.plan_ok
  have hm := StepSpec.of_ok h.moved_ok
  obtain ⟨hcur, -, -, -, -, htick⟩ := h.frame
  rw [hcur] at hend ⊢
  rw [htick]
  rcases (LandSpec.of_ok h.landed_ok).tick_cases with ⟨hat, ht⟩ | ⟨-, hne, ht⟩ | ⟨-, heq, ht⟩
  · rw [hat, hp.nextPrice_eq] at hend ⊢
    rw [ht]
    cases hd : c.down with
    | true =>
        rw [hd] at hend
        have hlt : minTick < plan.nextIndex := lt_of_le_of_ne hp.nextIndex_ge fun h =>
          hend (h ▸ tickPrice_minTick)
        exact tickTable.brackets_below hlt hp.nextIndex_le
    | false =>
        rw [hd] at hend
        have hlt : plan.nextIndex < maxTick := lt_of_le_of_ne hp.nextIndex_le fun h =>
          hend (h ▸ tickPrice_maxTick)
        exact tickTable.brackets_self hp.nextIndex_ge hlt
  · exact (whirlpoolTickAtSqrtPrice_spec ht).brackets (h.lt_last hc hi hne (hcur ▸ hend))
  · rw [ht, hm.tick_eq, heq]
    exact hcons

/-- Where the window ends, the price is at the edge. -/
theorem edge_beyond_of_outside (hc : c.Valid) (hcons : TickConsistent s.tick s.current)
    (h : OutsideWindow c s) : Beyond c.down (tickPrice (windowEdge c)) s.current := by
  have hge := hc.edge_ge
  have hle := hc.edge_le
  obtain ⟨h₁, h₂, h₃, h₄⟩ := hcons
  simp only [OutsideWindow, windowEdge] at h hge hle ⊢
  cases hd : c.down with
  | true =>
      simp only [hd, if_true] at h hge hle ⊢
      have := (tickTable.le_iff (a := s.tick + 1) (b := c.lower) (h₁.trans (by omega)) h₂ hge
        hle).2 (by omega)
      exact h₄.trans this
  | false =>
      simp only [hd, Bool.false_eq_true, if_false] at h hge hle ⊢
      exact ((tickTable.le_iff hge hle h₁ h₂.le).2 h).trans h₃

/-! ### Errors -/

theorem whirlpoolSqrtPriceAtTick_ne_moreArrays (t : ℤ) :
    whirlpoolSqrtPriceAtTick t ≠ .error .whirlpoolRequiresMoreTickArrays :=
  bind_ne_error (require_ne_error (by decide)) fun _ => pure_ne_error

theorem unsigned_ne_moreArrays (v maximum : ℤ) :
    unsigned v maximum ≠ .error .whirlpoolRequiresMoreTickArrays :=
  unsigned_ne_error (by decide)

theorem whirlpoolTickAtSqrtPrice_ne_moreArrays (p : ℤ) :
    whirlpoolTickAtSqrtPrice p ≠ .error .whirlpoolRequiresMoreTickArrays :=
  bind_ne_error (unsigned_ne_moreArrays _ _) fun _ =>
    bind_ne_error (require_ne_error (by decide)) fun _ => pure_ne_error

theorem whirlpoolPlan_ne_moreArrays :
    whirlpoolPlan c s ≠ .error .whirlpoolRequiresMoreTickArrays := by
  refine bind_ne_error (whirlpoolSqrtPriceAtTick_ne_moreArrays _) fun _ => ?_
  split
  · exact pure_ne_error
  · dsimp only
    split
    · exact pure_ne_error
    · exact bind_ne_error (whirlpoolSqrtPriceAtTick_ne_moreArrays _) fun _ => pure_ne_error

theorem whirlpoolTakeStep_ne_moreArrays :
    whirlpoolTakeStep c s plan ≠ .error .whirlpoolRequiresMoreTickArrays :=
  bind_ne_error (clmmSwapStep_ne_error (by decide) (by decide) (by decide) (by decide)) fun _ =>
    bind_ne_error (unsigned_ne_moreArrays _ _) fun _ =>
    bind_ne_error (unsigned_ne_moreArrays _ _) fun _ =>
    bind_ne_error (unsigned_ne_moreArrays _ _) fun _ => pure_ne_error

theorem whirlpoolLand_ne_moreArrays {old : ℤ} :
    whirlpoolLand c plan old s ≠ .error .whirlpoolRequiresMoreTickArrays := by
  refine ite_ne_error (bind_ne_error ?_ fun _ => pure_ne_error)
    (ite_ne_error (bind_ne_error (whirlpoolTickAtSqrtPrice_ne_moreArrays _) fun _ => pure_ne_error)
      pure_ne_error)
  split
  · exact unsigned_ne_moreArrays _ _
  · exact pure_ne_error

theorem advanceGroup_ne_moreArrays :
    advanceGroup c plan s ≠ .error .whirlpoolRequiresMoreTickArrays := by
  unfold advanceGroup
  split
  · exact pure_ne_error
  · exact bind_ne_error (ite_ne_error (bind_ne_error
      (ite_ne_error pure_ne_error (whirlpoolTickAtSqrtPrice_ne_moreArrays _)) fun _ =>
      pure_ne_error) pure_ne_error) fun _ => pure_ne_error

/-- More arrays are required only by the window check. -/
theorem whirlpoolIteration_moreArrays
    (h : whirlpoolIteration c s = .error .whirlpoolRequiresMoreTickArrays) :
    s.remaining ≠ 0 ∧ s.current ≠ c.limit ∧ OutsideWindow c s := by
  unfold whirlpoolIteration at h
  split at h
  · cases h
  · rename_i hend
    obtain ⟨hr, hl⟩ := not_or.1 hend
    refine ⟨hr, hl, ?_⟩
    by_contra hout
    rw [require_of hout, ok_bind] at h
    revert h
    exact bind_ne_error whirlpoolPlan_ne_moreArrays fun _ =>
      bind_ne_error whirlpoolTakeStep_ne_moreArrays fun _ =>
      bind_ne_error whirlpoolLand_ne_moreArrays fun _ =>
      bind_ne_error advanceGroup_ne_moreArrays fun _ => pure_ne_error

end Step

/-! ### Whole runs -/

section Run

variable {pool : ClmmPool} {ticks : List ClmmTick} {arrayStarts : List ℤ}
  {amount timestamp limit : ℤ} {down : Bool} {adaptive : Option WhirlpoolAdaptiveFee}
  {c : WhirlpoolSwap} {s₀ s : WhirlpoolState} {result : WhirlpoolSwapResult}

theorem WhirlpoolInvariant.init
    (h : whirlpoolPrepare pool ticks arrayStarts amount timestamp down adaptive limit =
      .ok (c, s₀)) : WhirlpoolInvariant c s₀ := by
  have hc := WhirlpoolSwap.Valid.of_prepare h
  obtain ⟨-, -, -, -, -, -, -, hceq, hseq⟩ := whirlpoolPrepare_eq_ok.1 h
  have hpool : c.pool = pool := by rw [hceq]
  have hamount : c.amount = amount := by rw [hceq]
  have hfee := hc.feeRate_le
  rw [hseq, ← hpool, ← hamount]
  exact
    { remaining_nonneg := hc.amount_pos.le
      start := .refl _ _
      limit := hc.towards.beyond
      fees_nonneg := le_rfl
      fees_le := by dsimp only; omega
      minimumFee_ge := le_rfl
      minimumFee_le := le_rfl
      maximumFee_le := by dsimp only; omega
      static := fun _ => ⟨rfl, rfl⟩ }

theorem WhirlpoolInvariant.of_reaches (hc : c.Valid) (h₀ : WhirlpoolInvariant c s₀)
    (h : Reaches (whirlpoolIteration c) s₀ s) : WhirlpoolInvariant c s := by
  refine h.invariant (fun u v hu hb => ?_) h₀
  obtain ⟨-, -, -, plan, moved, landed, ht⟩ := whirlpoolIteration_next.1 hb
  exact hu.next hc ht

theorem tickConsistent_of_reaches (hc : c.Valid) (h₀ : WhirlpoolInvariant c s₀)
    (hcons : TickConsistent s₀.tick s₀.current) (h : Reaches (whirlpoolIteration c) s₀ s)
    (hend : s.current ≠ rangeEnd c.down) : TickConsistent s.tick s.current := by
  refine (h.invariant (I := fun u => WhirlpoolInvariant c u ∧
    (u.current ≠ rangeEnd c.down → TickConsistent u.tick u.current)) (fun u v hu hb => ?_)
    ⟨h₀, fun _ => hcons⟩).2 hend
  obtain ⟨-, hl, -, plan, moved, landed, ht⟩ := whirlpoolIteration_next.1 hb
  exact ⟨hu.1.next hc ht, ht.tickConsistent hc hu.1 (hu.2 (hu.1.ne_rangeEnd hc hl))⟩

/-- The state from which a call returned. -/
theorem whirlpoolSwapExactIn_state
    (h : whirlpoolSwapExactIn pool ticks arrayStarts amount timestamp down adaptive limit =
      .ok result) :
    ∃ c s₀ s, whirlpoolPrepare pool ticks arrayStarts amount timestamp down adaptive limit =
        .ok (c, s₀) ∧ Reaches (whirlpoolIteration c) s₀ s ∧
      (s.remaining = 0 ∨ s.current = c.limit) ∧ result = whirlpoolResult c s := by
  obtain ⟨⟨c, s₀⟩, hprep, hrun⟩ := bind_eq_ok.1 h
  obtain ⟨t, ht, hret | ⟨u, hbrk, -⟩ | ⟨-, ha⟩⟩ := run_ok hrun
  · exact ⟨c, s₀, t, hprep, ht, whirlpoolIteration_ret.1 hret⟩
  · exact absurd hbrk whirlpoolIteration_brk
  · cases ha

theorem whirlpoolPrepare_ne_moreArrays :
    whirlpoolPrepare pool ticks arrayStarts amount timestamp down adaptive limit ≠
      .error .whirlpoolRequiresMoreTickArrays := by
  have hu := unsigned_ne_moreArrays
  have hadaptive : ∀ a, prepareAdaptive pool timestamp a ≠
      .error .whirlpoolRequiresMoreTickArrays := by
    intro a
    refine bind_ne_error ?_ fun _ => bind_ne_error (require_ne_error (by decide)) fun _ =>
      bind_ne_error (require_ne_error (by decide)) fun _ => pure_ne_error
    refine bind_ne_error (forM_ne_error (fun _ => bind_ne_error (hu _ _) fun _ => pure_ne_error) _)
      fun _ => bind_ne_error
      (forM_ne_error (fun _ => bind_ne_error (hu _ _) fun _ => pure_ne_error) _) fun _ =>
      bind_ne_error (hu _ _) fun _ => bind_ne_error (hu _ _) fun _ => require_ne_error (by decide)
  refine bind_ne_error ?_ fun _ => bind_ne_error (require_ne_error (by decide)) fun _ =>
    bind_ne_error (hu _ _) fun _ => bind_ne_error (require_ne_error (by decide)) fun _ =>
    bind_ne_error (forM_ne_error (fun _ => require_ne_error (by decide)) _) fun _ =>
    bind_ne_error (require_ne_error (by decide)) fun _ => bind_ne_error ?_ fun _ => pure_ne_error
  · exact bind_ne_error (hu _ _) fun _ => bind_ne_error (hu _ _) fun _ =>
      bind_ne_error (hu _ _) fun _ => bind_ne_error (hu _ _) fun _ =>
      bind_ne_error (hu _ _) fun _ => bind_ne_error (hu _ _) fun _ => require_ne_error (by decide)
  · cases adaptive with
    | none => exact pure_ne_error
    | some a => exact bind_ne_error (hadaptive a) fun _ => pure_ne_error

/-- What holds whenever an iteration begins. -/
structure StateSound (c : WhirlpoolSwap) (s : WhirlpoolState) : Prop where
  advances : ∀ s', whirlpoolIteration c s = .ok (.next s') → Beyond c.down s.current s'.current
  /-- The amount checked after a step is not negative. -/
  stepRemaining_nonneg : ∀ plan step, whirlpoolPlan c s = .ok plan →
    clmmSwapStep s.current plan.bound s.liquidity s.remaining plan.fee c.down = .ok step →
    0 ≤ stepRemaining s step
  /-- A step reaches its bound or uses the input up. -/
  progress : ∀ plan moved, whirlpoolPlan c s = .ok plan →
    whirlpoolTakeStep c s plan = .ok moved →
    moved.current = plan.bound ∨ moved.remaining = 0

theorem stateSound (c : WhirlpoolSwap) (s : WhirlpoolState) : StateSound c s where
  advances s' hb := by
    obtain ⟨-, -, -, plan, moved, landed, ht⟩ := whirlpoolIteration_next.1 hb
    exact ht.advances
  stepRemaining_nonneg _ _ _ hstep := Whirlpool.stepRemaining_nonneg hstep
  progress _ _ _ hmoved := (StepSpec.of_ok hmoved).progress

/-- The Whirlpool exact-in quote is sound, on every input on which it returns.
An iteration that requires more tick arrays has input left, and from a consistent tick
and price its price is at the edge of the window or beyond. -/
theorem whirlpoolSwapExactIn_sound :
    (∀ result, whirlpoolSwapExactIn pool ticks arrayStarts amount timestamp down adaptive limit =
        .ok result →
      (0 ≤ result.fee ∧ result.fee ≤ result.consumed ∧ result.consumed ≤ amount) ∧
      (result.consumed = amount ∨ result.sqrtPrice = limitOr limit down) ∧
      (Beyond down pool.sqrtPrice result.sqrtPrice ∧
        Beyond down result.sqrtPrice (limitOr limit down)) ∧
      (pool.feeRate ≤ result.minimumFeeRate ∧ result.minimumFeeRate ≤ result.maximumFeeRate ∧
        result.maximumFeeRate ≤ 100000) ∧
      (adaptive = none →
        result.minimumFeeRate = pool.feeRate ∧ result.maximumFeeRate = pool.feeRate) ∧
      (minSqrtPrice < result.sqrtPrice → result.sqrtPrice < maxSqrtPrice →
        TickConsistent pool.tickCurrent pool.sqrtPrice →
        TickConsistent result.tickCurrent result.sqrtPrice) ∧
      ∃ c s₀, whirlpoolPrepare pool ticks arrayStarts amount timestamp down adaptive limit =
          .ok (c, s₀) ∧
        ∀ s, Reaches (whirlpoolIteration c) s₀ s → 0 ≤ s.remaining ∧ StateSound c s) ∧
    (whirlpoolSwapExactIn pool ticks arrayStarts amount timestamp down adaptive limit =
        .error .whirlpoolRequiresMoreTickArrays →
      ∃ c s₀ s, whirlpoolPrepare pool ticks arrayStarts amount timestamp down adaptive limit =
          .ok (c, s₀) ∧ Reaches (whirlpoolIteration c) s₀ s ∧
        whirlpoolIteration c s = .error .whirlpoolRequiresMoreTickArrays ∧
        0 < s.remaining ∧
        (TickConsistent pool.tickCurrent pool.sqrtPrice →
          Beyond down (tickPrice (windowEdge c)) s.current)) := by
  constructor
  · intro result h
    obtain ⟨c, s₀, s, hprep, hreach, hend, rfl⟩ := whirlpoolSwapExactIn_state h
    have hc := WhirlpoolSwap.Valid.of_prepare hprep
    have h₀ := WhirlpoolInvariant.init hprep
    have hinv := WhirlpoolInvariant.of_reaches hc h₀ hreach
    obtain ⟨-, -, -, -, -, -, ha, hceq, hseq⟩ := whirlpoolPrepare_eq_ok.1 hprep
    have hpool : c.pool = pool := by rw [hceq]
    have hamount : c.amount = amount := by rw [hceq]
    have hdown : c.down = down := by rw [hceq]
    have hlimit : limitOr limit c.down = c.limit := by rw [hdown, hceq]
    have hrem := hinv.remaining_nonneg
    have hfees := hinv.fees_nonneg
    have hfees' := hinv.fees_le
    simp only [whirlpoolResult, ← hpool, ← hamount, ← hdown, hlimit]
    refine ⟨⟨hfees, hfees', by omega⟩, ?_, ⟨hinv.start, hinv.limit⟩,
      ⟨hinv.minimumFee_ge, hinv.minimumFee_le, hinv.maximumFee_le⟩, ?_, ?_, c, s₀, ?_, ?_⟩
    · exact hend.imp_left fun hr => by omega
    · rintro rfl
      exact hinv.static (pure_eq_ok.1 ha).symm
    · intro hlo hhi hcons
      refine tickConsistent_of_reaches hc h₀ ?_ hreach ?_
      · rw [hseq, ← hpool]
        exact hcons
      · cases hd : c.down <;> simp [rangeEnd] <;> omega
    · rw [hdown, hamount, hpool]
      exact hprep
    · exact fun t ht => ⟨(WhirlpoolInvariant.of_reaches hc h₀ ht).remaining_nonneg, stateSound c t⟩
  · intro h
    rcases bind_eq_error.1 h with hprep | ⟨⟨c, s₀⟩, hprep, hrun⟩
    · exact absurd hprep whirlpoolPrepare_ne_moreArrays
    · obtain ⟨s, hreach, hbody | ⟨u, hbrk, -⟩ | ⟨-, hafter⟩⟩ := run_error hrun
      · -- only the body of the loop asks for more arrays, and only outside the window
        have hc := WhirlpoolSwap.Valid.of_prepare hprep
        have h₀ := WhirlpoolInvariant.init hprep
        have hinv := WhirlpoolInvariant.of_reaches hc h₀ hreach
        obtain ⟨-, -, -, -, -, -, -, hceq, hseq⟩ := whirlpoolPrepare_eq_ok.1 hprep
        have hdown : c.down = down := by rw [hceq]
        obtain ⟨hr, hl, hout⟩ := whirlpoolIteration_moreArrays hbody
        refine ⟨c, s₀, s, hprep, hreach, hbody, lt_of_le_of_ne hinv.remaining_nonneg hr.symm,
          fun hcons => ?_⟩
        have hcons' : TickConsistent s.tick s.current :=
          tickConsistent_of_reaches hc h₀ (by rw [hseq]; exact hcons) hreach
            (hinv.ne_rangeEnd hc hl)
        exact hdown ▸ edge_beyond_of_outside hc hcons' hout
      · exact absurd hbrk whirlpoolIteration_brk
      · cases hafter

end Run

/-- A pool whose tick does not fit its price: arrays are required although the
price is inside the window. -/
theorem whirlpoolSwapExactIn_outside_inconsistent :
    whirlpoolSwapExactIn ⟨tickPrice 40, 1000, -1, 1, 3000⟩ [] [0] 10 0 true none 0 =
        .error .whirlpoolRequiresMoreTickArrays ∧
      windowLower (sortedStarts [0]) = 0 ∧
      ¬ Beyond true (tickPrice 0) (tickPrice 40) := by
  refine ⟨by decide +kernel, by decide +kernel, by decide +kernel⟩

end SolTrade.Whirlpool
