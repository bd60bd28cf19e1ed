import SolTrade.Whirlpool.Soundness

/-!
The adaptive fee's tick groups.

An iteration that does not end the swap leaves the price at the boundary of the
group it enters, whether the groups before were walked or skipped. The price is
thus in the tracked group whenever a step begins, and a skipped range touches
only groups whose volatility is capped.
-/

namespace SolTrade.Whirlpool

open Library BoundedLoop
open Clmm (ClmmPool ClmmTick minTick maxTick)

/-- The price interval of a tick group, cut off at the ends of the tick range. -/
def groupLow (a : Adaptive) (group : ℤ) : ℤ := tickTable.edge (group * a.groupSize)

def groupHigh (a : Adaptive) (group : ℤ) : ℤ := tickTable.edge ((group + 1) * a.groupSize)

/-- The price lies in the closed price interval of the group. -/
def InGroup (a : Adaptive) (group price : ℤ) : Prop :=
  groupLow a group ≤ price ∧ price ≤ groupHigh a group

/-- The group's price interval overlaps the interior of the step. -/
def Overlaps (a : Adaptive) (group p q : ℤ) : Prop :=
  groupLow a group < max p q ∧ min p q < groupHigh a group

/-- The group lies where the volatility is capped. -/
def OutsideCore (a : Adaptive) (group : ℤ) : Prop :=
  (∃ l ∈ a.lowerGroup, group < l) ∨ ∃ u ∈ a.upperGroup, u < group

/-- The tick through which the group is entered. -/
def nearBoundary (down : Bool) (a : Adaptive) (group : ℤ) : ℤ :=
  (if down then group + 1 else group) * a.groupSize

/-- The tick through which the group is left. -/
def farBoundary (down : Bool) (a : Adaptive) (group : ℤ) : ℤ :=
  (if down then group else group + 1) * a.groupSize

/-- What is known of the tracked group when a step begins: it holds the price,
and the ticks ahead are beyond the boundary through which it is entered. -/
structure GroupInvariant (c : WhirlpoolSwap) (a : Adaptive) (s : WhirlpoolState) : Prop where
  inGroup : InGroup a s.group s.current
  ahead : ∀ t, IsAhead c s t → StrictlyBeyond c.down (nearBoundary c.down a s.group) t.tick

/-! ### Capped groups -/

section Capped

variable {a : Adaptive} {g : ℤ}

theorem volatilityAt_eq_maximum
    (hd : ceil (a.maximum - a.volatilityReference) 10000 ≤ |a.reference - g|) :
    volatilityAt a g = a.maximum := by
  have hceil : a.maximum - a.volatilityReference ≤
      ceil (a.maximum - a.volatilityReference) 10000 * 10000 :=
    Rounding.le_ceil_mul _ (by norm_num)
  refine min_eq_right ?_
  have := mul_le_mul_of_nonneg_right hd (show (0 : ℤ) ≤ 10000 by norm_num)
  omega

theorem volatilityAt_below (ha : a.Valid) {l : ℤ} (hl : l ∈ a.lowerGroup) (hg : g < l) :
    volatilityAt a g = a.maximum := by
  have heq := ha.lowerGroup_eq l hl
  exact volatilityAt_eq_maximum (le_trans (by omega) (le_abs_self _))

theorem volatilityAt_above (ha : a.Valid) {u : ℤ} (hu : u ∈ a.upperGroup) (hg : u < g) :
    volatilityAt a g = a.maximum := by
  have heq := ha.upperGroup_eq u hu
  exact volatilityAt_eq_maximum (le_trans (by omega) (neg_le_abs _))

end Capped

/-! ### Where a step stops on account of the groups -/

section Stop

variable {c : WhirlpoolSwap} {a : Adaptive} {s : WhirlpoolState}

/-- The three answers of `groupStop`: within the core range the end of the group;
otherwise the groups are skipped, up to the core range where the swap moves
towards it. -/
inductive StopSpec (down : Bool) (a : Adaptive) (s : WhirlpoolState) : Bool × Option ℤ → Prop
  | inside : StopSpec down a s (false, some (tickTable.clamp (farBoundary down a s.group)))
  | free : StopSpec down a s (true, none)
  | below {l : ℤ} : down = false → l ∈ a.lowerGroup → s.group < l →
      StopSpec down a s (true, some (l * a.groupSize))
  | above {u : ℤ} : down = true → u ∈ a.upperGroup → u < s.group →
      StopSpec down a s (true, some ((u + 1) * a.groupSize))

theorem groupStop_spec (down : Bool) (a : Adaptive) (s : WhirlpoolState) :
    StopSpec down a s (groupStop down a s) := by
  have hinside : StopSpec down a s (false,
      some (max minTick (min maxTick ((if down then s.group else s.group + 1) * a.groupSize)))) :=
    .inside
  have hbelow : ∀ l ∈ a.lowerGroup, s.group < l →
      StopSpec down a s (true, if down then none else some (l * a.groupSize)) := by
    intro l hl hlt
    cases down with
    | true => exact .free
    | false => exact .below rfl hl hlt
  have habove : ∀ u ∈ a.upperGroup, u < s.group →
      StopSpec down a s (true, if down then some ((u + 1) * a.groupSize) else none) := by
    intro u hu hlt
    cases down with
    | true => exact .above rfl hu hlt
    | false => exact .free
  rw [groupStop]
  split
  · exact .free
  -- no core range below, or the group is not below it: the upper end decides
  · cases hl : a.lowerGroup with
    | none =>
        cases hu : a.upperGroup with
        | none => exact hinside
        | some u =>
            dsimp only
            split
            · exact habove u hu ‹_›
            · exact hinside
    | some l =>
        dsimp only
        split
        · exact hbelow l hl ‹_›
        · cases hu : a.upperGroup with
          | none => exact hinside
          | some u =>
              dsimp only
              split
              · exact habove u hu ‹_›
              · exact hinside

theorem groupStop_below (hcontrol : a.control ≠ 0) (hliquidity : s.liquidity ≠ 0) {l : ℤ}
    (hl : l ∈ a.lowerGroup) (hlt : s.group < l) (down : Bool) :
    groupStop down a s = (true, if down then none else some (l * a.groupSize)) := by
  rw [Option.mem_def] at hl
  simp [groupStop, hcontrol, hliquidity, hl, hlt]

theorem groupStop_above (ha : a.Valid) (hcontrol : a.control ≠ 0) (hliquidity : s.liquidity ≠ 0)
    {u : ℤ} (hu : u ∈ a.upperGroup) (hlt : u < s.group) (down : Bool) :
    groupStop down a s = (true, if down then some ((u + 1) * a.groupSize) else none) := by
  have hueq := ha.upperGroup_eq u hu
  have hdist : 0 ≤ ceil (a.maximum - a.volatilityReference) 10000 :=
    Rounding.ceil_nonneg (by norm_num) (sub_nonneg.2 ha.reference_le)
  rw [Option.mem_def] at hu
  cases hl : a.lowerGroup with
  | none => simp [groupStop, hcontrol, hliquidity, hu, hl, hlt]
  | some l =>
      have hleq := ha.lowerGroup_eq l hl
      have hnot : ¬ s.group < l := by omega
      simp [groupStop, hcontrol, hliquidity, hu, hl, hlt, hnot]

end Stop

/-! ### One iteration -/

section Step

variable {c : WhirlpoolSwap} {a : Adaptive} {s s' moved landed : WhirlpoolState}
  {plan : WhirlpoolPlan} {t : ClmmTick}

/-- The call returns or raises when the next iteration begins. -/
def Ends (c : WhirlpoolSwap) (s : WhirlpoolState) : Prop :=
  s.remaining = 0 ∨ s.current = c.limit ∨ OutsideWindow c s

theorem WhirlpoolSwap.Valid.tick_mem (hc : c.Valid) (ht : t ∈ c.ticks) :
    minTick ≤ t.tick ∧ t.tick ≤ maxTick := by
  have := hc.tick_range t ht
  have h₁ := hc.window_ge
  have h₂ := hc.window_le
  omega

/-- The tick moves with the price. -/
theorem WhirlpoolTransition.tick_advances (hc : c.Valid) (hi : WhirlpoolInvariant c s)
    (hcons : TickConsistent s.tick s.current) (hwin : ¬ OutsideWindow c s)
    (h : WhirlpoolTransition c s plan moved landed s') (hend : s'.current ≠ rangeEnd c.down) :
    Beyond c.down s.tick s'.tick := by
  have hp := PlanSpec.of_ok hc h.plan_ok
  have hm := StepSpec.of_ok h.moved_ok
  rw [h.frame.2.2.2.2.2]
  rcases (LandSpec.of_ok h.landed_ok).tick_cases with ⟨-, ht⟩ | ⟨-, hne, ht⟩ | ⟨-, -, ht⟩
  · have hindex : if c.down then plan.nextIndex ≤ s.tick else s.tick < plan.nextIndex := by
      rw [hp.nextIndex_eq, hp.next_eq]
      cases hn : nextTick c s with
      | some t => exact (nextTick_some hc hn).1.2
      | none =>
          simp only [OutsideWindow] at hwin
          cases hd : c.down <;> simp [hd, nextIndexOf, windowEdge] at hwin ⊢ <;> omega
    rw [ht]
    cases hd : c.down <;> simp [hd] at hindex ⊢ <;> omega
  · exact hcons.advance (whirlpoolTickAtSqrtPrice_spec ht)
      (strictlyBeyond_iff.2 ⟨hm.advances, hne.symm⟩) (h.lt_last hc hi hne hend)
  · rw [ht, hm.tick_eq]
    exact .refl _ _

/-- The ticks that an iteration leaves ahead are strictly ahead in price. -/
theorem WhirlpoolTransition.ahead_strict (hc : c.Valid) (hi : WhirlpoolInvariant c s)
    (hcons : TickConsistent s.tick s.current) (hwin : ¬ OutsideWindow c s)
    (h : WhirlpoolTransition c s plan moved landed s') (hend : s'.current ≠ rangeEnd c.down)
    (ht : IsAhead c s' t) :
    StrictlyBeyond c.down s'.current (tickPrice t.tick) := by
  have hp := PlanSpec.of_ok hc h.plan_ok
  have hm := StepSpec.of_ok h.moved_ok
  have hr := hc.tick_mem ht.1
  obtain ⟨hcur, -, -, -, -, htick⟩ := h.frame
  have hnext := hm.within_bound.trans hp.bound_nextPrice
  by_cases hat : moved.current = plan.nextPrice
  · rcases (LandSpec.of_ok h.landed_ok).tick_cases with ⟨-, hland⟩ | ⟨hne, -⟩ | ⟨hne, -⟩
    · rw [hcur, hat, hp.nextPrice_eq]
      refine (tickTable.strictlyBeyond_iff hp.nextIndex_ge hp.nextIndex_le hr.1 hr.2).2 ?_
      have hside := ht.2
      rw [htick, hland] at hside
      cases hd : c.down <;> simp [hd] at hside ⊢ <;> omega
    · exact absurd hat hne
    · exact absurd hat hne
  · -- between ticks: whatever is ahead was ahead before, at the next tick or after it
    have hahead : IsAhead c s t := by
      have hadv := h.tick_advances hc hi hcons hwin hend
      refine ⟨ht.1, ?_⟩
      have hside := ht.2
      cases hd : c.down <;> simp [hd] at hside hadv ⊢ <;> omega
    rw [hcur]
    refine (strictlyBeyond_iff.2 ⟨hnext, hat⟩).trans_beyond ?_
    cases hn : nextTick c s with
    | none => exact absurd hahead (nextTick_none hc hn)
    | some u =>
        obtain ⟨hu, hfirst⟩ := nextTick_some hc hn
        have hru := hc.tick_mem hu.1
        have hprice : plan.nextPrice = tickPrice u.tick := by
          rw [hp.nextPrice_eq, hp.nextIndex_eq, hp.next_eq, hn]
          rfl
        rw [hprice]
        exact (tickTable.beyond_iff hru.1 hru.2 hr.1 hr.2).2 (hfirst t hahead)

/-- The boundary `k` is not behind the group. -/
def Faces (down : Bool) (group k : ℤ) : Prop := if down then k ≤ group else group < k

/-- Where a tick is crossed and the swap goes on, a loaded tick is: the edge of the
window would have ended the swap. So the tick is the boundary of a group. -/
theorem WhirlpoolTransition.crossed_boundary (hc : c.Valid) (ha : 0 < a.groupSize)
    (hdiv : a.groupSize ∣ c.pool.tickSpacing) (hg : GroupInvariant c a s)
    (h : WhirlpoolTransition c s plan moved landed s') (hwin : ¬ OutsideWindow c s')
    (hat : moved.current = plan.nextPrice) :
    ∃ k, plan.nextIndex = k * a.groupSize ∧ Faces c.down s.group k := by
  have hp := PlanSpec.of_ok hc h.plan_ok
  rcases (LandSpec.of_ok h.landed_ok).tick_cases with ⟨-, hland⟩ | ⟨hne, -⟩ | ⟨hne, -⟩
  · cases hn : nextTick c s with
    | none =>
        refine absurd ?_ hwin
        rw [OutsideWindow, h.frame.2.2.2.2.2, hland, hp.nextIndex_eq, hp.next_eq, hn]
        cases hd : c.down <;> simp [nextIndexOf, windowEdge, hd]
    | some t =>
        obtain ⟨hahead, -⟩ := nextTick_some hc hn
        obtain ⟨k, hk⟩ := hdiv.trans (Int.dvd_of_emod_eq_zero (hc.tick_spacing t hahead.1))
        have hindex : plan.nextIndex = k * a.groupSize := by
          rw [hp.nextIndex_eq, hp.next_eq, hn, nextIndexOf, hk, mul_comm]
        refine ⟨k, hindex, ?_⟩
        have hbeyond := hg.ahead t hahead
        rw [hk, mul_comm a.groupSize k, nearBoundary] at hbeyond
        cases hd : c.down with
        | true =>
            simp only [hd, if_true, strictlyBeyond_true] at hbeyond
            have := lt_of_mul_lt_mul_right hbeyond ha.le
            simp only [Faces, if_true]
            omega
        | false =>
            simp only [hd, Bool.false_eq_true, if_false, strictlyBeyond_false] at hbeyond
            simpa [Faces] using lt_of_mul_lt_mul_right hbeyond ha.le
  · exact absurd hat hne
  · exact absurd hat hne

/-- After a skipped range that ended at a boundary, the group beyond the boundary
is tracked. -/
theorem nearBoundary_groupAfter {ti k : ℤ} (ha : 0 < a.groupSize) (hti : ti = k * a.groupSize)
    (hprice : s.current = tickPrice ti) (hk : Faces c.down s.group k) :
    nearBoundary c.down a (groupAfter c a s ti) = k * a.groupSize := by
  have hdiv : ti / a.groupSize = k := by rw [hti, Int.mul_ediv_cancel _ ha.ne']
  have hmod : ti % a.groupSize = 0 := by rw [hti, Int.mul_emod_left]
  simp only [nearBoundary, groupAfter, lastGroup, hdiv, hmod, hprice, Faces] at hk ⊢
  cases hd : c.down with
  | true =>
      simp only [hd, if_true] at hk
      simp [hk]
  | false =>
      simp only [hd, Bool.false_eq_true, if_false] at hk
      have hmax : max (k - 1) s.group = k - 1 := max_eq_left (by omega)
      simp [hmax]

/-- A step that stops at the end of its group crosses no boundary before it. -/
theorem edge_far_of_boundary {k p : ℤ} (ha : 0 < a.groupSize)
    (hp : Beyond c.down p (tickTable.edge (farBoundary c.down a s.group)))
    (hk : Faces c.down s.group k) (heq : p = tickTable.edge (k * a.groupSize)) :
    p = tickTable.edge (farBoundary c.down a s.group) := by
  refine hp.antisymm ?_
  rw [heq]
  cases hd : c.down with
  | true =>
      simp only [hd, Faces, if_true] at hk
      exact tickTable.edge_mono (mul_le_mul_of_nonneg_right hk ha.le)
  | false =>
      simp only [hd, Faces, Bool.false_eq_true, if_false] at hk
      refine tickTable.edge_mono (mul_le_mul_of_nonneg_right ?_ ha.le)
      simp only [Bool.false_eq_true, if_false]
      omega

/-- The group tracked after a step within a group is entered where the old one is
left. -/
theorem nearBoundary_next (down : Bool) (group : ℤ) :
    nearBoundary down a (group + (if down then -1 else 1)) = farBoundary down a group := by
  cases down <;> simp [nearBoundary, farBoundary]

theorem PlanSpec.stopSpec (hp : PlanSpec c s plan) (ha : c.adaptive = some a) :
    ∃ stop, StopSpec c.down a s (plan.skipped, stop) ∧
      plan.bound = stopAt c.down stop (nearer c.down plan.nextPrice c.limit) ∧
      ∀ t ∈ stop, minTick ≤ t ∧ t ≤ maxTick := by
  have hstop : stopOf c s = groupStop c.down a s := by rw [stopOf, ha]
  refine ⟨(stopOf c s).2, ?_, hp.bound_eq, hp.stop_range⟩
  rw [hp.skipped_eq, hstop]
  exact groupStop_spec c.down a s

/-- The boundaries at which a step can end before the swap does. -/
structure EndsAt (c : WhirlpoolSwap) (a : Adaptive) (s moved : WhirlpoolState)
    (plan : WhirlpoolPlan) : Prop where
  bound : moved.current = plan.bound
  ne_limit : moved.current ≠ c.limit
  crossed : moved.current = plan.nextPrice →
    ∃ k, plan.nextIndex = k * a.groupSize ∧ Faces c.down s.group k

/-- A step that stops for its group ends where the group does. -/
theorem EndsAt.far (hp : PlanSpec c s plan) (ha : c.adaptive = some a) (hsize : 0 < a.groupSize)
    (hskip : plan.skipped = false) (h : EndsAt c a s moved plan) :
    moved.current = tickTable.edge (farBoundary c.down a s.group) := by
  obtain ⟨stop, hspec, hbound, -⟩ := hp.stopSpec ha
  rw [hskip] at hspec
  cases hspec with
  | inside =>
      have hfar : moved.current = nearer c.down (nearer c.down plan.nextPrice c.limit)
          (tickTable.edge (farBoundary c.down a s.group)) := h.bound.trans hbound
      have hbeyond : Beyond c.down moved.current
          (tickTable.edge (farBoundary c.down a s.group)) :=
        hfar ▸ nearer_beyond_right _ _ _
      rcases nearer_eq_or c.down (nearer c.down plan.nextPrice c.limit)
        (tickTable.edge (farBoundary c.down a s.group)) with heq | heq
      · rcases nearer_eq_or c.down plan.nextPrice c.limit with heq' | heq'
        · have hat : moved.current = plan.nextPrice := by rw [hfar, heq, heq']
          obtain ⟨k, hk, hfaces⟩ := h.crossed hat
          refine edge_far_of_boundary hsize hbeyond hfaces ?_
          rw [hat, hp.nextPrice_eq, ← hk]
          exact (tickTable.edge_of_mem hp.nextIndex_ge hp.nextIndex_le).symm
        · exact absurd (by rw [hfar, heq, heq']) h.ne_limit
      · rw [hfar, heq]

/-- A step through skipped groups ends at a boundary too: that of a loaded tick or
that of the core range. -/
theorem EndsAt.boundary (hp : PlanSpec c s plan) (ha : c.adaptive = some a) {ti : ℤ}
    (hskip : plan.skipped = true) (h : EndsAt c a s moved plan)
    (hti : moved.current = plan.nextPrice ∧ ti = plan.nextIndex ∨
      moved.current ≠ plan.nextPrice ∧ whirlpoolTickAtSqrtPrice moved.current = .ok ti) :
    moved.current = tickPrice ti ∧ (minTick ≤ ti ∧ ti ≤ maxTick) ∧
      ∃ k, ti = k * a.groupSize ∧ Faces c.down s.group k := by
  rcases hti with ⟨hat, rfl⟩ | ⟨hne, hti⟩
  · exact ⟨hat.trans hp.nextPrice_eq, ⟨hp.nextIndex_ge, hp.nextIndex_le⟩, h.crossed hat⟩
  · have hstopped : ∀ stop, minTick ≤ stop → stop ≤ maxTick →
        moved.current = nearer c.down (nearer c.down plan.nextPrice c.limit) (tickPrice stop) →
        moved.current = tickPrice stop ∧ ti = stop := by
      intro stop hlo hhi heq
      have hprice : moved.current = tickPrice stop := by
        rcases nearer_eq_or c.down (nearer c.down plan.nextPrice c.limit) (tickPrice stop)
          with hn | hn
        · rcases nearer_eq_or c.down plan.nextPrice c.limit with hn' | hn'
          · exact absurd (by rw [heq, hn, hn']) hne
          · exact absurd (by rw [heq, hn, hn']) h.ne_limit
        · rw [heq, hn]
      rw [hprice] at hti
      exact ⟨hprice, (whirlpoolTickAtSqrtPrice_spec hti).eq_of_value hlo hhi⟩
    obtain ⟨stop, hspec, hbound, hrange⟩ := hp.stopSpec ha
    rw [hskip] at hspec
    cases hspec with
    | free =>
        have hfree : moved.current = nearer c.down plan.nextPrice c.limit := h.bound.trans hbound
        rcases nearer_eq_or c.down plan.nextPrice c.limit with hn | hn
        · exact absurd (by rw [hfree, hn]) hne
        · exact absurd (by rw [hfree, hn]) h.ne_limit
    | @below l hd hl hlt =>
        obtain ⟨hlo, hhi⟩ := hrange _ rfl
        obtain ⟨hprice, rfl⟩ := hstopped _ hlo hhi (h.bound.trans hbound)
        exact ⟨hprice, ⟨hlo, hhi⟩, l, rfl, by simpa [Faces, hd] using hlt⟩
    | @above u hd hu hlt =>
        obtain ⟨hlo, hhi⟩ := hrange _ rfl
        obtain ⟨hprice, rfl⟩ := hstopped _ hlo hhi (h.bound.trans hbound)
        refine ⟨hprice, ⟨hlo, hhi⟩, u + 1, rfl, ?_⟩
        simp only [Faces, hd, if_true]
        omega

/-- An iteration that does not end the swap leaves the price at the boundary
through which the new group is entered. -/
theorem WhirlpoolTransition.at_boundary (hc : c.Valid) (ha : c.adaptive = some a)
    (hdiv : a.groupSize ∣ c.pool.tickSpacing) (hg : GroupInvariant c a s)
    (h : WhirlpoolTransition c s plan moved landed s') (hgoing : ¬ Ends c s') :
    s'.current = tickTable.edge (nearBoundary c.down a s'.group) := by
  have hp := PlanSpec.of_ok hc h.plan_ok
  have hm := StepSpec.of_ok h.moved_ok
  have hland := LandSpec.of_ok h.landed_ok
  have hsize := (hc.adaptive a ha).groupSize_pos
  obtain ⟨hcur, hrem, -, -, -, -⟩ := h.frame
  simp only [Ends, not_or] at hgoing
  obtain ⟨hrem', hlim', hwin'⟩ := hgoing
  have hgroup : landed.group = s.group := hland.group_eq.trans hm.group_eq
  have hends : EndsAt c a s moved plan :=
    { bound := hm.progress.resolve_right (hrem ▸ hrem')
      ne_limit := hcur ▸ hlim'
      crossed := h.crossed_boundary hc hsize hdiv hg hwin' }
  cases GroupSpec.of_ok h.group_ok with
  | static hnone =>
      rw [ha] at hnone
      cases hnone
  | @stopped a' ha' hskip hs' =>
      rw [hcur, hends.far hp ha hsize hskip, hs', hgroup, nearBoundary_next]
  | @skipped a' ti ha' hskip hti hs' =>
      obtain rfl : a' = a := Option.some.inj (ha'.symm.trans ha)
      rw [hland.current_eq] at hti
      obtain ⟨hprice, hrange, k, hk, hfaces⟩ := hends.boundary hp ha hskip hti
      rw [hs']
      dsimp only
      rw [nearBoundary_groupAfter hsize hk (hland.current_eq.trans hprice) (hgroup ▸ hfaces), ← hk,
        hland.current_eq, hprice]
      exact (tickTable.edge_of_mem hrange.1 hrange.2).symm

/-- The step lemma for the tracked group. -/
theorem GroupInvariant.next (hc : c.Valid) (ha : c.adaptive = some a)
    (hdiv : a.groupSize ∣ c.pool.tickSpacing) (hi : WhirlpoolInvariant c s)
    (hcons : TickConsistent s.tick s.current) (hwin : ¬ OutsideWindow c s)
    (hg : GroupInvariant c a s) (h : WhirlpoolTransition c s plan moved landed s')
    (hgoing : ¬ Ends c s') : GroupInvariant c a s' := by
  have hsize := (hc.adaptive a ha).groupSize_pos
  have hat := h.at_boundary hc ha hdiv hg hgoing
  have hend : s'.current ≠ rangeEnd c.down :=
    (hi.next hc h).ne_rangeEnd hc fun hl => hgoing (.inr (.inl hl))
  constructor
  · have hlow : s'.group * a.groupSize ≤ (s'.group + 1) * a.groupSize :=
      mul_le_mul_of_nonneg_right (by omega) hsize.le
    simp only [InGroup, groupLow, groupHigh, hat, nearBoundary]
    cases c.down
    · exact ⟨le_rfl, tickTable.edge_mono hlow⟩
    · exact ⟨tickTable.edge_mono hlow, le_rfl⟩
  · intro t ht
    have hstrict := h.ahead_strict hc hi hcons hwin hend ht
    obtain ⟨hlo, hhi⟩ := hc.tick_mem ht.1
    have hedge : tickPrice t.tick = tickTable.edge t.tick := (tickTable.edge_of_mem hlo hhi).symm
    rw [hat, hedge] at hstrict
    cases hd : c.down <;> simp only [hd, strictlyBeyond_true, strictlyBeyond_false] at hstrict ⊢ <;>
      exact tickTable.lt_of_edge_lt hstrict

end Step

/-! ### Skipped groups -/

section Skip

variable {c : WhirlpoolSwap} {a : Adaptive} {s moved : WhirlpoolState} {plan : WhirlpoolPlan}
  {g : ℤ}

/-- The groups are skipped where there is nothing to charge for, or outside the
core range. -/
theorem skipped_iff (down : Bool) (a : Adaptive) (s : WhirlpoolState) :
    (groupStop down a s).1 = true ↔
      a.control = 0 ∨ s.liquidity = 0 ∨ OutsideCore a s.group := by
  unfold groupStop OutsideCore
  dsimp only
  split
  · rename_i hfree
    simp only [true_iff]
    exact or_assoc.1 (.inl hfree)
  · rename_i hfree
    obtain ⟨hcontrol, hliquidity⟩ := not_or.1 hfree
    simp only [hcontrol, hliquidity, false_or]
    cases a.lowerGroup with
    | none =>
        cases a.upperGroup with
        | none => simp
        | some u => by_cases hu : u < s.group <;> simp [hu]
    | some l =>
        cases a.upperGroup with
        | none => by_cases hl : s.group < l <;> simp [hl]
        | some u =>
            by_cases hl : s.group < l <;> by_cases hu : u < s.group <;> simp [hl, hu]

/-- A step that begins in a capped group below the core range stays below it. -/
theorem below_of_overlaps (ha : c.adaptive = some a) (hsize : 0 < a.groupSize)
    (hp : PlanSpec c s plan) (hm : StepSpec c s plan moved) (hin : InGroup a s.group s.current)
    (hcontrol : a.control ≠ 0) (hliquidity : s.liquidity ≠ 0) {l : ℤ} (hl : l ∈ a.lowerGroup)
    (hlt : s.group < l) (ho : Overlaps a g s.current moved.current) : g < l := by
  have hadv := hm.advances
  have hwithin := hm.within_bound
  have hstop : stopOf c s = (true, if c.down then none else some (l * a.groupSize)) := by
    rw [stopOf, ha]
    exact groupStop_below hcontrol hliquidity hl hlt c.down
  have hlow := ho.1
  cases hd : c.down with
  | true =>
      rw [hd, beyond_true] at hadv
      rw [max_eq_left hadv] at hlow
      have := tickTable.lt_of_edge_lt (hlow.trans_le hin.2)
      have := lt_of_mul_lt_mul_right this hsize.le
      omega
  | false =>
      simp only [hd, Bool.false_eq_true, if_false] at hstop
      rw [hd, beyond_false] at hadv hwithin
      rw [max_eq_right hadv] at hlow
      obtain ⟨hlo, hhi⟩ := hp.stop_range (l * a.groupSize) (by rw [hstop]; rfl)
      have hbound : plan.bound ≤ tickTable.edge (l * a.groupSize) := by
        rw [hp.bound_eq, hstop, hd, tickTable.edge_of_mem hlo hhi]
        exact min_le_right _ _
      have := tickTable.lt_of_edge_lt (hlow.trans_le (hwithin.trans hbound))
      exact lt_of_mul_lt_mul_right this hsize.le

/-- A step that begins in a capped group above the core range stays above it. -/
theorem above_of_overlaps (ha : c.adaptive = some a) (hvalid : a.Valid)
    (hp : PlanSpec c s plan) (hm : StepSpec c s plan moved) (hin : InGroup a s.group s.current)
    (hcontrol : a.control ≠ 0) (hliquidity : s.liquidity ≠ 0) {u : ℤ} (hu : u ∈ a.upperGroup)
    (hlt : u < s.group) (ho : Overlaps a g s.current moved.current) : u < g := by
  have hsize := hvalid.groupSize_pos
  have hadv := hm.advances
  have hwithin := hm.within_bound
  have hstop : stopOf c s = (true, if c.down then some ((u + 1) * a.groupSize) else none) := by
    rw [stopOf, ha]
    exact groupStop_above hvalid hcontrol hliquidity hu hlt c.down
  have hhigh := ho.2
  cases hd : c.down with
  | true =>
      simp only [hd, if_true] at hstop
      rw [hd, beyond_true] at hadv hwithin
      rw [min_eq_right hadv] at hhigh
      obtain ⟨hlo, hhi⟩ := hp.stop_range ((u + 1) * a.groupSize) (by rw [hstop]; rfl)
      have hbound : tickTable.edge ((u + 1) * a.groupSize) ≤ plan.bound := by
        rw [hp.bound_eq, hstop, hd, tickTable.edge_of_mem hlo hhi]
        exact le_max_right _ _
      have := tickTable.lt_of_edge_lt ((hbound.trans hwithin).trans_lt hhigh)
      have := lt_of_mul_lt_mul_right this hsize.le
      omega
  | false =>
      rw [hd, beyond_false] at hadv
      rw [min_eq_left hadv] at hhigh
      have := tickTable.lt_of_edge_lt (hin.1.trans_lt hhigh)
      have := lt_of_mul_lt_mul_right this hsize.le
      omega

/-- Every group that a step outside the core range touches is charged alike. -/
theorem volatilityAt_of_overlaps (ha : c.adaptive = some a) (hvalid : a.Valid)
    (hp : PlanSpec c s plan) (hm : StepSpec c s plan moved) (hin : InGroup a s.group s.current)
    (hcontrol : a.control ≠ 0) (hliquidity : s.liquidity ≠ 0) (hout : OutsideCore a s.group)
    (ho : Overlaps a g s.current moved.current) :
    volatilityAt a g = volatilityAt a s.group := by
  obtain ⟨l, hl, hlt⟩ | ⟨u, hu, hlt⟩ := hout
  · have hh := below_of_overlaps ha hvalid.groupSize_pos hp hm hin hcontrol hliquidity hl hlt ho
    rw [volatilityAt_below hvalid hl hh, volatilityAt_below hvalid hl hlt]
  · have hh := above_of_overlaps ha hvalid hp hm hin hcontrol hliquidity hu hlt ho
    rw [volatilityAt_above hvalid hu hh, volatilityAt_above hvalid hu hlt]

end Skip

/-! ### Whole runs -/

section Run

variable {pool : ClmmPool} {ticks : List ClmmTick} {arrayStarts : List ℤ}
  {amount timestamp limit : ℤ} {down : Bool} {w : WhirlpoolAdaptiveFee}
  {c : WhirlpoolSwap} {a : Adaptive} {s₀ s : WhirlpoolState}

theorem adaptive_groupSize {o : Option Adaptive}
    (h : (some w).mapM (prepareAdaptive pool timestamp) = .ok o) :
    ∃ a, o = some a ∧ a.groupSize = w.tickGroupSize := by
  obtain ⟨a, ha, rfl⟩ := mapM_some_eq_ok.1 h
  simp only [prepareAdaptive, bind_eq_ok, require_eq_ok, pure_eq_ok] at ha
  obtain ⟨_, -, _, -, _, -, rfl⟩ := ha
  exact ⟨_, rfl, rfl⟩

theorem GroupInvariant.init (hsize : 0 < a.groupSize)
    (hcons : TickConsistent s₀.tick s₀.current) (hgroup : s₀.group = s₀.tick / a.groupSize) :
    GroupInvariant c a s₀ := by
  obtain ⟨hlo, hhi, hle, hge⟩ := hcons
  have hlow : s₀.group * a.groupSize ≤ s₀.tick := by
    rw [hgroup]
    exact Int.ediv_mul_le _ hsize.ne'
  have hhigh : s₀.tick + 1 ≤ (s₀.group + 1) * a.groupSize := by
    rw [hgroup]
    exact Int.lt_ediv_add_one_mul_self _ hsize
  constructor
  · constructor
    · refine (tickTable.edge_mono hlow).trans ?_
      rwa [tickTable.edge_of_mem hlo hhi.le]
    · refine le_trans ?_ (tickTable.edge_mono hhigh)
      rwa [tickTable.edge_of_mem (by omega) (by omega)]
  · intro t ht
    have hside := ht.2
    simp only [nearBoundary]
    cases hd : c.down <;> simp [hd] at hside ⊢ <;> omega

/-- The run lemma for the tracked group. -/
theorem groupInvariant_of_reaches (hc : c.Valid) (ha : c.adaptive = some a)
    (hdiv : a.groupSize ∣ c.pool.tickSpacing) (h₀ : WhirlpoolInvariant c s₀)
    (hcons : TickConsistent s₀.tick s₀.current) (hg : GroupInvariant c a s₀)
    (h : Reaches (whirlpoolIteration c) s₀ s) (hgoing : ¬ Ends c s) : GroupInvariant c a s := by
  refine (h.invariant' (I := fun u => Ends c u ∨ GroupInvariant c a u) (fun u v hu hgu hb => ?_)
    (.inr hg)).resolve_left hgoing
  obtain ⟨hr, hl, hwin, plan, moved, landed, ht⟩ := whirlpoolIteration_next.1 hb
  have hi := WhirlpoolInvariant.of_reaches hc h₀ hu
  have hconsu := tickConsistent_of_reaches hc h₀ hcons hu (hi.ne_rangeEnd hc hl)
  have hgu' := hgu.resolve_left fun hends => by
    rcases hends with h | h | h
    · exact hr h
    · exact hl h
    · exact hwin h
  by_cases hends : Ends c v
  · exact .inl hends
  · exact .inr (hgu'.next hc ha hdiv hi hconsu hwin ht hends)

/-- The adaptive fee's skip is sound. Whenever an iteration begins that does not
end the swap, the price is in the tracked group; and where the groups are skipped
outside the core range, every group that the step touches has the volatility and
the fee rate that the step is charged. -/
theorem whirlpoolSwapExactIn_skip_sound
    (hprep : whirlpoolPrepare pool ticks arrayStarts amount timestamp down (some w) limit =
      .ok (c, s₀))
    (hcons : TickConsistent pool.tickCurrent pool.sqrtPrice)
    (hdiv : w.tickGroupSize ∣ pool.tickSpacing) :
    ∃ a, c.adaptive = some a ∧ a.groupSize = w.tickGroupSize ∧
      ∀ s, Reaches (whirlpoolIteration c) s₀ s → ¬ Ends c s →
        InGroup a s.group s.current ∧
        ∀ plan moved, whirlpoolPlan c s = .ok plan → whirlpoolTakeStep c s plan = .ok moved →
          (plan.skipped = true ↔ a.control = 0 ∨ s.liquidity = 0 ∨ OutsideCore a s.group) ∧
          (a.control ≠ 0 → s.liquidity ≠ 0 → OutsideCore a s.group →
            ∀ group, Overlaps a group s.current moved.current →
              volatilityAt a group = volatilityAt a s.group ∧
              adaptiveFee c.pool a (volatilityAt a group) = plan.fee) := by
  have hc := WhirlpoolSwap.Valid.of_prepare hprep
  have h₀ := WhirlpoolInvariant.init hprep
  obtain ⟨-, -, -, -, -, -, hmap, hceq, hseq⟩ := whirlpoolPrepare_eq_ok.1 hprep
  have hpool : c.pool = pool := by rw [hceq]
  obtain ⟨a, ha, hsize⟩ := adaptive_groupSize hmap
  refine ⟨a, ha, hsize, fun s hs hgoing => ?_⟩
  have hvalid := hc.adaptive a ha
  have hcons₀ : TickConsistent s₀.tick s₀.current := by
    rw [hseq]
    exact hcons
  have hg₀ : GroupInvariant c a s₀ := by
    refine .init hvalid.groupSize_pos hcons₀ ?_
    rw [hseq, ha]
    rfl
  have hg := groupInvariant_of_reaches hc ha (by rw [hsize, hpool]; exact hdiv) h₀ hcons₀ hg₀ hs
    hgoing
  refine ⟨hg.inGroup, fun plan moved hplan hmoved => ?_⟩
  have hp := PlanSpec.of_ok hc hplan
  have hm := StepSpec.of_ok hmoved
  refine ⟨?_, fun hcontrol hliquidity hout group ho => ?_⟩
  · have hstop : stopOf c s = groupStop c.down a s := by rw [stopOf, ha]
    rw [hp.skipped_eq, hstop]
    exact skipped_iff c.down a s
  · have hvol := volatilityAt_of_overlaps ha hvalid hp hm hg.inGroup hcontrol hliquidity hout ho
    refine ⟨hvol, ?_⟩
    rw [hvol, hp.fee_eq, feeOf, ha]

end Run

/-- An adaptive fee whose reference lies ten groups above the pool: the volatility
is capped below group nine. -/
def farReference : WhirlpoolAdaptiveFee :=
  { filterPeriod := 30, decayPeriod := 600, reductionFactor := 5000, controlFactor := 4000
    maximumVolatility := 10000, tickGroupSize := 8, lastReferenceTimestamp := 100
    lastMajorSwapTimestamp := 100, volatilityReference := 0, referenceGroup := 10
    volatility := 0 }

def farFee : Adaptive :=
  { groupSize := 8, reference := 10, volatilityReference := 0, maximum := 10000, control := 4000
    lowerGroup := some 9, upperGroup := some 11 }

def farSwap : WhirlpoolSwap :=
  { pool := ⟨2 ^ 64, 1000000, 0, 8, 3000⟩, ticks := [⟨24, 5, 5, 0, 0⟩], amount := 4000
    limit := maxSqrtPrice, lower := 0, upper := 703, down := false, adaptive := some farFee }

def farStart : WhirlpoolState :=
  { current := 2 ^ 64, tick := 0, liquidity := 1000000, remaining := 4000, output := 0, fees := 0
    minimumFee := 3000, maximumFee := 3000, first := true, group := 0 }

/-- A step from group zero to tick 24, through the groups one and two. -/
theorem whirlpoolSwapExactIn_skip_sound_up :
    InGroup farFee 0 (2 ^ 64) ∧
      ∀ group, groupLow farFee group < tickPrice 24 → 2 ^ 64 < groupHigh farFee group →
        adaptiveFee farSwap.pool farFee (volatilityAt farFee group) = 3003 := by
  have hprep : whirlpoolPrepare ⟨2 ^ 64, 1000000, 0, 8, 3000⟩ [⟨24, 5, 5, 0, 0⟩] [0] 4000 100 false
      (some farReference) 0 = .ok (farSwap, farStart) := by decide +kernel
  have hplan : whirlpoolPlan farSwap farStart =
      .ok ⟨some ⟨24, 5, 5, 0, 0⟩, 24, tickPrice 24, 3003, true, tickPrice 24⟩ := by decide +kernel
  have hmoved : whirlpoolTakeStep farSwap farStart
      ⟨some ⟨24, 5, 5, 0, 0⟩, 24, tickPrice 24, 3003, true, tickPrice 24⟩ =
      .ok { farStart with
        current := tickPrice 24, remaining := 2795, output := 1199, fees := 4, minimumFee := 3003
        maximumFee := 3003, first := false } := by decide +kernel
  obtain ⟨a, ha, -, hall⟩ := whirlpoolSwapExactIn_skip_sound hprep (by decide +kernel) (by decide)
  obtain rfl : farFee = a := Option.some.inj ha
  have hgoing : ¬ Ends farSwap farStart := by
    rintro (h | h | h) <;> revert h <;> decide
  obtain ⟨hin, hstep⟩ := hall farStart (.refl _) hgoing
  obtain ⟨-, hfees⟩ := hstep _ _ hplan hmoved
  refine ⟨hin, fun group hlow hhigh => (hfees (by decide) (by decide) ?_ group ?_).2⟩
  · exact .inl ⟨9, rfl, by decide⟩
  · exact ⟨hlow.trans_le (le_max_right _ _), (min_le_left _ _).trans_lt hhigh⟩

end SolTrade.Whirlpool
