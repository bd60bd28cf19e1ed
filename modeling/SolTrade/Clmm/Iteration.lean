import SolTrade.Clmm.Swap

/-!
What one iteration of the CLMM traversal can do.

Each part of the iteration gets one specification, and `ClmmTransition` says once
which states an iteration can lead to. The invariants of the traversal are
derived from these and do not look into the code again.
-/

namespace SolTrade.Clmm

open Library

/-! ### The values fixed before the loop -/

/-- What the checks before the loop establish. -/
structure ClmmSwap.Valid (c : ClmmSwap) : Prop where
  spacing_pos : 0 < c.pool.tickSpacing
  feeRate_nonneg : 0 ≤ c.pool.feeRate
  feeRate_le : c.pool.feeRate ≤ 999999
  limit_ge : minSqrtPrice ≤ c.limit
  limit_le : c.limit ≤ maxSqrtPrice
  price_ge : minSqrtPrice ≤ c.pool.sqrtPrice
  price_le : c.pool.sqrtPrice ≤ maxSqrtPrice
  towards : StrictlyBeyond c.down c.pool.sqrtPrice c.limit
  amount_nonneg : 0 ≤ c.amount
  amount_le : c.amount ≤ u64
  control_nonneg : c.enabled = true → 0 ≤ c.control
  ticks_nodup : (c.ticks.map (·.tick)).Nodup
  tick_range : ∀ t ∈ c.ticks, minTick ≤ t.tick ∧ t.tick ≤ maxTick
  tick_spacing : ∀ t ∈ c.ticks, t.tick % c.pool.tickSpacing = 0

section Prepare

variable {pool : ClmmPool} {ticks : List ClmmTick} {amount limit feeOn timestamp : ℤ}
  {dynamic : List UInt8} {down : Bool} {c : ClmmSwap} {s : ClmmState}

theorem checkPool_eq_ok {u : Unit} :
    checkPool pool amount limit feeOn timestamp down = .ok u ↔
      (0 ≤ amount ∧ amount ≤ u64) ∧ (0 ≤ timestamp ∧ timestamp ≤ u64) ∧
      (0 ≤ pool.liquidity ∧ pool.liquidity ≤ u128) ∧
      (minSqrtPrice ≤ pool.sqrtPrice ∧ pool.sqrtPrice ≤ maxSqrtPrice) ∧
      (minTick ≤ pool.tickCurrent ∧ pool.tickCurrent ≤ maxTick) ∧
      (1 ≤ pool.tickSpacing ∧ pool.tickSpacing ≤ 65535) ∧
      (0 ≤ pool.feeRate ∧ pool.feeRate ≤ 999999) ∧ (0 ≤ feeOn ∧ feeOn ≤ 2) ∧
      (minSqrtPrice ≤ limit ∧ limit ≤ maxSqrtPrice) ∧
      StrictlyBeyond down pool.sqrtPrice limit := by
  have hmin : minSqrtPrice = 4295048016 := rfl
  have hmax : maxSqrtPrice = 79226673521066979257578248091 := rfl
  have hu : u128 = 2 ^ 128 - 1 := rfl
  have hdir : (¬ (if down then limit ≥ pool.sqrtPrice else limit ≤ pool.sqrtPrice)) ↔
      StrictlyBeyond down pool.sqrtPrice limit := by
    cases down <;> simp
  simp only [checkPool, bind_eq_ok, unsigned_eq_ok, require_eq_ok, hdir]
  constructor
  · rintro ⟨_, ⟨ha, -⟩, _, ⟨ht, -⟩, _, ⟨hl, -⟩, _, -, _, -, _, -, _, ⟨hf, -⟩, _, ⟨ho, -⟩, _,
      ⟨hp, htick, hs, -, -⟩, hlim, hd⟩
    exact ⟨ha, ht, hl, hp, htick, hs, hf, ho, hlim, hd⟩
  · rintro ⟨ha, ht, hl, hp, htick, hs, hf, ho, hlim, hd⟩
    refine ⟨_, ⟨ha, rfl⟩, _, ⟨ht, rfl⟩, _, ⟨hl, rfl⟩, _, ⟨?_, rfl⟩, _, ⟨?_, rfl⟩, _, ⟨?_, rfl⟩, _,
      ⟨hf, rfl⟩, _, ⟨ho, rfl⟩, (), ⟨hp, htick, hs, ?_, ?_⟩, hlim, hd⟩ <;> omega

theorem checkTick_eq_ok {t : ClmmTick} {u : Unit} :
    checkTick pool t = .ok u ↔
      ((minTick ≤ t.tick ∧ t.tick ≤ maxTick) ∧ t.tick % pool.tickSpacing = 0 ∧
        (-2 ^ 127 ≤ t.liquidityNet ∧ t.liquidityNet < 2 ^ 127)) ∧
      (0 ≤ t.liquidityGross ∧ t.liquidityGross ≤ u128) := by
  simp only [checkTick, bind_eq_ok, require_eq_ok, unsigned_eq_ok, pure_eq_ok]
  constructor
  · rintro ⟨_, h, _, ⟨hg, -⟩, -⟩
    exact ⟨h, hg⟩
  · rintro ⟨h, hg⟩
    exact ⟨(), h, _, ⟨hg, rfl⟩, trivial⟩

theorem tickOrders_eq_ok {t : ClmmTick} {o : ℤ} :
    tickOrders t = .ok o ↔
      (0 ≤ t.orders ∧ t.orders ≤ u64) ∧ (0 ≤ t.partialOrders ∧ t.partialOrders ≤ u64) ∧
        (0 ≤ o ∧ o ≤ u64) ∧ o = t.orders + t.partialOrders := by
  simp only [tickOrders, bind_eq_ok, unsigned_eq_ok]
  constructor
  · rintro ⟨_, ⟨h₁, rfl⟩, _, ⟨h₂, rfl⟩, h₃, rfl⟩
    exact ⟨h₁, h₂, h₃, rfl⟩
  · rintro ⟨h₁, h₂, h₃, rfl⟩
    exact ⟨_, ⟨h₁, rfl⟩, _, ⟨h₂, rfl⟩, h₃, rfl⟩

theorem littleEndian_nonneg (bs : List UInt8) : 0 ≤ littleEndian bs := by
  induction bs with
  | nil => exact le_rfl
  | cons b bs ih => simp only [littleEndian]; omega

theorem number_nonneg (d : List UInt8) (o n : ℕ) : 0 ≤ number d o n false := by
  simp [number, littleEndian_nonneg]

/-- The checks a successful preparation has passed, and what it hands to the
loop. -/
theorem clmmPrepare_eq_ok :
    clmmPrepare pool ticks amount limit feeOn dynamic timestamp down = .ok (c, s) ↔
      checkPool pool amount limit feeOn timestamp down = .ok () ∧ dynamic.length = 80 ∧
      (if dynamic.any (· ≠ 0) then checkDynamicFee pool dynamic else .ok ()) = .ok () ∧
      (ticks.map (·.tick)).Nodup ∧ (∀ t ∈ ticks, checkTick pool t = .ok ()) ∧
      List.Forall₂ (fun t o => tickOrders t = .ok o) ticks s.orders ∧
      c = { pool, ticks, amount, limit, down
            inputFee := feeOn = 0 ∨ feeOn = 1 ∧ down ∨ feeOn = 2 ∧ ¬ down
            enabled := dynamic.any (· ≠ 0)
            reference := c.reference
            volatilityReference := c.volatilityReference
            maximum := number dynamic 10 4 false
            control := number dynamic 6 4 false } ∧
      (c.reference, c.volatilityReference) =
        (if dynamic.any (· ≠ 0) then
          decayReference dynamic (pool.tickCurrent / pool.tickSpacing) timestamp
        else (number dynamic 14 4 true, number dynamic 18 4 false)) ∧
      s = { current := pool.sqrtPrice, tick := pool.tickCurrent, liquidity := pool.liquidity
            remaining := amount, output := 0, orders := s.orders
            group := pool.tickCurrent / pool.tickSpacing } := by
  simp only [clmmPrepare, bind_eq_ok, require_eq_ok, forM_eq_ok, mapM_eq_ok, pure_eq_ok]
  constructor
  · rintro ⟨_, hpool, _, hlen, _, hdyn, _, hnodup, _, hticks, orders, horders, h⟩
    obtain ⟨rfl, rfl⟩ := Prod.mk.injEq .. ▸ h
    exact ⟨hpool, hlen, hdyn, hnodup, hticks, horders, rfl, rfl, rfl⟩
  · rintro ⟨hpool, hlen, hdyn, hnodup, hticks, horders, hc, hr, hs⟩
    refine ⟨(), hpool, (), hlen, (), hdyn, (), hnodup, (), hticks, s.orders, horders, ?_⟩
    rw [hc, hs, ← hr]

theorem ClmmSwap.Valid.of_prepare
    (h : clmmPrepare pool ticks amount limit feeOn dynamic timestamp down = .ok (c, s)) :
    c.Valid := by
  obtain ⟨hpool, -, -, hnodup, hticks, -, hc, -, -⟩ := clmmPrepare_eq_ok.1 h
  obtain ⟨ha, -, -, hp, -, hs, hf, -, hlim, hd⟩ := checkPool_eq_ok.1 hpool
  rw [hc]
  exact
    { spacing_pos := by show 0 < pool.tickSpacing; omega
      feeRate_nonneg := hf.1
      feeRate_le := hf.2
      limit_ge := hlim.1
      limit_le := hlim.2
      price_ge := hp.1
      price_le := hp.2
      towards := hd
      amount_nonneg := ha.1
      amount_le := ha.2
      control_nonneg := fun _ => number_nonneg dynamic 6 4
      ticks_nodup := hnodup
      tick_range := fun t ht => (checkTick_eq_ok.1 (hticks t ht)).1.1
      tick_spacing := fun t ht => (checkTick_eq_ok.1 (hticks t ht)).1.2.1 }

end Prepare

/-! ### Choosing the next tick -/

section Next

variable {c : ClmmSwap} {s : ClmmState} {t : ClmmTick} {i : ℕ}

/-- An initialized tick that the direction of travel has not passed. -/
def IsCandidate (c : ClmmSwap) (s : ClmmState) (t : ClmmTick) (i : ℕ) : Prop :=
  c.ticks[i]? = some t ∧ (t.liquidityGross ≠ 0 ∨ s.orders.getD i 0 ≠ 0) ∧
    (if c.down then t.tick ≤ s.tick else s.tick < t.tick)

theorem mem_candidates : (t, i) ∈ candidates c s ↔ IsCandidate c s t i := by
  simp [candidates, IsCandidate, List.mem_zipIdx_iff_getElem?]

theorem minBy_some {α β : Type} [LinearOrder β] {key : α → β} {entries : List α} {a : α}
    (h : minBy key entries = some a) : a ∈ entries ∧ ∀ b ∈ entries, key a ≤ key b :=
  ⟨List.argmin_mem h, fun _ hb => List.le_of_mem_argmin hb h⟩

theorem minBy_none {α β : Type} [LinearOrder β] {key : α → β} {entries : List α}
    (h : minBy key entries = none) : entries = [] :=
  List.argmin_eq_none.1 h

theorem nextInitialized_some (h : nextInitialized c s = some (t, i)) :
    IsCandidate c s t i ∧ ∀ t' i', IsCandidate c s t' i' → Beyond c.down t.tick t'.tick := by
  obtain ⟨hmem, hfirst⟩ := minBy_some h
  refine ⟨mem_candidates.1 hmem, fun t' i' h' => ?_⟩
  have hle := hfirst _ (mem_candidates.2 h')
  cases hd : c.down <;> simp [hd] at hle ⊢ <;> omega

theorem nextInitialized_none (h : nextInitialized c s = none) : ¬ IsCandidate c s t i := by
  intro hc
  have hmem := mem_candidates.2 hc
  rw [minBy_none h] at hmem
  exact absurd hmem List.not_mem_nil

/-- Positions in the tick list are determined by the tick. -/
theorem ClmmSwap.Valid.index_inj (hc : c.Valid) {t' : ClmmTick} {i' : ℕ}
    (h : c.ticks[i]? = some t) (h' : c.ticks[i']? = some t') (ht : t.tick = t'.tick) :
    i = i' ∧ t = t' := by
  have hi : i < c.ticks.length := (List.getElem?_eq_some_iff.1 h).1
  have hm : (c.ticks.map (·.tick))[i]? = (c.ticks.map (·.tick))[i']? := by
    simp [h, h', ht]
  have hii : i = i' := (List.getElem?_inj (by simpa using hi) hc.ticks_nodup).1 hm
  subst hii
  exact ⟨rfl, Option.some.inj (h.symm.trans h')⟩

theorem IsCandidate.mem (h : IsCandidate c s t i) : t ∈ c.ticks := List.mem_of_getElem? h.1

end Next

/-! ### Planning the step -/

section Plan

variable {c : ClmmSwap} {s : ClmmState} {plan : ClmmPlan}

theorem dynamicFee_nonneg (hc : c.Valid) (he : c.enabled = true) (v : ℤ) : 0 ≤ dynamicFee c v := by
  have hcontrol := hc.control_nonneg he
  have hceil : 0 ≤ ceil (c.control * (v * c.pool.tickSpacing) * (v * c.pool.tickSpacing))
      10000000000000 := by
    apply Rounding.ceil_nonneg (by norm_num)
    rw [mul_assoc]
    exact mul_nonneg hcontrol (mul_self_nonneg _)
  have := hc.feeRate_nonneg
  simp only [dynamicFee]
  omega

theorem dynamicFee_le (v : ℤ) : dynamicFee c v ≤ 100000 := min_le_right _ _

theorem groupBoundary_range (g : ℤ) :
    minTick ≤ groupBoundary c g ∧ groupBoundary c g ≤ maxTick := by
  have : minTick ≤ maxTick := minTick_le_maxTick
  simp only [groupBoundary]
  omega

/-- A step towards `target` stops at the end of the tick group, unless the groups
are skipped. -/
def groupStop (c : ClmmSwap) (s : ClmmState) (target : ℤ) : ℤ :=
  if c.enabled ∧ ¬ (s.liquidity = 0 ∨ volatilityAt c s.group = c.maximum) then
    nearer c.down target (tickPrice (groupBoundary c s.group))
  else target

theorem clmmPlan_eq_ok :
    clmmPlan c s = .ok plan ↔
      (minTick ≤ nextTickOf c (nextInitialized c s) ∧
        nextTickOf c (nextInitialized c s) ≤ maxTick) ∧
      plan =
        { next := nextInitialized c s
          nextTick := nextTickOf c (nextInitialized c s)
          nextPrice := tickPrice (nextTickOf c (nextInitialized c s))
          fee := if c.enabled then dynamicFee c (volatilityAt c s.group) else c.pool.feeRate
          skipped := ¬ c.enabled ∨ s.liquidity = 0 ∨ volatilityAt c s.group = c.maximum
          bound := groupStop c s
            (nearer c.down (tickPrice (nextTickOf c (nextInitialized c s))) c.limit) } := by
  simp only [clmmPlan, bind_eq_ok, clmmSqrtPriceAtTick_eq_ok]
  by_cases he : c.enabled = true
  · by_cases hs : s.liquidity = 0 ∨ volatilityAt c s.group = c.maximum
    · simp [he, hs, groupStop, eq_comm (a := plan), and_assoc]
    · have hb : clmmSqrtPriceAtTick (groupBoundary c s.group) =
          .ok (tickPrice (groupBoundary c s.group)) := by
        simpa using groupBoundary_range s.group
      simp [he, hs, hb, groupStop, eq_comm (a := plan), and_assoc]
  · simp [he, groupStop, eq_comm (a := plan), and_assoc]

/-- What later proofs use of a plan. -/
structure PlanSpec (c : ClmmSwap) (s : ClmmState) (plan : ClmmPlan) : Prop where
  next_eq : plan.next = nextInitialized c s
  nextTick_eq : plan.nextTick = nextTickOf c plan.next
  nextTick_ge : minTick ≤ plan.nextTick
  nextTick_le : plan.nextTick ≤ maxTick
  nextPrice_eq : plan.nextPrice = tickPrice plan.nextTick
  bound_nextPrice : Beyond c.down plan.bound plan.nextPrice
  bound_limit : Beyond c.down plan.bound c.limit
  bound_cases : plan.bound = plan.nextPrice ∨ plan.bound = c.limit ∨
    (c.enabled = true ∧ plan.skipped = false ∧ plan.bound = tickPrice (groupBoundary c s.group))
  fee_nonneg : 0 ≤ plan.fee
  fee_le : plan.fee ≤ 999999

theorem PlanSpec.of_ok (hc : c.Valid) (h : clmmPlan c s = .ok plan) : PlanSpec c s plan := by
  obtain ⟨hrange, rfl⟩ := clmmPlan_eq_ok.1 h
  generalize hp : tickPrice (nextTickOf c (nextInitialized c s)) = nextPrice
  have htarget : Beyond c.down (groupStop c s (nearer c.down nextPrice c.limit))
      (nearer c.down nextPrice c.limit) := by
    unfold groupStop
    split
    · exact nearer_beyond_left _ _ _
    · exact .refl _ _
  refine
    { next_eq := rfl
      nextTick_eq := rfl
      nextTick_ge := hrange.1
      nextTick_le := hrange.2
      nextPrice_eq := hp.symm
      bound_nextPrice := htarget.trans (nearer_beyond_left _ _ _)
      bound_limit := htarget.trans (nearer_beyond_right _ _ _)
      bound_cases := ?_
      fee_nonneg := ?_
      fee_le := ?_ }
  · have htgt := nearer_eq_or c.down nextPrice c.limit
    simp only [groupStop]
    split
    · rename_i hs
      rcases nearer_eq_or c.down (nearer c.down nextPrice c.limit)
        (tickPrice (groupBoundary c s.group)) with h₁ | h₁
      · rw [h₁]
        exact htgt.imp_right .inl
      · exact .inr (.inr ⟨hs.1, by simpa [hs.1] using hs.2, h₁⟩)
    · exact htgt.imp_right .inl
  · dsimp only
    split
    · rename_i he
      exact dynamicFee_nonneg hc he _
    · exact hc.feeRate_nonneg
  · dsimp only
    split
    · exact (dynamicFee_le _).trans (by norm_num)
    · exact hc.feeRate_le

end Plan

/-! ### Taking the step -/

section Step

variable {c : ClmmSwap} {s moved : ClmmState} {plan : ClmmPlan} {step : ClmmSwapStep}

/-- The output a step is credited with. -/
def stepNet (c : ClmmSwap) (plan : ClmmPlan) (step : ClmmSwapStep) : ℤ :=
  if c.inputFee then step.amountOut
  else step.amountOut - ceil (step.amountOut * plan.fee) 1000000

theorem clmmTakeStep_eq_ok :
    clmmTakeStep c s plan = .ok moved ↔
      s.current = plan.bound ∧ moved = s ∨
      s.current ≠ plan.bound ∧ ∃ step,
        clmmSwapStep s.current plan.bound s.liquidity s.remaining
          (if c.inputFee then plan.fee else 0) c.down = .ok step ∧
        (0 ≤ stepRemaining c s step ∧ stepRemaining c s step ≤ u64) ∧
        (0 ≤ s.output + stepNet c plan step ∧ s.output + stepNet c plan step ≤ u64) ∧
        moved = { s with
          remaining := stepRemaining c s step
          output := s.output + stepNet c plan step
          current := step.sqrtPrice } := by
  unfold clmmTakeStep
  by_cases hb : s.current = plan.bound
  · simp only [hb, ne_eq, not_true_eq_false, if_false, true_and, false_and, or_false,
      Except.ok.injEq]
    exact eq_comm
  · simp only [hb, ne_eq, not_false_eq_true, if_true, false_and, true_and, false_or, bind_eq_ok,
      unsigned_eq_ok, pure_eq_ok]
    constructor
    · rintro ⟨step, hstep, _, ⟨hr, rfl⟩, _, ⟨ho, rfl⟩, rfl⟩
      exact ⟨step, hstep, hr, ho, rfl⟩
    · rintro ⟨step, hstep, hr, ho, rfl⟩
      exact ⟨step, hstep, _, ⟨hr, rfl⟩, _, ⟨ho, rfl⟩, rfl⟩

/-- The remaining amount that a step leaves is never negative. -/
theorem stepRemaining_nonneg
    (h : clmmSwapStep s.current plan.bound s.liquidity s.remaining
      (if c.inputFee then plan.fee else 0) c.down = .ok step) :
    0 ≤ stepRemaining c s step := by
  obtain ⟨-, -, hin, hfee, -, hle, -⟩ := clmmSwapStep_spec h
  unfold stepRemaining
  split <;> omega

/-- What later proofs use of a step. -/
structure StepSpec (c : ClmmSwap) (s : ClmmState) (plan : ClmmPlan) (moved : ClmmState) :
    Prop where
  tick_eq : moved.tick = s.tick
  liquidity_eq : moved.liquidity = s.liquidity
  orders_eq : moved.orders = s.orders
  group_eq : moved.group = s.group
  advances : Beyond c.down s.current moved.current
  within_bound : Beyond c.down moved.current plan.bound
  remaining_nonneg : 0 ≤ moved.remaining
  remaining_le : moved.remaining ≤ s.remaining
  progress : c.inputFee = true → moved.current = plan.bound ∨ moved.remaining = 0

theorem StepSpec.of_ok (hr : 0 ≤ s.remaining) (h : clmmTakeStep c s plan = .ok moved) :
    StepSpec c s plan moved := by
  rcases clmmTakeStep_eq_ok.1 h with ⟨hb, rfl⟩ | ⟨-, step, hstep, hrem, -, rfl⟩
  · exact ⟨rfl, rfl, rfl, rfl, .refl _ _, hb ▸ .refl _ _, hr, le_rfl, fun _ => .inl hb⟩
  · obtain ⟨hadv, hwithin, hin, hfee, -, -, hdone⟩ := clmmSwapStep_spec hstep
    refine ⟨rfl, rfl, rfl, rfl, hadv, hwithin, hrem.1, ?_, fun hi => hdone.imp_right fun hd => ?_⟩
    · show stepRemaining c s step ≤ s.remaining
      unfold stepRemaining
      split <;> omega
    · show stepRemaining c s step = 0
      simp only [stepRemaining, hi, if_true]
      omega

end Step

/-! ### Filling limit orders -/

section Fill

variable {c : ClmmSwap} {s filled : ClmmState} {fee : ℤ} {i : ℕ} {m : OrderMatch}

theorem orderPrice_nonneg (current : ℤ) (down : Bool) : 0 ≤ orderPrice current down := by
  have h : 0 ≤ current * current / q64 :=
    Rounding.floor_nonneg q64_pos (mul_self_nonneg current)
  unfold orderPrice
  split <;> omega

/-- What the matched part of the input pays for the whole order fits into the
available input. -/
theorem consumed_le_available {available orders price : ℤ} {down : Bool} (hprice : 0 < price)
    (h : orders ≤ if down then available * price / q64 else available * q64 / price) :
    (if down then ceil (orders * q64) price else ceil (orders * price) q64) ≤ available := by
  cases down with
  | true =>
      simp only [if_true] at h ⊢
      exact (Rounding.ceil_le_iff hprice).2 ((Rounding.le_floor_iff q64_pos).1 h)
  | false =>
      simp only [Bool.false_eq_true, if_false] at h ⊢
      exact (Rounding.ceil_le_iff q64_pos).2 ((Rounding.le_floor_iff hprice).1 h)

/-- A match takes no more than the order offers and charges no more than the
input holds, and it exhausts one of the two. -/
theorem matchOrders_spec {down inputFee : Bool} {remaining orders price : ℤ}
    (h : matchOrders down inputFee remaining fee orders price = .ok m)
    (hr : 0 ≤ remaining) (hf : 0 ≤ fee) (hf' : fee ≤ 999999) (ho : 0 ≤ orders)
    (hprice : 0 < price) :
    0 ≤ m.gross ∧ m.gross ≤ orders ∧ 0 ≤ m.consumed + m.feeAmount ∧
      m.consumed + m.feeAmount ≤ remaining ∧
      (m.gross = orders ∨ m.consumed + m.feeAmount = remaining) := by
  set feeAmount := if inputFee then ceil (remaining * fee) 1000000 else 0 with hfeeAmount
  have hfee_nonneg : 0 ≤ feeAmount := by
    rw [hfeeAmount]
    split
    · exact Rounding.ceil_nonneg (by norm_num) (mul_nonneg hr hf)
    · exact le_rfl
  have hfee_le : feeAmount ≤ remaining := by
    rw [hfeeAmount]
    split
    · exact Rounding.ceil_part_le (by norm_num) hr (by omega)
    · exact hr
  have hmatched : 0 ≤ if down then (remaining - feeAmount) * price / q64
      else (remaining - feeAmount) * q64 / price := by
    split
    · exact Rounding.floor_nonneg q64_pos (mul_nonneg (by omega) hprice.le)
    · exact Rounding.floor_nonneg hprice (mul_nonneg (by omega) q64_pos.le)
  simp only [matchOrders, ← hfeeAmount] at h
  generalize hmd : (if down then (remaining - feeAmount) * price / q64
      else (remaining - feeAmount) * q64 / price) = matched at h hmatched
  split at h
  · rename_i hgt
    simp only [bind_eq_ok, unsigned_eq_ok, pure_eq_ok] at h
    obtain ⟨consumed, ⟨⟨hc₀, -⟩, hceq⟩, rfl⟩ := h
    have hmin : min matched orders = orders := min_eq_right (le_of_lt hgt)
    rw [hmin] at hceq hc₀
    have havail : consumed ≤ remaining - feeAmount := by
      rw [← hceq]
      exact consumed_le_available hprice (by rw [hmd]; exact le_of_lt hgt)
    rw [hceq] at hc₀
    have hsum : consumed + (if inputFee then ceil (consumed * fee) (1000000 - fee) else 0) ≤
        remaining := by
      cases inputFee with
      | true =>
          simp only [if_true, ceil] at hfeeAmount havail ⊢
          rw [hfeeAmount, Rounding.sub_ceil_part _ _ (by norm_num),
            Rounding.le_floor_iff (by norm_num)] at havail
          exact Rounding.add_ceil_fee_le (by omega) havail
      | false =>
          simp only [Bool.false_eq_true, if_false]
          omega
    have hfee₀ : 0 ≤ if inputFee then ceil (consumed * fee) (1000000 - fee) else 0 := by
      split
      · exact Rounding.ceil_nonneg (by omega) (mul_nonneg hc₀ hf)
      · exact le_rfl
    exact ⟨le_of_le_of_eq ho hmin.symm, hmin.le, add_nonneg hc₀ hfee₀, hsum, .inl hmin⟩
  · rename_i hle
    cases h
    have hmin : min matched orders = matched := min_eq_left (by omega)
    refine ⟨by rw [hmin]; exact hmatched, min_le_right _ _, ?_, ?_, .inr ?_⟩ <;> dsimp only <;> omega

theorem clmmFillOrders_eq_ok :
    clmmFillOrders c s fee i = .ok filled ↔
      ¬ (s.orders.getD i 0 ≠ 0 ∧ s.remaining ≠ 0) ∧ filled = s ∨
      (s.orders.getD i 0 ≠ 0 ∧ s.remaining ≠ 0) ∧ orderPrice s.current c.down ≠ 0 ∧ ∃ m,
        matchOrders c.down c.inputFee s.remaining fee (s.orders.getD i 0)
          (orderPrice s.current c.down) = .ok m ∧
        (0 ≤ m.consumed + m.feeAmount ∧ m.consumed + m.feeAmount ≤ u64) ∧
        (0 ≤ fillRemaining s m ∧ fillRemaining s m ≤ u64) ∧
        (0 ≤ s.output + m.gross - (if c.inputFee then 0 else ceil (m.gross * fee) 1000000) ∧
          s.output + m.gross - (if c.inputFee then 0 else ceil (m.gross * fee) 1000000) ≤ u64) ∧
        filled = { s with
          remaining := fillRemaining s m
          output := s.output + m.gross -
            (if c.inputFee then 0 else ceil (m.gross * fee) 1000000)
          orders := s.orders.set i (s.orders.getD i 0 - m.gross) } := by
  unfold clmmFillOrders
  by_cases hb : s.orders.getD i 0 ≠ 0 ∧ s.remaining ≠ 0
  · rw [if_pos hb]
    simp only [bind_eq_ok, require_eq_ok, unsigned_eq_ok, pure_eq_ok]
    constructor
    · rintro ⟨_, hp, m, hm, _, ⟨h₁, -⟩, _, ⟨h₂, rfl⟩, _, ⟨h₃, rfl⟩, rfl⟩
      exact .inr ⟨hb, hp, m, hm, h₁, h₂, h₃, rfl⟩
    · rintro (⟨hn, -⟩ | ⟨-, hp, m, hm, h₁, h₂, h₃, rfl⟩)
      · exact absurd hb hn
      · exact ⟨(), hp, m, hm, _, ⟨h₁, rfl⟩, _, ⟨h₂, rfl⟩, _, ⟨h₃, rfl⟩, rfl⟩
  · rw [if_neg hb]
    simp only [hb, not_false_eq_true, true_and, false_and, or_false, Except.ok.injEq]
    exact eq_comm

theorem clmmFillOrders_frame (h : clmmFillOrders c s fee i = .ok filled) :
    filled.current = s.current ∧ filled.tick = s.tick ∧ filled.liquidity = s.liquidity ∧
      filled.group = s.group := by
  rcases clmmFillOrders_eq_ok.1 h with ⟨-, rfl⟩ | ⟨-, -, m, -, -, -, -, rfl⟩
  · exact ⟨rfl, rfl, rfl, rfl⟩
  · exact ⟨rfl, rfl, rfl, rfl⟩

/-- The remaining amount that filling orders leaves is never negative. -/
theorem fillRemaining_nonneg (hr : 0 ≤ s.remaining) (hf : 0 ≤ fee) (hf' : fee ≤ 999999)
    (ho : 0 ≤ s.orders.getD i 0) (hprice : orderPrice s.current c.down ≠ 0)
    (h : matchOrders c.down c.inputFee s.remaining fee (s.orders.getD i 0)
      (orderPrice s.current c.down) = .ok m) :
    0 ≤ fillRemaining s m := by
  have hpos : 0 < orderPrice s.current c.down :=
    lt_of_le_of_ne (orderPrice_nonneg _ _) hprice.symm
  obtain ⟨-, -, -, hle, -⟩ := matchOrders_spec h hr hf hf' ho hpos
  unfold fillRemaining
  omega

/-- What later proofs use of a fill. The orders at the tick are either left
alone, or filled completely, or what they match uses the input up. -/
structure FillSpec (s : ClmmState) (i : ℕ) (filled : ClmmState) : Prop where
  current_eq : filled.current = s.current
  tick_eq : filled.tick = s.tick
  liquidity_eq : filled.liquidity = s.liquidity
  group_eq : filled.group = s.group
  remaining_nonneg : 0 ≤ filled.remaining
  remaining_le : filled.remaining ≤ s.remaining
  orders_eq : filled.orders = s.orders.set i (filled.orders.getD i 0)
  order_nonneg : 0 ≤ filled.orders.getD i 0
  order_le : filled.orders.getD i 0 ≤ s.orders.getD i 0
  exhausts : filled.orders.getD i 0 = 0 ∨ filled.remaining = 0

theorem FillSpec.of_ok (hi : i < s.orders.length) (hr : 0 ≤ s.remaining) (hf : 0 ≤ fee)
    (hf' : fee ≤ 999999) (ho : 0 ≤ s.orders.getD i 0)
    (h : clmmFillOrders c s fee i = .ok filled) : FillSpec s i filled := by
  rcases clmmFillOrders_eq_ok.1 h with ⟨hskip, rfl⟩ | ⟨-, hprice, m, hm, -, hrem, -, rfl⟩
  · refine ⟨rfl, rfl, rfl, rfl, hr, le_rfl, ?_, ho, le_rfl, ?_⟩
    · rw [List.getD_eq_getElem _ _ hi, List.set_getElem_self]
    · rw [not_and_or, not_not, not_not] at hskip
      exact hskip
  · have hpos : 0 < orderPrice s.current c.down :=
      lt_of_le_of_ne (orderPrice_nonneg _ _) hprice.symm
    obtain ⟨hg₀, hg, hsum₀, hsum, hdone⟩ := matchOrders_spec hm hr hf hf' ho hpos
    have hget : (s.orders.set i (s.orders.getD i 0 - m.gross)).getD i 0 =
        s.orders.getD i 0 - m.gross := by
      simp [List.getD_eq_getElem?_getD, hi]
    refine ⟨rfl, rfl, rfl, rfl, hrem.1, ?_, ?_, ?_, ?_, ?_⟩ <;> dsimp only
    · unfold fillRemaining
      omega
    · rw [hget]
    · rw [hget]
      omega
    · rw [hget]
      omega
    · rw [hget]
      unfold fillRemaining
      omega

end Fill

/-! ### Crossing a tick -/

section Cross

variable {c : ClmmSwap} {s crossed : ClmmState} {t : ClmmTick} {i : ℕ}

theorem clmmCrossTick_eq_ok :
    clmmCrossTick c s t i = .ok crossed ↔
      ∃ liquidity, (if t.liquidityGross ≠ 0 ∧ s.orders.getD i 0 = 0 then
          unsigned (s.liquidity + (if c.down then -t.liquidityNet else t.liquidityNet)) u128
        else .ok s.liquidity) = .ok liquidity ∧
      crossed = { s with
        liquidity
        tick := if (c.down ∧ s.orders.getD i 0 = 0) ∨ (¬ c.down ∧ s.orders.getD i 0 ≠ 0)
          then t.tick - 1 else t.tick } := by
  simp only [clmmCrossTick, bind_eq_ok, pure_eq_ok]
  exact exists_congr fun _ => and_congr_right' eq_comm

theorem clmmCrossTick_frame (h : clmmCrossTick c s t i = .ok crossed) :
    crossed.current = s.current ∧ crossed.remaining = s.remaining ∧ crossed.output = s.output ∧
      crossed.orders = s.orders ∧ crossed.group = s.group ∧
      crossed.tick = if (c.down ∧ s.orders.getD i 0 = 0) ∨ (¬ c.down ∧ s.orders.getD i 0 ≠ 0)
        then t.tick - 1 else t.tick := by
  obtain ⟨_, -, rfl⟩ := clmmCrossTick_eq_ok.1 h
  exact ⟨rfl, rfl, rfl, rfl, rfl, rfl⟩

end Cross

/-! ### The iteration -/

/-- The states that follow `s`: past an initialized tick, or between ticks. -/
inductive ClmmTransition (c : ClmmSwap) (s : ClmmState) : ClmmState → Prop
  | cross {plan : ClmmPlan} {moved filled crossed : ClmmState} {t : ClmmTick} {i : ℕ} :
      clmmPlan c s = .ok plan → clmmTakeStep c s plan = .ok moved →
      moved.current = plan.nextPrice → plan.next = some (t, i) →
      clmmFillOrders c moved plan.fee i = .ok filled → clmmCrossTick c filled t i = .ok crossed →
      ClmmTransition c s (advanceGroup c plan crossed)
  | pass {plan : ClmmPlan} {moved : ClmmState} {tick : ℤ} :
      clmmPlan c s = .ok plan → clmmTakeStep c s plan = .ok moved →
      moved.current ≠ plan.nextPrice →
      (moved.current ≠ s.current ∧ clmmTickAtSqrtPrice moved.current = .ok tick ∨
        moved.current = s.current ∧ tick = moved.tick) →
      ClmmTransition c s (advanceGroup c plan { moved with tick })

section Iteration

variable {c : ClmmSwap} {s s' : ClmmState} {r : ClmmSwapResult}

theorem clmmIteration_next :
    clmmIteration c s = .ok (.next s') ↔
      s.remaining ≠ 0 ∧ s.current ≠ c.limit ∧ ClmmTransition c s s' := by
  unfold clmmIteration
  by_cases hend : s.remaining = 0 ∨ s.current = c.limit
  · rw [if_pos hend]
    constructor
    · intro h
      cases h
    · rintro ⟨h₁, h₂, -⟩
      exact absurd hend (not_or.2 ⟨h₁, h₂⟩)
  · rw [if_neg hend]
    obtain ⟨hr, hl⟩ := not_or.1 hend
    simp only [bind_eq_ok]
    constructor
    · rintro ⟨plan, hplan, moved, hmoved, h⟩
      refine ⟨hr, hl, ?_⟩
      split at h
      · rename_i hcur
        split at h
        · cases h
        · rename_i t i hnext
          simp only [bind_eq_ok, pure_eq_ok, Flow.next.injEq] at h
          obtain ⟨filled, hfill, crossed, hcross, rfl⟩ := h
          exact .cross hplan hmoved hcur hnext hfill hcross
      · rename_i hcur
        split at h
        · rename_i hne
          simp only [bind_eq_ok, pure_eq_ok, Flow.next.injEq] at h
          obtain ⟨tick, htick, rfl⟩ := h
          exact .pass hplan hmoved hcur (.inl ⟨hne, htick⟩)
        · rename_i heq
          cases h
          exact .pass hplan hmoved hcur (.inr ⟨not_not.1 heq, rfl⟩)
    · rintro ⟨-, -, htrans⟩
      cases htrans with
      | cross hplan hmoved hcur hnext hfill hcross =>
          refine ⟨_, hplan, _, hmoved, ?_⟩
          rw [if_pos hcur]
          simp only [hnext, hfill, hcross, ok_bind]
          rfl
      | pass hplan hmoved hcur htick =>
          refine ⟨_, hplan, _, hmoved, ?_⟩
          rw [if_neg hcur]
          rcases htick with ⟨hne, htick⟩ | ⟨heq, rfl⟩
          · rw [if_pos hne, htick]
            rfl
          · rw [if_neg (not_not.2 heq)]
            rfl

theorem clmmIteration_ret :
    clmmIteration c s = .ok (.ret r) ↔
      (s.remaining = 0 ∨ s.current = c.limit) ∧ r = clmmResult c s := by
  unfold clmmIteration
  by_cases hend : s.remaining = 0 ∨ s.current = c.limit
  · rw [if_pos hend]
    simp only [Except.ok.injEq, Flow.ret.injEq, hend, true_and]
    exact eq_comm
  · rw [if_neg hend]
    simp only [hend, false_and, iff_false, bind_eq_ok]
    rintro ⟨plan, -, moved, -, h⟩
    split at h
    · split at h
      · cases h
      · simp only [bind_eq_ok, pure_eq_ok, reduceCtorEq, and_false, exists_false] at h
    · split at h
      · simp only [bind_eq_ok, pure_eq_ok, reduceCtorEq, and_false, exists_false] at h
      · cases h

/-- The loop is left by a break only at an uninitialized end of the tick range. -/
theorem clmmIteration_brk :
    clmmIteration c s = .ok (.brk s') ↔
      s.remaining ≠ 0 ∧ s.current ≠ c.limit ∧ ∃ plan, clmmPlan c s = .ok plan ∧
        clmmTakeStep c s plan = .ok s' ∧ s'.current = plan.nextPrice ∧ plan.next = none := by
  unfold clmmIteration
  by_cases hend : s.remaining = 0 ∨ s.current = c.limit
  · rw [if_pos hend]
    constructor
    · intro h
      cases h
    · rintro ⟨h₁, h₂, -⟩
      exact absurd hend (not_or.2 ⟨h₁, h₂⟩)
  · rw [if_neg hend]
    obtain ⟨hr, hl⟩ := not_or.1 hend
    simp only [bind_eq_ok]
    constructor
    · rintro ⟨plan, hplan, moved, hmoved, h⟩
      split at h
      · rename_i hcur
        split at h
        · rename_i hnext
          cases h
          exact ⟨hr, hl, plan, hplan, hmoved, hcur, hnext⟩
        · simp only [bind_eq_ok, pure_eq_ok, reduceCtorEq, and_false, exists_false] at h
      · split at h
        · simp only [bind_eq_ok, pure_eq_ok, reduceCtorEq, and_false, exists_false] at h
        · cases h
    · rintro ⟨-, -, plan, hplan, hmoved, hcur, hnext⟩
      refine ⟨plan, hplan, s', hmoved, ?_⟩
      rw [if_pos hcur]
      simp only [hnext]
      rfl

end Iteration

end SolTrade.Clmm
