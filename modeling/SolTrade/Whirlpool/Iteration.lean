import Mathlib.Data.List.Chain
import SolTrade.Whirlpool.Swap

/-!
What one iteration of the Whirlpool traversal can do.

As for the CLMM, each part of the iteration gets one specification, and the
invariants of the traversal are derived from these.
-/

namespace SolTrade.Whirlpool

open Library
open Clmm (ClmmPool ClmmTick ClmmSwapStep clmmSwapStep clmmSwapStep_spec minTick maxTick)

/-! ### The values fixed before the loop -/

structure Adaptive.Valid (a : Adaptive) : Prop where
  groupSize_pos : 0 < a.groupSize
  control_nonneg : 0 ≤ a.control
  reference_le : a.volatilityReference ≤ a.maximum
  lowerGroup_eq : ∀ l ∈ a.lowerGroup,
    l = a.reference - ceil (a.maximum - a.volatilityReference) 10000
  upperGroup_eq : ∀ u ∈ a.upperGroup,
    u = a.reference + ceil (a.maximum - a.volatilityReference) 10000

/-- What the checks before the loop establish. -/
structure WhirlpoolSwap.Valid (c : WhirlpoolSwap) : Prop where
  spacing_pos : 0 < c.pool.tickSpacing
  feeRate_nonneg : 0 ≤ c.pool.feeRate
  feeRate_le : c.pool.feeRate ≤ 65535
  limit_ge : minSqrtPrice ≤ c.limit
  limit_le : c.limit ≤ maxSqrtPrice
  price_ge : minSqrtPrice ≤ c.pool.sqrtPrice
  price_le : c.pool.sqrtPrice ≤ maxSqrtPrice
  towards : StrictlyBeyond c.down c.pool.sqrtPrice c.limit
  amount_pos : 0 < c.amount
  window_ge : minTick ≤ c.lower
  window_le : c.upper ≤ maxTick
  edge_ge : minTick ≤ windowEdge c
  edge_le : windowEdge c ≤ maxTick
  sorted : c.ticks.Pairwise (fun a b => a.tick < b.tick)
  tick_range : ∀ t ∈ c.ticks, c.lower ≤ t.tick ∧ t.tick ≤ c.upper
  tick_spacing : ∀ t ∈ c.ticks, t.tick % c.pool.tickSpacing = 0
  adaptive : ∀ a ∈ c.adaptive, a.Valid

section Prepare

variable {pool : ClmmPool} {ticks : List ClmmTick} {arrayStarts : List ℤ}
  {amount timestamp limit : ℤ} {down : Bool} {adaptive : Option WhirlpoolAdaptiveFee}
  {c : WhirlpoolSwap} {s : WhirlpoolState}

theorem checkPool_eq_ok {u : Unit} :
    checkPool pool amount timestamp = .ok u ↔
      (0 < amount ∧ amount ≤ u64) ∧ (0 ≤ timestamp ∧ timestamp ≤ u64) ∧
      (minSqrtPrice ≤ pool.sqrtPrice ∧ pool.sqrtPrice ≤ maxSqrtPrice) ∧
      (0 ≤ pool.liquidity ∧ pool.liquidity ≤ u128) ∧
      (0 < pool.tickSpacing ∧ pool.tickSpacing ≤ 65535) ∧
      (0 ≤ pool.feeRate ∧ pool.feeRate ≤ 65535) ∧
      (minTick ≤ pool.tickCurrent ∧ pool.tickCurrent ≤ maxTick) := by
  have hmin : minSqrtPrice = 4295048016 := rfl
  have hmax : maxSqrtPrice = 79226673515401279992447579055 := rfl
  have hu : u128 = 2 ^ 128 - 1 := rfl
  simp only [checkPool, bind_eq_ok, unsigned_eq_ok, require_eq_ok]
  constructor
  · rintro ⟨_, ⟨ha, rfl⟩, _, ⟨ht, rfl⟩, _, ⟨-, rfl⟩, _, ⟨hl, rfl⟩, _, ⟨hs, rfl⟩, _, ⟨hf, rfl⟩,
      ha', hs', htick, hp⟩
    exact ⟨by omega, ht, hp, hl, by omega, hf, htick⟩
  · rintro ⟨ha, ht, hp, hl, hs, hf, htick⟩
    refine ⟨_, ⟨?_, rfl⟩, _, ⟨ht, rfl⟩, _, ⟨?_, rfl⟩, _, ⟨hl, rfl⟩, _, ⟨?_, rfl⟩, _, ⟨hf, rfl⟩,
      ?_, ?_, htick, hp⟩ <;> omega

/-- The checks a successful preparation has passed, and what it hands to the
loop. -/
theorem whirlpoolPrepare_eq_ok :
    whirlpoolPrepare pool ticks arrayStarts amount timestamp down adaptive limit = .ok (c, s) ↔
      checkPool pool amount timestamp = .ok () ∧
      checkArrays pool (sortedStarts arrayStarts) = .ok () ∧ (0 ≤ limit ∧ limit ≤ u128) ∧
      checkLimit pool (limitOr limit down) down = .ok () ∧
      (∀ t ∈ ticks, checkTick pool (windowLower (sortedStarts arrayStarts))
        (windowUpper pool (sortedStarts arrayStarts)) t = .ok ()) ∧
      (orderedTicks ticks).IsChain (fun a b => a.tick ≠ b.tick) ∧
      adaptive.mapM (prepareAdaptive pool timestamp) = .ok c.adaptive ∧
      c = { pool, ticks := orderedTicks ticks, amount, limit := limitOr limit down
            lower := windowLower (sortedStarts arrayStarts)
            upper := windowUpper pool (sortedStarts arrayStarts), down, adaptive := c.adaptive } ∧
      s = { current := pool.sqrtPrice, tick := pool.tickCurrent, liquidity := pool.liquidity
            remaining := amount, output := 0, fees := 0
            minimumFee := pool.feeRate, maximumFee := pool.feeRate, first := true
            group := initialGroup pool c.adaptive } := by
  simp only [whirlpoolPrepare, bind_eq_ok, unsigned_eq_ok, require_eq_ok, forM_eq_ok, pure_eq_ok]
  constructor
  · rintro ⟨_, hpool, _, harrays, _, ⟨hl, -⟩, _, hlimit, _, hticks, _, hdup, a, ha, h⟩
    obtain ⟨rfl, rfl⟩ := Prod.mk.injEq .. ▸ h
    exact ⟨hpool, harrays, hl, hlimit, hticks, hdup, ha, rfl, rfl⟩
  · rintro ⟨hpool, harrays, hl, hlimit, hticks, hdup, ha, hc, hs⟩
    refine ⟨(), hpool, (), harrays, _, ⟨hl, rfl⟩, (), hlimit, (), hticks, (), hdup, c.adaptive, ha,
      ?_⟩
    rw [hs, ← hc]

theorem isChain_lt_of_ne {ticks : List ClmmTick}
    (hle : ticks.Pairwise (fun a b => a.tick ≤ b.tick))
    (hne : ticks.IsChain (fun a b => a.tick ≠ b.tick)) :
    ticks.IsChain (fun a b => a.tick < b.tick) := by
  induction ticks with
  | nil => exact .nil
  | cons a ticks ih =>
      cases ticks with
      | nil => exact .singleton a
      | cons b ticks =>
          obtain ⟨hab, hne⟩ := List.isChain_cons_cons.1 hne
          obtain ⟨hle₁, hle⟩ := List.pairwise_cons.1 hle
          exact List.isChain_cons_cons.2
            ⟨lt_of_le_of_ne (hle₁ b List.mem_cons_self) hab, ih hle hne⟩

/-- Sorting and the check for duplicates leave strictly ascending ticks. -/
theorem orderedTicks_pairwise {ticks : List ClmmTick}
    (h : (orderedTicks ticks).IsChain (fun a b => a.tick ≠ b.tick)) :
    (orderedTicks ticks).Pairwise (fun a b => a.tick < b.tick) := by
  have : Trans (fun a b : ClmmTick => a.tick < b.tick) (fun a b : ClmmTick => a.tick < b.tick)
      (fun a b : ClmmTick => a.tick < b.tick) := ⟨lt_trans⟩
  rw [← List.isChain_iff_pairwise]
  unfold orderedTicks at h ⊢
  split
  · assumption
  · rename_i hs
    rw [if_neg hs] at h
    have : Std.Total (fun a b : ClmmTick => a.tick ≤ b.tick) := ⟨fun a b => le_total _ _⟩
    have : IsTrans ClmmTick (fun a b => a.tick ≤ b.tick) := ⟨fun a b c => le_trans⟩
    exact isChain_lt_of_ne (List.pairwise_insertionSort _ ticks) h

theorem mem_orderedTicks {ticks : List ClmmTick} {t : ClmmTick} :
    t ∈ orderedTicks ticks ↔ t ∈ ticks := by
  unfold orderedTicks
  split
  · rfl
  · exact List.mem_insertionSort _

theorem checkArrays_eq_ok {starts : List ℤ} {u : Unit} :
    checkArrays pool starts = .ok u ↔ (1 ≤ starts.length ∧ starts.length ≤ 6) ∧
      (∀ s ∈ starts, s % arrayStep pool = 0 ∧ s ≤ maxTick ∧ minTick < s + arrayStep pool) ∧
      starts.IsChain (fun a b => b - a = arrayStep pool) := require_eq_ok

theorem prepareAdaptive_valid {w : WhirlpoolAdaptiveFee} {a : Adaptive}
    (h : prepareAdaptive pool timestamp w = .ok a) : a.Valid := by
  simp only [prepareAdaptive, bind_eq_ok, require_eq_ok, pure_eq_ok] at h
  obtain ⟨_, hcheck, _, -, _, href, rfl⟩ := h
  simp only [checkAdaptive, bind_eq_ok, forM_eq_ok, unsigned_eq_ok, require_eq_ok, pure_eq_ok,
    List.mem_cons, List.not_mem_nil, or_false, forall_eq_or_imp, forall_eq] at hcheck
  obtain ⟨_, ⟨-, -, -, _, ⟨⟨hsize, -⟩, -⟩, -⟩, _, ⟨⟨_, ⟨⟨hcontrol, -⟩, -⟩, -⟩, -⟩, _, -, _, -,
    hsize', -⟩ := hcheck
  refine ⟨lt_of_le_of_ne hsize hsize'.symm, hcontrol, href, ?_, ?_⟩
  · intro l hl
    dsimp only at hl ⊢
    split at hl
    · exact (Option.some.inj hl).symm
    · cases hl
  · intro u hu
    dsimp only at hu ⊢
    split at hu
    · exact (Option.some.inj hu).symm
    · cases hu

theorem adaptive_valid {o : Option Adaptive}
    (h : adaptive.mapM (prepareAdaptive pool timestamp) = .ok o) : ∀ a ∈ o, a.Valid := by
  cases adaptive with
  | none =>
      cases h
      simp
  | some w =>
      obtain ⟨a, ha, rfl⟩ := mapM_some_eq_ok.1 h
      intro a' ha'
      cases ha'
      exact prepareAdaptive_valid ha

theorem WhirlpoolSwap.Valid.of_prepare
    (h : whirlpoolPrepare pool ticks arrayStarts amount timestamp down adaptive limit =
      .ok (c, s)) : c.Valid := by
  obtain ⟨hpool, harrays, -, hlimit, hticks, hdup, ha, hc, -⟩ := whirlpoolPrepare_eq_ok.1 h
  obtain ⟨hamt, -, hp, -, hs, hf, -⟩ := checkPool_eq_ok.1 hpool
  obtain ⟨hlen, hstarts, -⟩ := checkArrays_eq_ok.1 harrays
  obtain ⟨hlim, hdir⟩ := require_eq_ok.1 hlimit
  have hmm : minTick ≤ maxTick := Clmm.minTick_le_maxTick
  have hhead : windowLower (sortedStarts arrayStarts) ≤ maxTick := by
    obtain ⟨x, xs, hxs⟩ := List.exists_cons_of_length_pos
      (show 0 < (sortedStarts arrayStarts).length by omega)
    have := (hstarts x (by rw [hxs]; exact List.mem_cons_self)).2.1
    rw [windowLower, hxs, List.headD_cons]
    omega
  have hlast : minTick ≤ windowUpper pool (sortedStarts arrayStarts) := by
    have hne : sortedStarts arrayStarts ≠ [] := List.ne_nil_of_length_pos (by omega)
    have := (hstarts _ (List.getLast_mem hne)).2.2
    rw [windowUpper, List.getLastD_eq_getLast?, List.getLast?_eq_some_getLast hne,
      Option.getD_some]
    omega
  rw [hc]
  exact
    { spacing_pos := hs.1
      feeRate_nonneg := hf.1
      feeRate_le := hf.2
      limit_ge := hlim.1
      limit_le := hlim.2
      price_ge := hp.1
      price_le := hp.2
      towards := by cases down <;> simpa using hdir
      amount_pos := hamt.1
      window_ge := le_max_right _ _
      window_le := min_le_right _ _
      edge_ge := by
        simp only [windowEdge]
        split
        · exact le_max_right _ _
        · exact hlast
      edge_le := by
        simp only [windowEdge]
        split
        · exact hhead
        · exact min_le_right _ _
      sorted := orderedTicks_pairwise hdup
      tick_range := fun t ht => (require_eq_ok.1 (hticks t (mem_orderedTicks.1 ht))).1
      tick_spacing := fun t ht => (require_eq_ok.1 (hticks t (mem_orderedTicks.1 ht))).2.1
      adaptive := fun a hmem => adaptive_valid ha a hmem }

end Prepare

/-! ### Choosing the next tick -/

section Next

variable {c : WhirlpoolSwap} {s : WhirlpoolState} {t u : ClmmTick}

/-- A loaded tick that the direction of travel has not passed. -/
def IsAhead (c : WhirlpoolSwap) (s : WhirlpoolState) (t : ClmmTick) : Prop :=
  t ∈ c.ticks ∧ if c.down then t.tick ≤ s.tick else s.tick < t.tick

theorem WhirlpoolSwap.Valid.keys_sorted (hc : c.Valid) :
    (c.ticks.map (·.tick)).Pairwise (· ≤ ·) :=
  List.pairwise_map.2 (hc.sorted.imp fun h => h.le)

theorem getElem?_keys {i : ℕ} (h : c.ticks[i]? = some t) :
    (c.ticks.map (·.tick))[i]? = some t.tick := by
  rw [List.getElem?_map, h, Option.map_some]

theorem nextTick_up (hd : c.down = false) :
    nextTick c s = c.ticks[bisectRight (c.ticks.map (·.tick)) s.tick]? := by
  simp only [nextTick, hd, Bool.false_eq_true, if_false, sub_zero, Int.toNat_natCast]
  split
  · rfl
  · rw [List.getElem?_eq_none (by omega)]

theorem nextTick_down_zero (hd : c.down = true)
    (h : bisectRight (c.ticks.map (·.tick)) s.tick = 0) : nextTick c s = none := by
  simp [nextTick, hd, h]

theorem nextTick_down_succ {i : ℕ} (hd : c.down = true)
    (h : i + 1 = bisectRight (c.ticks.map (·.tick)) s.tick) : nextTick c s = c.ticks[i]? := by
  have hle := bisectRight_le_length (c.ticks.map (·.tick)) s.tick
  rw [List.length_map] at hle
  have hpos : ((i + 1 : ℕ) : ℤ) - 1 = i := by omega
  simp only [nextTick, hd, if_true, ← h, hpos, Int.toNat_natCast]
  rw [if_pos (by omega)]

theorem nextTick_some (hc : c.Valid) (h : nextTick c s = some t) :
    IsAhead c s t ∧ ∀ u, IsAhead c s u → Beyond c.down t.tick u.tick := by
  cases hd : c.down with
  | false =>
      rw [nextTick_up hd] at h
      obtain ⟨hlt, hfirst⟩ := first_after hc.keys_sorted (getElem?_keys h)
      refine ⟨⟨List.mem_of_getElem? h, by simpa [hd] using hlt⟩, fun u hu => ?_⟩
      simp only [IsAhead, hd, Bool.false_eq_true, if_false] at hu
      exact hfirst _ (List.mem_map_of_mem hu.1) hu.2
  | true =>
      cases hn : bisectRight (c.ticks.map (·.tick)) s.tick with
      | zero => simp [nextTick_down_zero hd hn] at h
      | succ i =>
          rw [nextTick_down_succ hd hn.symm] at h
          obtain ⟨hle, hlast⟩ := last_upto hc.keys_sorted hn.symm (getElem?_keys h)
          refine ⟨⟨List.mem_of_getElem? h, by simpa [hd] using hle⟩, fun u hu => ?_⟩
          simp only [IsAhead, hd, if_true] at hu
          exact hlast _ (List.mem_map_of_mem hu.1) hu.2

theorem nextTick_none (hc : c.Valid) (h : nextTick c s = none) : ¬ IsAhead c s u := by
  rintro ⟨hmem, hside⟩
  have hkey := List.mem_map_of_mem (f := fun t : ClmmTick => t.tick) hmem
  cases hd : c.down with
  | false =>
      rw [nextTick_up hd, List.getElem?_eq_none_iff] at h
      have := none_after hc.keys_sorted (x := s.tick)
        (List.getElem?_eq_none (by rw [List.length_map]; exact h)) hkey
      simp only [hd, Bool.false_eq_true, if_false] at hside
      omega
  | true =>
      simp only [hd, if_true] at hside
      cases hn : bisectRight (c.ticks.map (·.tick)) s.tick with
      | zero =>
          have := none_upto hc.keys_sorted hn hkey
          omega
      | succ i =>
          have hle := bisectRight_le_length (c.ticks.map (·.tick)) s.tick
          rw [List.length_map] at hle
          rw [nextTick_down_succ hd hn.symm, List.getElem?_eq_none_iff] at h
          omega

theorem WhirlpoolSwap.Valid.tick_inj (hc : c.Valid) (ht : t ∈ c.ticks) (hu : u ∈ c.ticks)
    (h : t.tick = u.tick) : t = u := by
  have hnodup : (c.ticks.map (·.tick)).Nodup := List.pairwise_map.2 (hc.sorted.imp fun h => h.ne)
  exact List.inj_on_of_nodup_map hnodup ht hu h

end Next

/-! ### Planning the step -/

section Plan

variable {c : WhirlpoolSwap} {s : WhirlpoolState} {plan : WhirlpoolPlan}

/-- What the adaptive fee says about the groups ahead. -/
def stopOf (c : WhirlpoolSwap) (s : WhirlpoolState) : Bool × Option ℤ :=
  match c.adaptive with
  | none => (false, none)
  | some a => groupStop c.down a s

def feeOf (c : WhirlpoolSwap) (s : WhirlpoolState) : ℤ :=
  match c.adaptive with
  | none => c.pool.feeRate
  | some a => adaptiveFee c.pool a (volatilityAt a s.group)

/-- The bound of a step towards `target` that has to stop at a tick on the way. -/
def stopAt (down : Bool) (stop : Option ℤ) (target : ℤ) : ℤ :=
  match stop with
  | none => target
  | some t => nearer down target (tickPrice t)

theorem whirlpoolPlan_eq_ok :
    whirlpoolPlan c s = .ok plan ↔
      (minTick ≤ nextIndexOf c (nextTick c s) ∧ nextIndexOf c (nextTick c s) ≤ maxTick) ∧
      (∀ t ∈ (stopOf c s).2, minTick ≤ t ∧ t ≤ maxTick) ∧
      plan =
        { next := nextTick c s
          nextIndex := nextIndexOf c (nextTick c s)
          nextPrice := tickPrice (nextIndexOf c (nextTick c s))
          fee := feeOf c s
          skipped := (stopOf c s).1
          bound := stopAt c.down (stopOf c s).2
            (nearer c.down (tickPrice (nextIndexOf c (nextTick c s))) c.limit) } := by
  simp only [whirlpoolPlan, bind_eq_ok, whirlpoolSqrtPriceAtTick_eq_ok]
  cases ha : c.adaptive with
  | none => simp [stopOf, feeOf, stopAt, ha, eq_comm (a := plan), and_assoc]
  | some a =>
      rcases hg : groupStop c.down a s with ⟨skipped, _ | stop⟩
      · simp [stopOf, feeOf, stopAt, ha, hg, eq_comm (a := plan), and_assoc]
      · simp only [stopOf, feeOf, stopAt, ha, hg, bind_eq_ok, whirlpoolSqrtPriceAtTick_eq_ok,
          pure_eq_ok, Option.mem_def, Option.some.injEq, forall_eq']
        constructor
        · rintro ⟨_, ⟨hr, rfl⟩, _, ⟨hs, rfl⟩, rfl⟩
          exact ⟨hr, hs, rfl⟩
        · rintro ⟨hr, hs, rfl⟩
          exact ⟨_, ⟨hr, rfl⟩, _, ⟨hs, rfl⟩, rfl⟩

theorem adaptiveFee_ge (hc : c.Valid) {a : Adaptive} (ha : a ∈ c.adaptive) (v : ℤ) :
    c.pool.feeRate ≤ adaptiveFee c.pool a v := by
  have hcontrol := (hc.adaptive a ha).control_nonneg
  have hceil : 0 ≤ ceil (a.control * (v * a.groupSize) * (v * a.groupSize)) 10000000000000 := by
    apply Rounding.ceil_nonneg (by norm_num)
    rw [mul_assoc]
    exact mul_nonneg hcontrol (mul_self_nonneg _)
  have := hc.feeRate_le
  simp only [adaptiveFee]
  omega

/-- What later proofs use of a plan. -/
structure PlanSpec (c : WhirlpoolSwap) (s : WhirlpoolState) (plan : WhirlpoolPlan) : Prop where
  next_eq : plan.next = nextTick c s
  nextIndex_eq : plan.nextIndex = nextIndexOf c plan.next
  nextIndex_ge : minTick ≤ plan.nextIndex
  nextIndex_le : plan.nextIndex ≤ maxTick
  nextPrice_eq : plan.nextPrice = tickPrice plan.nextIndex
  skipped_eq : plan.skipped = (stopOf c s).1
  bound_eq : plan.bound =
    stopAt c.down (stopOf c s).2 (nearer c.down plan.nextPrice c.limit)
  stop_range : ∀ t ∈ (stopOf c s).2, minTick ≤ t ∧ t ≤ maxTick
  fee_eq : plan.fee = feeOf c s
  fee_ge : c.pool.feeRate ≤ plan.fee
  fee_le : plan.fee ≤ 100000

theorem stopAt_beyond (down : Bool) (stop : Option ℤ) (target : ℤ) :
    Beyond down (stopAt down stop target) target := by
  cases stop with
  | none => exact .refl _ _
  | some t => exact nearer_beyond_left _ _ _

theorem stopAt_eq_or (down : Bool) (stop : Option ℤ) (target : ℤ) :
    stopAt down stop target = target ∨
      ∃ t, stop = some t ∧ stopAt down stop target = tickPrice t := by
  cases stop with
  | none => exact .inl rfl
  | some t => exact (nearer_eq_or down target (tickPrice t)).imp_right fun h => ⟨t, rfl, h⟩

theorem PlanSpec.of_ok (hc : c.Valid) (h : whirlpoolPlan c s = .ok plan) : PlanSpec c s plan := by
  obtain ⟨hrange, hstop, rfl⟩ := whirlpoolPlan_eq_ok.1 h
  have := hc.feeRate_le
  refine ⟨rfl, rfl, hrange.1, hrange.2, rfl, rfl, rfl, hstop, rfl, ?_, ?_⟩
  · dsimp only [feeOf]
    split
    · exact le_rfl
    · rename_i a ha
      exact adaptiveFee_ge hc ha _
  · dsimp only [feeOf]
    split
    · omega
    · exact min_le_right _ _

theorem PlanSpec.bound_nextPrice (h : PlanSpec c s plan) :
    Beyond c.down plan.bound plan.nextPrice := by
  rw [h.bound_eq]
  exact (stopAt_beyond _ _ _).trans (nearer_beyond_left _ _ _)

theorem PlanSpec.bound_limit (h : PlanSpec c s plan) : Beyond c.down plan.bound c.limit := by
  rw [h.bound_eq]
  exact (stopAt_beyond _ _ _).trans (nearer_beyond_right _ _ _)

/-- A step stops at the next tick, at the limit or on account of the groups. -/
theorem PlanSpec.bound_cases (h : PlanSpec c s plan) :
    plan.bound = plan.nextPrice ∨ plan.bound = c.limit ∨
      ∃ t, (stopOf c s).2 = some t ∧ plan.bound = tickPrice t := by
  rw [h.bound_eq]
  rcases stopAt_eq_or c.down (stopOf c s).2 (nearer c.down plan.nextPrice c.limit) with heq | hs
  · rw [heq]
    exact (nearer_eq_or _ _ _).imp_right .inl
  · exact .inr (.inr hs)

end Plan

/-! ### Taking the step -/

section Step

variable {c : WhirlpoolSwap} {s moved landed s' : WhirlpoolState} {plan : WhirlpoolPlan}
  {step : ClmmSwapStep}

/-- The state after a step. -/
def afterStep (s : WhirlpoolState) (plan : WhirlpoolPlan) (step : ClmmSwapStep) : WhirlpoolState :=
  { s with
    remaining := stepRemaining s step
    output := s.output + step.amountOut
    fees := s.fees + step.fee
    current := step.sqrtPrice
    minimumFee := if s.first then plan.fee else min s.minimumFee plan.fee
    maximumFee := if s.first then plan.fee else max s.maximumFee plan.fee
    first := false }

theorem whirlpoolTakeStep_eq_ok :
    whirlpoolTakeStep c s plan = .ok moved ↔ ∃ step,
      clmmSwapStep s.current plan.bound s.liquidity s.remaining plan.fee c.down = .ok step ∧
      (0 ≤ stepRemaining s step ∧ stepRemaining s step ≤ u64) ∧
      (0 ≤ s.output + step.amountOut ∧ s.output + step.amountOut ≤ u64) ∧
      (0 ≤ s.fees + step.fee ∧ s.fees + step.fee ≤ u64) ∧ moved = afterStep s plan step := by
  simp only [whirlpoolTakeStep, bind_eq_ok, unsigned_eq_ok, pure_eq_ok]
  constructor
  · rintro ⟨step, hstep, _, ⟨hr, rfl⟩, _, ⟨ho, rfl⟩, _, ⟨hf, rfl⟩, rfl⟩
    exact ⟨step, hstep, hr, ho, hf, rfl⟩
  · rintro ⟨step, hstep, hr, ho, hf, rfl⟩
    exact ⟨step, hstep, _, ⟨hr, rfl⟩, _, ⟨ho, rfl⟩, _, ⟨hf, rfl⟩, rfl⟩

/-- The remaining amount that a step leaves is never negative. -/
theorem stepRemaining_nonneg
    (h : clmmSwapStep s.current plan.bound s.liquidity s.remaining plan.fee c.down = .ok step) :
    0 ≤ stepRemaining s step := by
  obtain ⟨-, -, -, -, -, hle, -⟩ := clmmSwapStep_spec h
  unfold stepRemaining
  omega

/-- What later proofs use of a step. -/
structure StepSpec (c : WhirlpoolSwap) (s : WhirlpoolState) (plan : WhirlpoolPlan)
    (moved : WhirlpoolState) : Prop where
  tick_eq : moved.tick = s.tick
  group_eq : moved.group = s.group
  minimumFee_eq : moved.minimumFee = if s.first then plan.fee else min s.minimumFee plan.fee
  maximumFee_eq : moved.maximumFee = if s.first then plan.fee else max s.maximumFee plan.fee
  advances : Beyond c.down s.current moved.current
  within_bound : Beyond c.down moved.current plan.bound
  remaining_nonneg : 0 ≤ moved.remaining
  fees_ge : s.fees ≤ moved.fees
  charged : moved.fees - s.fees ≤ s.remaining - moved.remaining
  progress : moved.current = plan.bound ∨ moved.remaining = 0

theorem StepSpec.of_ok (h : whirlpoolTakeStep c s plan = .ok moved) : StepSpec c s plan moved := by
  obtain ⟨step, hstep, hr, -, -, rfl⟩ := whirlpoolTakeStep_eq_ok.1 h
  obtain ⟨hadv, hwithin, hin, hfee, -, -, hdone⟩ := clmmSwapStep_spec hstep
  refine ⟨rfl, rfl, rfl, rfl, hadv, hwithin, hr.1, ?_, ?_, hdone.imp_right fun hd => ?_⟩ <;>
    simp only [afterStep, stepRemaining] <;> omega

/-- The ways in which a step ends: at the next tick, elsewhere after a move, or
where it began. -/
structure LandSpec (c : WhirlpoolSwap) (s : WhirlpoolState) (plan : WhirlpoolPlan)
    (moved landed : WhirlpoolState) : Prop where
  current_eq : landed.current = moved.current
  remaining_eq : landed.remaining = moved.remaining
  fees_eq : landed.fees = moved.fees
  minimumFee_eq : landed.minimumFee = moved.minimumFee
  maximumFee_eq : landed.maximumFee = moved.maximumFee
  first_eq : landed.first = moved.first
  group_eq : landed.group = moved.group
  tick_cases :
    moved.current = plan.nextPrice ∧
        landed.tick = (if c.down then plan.nextIndex - 1 else plan.nextIndex) ∨
      moved.current ≠ plan.nextPrice ∧ moved.current ≠ s.current ∧
        whirlpoolTickAtSqrtPrice moved.current = .ok landed.tick ∨
      moved.current ≠ plan.nextPrice ∧ moved.current = s.current ∧ landed.tick = moved.tick

theorem LandSpec.of_ok (h : whirlpoolLand c plan s.current moved = .ok landed) :
    LandSpec c s plan moved landed := by
  unfold whirlpoolLand at h
  split at h
  · rename_i hcur
    simp only [bind_eq_ok, pure_eq_ok] at h
    obtain ⟨_, -, rfl⟩ := h
    exact ⟨rfl, rfl, rfl, rfl, rfl, rfl, rfl, .inl ⟨hcur, rfl⟩⟩
  · rename_i hcur
    split at h
    · rename_i hne
      simp only [bind_eq_ok, pure_eq_ok] at h
      obtain ⟨tick, htick, rfl⟩ := h
      exact ⟨rfl, rfl, rfl, rfl, rfl, rfl, rfl, .inr (.inl ⟨hcur, hne, htick⟩)⟩
    · rename_i heq
      cases h
      exact ⟨rfl, rfl, rfl, rfl, rfl, rfl, rfl, .inr (.inr ⟨hcur, not_not.1 heq, rfl⟩)⟩

/-- The last group of a skipped range that ended at the tick `ti`. -/
def lastGroup (c : WhirlpoolSwap) (a : Adaptive) (s : WhirlpoolState) (ti : ℤ) : ℤ :=
  ti / a.groupSize -
    (if ¬ c.down ∧ (ti % a.groupSize = 0 ∧ s.current = tickPrice ti) then 1 else 0)

/-- The group after a skipped range that ended at the tick `ti`. -/
def groupAfter (c : WhirlpoolSwap) (a : Adaptive) (s : WhirlpoolState) (ti : ℤ) : ℤ :=
  nearer (!c.down) (lastGroup c a s ti) s.group + (if c.down then -1 else 1)

/-- What tracking the group does: nothing without an adaptive fee; one group on
after a step within a group; after a skipped range, one group on from where the
range ended. -/
inductive GroupSpec (c : WhirlpoolSwap) (plan : WhirlpoolPlan) (landed s' : WhirlpoolState) : Prop
  | static : c.adaptive = none → s' = landed → GroupSpec c plan landed s'
  | stopped {a : Adaptive} : c.adaptive = some a → plan.skipped = false →
      s' = { landed with group := landed.group + (if c.down then -1 else 1) } →
      GroupSpec c plan landed s'
  | skipped {a : Adaptive} {ti : ℤ} : c.adaptive = some a → plan.skipped = true →
      (landed.current = plan.nextPrice ∧ ti = plan.nextIndex ∨
        landed.current ≠ plan.nextPrice ∧ whirlpoolTickAtSqrtPrice landed.current = .ok ti) →
      s' = { landed with group := groupAfter c a landed ti } → GroupSpec c plan landed s'

theorem further_group (down : Bool) (last group : ℤ) :
    (if (if down then last < group else last > group) then last else group) =
      nearer (!down) last group := by
  cases down <;> simp <;> omega

theorem GroupSpec.of_ok (h : advanceGroup c plan landed = .ok s') :
    GroupSpec c plan landed s' := by
  unfold advanceGroup at h
  split at h
  · rename_i ha
    cases h
    exact .static ha rfl
  · rename_i a ha
    obtain ⟨last, hlast, h⟩ := bind_eq_ok.1 h
    rw [pure_eq_ok] at h
    split at hlast
    · rename_i hskip
      obtain ⟨ti, hti, hlast⟩ := bind_eq_ok.1 hlast
      rw [pure_eq_ok, further_group] at hlast
      have hreached : landed.current = plan.nextPrice ∧ ti = plan.nextIndex ∨
          landed.current ≠ plan.nextPrice ∧ whirlpoolTickAtSqrtPrice landed.current = .ok ti := by
        split at hti
        · rename_i hcur
          cases hti
          exact .inl ⟨hcur, rfl⟩
        · rename_i hcur
          exact .inr ⟨hcur, hti⟩
      refine .skipped ha hskip hreached ?_
      rw [← h, ← hlast]
      rfl
    · rename_i hskip
      cases hlast
      exact .stopped ha (Bool.not_eq_true _ ▸ hskip) h.symm

theorem GroupSpec.frame (h : GroupSpec c plan landed s') :
    s' = { landed with group := s'.group } := by
  cases h with
  | static _ h => rw [h]
  | stopped _ _ h => rw [h]
  | skipped _ _ _ h => rw [h]

end Step

/-! ### The iteration -/

/-- One iteration that goes on, with the states in between. -/
structure WhirlpoolTransition (c : WhirlpoolSwap) (s : WhirlpoolState) (plan : WhirlpoolPlan)
    (moved landed s' : WhirlpoolState) : Prop where
  plan_ok : whirlpoolPlan c s = .ok plan
  moved_ok : whirlpoolTakeStep c s plan = .ok moved
  landed_ok : whirlpoolLand c plan s.current moved = .ok landed
  group_ok : advanceGroup c plan landed = .ok s'

section Iteration

variable {c : WhirlpoolSwap} {s s' : WhirlpoolState} {r : WhirlpoolSwapResult}

theorem whirlpoolIteration_next :
    whirlpoolIteration c s = .ok (.next s') ↔
      s.remaining ≠ 0 ∧ s.current ≠ c.limit ∧ ¬ OutsideWindow c s ∧
        ∃ plan moved landed, WhirlpoolTransition c s plan moved landed s' := by
  unfold whirlpoolIteration
  by_cases hend : s.remaining = 0 ∨ s.current = c.limit
  · rw [if_pos hend]
    constructor
    · intro h
      cases h
    · rintro ⟨h₁, h₂, -⟩
      exact absurd hend (not_or.2 ⟨h₁, h₂⟩)
  · rw [if_neg hend]
    obtain ⟨hr, hl⟩ := not_or.1 hend
    simp only [bind_eq_ok, require_eq_ok, pure_eq_ok, Flow.next.injEq]
    constructor
    · rintro ⟨_, hwin, plan, hplan, moved, hmoved, landed, hland, _, hgroup, rfl⟩
      exact ⟨hr, hl, hwin, plan, moved, landed, hplan, hmoved, hland, hgroup⟩
    · rintro ⟨-, -, hwin, plan, moved, landed, hplan, hmoved, hland, hgroup⟩
      exact ⟨(), hwin, plan, hplan, moved, hmoved, landed, hland, _, hgroup, rfl⟩

theorem whirlpoolIteration_ret :
    whirlpoolIteration c s = .ok (.ret r) ↔
      (s.remaining = 0 ∨ s.current = c.limit) ∧ r = whirlpoolResult c s := by
  unfold whirlpoolIteration
  by_cases hend : s.remaining = 0 ∨ s.current = c.limit
  · rw [if_pos hend]
    simp only [Except.ok.injEq, Flow.ret.injEq, hend, true_and]
    exact eq_comm
  · rw [if_neg hend]
    simp only [hend, false_and, bind_eq_ok, pure_eq_ok, reduceCtorEq, and_false, exists_false]

/-- The loop has no break. -/
theorem whirlpoolIteration_brk : whirlpoolIteration c s ≠ .ok (.brk s') := by
  unfold whirlpoolIteration
  split
  · simp
  · simp only [ne_eq, bind_eq_ok, pure_eq_ok, reduceCtorEq, and_false, exists_false,
      not_false_eq_true]

end Iteration

end SolTrade.Whirlpool
