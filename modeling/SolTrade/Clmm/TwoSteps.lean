import SolTrade.Clmm.ExactAmounts
import SolTrade.Clmm.Soundness

/-!
One iteration of two CLMM swaps that differ in the amount alone.

What the second swap has more of is a surplus on top of the same state. A part of
the iteration either does the same in both swaps and leaves the surplus as it
was, or the first swap comes to its end there: its step falls short of the bound,
or its input is used up by an order. Then the second swap has been paid at least
as much and has charged at least as much, with one exception on the charge, an
order that takes more than its price.
-/

namespace SolTrade.Clmm

open Library ConstantLiquidity

/-! ### The step -/

section Step

variable {current target liquidity remaining feeRate d : ℤ} {down : Bool}
  {st st' : ClmmSwapStep}

theorem netInput_mono {a b : ℤ} (hab : a ≤ b) (hf : feeRate ≤ 999999) :
    netInput a feeRate ≤ netInput b feeRate :=
  Int.ediv_le_ediv (by norm_num) (mul_le_mul_of_nonneg_right hab (by omega))

/-- More input takes the price at least as far. -/
theorem priceAfterInput_mono {a b : ℤ} (down : Bool) (hc : 0 < current) (hL : 0 < liquidity)
    (ha : 0 ≤ a) (hab : a ≤ b) :
    Beyond down (priceAfterInput current liquidity a down)
      (priceAfterInput current liquidity b down) := by
  have hpos := priceAfterInput_pos down hc hL ha
  have hdir := current_beyond_priceAfterInput down hc hL ha
  rw [← amountIn_le_iff hc hpos hL (ha.trans hab) hdir]
  exact (amountIn_priceAfterInput_le down hc hL ha).trans hab

theorem amountOutTo_mono {a b : ℤ} (hL : 0 ≤ liquidity) (hc : 0 < current) (ha : 0 < a)
    (hb : 0 < b) (hca : Beyond down current a) (hab : Beyond down a b) :
    amountOutTo current a liquidity down ≤ amountOutTo current b liquidity down := by
  rw [amountOutTo_eq_floor hc ha, amountOutTo_eq_floor hc hb]
  exact Int.floor_mono (exactOut_mono hL ha hb hca hab)

/-- Rounding up makes two moves cost at least what the whole costs. -/
theorem amountInTo_add_le {a b : ℤ} (liquidity : ℤ) (hc : 0 < current) (ha : 0 < a) (hb : 0 < b)
    (hca : Beyond down current a) (hab : Beyond down a b) :
    amountInTo current b liquidity down ≤
      amountInTo current a liquidity down + amountInTo a b liquidity down := by
  have hexact : exactIn current a liquidity down + exactIn a b liquidity down =
      exactIn current b liquidity down :=
    moved_add (realPrice_beyond_iff.2 hca) (realPrice_beyond_iff.2 hab)
  rw [amountInTo_eq_ceil hc ha, amountInTo_eq_ceil ha hb, amountInTo_eq_ceil hc hb, ← hexact]
  exact Int.ceil_add_le _ _

/-- How a step that falls short of its target compares with one that has more to
spend: the second pays and charges at least as much, and it goes no further only
where the net input of the first covers its cost. -/
structure FallsShort (down : Bool) (target remaining feeRate : ℤ) (st st' : ClmmSwapStep) :
    Prop where
  short : StrictlyBeyond down st.sqrtPrice target
  amountOut_le : st.amountOut ≤ st'.amountOut
  charge_ge : remaining ≤ st'.amountIn + st'.fee
  further : st'.sqrtPrice = st.sqrtPrice ∧ st'.amountIn = st.amountIn ∧
      st'.amountOut = st.amountOut ∨
    netInput remaining feeRate < st'.amountIn

/-- A step with more to spend does the same if the target was reached. -/
theorem clmmSwapStep_more (hd : 0 ≤ d)
    (h : clmmSwapStep current target liquidity remaining feeRate down = .ok st)
    (h' : clmmSwapStep current target liquidity (remaining + d) feeRate down = .ok st') :
    st.sqrtPrice = target ∧ st' = st ∨ FallsShort down target remaining feeRate st st' := by
  have hi := StepInput.of_ok h
  have hi' := StepInput.of_ok h'
  have hnet : netInput remaining feeRate ≤ netInput (remaining + d) feeRate :=
    netInput_mono (by omega) hi.feeRate_le
  obtain ⟨hin, hout⟩ := clmmSwapStep_amounts h
  obtain ⟨hin', hout'⟩ := clmmSwapStep_amounts h'
  rcases le_or_gt (amountInTo current target liquidity down) (netInput remaining feeRate)
    with hneeded | hneeded
  · have hprice := (clmmSwapStep_sqrtPrice_eq_target_iff h).2 hneeded
    rw [hi.reach hneeded] at h
    rw [hi'.reach (hneeded.trans hnet), h] at h'
    exact .inl ⟨hprice, (Except.ok.inj h').symm⟩
  · obtain ⟨hL, hbeyond⟩ := hi.target_strictlyBeyond hneeded
    have hprice : st.sqrtPrice =
        priceAfterInput current liquidity (netInput remaining feeRate) down := by
      rcases clmmSwapStep_cases h with ⟨hle, -⟩ | ⟨-, hprice, -⟩
      · omega
      · exact hprice
    have hpos := clmmSwapStep_sqrtPrice_pos h
    have hpos' := clmmSwapStep_sqrtPrice_pos h'
    have hfrom := (clmmSwapStep_spec h).1
    have hfrom' := (clmmSwapStep_spec h').1
    -- the furthest price that the net input pays for is where the first step stops
    have hpaid : st'.amountIn ≤ netInput remaining feeRate ↔
        Beyond down st'.sqrtPrice st.sqrtPrice := by
      rw [hin', hprice]
      exact amountIn_le_iff hi.current_pos hpos' hL hi.netInput_nonneg hfrom'
    have hadvance : Beyond down st.sqrtPrice st'.sqrtPrice := by
      rcases clmmSwapStep_cases h' with ⟨-, hreach, -⟩ | ⟨-, hstop, -⟩
      · rw [hreach, hprice]
        exact hbeyond.beyond
      · rw [hstop, hprice]
        exact priceAfterInput_mono down hi.current_pos hL hi.netInput_nonneg hnet
    refine .inr ⟨hprice ▸ hbeyond, ?_, ?_, ?_⟩
    · rw [hout, hout']
      exact amountOutTo_mono hi.liquidity_nonneg hi.current_pos hpos hpos' hfrom hadvance
    · rcases clmmSwapStep_cases h' with ⟨-, -, hamount, hfee⟩ | ⟨-, -, -, -, -, -, hfee⟩
      · have hf := hi.feeRate_le
        rw [hfee, hamount]
        exact (Rounding.lt_add_ceil_fee (by norm_num) (by omega) hneeded).le
      · omega
    · rcases le_or_gt st'.amountIn (netInput remaining feeRate) with hle | hlt
      · have hsame := (hpaid.1 hle).antisymm hadvance
        exact .inl ⟨hsame, by rw [hin, hin', hsame], by rw [hout, hout', hsame]⟩
      · exact .inr hlt

end Step

/-! ### More input -/

/-- The same swap with `d` more to spend. -/
def ClmmSwap.more (c : ClmmSwap) (d : ℤ) : ClmmSwap := { c with amount := c.amount + d }

/-- The same state with `d` more left to spend. -/
def ClmmState.more (s : ClmmState) (d : ℤ) : ClmmState := { s with remaining := s.remaining + d }

section More

variable {c : ClmmSwap} {s : ClmmState} {plan : ClmmPlan} {d : ℤ}

@[simp] theorem more_amount : (c.more d).amount = c.amount + d := rfl
@[simp] theorem more_down : (c.more d).down = c.down := rfl
@[simp] theorem more_limit : (c.more d).limit = c.limit := rfl
@[simp] theorem more_inputFee : (c.more d).inputFee = c.inputFee := rfl
@[simp] theorem more_remaining : (s.more d).remaining = s.remaining + d := rfl
@[simp] theorem more_current : (s.more d).current = s.current := rfl
@[simp] theorem more_tick : (s.more d).tick = s.tick := rfl
@[simp] theorem more_liquidity : (s.more d).liquidity = s.liquidity := rfl
@[simp] theorem more_output : (s.more d).output = s.output := rfl
@[simp] theorem more_orders : (s.more d).orders = s.orders := rfl

/-- A plan does not look at the input. -/
@[simp] theorem clmmPlan_more : clmmPlan (c.more d) (s.more d) = clmmPlan c s := rfl

@[simp] theorem advanceGroup_more :
    advanceGroup (c.more d) plan (s.more d) = (advanceGroup c plan s).more d := by
  by_cases he : c.enabled = true
  · rw [advanceGroup, advanceGroup, if_pos he, if_pos (show (c.more d).enabled = true from he)]
    rfl
  · rw [advanceGroup, advanceGroup, if_neg he, if_neg (show ¬ (c.more d).enabled = true from he)]

theorem stepRemaining_more (step : ClmmSwapStep) :
    stepRemaining (c.more d) (s.more d) step = stepRemaining c s step + d := by
  change s.remaining + d - step.amountIn - (if c.inputFee then step.fee else 0) = _
  rw [stepRemaining]
  ring

theorem clmmCrossTick_more {crossed crossed' : ClmmState} {t : ClmmTick} {i : ℕ}
    (h : clmmCrossTick c s t i = .ok crossed)
    (h' : clmmCrossTick (c.more d) (s.more d) t i = .ok crossed') : crossed' = crossed.more d := by
  obtain ⟨liquidity, hl, rfl⟩ := clmmCrossTick_eq_ok.1 h
  obtain ⟨liquidity', hl', rfl⟩ := clmmCrossTick_eq_ok.1 h'
  obtain rfl : liquidity = liquidity' := Except.ok.inj (hl.symm.trans hl')
  rfl

end More

/-! ### Taking the step -/

/-- What is credited for an output: all of it, or what its fee leaves. -/
def credited (c : ClmmSwap) (fee amount : ℤ) : ℤ :=
  amount - (if c.inputFee then 0 else ceil (amount * fee) 1000000)

/-- The state after a step. -/
def afterStep (c : ClmmSwap) (s : ClmmState) (plan : ClmmPlan) (step : ClmmSwapStep) :
    ClmmState :=
  { s with
    remaining := stepRemaining c s step
    output := s.output + stepNet c plan step
    current := step.sqrtPrice }

section TakeStep

variable {c : ClmmSwap} {s moved moved' : ClmmState} {plan : ClmmPlan}
  {step step' : ClmmSwapStep} {fee d : ℤ}

theorem credited_mono {a b : ℤ} (hf : fee ≤ 999999) (hab : a ≤ b) :
    credited c fee a ≤ credited c fee b := by
  unfold credited
  split
  · omega
  · exact Rounding.sub_ceil_part_mono (by norm_num) (by omega) hab

theorem credited_nonneg {a : ℤ} (hf : fee ≤ 999999) (ha : 0 ≤ a) : 0 ≤ credited c fee a := by
  have hzero : credited c fee 0 = 0 := by simp [credited, ceil]
  exact hzero ▸ credited_mono hf ha

theorem stepNet_eq : stepNet c plan step = credited c plan.fee step.amountOut := by
  unfold stepNet credited
  split
  · exact (sub_zero _).symm
  · rfl

/-- Steps to one price that pay and charge alike keep the surplus. -/
theorem afterStep_more (hprice : step'.sqrtPrice = step.sqrtPrice)
    (hout : step'.amountOut = step.amountOut)
    (hrem : stepRemaining c s step' = stepRemaining c s step) :
    afterStep (c.more d) (s.more d) plan step' = (afterStep c s plan step).more d := by
  simp only [afterStep, ClmmState.more, ClmmState.mk.injEq, true_and, and_true]
  refine ⟨hprice, ?_, ?_⟩
  · rw [← hrem]
    exact stepRemaining_more step'
  · rw [stepNet_eq, stepNet_eq, hout]
    rfl

/-- The first of two swaps comes to its end in a step: the step falls short of its
bound, and nothing is left of the input unless the fee is taken from the output. -/
structure StepEnds (c : ClmmSwap) (plan : ClmmPlan) (d : ℤ) (moved moved' : ClmmState) : Prop where
  short : StrictlyBeyond c.down moved.current plan.bound
  output_le : moved.output ≤ moved'.output
  surplus_le : moved'.remaining ≤ d
  left : moved.remaining = 0 ∨ c.inputFee = false

theorem clmmTakeStep_more (hd : 0 ≤ d) (hf : plan.fee ≤ 999999)
    (h : clmmTakeStep c s plan = .ok moved)
    (h' : clmmTakeStep (c.more d) (s.more d) plan = .ok moved') :
    moved' = moved.more d ∨ StepEnds c plan d moved moved' := by
  rcases clmmTakeStep_eq_ok.1 h with ⟨hb, rfl⟩ | ⟨hb, step, hstep, -, -, hmoved⟩
  · rcases clmmTakeStep_eq_ok.1 h' with ⟨-, rfl⟩ | ⟨hb', -⟩
    · exact .inl rfl
    · exact absurd hb hb'
  rcases clmmTakeStep_eq_ok.1 h' with ⟨hb', -⟩ | ⟨-, step', hstep', -, -, hmoved'⟩
  · exact absurd hb' hb
  obtain rfl : moved = afterStep c s plan step := hmoved
  obtain rfl : moved' = afterStep (c.more d) (s.more d) plan step' := hmoved'
  rcases clmmSwapStep_more hd hstep hstep' with ⟨-, rfl⟩ | hshort
  · exact .inl (afterStep_more rfl rfl rfl)
  · have hcharge := hshort.charge_ge
    have houtput : (afterStep c s plan step).output ≤
        (afterStep (c.more d) (s.more d) plan step').output := by
      simp only [afterStep, stepNet_eq, more_output]
      exact add_le_add_right (credited_mono hf hshort.amountOut_le) _
    have hrem : (afterStep (c.more d) (s.more d) plan step').remaining =
        s.remaining + d - step'.amountIn - (if c.inputFee then step'.fee else 0) := rfl
    cases hfee : c.inputFee with
    | true =>
        have hall := (clmmSwapStep_spec hstep).2.2.2.2.2.2.resolve_left hshort.short.ne
        refine .inr ⟨hshort.short, houtput, ?_, .inl ?_⟩
        · rw [hrem, hfee, if_pos rfl]
          omega
        · simp only [afterStep, stepRemaining, hfee, if_true]
          omega
    | false =>
        -- the step's own fee is not charged, so what rounding leaves over stays in the input
        have hfurther := hshort.further
        simp only [hfee, Bool.false_eq_true, if_false, netInput_zero] at hfurther
        rcases hfurther with ⟨hprice, hin, hout⟩ | hlt
        · refine .inl (afterStep_more hprice hout ?_)
          simp only [stepRemaining, hfee, Bool.false_eq_true, if_false, hin]
        · refine .inr ⟨hshort.short, houtput, ?_, .inr hfee⟩
          rw [hrem, hfee, if_neg (by decide)]
          omega

end TakeStep

/-! ### Filling limit orders -/

/-- What an order costs that is taken completely, with its fee. -/
def orderCharge (down inputFee : Bool) (fee orders price : ℤ) : ℤ :=
  let cost := if down then ceil (orders * q64) price else ceil (orders * price) q64
  cost + (if inputFee then ceil (cost * fee) (1000000 - fee) else 0)

/-- What an input matches of the orders at a price. -/
def matchedBy (down : Bool) (available price : ℤ) : ℤ :=
  if down then available * price / q64 else available * q64 / price

section Fill

variable {c : ClmmSwap} {s filled filled' : ClmmState} {fee remaining orders price d : ℤ}
  {down inputFee : Bool} {m m' : OrderMatch} {i : ℕ}

theorem matchedBy_mono {a b : ℤ} (down : Bool) (hprice : 0 < price) (hab : a ≤ b) :
    matchedBy down a price ≤ matchedBy down b price := by
  unfold matchedBy
  split
  · exact Int.ediv_le_ediv q64_pos (mul_le_mul_of_nonneg_right hab hprice.le)
  · exact Int.ediv_le_ediv hprice (mul_le_mul_of_nonneg_right hab q64_pos.le)

/-- The input that is left for the orders is the net input. -/
theorem available_eq (inputFee : Bool) (remaining fee : ℤ) :
    remaining - (if inputFee then ceil (remaining * fee) 1000000 else 0) =
      netInput remaining (if inputFee then fee else 0) := by
  cases inputFee with
  | true => exact Rounding.sub_ceil_part _ _ (by norm_num)
  | false => simp

/-- A match takes the orders completely, for what they cost, or it takes the whole
input, for what that matches. -/
theorem matchOrders_cases (h : matchOrders down inputFee remaining fee orders price = .ok m) :
    orders < matchedBy down (netInput remaining (if inputFee then fee else 0)) price ∧
        m.gross = orders ∧ m.consumed + m.feeAmount = orderCharge down inputFee fee orders price ∨
      matchedBy down (netInput remaining (if inputFee then fee else 0)) price ≤ orders ∧
        m.gross = matchedBy down (netInput remaining (if inputFee then fee else 0)) price ∧
        m.consumed + m.feeAmount = remaining := by
  have hmatched : ∀ available : ℤ,
      (if down then available * price / q64 else available * q64 / price) =
        matchedBy down available price := fun _ => rfl
  have hfee := available_eq inputFee remaining fee
  simp only [matchOrders, hfee, hmatched] at h
  generalize netInput remaining (if inputFee then fee else 0) = net at h hfee ⊢
  split at h
  · rename_i hgt
    rw [min_eq_right hgt.le] at h
    simp only [bind_eq_ok, unsigned_eq_ok, pure_eq_ok] at h
    obtain ⟨_, ⟨-, rfl⟩, rfl⟩ := h
    exact .inl ⟨hgt, rfl, rfl⟩
  · rename_i hle
    cases h
    refine .inr ⟨not_lt.1 hle, min_eq_left (not_lt.1 hle), ?_⟩
    dsimp only
    omega

theorem lt_cost {available : ℤ} (hprice : 0 < price) (h : matchedBy down available price < orders) :
    available < if down then ceil (orders * q64) price else ceil (orders * price) q64 := by
  cases down with
  | true => exact (Rounding.lt_ceil_iff hprice).2 ((Rounding.floor_lt_iff q64_pos).1 h)
  | false => exact (Rounding.lt_ceil_iff q64_pos).2 ((Rounding.floor_lt_iff hprice).1 h)

/-- An input that does not match the orders completely is less than they cost. -/
theorem lt_orderCharge (inputFee : Bool) (hprice : 0 < price) (hf : fee ≤ 999999)
    (h : matchedBy down (netInput remaining (if inputFee then fee else 0)) price < orders) :
    remaining < orderCharge down inputFee fee orders price := by
  have hcost := lt_cost hprice h
  cases inputFee with
  | true => exact Rounding.lt_add_ceil_fee (by norm_num) (by omega) hcost
  | false =>
      simp only [orderCharge, Bool.false_eq_true, if_false, add_zero, netInput_zero] at hcost ⊢
      exact hcost

/-- An order taken completely by an input that matches it exactly, and that is
charged whole although the order costs less. -/
def Overpaid (down inputFee : Bool) (fee orders price : ℤ) (m : OrderMatch) : Prop :=
  m.gross = orders ∧ orderCharge down inputFee fee orders price < m.consumed + m.feeAmount

instance (down inputFee : Bool) (fee orders price : ℤ) (m : OrderMatch) :
    Decidable (Overpaid down inputFee fee orders price m) :=
  inferInstanceAs (Decidable (_ ∧ _))

/-- With more to spend the orders are matched alike, if they were taken for what
they cost; otherwise the whole input was charged, for no more. -/
theorem matchOrders_more (hd : 0 ≤ d) (hprice : 0 < price) (hf : fee ≤ 999999)
    (h : matchOrders down inputFee remaining fee orders price = .ok m)
    (h' : matchOrders down inputFee (remaining + d) fee orders price = .ok m') :
    m'.gross = m.gross ∧ m'.consumed + m'.feeAmount = m.consumed + m.feeAmount ∨
      m.consumed + m.feeAmount = remaining ∧ m.gross ≤ m'.gross ∧
        (¬ Overpaid down inputFee fee orders price m →
          remaining ≤ m'.consumed + m'.feeAmount) := by
  have hnet : netInput remaining (if inputFee then fee else 0) ≤
      netInput (remaining + d) (if inputFee then fee else 0) :=
    netInput_mono (by omega) (by split <;> omega)
  have hmono := matchedBy_mono down hprice hnet
  rcases matchOrders_cases h with ⟨hgt, hgross, hcharge⟩ | ⟨hle, hgross, hcharge⟩
  · rcases matchOrders_cases h' with ⟨-, hgross', hcharge'⟩ | ⟨hle', -⟩
    · exact .inl ⟨hgross'.trans hgross.symm, hcharge'.trans hcharge.symm⟩
    · omega
  · rcases matchOrders_cases h' with ⟨-, hgross', hcharge'⟩ | ⟨-, hgross', hcharge'⟩
    · refine .inr ⟨hcharge, by omega, fun hover => ?_⟩
      rcases hle.lt_or_eq with hlt | heq
      · have := lt_orderCharge inputFee hprice hf hlt
        omega
      · rw [Overpaid, hgross, heq] at hover
        simp only [true_and, not_lt] at hover
        omega
    · exact .inr ⟨hcharge, by omega, fun _ => by omega⟩

/-- The orders at the tick that is met are overpaid. -/
def OverpaysAt (c : ClmmSwap) (s : ClmmState) (fee : ℤ) (i : ℕ) : Prop :=
  s.orders.getD i 0 ≠ 0 ∧ s.remaining ≠ 0 ∧ ∃ m,
    matchOrders c.down c.inputFee s.remaining fee (s.orders.getD i 0)
      (orderPrice s.current c.down) = .ok m ∧
    Overpaid c.down c.inputFee fee (s.orders.getD i 0) (orderPrice s.current c.down) m

/-- The state after a match of the orders at the tick with the index `i`. -/
def afterFill (c : ClmmSwap) (s : ClmmState) (fee : ℤ) (i : ℕ) (m : OrderMatch) : ClmmState :=
  { s with
    remaining := fillRemaining s m
    output := s.output + credited c fee m.gross
    orders := s.orders.set i (s.orders.getD i 0 - m.gross) }

/-- Orders are left alone, or they are matched at a positive price. -/
theorem clmmFillOrders_cases (h : clmmFillOrders c s fee i = .ok filled) :
    ¬ (s.orders.getD i 0 ≠ 0 ∧ s.remaining ≠ 0) ∧ filled = s ∨
      (s.orders.getD i 0 ≠ 0 ∧ s.remaining ≠ 0) ∧ 0 < orderPrice s.current c.down ∧ ∃ m,
        matchOrders c.down c.inputFee s.remaining fee (s.orders.getD i 0)
          (orderPrice s.current c.down) = .ok m ∧ filled = afterFill c s fee i m := by
  refine (clmmFillOrders_eq_ok.1 h).imp_right ?_
  rintro ⟨hlive, hprice, m, hm, -, -, -, rfl⟩
  refine ⟨hlive, lt_of_le_of_ne (orderPrice_nonneg _ _) hprice.symm, m, hm, ?_⟩
  rw [afterFill, credited, add_sub_assoc]

/-- Matches that take and charge alike keep the surplus. -/
theorem afterFill_more (hgross : m'.gross = m.gross)
    (hcharge : m'.consumed + m'.feeAmount = m.consumed + m.feeAmount) :
    afterFill (c.more d) (s.more d) fee i m' = (afterFill c s fee i m).more d := by
  simp only [afterFill, ClmmState.more, ClmmState.mk.injEq, true_and, and_true, hgross]
  refine ⟨?_, rfl⟩
  simp only [fillRemaining, hcharge]
  omega

/-- The first of two swaps comes to its end at an order, which takes the whole
input. -/
structure FillEnds (c : ClmmSwap) (s : ClmmState) (fee : ℤ) (i : ℕ) (d : ℤ)
    (filled filled' : ClmmState) : Prop where
  left : filled.remaining = 0
  output_le : filled.output ≤ filled'.output
  surplus_le : ¬ OverpaysAt c s fee i → filled'.remaining ≤ d

theorem clmmFillOrders_more (hd : 0 ≤ d) (hr : 0 ≤ s.remaining) (hf : 0 ≤ fee)
    (hf' : fee ≤ 999999) (ho : 0 ≤ s.orders.getD i 0)
    (h : clmmFillOrders c s fee i = .ok filled)
    (h' : clmmFillOrders (c.more d) (s.more d) fee i = .ok filled') :
    filled' = filled.more d ∨ FillEnds c s fee i d filled filled' := by
  rcases clmmFillOrders_cases h' with ⟨hskip', rfl⟩ | ⟨⟨ho', -⟩, hprice, m', hm', rfl⟩
  · rcases clmmFillOrders_cases h with ⟨-, rfl⟩ | ⟨⟨hlive, hleft⟩, -⟩
    · exact .inl rfl
    · exact absurd ⟨hlive, show s.remaining + d ≠ 0 by omega⟩ hskip'
  · obtain ⟨hgross', -, hcharge', -, -⟩ :=
      matchOrders_spec hm' (show 0 ≤ s.remaining + d by omega) hf hf' ho hprice
    have hrem : (afterFill (c.more d) (s.more d) fee i m').remaining =
        s.remaining + d - (m'.consumed + m'.feeAmount) := rfl
    rcases clmmFillOrders_cases h with ⟨hskip, rfl⟩ | ⟨⟨hlive, hleft⟩, -, m, hm, rfl⟩
    · -- the input of the first swap was used up on the way to the order
      have hused : filled.remaining = 0 := by
        by_contra hne
        exact hskip ⟨ho', hne⟩
      refine .inr ⟨hused, le_add_of_nonneg_right (credited_nonneg hf' hgross'), fun _ => ?_⟩
      omega
    · rcases matchOrders_more hd hprice hf' hm hm' with ⟨hgross, hcharge⟩ | ⟨hall, hgross, hcharge⟩
      · exact .inl (afterFill_more hgross hcharge)
      · refine .inr ⟨?_, add_le_add_right (credited_mono hf' hgross) _, fun hover => ?_⟩
        · simp only [afterFill, fillRemaining]
          omega
        · have := hcharge fun h => hover ⟨hlive, hleft, m, hm, h⟩
          omega

end Fill

end SolTrade.Clmm
