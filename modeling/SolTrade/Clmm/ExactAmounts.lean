import Mathlib.Algebra.Order.Archimedean.Real.Basic
import Mathlib.Tactic.FieldSimp
import SolTrade.Clmm.SwapStep
import SolTrade.Library.ConstantLiquidity

/-!
The amounts of a step against the exact curve.

An integer price stands for the real square-root price it is `2 ^ 64` times of.
What a step charges is the exact cost of its price move rounded up and what it
pays is the exact yield rounded down, in both directions, so a step's bounds and
the round trip through two of them are facts about the exact curve.
-/

namespace SolTrade.Clmm

open Library ConstantLiquidity

/-- The real square-root price that an integer price stands for. -/
noncomputable def realPrice (price : ℤ) : ℝ := price / q64

/-- What a price move costs on the exact curve. -/
noncomputable def exactIn (current price liquidity : ℤ) (down : Bool) : ℝ :=
  moved (liquidity : ℝ) (realPrice current) (realPrice price) down

/-- What a price move yields on the exact curve. -/
noncomputable def exactOut (current price liquidity : ℤ) (down : Bool) : ℝ :=
  moved (liquidity : ℝ) (realPrice current) (realPrice price) (!down)

section Exact

variable {current price liquidity a b : ℤ} {token0 down : Bool}

theorem realPrice_pos (h : 0 < price) : 0 < realPrice price :=
  div_pos (Int.cast_pos.2 h) (Int.cast_pos.2 q64_pos)

theorem realPrice_le_iff : realPrice a ≤ realPrice b ↔ a ≤ b := by
  rw [realPrice, realPrice, div_le_div_iff_of_pos_right (Int.cast_pos.2 q64_pos), Int.cast_le]

theorem realPrice_beyond_iff : Beyond down (realPrice a) (realPrice b) ↔ Beyond down a b := by
  cases down <;> exact realPrice_le_iff

theorem realPrice_min (a b : ℤ) : realPrice (min a b) = min (realPrice a) (realPrice b) :=
  Monotone.map_min fun _ _ => realPrice_le_iff.2

theorem realPrice_max (a b : ℤ) : realPrice (max a b) = max (realPrice a) (realPrice b) :=
  Monotone.map_max fun _ _ => realPrice_le_iff.2

/-- The quotient that `deltaAmount` rounds is the exact amount. -/
theorem between_realPrice (ha : 0 < a) (hb : 0 < b) :
    between (liquidity : ℝ) (realPrice a) (realPrice b) token0 =
      ((liquidity * (b - a) * (if token0 then q64 else 1) : ℤ) : ℝ) /
        ((if token0 then b * a else q64 : ℤ) : ℝ) := by
  have ha' : (a : ℝ) ≠ 0 := by exact_mod_cast ha.ne'
  have hb' : (b : ℝ) ≠ 0 := by exact_mod_cast hb.ne'
  have hq : (q64 : ℝ) ≠ 0 := by exact_mod_cast q64_pos.ne'
  cases token0 with
  | true =>
      simp only [between, realPrice, if_true]
      push_cast
      field_simp
  | false =>
      simp only [between, realPrice, Bool.false_eq_true, if_false]
      push_cast
      field_simp

theorem denominator_pos (ha : 0 < a) (hb : 0 < b) : 0 < if token0 then b * a else q64 := by
  cases token0 with
  | true => exact mul_pos hb ha
  | false => exact q64_pos

theorem deltaAmount_down (ha : 0 < a) (hb : 0 < b) :
    deltaAmount a b liquidity token0 false =
      ⌊between (liquidity : ℝ) (realPrice a) (realPrice b) token0⌋ := by
  rw [between_realPrice ha hb, ← Rounding.floor_eq _ (denominator_pos ha hb)]
  rfl

theorem deltaAmount_up (ha : 0 < a) (hb : 0 < b) :
    deltaAmount a b liquidity token0 true =
      ⌈between (liquidity : ℝ) (realPrice a) (realPrice b) token0⌉ := by
  rw [between_realPrice ha hb, ← Rounding.ceil_eq _ (denominator_pos ha hb)]
  rfl

/-- A step charges the exact cost rounded up. -/
theorem amountInTo_eq_ceil (hc : 0 < current) (hp : 0 < price) :
    amountInTo current price liquidity down = ⌈exactIn current price liquidity down⌉ := by
  rw [amountInTo, deltaAmount_up (lt_min hc hp) (lt_max_of_lt_left hc), realPrice_min,
    realPrice_max]
  rfl

/-- A step pays the exact yield rounded down. -/
theorem amountOutTo_eq_floor (hc : 0 < current) (hp : 0 < price) :
    amountOutTo current price liquidity down = ⌊exactOut current price liquidity down⌋ := by
  rw [amountOutTo, deltaAmount_down (lt_min hc hp) (lt_max_of_lt_left hc), realPrice_min,
    realPrice_max]
  rfl

/-- A move back yields what the move cost. -/
theorem exactOut_back (current price liquidity : ℤ) (down : Bool) :
    exactOut price current liquidity (!down) = exactIn current price liquidity down := by
  rw [exactOut, exactIn, Bool.not_not, moved_comm]

/-- A move back costs what the move yielded. -/
theorem exactIn_back (current price liquidity : ℤ) (down : Bool) :
    exactIn price current liquidity (!down) = exactOut current price liquidity down := by
  rw [exactOut, exactIn, moved_comm]

theorem exactOut_mono (hL : 0 ≤ liquidity) (ha : 0 < a) (hb : 0 < b)
    (hca : Beyond down current a) (hab : Beyond down a b) :
    exactOut current a liquidity down ≤ exactOut current b liquidity down :=
  moved_mono (Int.cast_nonneg hL) (realPrice_pos ha) (realPrice_pos hb)
    (realPrice_beyond_iff.2 hca) (realPrice_beyond_iff.2 hab)

theorem beyond_of_exactIn_le (hL : 0 < liquidity) (ha : 0 < a) (hb : 0 < b)
    (hcb : Beyond down current b)
    (h : exactIn current a liquidity down ≤ exactIn current b liquidity down) :
    Beyond down a b :=
  realPrice_beyond_iff.1 (beyond_of_moved_le (Int.cast_pos.2 hL) (realPrice_pos ha)
    (realPrice_pos hb) (realPrice_beyond_iff.2 hcb) h)

theorem amountOutTo_nonneg (hL : 0 ≤ liquidity) (hc : 0 < current) (hp : 0 < price) :
    0 ≤ amountOutTo current price liquidity down := by
  rw [amountOutTo_eq_floor hc hp]
  exact Int.floor_nonneg.2
    (moved_nonneg (Int.cast_nonneg hL) (realPrice_pos hc) (realPrice_pos hp))

/-- Going back for no more than the move yielded returns no more than it cost. -/
theorem amountOutTo_back_le {back : ℤ} (hL : 0 ≤ liquidity) (hc : 0 < current) (hp : 0 < price)
    (hb : 0 < back) (hdir : Beyond down current price) (hback : Beyond (!down) price back)
    (hpaid : amountInTo price back liquidity (!down) ≤
      amountOutTo current price liquidity down) :
    amountOutTo price back liquidity (!down) ≤ amountInTo current price liquidity down := by
  have hexact : exactOut price back liquidity (!down) ≤ exactIn current price liquidity down := by
    rcases hL.eq_or_lt with rfl | hL'
    · simp [exactOut, exactIn, moved, between]
    · rw [amountInTo_eq_ceil hp hb, amountOutTo_eq_floor hc hp, ← exactIn_back] at hpaid
      -- the way back ends before the original price, so it yields a part of what was paid
      have hwithin : Beyond (!down) back current := by
        apply beyond_of_exactIn_le hL' hb hc (beyond_not.2 hdir)
        calc
          exactIn price back liquidity (!down) ≤ ⌈exactIn price back liquidity (!down)⌉ :=
            Int.le_ceil _
          _ ≤ (⌊exactIn price current liquidity (!down)⌋ : ℤ) := Int.cast_le.2 hpaid
          _ ≤ exactIn price current liquidity (!down) := Int.floor_le _
      rw [← exactOut_back]
      exact exactOut_mono hL hb hc hback hwithin
  rw [amountOutTo_eq_floor hp hb, amountInTo_eq_ceil hc hp]
  exact (Int.floor_mono hexact).trans (Int.floor_le_ceil _)

end Exact

section Step

variable {current target liquidity remaining feeRate : ℤ} {down : Bool} {st : ClmmSwapStep}

/-- A successful step charges and pays for the price move it makes. -/
theorem clmmSwapStep_amounts
    (h : clmmSwapStep current target liquidity remaining feeRate down = .ok st) :
    st.amountIn = amountInTo current st.sqrtPrice liquidity down ∧
      st.amountOut = amountOutTo current st.sqrtPrice liquidity down := by
  have hi := StepInput.of_ok h
  rcases le_or_gt (amountInTo current target liquidity down) (netInput remaining feeRate)
    with hneeded | hneeded
  · rw [hi.reach hneeded, emitStep_eq_ok] at h
    obtain ⟨-, rfl⟩ := h
    exact ⟨rfl, rfl⟩
  · rw [hi.stop hneeded, emitStep_eq_ok] at h
    obtain ⟨-, rfl⟩ := h
    exact ⟨rfl, rfl⟩

/-- The fields of a successful step are in range. -/
theorem clmmSwapStep_range
    (h : clmmSwapStep current target liquidity remaining feeRate down = .ok st) :
    (0 ≤ st.sqrtPrice ∧ st.sqrtPrice ≤ u128) ∧ (0 ≤ st.amountIn ∧ st.amountIn ≤ u64) ∧
      (0 ≤ st.amountOut ∧ st.amountOut ≤ u64) ∧ (0 ≤ st.fee ∧ st.fee ≤ u64) := by
  have hi := StepInput.of_ok h
  rcases le_or_gt (amountInTo current target liquidity down) (netInput remaining feeRate)
    with hneeded | hneeded
  · rw [hi.reach hneeded, emitStep_eq_ok] at h
    obtain ⟨hrange, rfl⟩ := h
    exact hrange
  · rw [hi.stop hneeded, emitStep_eq_ok] at h
    obtain ⟨hrange, rfl⟩ := h
    exact hrange

theorem clmmSwapStep_sqrtPrice_pos
    (h : clmmSwapStep current target liquidity remaining feeRate down = .ok st) :
    0 < st.sqrtPrice := by
  have hi := StepInput.of_ok h
  obtain ⟨hfrom, hto, -⟩ := clmmSwapStep_spec h
  cases down with
  | true => exact lt_of_lt_of_le hi.target_pos hto
  | false => exact lt_of_lt_of_le hi.current_pos hfrom

theorem clmmSwapStep_sqrtPrice_eq_target_iff
    (h : clmmSwapStep current target liquidity remaining feeRate down = .ok st) :
    st.sqrtPrice = target ↔
      amountInTo current target liquidity down ≤ netInput remaining feeRate := by
  rcases clmmSwapStep_cases h with ⟨hneeded, hprice, -⟩ | ⟨hneeded, -, hbeyond, -⟩
  · exact iff_of_true hprice hneeded
  · exact iff_of_false hbeyond.ne (not_le.2 hneeded)

/-- The bounds of a step: it never charges more than it is given, it stays
between the current price and the target and reaches the target exactly when the
net input pays for the whole way, a step that stops short charges everything, and
no step pays more than the exact yield of the move it makes. -/
theorem clmmSwapStep_bounds
    (h : clmmSwapStep current target liquidity remaining feeRate down = .ok st) :
    st.amountIn + st.fee ≤ remaining ∧
      (Beyond down current st.sqrtPrice ∧ Beyond down st.sqrtPrice target) ∧
      (st.sqrtPrice = target ↔
        amountInTo current target liquidity down ≤ netInput remaining feeRate) ∧
      (st.sqrtPrice ≠ target →
        st.amountIn ≤ netInput remaining feeRate ∧ st.amountIn + st.fee = remaining) ∧
      (st.amountOut : ℝ) ≤ exactOut current st.sqrtPrice liquidity down := by
  have hi := StepInput.of_ok h
  obtain ⟨hfrom, hto, -, -, -, hle, hend⟩ := clmmSwapStep_spec h
  have hshort : st.sqrtPrice ≠ target →
      st.amountIn ≤ netInput remaining feeRate ∧ st.amountIn + st.fee = remaining := by
    intro hne
    rcases clmmSwapStep_cases h with ⟨-, hprice, -⟩ | ⟨-, -, -, -, -, hnet, -⟩
    · exact absurd hprice hne
    · exact ⟨hnet, hend.resolve_left hne⟩
  have hyield : (st.amountOut : ℝ) ≤ exactOut current st.sqrtPrice liquidity down := by
    rw [(clmmSwapStep_amounts h).2,
      amountOutTo_eq_floor hi.current_pos (clmmSwapStep_sqrtPrice_pos h)]
    exact Int.floor_le _
  exact ⟨hle, ⟨hfrom, hto⟩, clmmSwapStep_sqrtPrice_eq_target_iff h, hshort, hyield⟩

/-- A step that stops short of its target. -/
theorem clmmSwapStep_bounds_stopped :
    clmmSwapStep (2 * q64) q64 1000000 1000 2500 true = .ok ⟨36820068929972737594, 997, 3980, 3⟩ ∧
      (3980 : ℝ) ≤ exactOut (2 * q64) 36820068929972737594 1000000 true := by
  have h : clmmSwapStep (2 * q64) q64 1000000 1000 2500 true =
      .ok ⟨36820068929972737594, 997, 3980, 3⟩ := by decide
  obtain ⟨-, -, -, -, hyield⟩ := clmmSwapStep_bounds h
  exact ⟨h, by exact_mod_cast hyield⟩

variable {target' feeRate' : ℤ} {st' : ClmmSwapStep}

/-- The way back to the original price has valid arguments. -/
theorem StepInput.back
    (h : clmmSwapStep current target liquidity remaining feeRate down = .ok st) :
    StepInput st.sqrtPrice current liquidity st.amountOut 0 (!down) := by
  have hi := StepInput.of_ok h
  obtain ⟨hprice, -, hout, -⟩ := clmmSwapStep_range h
  exact
    { current_pos := clmmSwapStep_sqrtPrice_pos h
      current_le := hprice.2
      target_pos := hi.current_pos
      target_le := hi.current_le
      liquidity_nonneg := hi.liquidity_nonneg
      liquidity_le := hi.liquidity_le
      remaining_nonneg := hout.1
      remaining_le := hout.2
      feeRate_nonneg := le_rfl
      feeRate_le := by norm_num
      towards := beyond_not.2 (clmmSwapStep_spec h).1 }

/-- Whatever the fees, giving back what a step paid returns no more than the step
charged. -/
theorem clmmSwapStep_back_le
    (h : clmmSwapStep current target liquidity remaining feeRate down = .ok st)
    (h' : clmmSwapStep st.sqrtPrice target' liquidity st.amountOut feeRate' (!down) = .ok st') :
    st'.amountOut ≤ st.amountIn := by
  have hi := StepInput.of_ok h
  obtain ⟨hin, hout⟩ := clmmSwapStep_amounts h
  obtain ⟨hin', hout'⟩ := clmmSwapStep_amounts h'
  obtain ⟨hback, -, -, hfee, -, hcharged, -⟩ := clmmSwapStep_spec h'
  rw [hin, hout']
  apply amountOutTo_back_le hi.liquidity_nonneg hi.current_pos (clmmSwapStep_sqrtPrice_pos h)
    (clmmSwapStep_sqrtPrice_pos h') (clmmSwapStep_spec h).1 hback
  rw [← hin', ← hout]
  omega

/-- The way back to the original price returns. -/
theorem clmmSwapStep_back_returns
    (h : clmmSwapStep current target liquidity remaining feeRate down = .ok st) :
    ∃ st', clmmSwapStep st.sqrtPrice current liquidity st.amountOut 0 (!down) = .ok st' := by
  have hi := StepInput.of_ok h
  have hb := StepInput.back h
  have hnet : netInput st.amountOut 0 = st.amountOut := netInput_zero _
  obtain ⟨-, hout⟩ := clmmSwapStep_amounts h
  obtain ⟨-, ⟨-, hin_le⟩, ⟨-, hout_le⟩, -⟩ := clmmSwapStep_range h
  have hin := (clmmSwapStep_amounts h).1
  -- wherever the way back ends, its price is paid for, so what it charges and yields fits
  have hfits : ∀ {price : ℤ}, 0 < price → Beyond (!down) st.sqrtPrice price →
      amountInTo st.sqrtPrice price liquidity (!down) ≤ st.amountOut →
      (0 ≤ amountInTo st.sqrtPrice price liquidity (!down) ∧
          amountInTo st.sqrtPrice price liquidity (!down) ≤ u64) ∧
        0 ≤ amountOutTo st.sqrtPrice price liquidity (!down) ∧
          amountOutTo st.sqrtPrice price liquidity (!down) ≤ u64 := by
    intro price hpos hdir hpaid
    have hnonneg := amountInTo_nonneg hb.current_pos hpos hi.liquidity_nonneg hdir
    have hback := amountOutTo_back_le hi.liquidity_nonneg hi.current_pos hb.current_pos hpos
      (clmmSwapStep_spec h).1 hdir (hout ▸ hpaid)
    exact ⟨⟨hnonneg, by omega⟩,
      amountOutTo_nonneg hi.liquidity_nonneg hb.current_pos hpos, by omega⟩
  rcases le_or_gt (amountInTo st.sqrtPrice current liquidity (!down)) (netInput st.amountOut 0)
    with hneeded | hneeded
  · obtain ⟨hcost, hyield⟩ := hfits hi.current_pos hb.towards (by omega)
    rw [hb.reach hneeded]
    refine ⟨_, emitStep_eq_ok.2 ⟨⟨⟨hi.current_pos.le, hi.current_le⟩, hcost, hyield, ?_⟩, rfl⟩⟩
    simp [ceil, u64]
  · obtain ⟨hL, hbeyond⟩ := hb.target_strictlyBeyond hneeded
    have hpos := priceAfterInput_pos (!down) hb.current_pos hL hb.netInput_nonneg
    have hfrom := current_beyond_priceAfterInput (!down) hb.current_pos hL hb.netInput_nonneg
    have hpaid := amountIn_priceAfterInput_le (!down) hb.current_pos hL hb.netInput_nonneg
    obtain ⟨hcost, hyield⟩ := hfits hpos hfrom (by omega)
    have hle := le_of_between hb.current_le hb.target_le hfrom hbeyond.beyond
    rw [hb.stop hneeded]
    exact ⟨_, emitStep_eq_ok.2 ⟨⟨⟨hpos.le, hle⟩, hcost, hyield, by omega, by omega⟩, rfl⟩⟩

/-- No profit from a round trip without fees: the way back to the original price
returns, and it pays no more than the way there charged, which is no more than
was given; the same holds of any way back that returns. -/
theorem clmmSwapStep_round_trip {x : ℤ}
    (h : clmmSwapStep current target liquidity x 0 down = .ok st) :
    (∃ st', clmmSwapStep st.sqrtPrice current liquidity st.amountOut 0 (!down) = .ok st') ∧
      ∀ target' st', clmmSwapStep st.sqrtPrice target' liquidity st.amountOut 0 (!down) = .ok st' →
        st'.amountOut ≤ st.amountIn ∧ st.amountIn ≤ x := by
  obtain ⟨-, -, -, hfee, -, hle, -⟩ := clmmSwapStep_spec h
  exact ⟨clmmSwapStep_back_returns h, fun _ _ h' => ⟨clmmSwapStep_back_le h h', by omega⟩⟩

/-- A thousand units there and what they bought back. -/
theorem clmmSwapStep_round_trip_down :
    clmmSwapStep (2 * q64) q64 1000000 1000 0 true = .ok ⟨36819848450518067098, 1000, 3992, 0⟩ ∧
      ∀ target' st', clmmSwapStep 36819848450518067098 target' 1000000 3992 0 false = .ok st' →
        st'.amountOut ≤ 1000 := by
  have h : clmmSwapStep (2 * q64) q64 1000000 1000 0 true =
      .ok ⟨36819848450518067098, 1000, 3992, 0⟩ := by decide
  exact ⟨h, fun target' st' h' => ((clmmSwapStep_round_trip h).2 target' st' h').1⟩

end Step

end SolTrade.Clmm
