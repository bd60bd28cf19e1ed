import Mathlib.Tactic.Linarith
import Mathlib.Tactic.Ring
import SolTrade.Library.Direction
import SolTrade.Numeric

/-!
One step of the constant-liquidity curve towards a target price, shared by the
CLMM and the Whirlpool traversals.

`priceAfterInput` is characterized by `amountIn_le_iff`: it is the furthest
integer price whose rounded-up cost the net input covers. Everything the loops
need about a step follows from that one equivalence, in both directions: whether
the target is reached, that the price stays between its bounds, that the amount
charged fits, and that a target further away changes nothing once the input is
the binding constraint.
-/

namespace SolTrade.Clmm

open Library

/-- The token amount between two prices, the lower one first. -/
def deltaAmount (low high liquidity : ℤ) (token0 roundUp : Bool) : ℤ :=
  let numerator := liquidity * (high - low) * (if token0 then q64 else 1)
  let denominator := if token0 then high * low else q64
  if roundUp then ceil numerator denominator else numerator / denominator

def delta (a b liquidity : ℤ) (token0 roundUp : Bool) : Except ValueError ℤ := do
  require (¬ min a b ≤ 0) .clmmZeroSqrtPrice
  return deltaAmount (min a b) (max a b) liquidity token0 roundUp

structure ClmmSwapStep where
  sqrtPrice : ℤ
  amountIn : ℤ
  amountOut : ℤ
  fee : ℤ
  deriving DecidableEq, Repr

/-- The price at which a net input that does not reach the target is used up. -/
def priceAfterInput (current liquidity net : ℤ) (down : Bool) : ℤ :=
  if down then ceil (liquidity * q64 * current) (liquidity * q64 + net * current)
  else current + net * q64 / liquidity

/-- The returned record, every field checked once more. -/
def emitStep (nextPrice amountIn amountOut fee : ℤ) : Except ValueError ClmmSwapStep := do
  let sqrtPrice ← unsigned nextPrice u128
  let amountIn ← unsigned amountIn u64
  let amountOut ← unsigned amountOut u64
  let fee ← unsigned fee u64
  return ⟨sqrtPrice, amountIn, amountOut, fee⟩

def clmmSwapStep (current target liquidity remaining feeRate : ℤ) (down : Bool) :
    Except ValueError ClmmSwapStep := do
  let _ ← unsigned current u128
  let _ ← unsigned target u128
  let _ ← unsigned liquidity u128
  let _ ← unsigned remaining u64
  let _ ← unsigned feeRate 999999
  require (¬ (current ≤ 0 ∨ target ≤ 0 ∨ (if down then target > current else target < current)))
    .invalidClmmStep
  let net := remaining * (1000000 - feeRate) / 1000000
  let needed ← delta current target liquidity down true
  require (needed ≤ net ∨ ¬ liquidity = 0) .clmmLiquidityIsZero
  let nextPrice := if needed ≤ net then target else priceAfterInput current liquidity net down
  let amountIn ←
    (if nextPrice = target then .ok needed else delta current nextPrice liquidity down true)
  let amountOut ← delta current nextPrice liquidity (!down) false
  let fee :=
    if nextPrice ≠ target then remaining - amountIn
    else ceil (amountIn * feeRate) (1000000 - feeRate)
  emitStep nextPrice amountIn amountOut fee

/-- What the input side of a step costs, rounded up. -/
def amountInTo (current price liquidity : ℤ) (down : Bool) : ℤ :=
  deltaAmount (min current price) (max current price) liquidity down true

/-- What the output side of a step yields, rounded down. -/
def amountOutTo (current price liquidity : ℤ) (down : Bool) : ℤ :=
  deltaAmount (min current price) (max current price) liquidity (!down) false

/-- The part of the remaining input that is left after the fee. -/
def netInput (remaining feeRate : ℤ) : ℤ := remaining * (1000000 - feeRate) / 1000000

section Amounts

variable {current price liquidity net : ℤ} {down : Bool}

theorem amountInTo_down (h : price ≤ current) :
    amountInTo current price liquidity true =
      ceil (liquidity * (current - price) * q64) (current * price) := by
  simp [amountInTo, deltaAmount, min_eq_right h, max_eq_left h]

theorem amountInTo_up (h : current ≤ price) :
    amountInTo current price liquidity false = ceil (liquidity * (price - current)) q64 := by
  simp [amountInTo, deltaAmount, min_eq_left h, max_eq_right h]

/-- A price is affordable exactly when it is not beyond `priceAfterInput`. -/
theorem amountIn_le_iff (hc : 0 < current) (hp : 0 < price) (hL : 0 < liquidity) (hn : 0 ≤ net)
    (hdir : Beyond down current price) :
    amountInTo current price liquidity down ≤ net ↔
      Beyond down price (priceAfterInput current liquidity net down) := by
  have hq := q64_pos
  cases down with
  | true =>
      have hden : 0 < liquidity * q64 + net * current := by positivity
      simp only [beyond_true] at hdir ⊢
      simp only [amountInTo_down hdir, priceAfterInput, ceil, if_true]
      rw [Rounding.ceil_le_iff (mul_pos hc hp), Rounding.ceil_le_iff hden]
      constructor <;> intro h <;> linarith [mul_comm liquidity q64]
  | false =>
      simp only [beyond_false] at hdir ⊢
      simp only [amountInTo_up hdir, priceAfterInput, ceil, Bool.false_eq_true, if_false]
      rw [Rounding.ceil_le_iff hq, ← sub_le_iff_le_add', Rounding.le_floor_iff hL]
      constructor <;> intro h <;> linarith

theorem amountInTo_self (hc : 0 < current) : amountInTo current current liquidity down = 0 := by
  cases down with
  | true =>
      rw [amountInTo_down le_rfl, sub_self, mul_zero, zero_mul]
      exact Rounding.ceil_zero (mul_pos hc hc)
  | false =>
      rw [amountInTo_up le_rfl, sub_self, mul_zero]
      exact Rounding.ceil_zero q64_pos

theorem amountInTo_zero_liquidity (hc : 0 < current) (hp : 0 < price)
    (hdir : Beyond down current price) : amountInTo current price 0 down = 0 := by
  cases down with
  | true =>
      rw [amountInTo_down hdir, zero_mul, zero_mul]
      exact Rounding.ceil_zero (mul_pos hc hp)
  | false =>
      rw [amountInTo_up hdir, zero_mul]
      exact Rounding.ceil_zero q64_pos

theorem amountInTo_nonneg (hc : 0 < current) (hp : 0 < price) (hL : 0 ≤ liquidity)
    (hdir : Beyond down current price) : 0 ≤ amountInTo current price liquidity down := by
  cases down with
  | true =>
      simp only [beyond_true] at hdir
      rw [amountInTo_down hdir]
      exact Rounding.ceil_nonneg (mul_pos hc hp)
        (mul_nonneg (mul_nonneg hL (by omega)) q64_pos.le)
  | false =>
      simp only [beyond_false] at hdir
      rw [amountInTo_up hdir]
      exact Rounding.ceil_nonneg q64_pos (mul_nonneg hL (by omega))

theorem current_beyond_priceAfterInput (down : Bool) (hc : 0 < current) (hL : 0 < liquidity)
    (hn : 0 ≤ net) :
    Beyond down current (priceAfterInput current liquidity net down) := by
  rw [← amountIn_le_iff hc hc hL hn (.refl down current), amountInTo_self hc]
  exact hn

theorem priceAfterInput_pos (down : Bool) (hc : 0 < current) (hL : 0 < liquidity)
    (hn : 0 ≤ net) :
    0 < priceAfterInput current liquidity net down := by
  have hq := q64_pos
  cases down with
  | true =>
      simp only [priceAfterInput, ceil, if_true]
      rw [Rounding.lt_ceil_iff (by positivity), zero_mul]
      positivity
  | false =>
      have h := current_beyond_priceAfterInput false hc hL hn
      exact lt_of_lt_of_le hc h

theorem amountIn_priceAfterInput_le (down : Bool) (hc : 0 < current) (hL : 0 < liquidity)
    (hn : 0 ≤ net) :
    amountInTo current (priceAfterInput current liquidity net down) liquidity down ≤ net := by
  rw [amountIn_le_iff hc (priceAfterInput_pos down hc hL hn) hL hn
    (current_beyond_priceAfterInput down hc hL hn)]
  exact .refl down _

/-- Going further costs more. -/
theorem amountInTo_mono {a b : ℤ} (hc : 0 < current) (ha : 0 < a) (hb : 0 < b)
    (hL : 0 ≤ liquidity) (hca : Beyond down current a) (hab : Beyond down a b) :
    amountInTo current a liquidity down ≤ amountInTo current b liquidity down := by
  have hcb := hca.trans hab
  rcases hL.eq_or_lt with rfl | hL'
  · rw [amountInTo_zero_liquidity hc ha hca, amountInTo_zero_liquidity hc hb hcb]
  · have hn := amountInTo_nonneg hc hb hL hcb
    rw [amountIn_le_iff hc ha hL' hn hca]
    exact hab.trans ((amountIn_le_iff hc hb hL' hn hcb).1 le_rfl)

end Amounts

theorem netInput_nonneg {remaining feeRate : ℤ} (hr : 0 ≤ remaining) (hf : feeRate ≤ 999999) :
    0 ≤ netInput remaining feeRate :=
  Int.ediv_nonneg (mul_nonneg hr (by omega)) (by norm_num)

@[simp] theorem netInput_zero (remaining : ℤ) : netInput remaining 0 = remaining := by
  simp [netInput]

@[simp] theorem delta_eq_ok {a b liquidity d : ℤ} {token0 roundUp : Bool} :
    delta a b liquidity token0 roundUp = .ok d ↔
      ¬ min a b ≤ 0 ∧ deltaAmount (min a b) (max a b) liquidity token0 roundUp = d := by
  simp only [delta, bind_eq_ok, require_eq_ok, pure_eq_ok, exists_const]

@[simp] theorem emitStep_eq_ok {p a o f : ℤ} {st : ClmmSwapStep} :
    emitStep p a o f = .ok st ↔
      ((0 ≤ p ∧ p ≤ u128) ∧ (0 ≤ a ∧ a ≤ u64) ∧ (0 ≤ o ∧ o ≤ u64) ∧ (0 ≤ f ∧ f ≤ u64)) ∧
        st = ⟨p, a, o, f⟩ := by
  simp only [emitStep, bind_eq_ok, unsigned_eq_ok, pure_eq_ok]
  constructor
  · rintro ⟨_, ⟨hp, rfl⟩, _, ⟨ha, rfl⟩, _, ⟨ho, rfl⟩, _, ⟨hf, rfl⟩, rfl⟩
    exact ⟨⟨hp, ha, ho, hf⟩, rfl⟩
  · rintro ⟨⟨hp, ha, ho, hf⟩, rfl⟩
    exact ⟨_, ⟨hp, rfl⟩, _, ⟨ha, rfl⟩, _, ⟨ho, rfl⟩, _, ⟨hf, rfl⟩, rfl⟩

/-- The arguments that `clmmSwapStep` accepts. -/
structure StepInput (current target liquidity remaining feeRate : ℤ) (down : Bool) : Prop where
  current_pos : 0 < current
  current_le : current ≤ u128
  target_pos : 0 < target
  target_le : target ≤ u128
  liquidity_nonneg : 0 ≤ liquidity
  liquidity_le : liquidity ≤ u128
  remaining_nonneg : 0 ≤ remaining
  remaining_le : remaining ≤ u64
  feeRate_nonneg : 0 ≤ feeRate
  feeRate_le : feeRate ≤ 999999
  towards : Beyond down current target

section Step

variable {current target liquidity remaining feeRate : ℤ} {down : Bool} {st : ClmmSwapStep}

theorem StepInput.netInput_nonneg
    (h : StepInput current target liquidity remaining feeRate down) :
    0 ≤ netInput remaining feeRate :=
  Clmm.netInput_nonneg h.remaining_nonneg h.feeRate_le

/-- An input that does not pay for the whole way stops strictly before the
target. -/
theorem StepInput.target_strictlyBeyond
    (h : StepInput current target liquidity remaining feeRate down)
    (hneeded : netInput remaining feeRate < amountInTo current target liquidity down) :
    0 < liquidity ∧
      StrictlyBeyond down (priceAfterInput current liquidity (netInput remaining feeRate) down)
        target := by
  have hL : 0 < liquidity := by
    refine lt_of_le_of_ne h.liquidity_nonneg fun h0 => ?_
    rw [← h0, amountInTo_zero_liquidity h.current_pos h.target_pos h.towards] at hneeded
    exact absurd h.netInput_nonneg (by omega)
  refine ⟨hL, ?_⟩
  rw [← not_beyond, ← amountIn_le_iff h.current_pos h.target_pos hL h.netInput_nonneg h.towards]
  omega

theorem towards_of_valid
    (h : ¬ (current ≤ 0 ∨ target ≤ 0 ∨ (if down then target > current else target < current))) :
    Beyond down current target := by
  cases down <;> simp at h ⊢ <;> omega

theorem StepInput.of_ok
    (h : clmmSwapStep current target liquidity remaining feeRate down = .ok st) :
    StepInput current target liquidity remaining feeRate down := by
  simp only [clmmSwapStep, bind_eq_ok, unsigned_eq_ok, require_eq_ok] at h
  obtain ⟨_, ⟨hc, rfl⟩, _, ⟨ht, rfl⟩, _, ⟨hL, rfl⟩, _, ⟨hr, rfl⟩, _, ⟨hf, rfl⟩, _, hvalid, -⟩ := h
  exact ⟨by omega, hc.2, by omega, ht.2, hL.1, hL.2, hr.1, hr.2, hf.1, hf.2,
    towards_of_valid hvalid⟩

theorem StepInput.valid (h : StepInput current target liquidity remaining feeRate down) :
    ¬ (current ≤ 0 ∨ target ≤ 0 ∨ (if down then target > current else target < current)) := by
  have hc := h.current_pos
  have ht := h.target_pos
  have hdir := h.towards
  cases down <;> simp at hdir ⊢ <;> omega

theorem delta_of {a b : ℤ} {token0 roundUp : Bool} (ha : 0 < a) (hb : 0 < b) :
    delta a b liquidity token0 roundUp =
      .ok (deltaAmount (min a b) (max a b) liquidity token0 roundUp) := by
  rw [delta_eq_ok]
  exact ⟨by omega, rfl⟩

/-- A step whose net input pays for the whole way reaches the target. -/
theorem StepInput.reach (h : StepInput current target liquidity remaining feeRate down)
    (hneeded : amountInTo current target liquidity down ≤ netInput remaining feeRate) :
    clmmSwapStep current target liquidity remaining feeRate down =
      emitStep target (amountInTo current target liquidity down)
        (amountOutTo current target liquidity down)
        (ceil (amountInTo current target liquidity down * feeRate) (1000000 - feeRate)) := by
  simp only [amountInTo, amountOutTo, netInput] at hneeded ⊢
  simp only [clmmSwapStep, unsigned_of h.current_pos.le h.current_le,
    unsigned_of h.target_pos.le h.target_le, unsigned_of h.liquidity_nonneg h.liquidity_le,
    unsigned_of h.remaining_nonneg h.remaining_le, unsigned_of h.feeRate_nonneg h.feeRate_le,
    ok_bind, require_of h.valid, delta_of h.current_pos h.target_pos, require_of (Or.inl hneeded),
    if_pos hneeded, if_true, ne_eq, not_true_eq_false, if_false]

/-- A step whose net input does not pay for the whole way stops at
`priceAfterInput` and charges the rest of the input as fee. -/
theorem StepInput.stop (h : StepInput current target liquidity remaining feeRate down)
    (hneeded : netInput remaining feeRate < amountInTo current target liquidity down) :
    clmmSwapStep current target liquidity remaining feeRate down =
      emitStep (priceAfterInput current liquidity (netInput remaining feeRate) down)
        (amountInTo current (priceAfterInput current liquidity (netInput remaining feeRate) down)
          liquidity down)
        (amountOutTo current (priceAfterInput current liquidity (netInput remaining feeRate) down)
          liquidity down)
        (remaining - amountInTo current
          (priceAfterInput current liquidity (netInput remaining feeRate) down) liquidity down) := by
  obtain ⟨hL, hbeyond⟩ := h.target_strictlyBeyond hneeded
  have hpos := priceAfterInput_pos down h.current_pos hL h.netInput_nonneg
  have hne := hbeyond.ne
  have hneeded' : ¬ amountInTo current target liquidity down ≤ netInput remaining feeRate := by
    omega
  simp only [amountInTo, amountOutTo, netInput] at hneeded' hpos hne ⊢
  simp only [clmmSwapStep, unsigned_of h.current_pos.le h.current_le,
    unsigned_of h.target_pos.le h.target_le, unsigned_of h.liquidity_nonneg h.liquidity_le,
    unsigned_of h.remaining_nonneg h.remaining_le, unsigned_of h.feeRate_nonneg h.feeRate_le,
    ok_bind, require_of h.valid, delta_of h.current_pos h.target_pos,
    require_of (show _ ∨ ¬ liquidity = 0 from .inr hL.ne'), if_neg hneeded', ne_eq,
    delta_of h.current_pos hpos, hne, not_false_eq_true, if_true, if_false]

/-- The two ways a successful step ends. -/
theorem clmmSwapStep_cases
    (h : clmmSwapStep current target liquidity remaining feeRate down = .ok st) :
    amountInTo current target liquidity down ≤ netInput remaining feeRate ∧
        st.sqrtPrice = target ∧ st.amountIn = amountInTo current target liquidity down ∧
        st.fee = ceil (st.amountIn * feeRate) (1000000 - feeRate) ∨
      netInput remaining feeRate < amountInTo current target liquidity down ∧
        st.sqrtPrice = priceAfterInput current liquidity (netInput remaining feeRate) down ∧
        StrictlyBeyond down st.sqrtPrice target ∧ Beyond down current st.sqrtPrice ∧
        st.amountIn = amountInTo current st.sqrtPrice liquidity down ∧
        st.amountIn ≤ netInput remaining feeRate ∧ st.fee = remaining - st.amountIn := by
  have hi := StepInput.of_ok h
  rcases le_or_gt (amountInTo current target liquidity down) (netInput remaining feeRate)
    with hneeded | hneeded
  · rw [hi.reach hneeded, emitStep_eq_ok] at h
    obtain ⟨-, rfl⟩ := h
    exact .inl ⟨hneeded, rfl, rfl, rfl⟩
  · rw [hi.stop hneeded, emitStep_eq_ok] at h
    obtain ⟨-, rfl⟩ := h
    obtain ⟨hL, hbeyond⟩ := hi.target_strictlyBeyond hneeded
    exact .inr ⟨hneeded, rfl, hbeyond,
      current_beyond_priceAfterInput down hi.current_pos hL hi.netInput_nonneg, rfl,
      amountIn_priceAfterInput_le down hi.current_pos hL hi.netInput_nonneg, rfl⟩

/-- What every successful step guarantees, whichever way it ends. -/
theorem clmmSwapStep_spec
    (h : clmmSwapStep current target liquidity remaining feeRate down = .ok st) :
    Beyond down current st.sqrtPrice ∧ Beyond down st.sqrtPrice target ∧
      0 ≤ st.amountIn ∧ 0 ≤ st.fee ∧ 0 ≤ st.amountOut ∧ st.amountIn + st.fee ≤ remaining ∧
      (st.sqrtPrice = target ∨ st.amountIn + st.fee = remaining) := by
  have hi := StepInput.of_ok h
  have hbounds : 0 ≤ st.amountIn ∧ 0 ≤ st.amountOut ∧ 0 ≤ st.fee := by
    rcases le_or_gt (amountInTo current target liquidity down) (netInput remaining feeRate)
      with hneeded | hneeded
    · rw [hi.reach hneeded, emitStep_eq_ok] at h
      obtain ⟨hb, rfl⟩ := h
      exact ⟨hb.2.1.1, hb.2.2.1.1, hb.2.2.2.1⟩
    · rw [hi.stop hneeded, emitStep_eq_ok] at h
      obtain ⟨hb, rfl⟩ := h
      exact ⟨hb.2.1.1, hb.2.2.1.1, hb.2.2.2.1⟩
  obtain ⟨hin, hout, hfee⟩ := hbounds
  rcases clmmSwapStep_cases h with ⟨hneeded, hprice, hamount, hf⟩ |
    ⟨-, -, hbeyond, hdir, -, hnet, hf⟩
  · have hle : st.amountIn + st.fee ≤ remaining := by
      rw [hf]
      have hfit := (Rounding.le_floor_iff (by norm_num)).1 hneeded
      rw [← hamount] at hfit
      have := hi.feeRate_le
      exact Rounding.add_ceil_fee_le (by omega) hfit
    exact ⟨hprice ▸ hi.towards, hprice ▸ .refl down _, hin, hfee, hout, hle, .inl hprice⟩
  · exact ⟨hdir, hbeyond.beyond, hin, hfee, hout, by omega, .inr (by omega)⟩

/-- A step that stops before its target does not depend on where the target is:
any valid target at or beyond the price where it stopped, and beyond the old
target, gives the same step. -/
theorem clmmSwapStep_of_further {target' : ℤ}
    (h : clmmSwapStep current target liquidity remaining feeRate down = .ok st)
    (hne : st.sqrtPrice ≠ target) (hfar : Beyond down target target') (hpos : 0 < target')
    (hle : target' ≤ u128) :
    clmmSwapStep current target' liquidity remaining feeRate down = .ok st := by
  have hi := StepInput.of_ok h
  rcases clmmSwapStep_cases h with ⟨-, hprice, -⟩ | ⟨hneeded, -⟩
  · exact absurd hprice hne
  · have hi' : StepInput current target' liquidity remaining feeRate down :=
      { hi with target_pos := hpos, target_le := hle, towards := hi.towards.trans hfar }
    have hmono := amountInTo_mono hi.current_pos hi.target_pos hpos hi.liquidity_nonneg
      hi.towards hfar
    rw [hi'.stop (lt_of_lt_of_le hneeded hmono), ← hi.stop hneeded, h]

/-- The errors a step can raise. -/
theorem clmmSwapStep_ne_error {e : ValueError} (hrange : e ≠ .amountOutsideUnsignedRange)
    (hzero : e ≠ .clmmZeroSqrtPrice) (hstep : e ≠ .invalidClmmStep)
    (hliquidity : e ≠ .clmmLiquidityIsZero) :
    clmmSwapStep current target liquidity remaining feeRate down ≠ .error e := by
  have hdelta : ∀ a b token0 roundUp, delta a b liquidity token0 roundUp ≠ .error e :=
    fun _ _ _ _ => bind_ne_error (require_ne_error hzero.symm) fun _ => pure_ne_error
  have hunsigned : ∀ v maximum, unsigned v maximum ≠ .error e :=
    fun _ _ => unsigned_ne_error hrange
  unfold clmmSwapStep
  refine bind_ne_error (hunsigned _ _) fun _ => bind_ne_error (hunsigned _ _) fun _ =>
    bind_ne_error (hunsigned _ _) fun _ => bind_ne_error (hunsigned _ _) fun _ =>
    bind_ne_error (hunsigned _ _) fun _ => bind_ne_error (require_ne_error hstep.symm) fun _ =>
    bind_ne_error (hdelta _ _ _ _) fun _ => bind_ne_error (require_ne_error hliquidity.symm)
    fun _ => bind_ne_error ?_ fun _ => bind_ne_error (hdelta _ _ _ _) fun _ => ?_
  · exact ite_ne_error pure_ne_error (hdelta _ _ _ _)
  · exact bind_ne_error (hunsigned _ _) fun _ => bind_ne_error (hunsigned _ _) fun _ =>
      bind_ne_error (hunsigned _ _) fun _ => bind_ne_error (hunsigned _ _) fun _ => pure_ne_error

end Step

end SolTrade.Clmm
