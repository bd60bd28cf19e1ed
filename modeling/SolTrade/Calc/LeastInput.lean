import Mathlib.Order.Bounds.Basic
import SolTrade.Library.ConstantProduct
import SolTrade.Numeric

/-!
The helpers of the Bonk, CPMM and AMM v4 pools that invert each other.

What is bought with an input is rounded down twice, by the fee and by the pool; the input for an
output is rounded up twice. Each rounding is matched by the one of the other direction.
-/

namespace SolTrade.Calc

open Library ConstantProduct

/-! ### The fee as a part of the input -/

section FlatFee

variable (feeNumerator feeDenominator : ℤ)

def flatFeeAmountOut (amountIn reserveIn reserveOut : ℤ) : ℤ :=
  if amountIn = 0 ∨ reserveIn = 0 ∨ reserveOut = 0 then 0
  else
    let amountInWithFee := amountIn * (feeDenominator - feeNumerator) / feeDenominator
    amountInWithFee * reserveOut / (reserveIn + amountInWithFee)

def flatFeeAmountIn (amountOut reserveIn reserveOut : ℤ) : ℤ :=
  if amountOut = 0 ∨ reserveIn = 0 ∨ reserveOut = 0 then 0
  else if amountOut ≥ reserveOut then 0
  else
    let amountIn := ceil (reserveIn * amountOut) (reserveOut - amountOut)
    ceil (amountIn * feeDenominator) (feeDenominator - feeNumerator)

end FlatFee

def bonkFeeNumerator : ℤ := 25
def bonkFeeDenominator : ℤ := 10000

def getBonkAmountOut : ℤ → ℤ → ℤ → ℤ := flatFeeAmountOut bonkFeeNumerator bonkFeeDenominator
def getBonkAmountIn : ℤ → ℤ → ℤ → ℤ := flatFeeAmountIn bonkFeeNumerator bonkFeeDenominator

def raydiumAmmV4FeeNumerator : ℤ := 25
def raydiumAmmV4FeeDenominator : ℤ := 10000

def raydiumAmmV4GetAmountOut : ℤ → ℤ → ℤ → ℤ :=
  flatFeeAmountOut raydiumAmmV4FeeNumerator raydiumAmmV4FeeDenominator

def raydiumAmmV4GetAmountIn : ℤ → ℤ → ℤ → ℤ :=
  flatFeeAmountIn raydiumAmmV4FeeNumerator raydiumAmmV4FeeDenominator

/-! ### The fee taken off the input -/

def raydiumCpmmFeeRateDenominator : ℤ := 1000000
def raydiumCpmmTradeFeeRate : ℤ := 2500

def computeRaydiumCpmmTradingFee (amount feeRate : ℤ) : ℤ :=
  (amount * feeRate + raydiumCpmmFeeRateDenominator - 1) / raydiumCpmmFeeRateDenominator

def raydiumCpmmGetAmountOut (amountIn reserveIn reserveOut : ℤ) : ℤ :=
  if amountIn = 0 ∨ reserveIn = 0 ∨ reserveOut = 0 then 0
  else
    let amountInLessFee := amountIn - computeRaydiumCpmmTradingFee amountIn raydiumCpmmTradeFeeRate
    amountInLessFee * reserveOut / (reserveIn + amountInLessFee)

def raydiumCpmmGetAmountIn : ℤ → ℤ → ℤ → ℤ :=
  flatFeeAmountIn raydiumCpmmTradeFeeRate raydiumCpmmFeeRateDenominator

/-- A fee rounded up leaves the part of the input rounded down. -/
theorem raydiumCpmmGetAmountOut_eq : raydiumCpmmGetAmountOut =
    flatFeeAmountOut raydiumCpmmTradeFeeRate raydiumCpmmFeeRateDenominator := by
  ext amountIn reserveIn reserveOut
  simp only [raydiumCpmmGetAmountOut, flatFeeAmountOut, computeRaydiumCpmmTradingFee,
    raydiumCpmmFeeRateDenominator, raydiumCpmmTradeFeeRate,
    Rounding.sub_ceil_part _ _ (show (0 : ℤ) < 1000000 by norm_num)]

/-! ### Inversion -/

/-- The input for an output is the least one that buys it. -/
def LeastInput (getAmountIn getAmountOut : ℤ → ℤ → ℤ → ℤ) (reserveIn reserveOut x : ℤ) : Prop :=
  (∀ a, 0 ≤ a →
    (getAmountIn x reserveIn reserveOut ≤ a ↔ x ≤ getAmountOut a reserveIn reserveOut)) ∧
  IsLeast {a | 0 ≤ a ∧ x ≤ getAmountOut a reserveIn reserveOut} (getAmountIn x reserveIn reserveOut)

variable {feeNumerator feeDenominator reserveIn reserveOut x a : ℤ}

theorem flatFeeAmountOut_eq (hi : reserveIn ≠ 0) (ho : reserveOut ≠ 0) :
    flatFeeAmountOut feeNumerator feeDenominator a reserveIn reserveOut =
      bought reserveOut reserveIn (a * (feeDenominator - feeNumerator) / feeDenominator) := by
  unfold flatFeeAmountOut bought
  by_cases ha : a = 0
  · simp [ha]
  · simp [ha, hi, ho]

theorem flatFeeAmountIn_eq (hi : reserveIn ≠ 0) (ho : reserveOut ≠ 0) (hx : x ≠ 0)
    (hxo : x < reserveOut) :
    flatFeeAmountIn feeNumerator feeDenominator x reserveIn reserveOut =
      ceil (cost reserveOut reserveIn x * feeDenominator) (feeDenominator - feeNumerator) := by
  simp [flatFeeAmountIn, cost, ceil, hi, hx, ho, hxo]

theorem flatFee_leastInput (hf : 0 ≤ feeNumerator) (hd : feeNumerator < feeDenominator)
    (hi : 0 < reserveIn) (hx : 0 < x) (hxo : x < reserveOut) :
    LeastInput (flatFeeAmountIn feeNumerator feeDenominator)
      (flatFeeAmountOut feeNumerator feeDenominator) reserveIn reserveOut x := by
  have hden : 0 < feeDenominator := by omega
  have ho : 0 < reserveOut := hx.trans hxo
  have hiff : ∀ a, 0 ≤ a →
      (flatFeeAmountIn feeNumerator feeDenominator x reserveIn reserveOut ≤ a ↔
        x ≤ flatFeeAmountOut feeNumerator feeDenominator a reserveIn reserveOut) := by
    intro a ha
    have hnet : 0 ≤ a * (feeDenominator - feeNumerator) / feeDenominator :=
      Rounding.floor_nonneg hden (mul_nonneg ha (by omega))
    rw [flatFeeAmountIn_eq hi.ne' ho.ne' hx.ne' hxo, flatFeeAmountOut_eq hi.ne' ho.ne', ceil,
      ← Rounding.le_floor_part_iff hden hd, cost_le_iff hnet hi hxo]
  have hin : 0 ≤ flatFeeAmountIn feeNumerator feeDenominator x reserveIn reserveOut := by
    rw [flatFeeAmountIn_eq hi.ne' ho.ne' hx.ne' hxo]
    apply Rounding.ceil_nonneg (by omega)
    exact mul_nonneg (cost_nonneg hi.le hx.le hxo) hden.le
  refine ⟨hiff, ⟨hin, (hiff _ hin).1 le_rfl⟩, ?_⟩
  rintro a ⟨ha, hbuys⟩
  exact (hiff a ha).2 hbuys

/-- For each of the three pools the input for an output is the least one that buys it. -/
theorem getAmountIn_least (hi : 0 < reserveIn) (hx : 0 < x) (hxo : x < reserveOut) :
    LeastInput getBonkAmountIn getBonkAmountOut reserveIn reserveOut x ∧
    LeastInput raydiumCpmmGetAmountIn raydiumCpmmGetAmountOut reserveIn reserveOut x ∧
    LeastInput raydiumAmmV4GetAmountIn raydiumAmmV4GetAmountOut reserveIn reserveOut x := by
  refine ⟨?_, ?_, ?_⟩
  · exact flatFee_leastInput (by decide) (by decide) hi hx hxo
  · rw [raydiumCpmmGetAmountOut_eq]
    exact flatFee_leastInput (by decide) (by decide) hi hx hxo
  · exact flatFee_leastInput (by decide) (by decide) hi hx hxo

theorem getAmountIn_least_rounded :
    LeastInput getBonkAmountIn getBonkAmountOut 1000 500 3 ∧
    LeastInput raydiumCpmmGetAmountIn raydiumCpmmGetAmountOut 1000 500 3 ∧
    LeastInput raydiumAmmV4GetAmountIn raydiumAmmV4GetAmountOut 1000 500 3 :=
  getAmountIn_least (by decide) (by decide) (by decide)

end SolTrade.Calc
