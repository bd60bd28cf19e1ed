import Mathlib.Algebra.Order.Floor.Ring
import Mathlib.Algebra.Order.Ring.Int
import Mathlib.Data.Int.Order.Basic
import Mathlib.Tactic.Linarith
import Mathlib.Tactic.Ring

/-!
Integer division rounded down and rounded up.

Rounding up is written `(n + d - 1) / d`, the form programs use. Both roundings
are characterized by their adjunction with multiplication, and every other fact
here is read off it: monotonicity, and the two ways of splitting a gross amount
into a net part and a proportional fee.
-/

namespace SolTrade.Library.Rounding

variable {n m d k : ℤ}

theorem le_floor_iff (hd : 0 < d) : k ≤ n / d ↔ k * d ≤ n :=
  Int.le_ediv_iff_mul_le hd

theorem floor_lt_iff (hd : 0 < d) : n / d < k ↔ n < k * d :=
  Int.ediv_lt_iff_lt_mul hd

theorem ceil_le_iff (hd : 0 < d) : (n + d - 1) / d ≤ k ↔ n ≤ k * d := by
  rw [← Int.lt_add_one_iff, Int.ediv_lt_iff_lt_mul hd, add_mul]
  omega

theorem lt_ceil_iff (hd : 0 < d) : k < (n + d - 1) / d ↔ k * d < n := by
  rw [← not_le, ceil_le_iff hd, not_le]

theorem le_ceil_mul (n : ℤ) (hd : 0 < d) : n ≤ (n + d - 1) / d * d :=
  (ceil_le_iff hd).1 le_rfl

theorem floor_mul_le (n : ℤ) (hd : 0 < d) : n / d * d ≤ n :=
  (le_floor_iff hd).1 le_rfl

theorem ceil_nonneg (hd : 0 < d) (hn : 0 ≤ n) : 0 ≤ (n + d - 1) / d :=
  Int.ediv_nonneg (by omega) hd.le

theorem floor_nonneg (hd : 0 < d) (hn : 0 ≤ n) : 0 ≤ n / d :=
  Int.ediv_nonneg hn hd.le

theorem ceil_zero (hd : 0 < d) : (0 + d - 1) / d = 0 := by
  apply le_antisymm
  · exact (ceil_le_iff hd).2 (by simp)
  · exact ceil_nonneg hd le_rfl

/-- A part `f / m` of a nonnegative amount, rounded up, is at most the amount. -/
theorem ceil_part_le {a f : ℤ} (hm : 0 < m) (ha : 0 ≤ a) (hf : f ≤ m) :
    (a * f + m - 1) / m ≤ a :=
  (ceil_le_iff hm).2 (mul_le_mul_of_nonneg_left hf ha)

/-- Rounding up is rounding down from the other side. -/
theorem ceil_eq_neg_floor (n : ℤ) (hd : 0 < d) : (n + d - 1) / d = -(-n / d) := by
  apply le_antisymm
  · rw [ceil_le_iff hd]
    have := floor_mul_le (-n) hd
    rw [neg_mul]
    omega
  · rw [neg_le, le_floor_iff hd]
    have := le_ceil_mul n hd
    rw [neg_mul]
    omega

/-- What rounding up adds. -/
theorem ceil_mul_eq (n : ℤ) (hd : 0 < d) : (n + d - 1) / d * d = n + -n % d := by
  have hdiv := Int.mul_ediv_add_emod (-n) d
  rw [ceil_eq_neg_floor n hd, neg_mul, mul_comm]
  omega

section Exact

variable {K : Type*} [Field K] [LinearOrder K] [IsStrictOrderedRing K] [FloorRing K]

/-- Rounding down is the floor of the exact quotient. -/
theorem floor_eq (n : ℤ) (hd : 0 < d) : n / d = ⌊(n : K) / d⌋ := by
  rw [Int.floor_div_cast_of_nonneg hd.le, Int.floor_intCast]

/-- Rounding up is the ceiling of the exact quotient. -/
theorem ceil_eq (n : ℤ) (hd : 0 < d) : (n + d - 1) / d = ⌈(n : K) / d⌉ := by
  rw [ceil_eq_neg_floor n hd, floor_eq (K := K) (-n) hd, Int.cast_neg, neg_div, Int.floor_neg,
    neg_neg]

end Exact

/-- Taking a fee off the top, rounded up, leaves the net amount rounded down. -/
theorem sub_ceil_part (a f : ℤ) (hm : 0 < m) :
    a - (a * f + m - 1) / m = a * (m - f) / m := by
  have h : a * (m - f) = -(a * f) + a * m := by ring
  rw [ceil_eq_neg_floor (a * f) hm, h, Int.add_mul_ediv_right _ _ hm.ne']
  ring

/-- More leaves more after the fee. -/
theorem sub_ceil_part_mono {a b f : ℤ} (hm : 0 < m) (hf : f ≤ m) (hab : a ≤ b) :
    a - (a * f + m - 1) / m ≤ b - (b * f + m - 1) / m := by
  rw [sub_ceil_part _ _ hm, sub_ceil_part _ _ hm]
  exact Int.ediv_le_ediv hm (mul_le_mul_of_nonneg_right hab (by omega))

/-- The amounts whose net part, rounded down, covers an amount. -/
theorem le_floor_part_iff {a f : ℤ} (hm : 0 < m) (hf : f < m) :
    k ≤ a * (m - f) / m ↔ (k * m + (m - f) - 1) / (m - f) ≤ a := by
  rw [le_floor_iff hm, ceil_le_iff (by omega)]

/-- Grossing a net amount up by its fee, rounded up, stays within an amount exactly
when the net part of that amount covers it. -/
theorem add_ceil_fee_le_iff {a f r : ℤ} (hf : f < m) :
    a + (a * f + (m - f) - 1) / (m - f) ≤ r ↔ a * m ≤ r * (m - f) := by
  have hmf : 0 < m - f := by omega
  have hgross : (r - a) * (m - f) = r * (m - f) - a * m + a * f := by ring
  rw [← le_sub_iff_add_le', ceil_le_iff hmf, hgross]
  omega

theorem add_ceil_fee_le {a f r : ℤ} (hf : f < m) (h : a * m ≤ r * (m - f)) :
    a + (a * f + (m - f) - 1) / (m - f) ≤ r :=
  (add_ceil_fee_le_iff hf).2 h

/-- A net amount above the net part of an amount grosses up to more than it. -/
theorem lt_add_ceil_fee {a f r : ℤ} (hm : 0 < m) (hf : f < m) (h : r * (m - f) / m < a) :
    r < a + (a * f + (m - f) - 1) / (m - f) := by
  rw [← not_le, add_ceil_fee_le_iff hf, not_le]
  exact (floor_lt_iff hm).1 h

end SolTrade.Library.Rounding
