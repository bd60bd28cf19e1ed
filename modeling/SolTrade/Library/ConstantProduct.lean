import SolTrade.Library.Rounding

/-!
Buying from a constant-product reserve.

Paying `x` into a quote reserve buys `bought base quote x` out of the base reserve,
rounded down. An amount that a payment buys costs at most the payment, which is all
that exact-in and exact-out quotes have to agree on.
-/

namespace SolTrade.Library.ConstantProduct

open Rounding

def bought (base quote x : ℤ) : ℤ := x * base / (quote + x)

variable {base quote x y t : ℤ}

/-- What a payment buys, without division. -/
theorem le_bought_iff (h : 0 < quote + x) :
    t ≤ bought base quote x ↔ t * quote ≤ x * (base - t) := by
  rw [bought, le_floor_iff h]
  constructor <;> intro hle <;> linarith

theorem bought_nonneg (hx : 0 ≤ x) (hbase : 0 ≤ base) (h : 0 < quote + x) :
    0 ≤ bought base quote x :=
  floor_nonneg h (mul_nonneg hx hbase)

/-- No payment buys out a reserve. -/
theorem bought_lt (hx : 0 ≤ x) (hbase : 0 < base) (hquote : 0 < quote) :
    bought base quote x < base := by
  by_contra hge
  have hall := (le_bought_iff (t := base) (by omega)).1 (not_lt.1 hge)
  rw [sub_self, mul_zero] at hall
  exact absurd (mul_pos hbase hquote) (not_lt.2 hall)

theorem bought_mono (hx : 0 ≤ x) (hxy : x ≤ y) (hbase : 0 < base) (hquote : 0 < quote) :
    bought base quote x ≤ bought base quote y := by
  rw [le_bought_iff (by omega)]
  have hlt := bought_lt hx hbase hquote
  have hx' := (le_bought_iff (t := bought base quote x) (by omega)).1 le_rfl
  exact hx'.trans (mul_le_mul_of_nonneg_right hxy (by omega))

/-- The least payment that buys an amount. -/
def cost (base quote t : ℤ) : ℤ := (quote * t + (base - t) - 1) / (base - t)

theorem cost_nonneg (hquote : 0 ≤ quote) (ht₀ : 0 ≤ t) (ht : t < base) : 0 ≤ cost base quote t :=
  ceil_nonneg (by omega) (mul_nonneg hquote ht₀)

theorem cost_le_iff (hx : 0 ≤ x) (hquote : 0 < quote) (ht : t < base) :
    cost base quote t ≤ x ↔ t ≤ bought base quote x := by
  rw [cost, ceil_le_iff (by omega), le_bought_iff (by omega), mul_comm]

/-- What is bought is paid for: the product of the reserves does not decrease. -/
theorem mul_le_mul_bought (h : 0 < quote + x) :
    base * quote ≤ (base - bought base quote x) * (quote + x) := by
  have hpaid : bought base quote x * quote ≤ x * (base - bought base quote x) :=
    (le_bought_iff h).1 le_rfl
  linarith

end SolTrade.Library.ConstantProduct
