import Mathlib.Order.Monotone.Basic
import SolTrade.Library.BitScale
import SolTrade.Library.PriceTable
import SolTrade.Numeric

/-!
Tick prices of the CLMM and their inverse.

The price of a tick is a truncated product over the bits of the tick's absolute
value. It is strictly increasing over the whole tick range, which no unit in the
loops below could do without: it makes a price interval out of every tick and a
position out of every price.
-/

namespace SolTrade.Clmm

open Library

def minTick : ℤ := -443636
def maxTick : ℤ := 443636
def minSqrtPrice : ℤ := 4295048016
def maxSqrtPrice : ℤ := 79226673521066979257578248091

def factors : List ℕ :=
  [0xFFFCB933BD6FB800, 0xFFF97272373D4000, 0xFFF2E50F5F657000, 0xFFE5CACA7E10F000,
    0xFFCB9843D60F7000, 0xFF973B41FA98E800, 0xFF2EA16466C9B000, 0xFE5DEE046A9A3800,
    0xFCBE86C7900BB000, 0xF987A7253AC65800, 0xF3392B0822BB6000, 0xE7159475A2CAF000,
    0xD097F3BDFD2F2000, 0xA9F746462D9F8000, 0x70D869A156F31C00, 0x31BE135F97ED3200,
    0x9AA508B5B85A500, 0x5D6AF8DEDC582C, 0x2216E584F5FA]

/-- The ratio of a tick's absolute value, one truncated product per set bit. -/
def tickRatio (n : ℕ) : ℕ :=
  factors.zipIdx.foldl
    (fun ratio fb => if n &&& (1 <<< fb.2) ≠ 0 then (ratio * fb.1) >>> 64 else ratio) (2 ^ 64)

/-- The price of a tick that has passed the range check. -/
def tickPrice (tick : ℤ) : ℤ :=
  if 0 < tick then u128 / tickRatio tick.natAbs else tickRatio tick.natAbs

def clmmSqrtPriceAtTick (tick : ℤ) : Except ValueError ℤ := do
  require (minTick ≤ tick ∧ tick ≤ maxTick) .clmmTickOutsideRange
  return tickPrice tick

/-- Twenty halvings exhaust the tick range (`clmmTickAtSqrtPrice_spec`); every
tick tested lies in it, so its price is read without the range check. -/
def clmmTickAtSqrtPrice (price : ℤ) : Except ValueError ℤ := do
  let _ ← unsigned price u128
  require (minSqrtPrice ≤ price ∧ price < maxSqrtPrice) .clmmPriceOutsideRange
  return bisectLast (fun middle => decide (tickPrice middle ≤ price)) 20 minTick maxTick

theorem tickRatio_eq_bitScale (n : ℕ) : tickRatio n = bitScale (2 ^ 64) factors n (2 ^ 64) := by
  unfold tickRatio
  rw [BitScale.foldl_zipIdx 0 n factors 64, Nat.pow_zero, Nat.div_one]

theorem factors_le : ∀ f ∈ factors, f ≤ 2 ^ 64 := by decide

theorem factors_stepsDown :
    BitScale.stepsDown (2 ^ 64) factors (2 ^ 64) (2 ^ 64) = true := by decide +kernel

theorem tickRatio_succ_lt {n : ℕ} (hn : n < 443636) : tickRatio (n + 1) < tickRatio n := by
  rw [tickRatio_eq_bitScale, tickRatio_eq_bitScale]
  refine BitScale.succ_lt_of_stepsDown factors factors_le factors_stepsDown ?_
  have : (2 : ℕ) ^ factors.length = 524288 := by decide
  omega

theorem tickRatio_le (n : ℕ) : tickRatio n ≤ 2 ^ 64 := by
  rw [tickRatio_eq_bitScale]
  exact BitScale.le_self factors factors_le n (2 ^ 64)

theorem tickRatio_last : tickRatio 443636 = 4295048016 := by decide +kernel

theorem tickRatio_strictAnti {m n : ℕ} (hmn : m < n) (hn : n ≤ 443636) :
    tickRatio n < tickRatio m := by
  induction n with
  | zero => omega
  | succ n ih =>
      have hlt : tickRatio (n + 1) < tickRatio n := tickRatio_succ_lt (by omega)
      rcases Nat.lt_or_eq_of_le (Nat.le_of_lt_succ hmn) with h | rfl
      · exact hlt.trans (ih h (by omega))
      · exact hlt

theorem tickRatio_ge {n : ℕ} (hn : n ≤ 443636) : 4295048016 ≤ tickRatio n := by
  rw [← tickRatio_last]
  rcases Nat.lt_or_eq_of_le hn with h | rfl
  · exact (tickRatio_strictAnti h le_rfl).le
  · exact le_rfl

/-- Reciprocals of distinct ratios below `2 ^ 64` differ by more than one unit. -/
theorem reciprocal_lt {a b : ℤ} (ha : 0 < a) (hab : a < b) (hb : b ≤ 2 ^ 64) :
    u128 / b < u128 / a := by
  have hb0 : 0 < b := ha.trans hab
  rw [← Int.add_one_le_iff, Rounding.le_floor_iff ha]
  have hq : u128 / b * b ≤ u128 := Rounding.floor_mul_le u128 hb0
  by_contra hcon
  rw [not_le] at hcon
  have hu : u128 = 2 ^ 128 - 1 := rfl
  have hq0 : 0 ≤ u128 / b := Int.ediv_nonneg (by decide) hb0.le
  -- `q * b ≤ u128 < (q + 1) * a` with `a ≤ b - 1` leaves `q + 1 < b`, too small for `u128`
  have h₁ : (u128 / b + 1) * a ≤ (u128 / b + 1) * (b - 1) :=
    mul_le_mul_of_nonneg_left (by omega) (by omega)
  nlinarith

theorem tickPrice_of_nonpos {t : ℤ} (ht : t ≤ 0) : tickPrice t = tickRatio t.natAbs := by
  rw [tickPrice, if_neg (by omega)]

theorem tickPrice_of_pos {t : ℤ} (ht : 0 < t) : tickPrice t = u128 / tickRatio t.natAbs := by
  rw [tickPrice, if_pos ht]

/-- From tick one on, prices are above the price of tick zero. -/
theorem lt_tickPrice_of_pos {t : ℤ} (ht : 0 < t) (hmax : t ≤ maxTick) : 2 ^ 64 < tickPrice t := by
  have hmax' : t ≤ 443636 := hmax
  have hratio : tickRatio t.natAbs ≤ tickRatio 1 := by
    rcases Nat.lt_or_ge 1 t.natAbs with h | h
    · exact (tickRatio_strictAnti h (by omega)).le
    · rw [show t.natAbs = 1 by omega]
  have hone : tickRatio 1 = 18445821805675395072 := by decide +kernel
  have hge := tickRatio_ge (n := t.natAbs) (by omega)
  rw [tickPrice_of_pos ht]
  rw [← Int.add_one_le_iff, Rounding.le_floor_iff (by omega)]
  have hu : u128 = 2 ^ 128 - 1 := rfl
  omega

theorem tickPrice_strictMono {a b : ℤ} (ha : minTick ≤ a) (hab : a < b) (hb : b ≤ maxTick) :
    tickPrice a < tickPrice b := by
  have ha' : -443636 ≤ a := ha
  have hb' : b ≤ 443636 := hb
  rcases lt_or_ge 0 a with ha0 | ha0
  · rw [tickPrice_of_pos ha0, tickPrice_of_pos (ha0.trans hab)]
    have hlt := tickRatio_strictAnti (m := a.natAbs) (n := b.natAbs) (by omega) (by omega)
    have hge := tickRatio_ge (n := b.natAbs) (by omega)
    have hle := tickRatio_le a.natAbs
    exact reciprocal_lt (by omega) (by omega) (by exact_mod_cast hle)
  · rcases lt_or_ge 0 b with hb0 | hb0
    · have hle := tickRatio_le a.natAbs
      have hlt := lt_tickPrice_of_pos hb0 hb
      rw [tickPrice_of_nonpos ha0]
      exact lt_of_le_of_lt (by exact_mod_cast hle) hlt
    · rw [tickPrice_of_nonpos ha0, tickPrice_of_nonpos hb0]
      exact_mod_cast tickRatio_strictAnti (m := b.natAbs) (n := a.natAbs) (by omega) (by omega)

theorem minTick_le_maxTick : minTick ≤ maxTick := by decide

/-- The tick prices as a table. -/
def tickTable : PriceTable :=
  { value := tickPrice, lo := minTick, hi := maxTick, nonempty := minTick_le_maxTick
    increasing := tickPrice_strictMono }

theorem tickPrice_minTick : tickPrice minTick = minSqrtPrice := by decide +kernel

theorem tickPrice_maxTick : tickPrice maxTick = maxSqrtPrice := by decide +kernel

@[simp] theorem clmmSqrtPriceAtTick_eq_ok {t p : ℤ} :
    clmmSqrtPriceAtTick t = .ok p ↔ (minTick ≤ t ∧ t ≤ maxTick) ∧ tickPrice t = p := by
  simp only [clmmSqrtPriceAtTick, bind_eq_ok, require_eq_ok, pure_eq_ok]
  simp

/-- The tick of a price: the price lies in the tick's half-open price interval. -/
theorem clmmTickAtSqrtPrice_spec {p t : ℤ} (h : clmmTickAtSqrtPrice p = .ok t) :
    tickTable.Holds t p ∧ p < tickTable.value tickTable.hi := by
  simp only [clmmTickAtSqrtPrice, bind_eq_ok, unsigned_eq_ok, require_eq_ok, pure_eq_ok] at h
  obtain ⟨_, _, _, ⟨hlo, hhi⟩, rfl⟩ := h
  rw [← tickPrice_minTick] at hlo
  rw [← tickPrice_maxTick] at hhi
  exact ⟨tickTable.holds_bisectLast (by decide) hlo, hhi⟩

/-- The accepted prices. -/
theorem clmmTickAtSqrtPrice_defined {p : ℤ} :
    (∃ t, clmmTickAtSqrtPrice p = .ok t) ↔ minSqrtPrice ≤ p ∧ p < maxSqrtPrice := by
  have hmin : minSqrtPrice = 4295048016 := rfl
  have hmax : maxSqrtPrice = 79226673521066979257578248091 := rfl
  have hu : u128 = 340282366920938463463374607431768211455 := rfl
  simp only [clmmTickAtSqrtPrice, bind_eq_ok, unsigned_eq_ok, require_eq_ok, pure_eq_ok]
  constructor
  · rintro ⟨_, _, _, _, hrange, -⟩
    exact hrange
  · intro hrange
    exact ⟨_, _, ⟨⟨by omega, by omega⟩, rfl⟩, (), hrange, rfl⟩

theorem clmm_floorInverse :
    PriceTable.FloorInverse minTick maxTick clmmSqrtPriceAtTick clmmTickAtSqrtPrice :=
  PriceTable.floorInverse (T := tickTable) clmmSqrtPriceAtTick_eq_ok
    fun h => (clmmTickAtSqrtPrice_spec h).1

/-- A tick and a price fit together: the price lies in the closed price interval
of the tick. The tick above must exist. -/
def TickConsistent (tick price : ℤ) : Prop := tickTable.Brackets tick price

instance (tick price : ℤ) : Decidable (TickConsistent tick price) :=
  inferInstanceAs (Decidable (tickTable.Brackets tick price))

end SolTrade.Clmm
