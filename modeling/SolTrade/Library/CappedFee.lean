import SolTrade.Library.Rounding

/-!
A proportional fee with a cap, and its inverse.

The forward fee is taken off a gross amount, the inverse one is put on top of a net amount. Both
are rounded up and capped. `le_rest_iff` says that the two belong together: the net amount with its
inverse fee is the least gross amount that leaves the net amount over.
-/

namespace SolTrade.Library.CappedFee

open Rounding

/-- The fee of `r / d` on a gross amount. -/
def forward (d r cap g : ℤ) : ℤ := min ((g * r + d - 1) / d) cap

/-- The fee on top of a net amount. When the whole amount is the fee, only the cap leaves
anything over. -/
def inverse (d r cap n : ℤ) : ℤ :=
  min (if r = d then cap else (n * r + (d - r) - 1) / (d - r)) cap

variable {d r cap g n : ℤ}

theorem le_sub_min_iff {a b c k : ℤ} : k ≤ a - min b c ↔ k ≤ a - b ∨ k ≤ a - c := by
  omega

/-- The gross amounts that leave a net amount over, without a cap. -/
theorem le_sub_ceil_iff (hd : 0 < d) (hr : r < d) :
    n ≤ g - (g * r + d - 1) / d ↔ n + (n * r + (d - r) - 1) / (d - r) ≤ g := by
  have hdr : 0 < d - r := by omega
  rw [sub_ceil_part g r hd, le_floor_iff hd, ← le_sub_iff_add_le', ceil_le_iff hdr]
  constructor <;> intro h <;> linarith

theorem le_rest_iff (hd : 0 < d) (hr : r ≤ d) (hn : 1 ≤ n) :
    n ≤ g - forward d r cap g ↔ n + inverse d r cap n ≤ g := by
  rw [forward, le_sub_min_iff, inverse]
  rcases hr.eq_or_lt with rfl | hlt
  · -- nothing is left over below the cap
    have hall : (g * r + r - 1) / r = g := by
      apply le_antisymm
      · exact (ceil_le_iff hd).2 le_rfl
      · exact le_of_mul_le_mul_right (le_ceil_mul (g * r) hd) hd
    rw [hall, if_pos rfl, min_self]
    omega
  · rw [if_neg hlt.ne, le_sub_ceil_iff hd hlt]
    omega

theorem inverse_nonneg (hr₀ : 0 ≤ r) (hr : r ≤ d) (hcap : 0 ≤ cap) (hn : 0 ≤ n) :
    0 ≤ inverse d r cap n := by
  rw [inverse]
  apply le_min _ hcap
  split_ifs with h
  · exact hcap
  · exact ceil_nonneg (by omega) (mul_nonneg hn hr₀)

/-- A fee is at most the amount. -/
theorem forward_le (hd : 0 < d) (hr : r ≤ d) (hg : 0 ≤ g) : forward d r cap g ≤ g :=
  (min_le_left _ _).trans (ceil_part_le hd hg hr)

end SolTrade.Library.CappedFee
