import Mathlib.Algebra.Order.Field.Basic
import SolTrade.Library.Direction

/-!
Exact token amounts on a curve of constant liquidity.

At the square-root price `p` the liquidity `L` is backed by `L / p` of the first
token and `L * p` of the second. A price move exchanges the differences, so the
amounts of two moves that follow each other in one direction add up; that a
longer move exchanges more, and that a move back over part of the way returns at
most what was paid, are read off this sum.
-/

namespace SolTrade.Library.ConstantLiquidity

variable {K : Type} [Field K]

/-- The amount of one token between two prices, the lower one first. -/
def between (L low high : K) (token0 : Bool) : K :=
  if token0 then L / low - L / high else L * high - L * low

theorem between_add (L a b c : K) (token0 : Bool) :
    between L a b token0 + between L b c token0 = between L a c token0 := by
  cases token0 <;> simp [between]

variable [LinearOrder K]

/-- The amount of one token that a move between two prices exchanges. -/
def moved (L a b : K) (token0 : Bool) : K := between L (min a b) (max a b) token0

theorem moved_comm (L a b : K) (token0 : Bool) : moved L a b token0 = moved L b a token0 := by
  rw [moved, moved, min_comm, max_comm]

variable {L a b c : K} {token0 down : Bool}

/-- Two moves in one direction add up. -/
theorem moved_add (hab : Beyond down a b) (hbc : Beyond down b c) :
    moved L a b token0 + moved L b c token0 = moved L a c token0 := by
  have hac := hab.trans hbc
  cases down with
  | true =>
      simp only [beyond_true] at hab hbc hac
      simp only [moved, min_eq_right hab, max_eq_left hab, min_eq_right hbc, max_eq_left hbc,
        min_eq_right hac, max_eq_left hac]
      rw [add_comm, between_add]
  | false =>
      simp only [beyond_false] at hab hbc hac
      simp only [moved, min_eq_left hab, max_eq_right hab, min_eq_left hbc, max_eq_right hbc,
        min_eq_left hac, max_eq_right hac]
      exact between_add L a b c token0

variable [IsStrictOrderedRing K]

theorem between_nonneg (hL : 0 ≤ L) (ha : 0 < a) (hab : a ≤ b) : 0 ≤ between L a b token0 := by
  cases token0 with
  | true =>
      simp only [between, if_true, sub_nonneg]
      exact div_le_div_of_nonneg_left hL ha hab
  | false =>
      simp only [between, Bool.false_eq_true, if_false, sub_nonneg]
      exact mul_le_mul_of_nonneg_left hab hL

theorem between_pos (hL : 0 < L) (ha : 0 < a) (hab : a < b) : 0 < between L a b token0 := by
  cases token0 with
  | true =>
      simp only [between, if_true, sub_pos]
      exact div_lt_div_of_pos_left hL ha hab
  | false =>
      simp only [between, Bool.false_eq_true, if_false, sub_pos]
      exact mul_lt_mul_of_pos_left hab hL

theorem moved_nonneg (hL : 0 ≤ L) (ha : 0 < a) (hb : 0 < b) : 0 ≤ moved L a b token0 :=
  between_nonneg hL (lt_min ha hb) min_le_max

theorem moved_pos (token0 : Bool) (hL : 0 < L) (ha : 0 < a) (hb : 0 < b) (hab : a ≠ b) :
    0 < moved L a b token0 :=
  between_pos hL (lt_min ha hb) (min_lt_max.2 hab)

/-- A longer move exchanges at least as much. -/
theorem moved_mono (hL : 0 ≤ L) (hb : 0 < b) (hc : 0 < c) (hab : Beyond down a b)
    (hbc : Beyond down b c) : moved L a b token0 ≤ moved L a c token0 := by
  rw [← moved_add hab hbc]
  exact le_add_of_nonneg_right (moved_nonneg hL hb hc)

/-- A move that exchanges no more goes no further. -/
theorem beyond_of_moved_le (hL : 0 < L) (hb : 0 < b) (hc : 0 < c) (hac : Beyond down a c)
    (h : moved L a b token0 ≤ moved L a c token0) : Beyond down b c := by
  by_contra hcb
  rw [not_beyond] at hcb
  have hpos := moved_pos token0 hL hc hb hcb.ne
  rw [← moved_add hac hcb.beyond] at h
  exact absurd hpos (not_lt.2 (by simpa using h))

end SolTrade.Library.ConstantLiquidity
