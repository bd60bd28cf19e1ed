import SolTrade.Library.CappedFee
import SolTrade.Route.ReserveQuotes

/-!
The transfer fee of a mint and its inverse.
-/

namespace SolTrade.LaunchLab

open Library
open Route (TokenTransferFee)

variable {f : TokenTransferFee} {amount n g x : ℤ}

/-- The fees that `calculate` accepts. -/
structure ValidFee (f : TokenTransferFee) : Prop where
  basisPoints_nonneg : 0 ≤ f.basisPoints
  basisPoints_le : f.basisPoints ≤ 10000
  maximumFee_nonneg : 0 ≤ f.maximumFee
  maximumFee_le : f.maximumFee ≤ u64

/-- The fee on an amount. -/
def feeOn (f : TokenTransferFee) (amount : ℤ) : ℤ :=
  CappedFee.forward 10000 f.basisPoints f.maximumFee amount

/-- The fee that leaves an amount over. -/
def feeOver (f : TokenTransferFee) (amount : ℤ) : ℤ :=
  CappedFee.inverse 10000 f.basisPoints f.maximumFee amount

/-- Without a rate or an amount there is no fee, which both formulas give as well. -/
theorem fee_of_zero (hf : ValidFee f) (h : f.basisPoints = 0 ∨ amount = 0) :
    feeOn f amount = 0 ∧ (f.basisPoints ≠ 10000 → feeOver f amount = 0) := by
  have hzero : amount * f.basisPoints = 0 := by
    rcases h with h | h <;> simp [h]
  have hcap := hf.maximumFee_nonneg
  refine ⟨?_, fun hrate => ?_⟩
  · rw [feeOn, CappedFee.forward, hzero, Rounding.ceil_zero (by norm_num)]
    exact min_eq_left hcap
  · have hrest : 0 < 10000 - f.basisPoints := by
      have := hf.basisPoints_le
      omega
    rw [feeOver, CappedFee.inverse, if_neg hrate, hzero, Rounding.ceil_zero hrest]
    exact min_eq_left hcap

theorem calculate_eq_ok :
    f.calculate amount = .ok x ↔ ValidFee f ∧ (0 ≤ amount ∧ amount ≤ u64) ∧ x = feeOn f amount := by
  simp only [TokenTransferFee.calculate, bind_eq_ok, unsigned_eq_ok, require_eq_ok,
    Bool.false_eq_true, if_false]
  constructor
  · rintro ⟨_, ⟨hamount, rfl⟩, _, ⟨hcap, rfl⟩, _, hrate, h⟩
    have hf : ValidFee f := ⟨hrate.1, hrate.2, hcap.1, hcap.2⟩
    refine ⟨hf, hamount, ?_⟩
    split_ifs at h with hzero
    · rw [(fee_of_zero hf hzero).1]
      exact (pure_eq_ok.1 h).symm
    · exact (pure_eq_ok.1 h).symm
  · rintro ⟨hf, hamount, rfl⟩
    refine ⟨_, ⟨hamount, rfl⟩, _, ⟨⟨hf.maximumFee_nonneg, hf.maximumFee_le⟩, rfl⟩, (),
      ⟨hf.basisPoints_nonneg, hf.basisPoints_le⟩, ?_⟩
    split_ifs with hzero
    · rw [(fee_of_zero hf hzero).1]
      rfl
    · rfl

/-- The inverse fee of a positive amount. -/
theorem calculate_inverse_eq_ok (hamount : amount ≠ 0) :
    f.calculate amount true = .ok x ↔
      ValidFee f ∧ (0 ≤ amount ∧ amount ≤ u64) ∧ x = feeOver f amount := by
  simp only [TokenTransferFee.calculate, bind_eq_ok, unsigned_eq_ok, require_eq_ok, if_true]
  by_cases hzero : f.basisPoints = 0 ∨ amount = 0
  · simp only [if_pos hzero, pure_eq_ok]
    constructor
    · rintro ⟨_, ⟨hrange, rfl⟩, _, ⟨hcap, rfl⟩, _, hrate, rfl⟩
      have hf : ValidFee f := ⟨hrate.1, hrate.2, hcap.1, hcap.2⟩
      exact ⟨hf, hrange, ((fee_of_zero hf hzero).2 (by omega)).symm⟩
    · rintro ⟨hf, hrange, rfl⟩
      exact ⟨_, ⟨hrange, rfl⟩, _, ⟨⟨hf.maximumFee_nonneg, hf.maximumFee_le⟩, rfl⟩, (),
        ⟨hf.basisPoints_nonneg, hf.basisPoints_le⟩, ((fee_of_zero hf hzero).2 (by omega)).symm⟩
  · simp only [if_neg hzero, pure_eq_ok]
    constructor
    · rintro ⟨_, ⟨hrange, rfl⟩, _, ⟨hcap, rfl⟩, _, hrate, rfl⟩
      exact ⟨⟨hrate.1, hrate.2, hcap.1, hcap.2⟩, hrange, rfl⟩
    · rintro ⟨hf, hrange, rfl⟩
      exact ⟨_, ⟨hrange, rfl⟩, _, ⟨⟨hf.maximumFee_nonneg, hf.maximumFee_le⟩, rfl⟩, (),
        ⟨hf.basisPoints_nonneg, hf.basisPoints_le⟩, rfl⟩

theorem le_rest_iff (hf : ValidFee f) (hn : 1 ≤ n) : n ≤ g - feeOn f g ↔ n + feeOver f n ≤ g :=
  CappedFee.le_rest_iff (by norm_num) hf.basisPoints_le hn

theorem feeOn_nonneg (hf : ValidFee f) (hg : 0 ≤ g) : 0 ≤ feeOn f g :=
  le_min (Rounding.ceil_nonneg (by norm_num) (mul_nonneg hg hf.basisPoints_nonneg))
    hf.maximumFee_nonneg

theorem feeOn_le (hf : ValidFee f) (hg : 0 ≤ g) : feeOn f g ≤ g :=
  CappedFee.forward_le (by norm_num) hf.basisPoints_le hg

/-- More leaves more after the fee. -/
theorem rest_mono (hf : ValidFee f) (hx : 0 ≤ x) (hxg : x ≤ g) : x - feeOn f x ≤ g - feeOn f g := by
  have hg := feeOn_le hf (hx.trans hxg)
  rcases lt_or_ge 0 (x - feeOn f x) with hpos | hnone
  · rw [le_rest_iff hf hpos]
    exact ((le_rest_iff hf hpos).1 le_rfl).trans hxg
  · omega

/-- A net amount with its inverse fee leaves the net amount over, and no smaller gross amount
does. -/
theorem calculate_inverse_least (hrate : 0 ≤ f.basisPoints ∧ f.basisPoints ≤ 10000)
    (hcap : 0 ≤ f.maximumFee ∧ f.maximumFee ≤ u64) (hn : 1 ≤ n ∧ n ≤ u64) :
    ∃ inverse, f.calculate n true = .ok inverse ∧ (n + inverse ≤ u64 →
      (∃ fee, f.calculate (n + inverse) = .ok fee ∧ n ≤ n + inverse - fee) ∧
        ∀ g fee, f.calculate g = .ok fee → n ≤ g - fee → n + inverse ≤ g) := by
  have hf : ValidFee f := ⟨hrate.1, hrate.2, hcap.1, hcap.2⟩
  have hover : 0 ≤ feeOver f n :=
    CappedFee.inverse_nonneg hrate.1 hrate.2 hcap.1 (by omega)
  refine ⟨feeOver f n, (calculate_inverse_eq_ok (by omega)).2 ⟨hf, ⟨by omega, hn.2⟩, rfl⟩, ?_⟩
  intro hfits
  constructor
  · refine ⟨_, calculate_eq_ok.2 ⟨hf, ⟨by omega, hfits⟩, rfl⟩, ?_⟩
    exact (le_rest_iff hf hn.1).2 le_rfl
  · intro g fee hfee hrest
    obtain ⟨-, -, rfl⟩ := calculate_eq_ok.1 hfee
    exact (le_rest_iff hf hn.1).1 hrest

/-- A fee of three percent and at most five units, on top of two hundred units. -/
theorem calculate_inverse_least_capped :
    ∃ inverse, (⟨300, 5⟩ : TokenTransferFee).calculate 200 true = .ok inverse ∧
      (200 + inverse ≤ u64 →
        (∃ fee, (⟨300, 5⟩ : TokenTransferFee).calculate (200 + inverse) = .ok fee ∧
          200 ≤ 200 + inverse - fee) ∧
          ∀ g fee, (⟨300, 5⟩ : TokenTransferFee).calculate g = .ok fee → 200 ≤ g - fee →
            200 + inverse ≤ g) :=
  calculate_inverse_least (f := ⟨300, 5⟩) (by decide) (by decide) (by decide)

end SolTrade.LaunchLab
