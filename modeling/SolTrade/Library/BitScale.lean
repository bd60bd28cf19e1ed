import Mathlib.Data.Nat.Bitwise
import Mathlib.Tactic.Linarith
import Mathlib.Tactic.Ring

/-!
Powers by repeated squaring in truncated fixed-point arithmetic.

`bitScale d fs n x` multiplies `x` by the `i`-th factor over `d`, rounding down,
for every set bit `i` of `n`. With factors that approximate `q ^ (2 ^ i)` it
approximates `x * q ^ n`; whether it is monotone in `n` depends on the factors,
since passing from `n` to `n + 1` replaces a run of factors by the next one. The
rounding loses too little to undo that replacement as soon as the two sides
differ by a gap, and the gap is a finite computation on the list of factors.
-/

namespace SolTrade.Library

def bitScale (d : ℕ) : List ℕ → ℕ → ℕ → ℕ
  | [], _, x => x
  | f :: fs, n, x => bitScale d fs (n / 2) (if n % 2 = 1 then x * f / d else x)

namespace BitScale

variable {d : ℕ}

theorem mono (fs : List ℕ) (n : ℕ) {x y : ℕ} (h : x ≤ y) :
    bitScale d fs n x ≤ bitScale d fs n y := by
  induction fs generalizing n x y with
  | nil => exact h
  | cons f fs ih =>
      simp only [bitScale]
      apply ih
      split
      · exact Nat.div_le_div_right (Nat.mul_le_mul_right f h)
      · exact h

theorem div_add_div_le (a b d : ℕ) : a / d + b / d ≤ (a + b) / d := by
  rcases Nat.eq_zero_or_pos d with rfl | hd
  · simp
  · rw [Nat.le_div_iff_mul_le hd, Nat.add_mul]
    exact Nat.add_le_add (Nat.div_mul_le_self a d) (Nat.div_mul_le_self b d)

/-- A gap between two arguments is scaled like an argument of its own. -/
theorem add_le (fs : List ℕ) (n x g : ℕ) :
    bitScale d fs n x + bitScale d fs n g ≤ bitScale d fs n (x + g) := by
  induction fs generalizing n x g with
  | nil => exact le_rfl
  | cons f fs ih =>
      simp only [bitScale]
      split
      · refine (ih _ _ _).trans (mono fs _ ?_)
        rw [Nat.add_mul]
        exact div_add_div_le _ _ _
      · exact ih _ _ _

theorem le_self (fs : List ℕ) (hfs : ∀ f ∈ fs, f ≤ d) (n x : ℕ) : bitScale d fs n x ≤ x := by
  induction fs generalizing n x with
  | nil => exact le_rfl
  | cons f fs ih =>
      have ih := ih (fun g hg => hfs g (List.mem_cons_of_mem f hg))
      have hf : f ≤ d := hfs f List.mem_cons_self
      simp only [bitScale]
      split
      · refine (ih _ _).trans (Nat.div_le_of_le_mul ?_)
        rw [Nat.mul_comm]
        exact Nat.mul_le_mul_right x hf
      · exact ih _ _

/-- The smallest scaling of `x` by factors at most one: every bit is set. -/
def scaleAll (d : ℕ) : List ℕ → ℕ → ℕ
  | [], x => x
  | f :: fs, x => scaleAll d fs (x * f / d)

theorem scaleAll_mono (fs : List ℕ) {x y : ℕ} (h : x ≤ y) : scaleAll d fs x ≤ scaleAll d fs y := by
  induction fs generalizing x y with
  | nil => exact h
  | cons f fs ih => exact ih (Nat.div_le_div_right (Nat.mul_le_mul_right f h))

theorem scaleAll_le (fs : List ℕ) (hfs : ∀ f ∈ fs, f ≤ d) (n x : ℕ) :
    scaleAll d fs x ≤ bitScale d fs n x := by
  induction fs generalizing n x with
  | nil => exact le_rfl
  | cons f fs ih =>
      have ih := ih (fun g hg => hfs g (List.mem_cons_of_mem f hg))
      have hf : f ≤ d := hfs f List.mem_cons_self
      simp only [scaleAll, bitScale]
      refine le_trans ?_ (ih _ _)
      apply scaleAll_mono
      split
      · exact le_rfl
      · apply Nat.div_le_of_le_mul
        rw [Nat.mul_comm]
        exact Nat.mul_le_mul_right x hf

/-- Factors at least one only widen a gap. -/
theorem self_le (fs : List ℕ) (hd : 0 < d) (hfs : ∀ f ∈ fs, d ≤ f) (n x : ℕ) :
    x ≤ bitScale d fs n x := by
  induction fs generalizing n x with
  | nil => exact le_rfl
  | cons f fs ih =>
      have ih := ih (fun g hg => hfs g (List.mem_cons_of_mem f hg))
      have hf : d ≤ f := hfs f List.mem_cons_self
      simp only [bitScale]
      split
      · refine le_trans ?_ (ih _ _)
        rw [Nat.le_div_iff_mul_le hd]
        exact Nat.mul_le_mul_left x hf
      · exact ih _ _

/-- For every length of a run of trailing ones: replacing the factors of the run
by the next factor lowers the value by a gap that survives the remaining ones. -/
def stepsDown (d : ℕ) : List ℕ → ℕ → ℕ → Bool
  | [], _, _ => true
  | f :: fs, x, y =>
      decide (x * f / d ≤ y) && decide (1 ≤ scaleAll d fs (y - x * f / d)) &&
        stepsDown d fs x (y * f / d)

/-- Replacing the factors of a run by the next factor raises the value by at
least `gap`. -/
def stepsUp (d gap : ℕ) : List ℕ → ℕ → ℕ → Bool
  | [], _, _ => true
  | f :: fs, x, y => decide (y + gap ≤ x * f / d) && stepsUp d gap fs x (y * f / d)

theorem succ_lt_of_stepsDown (fs : List ℕ) (hfs : ∀ f ∈ fs, f ≤ d) {n x y : ℕ}
    (hgap : stepsDown d fs x y = true) (hn : n + 1 < 2 ^ fs.length) :
    bitScale d fs (n + 1) x < bitScale d fs n y := by
  induction fs generalizing n y with
  | nil => simp at hn
  | cons f fs ih =>
      have hfs' : ∀ g ∈ fs, g ≤ d := fun g hg => hfs g (List.mem_cons_of_mem f hg)
      simp only [stepsDown, Bool.and_eq_true, decide_eq_true_eq] at hgap
      obtain ⟨⟨hle, hgap₁⟩, hrest⟩ := hgap
      rw [List.length_cons, Nat.pow_succ] at hn
      rcases Nat.even_or_odd' n with ⟨m, rfl | rfl⟩
      · have h₁ : (2 * m + 1) / 2 = m := by omega
        have h₂ : (2 * m + 1) % 2 = 1 := by omega
        have h₃ : 2 * m / 2 = m := by omega
        have h₄ : ¬ 2 * m % 2 = 1 := by omega
        simp only [bitScale, h₁, h₂, h₃, h₄, if_true, if_false]
        have hsum := add_le (d := d) fs m (x * f / d) (y - x * f / d)
        rw [Nat.add_sub_cancel' hle] at hsum
        have := scaleAll_le fs hfs' m (y - x * f / d)
        omega
      · have h₁ : (2 * m + 1 + 1) / 2 = m + 1 := by omega
        have h₂ : ¬ (2 * m + 1 + 1) % 2 = 1 := by omega
        have h₃ : (2 * m + 1) / 2 = m := by omega
        have h₄ : (2 * m + 1) % 2 = 1 := by omega
        simp only [bitScale, h₁, h₂, h₃, h₄, if_true, if_false]
        exact ih hfs' hrest (by omega)

theorem add_gap_le_succ_of_stepsUp (fs : List ℕ) (hd : 0 < d) (hfs : ∀ f ∈ fs, d ≤ f)
    {n x y gap : ℕ} (hgap : stepsUp d gap fs x y = true) (hn : n + 1 < 2 ^ fs.length) :
    bitScale d fs n y + gap ≤ bitScale d fs (n + 1) x := by
  induction fs generalizing n y with
  | nil => simp at hn
  | cons f fs ih =>
      have hfs' : ∀ g ∈ fs, d ≤ g := fun g hg => hfs g (List.mem_cons_of_mem f hg)
      simp only [stepsUp, Bool.and_eq_true, decide_eq_true_eq] at hgap
      obtain ⟨hle, hrest⟩ := hgap
      rw [List.length_cons, Nat.pow_succ] at hn
      rcases Nat.even_or_odd' n with ⟨m, rfl | rfl⟩
      · have h₁ : (2 * m + 1) / 2 = m := by omega
        have h₂ : (2 * m + 1) % 2 = 1 := by omega
        have h₃ : 2 * m / 2 = m := by omega
        have h₄ : ¬ 2 * m % 2 = 1 := by omega
        simp only [bitScale, h₁, h₂, h₃, h₄, if_true, if_false]
        calc bitScale d fs m y + gap
            ≤ bitScale d fs m y + bitScale d fs m gap :=
              Nat.add_le_add_left (self_le fs hd hfs' m gap) _
          _ ≤ bitScale d fs m (y + gap) := add_le fs m y gap
          _ ≤ bitScale d fs m (x * f / d) := mono fs m hle
      · have h₁ : (2 * m + 1 + 1) / 2 = m + 1 := by omega
        have h₂ : ¬ (2 * m + 1 + 1) % 2 = 1 := by omega
        have h₃ : (2 * m + 1) / 2 = m := by omega
        have h₄ : (2 * m + 1) % 2 = 1 := by omega
        simp only [bitScale, h₁, h₂, h₃, h₄, if_true, if_false]
        exact ih hfs' hrest (by omega)

/-- The loop over the bit positions that programs write computes `bitScale`. -/
theorem foldl_zipIdx (k n : ℕ) (fs : List ℕ) (w x : ℕ) :
    (fs.zipIdx k).foldl
        (fun ratio fb => if n &&& (1 <<< fb.2) ≠ 0 then (ratio * fb.1) >>> w else ratio) x =
      bitScale (2 ^ w) fs (n / 2 ^ k) x := by
  induction fs generalizing k x with
  | nil => rfl
  | cons f fs ih =>
      have hbit : (n &&& (1 <<< k) ≠ 0) ↔ n / 2 ^ k % 2 = 1 := by
        rw [Nat.one_shiftLeft, Nat.and_two_pow]
        cases h : n.testBit k <;>
          simp [Nat.testBit_eq_decide_div_mod_eq] at h <;> simp [h]
      simp only [List.zipIdx_cons, List.foldl_cons, bitScale]
      rw [ih, Nat.pow_succ, ← Nat.div_div_eq_div_mul]
      simp only [hbit, Nat.shiftRight_eq_div_pow]

end BitScale

end SolTrade.Library
