import Mathlib.Tactic.Common
import Mathlib.Tactic.Linarith

/-!
Bisection for the last point of an interval at which a test holds.
-/

namespace SolTrade.Library

/-- The loop `while lo < hi` that halves the interval, at most `n` times. -/
def bisectLast (p : ℤ → Bool) : ℕ → ℤ → ℤ → ℤ
  | 0, lo, _ => lo
  | n + 1, lo, hi =>
      if lo < hi then
        if p ((lo + hi + 1) / 2) then bisectLast p n ((lo + hi + 1) / 2) hi
        else bisectLast p n lo ((lo + hi + 1) / 2 - 1)
      else lo

/-- With `n` halvings enough for the interval, the loop ends at a point where the
test holds and which is the end of the interval or is followed by a point where
it fails. -/
theorem bisectLast_spec (p : ℤ → Bool) (n : ℕ) {lo hi : ℤ} (hlo : p lo = true)
    (hle : lo ≤ hi) (hn : hi - lo < 2 ^ n) :
    lo ≤ bisectLast p n lo hi ∧ bisectLast p n lo hi ≤ hi ∧
      p (bisectLast p n lo hi) = true ∧
      (bisectLast p n lo hi = hi ∨ p (bisectLast p n lo hi + 1) = false) := by
  induction n generalizing lo hi with
  | zero =>
      have : hi = lo := by simp at hn; omega
      subst this
      exact ⟨le_rfl, le_rfl, hlo, .inl rfl⟩
  | succ n ih =>
      rw [pow_succ] at hn
      simp only [bisectLast]
      split
      · rename_i hlt
        split
        · rename_i hmid
          obtain ⟨h₁, h₂, h₃, h₄⟩ := @ih ((lo + hi + 1) / 2) hi hmid (by omega) (by omega)
          exact ⟨by omega, h₂, h₃, h₄⟩
        · rename_i hmid
          obtain ⟨h₁, h₂, h₃, h₄⟩ := @ih lo ((lo + hi + 1) / 2 - 1) hlo (by omega) (by omega)
          refine ⟨h₁, by omega, h₃, .inr ?_⟩
          rcases h₄ with hend | hfail
          · rw [hend, sub_add_cancel]
            simpa using hmid
          · exact hfail
      · have : hi = lo := by omega
        subst this
        exact ⟨le_rfl, le_rfl, hlo, .inl rfl⟩

end SolTrade.Library
