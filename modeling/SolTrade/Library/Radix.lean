import Mathlib.Data.Nat.Digits.Lemmas

/-!
Numerals with leading zeros.

A list of digits, the most significant one first, is a number of leading zeros and a numeric value.
Both together determine it, in every base; so rewriting digits in another base loses nothing.
-/

namespace SolTrade.Library.Radix

/-- The digits of `n` after `z` zeros. -/
def write (b z n : ℕ) : List ℕ := List.replicate z 0 ++ (Nat.digits b n).reverse

def leading (ds : List ℕ) : ℕ := (ds.takeWhile (· = 0)).length

def value (b : ℕ) (ds : List ℕ) : ℕ := Nat.ofDigits b ds.reverse

/-- The same leading zeros and the same value in another base. -/
def convert (a b : ℕ) (ds : List ℕ) : List ℕ := write b (leading ds) (value a ds)

variable {a b z n d : ℕ} {ds : List ℕ}

/-- The value is what one pass from the front adds up. -/
theorem value_eq_foldl (b : ℕ) (ds : List ℕ) : value b ds = ds.foldl (fun n d => n * b + d) 0 := by
  rw [value, Nat.ofDigits_eq_foldr, List.foldr_reverse]
  congr 1
  ext n d
  push_cast
  ring

theorem head_reverse_digits (h : (Nat.digits b n).reverse.head? = some d) : d ≠ 0 := by
  have hn : n ≠ 0 := by
    rintro rfl
    simp at h
  rw [List.head?_reverse, List.getLast?_eq_some_getLast (Nat.digits_ne_nil_iff_ne_zero.2 hn),
    Option.some.injEq] at h
  exact h ▸ Nat.getLast_digit_ne_zero b hn

theorem takeWhile_eq_nil (h : ∀ d, ds.head? = some d → d ≠ 0) : ds.takeWhile (· = 0) = [] := by
  cases ds with
  | nil => rfl
  | cons d ds => simp [h d rfl]

theorem leading_replicate_append (h : ∀ d, ds.head? = some d → d ≠ 0) :
    leading (List.replicate z 0 ++ ds) = z := by
  induction z with
  | zero => simp [leading, takeWhile_eq_nil h]
  | succ z ih =>
      rw [List.replicate_succ, List.cons_append, leading, List.takeWhile_cons_of_pos (by simp),
        List.length_cons]
      exact congrArg (· + 1) ih

theorem leading_write : leading (write b z n) = z :=
  leading_replicate_append fun _ => head_reverse_digits

theorem value_write : value b (write b z n) = n := by
  rw [value, write, List.reverse_append, List.reverse_reverse, List.reverse_replicate,
    Nat.ofDigits_append_replicate_zero, Nat.ofDigits_digits]

/-- Digits are their leading zeros followed by digits that do not begin with a zero. -/
theorem eq_replicate_append (ds : List ℕ) : ∃ rest, ds = List.replicate (leading ds) 0 ++ rest ∧
    ∀ d, rest.head? = some d → d ≠ 0 := by
  induction ds with
  | nil => exact ⟨[], by simp [leading]⟩
  | cons d ds ih =>
      by_cases hd : d = 0
      · obtain ⟨rest, hrest, hhead⟩ := ih
        refine ⟨rest, ?_, hhead⟩
        have hlead : leading (d :: ds) = leading ds + 1 := by simp [leading, hd]
        rw [hlead, List.replicate_succ, List.cons_append, ← hrest, hd]
      · refine ⟨d :: ds, by simp [leading, hd], ?_⟩
        rintro e he
        simp only [List.head?_cons, Option.some.injEq] at he
        exact he ▸ hd

theorem write_leading_value (hb : 1 < b) (h : ∀ d ∈ ds, d < b) :
    write b (leading ds) (value b ds) = ds := by
  obtain ⟨rest, hds, hhead⟩ := eq_replicate_append ds
  generalize leading ds = z at hds
  subst hds
  have hvalue : value b (List.replicate z 0 ++ rest) = Nat.ofDigits b rest.reverse := by
    rw [value, List.reverse_append, List.reverse_replicate, Nat.ofDigits_append_replicate_zero]
  have hdigits : Nat.digits b (Nat.ofDigits b rest.reverse) = rest.reverse := by
    apply Nat.digits_ofDigits b hb
    · intro d hd
      exact h d (List.mem_append_right _ (List.mem_reverse.1 hd))
    · intro hne
      apply hhead
      rw [← List.getLast?_reverse, List.getLast?_eq_some_getLast hne]
  rw [write, hvalue, hdigits, List.reverse_reverse]

theorem lt_of_mem_convert (hb : 1 < b) (hd : d ∈ convert a b ds) : d < b := by
  rw [convert, write, List.mem_append, List.mem_reverse] at hd
  rcases hd with hd | hd
  · rw [List.eq_of_mem_replicate hd]
    exact hb.trans' Nat.one_pos
  · exact Nat.digits_lt_base hb hd

/-- Converting to another base and back. -/
theorem convert_convert (ha : 1 < a) (h : ∀ d ∈ ds, d < a) : convert b a (convert a b ds) = ds := by
  rw [convert, convert, leading_write, value_write]
  exact write_leading_value ha h

end SolTrade.Library.Radix
