import Mathlib.Data.List.TakeWhile
import Mathlib.Order.Lattice
import Mathlib.Tactic.Common

/-!
Insertion points in ascending lists.

Both searches return the length of a prefix: of the elements up to `x` or of
those before `x`. What surrounds an insertion point is the nearest element on
either side.
-/

namespace SolTrade.Library

variable {α : Type} [LinearOrder α]

/-- The insertion point after the elements equal to `x`. -/
def bisectRight (xs : List α) (x : α) : ℕ := (xs.takeWhile (· ≤ x)).length

/-- The insertion point before the elements equal to `x`. -/
def bisectLeft (xs : List α) (x : α) : ℕ := (xs.takeWhile (· < x)).length

/-- A test that holds of an initial segment of an ascending list holds exactly of
the elements before the insertion point. -/
theorem test_iff_lt_takeWhile {p : α → Bool} (hp : ∀ y z, p y = true → z ≤ y → p z = true)
    {xs : List α} (hs : xs.Pairwise (· ≤ ·)) {i : ℕ} {y : α} (hy : xs[i]? = some y) :
    p y = true ↔ i < (xs.takeWhile p).length := by
  induction xs generalizing i with
  | nil => simp at hy
  | cons x xs ih =>
      obtain ⟨hle, hs⟩ := List.pairwise_cons.1 hs
      cases hx : p x with
      | true =>
          rw [List.takeWhile_cons_of_pos hx]
          cases i with
          | zero =>
              obtain rfl : x = y := by simpa using hy
              simp [hx]
          | succ i =>
              rw [List.getElem?_cons_succ] at hy
              simp [ih hs hy]
      | false =>
          rw [List.takeWhile_cons_of_neg (by simp [hx])]
          have hxy : x ≤ y := by
            rcases List.mem_cons.1 (List.mem_of_getElem? hy) with rfl | hmem
            · exact le_rfl
            · exact hle y hmem
          constructor
          · intro hpy
            rw [hp y x hpy hxy] at hx
            exact absurd hx (by decide)
          · simp

section Search

variable {xs : List α} {x y z : α} {i j : ℕ}

theorem le_iff_lt_bisectRight (hs : xs.Pairwise (· ≤ ·)) (hy : xs[i]? = some y) :
    y ≤ x ↔ i < bisectRight xs x := by
  rw [bisectRight, ← test_iff_lt_takeWhile (p := (· ≤ x)) ?_ hs hy, decide_eq_true_iff]
  intro a b ha hb
  simp only [decide_eq_true_eq] at ha ⊢
  exact hb.trans ha

theorem lt_iff_lt_bisectLeft (hs : xs.Pairwise (· ≤ ·)) (hy : xs[i]? = some y) :
    y < x ↔ i < bisectLeft xs x := by
  rw [bisectLeft, ← test_iff_lt_takeWhile (p := (· < x)) ?_ hs hy, decide_eq_true_iff]
  intro a b ha hb
  simp only [decide_eq_true_eq] at ha ⊢
  exact lt_of_le_of_lt hb ha

theorem getElem?_mono (hs : xs.Pairwise (· ≤ ·)) (hy : xs[i]? = some y) (hz : xs[j]? = some z)
    (hij : i ≤ j) : y ≤ z := by
  obtain ⟨hi, rfl⟩ := List.getElem?_eq_some_iff.1 hy
  obtain ⟨hj, rfl⟩ := List.getElem?_eq_some_iff.1 hz
  rcases hij.lt_or_eq with h | rfl
  · exact List.pairwise_iff_getElem.1 hs i j hi hj h
  · exact le_rfl

/-- After the insertion point stands the first larger element. -/
theorem first_after (hs : xs.Pairwise (· ≤ ·)) (hy : xs[bisectRight xs x]? = some y) :
    x < y ∧ ∀ z ∈ xs, x < z → y ≤ z := by
  refine ⟨not_le.1 fun h => absurd ((le_iff_lt_bisectRight hs hy).1 h) (lt_irrefl _), ?_⟩
  intro z hz hxz
  obtain ⟨j, hj⟩ := List.mem_iff_getElem?.1 hz
  exact getElem?_mono hs hy hj
    (not_lt.1 fun h => absurd ((le_iff_lt_bisectRight hs hj).2 h) (not_le.2 hxz))

theorem none_after (hs : xs.Pairwise (· ≤ ·)) (h : xs[bisectRight xs x]? = none) (hz : z ∈ xs) :
    z ≤ x := by
  obtain ⟨j, hj⟩ := List.mem_iff_getElem?.1 hz
  have hlt := (List.getElem?_eq_some_iff.1 hj).1
  have := List.getElem?_eq_none_iff.1 h
  exact (le_iff_lt_bisectRight hs hj).2 (by omega)

/-- Before the insertion point stands the last element up to `x`. -/
theorem last_upto (hs : xs.Pairwise (· ≤ ·)) (hi : i + 1 = bisectRight xs x)
    (hy : xs[i]? = some y) : y ≤ x ∧ ∀ z ∈ xs, z ≤ x → z ≤ y := by
  refine ⟨(le_iff_lt_bisectRight hs hy).2 (by omega), fun z hz hzx => ?_⟩
  obtain ⟨j, hj⟩ := List.mem_iff_getElem?.1 hz
  have := (le_iff_lt_bisectRight hs hj).1 hzx
  exact getElem?_mono hs hj hy (by omega)

theorem none_upto (hs : xs.Pairwise (· ≤ ·)) (h : bisectRight xs x = 0) (hz : z ∈ xs) : x < z := by
  obtain ⟨j, hj⟩ := List.mem_iff_getElem?.1 hz
  exact not_le.1 fun hle => by
    have := (le_iff_lt_bisectRight hs hj).1 hle
    omega

/-- Before the other insertion point stands the last smaller element. -/
theorem last_before (hs : xs.Pairwise (· ≤ ·)) (hi : i + 1 = bisectLeft xs x)
    (hy : xs[i]? = some y) : y < x ∧ ∀ z ∈ xs, z < x → z ≤ y := by
  refine ⟨(lt_iff_lt_bisectLeft hs hy).2 (by omega), fun z hz hzx => ?_⟩
  obtain ⟨j, hj⟩ := List.mem_iff_getElem?.1 hz
  have := (lt_iff_lt_bisectLeft hs hj).1 hzx
  exact getElem?_mono hs hj hy (by omega)

theorem none_before (hs : xs.Pairwise (· ≤ ·)) (h : bisectLeft xs x = 0) (hz : z ∈ xs) : x ≤ z := by
  obtain ⟨j, hj⟩ := List.mem_iff_getElem?.1 hz
  exact not_lt.1 fun hlt => by
    have := (lt_iff_lt_bisectLeft hs hj).1 hlt
    omega

theorem bisectRight_le_length (xs : List α) (x : α) : bisectRight xs x ≤ xs.length :=
  (List.takeWhile_sublist _).length_le

theorem bisectLeft_le_length (xs : List α) (x : α) : bisectLeft xs x ≤ xs.length :=
  (List.takeWhile_sublist _).length_le

end Search

end SolTrade.Library
