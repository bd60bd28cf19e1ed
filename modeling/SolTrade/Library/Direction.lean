import Mathlib.Order.MinMax
import Mathlib.Tactic.Common

/-!
Motion along a line in one of two directions.

`down = true` moves towards smaller values. `Beyond down a b` says that `b` lies
at or beyond `a`; it is the order or its dual, so that a statement about motion
is made once for both directions. `nearer` is the one of two targets that is met
first.
-/

namespace SolTrade.Library

variable {α : Type} [LinearOrder α]

/-- `b` is at `a` or further in the direction of motion. -/
def Beyond (down : Bool) (a b : α) : Prop :=
  match down with
  | true => b ≤ a
  | false => a ≤ b

/-- `b` is strictly further than `a` in the direction of motion. -/
def StrictlyBeyond (down : Bool) (a b : α) : Prop :=
  match down with
  | true => b < a
  | false => a < b

instance (down : Bool) (a b : α) : Decidable (Beyond down a b) :=
  match down with
  | true => inferInstanceAs (Decidable (b ≤ a))
  | false => inferInstanceAs (Decidable (a ≤ b))

instance (down : Bool) (a b : α) : Decidable (StrictlyBeyond down a b) :=
  match down with
  | true => inferInstanceAs (Decidable (b < a))
  | false => inferInstanceAs (Decidable (a < b))

/-- The target met first by a motion towards both. -/
def nearer (down : Bool) (a b : α) : α :=
  if down then max a b else min a b

@[simp] theorem beyond_true {a b : α} : Beyond true a b ↔ b ≤ a := Iff.rfl
@[simp] theorem beyond_false {a b : α} : Beyond false a b ↔ a ≤ b := Iff.rfl
@[simp] theorem strictlyBeyond_true {a b : α} : StrictlyBeyond true a b ↔ b < a := Iff.rfl
@[simp] theorem strictlyBeyond_false {a b : α} : StrictlyBeyond false a b ↔ a < b := Iff.rfl
@[simp] theorem nearer_true (a b : α) : nearer true a b = max a b := rfl
@[simp] theorem nearer_false (a b : α) : nearer false a b = min a b := rfl

variable {down : Bool} {a b c : α}

theorem Beyond.refl (down : Bool) (a : α) : Beyond down a a := by
  cases down <;> simp

theorem Beyond.trans (hab : Beyond down a b) (hbc : Beyond down b c) : Beyond down a c := by
  cases down
  · exact le_trans hab hbc
  · exact le_trans (α := α) hbc hab

theorem Beyond.antisymm (hab : Beyond down a b) (hba : Beyond down b a) : a = b := by
  cases down
  · exact le_antisymm hab hba
  · exact le_antisymm hba hab

/-- Motion the other way. -/
theorem beyond_not : Beyond (!down) a b ↔ Beyond down b a := by
  cases down <;> rfl

theorem beyond_total (down : Bool) (a b : α) : Beyond down a b ∨ Beyond down b a := by
  cases down
  · exact le_total a b
  · exact le_total b a

theorem not_beyond : ¬ Beyond down a b ↔ StrictlyBeyond down b a := by
  cases down <;> simp

theorem strictlyBeyond_iff : StrictlyBeyond down a b ↔ Beyond down a b ∧ a ≠ b := by
  cases down
  · exact lt_iff_le_and_ne
  · exact lt_iff_le_and_ne.trans (and_congr_right' ne_comm)

theorem StrictlyBeyond.beyond (h : StrictlyBeyond down a b) : Beyond down a b :=
  (strictlyBeyond_iff.1 h).1

theorem StrictlyBeyond.ne (h : StrictlyBeyond down a b) : a ≠ b :=
  (strictlyBeyond_iff.1 h).2

theorem Beyond.trans_strictly (hab : Beyond down a b) (hbc : StrictlyBeyond down b c) :
    StrictlyBeyond down a c := by
  cases down
  · exact lt_of_le_of_lt hab hbc
  · exact lt_of_lt_of_le (α := α) hbc hab

theorem StrictlyBeyond.trans_beyond (hab : StrictlyBeyond down a b) (hbc : Beyond down b c) :
    StrictlyBeyond down a c := by
  cases down
  · exact lt_of_lt_of_le hab hbc
  · exact lt_of_le_of_lt (α := α) hbc hab

theorem StrictlyBeyond.not_beyond (h : StrictlyBeyond down a b) : ¬ Beyond down b a := by
  rw [Library.not_beyond]
  exact h

/-- A bound on both ends of a motion bounds it throughout. -/
theorem le_of_between {bound : α} (ha : a ≤ bound) (hc : c ≤ bound) (hab : Beyond down a b)
    (hbc : Beyond down b c) : b ≤ bound := by
  cases down with
  | true => exact le_trans hab ha
  | false => exact le_trans hbc hc

theorem beyond_nearer_iff :
    Beyond down c (nearer down a b) ↔ Beyond down c a ∧ Beyond down c b := by
  cases down <;> simp

theorem nearer_beyond_left (down : Bool) (a b : α) : Beyond down (nearer down a b) a := by
  cases down <;> simp

theorem nearer_beyond_right (down : Bool) (a b : α) : Beyond down (nearer down a b) b := by
  cases down <;> simp

theorem nearer_eq_left (h : Beyond down a b) : nearer down a b = a := by
  cases down
  · exact min_eq_left h
  · exact max_eq_left h

theorem nearer_eq_right (h : Beyond down b a) : nearer down a b = b := by
  cases down
  · exact min_eq_right h
  · exact max_eq_right h

theorem nearer_eq_or (down : Bool) (a b : α) : nearer down a b = a ∨ nearer down a b = b :=
  (beyond_total down a b).imp nearer_eq_left nearer_eq_right

/-- A target further away changes which one is met first only where the old
target was met first itself. -/
theorem nearer_of_further (h : Beyond down a c) (b : α) :
    nearer down c b = nearer down a b ∨
      nearer down a b = a ∧ Beyond down a (nearer down c b) := by
  rcases beyond_total down a b with hab | hba
  · exact .inr ⟨nearer_eq_left hab, beyond_nearer_iff.2 ⟨h, hab⟩⟩
  · exact .inl (by rw [nearer_eq_right hba, nearer_eq_right (hba.trans h)])

end SolTrade.Library
