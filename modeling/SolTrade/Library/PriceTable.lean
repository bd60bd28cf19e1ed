import Mathlib.Order.MinMax
import SolTrade.Library.Bisection
import SolTrade.Library.Direction

/-!
Tables of integer values that increase strictly over an interval of indices.

The index of a value is not unique at the table's own entries: `Brackets` is the
closed relation that holds on both sides of an entry, `Holds` the half-open one
that a bisection decides. `edge` extends the table constantly beyond its ends.
-/

namespace SolTrade.Library

structure PriceTable where
  value : ℤ → ℤ
  lo : ℤ
  hi : ℤ
  nonempty : lo ≤ hi
  increasing : ∀ {a b : ℤ}, lo ≤ a → a < b → b ≤ hi → value a < value b

namespace PriceTable

section Order

variable (T : PriceTable) {a b : ℤ} {down : Bool}

theorem lt_iff (ha : T.lo ≤ a) (ha' : a ≤ T.hi) (hb : T.lo ≤ b) (hb' : b ≤ T.hi) :
    T.value a < T.value b ↔ a < b := by
  constructor
  · intro h
    by_contra hle
    rcases Int.lt_or_eq_of_le (not_lt.1 hle) with hlt | rfl
    · exact absurd (T.increasing hb hlt ha') h.asymm
    · exact lt_irrefl _ h
  · intro h
    exact T.increasing ha h hb'

theorem le_iff (ha : T.lo ≤ a) (ha' : a ≤ T.hi) (hb : T.lo ≤ b) (hb' : b ≤ T.hi) :
    T.value a ≤ T.value b ↔ a ≤ b := by
  rw [← not_lt, T.lt_iff hb hb' ha ha', not_lt]

/-- Motion along the table is motion along its indices. -/
theorem beyond_iff (ha : T.lo ≤ a) (ha' : a ≤ T.hi) (hb : T.lo ≤ b) (hb' : b ≤ T.hi) :
    Beyond down (T.value a) (T.value b) ↔ Beyond down a b := by
  cases down with
  | true => exact T.le_iff hb hb' ha ha'
  | false => exact T.le_iff ha ha' hb hb'

theorem strictlyBeyond_iff (ha : T.lo ≤ a) (ha' : a ≤ T.hi) (hb : T.lo ≤ b) (hb' : b ≤ T.hi) :
    StrictlyBeyond down (T.value a) (T.value b) ↔ StrictlyBeyond down a b := by
  cases down with
  | true => exact T.lt_iff hb hb' ha ha'
  | false => exact T.lt_iff ha ha' hb hb'

theorem first_le (ha : T.lo ≤ a) (ha' : a ≤ T.hi) : T.value T.lo ≤ T.value a :=
  (T.le_iff le_rfl T.nonempty ha ha').2 ha

theorem le_last (ha : T.lo ≤ a) (ha' : a ≤ T.hi) : T.value a ≤ T.value T.hi :=
  (T.le_iff ha ha' T.nonempty le_rfl).2 ha'

end Order

/-! ### The index of a value -/

section Index

variable {T : PriceTable} {a t u p q : ℤ} {down : Bool}

/-- The value lies in the closed interval of the index; the next index exists. -/
def Brackets (T : PriceTable) (t p : ℤ) : Prop :=
  T.lo ≤ t ∧ t < T.hi ∧ T.value t ≤ p ∧ p ≤ T.value (t + 1)

instance (T : PriceTable) (t p : ℤ) : Decidable (T.Brackets t p) :=
  inferInstanceAs (Decidable (_ ∧ _))

/-- The last index whose value is at most `p`. -/
def Holds (T : PriceTable) (t p : ℤ) : Prop :=
  T.lo ≤ t ∧ t ≤ T.hi ∧ T.value t ≤ p ∧ (t = T.hi ∨ p < T.value (t + 1))

theorem holds_bisectLast (T : PriceTable) {n : ℕ} (hn : T.hi - T.lo < 2 ^ n)
    (hp : T.value T.lo ≤ p) :
    T.Holds (bisectLast (fun middle => decide (T.value middle ≤ p)) n T.lo T.hi) p := by
  obtain ⟨h₁, h₂, h₃, h₄⟩ := bisectLast_spec (fun middle => decide (T.value middle ≤ p)) n
    (by simpa using hp) T.nonempty hn
  simp only [decide_eq_true_eq, decide_eq_false_iff_not, not_le] at h₃ h₄
  exact ⟨h₁, h₂, h₃, h₄⟩

theorem Holds.brackets (h : T.Holds t p) (hp : p < T.value T.hi) : T.Brackets t p := by
  obtain ⟨h₁, h₂, h₃, h₄⟩ := h
  rcases h₄ with rfl | hlt
  · exact absurd h₃ (not_le.2 hp)
  · refine ⟨h₁, lt_of_le_of_ne h₂ ?_, h₃, hlt.le⟩
    rintro rfl
    exact absurd h₃ (not_le.2 hp)

/-- The index of a table entry is the entry's own. -/
theorem Holds.eq_of_value (h : T.Holds t (T.value a)) (ha : T.lo ≤ a) (ha' : a ≤ T.hi) :
    t = a := by
  obtain ⟨h₁, h₂, h₃, h₄⟩ := h
  have hle := (T.le_iff h₁ h₂ ha ha').1 h₃
  rcases h₄ with rfl | hlt
  · omega
  · rcases hle.lt_or_eq with hlt' | heq
    · have := (T.lt_iff ha ha' (b := t + 1) (by omega) (by omega)).1 hlt
      omega
    · exact heq

/-- At an entry both sides are bracketed. -/
theorem brackets_self (T : PriceTable) (ha : T.lo ≤ a) (ha' : a < T.hi) :
    T.Brackets a (T.value a) :=
  ⟨ha, ha', le_rfl, (T.increasing ha (by omega) (by omega)).le⟩

theorem brackets_below (T : PriceTable) (ha : T.lo < a) (ha' : a ≤ T.hi) :
    T.Brackets (a - 1) (T.value a) := by
  refine ⟨by omega, by omega, ?_, by rw [sub_add_cancel]⟩
  exact (T.increasing (by omega) (by omega) ha').le

/-- The index moves with the value. -/
theorem Brackets.advance (h : T.Brackets t p) (hu : T.Holds u q) (hpq : StrictlyBeyond down p q)
    (hq : q < T.value T.hi) : Beyond down t u := by
  obtain ⟨h₁, h₂, h₃, h₄⟩ := h
  obtain ⟨h₁', h₂', h₃', h₄'⟩ := hu.brackets hq
  cases down with
  | true =>
      have hlt : T.value u < T.value (t + 1) := lt_of_le_of_lt h₃' (lt_of_lt_of_le hpq h₄)
      have := (T.lt_iff h₁' h₂'.le (b := t + 1) (by omega) (by omega)).1 hlt
      rw [beyond_true]
      omega
  | false =>
      have hlt : T.value t < T.value (u + 1) := lt_of_le_of_lt h₃ (lt_of_lt_of_le hpq h₄')
      have := (T.lt_iff h₁ h₂.le (b := u + 1) (by omega) (by omega)).1 hlt
      rw [beyond_false]
      omega

end Index

/-! ### A table and the search in it as fallible functions -/

/-- Two fallible functions over one interval of indices: the value at an index,
and the index at a value, which is the greatest one whose value is at most the
given one. -/
structure FloorInverse {ε : Type} (lo hi : ℤ) (valueAt indexAt : ℤ → Except ε ℤ) : Prop where
  defined : ∀ t, (∃ p, valueAt t = .ok p) ↔ lo ≤ t ∧ t ≤ hi
  increasing : ∀ {a b p q}, valueAt a = .ok p → valueAt b = .ok q → a < b → p < q
  atMost : ∀ {p t}, indexAt p = .ok t → ∃ q, valueAt t = .ok q ∧ q ≤ p
  greatest : ∀ {p t u q}, indexAt p = .ok t → valueAt u = .ok q → q ≤ p → u ≤ t
  inverse : ∀ {p t u}, valueAt t = .ok p → indexAt p = .ok u → u = t

section Functions

variable {T : PriceTable} {ε : Type} {valueAt indexAt : ℤ → Except ε ℤ} {t p u : ℤ}

/-- No index beyond the one of a value has a value that small. -/
theorem Holds.greatest (h : T.Holds t p) (hu : T.lo ≤ u) (hu' : u ≤ T.hi) (hp : T.value u ≤ p) :
    u ≤ t := by
  obtain ⟨h₁, -, -, h₄⟩ := h
  by_contra hlt
  rw [not_le] at hlt
  rcases h₄ with rfl | hnext
  · exact absurd hu' (not_le.2 hlt)
  · have hle : T.value (t + 1) ≤ T.value u := (T.le_iff (by omega) (by omega) hu hu').2 hlt
    exact absurd (hle.trans hp) (not_le.2 hnext)

theorem floorInverse (hvalue : ∀ {t p}, valueAt t = .ok p ↔ (T.lo ≤ t ∧ t ≤ T.hi) ∧ T.value t = p)
    (hindex : ∀ {p t}, indexAt p = .ok t → T.Holds t p) :
    FloorInverse T.lo T.hi valueAt indexAt where
  defined t := by simp only [hvalue, exists_and_left, exists_eq', and_true]
  increasing := by
    intro a b p q ha hb hab
    obtain ⟨⟨hlo, -⟩, rfl⟩ := hvalue.1 ha
    obtain ⟨⟨-, hhi⟩, rfl⟩ := hvalue.1 hb
    exact T.increasing hlo hab hhi
  atMost := by
    intro p t h
    obtain ⟨hlo, hhi, hle, -⟩ := hindex h
    exact ⟨T.value t, hvalue.2 ⟨⟨hlo, hhi⟩, rfl⟩, hle⟩
  greatest := by
    intro p t u q h hu hq
    obtain ⟨⟨hlo, hhi⟩, rfl⟩ := hvalue.1 hu
    exact (hindex h).greatest hlo hhi hq
  inverse := by
    intro p t u h hu
    obtain ⟨⟨hlo, hhi⟩, rfl⟩ := hvalue.1 h
    exact (hindex hu).eq_of_value hlo hhi

end Functions

/-! ### Indices beyond the table -/

section Edge

variable (T : PriceTable) {a b : ℤ}

/-- The nearest index of the table. -/
def clamp (a : ℤ) : ℤ := max T.lo (min T.hi a)

/-- The table, extended constantly beyond its ends. -/
def edge (a : ℤ) : ℤ := T.value (T.clamp a)

theorem lo_le_clamp : T.lo ≤ T.clamp a := le_max_left _ _

theorem clamp_le_hi : T.clamp a ≤ T.hi := max_le T.nonempty (min_le_left _ _)

theorem clamp_of_mem (ha : T.lo ≤ a) (ha' : a ≤ T.hi) : T.clamp a = a := by
  simp [clamp, ha, ha']

theorem edge_of_mem (ha : T.lo ≤ a) (ha' : a ≤ T.hi) : T.edge a = T.value a := by
  rw [edge, T.clamp_of_mem ha ha']

theorem edge_mono (h : a ≤ b) : T.edge a ≤ T.edge b := by
  rw [edge, edge, T.le_iff T.lo_le_clamp T.clamp_le_hi T.lo_le_clamp T.clamp_le_hi]
  exact max_le_max le_rfl (min_le_min le_rfl h)

theorem lt_of_edge_lt (h : T.edge a < T.edge b) : a < b := by
  by_contra hle
  exact absurd (T.edge_mono (not_lt.1 hle)) (not_le.2 h)

end Edge

end PriceTable

end SolTrade.Library
