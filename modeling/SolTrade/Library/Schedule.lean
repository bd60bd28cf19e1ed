import Mathlib.Order.Lattice
import Mathlib.Tactic.Common

/-!
Schedules: entries with ascending keys, each in force from its key on.

Below the first key the first entry is in force. A scan upwards that stops at the first
key above `x` and a search downwards for a key that is not above `x` find the same entry.
-/

namespace SolTrade.Library.Schedule

variable {α K : Type} [LinearOrder K]

section Defs

variable (key : α → K) (x : K)

/-- The scan upwards, which keeps the last entry it saw. -/
def ascend (selected : α) : List α → α
  | [] => selected
  | a :: rest => if key a ≤ x then ascend a rest else selected

/-- The search downwards. -/
def lastUpTo (entries : List α) : Option α := entries.reverse.find? fun a => key a ≤ x

def Ascending (entries : List α) : Prop := entries.Pairwise fun a b => key a < key b

/-- The entry in force at `x`: no later one is, and it is the first one or `x` has
reached it. -/
def InForce (entries : List α) (a : α) : Prop :=
  ∃ before after, entries = before ++ a :: after ∧ (∀ b ∈ after, x < key b) ∧
    (before = [] ∨ key a ≤ x)

end Defs

variable {key : α → K} {x : K} {entries rest : List α} {a b first : α}

/-- Neighbours that ascend make the whole ascend. -/
theorem ascending_of_neighbours (h : ∀ pair ∈ entries.zip entries.tail, key pair.1 < key pair.2) :
    Ascending key entries := by
  induction entries with
  | nil => exact .nil
  | cons a rest ih =>
      cases rest with
      | nil => exact List.pairwise_singleton _ _
      | cons b rest =>
          have hab : key a < key b := h (a, b) (by simp)
          have hrest : Ascending key (b :: rest) := by
            apply ih
            intro pair hpair
            exact h pair (by simp_all)
          refine List.pairwise_cons.2 ⟨fun c hc => ?_, hrest⟩
          rcases List.mem_cons.1 hc with rfl | hmem
          · exact hab
          · exact hab.trans ((List.pairwise_cons.1 hrest).1 c hmem)

theorem lastUpTo_cons : lastUpTo key x (a :: rest) =
    (lastUpTo key x rest).or (if key a ≤ x then some a else none) := by
  simp only [lastUpTo, List.reverse_cons, List.find?_append]
  congr 1
  by_cases hkey : key a ≤ x
  · simp [hkey]
  · simp [hkey]

theorem lastUpTo_eq_none : lastUpTo key x entries = none ↔ ∀ b ∈ entries, x < key b := by
  simp [lastUpTo]

theorem lastUpTo_map {β : Type} {f : β → α} {entries : List β} :
    lastUpTo key x (entries.map f) = (lastUpTo (fun b => key (f b)) x entries).map f := by
  unfold lastUpTo
  rw [← List.map_reverse, List.find?_map]
  rfl

theorem ascend_eq (h : Ascending key entries) (selected : α) :
    ascend key x selected entries = (lastUpTo key x entries).getD selected := by
  induction entries generalizing selected with
  | nil => rfl
  | cons a rest ih =>
      obtain ⟨hlater, hrest⟩ := List.pairwise_cons.1 h
      rw [ascend, lastUpTo_cons]
      split
      · rw [ih hrest]
        cases lastUpTo key x rest <;> rfl
      · rename_i habove
        -- the keys after one that is above `x` are above it too
        have hnone : lastUpTo key x rest = none :=
          lastUpTo_eq_none.2 fun b hb => (not_le.1 habove).trans (hlater b hb)
        rw [hnone]
        rfl

theorem lastUpTo_eq_some (h : lastUpTo key x entries = some a) :
    ∃ before after, entries = before ++ a :: after ∧ (∀ b ∈ after, x < key b) ∧ key a ≤ x := by
  induction entries with
  | nil => simp [lastUpTo] at h
  | cons c rest ih =>
      rw [lastUpTo_cons] at h
      cases hrest : lastUpTo key x rest with
      | some d =>
          rw [hrest, Option.some_or] at h
          obtain ⟨before, after, rfl, hafter, hkey⟩ := ih (hrest.trans h)
          exact ⟨c :: before, after, rfl, hafter, hkey⟩
      | none =>
          rw [hrest, Option.none_or] at h
          split at h
          · obtain rfl := Option.some_inj.1 h
            exact ⟨[], rest, rfl, lastUpTo_eq_none.1 hrest, ‹_›⟩
          · contradiction

theorem inForce_getD : InForce key x (first :: rest)
    ((lastUpTo key x (first :: rest)).getD first) := by
  cases hlast : lastUpTo key x (first :: rest) with
  | none =>
      refine ⟨[], rest, rfl, fun b hb => ?_, .inl rfl⟩
      exact lastUpTo_eq_none.1 hlast b (List.mem_cons_of_mem _ hb)
  | some a =>
      obtain ⟨before, after, hsplit, hafter, hkey⟩ := lastUpTo_eq_some hlast
      exact ⟨before, after, hsplit, hafter, .inr hkey⟩

/-- One entry is in force. -/
theorem InForce.unique (h : InForce key x entries a) (h' : InForce key x entries b) : a = b := by
  obtain ⟨before, after, rfl, hafter, hfirst⟩ := h
  obtain ⟨before', after', hsplit, hafter', hfirst'⟩ := h'
  -- of two entries the later one has been reached, so it does not stand after the other
  rcases List.append_eq_append_iff.1 hsplit with ⟨between, rfl, hbetween⟩ | ⟨between, rfl, hbetween⟩
  · cases between with
    | nil => exact (List.cons.inj hbetween).1
    | cons c between =>
        obtain ⟨rfl, rfl⟩ := List.cons.inj hbetween
        have hlater := hafter b (by simp)
        rcases hfirst' with hnil | hkey
        · simp at hnil
        · exact absurd hlater (not_lt.2 hkey)
  · cases between with
    | nil => exact (List.cons.inj hbetween).1.symm
    | cons c between =>
        obtain ⟨rfl, rfl⟩ := List.cons.inj hbetween
        have hlater := hafter' a (by simp)
        rcases hfirst with hnil | hkey
        · simp at hnil
        · exact absurd hlater (not_lt.2 hkey)

end SolTrade.Library.Schedule
