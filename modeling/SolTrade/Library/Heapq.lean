import Mathlib.Data.List.Perm.Subperm
import Mathlib.Data.List.Basic
import Mathlib.Tactic.Common

/-!
Binary heaps in lists.

An entry that is pushed rises from the end as long as it is before its parent. Popping
moves the last entry to the root, lets it sink to a leaf along the smaller children, and
lets it rise from there.
-/

namespace SolTrade.Library.Heapq

variable {α : Type} (lt : α → α → Bool)

/-- The entry at `i` is before the one at `j`. -/
def before (heap : List α) (i j : ℕ) : Bool :=
  match heap[i]?, heap[j]? with
  | some a, some b => lt a b
  | _, _ => false

/-- `_siftdown`, from the root's end of the list: the entry at `pos` rises. -/
def siftdown (heap : List α) (pos : ℕ) : List α :=
  let parent := (pos - 1) / 2
  if 0 < pos ∧ before lt heap pos parent then siftdown (heap.swap pos parent) parent else heap
  termination_by pos
  decreasing_by omega

/-- The child that is to rise to `pos`: the left one if it is before the right one. -/
def smallerChild (heap : List α) (pos : ℕ) : ℕ :=
  let child := 2 * pos + 1
  if child + 1 < heap.length ∧ before lt heap child (child + 1) = false then child + 1 else child

theorem lt_smallerChild (heap : List α) (pos : ℕ) : pos < smallerChild lt heap pos := by
  unfold smallerChild
  dsimp only
  split
  · omega
  · omega

/-- `_siftup`: the entry at `pos` sinks to a leaf and rises from there. -/
def siftup (heap : List α) (pos : ℕ) : List α :=
  let child := smallerChild lt heap pos
  if 2 * pos + 1 < heap.length then siftup (heap.swap pos child) child
  else siftdown lt heap pos
  termination_by heap.length - pos
  decreasing_by
    have := lt_smallerChild lt heap pos
    rw [List.length_swap]
    omega

def heappush (heap : List α) (item : α) : List α := siftdown lt (heap ++ [item]) heap.length

/-- The first entry and the others, of which the last one has sunk from the root. -/
def heappop : List α → Option (α × List α)
  | [] => none
  | first :: tail =>
      match tail.getLast? with
      | none => some (first, [])
      | some last => some (first, siftup lt (last :: tail.dropLast) 0)

/-! ### The entries stay the same -/

variable {lt} {heap rest : List α} {a : α}

theorem siftdown_perm (heap : List α) (pos : ℕ) : (siftdown lt heap pos).Perm heap := by
  induction heap, pos using siftdown.induct lt with
  | case1 heap pos parent h ih =>
      rw [siftdown, if_pos h]
      exact ih.trans (List.swap_perm heap pos parent)
  | case2 heap pos parent h => rw [siftdown, if_neg h]

theorem siftup_perm (heap : List α) (pos : ℕ) : (siftup lt heap pos).Perm heap := by
  induction heap, pos using siftup.induct lt with
  | case1 heap pos child h ih =>
      rw [siftup, if_pos h]
      exact ih.trans (List.swap_perm heap pos child)
  | case2 heap pos h =>
      rw [siftup, if_neg h]
      exact siftdown_perm heap pos

theorem heappop_perm (h : heappop lt heap = some (a, rest)) : heap.Perm (a :: rest) := by
  cases heap with
  | nil => contradiction
  | cons first tail =>
      rcases tail.eq_nil_or_concat' with rfl | ⟨front, last, rfl⟩
      · cases h
        exact .refl _
      · rw [heappop, List.getLast?_concat, List.dropLast_concat] at h
        cases h
        exact ((List.perm_append_singleton last front).trans (siftup_perm _ 0).symm).cons a

end SolTrade.Library.Heapq
