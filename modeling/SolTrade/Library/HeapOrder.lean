import Mathlib.Logic.Equiv.Basic
import SolTrade.Library.Heapq

/-!
The order in a binary heap.

No entry of a heap is before its parent. While an entry rises or sinks this fails at its place
only; pushing and popping leave a heap, and what is popped is not after anything that stays.
-/

namespace SolTrade.Library.Heapq

variable {α : Type} {lt lt' : α → α → Bool} {heap heap' : List α} {i j k pos : ℕ}

/-- The comparison is a strict weak order on the entries. -/
structure Ordered (lt : α → α → Bool) (heap : List α) : Prop where
  asymm : ∀ a ∈ heap, ∀ b ∈ heap, lt a b = true → lt b a = false
  trans : ∀ a ∈ heap, ∀ b ∈ heap, ∀ c ∈ heap, lt a b = false → lt b c = false → lt a c = false

theorem Ordered.of_subset (h : Ordered lt heap) (hsub : heap' ⊆ heap) : Ordered lt heap' where
  asymm a ha b hb := h.asymm a (hsub ha) b (hsub hb)
  trans a ha b hb c hc := h.trans a (hsub ha) b (hsub hb) c (hsub hc)

/-- No entry is before its parent. -/
def IsHeap (lt : α → α → Bool) (heap : List α) : Prop :=
  ∀ i, 0 < i → before lt heap i ((i - 1) / 2) = false

/-- A heap but for the entry at the place, which may be before its parent. -/
structure RisesAt (lt : α → α → Bool) (heap : List α) (pos : ℕ) : Prop where
  others : ∀ i, 0 < i → i ≠ pos → before lt heap i ((i - 1) / 2) = false
  across : ∀ i, 0 < i → (i - 1) / 2 = pos → 0 < pos → before lt heap i ((pos - 1) / 2) = false

/-- A heap but for the entry at the place, which may be before its parent or after its children. -/
structure SinksAt (lt : α → α → Bool) (heap : List α) (pos : ℕ) : Prop where
  others : ∀ i, 0 < i → i ≠ pos → (i - 1) / 2 ≠ pos → before lt heap i ((i - 1) / 2) = false
  across : ∀ i, 0 < i → (i - 1) / 2 = pos → 0 < pos → before lt heap i ((pos - 1) / 2) = false

/-! ### Comparisons by places -/

theorem before_of_getElem? {a b : α} (hi : heap[i]? = some a) (hj : heap[j]? = some b) :
    before lt heap i j = lt a b := by
  simp [before, hi, hj]

theorem exists_of_before (h : before lt heap i j = true) :
    ∃ a b, heap[i]? = some a ∧ heap[j]? = some b ∧ lt a b = true := by
  unfold before at h
  split at h
  · exact ⟨_, _, ‹_›, ‹_›, h⟩
  · contradiction

theorem before_eq_false_of_le (h : heap.length ≤ i) : before lt heap i j = false := by
  simp [before, List.getElem?_eq_none h]

theorem Ordered.before_asymm (h : Ordered lt heap) (hij : before lt heap i j = true) :
    before lt heap j i = false := by
  obtain ⟨a, b, ha, hb, hlt⟩ := exists_of_before hij
  rw [before_of_getElem? hb ha]
  exact h.asymm a (List.mem_of_getElem? ha) b (List.mem_of_getElem? hb) hlt

theorem Ordered.before_trans (h : Ordered lt heap) (hj : j < heap.length)
    (hij : before lt heap i j = false) (hjk : before lt heap j k = false) :
    before lt heap i k = false := by
  by_contra hik
  obtain ⟨a, c, ha, hc, hlt⟩ := exists_of_before (by simpa using hik)
  have hb := List.getElem?_eq_getElem hj
  rw [before_of_getElem? ha hb] at hij
  rw [before_of_getElem? hb hc] at hjk
  have hle := h.trans a (List.mem_of_getElem? ha) _ (List.getElem_mem hj) c
    (List.mem_of_getElem? hc) hij hjk
  rw [hle] at hlt
  contradiction

theorem getElem?_swap (hi : i < heap.length) (hj : j < heap.length) (k : ℕ) :
    (heap.swap i j)[k]? = heap[Equiv.swap i j k]? := by
  rw [List.swap_eq_of_lt hi hj, List.getElem?_set, List.getElem?_set]
  by_cases hkj : j = k
  · subst hkj
    simp [hi, hj]
  · by_cases hki : i = k
    · subst hki
      simp [hkj, hi, hj]
    · rw [Equiv.swap_apply_of_ne_of_ne (Ne.symm hki) (Ne.symm hkj), if_neg hkj, if_neg hki]

theorem before_swap (hi : i < heap.length) (hj : j < heap.length) (k l : ℕ) :
    before lt (heap.swap i j) k l = before lt heap (Equiv.swap i j k) (Equiv.swap i j l) := by
  simp only [before, getElem?_swap hi hj]

theorem before_congr (h : ∀ a ∈ heap, ∀ b ∈ heap, lt a b = lt' a b) :
    before lt heap i j = before lt' heap i j := by
  unfold before
  split
  · exact h _ (List.mem_of_getElem? ‹_›) _ (List.mem_of_getElem? ‹_›)
  · rfl

theorem IsHeap.congr (hheap : IsHeap lt heap) (h : ∀ a ∈ heap, ∀ b ∈ heap, lt a b = lt' a b) :
    IsHeap lt' heap := by
  intro i hi
  rw [← before_congr h]
  exact hheap i hi

/-! ### Rising -/

theorem RisesAt.step (ho : Ordered lt heap) (h : RisesAt lt heap pos) (hpos : 0 < pos)
    (hbefore : before lt heap pos ((pos - 1) / 2) = true) :
    RisesAt lt (heap.swap pos ((pos - 1) / 2)) ((pos - 1) / 2) := by
  have hlen : pos < heap.length := by
    by_contra hge
    rw [before_eq_false_of_le (Nat.le_of_not_lt hge)] at hbefore
    contradiction
  generalize hparent : (pos - 1) / 2 = parent at *
  have hp : parent < heap.length := by omega
  have hparent_before := ho.before_asymm hbefore
  constructor
  -- the entries at `pos` and `parent` trade places; each of the others keeps its own
  · intro i hi hne
    rw [before_swap hlen hp]
    by_cases hipos : i = pos
    · rw [hipos, hparent, Equiv.swap_apply_left, Equiv.swap_apply_right]
      exact hparent_before
    have hother := h.others i hi hipos
    rw [Equiv.swap_apply_of_ne_of_ne hipos hne]
    by_cases hchild : (i - 1) / 2 = pos
    · rw [hchild, Equiv.swap_apply_left]
      rw [← hparent]
      exact h.across i hi hchild hpos
    by_cases hsibling : (i - 1) / 2 = parent
    · rw [hsibling] at hother
      rw [hsibling, Equiv.swap_apply_right]
      exact ho.before_trans hp hother hparent_before
    · rwa [Equiv.swap_apply_of_ne_of_ne hchild hsibling]
  · intro i hi hchild hp₀
    have hgrand := h.others parent hp₀ (by omega)
    rw [before_swap hlen hp, Equiv.swap_apply_of_ne_of_ne (x := (parent - 1) / 2) (by omega)
      (by omega)]
    by_cases hipos : i = pos
    · rwa [hipos, Equiv.swap_apply_left]
    · have hother := h.others i hi hipos
      rw [hchild] at hother
      rw [Equiv.swap_apply_of_ne_of_ne hipos (by omega)]
      exact ho.before_trans hp hother hgrand

theorem RisesAt.isHeap (h : RisesAt lt heap pos)
    (hstop : ¬ (0 < pos ∧ before lt heap pos ((pos - 1) / 2))) : IsHeap lt heap := by
  intro i hi
  by_cases hipos : i = pos
  · subst hipos
    simpa [hi] using hstop
  · exact h.others i hi hipos

theorem isHeap_siftdown (ho : Ordered lt heap) (h : RisesAt lt heap pos) :
    IsHeap lt (siftdown lt heap pos) := by
  induction heap, pos using siftdown.induct lt with
  | case1 heap pos parent hrise ih =>
      rw [siftdown, if_pos hrise]
      exact ih (ho.of_subset (List.swap_perm heap pos parent).subset)
        (h.step ho hrise.1 hrise.2)
  | case2 heap pos parent hstop =>
      rw [siftdown, if_neg hstop]
      exact h.isHeap hstop

/-! ### Sinking -/

theorem smallerChild_eq (lt : α → α → Bool) (heap : List α) (pos : ℕ) :
    smallerChild lt heap pos = 2 * pos + 1 ∨
      smallerChild lt heap pos = 2 * pos + 2 ∧ 2 * pos + 2 < heap.length := by
  unfold smallerChild
  dsimp only
  split
  · rename_i h
    exact .inr ⟨rfl, h.1⟩
  · exact .inl rfl

/-- Neither child is before the one that rises. -/
theorem not_before_smallerChild (ho : Ordered lt heap) (hi : 0 < i) (hchild : (i - 1) / 2 = pos)
    (hne : i ≠ smallerChild lt heap pos) :
    before lt heap i (smallerChild lt heap pos) = false := by
  unfold smallerChild at hne ⊢
  dsimp only at hne ⊢
  split at hne
  · rename_i hright
    rw [if_pos hright]
    obtain rfl : i = 2 * pos + 1 := by omega
    exact hright.2
  · rename_i hleft
    rw [if_neg hleft]
    obtain rfl : i = 2 * pos + 1 + 1 := by omega
    by_contra hbefore
    rw [Bool.not_eq_false] at hbefore
    obtain ⟨a, b, ha, hb, -⟩ := exists_of_before hbefore
    have hroom := (List.getElem?_eq_some_iff.1 ha).1
    exact hleft ⟨hroom, ho.before_asymm hbefore⟩

theorem SinksAt.step (ho : Ordered lt heap) (h : SinksAt lt heap pos)
    (hmore : 2 * pos + 1 < heap.length) :
    SinksAt lt (heap.swap pos (smallerChild lt heap pos)) (smallerChild lt heap pos) := by
  have hsmaller : ∀ i, 0 < i → (i - 1) / 2 = pos → i ≠ smallerChild lt heap pos →
      before lt heap i (smallerChild lt heap pos) = false :=
    fun i hi hchild hne => not_before_smallerChild ho hi hchild hne
  have hplace := smallerChild_eq lt heap pos
  generalize smallerChild lt heap pos = child at *
  have hpos : pos < heap.length := by omega
  have hc : child < heap.length := by omega
  constructor
  · intro i hi hne hnotchild
    rw [before_swap hpos hc]
    by_cases hipos : i = pos
    · subst hipos
      rw [Equiv.swap_apply_left, Equiv.swap_apply_of_ne_of_ne (by omega) hnotchild]
      exact h.across child (by omega) (by omega) hi
    rw [Equiv.swap_apply_of_ne_of_ne hipos hne]
    by_cases hchild : (i - 1) / 2 = pos
    · rw [hchild, Equiv.swap_apply_left]
      exact hsmaller i hi hchild hne
    · rw [Equiv.swap_apply_of_ne_of_ne hchild hnotchild]
      exact h.others i hi hipos hchild
  -- the smaller child is the new parent at `pos`, and its children were below it before
  · intro i hi hchild _
    have hparent : (child - 1) / 2 = pos := by omega
    have hother := h.others i hi (by omega) (by omega)
    rw [hchild] at hother
    rwa [before_swap hpos hc, hparent, Equiv.swap_apply_left,
      Equiv.swap_apply_of_ne_of_ne (by omega) (by omega)]

/-- An entry that has sunk to a leaf may only have to rise. -/
theorem SinksAt.risesAt (h : SinksAt lt heap pos) (hleaf : heap.length ≤ 2 * pos + 1) :
    RisesAt lt heap pos where
  others i hi hne := by
    by_cases hchild : (i - 1) / 2 = pos
    · exact before_eq_false_of_le (by omega)
    · exact h.others i hi hne hchild
  across := h.across

theorem isHeap_siftup (ho : Ordered lt heap) (h : SinksAt lt heap pos) :
    IsHeap lt (siftup lt heap pos) := by
  induction heap, pos using siftup.induct lt with
  | case1 heap pos child hmore ih =>
      rw [siftup, if_pos hmore]
      exact ih (ho.of_subset (List.swap_perm heap pos child).subset) (h.step ho hmore)
  | case2 heap pos hleaf =>
      rw [siftup, if_neg hleaf]
      exact isHeap_siftdown ho (h.risesAt (Nat.le_of_not_lt hleaf))

/-! ### Pushing and popping -/

theorem heappush_perm (heap : List α) (a : α) : (heappush lt heap a).Perm (heap ++ [a]) :=
  siftdown_perm _ _

theorem isHeap_heappush {a : α} (ho : Ordered lt (heap ++ [a])) (h : IsHeap lt heap) :
    IsHeap lt (heappush lt heap a) := by
  apply isHeap_siftdown ho
  constructor
  · intro i hi hne
    by_cases hin : i < heap.length
    · have hparent : (i - 1) / 2 < heap.length := by omega
      have hbefore := h i hi
      unfold before at hbefore ⊢
      rwa [List.getElem?_append_left hin, List.getElem?_append_left hparent]
    · exact before_eq_false_of_le (by simp; omega)
  · intro i hi hchild _
    exact before_eq_false_of_le (by simp; omega)

/-- No entry is before the first one. -/
theorem IsHeap.not_before_first (ho : Ordered lt heap) (h : IsHeap lt heap) (i : ℕ) :
    before lt heap i 0 = false := by
  induction i using Nat.strongRecOn with
  | ind i ih =>
      rcases Nat.eq_zero_or_pos i with rfl | hi
      · by_contra hbefore
        rw [Bool.not_eq_false] at hbefore
        exact absurd (ho.before_asymm hbefore) (by simp [hbefore])
      · by_cases hin : (i - 1) / 2 < heap.length
        · exact ho.before_trans hin (h i hi) (ih _ (by omega))
        · exact before_eq_false_of_le (by omega)

/-- What is popped is not after anything that stays. -/
theorem not_before_popped {a b : α} {rest : List α} (ho : Ordered lt heap) (h : IsHeap lt heap)
    (hpop : heappop lt heap = some (a, rest)) (hb : b ∈ heap) : lt b a = false := by
  obtain ⟨tail, rfl⟩ : ∃ tail, heap = a :: tail := by
    cases heap with
    | nil => contradiction
    | cons first tail =>
        rw [heappop] at hpop
        split at hpop
        · cases hpop
          exact ⟨_, rfl⟩
        · cases hpop
          exact ⟨_, rfl⟩
  obtain ⟨i, hi⟩ := List.mem_iff_getElem?.1 hb
  have hfirst : (a :: tail)[0]? = some a := rfl
  have hbefore : before lt (a :: tail) i 0 = lt b a := before_of_getElem? hi hfirst
  rw [← hbefore]
  exact h.not_before_first ho i

theorem isHeap_heappop {a : α} {rest : List α} (ho : Ordered lt heap) (h : IsHeap lt heap)
    (hpop : heappop lt heap = some (a, rest)) : IsHeap lt rest := by
  cases heap with
  | nil => contradiction
  | cons first tail =>
      rcases tail.eq_nil_or_concat' with rfl | ⟨front, last, rfl⟩
      · cases hpop
        exact fun i hi => before_eq_false_of_le (by simp)
      · rw [heappop, List.getLast?_concat, List.dropLast_concat] at hpop
        cases hpop
        have hsub : last :: front ⊆ a :: (front ++ [last]) :=
          List.Subset.trans (List.perm_append_singleton last front).symm.subset
            (List.subset_cons_self _ _)
        refine isHeap_siftup (ho.of_subset hsub) ⟨?_, fun _ _ _ h₀ => absurd h₀ (Nat.lt_irrefl 0)⟩
        intro i hi _ hparent
        by_cases hin : i < front.length + 1
        · -- behind the root the entries stand where they stood
          have hplace : ∀ k, 0 < k → k < front.length + 1 →
              (last :: front)[k]? = (a :: (front ++ [last]))[k]? := by
            intro k hk hlt
            obtain ⟨k, rfl⟩ := Nat.exists_eq_succ_of_ne_zero (Nat.ne_of_gt hk)
            rw [List.getElem?_cons_succ, List.getElem?_cons_succ,
              List.getElem?_append_left (by omega)]
          have hbefore := h i hi
          unfold before at hbefore ⊢
          rwa [hplace i hi hin, hplace _ (by omega) (by omega)]
        · exact before_eq_false_of_le (by simpa using hin)

end SolTrade.Library.Heapq
