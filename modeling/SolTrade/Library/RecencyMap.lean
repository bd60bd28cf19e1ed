import Mathlib.Data.Set.Card
import Mathlib.Logic.Function.Basic

/-!
Maps that know which of their keys has been used least recently.

A use stores a value under a key and stamps the key with the clock of the map. A
list has the entries of such a map if it holds what the map stores, the least
recently used key first: a use moves its key to the end, and the head is the
oldest key.
-/

namespace SolTrade.Library

variable {κ ν : Type}

structure RecencyMap (κ ν : Type) where
  find : κ → Option ν
  used : κ → ℕ
  clock : ℕ

namespace RecencyMap

def empty : RecencyMap κ ν := ⟨fun _ => none, fun _ => 0, 0⟩

/-- The keys that the map holds. -/
def stored (m : RecencyMap κ ν) : Set κ := {k | ∃ a, m.find k = some a}

def use [DecidableEq κ] (m : RecencyMap κ ν) (k : κ) (a : ν) : RecencyMap κ ν where
  find := Function.update m.find k (some a)
  used := Function.update m.used k m.clock
  clock := m.clock + 1

/-- The map without the entries that are gone. -/
def drop (m : RecencyMap κ ν) (gone : κ → ν → Bool) : RecencyMap κ ν :=
  { m with find := fun k => (m.find k).filter fun a => !gone k a }

/-- The key of the map that was used least recently. -/
def Oldest (m : RecencyMap κ ν) (k : κ) : Prop :=
  k ∈ m.stored ∧ ∀ k' ∈ m.stored, m.used k ≤ m.used k'

/-- The list has the entries of the map, the least recently used first. -/
structure Lists (m : RecencyMap κ ν) (l : List (κ × ν)) : Prop where
  find : ∀ k a, m.find k = some a ↔ (k, a) ∈ l
  ordered : (l.map Prod.fst).Pairwise fun a b => m.used a < m.used b
  past : ∀ k ∈ l.map Prod.fst, m.used k < m.clock

variable {m : RecencyMap κ ν} {l : List (κ × ν)} {p : κ → ν → Bool} {k : κ} {a : ν}

theorem lists_empty : (empty : RecencyMap κ ν).Lists [] where
  find k a := by simp [empty]
  ordered := .nil
  past k hk := by cases hk

theorem Lists.mem_stored (h : m.Lists l) : k ∈ m.stored ↔ k ∈ l.map Prod.fst := by
  constructor
  · rintro ⟨a, ha⟩
    exact List.mem_map.2 ⟨(k, a), (h.find k a).1 ha, rfl⟩
  · intro hk
    obtain ⟨⟨_, a⟩, ha, rfl⟩ := List.mem_map.1 hk
    exact ⟨a, (h.find _ a).2 ha⟩

theorem Lists.nodup (h : m.Lists l) : (l.map Prod.fst).Nodup :=
  h.ordered.imp fun hlt heq => (heq ▸ hlt).ne rfl

theorem Lists.ncard_stored [DecidableEq κ] (h : m.Lists l) : m.stored.ncard = l.length := by
  have hstored : m.stored = ((l.map Prod.fst).toFinset : Set κ) := by
    ext k
    rw [h.mem_stored, Finset.mem_coe, List.mem_toFinset]
  rw [hstored, Set.ncard_coe_finset, List.toFinset_card_of_nodup h.nodup, List.length_map]

/-- The head of the list is the oldest key. -/
theorem Lists.oldest {e : κ × ν} (h : m.Lists (e :: l)) : m.Oldest e.1 := by
  refine ⟨h.mem_stored.2 List.mem_cons_self, fun k hk => ?_⟩
  rcases List.mem_cons.1 (h.mem_stored.1 hk) with rfl | hk
  · exact le_rfl
  · exact ((List.pairwise_cons.1 h.ordered).1 k hk).le

theorem Lists.drop (h : m.Lists l) :
    (m.drop p).Lists (l.filter fun e => !p e.1 e.2) where
  find k a := by
    rw [List.mem_filter, ← h.find]
    exact Option.filter_eq_some_iff
  ordered := h.ordered.sublist (List.filter_sublist.map _)
  past k hk := h.past k ((List.filter_sublist.map _).subset hk)

theorem Lists.tail [DecidableEq κ] {e : κ × ν} (h : m.Lists (e :: l)) :
    (m.drop fun k _ => k = e.1).Lists l := by
  have hnodup := (List.nodup_cons.1 h.nodup).1
  have hdrop := h.drop (p := fun k _ => k = e.1)
  rwa [List.filter_cons_of_neg (by simp), List.filter_eq_self.2 fun a ha => ?_] at hdrop
  have hne : a.1 ≠ e.1 := fun heq => hnodup (heq ▸ List.mem_map_of_mem ha)
  simpa using hne

theorem Lists.use [DecidableEq κ] (h : m.Lists l) :
    (m.use k a).Lists (l.filter (fun e => e.1 ≠ k) ++ [(k, a)]) := by
  have hkept : ∀ k' ∈ (l.filter fun e => e.1 ≠ k).map Prod.fst,
      k' ≠ k ∧ m.used k' < m.clock ∧ (m.use k a).used k' = m.used k' := by
    intro k' hk'
    obtain ⟨e, he, rfl⟩ := List.mem_map.1 hk'
    obtain ⟨he, hne⟩ := List.mem_filter.1 he
    have hne : e.1 ≠ k := by simpa using hne
    exact ⟨hne, h.past _ (List.mem_map_of_mem he), Function.update_of_ne hne ..⟩
  have hself : (m.use k a).used k = m.clock := Function.update_self ..
  constructor
  · intro k' a'
    rw [List.mem_append, List.mem_filter, List.mem_singleton]
    by_cases hk : k' = k
    · subst hk
      simp [RecencyMap.use, eq_comm]
    · simp [RecencyMap.use, hk, h.find]
  · rw [List.map_append, List.map_singleton, List.pairwise_append]
    refine ⟨?_, List.pairwise_singleton .., ?_⟩
    · have hold := h.ordered.sublist ((List.filter_sublist (p := fun e => e.1 ≠ k)).map Prod.fst)
      refine hold.imp_of_mem fun ha hb hlt => ?_
      rwa [(hkept _ ha).2.2, (hkept _ hb).2.2]
    · intro k' hk' b hb
      rw [List.mem_singleton.1 hb, hself, (hkept k' hk').2.2]
      exact (hkept k' hk').2.1
  · intro k' hk'
    show (m.use k a).used k' < m.clock + 1
    rw [List.map_append, List.mem_append] at hk'
    rcases hk' with hk' | hk'
    · rw [(hkept k' hk').2.2]
      exact (hkept k' hk').2.1.trans (Nat.lt_succ_self _)
    · rw [List.mem_singleton.1 hk', hself]
      exact Nat.lt_succ_self _

end RecencyMap

end SolTrade.Library
