import Mathlib.Data.List.Induction
import Mathlib.Data.List.Nodup
import Mathlib.Data.List.Pairwise

/-!
The elements of a list in the order of their first mention.

A sorted list begins that order exactly when whatever is mentioned before one of its
elements is a smaller one of them.
-/

namespace SolTrade.Library.FirstMentions

variable {α : Type} [BEq α] [LawfulBEq α]

/-- Adds an element that has not been mentioned. -/
def mention (seen : List α) (a : α) : List α := if a ∈ seen then seen else seen ++ [a]

def firsts (l : List α) : List α := l.foldl mention []

variable {l K L : List α} {a b x : α} {r : α → α → Prop}

theorem mem_mention {seen : List α} : b ∈ mention seen a ↔ b ∈ seen ∨ b = a := by
  unfold mention
  split
  · rename_i hmem
    exact ⟨.inl, fun h => h.elim id fun heq => heq ▸ hmem⟩
  · rw [List.mem_append, List.mem_singleton]

theorem nodup_mention {seen : List α} (h : seen.Nodup) : (mention seen a).Nodup := by
  unfold mention
  split
  · exact h
  · rename_i hnew
    exact List.nodup_append'.2 ⟨h, List.nodup_singleton a, by simpa using hnew⟩

theorem firsts_append_singleton : firsts (l ++ [x]) = mention (firsts l) x := by
  rw [firsts, List.foldl_append]
  rfl

theorem mem_firsts : a ∈ firsts l ↔ a ∈ l := by
  induction l using List.reverseRecOn with
  | nil => rfl
  | append_singleton l x ih =>
      rw [firsts_append_singleton, mem_mention, ih, List.mem_append, List.mem_singleton]

theorem nodup_firsts : (firsts l).Nodup := by
  induction l using List.reverseRecOn with
  | nil => exact .nil
  | append_singleton l x ih =>
      rw [firsts_append_singleton]
      exact nodup_mention ih

/-- A new last element comes after all others. -/
theorem idxOf_append_new (hx : x ∉ l) (ha : a ∈ l ++ [x]) (hb : b ∈ l ++ [x]) :
    (l ++ [x]).idxOf a < (l ++ [x]).idxOf b ↔ a ∈ l ∧ (b ∈ l → l.idxOf a < l.idxOf b) := by
  have hnew : ∀ c ∈ l ++ [x], c ∉ l → (l ++ [x]).idxOf c = l.length := by
    intro c hc hcl
    obtain rfl : c = x := List.mem_singleton.1 ((List.mem_append.1 hc).resolve_left hcl)
    rw [List.idxOf_append_of_notMem hcl, List.idxOf_cons_self, Nat.add_zero]
  by_cases hal : a ∈ l
  · rw [and_iff_right hal, List.idxOf_append_of_mem hal]
    by_cases hbl : b ∈ l
    · rw [List.idxOf_append_of_mem hbl]
      exact ⟨fun h _ => h, fun h => h hbl⟩
    · rw [hnew b hb hbl]
      exact iff_of_true (List.idxOf_lt_length_of_mem hal) fun h => absurd h hbl
  · refine iff_of_false ?_ fun h => hal h.1
    rw [hnew a ha hal, Nat.not_lt]
    by_cases hbl : b ∈ l
    · rw [List.idxOf_append_of_mem hbl]
      exact List.idxOf_le_length
    · exact Nat.le_of_eq (hnew b hb hbl)

/-- The order is that of the first mentions. -/
theorem idxOf_firsts_lt_iff (ha : a ∈ l) (hb : b ∈ l) :
    (firsts l).idxOf a < (firsts l).idxOf b ↔ l.idxOf a < l.idxOf b := by
  induction l using List.reverseRecOn with
  | nil => cases ha
  | append_singleton l x ih =>
      rw [firsts_append_singleton]
      unfold mention
      by_cases hx : x ∈ l
      · have hold : ∀ c ∈ l ++ [x], c ∈ l := by
          intro c hc
          rcases List.mem_append.1 hc with hc | hc
          · exact hc
          · exact List.mem_singleton.1 hc ▸ hx
        rw [if_pos (mem_firsts.2 hx), List.idxOf_append_of_mem (hold a ha),
          List.idxOf_append_of_mem (hold b hb)]
        exact ih (hold a ha) (hold b hb)
      · have hfirsts : ∀ c, c ∈ firsts l ++ [x] ↔ c ∈ l ++ [x] := fun c => by
          rw [List.mem_append, List.mem_append, mem_firsts]
        rw [if_neg (mt mem_firsts.1 hx), idxOf_append_new (mt mem_firsts.1 hx) ((hfirsts a).2 ha)
          ((hfirsts b).2 hb), idxOf_append_new hx ha hb, mem_firsts, mem_firsts]
        exact and_congr_right fun hal => forall_congr' fun hbl => ih hal hbl

/-- A list without repetitions begins with a sorted list if and only if what comes before one of
its elements is a smaller one of them. -/
theorem take_eq_iff (hK : K.Nodup) (hL : L.Pairwise r) (hr : ∀ a b, r a b → ¬ r b a) :
    K.take L.length = L ↔
      ∀ b ∈ L, b ∈ K ∧ ∀ a ∈ K, K.idxOf a < K.idxOf b → a ∈ L ∧ r a b := by
  induction L generalizing K with
  | nil => simp
  | cons c L ih =>
      obtain ⟨hleast, hsorted⟩ := List.pairwise_cons.1 hL
      have hnotin : c ∉ L := fun hmem => hr c c (hleast c hmem) (hleast c hmem)
      cases K with
      | nil =>
          refine iff_of_false (by simp) fun h => ?_
          cases (h c List.mem_cons_self).1
      | cons d K =>
          obtain ⟨hnew, hK⟩ := List.nodup_cons.1 hK
          have hlater : ∀ {a b}, a ∈ K → b ∈ K →
              ((d :: K).idxOf a < (d :: K).idxOf b ↔ K.idxOf a < K.idxOf b) := by
            intro a b ha hb
            rw [List.idxOf_cons_ne K fun heq : d = a => hnew (heq ▸ ha),
              List.idxOf_cons_ne K fun heq : d = b => hnew (heq ▸ hb)]
            exact Nat.succ_lt_succ_iff
          rw [List.length_cons, List.take_succ_cons]
          constructor
          · intro h b hb
            obtain ⟨rfl, htake⟩ := List.cons_eq_cons.1 h
            rcases List.mem_cons.1 hb with rfl | hbL
            · refine ⟨List.mem_cons_self, fun a _ hlt => ?_⟩
              rw [List.idxOf_cons_self] at hlt
              exact absurd hlt (Nat.not_lt_zero _)
            · obtain ⟨hbK, hbefore⟩ := (ih hK hsorted).1 htake b hbL
              refine ⟨List.mem_cons_of_mem _ hbK, fun a ha hlt => ?_⟩
              rcases List.mem_cons.1 ha with rfl | ha
              · exact ⟨List.mem_cons_self, hleast b hbL⟩
              · obtain ⟨haL, hab⟩ := hbefore a ha ((hlater ha hbK).1 hlt)
                exact ⟨List.mem_cons_of_mem _ haL, hab⟩
          · intro h
            -- the first element is the least one: it would come before it otherwise
            have hfirst : d = c := by
              by_contra hne
              obtain ⟨hmem, hdc⟩ := (h c List.mem_cons_self).2 d List.mem_cons_self (by
                rw [List.idxOf_cons_self, List.idxOf_cons_ne K hne]
                exact Nat.succ_pos _)
              exact hr d c hdc (hleast d ((List.mem_cons.1 hmem).resolve_left hne))
            subst hfirst
            refine congrArg (List.cons d) ((ih hK hsorted).2 fun b hb => ?_)
            obtain ⟨hbK, hbefore⟩ := h b (List.mem_cons_of_mem _ hb)
            have hbK : b ∈ K := (List.mem_cons.1 hbK).resolve_left fun heq => hnotin (heq ▸ hb)
            refine ⟨hbK, fun a ha hlt => ?_⟩
            obtain ⟨haL, hab⟩ := hbefore a (List.mem_cons_of_mem _ ha) ((hlater ha hbK).2 hlt)
            exact ⟨(List.mem_cons.1 haL).resolve_left fun heq => hnew (heq ▸ ha), hab⟩

end SolTrade.Library.FirstMentions
