import Mathlib.Algebra.GroupWithZero.Nat
import Mathlib.Algebra.Order.Group.Nat
import Mathlib.Data.List.Nodup
import Mathlib.Data.List.Pairwise
import Mathlib.Tactic.Common
import SolTrade.Library.Checked

/-!
Enumeration of paths.

A path is the list of the edges taken. `next` gives the edges that may follow a path and
`goal` tells the paths that are wanted, which are not continued. Depth first and breadth
first, the same wanted paths are found, each once.
-/

namespace SolTrade.Library.PathSearch

variable {E : Type} (next : List E → List E) (goal : List E → Prop)

/-- `q` continues `p` edge by edge, never past a wanted path. -/
inductive Grows (p : List E) : List E → Prop
  | refl : Grows p p
  | grow {q : List E} {e : E} (hq : Grows p q) (hgoal : ¬ goal q) (he : e ∈ next q) :
      Grows p (q ++ [e])

/-- The paths of one edge more. -/
def children (p : List E) : List (List E) := (next p).map fun e => p ++ [e]

section Search

variable [DecidablePred goal]

/-- The wanted paths that continue `p` by at most `n` edges, depth first. -/
def collect : ℕ → List E → List (List E)
  | 0, p => if goal p then [p] else []
  | n + 1, p => if goal p then [p] else (next p).flatMap fun e => collect n (p ++ [e])

/-- The paths that a depth first search visits. -/
def visits : ℕ → List E → ℕ
  | 0, _ => 1
  | n + 1, p => if goal p then 1 else 1 + ((next p).map fun e => visits n (p ++ [e])).sum

/-- The wanted paths that continue one of the frontier by at most `n` edges, layer by
layer. -/
def layers : ℕ → List (List E) → List (List E)
  | 0, _ => []
  | n + 1, frontier =>
      (frontier.flatMap (children next)).filter goal ++
        layers n ((frontier.flatMap (children next)).filter fun p => ¬ goal p)

end Search

variable {next goal} {p q : List E} {n : ℕ}

/-! ### Growth -/

theorem Grows.isPrefix (h : Grows next goal p q) : p <+: q := by
  induction h with
  | refl => exact List.prefix_rfl
  | grow _ _ _ ih => exact ih.trans (List.prefix_append _ _)

theorem Grows.length_le (h : Grows next goal p q) : p.length ≤ q.length := h.isPrefix.length_le

/-- The first edge of a growth. -/
theorem grows_iff : Grows next goal p q ↔
    p = q ∨ ¬ goal p ∧ ∃ e ∈ next p, Grows next goal (p ++ [e]) q := by
  constructor
  · intro h
    induction h with
    | refl => exact .inl rfl
    | @grow q e hq hgoal he ih =>
        rcases ih with rfl | ⟨hp, f, hf, hq⟩
        · exact .inr ⟨hgoal, e, he, .refl⟩
        · exact .inr ⟨hp, f, hf, hq.grow hgoal he⟩
  · rintro (rfl | ⟨hp, e, he, hq⟩)
    · exact .refl
    · induction hq with
      | refl => exact Grows.refl.grow hp he
      | grow _ hgoal hf ih => exact ih.grow hgoal hf

/-- A path that is wanted does not grow. -/
theorem Grows.eq_of_goal (h : Grows next goal p q) (hp : goal p) : p = q :=
  (grows_iff.1 h).resolve_right fun hgrown => hgrown.1 hp

/-! ### Depth first -/

section DepthFirst

variable [DecidablePred goal]

theorem mem_collect : q ∈ collect next goal n p ↔
    Grows next goal p q ∧ goal q ∧ q.length ≤ p.length + n := by
  induction n generalizing p with
  | zero =>
      rw [collect]
      constructor
      · intro hq
        split at hq
        · obtain rfl := List.mem_singleton.1 hq
          exact ⟨.refl, ‹_›, le_rfl⟩
        · cases hq
      · rintro ⟨hgrows, hq, hle⟩
        obtain rfl : p = q := hgrows.isPrefix.eq_of_length_le hle
        rw [if_pos hq]
        exact List.mem_singleton_self p
  | succ n ih =>
      rw [collect]
      by_cases hp : goal p
      · rw [if_pos hp, List.mem_singleton]
        constructor
        · rintro rfl
          exact ⟨.refl, hp, Nat.le_add_right _ _⟩
        · rintro ⟨hgrows, -, -⟩
          exact (hgrows.eq_of_goal hp).symm
      · rw [if_neg hp, List.mem_flatMap, grows_iff]
        simp only [ih, List.length_append, List.length_singleton]
        constructor
        · rintro ⟨e, he, hgrows, hq, hle⟩
          exact ⟨.inr ⟨hp, e, he, hgrows⟩, hq, by omega⟩
        · rintro ⟨rfl | ⟨-, e, he, hgrows⟩, hq, hle⟩
          · exact absurd hq hp
          · exact ⟨e, he, hgrows, hq, by omega⟩

/-- Two paths that differ in one edge have no continuation in common. -/
theorem eq_of_append_prefixes {e f : E} (he : p ++ [e] <+: q) (hf : p ++ [f] <+: q) : e = f := by
  have hsame : p ++ [e] = p ++ [f] :=
    (List.prefix_of_prefix_length_le he hf (by simp)).eq_of_length (by simp)
  simpa using hsame

theorem nodup_collect (hnext : ∀ p, (next p).Nodup) : (collect next goal n p).Nodup := by
  induction n generalizing p with
  | zero =>
      rw [collect]
      split
      · exact List.nodup_singleton p
      · exact List.nodup_nil
  | succ n ih =>
      rw [collect]
      split
      · exact List.nodup_singleton p
      · refine List.nodup_flatMap.2 ⟨fun _ _ => ih, (hnext p).imp fun {e f} hne q he hf => ?_⟩
        have hprefix := (mem_collect.1 he).1.isPrefix
        exact hne (eq_of_append_prefixes hprefix (mem_collect.1 hf).1.isPrefix)

end DepthFirst

/-! ### Breadth first -/

section BreadthFirst

variable [DecidablePred goal] {frontier : List (List E)} {k : ℕ}

theorem mem_children : q ∈ children next p ↔ ∃ e ∈ next p, p ++ [e] = q := List.mem_map

theorem length_of_mem_children (h : q ∈ children next p) : q.length = p.length + 1 := by
  obtain ⟨e, -, rfl⟩ := mem_children.1 h
  simp

@[simp] theorem layers_nil : layers next goal n [] = [] := by
  induction n with
  | zero => rfl
  | succ n ih => exact ih

/-- Where no path of the frontier is wanted, the layers hold the wanted paths that
continue it. -/
theorem mem_layers (hfrontier : ∀ p ∈ frontier, ¬ goal p) : q ∈ layers next goal n frontier ↔
    ∃ p ∈ frontier, Grows next goal p q ∧ goal q ∧ q.length ≤ p.length + n := by
  induction n generalizing frontier with
  | zero =>
      refine iff_of_false List.not_mem_nil ?_
      rintro ⟨p, hp, hgrows, hq, hle⟩
      obtain rfl : p = q := hgrows.isPrefix.eq_of_length_le hle
      exact hfrontier p hp hq
  | succ n ih =>
      have hrest : ∀ r ∈ (frontier.flatMap (children next)).filter (fun p => ¬ goal p),
          ¬ goal r := fun r hr => of_decide_eq_true (List.mem_filter.1 hr).2
      rw [layers, List.mem_append, ih hrest]
      simp only [List.mem_filter, List.mem_flatMap, decide_eq_true_eq]
      constructor
      · rintro (⟨⟨p, hp, hchild⟩, hq⟩ | ⟨r, ⟨⟨p, hp, hchild⟩, hr⟩, hgrows, hq, hle⟩)
        · obtain ⟨e, he, rfl⟩ := mem_children.1 hchild
          exact ⟨p, hp, Grows.refl.grow (hfrontier p hp) he, hq, by simp⟩
        · have hlength := length_of_mem_children hchild
          obtain ⟨e, he, rfl⟩ := mem_children.1 hchild
          exact ⟨p, hp, grows_iff.2 (.inr ⟨hfrontier p hp, e, he, hgrows⟩), hq, by omega⟩
      · rintro ⟨p, hp, hgrows, hq, hle⟩
        rcases grows_iff.1 hgrows with rfl | ⟨-, e, he, hrest⟩
        · exact absurd hq (hfrontier p hp)
        · have hchild : p ++ [e] ∈ children next p := mem_children.2 ⟨e, he, rfl⟩
          by_cases hgoal : goal (p ++ [e])
          · obtain rfl := hrest.eq_of_goal hgoal
            exact .inl ⟨⟨p, hp, hchild⟩, hq⟩
          · refine .inr ⟨p ++ [e], ⟨⟨p, hp, hchild⟩, hgoal⟩, hrest, hq, ?_⟩
            rw [List.length_append, List.length_singleton]
            omega

/-- The next frontier has no path twice, as the edge added and the path before it are
both told by the path. -/
theorem nodup_flatMap_children (hnext : ∀ p, (next p).Nodup) (hnodup : frontier.Nodup)
    (hlength : ∀ p ∈ frontier, p.length = k) : (frontier.flatMap (children next)).Nodup := by
  refine List.nodup_flatMap.2 ⟨fun p _ => (hnext p).map fun e f h => by simpa using h, ?_⟩
  refine hnodup.imp_of_mem fun {p q} hp hq hne r hr hr' => hne ?_
  obtain ⟨e, -, rfl⟩ := mem_children.1 hr
  obtain ⟨f, -, h⟩ := mem_children.1 hr'
  exact (List.append_inj_left h ((hlength q hq).trans (hlength p hp).symm)).symm

theorem length_of_mem_flatMap_children (hlength : ∀ p ∈ frontier, p.length = k) :
    ∀ q ∈ frontier.flatMap (children next), q.length = k + 1 := by
  intro q hq
  obtain ⟨p, hp, hchild⟩ := List.mem_flatMap.1 hq
  rw [length_of_mem_children hchild, hlength p hp]

/-- A path of the layers is longer than those of the frontier. -/
theorem lt_length_of_mem_layers (hlength : ∀ p ∈ frontier, p.length = k) :
    ∀ q ∈ layers next goal n frontier, k < q.length := by
  induction n generalizing frontier k with
  | zero => exact fun q hq => absurd hq List.not_mem_nil
  | succ n ih =>
      have hchildren : ∀ q ∈ frontier.flatMap (children next), q.length = k + 1 :=
        length_of_mem_flatMap_children hlength
      intro q hq
      rcases List.mem_append.1 hq with hq | hq
      · rw [hchildren q (List.mem_of_mem_filter hq)]
        exact Nat.lt_succ_self k
      · exact Nat.lt_of_succ_lt
          (ih (fun p hp => hchildren p (List.mem_of_mem_filter hp)) q hq)

theorem nodup_layers (hnext : ∀ p, (next p).Nodup) (hnodup : frontier.Nodup)
    (hlength : ∀ p ∈ frontier, p.length = k) : (layers next goal n frontier).Nodup := by
  induction n generalizing frontier k with
  | zero => exact List.nodup_nil
  | succ n ih =>
      have hchildren := nodup_flatMap_children hnext hnodup hlength
      have hlength' : ∀ q ∈ frontier.flatMap (children next), q.length = k + 1 :=
        length_of_mem_flatMap_children hlength
      refine List.nodup_append'.2 ⟨hchildren.filter _, ih (hchildren.filter _)
        fun p hp => hlength' p (List.mem_of_mem_filter hp), fun q hq hq' => ?_⟩
      have hlt := lt_length_of_mem_layers
        (fun p hp => hlength' p (List.mem_of_mem_filter hp)) q hq'
      rw [hlength' q (List.mem_of_mem_filter hq)] at hlt
      exact lt_irrefl _ hlt

/-- Shorter paths come first. -/
theorem pairwise_layers (hlength : ∀ p ∈ frontier, p.length = k) :
    (layers next goal n frontier).Pairwise fun p q => p.length ≤ q.length := by
  induction n generalizing frontier k with
  | zero => exact .nil
  | succ n ih =>
      have hchildren : ∀ q ∈ frontier.flatMap (children next), q.length = k + 1 :=
        length_of_mem_flatMap_children hlength
      have hfilter : ∀ (keep : List E → Bool),
          ∀ p ∈ (frontier.flatMap (children next)).filter keep, p.length = k + 1 :=
        fun keep p hp => hchildren p (List.mem_of_mem_filter hp)
      refine List.pairwise_append.2 ⟨?_, ih (hfilter _), fun p hp q hq => ?_⟩
      · exact List.pairwise_of_forall_mem_list fun p hp q hq =>
          (hfilter _ p hp).trans_le (hfilter _ q hq).ge
      · rw [hfilter _ p hp]
        exact (lt_length_of_mem_layers (hfilter _) q hq).le

end BreadthFirst

/-! ### Node budgets -/

section Budget

variable [DecidablePred goal] {ε β γ : Type} {e : ε} {state : ℕ × List β}

/-- Takes the cost off what remains and adds what was found, or raises if the cost is more
than what remains. -/
def spend (e : ε) (cost : ℕ) (found : List β) (state : ℕ × List β) : Except ε (ℕ × List β) :=
  if cost ≤ state.1 then .ok (state.1 - cost, state.2 ++ found) else .error e

theorem spend_of_zero {cost : ℕ} {found : List β} (hcost : 0 < cost) (h : state.1 = 0) :
    spend e cost found state = .error e := if_neg (by omega)

theorem spend_one {found : List β} (h : state.1 ≠ 0) :
    spend e 1 found state = .ok (state.1 - 1, state.2 ++ found) :=
  if_pos (Nat.one_le_iff_ne_zero.2 h)

theorem spend_add_one {cost : ℕ} {found : List β} (h : state.1 ≠ 0) :
    spend e (1 + cost) found state = spend e cost found (state.1 - 1, state.2) := by
  unfold spend
  by_cases hcost : cost ≤ state.1 - 1
  · rw [if_pos hcost, if_pos (by omega), Nat.sub_sub]
  · rw [if_neg hcost, if_neg (by omega)]

theorem visits_pos {p : List E} {n : ℕ} : 0 < visits next goal n p := by
  cases n with
  | zero => exact Nat.one_pos
  | succ n =>
      rw [visits]
      split <;> omega

/-- A fold spends the sum of what its steps spend. -/
theorem foldlM_spend {step : ℕ × List β → γ → Except ε (ℕ × List β)} {cost : γ → ℕ}
    {found : γ → List β} {cs : List γ}
    (hstep : ∀ c ∈ cs, ∀ state, step state c = spend e (cost c) (found c) state) :
    cs.foldlM step state = spend e (cs.map cost).sum (cs.flatMap found) state := by
  induction cs generalizing state with
  | nil => simp [spend]
  | cons c cs ih =>
      obtain ⟨hfirst, hlater⟩ := List.forall_mem_cons.1 hstep
      rw [List.foldlM_cons, hfirst, List.map_cons, List.sum_cons, List.flatMap_cons]
      unfold spend
      by_cases hcost : cost c ≤ state.1
      · rw [if_pos hcost, ok_bind, ih hlater]
        unfold spend
        by_cases hrest : (cs.map cost).sum ≤ state.1 - cost c
        · rw [if_pos hrest, if_pos (by omega), Nat.sub_sub, List.append_assoc]
        · rw [if_neg hrest, if_neg (by omega)]
      · rw [if_neg hcost, if_neg (by omega)]
        rfl

end Budget

end SolTrade.Library.PathSearch
