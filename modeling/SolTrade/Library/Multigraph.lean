import Mathlib.Data.List.Induction
import Mathlib.Logic.Function.Basic
import SolTrade.Library.PathSearch

/-!
Simple paths of a multigraph.

Vertices are joined by any number of edges. A search that continues a path by the edges
at its end, to vertices that it has not met, finds the simple paths.
-/

namespace SolTrade.Library.Multigraph

open PathSearch

variable {V E : Type} (src dst : E → V)

/-- The vertex where a path from `start` ends. -/
def endpoint (start : V) : List E → V
  | [] => start
  | e :: p => endpoint (dst e) p

/-- The vertices that a path from `start` meets. -/
def stops (start : V) (p : List E) : List V := start :: p.map dst

/-- Each edge leaves the vertex where the one before it ends. -/
def Connected (start : V) : List E → Prop
  | [] => True
  | e :: p => src e = start ∧ Connected (dst e) p

/-- A path along edges from `start` to `target` that meets no vertex twice. -/
structure SimplePath (edges : E → Prop) (start target : V) (p : List E) : Prop where
  edges : ∀ e ∈ p, edges e
  connected : Connected src dst start p
  nodup : (stops dst start p).Nodup
  ends : endpoint dst start p = target

/-- Every edge of the path was allowed when it was taken. -/
def Allowed (allowed : List E → E → Prop) (p : List E) : Prop :=
  ∀ q e r, p = q ++ e :: r → allowed q e

section Paths

variable {src dst} {start : V} {p q : List E} {e : E}

@[simp] theorem endpoint_concat : endpoint dst start (p ++ [e]) = dst e := by
  induction p generalizing start with
  | nil => rfl
  | cons f p ih => exact ih

@[simp] theorem stops_append : stops dst start (p ++ q) = stops dst start p ++ q.map dst := by
  simp [stops]

theorem connected_concat :
    Connected src dst start (p ++ [e]) ↔
      Connected src dst start p ∧ src e = endpoint dst start p := by
  induction p generalizing start with
  | nil => exact and_comm
  | cons f p ih =>
      show src f = start ∧ Connected src dst (dst f) (p ++ [e]) ↔ (_ ∧ _) ∧ src e = _
      rw [ih, and_assoc]
      rfl

theorem endpoint_mem_stops : endpoint dst start p ∈ stops dst start p := by
  induction p generalizing start with
  | nil => exact List.mem_cons_self
  | cons f p ih => exact List.mem_cons_of_mem _ ih

/-- Where a longer path ends is met after the shorter one. -/
theorem endpoint_append_mem (h : q ≠ []) : endpoint dst start (p ++ q) ∈ q.map dst := by
  obtain ⟨q, e, rfl⟩ := (List.eq_nil_or_concat' q).resolve_left h
  rw [← List.append_assoc, endpoint_concat]
  simp

/-- A simple path ends nowhere it has been before. -/
theorem endpoint_ne_of_nodup (hnodup : (stops dst start (p ++ q)).Nodup) (h : q ≠ []) :
    endpoint dst start p ≠ endpoint dst start (p ++ q) := by
  intro heq
  rw [stops_append] at hnodup
  have hdisjoint := (List.nodup_append.1 hnodup).2.2
  exact hdisjoint _ endpoint_mem_stops _ (endpoint_append_mem h) heq

theorem allowed_concat {allowed : List E → E → Prop} :
    Allowed allowed (p ++ [e]) ↔ Allowed allowed p ∧ allowed p e := by
  constructor
  · intro h
    refine ⟨fun q f r hp => h q f (r ++ [e]) ?_, h p e [] rfl⟩
    rw [hp, List.append_assoc, List.cons_append]
  · rintro ⟨h, he⟩ q f r hp
    rcases List.eq_nil_or_concat' r with rfl | ⟨r, g, rfl⟩
    · obtain ⟨rfl, heq⟩ := List.append_inj' hp rfl
      obtain rfl : e = f := by simpa using heq
      exact he
    · rw [← List.cons_append, ← List.append_assoc] at hp
      exact h q f r (List.append_inj' hp rfl).1

end Paths

/-! ### Adjacency -/

section Adjacency

variable [DecidableEq V]

/-- The edges of each vertex, in the order in which they are listed. -/
def group (listed : List (V × E)) : V → List E :=
  listed.foldl (fun (adjacent : V → List E) p =>
    Function.update adjacent p.1 (adjacent p.1 ++ [p.2])) fun _ => []

theorem group_apply (listed : List (V × E)) (v : V) :
    group listed v = (listed.filter fun p => p.1 = v).map Prod.snd := by
  have hgeneral : ∀ adjacent : V → List E,
      listed.foldl (fun (adjacent : V → List E) p =>
          Function.update adjacent p.1 (adjacent p.1 ++ [p.2])) adjacent v =
        adjacent v ++ (listed.filter fun p => p.1 = v).map Prod.snd := by
    induction listed with
    | nil => exact fun adjacent => (List.append_nil _).symm
    | cons p listed ih =>
        intro adjacent
        rw [List.foldl_cons, ih, List.filter_cons]
        by_cases heq : p.1 = v
        · subst heq
          simp
        · rw [Function.update_of_ne (Ne.symm heq), if_neg (by simpa using heq)]
  exact hgeneral _

end Adjacency

/-! ### Searching for simple paths -/

section Search

variable [DecidableEq V] (out : V → List E) (start target : V) (allowed : List E → E → Prop)
  [∀ p e, Decidable (allowed p e)]

/-- The edges that continue a path to a vertex it has not met. -/
def onward (p : List E) : List E :=
  (out (endpoint dst start p)).filter fun e => dst e ∉ stops dst start p ∧ allowed p e

/-- The path has come to its target. -/
def Arrived (p : List E) : Prop := endpoint dst start p = target

instance : DecidablePred (Arrived dst start target) :=
  fun _ => inferInstanceAs (Decidable (_ = _))

variable {src dst out start target allowed} {edges : E → Prop} {p : List E} {e : E}

/-- What grows along the edges is simple. -/
theorem grown (hout : ∀ v e, e ∈ out v ↔ edges e ∧ src e = v)
    (h : Grows (onward dst out start allowed) (Arrived dst start target) [] p) :
    (∀ e ∈ p, edges e) ∧ Connected src dst start p ∧ (stops dst start p).Nodup ∧
      Allowed allowed p := by
  induction h with
  | refl =>
      refine ⟨fun e he => absurd he List.not_mem_nil, trivial, List.nodup_singleton start, ?_⟩
      intro q e r hp
      exact absurd hp.symm (by simp)
  | @grow q e _ _ he ih =>
      obtain ⟨hedges, hconnected, hnodup, hallowed⟩ := ih
      obtain ⟨he, hnew⟩ := List.mem_filter.1 he
      obtain ⟨hedge, hsrc⟩ := (hout _ e).1 he
      obtain ⟨hfresh, hmay⟩ := of_decide_eq_true hnew
      refine ⟨?_, connected_concat.2 ⟨hconnected, hsrc⟩, ?_, allowed_concat.2 ⟨hallowed, hmay⟩⟩
      · rw [List.forall_mem_append]
        exact ⟨hedges, List.forall_mem_singleton.2 hedge⟩
      · rw [stops_append, List.map_singleton]
        exact List.nodup_append'.2 ⟨hnodup, List.nodup_singleton _, by simpa using hfresh⟩

/-- A simple path grows along the edges, if it has not arrived before its end. -/
theorem grows_of_simple (hout : ∀ v e, e ∈ out v ↔ edges e ∧ src e = v)
    (hedges : ∀ e ∈ p, edges e) (hconnected : Connected src dst start p)
    (hnodup : (stops dst start p).Nodup) (hallowed : Allowed allowed p)
    (hbefore : ∀ q r, p = q ++ r → r ≠ [] → ¬ Arrived dst start target q) :
    Grows (onward dst out start allowed) (Arrived dst start target) [] p := by
  induction p using List.reverseRecOn with
  | nil => exact .refl
  | append_singleton p e ih =>
      rw [List.forall_mem_append] at hedges
      obtain ⟨hconnected, hsrc⟩ := connected_concat.1 hconnected
      obtain ⟨hallowed, hmay⟩ := allowed_concat.1 hallowed
      rw [stops_append, List.map_singleton] at hnodup
      obtain ⟨hnodup, -, hfresh⟩ := List.nodup_append'.1 hnodup
      have hgrows := ih hedges.1 hconnected hnodup hallowed fun q r hp hr =>
        hbefore q (r ++ [e]) (by rw [hp, List.append_assoc]) (by simp)
      refine hgrows.grow (hbefore p [e] rfl (by simp)) (List.mem_filter.2 ⟨?_, ?_⟩)
      · exact (hout _ e).2 ⟨hedges.2 e (List.mem_singleton_self e), hsrc⟩
      · exact decide_eq_true ⟨by simpa using hfresh, hmay⟩

/-- The search finds the simple paths to the target. -/
theorem grows_iff_simplePath (hout : ∀ v e, e ∈ out v ↔ edges e ∧ src e = v) :
    Grows (onward dst out start allowed) (Arrived dst start target) [] p ∧
        Arrived dst start target p ↔
      SimplePath src dst edges start target p ∧ Allowed allowed p := by
  constructor
  · rintro ⟨hgrows, harrived⟩
    obtain ⟨hedges, hconnected, hnodup, hallowed⟩ := grown hout hgrows
    exact ⟨⟨hedges, hconnected, hnodup, harrived⟩, hallowed⟩
  · rintro ⟨⟨hedges, hconnected, hnodup, hends⟩, hallowed⟩
    refine ⟨grows_of_simple hout hedges hconnected hnodup hallowed ?_, hends⟩
    rintro q r rfl hr harrived
    exact endpoint_ne_of_nodup hnodup hr (harrived.trans hends.symm)

theorem nodup_onward (hout : ∀ v, (out v).Nodup) (p : List E) :
    (onward dst out start allowed p).Nodup :=
  (hout _).filter _

end Search

end SolTrade.Library.Multigraph
