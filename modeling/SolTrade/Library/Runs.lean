import Mathlib.Data.List.Induction
import Mathlib.Order.Basic
import Mathlib.Order.Lattice

/-!
Runs of a state machine whose calls always leave a state.

A run folds the calls over the state. What one call keeps, a run keeps; what no
call lowers, no run lowers; and a fact about the calls of a run is a fact about a
call, the run before it and the run after it.
-/

namespace SolTrade.Library.Runs

variable {σ α : Type} {step : σ → α → σ} {s : σ} {calls : List α}

/-- The state after a run. -/
def run (step : σ → α → σ) (s : σ) (calls : List α) : σ := calls.foldl step s

@[simp] theorem run_nil : run step s [] = s := rfl

@[simp] theorem run_cons {a : α} : run step s (a :: calls) = run step (step s a) calls := rfl

@[simp] theorem run_append {calls' : List α} :
    run step s (calls ++ calls') = run step (run step s calls) calls' :=
  List.foldl_append

/-- The invariant rule. -/
theorem run_invariant {I : σ → Prop} (hstep : ∀ s a, I s → I (step s a)) (hs : I s) :
    I (run step s calls) := by
  induction calls generalizing s with
  | nil => exact hs
  | cons a calls ih => exact ih (hstep s a hs)

/-- What no call lowers, no run lowers. -/
theorem run_mono {β : Type} [Preorder β] {μ : σ → β} (hstep : ∀ s a, μ s ≤ μ (step s a)) :
    μ s ≤ μ (run step s calls) :=
  run_invariant (I := fun t => μ s ≤ μ t) (fun t a ht => ht.trans (hstep t a)) le_rfl

/-- A run without calls that break `p` keeps it. -/
theorem run_keeps {p : σ → Prop} {bad : σ → α → Prop}
    (hkeep : ∀ s a, p s → ¬ bad s a → p (step s a)) (hs : p s)
    (hgood : ∀ pre a post, calls = pre ++ a :: post → ¬ bad (run step s pre) a) :
    p (run step s calls) := by
  induction calls generalizing s with
  | nil => exact hs
  | cons a calls ih =>
      refine ih (hkeep s a hs (hgood [] a calls rfl)) fun pre b post hsplit => ?_
      exact hgood (a :: pre) b post (by rw [hsplit, List.cons_append])

/-- A run has the invariant in every state that it reaches if and only if its calls are of those
that keep it. -/
theorem always_iff {I : σ → Prop} {M : σ → α → Prop} (hs : I s)
    (hmeets : ∀ s a, I s → (M s a ↔ I (step s a))) :
    (∀ pre post, calls = pre ++ post → I (run step s pre)) ↔
      ∀ pre a post, calls = pre ++ a :: post → M (run step s pre) a := by
  constructor
  · intro h pre a post hsplit
    have hnext := h (pre ++ [a]) post (by simp [hsplit])
    rw [run_append] at hnext
    exact (hmeets _ a (h pre (a :: post) hsplit)).2 hnext
  · intro h pre
    induction pre using List.reverseRecOn with
    | nil => exact fun _ _ => hs
    | append_singleton pre a ih =>
        intro post hsplit
        have hsplit' : calls = pre ++ a :: post := by simp [hsplit]
        rw [run_append]
        exact (hmeets _ a (ih (a :: post) hsplit')).1 (h pre a post hsplit')

/-- The same on the states that a run can reach. -/
theorem always_iff_of_invariant {J I : σ → Prop} {M : σ → α → Prop} (hJ : J s)
    (hkeep : ∀ s a, J s → J (step s a)) (hs : I s)
    (hmeets : ∀ s a, J s → I s → (M s a ↔ I (step s a))) :
    (∀ pre post, calls = pre ++ post → I (run step s pre)) ↔
      ∀ pre a post, calls = pre ++ a :: post → M (run step s pre) a := by
  have hreached : ∀ pre, J (run step s pre) := fun pre => run_invariant hkeep hJ
  rw [← always_iff (I := fun s => J s ∧ I s) (M := M) ⟨hJ, hs⟩ fun s a h => by
    rw [hmeets s a h.1 h.2, and_iff_right (hkeep s a h.1)]]
  constructor
  · intro h pre post hsplit
    exact ⟨hreached pre, h pre post hsplit⟩
  · intro h pre post hsplit
    exact (h pre post hsplit).2

/-! ### Facts that stay -/

/-- Facts that hold from the moment on at which they hold first. -/
def Frozen {ι : Type} (step : σ → α → σ) (s : σ) (calls : List α) (I : ι → σ → Prop) : Prop :=
  ∀ i pre mid post, calls = pre ++ (mid ++ post) → I i (run step s pre) →
    I i (run step s (pre ++ mid))

/-- A run freezes facts if and only if each of its calls keeps those that it finds. -/
theorem frozen_iff {ι : Type} {I : ι → σ → Prop} : Frozen step s calls I ↔
    ∀ i pre a post, calls = pre ++ a :: post → I i (run step s pre) →
      I i (step (run step s pre) a) := by
  constructor
  · intro h i pre a post hsplit hi
    have hstep := h i pre [a] post hsplit hi
    rwa [run_append] at hstep
  · intro h i pre mid
    induction mid generalizing pre with
    | nil =>
        intro post _ hi
        rwa [List.append_nil]
    | cons a mid ih =>
        intro post hsplit hi
        have hnext := h i pre a (mid ++ post) hsplit hi
        have hrest := ih (pre ++ [a]) post (by simp [hsplit]) (by rwa [run_append])
        rwa [List.append_assoc] at hrest

/-! ### What holds since a call -/

/-- A fact that calls establish and calls end holds after a run if and only if a call of the run
has established it and no later one has ended it. -/
theorem holds_iff_since {β : Type} {I : σ → Prop} (holds : σ → β → Prop)
    (starts stops : σ → α → β → Prop) {b : β} (hI : I s) (hkeep : ∀ s a, I s → I (step s a))
    (hs : ¬ holds s b)
    (hstep : ∀ s a, I s → (holds (step s a) b ↔ starts s a b ∨ holds s b ∧ ¬ stops s a b)) :
    holds (run step s calls) b ↔ ∃ pre a post, calls = pre ++ a :: post ∧
      starts (run step s pre) a b ∧
        ∀ mid c later, post = mid ++ c :: later → ¬ stops (run step s (pre ++ a :: mid)) c b := by
  have hreached : ∀ pre, I (run step s pre) := fun pre => run_invariant hkeep hI
  constructor
  · intro h
    induction calls using List.reverseRecOn with
    | nil => exact absurd h hs
    | append_singleton calls c ih =>
        rw [run_append] at h
        rcases (hstep _ c (hreached _)).1 h with hstarts | ⟨hold, hlast⟩
        · refine ⟨calls, c, [], rfl, hstarts, fun mid c later hsplit => ?_⟩
          cases mid <;> cases hsplit
        · obtain ⟨pre, a, post, rfl, hstarts, hkept⟩ := ih hold
          refine ⟨pre, a, post ++ [c], by simp, hstarts, fun mid c' later hsplit => ?_⟩
          -- the call is one of those before the last, or it is the last
          have hprefix : mid ++ [c'] <+: post ++ [c] := ⟨later, by simp [hsplit]⟩
          rcases List.prefix_concat_iff.1 hprefix with hall | ⟨rest, hrest⟩
          · obtain ⟨rfl, hc⟩ := List.append_inj' hall rfl
            obtain rfl := List.singleton_inj.1 hc
            exact hlast
          · exact hkept mid c' rest (by simp [← hrest])
  · rintro ⟨pre, a, post, rfl, hstarts, hkept⟩
    rw [run_append, run_cons]
    induction post using List.reverseRecOn with
    | nil => exact (hstep _ a (hreached pre)).2 (.inl hstarts)
    | append_singleton post c ih =>
        have hnow : I (run step (step (run step s pre) a) post) := by
          have hpost := hreached (pre ++ a :: post)
          rwa [run_append, run_cons] at hpost
        rw [run_append]
        refine (hstep _ c hnow).2 (.inr ⟨ih fun mid c' later hsplit => ?_, ?_⟩)
        · exact hkept mid c' (later ++ [c]) (by simp [hsplit])
        · have hlast := hkept post c [] rfl
          rwa [run_append, run_cons] at hlast

/-! ### What a register has held -/

section Register

variable {β : Type} {f : σ → Option β} {w : σ → α → Option β} {r : β → β → Prop}
  {calls' : List α} {b : β}

/-- What the calls of a run write, in their order. -/
def written (step : σ → α → σ) (writes : σ → α → Option β) : σ → List α → List β
  | _, [] => []
  | s, a :: calls => (writes s a).toList ++ written step writes (step s a) calls

@[simp] theorem written_nil : written step w s [] = [] := rfl

@[simp] theorem written_append : written step w s (calls ++ calls') =
    written step w s calls ++ written step w (run step s calls) calls' := by
  induction calls generalizing s with
  | nil => rfl
  | cons a calls ih => simp only [List.cons_append, written, run_cons, ih, List.append_assoc]

theorem written_singleton {a : α} : written step w s [a] = (w s a).toList :=
  List.append_nil _

/-- A register holds what has been written last. -/
theorem holds_eq_getLast? (hstep : ∀ s a, f (step s a) = (w s a).or (f s))
    (hs : f s = none) :
    f (run step s calls) = (written step w s calls).getLast? := by
  induction calls using List.reverseRecOn with
  | nil => exact hs
  | append_singleton calls a ih =>
      rw [run_append, run_cons, run_nil, hstep, ih, written_append, written_singleton,
        List.getLast?_append]
      cases w (run step s calls) a <;> rfl

/-- What has been written has been held. -/
theorem exists_held (hstep : ∀ s a, f (step s a) = (w s a).or (f s))
    (hb : b ∈ written step w s calls) :
    ∃ pre post, calls = pre ++ post ∧ f (run step s pre) = some b := by
  induction calls using List.reverseRecOn with
  | nil => cases hb
  | append_singleton calls a ih =>
      rw [written_append, written_singleton, List.mem_append, Option.mem_toList] at hb
      rcases hb with hold | hlast
      · obtain ⟨pre, post, rfl, hheld⟩ := ih hold
        exact ⟨pre, post ++ [a], by rw [List.append_assoc], hheld⟩
      · refine ⟨calls ++ [a], [], by rw [List.append_nil], ?_⟩
        rw [run_append, run_cons, run_nil, hstep, Option.mem_def.1 hlast, Option.some_or]

/-- What a register holds is related to all that it holds later if and only if what is written is
related to all that is written later. -/
theorem held_pairwise_iff (hstep : ∀ s a, f (step s a) = (w s a).or (f s))
    (hs : f s = none) (hr : ∀ b, r b b) :
    (∀ pre mid post, calls = pre ++ (mid ++ post) → ∀ a ∈ f (run step s pre),
        ∀ b ∈ f (run step s (pre ++ mid)), r a b) ↔
      (written step w s calls).Pairwise r := by
  constructor
  · intro h
    induction calls using List.reverseRecOn with
    | nil => exact List.Pairwise.nil
    | append_singleton calls c ih =>
        have hold := ih fun pre mid post hsplit => h pre mid (post ++ [c]) (by simp [hsplit])
        rw [written_append, written_singleton, List.pairwise_append]
        refine ⟨hold, ?_, fun a ha b hb => ?_⟩
        · cases w (run step s calls) c with
          | none => exact List.Pairwise.nil
          | some b => exact List.pairwise_singleton r b
        · -- the old value has been held before the last call, the new one is held after it
          obtain ⟨pre, mid, rfl, hheld⟩ := exists_held hstep ha
          refine h pre (mid ++ [c]) [] (by simp) a hheld b ?_
          rw [← List.append_assoc, run_append, run_cons, run_nil, hstep,
            Option.mem_def.1 (Option.mem_toList.1 hb)]
          rfl
  · rintro h pre mid post rfl a ha b hb
    rw [← List.append_assoc, written_append] at h
    have hnow := (List.pairwise_append.1 h).1
    rw [holds_eq_getLast? hstep hs] at ha hb
    rw [written_append] at hnow hb
    rw [List.getLast?_append, Option.mem_def, Option.or_eq_some_iff] at hb
    rcases hb with hlater | ⟨-, hb⟩
    · exact (List.pairwise_append.1 hnow).2.2 a (List.mem_of_getLast? ha) b
        (List.mem_of_getLast? hlater)
    · obtain rfl := Option.some.inj (ha.symm.trans hb)
      exact hr a

end Register

/-! ### Runs that may stop -/

/-- A machine that follows another one step by step follows its runs. -/
theorem foldlM_simulation {τ : Type} {f : σ → α → Option σ} {g : τ → α → Option τ}
    {R : τ → σ → Prop}
    (hstep : ∀ t s a s', a ∈ calls → R t s → f s a = some s' → ∃ t', g t a = some t' ∧ R t' s')
    {t : τ} {s' : σ} (hR : R t s) (h : calls.foldlM f s = some s') :
    ∃ t', calls.foldlM g t = some t' ∧ R t' s' := by
  induction calls generalizing s t with
  | nil =>
      obtain rfl := Option.some.inj h
      exact ⟨t, rfl, hR⟩
  | cons a calls ih =>
      obtain ⟨u, hu, hrest⟩ := Option.bind_eq_some_iff.1 h
      obtain ⟨v, hv, hRv⟩ := hstep t s a u List.mem_cons_self hR hu
      obtain ⟨t', ht', hR'⟩ :=
        ih (fun t s a s' ha => hstep t s a s' (List.mem_cons_of_mem _ ha)) hRv hrest
      refine ⟨t', ?_, hR'⟩
      rw [List.foldlM_cons, hv]
      exact ht'

/-! ### What a run emits -/

section Emitted

variable {β γ : Type} {e : σ → α → List β} {calls' : List α}

/-- What the calls of a run emit, in their order. -/
def emitted (step : σ → α → σ) (emits : σ → α → List β) : σ → List α → List β
  | _, [] => []
  | s, a :: calls => emits s a ++ emitted step emits (step s a) calls

@[simp] theorem emitted_nil : emitted step e s [] = [] := rfl

@[simp] theorem emitted_append : emitted step e s (calls ++ calls') =
    emitted step e s calls ++ emitted step e (run step s calls) calls' := by
  induction calls generalizing s with
  | nil => rfl
  | cons a calls ih => simp only [List.cons_append, emitted, run_cons, ih, List.append_assoc]

@[simp] theorem emitted_singleton {a : α} : emitted step e s [a] = e s a := List.append_nil _

/-- A translation of what the calls emit translates what the run emits. -/
theorem emitted_translate {f : List β → List γ} {g : σ → α → List γ} {I : σ → Prop} (hI : I s)
    (hkeep : ∀ s a, I s → I (step s a)) (hf : f [] = []) (hf' : ∀ x y, f (x ++ y) = f x ++ f y)
    (hg : ∀ s a, I s → g s a = f (e s a)) :
    emitted step g s calls = f (emitted step e s calls) := by
  induction calls generalizing s with
  | nil => exact hf.symm
  | cons a calls ih => rw [emitted, emitted, hf', hg s a hI, ih (hkeep s a hI)]

/-- What waits in a queue and what has left it is what waited and what has come to it. -/
theorem emitted_flow {content : σ → List β} {out inn : σ → α → List β} {I : σ → Prop} (hI : I s)
    (hkeep : ∀ s a, I s → I (step s a))
    (hstep : ∀ s a, I s → out s a ++ content (step s a) = content s ++ inn s a) :
    emitted step out s calls ++ content (run step s calls) =
      content s ++ emitted step inn s calls := by
  induction calls generalizing s with
  | nil => exact (List.append_nil _).symm
  | cons a calls ih =>
      rw [emitted, emitted, run_cons, List.append_assoc, ih (hkeep s a hI), ← List.append_assoc,
        hstep s a hI, List.append_assoc]

/-- The same where several take from the queue, up to their order. -/
theorem emitted_flow_perm {content : σ → List β} {out inn : σ → α → List β} {I : σ → Prop}
    (hI : I s) (hkeep : ∀ s a, I s → I (step s a))
    (hstep : ∀ s a, I s → (out s a ++ content (step s a)).Perm (content s ++ inn s a)) :
    (emitted step out s calls ++ content (run step s calls)).Perm
      (content s ++ emitted step inn s calls) := by
  induction calls generalizing s with
  | nil =>
      rw [emitted_nil, emitted_nil, List.append_nil]
      rfl
  | cons a calls ih =>
      rw [emitted, emitted, run_cons, List.append_assoc, ← List.append_assoc (content s)]
      refine ((ih (hkeep s a hI)).append_left (out s a)).trans ?_
      rw [← List.append_assoc]
      exact (hstep s a hI).append_right _

/-- A counter counts what the run emits. -/
theorem count_emitted (count : σ → ℕ) {p : β → Bool} {I : σ → Prop} (hI : I s)
    (hkeep : ∀ s a, I s → I (step s a))
    (hstep : ∀ s a, I s → count (step s a) = count s + (e s a).countP p) :
    count (run step s calls) = count s + (emitted step e s calls).countP p := by
  induction calls generalizing s with
  | nil => rfl
  | cons a calls ih =>
      rw [run_cons, emitted, List.countP_append, ih (hkeep s a hI), hstep s a hI, Nat.add_assoc]

end Emitted

end SolTrade.Library.Runs
