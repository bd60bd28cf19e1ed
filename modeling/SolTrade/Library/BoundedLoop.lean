import Mathlib.Tactic.Common

/-!
Loops with an iteration budget.

A `for _ in range(n)` loop whose body may fail, return, break or fall through
to the next iteration, followed by code that runs when the loop ends by a break
or by using up its budget. The module gives the meaning of such a loop and the
rules by which a run is proved: an invariant is carried by single iterations, a
variant bounds their number, and a second loop simulates a first one iteration
by iteration.
-/

namespace SolTrade.Library

/-- How one iteration ends, when it does not fail. -/
inductive Flow (σ ρ : Type) where
  | next (s : σ)
  | brk (s : σ)
  | ret (r : ρ)
  deriving DecidableEq

namespace BoundedLoop

variable {ε σ ρ : Type}

/-- Runs `body` at most `n` times from `s`, then `after`. -/
def run (body : σ → Except ε (Flow σ ρ)) (after : σ → Except ε ρ) : ℕ → σ → Except ε ρ
  | 0, s => after s
  | n + 1, s =>
      match body s with
      | .error e => .error e
      | .ok (.ret r) => .ok r
      | .ok (.brk s') => after s'
      | .ok (.next s') => run body after n s'

/-- `Steps body k s t`: the loop started in `s` is in `t` after `k` iterations. -/
inductive Steps (body : σ → Except ε (Flow σ ρ)) : ℕ → σ → σ → Prop
  | refl (s : σ) : Steps body 0 s s
  | snoc {k : ℕ} {s t u : σ} :
      Steps body k s t → body t = .ok (.next u) → Steps body (k + 1) s u

/-- A state in which some iteration of the loop started in `s` begins. -/
def Reaches (body : σ → Except ε (Flow σ ρ)) (s t : σ) : Prop := ∃ k, Steps body k s t

variable {body : σ → Except ε (Flow σ ρ)} {after : σ → Except ε ρ}

theorem Reaches.refl (s : σ) : Reaches body s s := ⟨0, .refl s⟩

theorem Reaches.snoc {s t u : σ} (h : Reaches body s t) (hb : body t = .ok (.next u)) :
    Reaches body s u := by
  obtain ⟨k, hk⟩ := h
  exact ⟨k + 1, hk.snoc hb⟩

theorem Steps.cons {k : ℕ} {s t u : σ} (hb : body s = .ok (.next t))
    (h : Steps body k t u) : Steps body (k + 1) s u := by
  induction h with
  | refl => exact .snoc (.refl s) hb
  | snoc _ hlast ih => exact .snoc (ih hb) hlast

theorem Steps.reaches {k : ℕ} {s t : σ} (h : Steps body k s t) : Reaches body s t := ⟨k, h⟩

/-- The invariant rule for the states between iterations. -/
theorem Steps.invariant {I : σ → Prop}
    (hstep : ∀ s t, I s → body s = .ok (.next t) → I t)
    {k : ℕ} {s t : σ} (h : Steps body k s t) (hs : I s) : I t := by
  induction h with
  | refl => exact hs
  | snoc _ hb ih => exact hstep _ _ (ih hs) hb

theorem Reaches.invariant {I : σ → Prop}
    (hstep : ∀ s t, I s → body s = .ok (.next t) → I t)
    {s t : σ} (h : Reaches body s t) (hs : I s) : I t := by
  obtain ⟨k, hk⟩ := h
  exact hk.invariant hstep hs

/-- The invariant rule that also sees where in the run a state stands. -/
theorem Reaches.invariant' {I : σ → Prop} {s₀ : σ}
    (hstep : ∀ s t, Reaches body s₀ s → I s → body s = .ok (.next t) → I t)
    {t : σ} (h : Reaches body s₀ t) (hs : I s₀) : I t := by
  obtain ⟨k, hk⟩ := h
  induction hk with
  | refl => exact hs
  | snoc hk hb ih => exact hstep _ _ hk.reaches (ih hstep hs) hb

/-- How a loop that returned came to its result. -/
theorem run_ok {n : ℕ} {s : σ} {r : ρ} (h : run body after n s = .ok r) :
    ∃ t, Reaches body s t ∧
      (body t = .ok (.ret r) ∨ (∃ u, body t = .ok (.brk u) ∧ after u = .ok r) ∨
        (Steps body n s t ∧ after t = .ok r)) := by
  induction n generalizing s with
  | zero => exact ⟨s, .refl s, .inr (.inr ⟨.refl s, h⟩)⟩
  | succ n ih =>
      simp only [run] at h
      split at h
      · contradiction
      · rename_i r' hb
        cases h
        exact ⟨s, .refl s, .inl hb⟩
      · rename_i u hb
        exact ⟨s, .refl s, .inr (.inl ⟨u, hb, h⟩)⟩
      · rename_i u hb
        obtain ⟨t, ⟨k, hk⟩, hexit⟩ := ih h
        refine ⟨t, ⟨k + 1, hk.cons hb⟩, ?_⟩
        rcases hexit with hret | hbrk | ⟨hn, ha⟩
        · exact .inl hret
        · exact .inr (.inl hbrk)
        · exact .inr (.inr ⟨hn.cons hb, ha⟩)

/-- How a loop that failed came to its error. -/
theorem run_error {n : ℕ} {s : σ} {e : ε} (h : run body after n s = .error e) :
    ∃ t, Reaches body s t ∧
      (body t = .error e ∨ (∃ u, body t = .ok (.brk u) ∧ after u = .error e) ∨
        (Steps body n s t ∧ after t = .error e)) := by
  induction n generalizing s with
  | zero => exact ⟨s, .refl s, .inr (.inr ⟨.refl s, h⟩)⟩
  | succ n ih =>
      simp only [run] at h
      split at h
      · rename_i e' hb
        cases h
        exact ⟨s, .refl s, .inl hb⟩
      · contradiction
      · rename_i u hb
        exact ⟨s, .refl s, .inr (.inl ⟨u, hb, h⟩)⟩
      · rename_i u hb
        obtain ⟨t, ⟨k, hk⟩, hexit⟩ := ih h
        refine ⟨t, ⟨k + 1, hk.cons hb⟩, ?_⟩
        rcases hexit with herr | hbrk | ⟨hn, ha⟩
        · exact .inl herr
        · exact .inr (.inl hbrk)
        · exact .inr (.inr ⟨hn.cons hb, ha⟩)

/-- A run that returns got through its first iteration. -/
theorem first_ok {n : ℕ} {s : σ} {r : ρ} (h : run body after (n + 1) s = .ok r) :
    ∃ flow, body s = .ok flow := by
  cases hb : body s with
  | error e => simp [run, hb] at h
  | ok flow => exact ⟨flow, rfl⟩

theorem run_next {s t : σ} (h : body s = .ok (.next t)) (n : ℕ) :
    run body after (n + 1) s = run body after n t := by
  simp only [run, h]

/-- A state that an iteration leaves unchanged uses the whole budget up. -/
theorem run_of_fixpoint {s : σ} (h : body s = .ok (.next s)) (n : ℕ) :
    run body after n s = after s := by
  induction n with
  | zero => rfl
  | succ n ih => rw [run_next h, ih]

section Simulation

variable {τ : Type} {body' : τ → Except ε (Flow τ ρ)} {after' : τ → Except ε ρ}

/-- Lock-step simulation of a run that returns `r`. Every case may use that the
rest of the run still returns `r`, which is how a fact about the final result
reaches the iteration in the middle. -/
theorem run_simulation {R : σ → τ → Prop} {r : ρ}
    (hnext : ∀ s t s' n, R s t → body s = .ok (.next s') → run body after n s' = .ok r →
      ∃ t', body' t = .ok (.next t') ∧ R s' t')
    (hbrk : ∀ s t s', R s t → body s = .ok (.brk s') → after s' = .ok r →
      ∃ t', body' t = .ok (.brk t') ∧ after' t' = .ok r)
    (hret : ∀ s t, R s t → body s = .ok (.ret r) → body' t = .ok (.ret r))
    (hafter : ∀ s t, R s t → after s = .ok r → after' t = .ok r)
    {n : ℕ} {s : σ} {t : τ} (hR : R s t) (h : run body after n s = .ok r) :
    run body' after' n t = .ok r := by
  induction n generalizing s t with
  | zero => exact hafter s t hR h
  | succ n ih =>
      simp only [run] at h
      split at h
      · contradiction
      · rename_i r' hb
        cases h
        simp only [run, hret s t hR hb]
      · rename_i u hb
        obtain ⟨t', hb', ha'⟩ := hbrk s t u hR hb h
        simp only [run, hb', ha']
      · rename_i u hb
        obtain ⟨t', hb', hR'⟩ := hnext s t u n hR hb h
        simp only [run, hb']
        exact ih hR' h

/-- Two loops side by side: they go on together as long as their states stay
related, and as soon as one of them does not go on their outcomes are related. -/
theorem run_compare {R : σ → τ → Prop} {Q : Except ε ρ → Except ε ρ → Prop}
    (hstep : ∀ s t, R s t →
      (∃ s' t', body s = .ok (.next s') ∧ body' t = .ok (.next t') ∧ R s' t') ∨
        ∀ n, Q (run body after (n + 1) s) (run body' after' (n + 1) t))
    (hafter : ∀ s t, R s t → Q (after s) (after' t)) (n : ℕ) {s : σ} {t : τ} (h : R s t) :
    Q (run body after n s) (run body' after' n t) := by
  induction n generalizing s t with
  | zero => exact hafter s t h
  | succ n ih =>
      rcases hstep s t h with ⟨s', t', hs, ht, h'⟩ | hend
      · rw [run_next hs, run_next ht]
        exact ih h'
      · exact hend n

end Simulation

/-- With a budget of at least the variant, the budget is never what ends the
loop, so a larger one changes nothing. -/
theorem run_eq_of_variant {I : σ → Prop} {μ : σ → ℕ}
    (hstep : ∀ s t, I s → body s = .ok (.next t) → I t ∧ μ t < μ s)
    {m n : ℕ} {s : σ} (hs : I s) (hm : μ s < m) (hn : μ s < n) :
    run body after m s = run body after n s := by
  induction m generalizing n s with
  | zero => omega
  | succ m ih =>
      obtain ⟨n, rfl⟩ : ∃ k, n = k + 1 := ⟨n - 1, by omega⟩
      simp only [run]
      split
      · rfl
      · rfl
      · rfl
      · rename_i t hb
        obtain ⟨ht, hlt⟩ := hstep s t hs hb
        exact ih ht (by omega) (by omega)

/-! ### Loops without a budget

A `while` loop is a loop whose budget does not matter: it settles on what every
large enough budget gives. -/

section Settles

/-- The result that every large enough budget gives. -/
def Settles (body : σ → Except ε (Flow σ ρ)) (after : σ → Except ε ρ) (s : σ)
    (r : Except ε ρ) : Prop :=
  ∃ n₀, ∀ n, n₀ ≤ n → run body after n s = r

variable {s t : σ} {r r' : Except ε ρ}

theorem Settles.unique (h : Settles body after s r) (h' : Settles body after s r') : r = r' := by
  obtain ⟨m, hm⟩ := h
  obtain ⟨n, hn⟩ := h'
  rw [← hm (m + n) (by omega), hn (m + n) (by omega)]

theorem settles_of_next (h : body s = .ok (.next t)) :
    Settles body after s r ↔ Settles body after t r := by
  constructor
  · rintro ⟨m, hm⟩
    refine ⟨m, fun n hn => ?_⟩
    rw [← run_next h, hm (n + 1) (by omega)]
  · rintro ⟨m, hm⟩
    refine ⟨m + 1, fun n hn => ?_⟩
    obtain ⟨n, rfl⟩ : ∃ k, n = k + 1 := ⟨n - 1, by omega⟩
    rw [run_next h, hm n (by omega)]

theorem settles_of_brk (h : body s = .ok (.brk t)) : Settles body after s (after t) := by
  refine ⟨1, fun n hn => ?_⟩
  obtain ⟨n, rfl⟩ : ∃ k, n = k + 1 := ⟨n - 1, by omega⟩
  simp only [run, h]

/-- Two loops that end in the same way settle alike. -/
theorem settles_of_same_end {body' : σ → Except ε (Flow σ ρ)} (h : body' s = body s)
    (hnext : ∀ u, body s ≠ .ok (.next u)) (hs : Settles body after s r) :
    Settles body' after s r := by
  obtain ⟨m, hm⟩ := hs
  refine ⟨m + 1, fun n hn => ?_⟩
  obtain ⟨n, rfl⟩ : ∃ k, n = k + 1 := ⟨n - 1, by omega⟩
  rw [← hm (n + 1) (by omega)]
  simp only [run, h]
  split
  · rfl
  · rfl
  · rfl
  · rename_i u hu
    exact absurd hu (hnext u)

/-- A budget above the variant is large enough. -/
theorem settles_of_variant {I : σ → Prop} {μ : σ → ℕ}
    (hstep : ∀ s t, I s → body s = .ok (.next t) → I t ∧ μ t < μ s) {n : ℕ} (hs : I s)
    (hn : μ s < n) : Settles body after s (run body after n s) :=
  ⟨n, fun _ hm => run_eq_of_variant hstep hs (by omega) hn⟩

end Settles

end BoundedLoop

end SolTrade.Library
