import Mathlib.Data.List.Infix

/-!
Generators.

A generator yields values one by one and returns, or raises an error. What it has
yielded by then stays.
-/

namespace SolTrade.Library.Yielding

/-- The state holds what has been yielded. -/
abbrev Generator (ε ρ : Type) := ExceptT ε (StateM (List ρ))

variable {ε ρ α β : Type} {x : Generator ε ρ α} {f : α → Generator ε ρ β} {a : α} {b : β} {e : ε}
  {yielded yielded' all : List ρ} {budgets : List ε}

/-- How the generator ends, and what has been yielded by then. -/
def runFrom (x : Generator ε ρ α) (yielded : List ρ) : Except ε α × List ρ :=
  (x.run.run yielded).run

@[simp] theorem runFrom_pure : runFrom (pure a : Generator ε ρ α) yielded = (.ok a, yielded) := rfl

@[simp] theorem runFrom_throw : runFrom (throw e : Generator ε ρ α) yielded = (.error e, yielded) :=
  rfl

@[simp] theorem runFrom_get :
    runFrom (get : Generator ε ρ (List ρ)) yielded = (.ok yielded, yielded) :=
  rfl

@[simp] theorem runFrom_modify (f : List ρ → List ρ) :
    runFrom (modify f : Generator ε ρ PUnit) yielded = (.ok ⟨⟩, f yielded) := rfl

@[simp] theorem runFrom_ofExcept {r : Except ε α} :
    runFrom (ofExcept r : Generator ε ρ α) yielded = (r, yielded) := by
  cases r <;> rfl

theorem runFrom_bind : runFrom (x >>= f) yielded =
    match runFrom x yielded with
    | (.ok a, yielded') => runFrom (f a) yielded'
    | (.error e, yielded') => (.error e, yielded') := by
  unfold runFrom
  rw [ExceptT.run_bind, StateT.run_bind, Id.run_bind]
  rcases (x.run.run yielded).run with ⟨_ | _, _⟩ <;> rfl

theorem runFrom_bind_ok (h : runFrom x yielded = (.ok a, yielded')) :
    runFrom (x >>= f) yielded = runFrom (f a) yielded' := by
  rw [runFrom_bind, h]

theorem runFrom_bind_error (h : runFrom x yielded = (.error e, yielded')) :
    runFrom (x >>= f) yielded = (.error e, yielded') := by
  rw [runFrom_bind, h]

/-! ### Budgets -/

/-- The generator returns `a` when `all` has been yielded. It raises one of the budgets
if it stops before. -/
def Completes (budgets : List ε) (x : Generator ε ρ α) (yielded : List ρ) (a : α) (all : List ρ) :
    Prop :=
  runFrom x yielded = (.ok a, all) ∨
    ∃ e ∈ budgets, ∃ yielded', yielded' <+: all ∧ runFrom x yielded = (.error e, yielded')

theorem Completes.pure : Completes budgets (pure a : Generator ε ρ α) yielded a yielded := .inl rfl

theorem Completes.bind {mid : List ρ} (hx : Completes budgets x yielded a mid)
    (hf : Completes budgets (f a) mid b all) (hle : mid <+: all) :
    Completes budgets (x >>= f) yielded b all := by
  rcases hx with hx | ⟨e, he, yielded', hinitial, hx⟩
  · unfold Completes
    rwa [runFrom_bind_ok hx]
  · exact .inr ⟨e, he, yielded', hinitial.trans hle, runFrom_bind_error hx⟩

/-- A fold completes when its steps do. -/
theorem Completes.foldlM {γ σ : Type} {step : σ → γ → Generator ε ρ σ} {next : σ → γ → σ}
    {yields : γ → List ρ} {cs : List γ}
    (hstep : ∀ c ∈ cs, ∀ s yielded,
      Completes budgets (step s c) yielded (next s c) (yielded ++ yields c))
    (s : σ) (yielded : List ρ) :
    Completes budgets (cs.foldlM step s) yielded (cs.foldl next s)
      (yielded ++ cs.flatMap yields) := by
  induction cs generalizing s yielded with
  | nil =>
      rw [List.flatMap_nil, List.append_nil]
      exact Completes.pure
  | cons c cs ih =>
      rw [List.foldlM_cons, List.foldl_cons, List.flatMap_cons, ← List.append_assoc]
      obtain ⟨hfirst, hlater⟩ := List.forall_mem_cons.1 hstep
      exact (hfirst s yielded).bind (ih hlater _ _) (List.prefix_append _ _)

section Filters

variable {γ σ : Type} {p : γ → Prop} [DecidablePred p] {cs : List γ}

theorem flatMap_ite : (cs.flatMap fun c => if p c then [c] else []) = cs.filter p := by
  induction cs with
  | nil => rfl
  | cons c cs ih =>
      rw [List.flatMap_cons, ih, List.filter_cons]
      by_cases hc : p c <;> simp [hc]

theorem foldl_ite_append {entry : γ → σ} (kept : List σ) :
    cs.foldl (fun kept c => if p c then kept ++ [entry c] else kept) kept =
      kept ++ (cs.filter p).map entry := by
  induction cs generalizing kept with
  | nil => simp
  | cons c cs ih =>
      rw [List.foldl_cons, ih, List.filter_cons]
      by_cases hc : p c <;> simp [hc]

end Filters

/-- A fold whose steps yield the values that are wanted and keep those to go on with. -/
theorem Completes.foldlM_filter {σ : Type} {step : List σ → ρ → Generator ε ρ (List σ)}
    {keep wanted : ρ → Prop} [DecidablePred keep] [DecidablePred wanted] {entry : ρ → σ}
    (hstep : ∀ kept r yielded, Completes budgets (step kept r) yielded
      (if keep r then kept ++ [entry r] else kept)
      (yielded ++ if wanted r then [r] else []))
    (rs : List ρ) (kept : List σ) (yielded : List ρ) :
    Completes budgets (rs.foldlM step kept) yielded (kept ++ (rs.filter keep).map entry)
      (yielded ++ rs.filter wanted) := by
  rw [← foldl_ite_append, ← flatMap_ite]
  exact Completes.foldlM (fun r _ kept yielded => hstep kept r yielded) kept yielded

end SolTrade.Library.Yielding
