import Mathlib.Data.List.Forall2
import Mathlib.Tactic.Common

/-!
Inversion of computations that may raise.

A function that checks its arguments is a chain of binds in `Except`; these
lemmas take a successful run of such a chain apart, one bind at a time.
-/

namespace SolTrade.Library

variable {ε α β : Type}

/-- `if not p: raise e`. -/
def require (p : Prop) [Decidable p] (e : ε) : Except ε Unit :=
  if p then .ok () else .error e

@[simp] theorem require_eq_ok {p : Prop} [Decidable p] {e : ε} {u : Unit} :
    require p e = .ok u ↔ p := by
  unfold require
  split <;> simp_all

theorem require_of {p : Prop} [Decidable p] {e : ε} (h : p) : require p e = .ok () := by
  simp [h]

theorem require_of_not {p : Prop} [Decidable p] {e : ε} (h : ¬ p) : require p e = .error e :=
  if_neg h

theorem bind_eq_ok {x : Except ε α} {f : α → Except ε β} {b : β} :
    (x >>= f) = .ok b ↔ ∃ a, x = .ok a ∧ f a = .ok b := by
  cases x with
  | error e => simp [bind, Except.bind]
  | ok a => simp [bind, Except.bind]

theorem bind_eq_error {x : Except ε α} {f : α → Except ε β} {e : ε} :
    (x >>= f) = .error e ↔ x = .error e ∨ ∃ a, x = .ok a ∧ f a = .error e := by
  cases x with
  | error e' => simp [bind, Except.bind]
  | ok a => simp [bind, Except.bind]

theorem bind_congr_ok {x : Except ε α} {f g : α → Except ε β} (h : ∀ a, x = .ok a → f a = g a) :
    x >>= f = x >>= g := by
  cases x with
  | error e => rfl
  | ok a => exact h a rfl

@[simp] theorem ok_bind {a : α} {f : α → Except ε β} : ((.ok a : Except ε α) >>= f) = f a := rfl

theorem error_bind {e : ε} {f : α → Except ε β} : ((.error e : Except ε α) >>= f) = .error e := rfl

theorem ite_error_bind {p : Prop} [Decidable p] {e : ε} {x : Except ε α} {f : α → Except ε β} :
    ((if p then .error e else x) >>= f) = if p then .error e else x >>= f := by
  split <;> rfl

theorem exists_of_isOk {x : Except ε α} (h : x.isOk = true) : ∃ a, x = .ok a := by
  cases x with
  | error e => exact absurd h (by simp [Except.isOk, Except.toBool])
  | ok a => exact ⟨a, rfl⟩

theorem exists_of_isSome {x : Except ε (Option α)} (h : (x.toOption.bind id).isSome = true) :
    ∃ a, x = .ok (some a) := by
  cases x with
  | error e => cases h
  | ok o =>
      cases o with
      | none => cases h
      | some a => exact ⟨a, rfl⟩

theorem mapError_eq_ok {ε' : Type} {x : Except ε α} {f : ε → ε'} {a : α} :
    x.mapError f = .ok a ↔ x = .ok a := by
  cases x with
  | error e => exact iff_of_false nofun nofun
  | ok b => rw [Except.mapError, Except.ok.injEq, Except.ok.injEq]

theorem map_eq_ok {x : Except ε α} {f : α → β} {b : β} :
    x.map f = .ok b ↔ ∃ a, x = .ok a ∧ f a = b := by
  cases x with
  | error e => simp [Except.map]
  | ok a => simp [Except.map]

@[simp] theorem pure_eq_ok {a b : α} : (pure a : Except ε α) = .ok b ↔ a = b := by
  simp [pure, Except.pure]

/-- What every step of a successful run keeps, of the items taken so far and the state. -/
theorem foldlM_ok_induction {step : β → α → Except ε β} {motive : List α → β → Prop}
    (hstep : ∀ taken a b b', motive taken b → step b a = .ok b' → motive (taken ++ [a]) b')
    {items taken : List α} {b b' : β} (h : motive taken b) (hrun : items.foldlM step b = .ok b') :
    motive (taken ++ items) b' := by
  induction items generalizing taken b with
  | nil =>
      obtain rfl := pure_eq_ok.1 hrun
      rwa [List.append_nil]
  | cons a items ih =>
      rw [List.foldlM_cons, bind_eq_ok] at hrun
      obtain ⟨next, hnext, hrest⟩ := hrun
      have htail := ih (hstep taken a b next h hnext) hrest
      rwa [List.append_assoc] at htail

/-! ### Errors that a computation cannot raise -/

theorem bind_ne_error {x : Except ε α} {f : α → Except ε β} {e : ε} (hx : x ≠ .error e)
    (hf : ∀ a, f a ≠ .error e) : (x >>= f) ≠ .error e := by
  rw [ne_eq, bind_eq_error]
  rintro (h | ⟨a, -, h⟩)
  · exact hx h
  · exact hf a h

theorem require_ne_error {p : Prop} [Decidable p] {e e' : ε} (h : e' ≠ e) :
    require p e' ≠ .error e := by
  unfold require
  split <;> simp [h]

theorem pure_ne_error {a : α} {e : ε} : (pure a : Except ε α) ≠ .error e := by
  simp [pure, Except.pure]

theorem ite_ne_error {p : Prop} [Decidable p] {x y : Except ε α} {e : ε} (hx : x ≠ .error e)
    (hy : y ≠ .error e) : (if p then x else y) ≠ .error e := by
  split
  · exact hx
  · exact hy

theorem mapError_ne_error {ε' : Type} {x : Except ε α} {f : ε → ε'} {e' : ε'}
    (hf : ∀ e, f e ≠ e') : x.mapError f ≠ .error e' := by
  cases x with
  | ok a => simp [Except.mapError]
  | error e => exact fun h => hf e (Except.error.inj h)

theorem forM_ne_error {f : α → Except ε Unit} {e : ε} (hf : ∀ a, f a ≠ .error e) (xs : List α) :
    forM xs f ≠ .error e := by
  induction xs with
  | nil => exact pure_ne_error
  | cons x xs ih => exact bind_ne_error (hf x) fun _ => ih

theorem mapM_ne_error {f : α → Except ε β} {e : ε} (hf : ∀ a, f a ≠ .error e) (xs : List α) :
    xs.mapM f ≠ .error e := by
  induction xs with
  | nil => exact pure_ne_error
  | cons x xs ih =>
      rw [List.mapM_cons]
      exact bind_ne_error (hf x) fun _ => bind_ne_error ih fun _ => pure_ne_error

/-! ### Lists -/

/-- A list comprehension whose expression may raise. -/
theorem mapM_eq_ok {f : α → Except ε β} {xs : List α} {ys : List β} :
    xs.mapM f = .ok ys ↔ List.Forall₂ (fun x y => f x = .ok y) xs ys := by
  induction xs generalizing ys with
  | nil => simp [pure, Except.pure, eq_comm]
  | cons x xs ih =>
      rw [List.mapM_cons, bind_eq_ok]
      constructor
      · rintro ⟨y, hy, h⟩
        obtain ⟨zs, hzs, h⟩ := bind_eq_ok.1 h
        rw [pure_eq_ok] at h
        subst h
        exact .cons hy (ih.1 hzs)
      · intro h
        cases h with
        | cons hy hzs => exact ⟨_, hy, bind_eq_ok.2 ⟨_, ih.2 hzs, rfl⟩⟩

/-- What an element on the right comes from. -/
theorem exists_of_forall₂ {γ δ : Type} {R : γ → δ → Prop} {xs : List γ} {ys : List δ}
    (h : List.Forall₂ R xs ys) {y : δ} (hy : y ∈ ys) : ∃ x ∈ xs, R x y := by
  obtain ⟨i, hi, rfl⟩ := List.getElem_of_mem hy
  have hlength := h.length_eq
  exact ⟨_, List.getElem_mem (hlength ▸ hi), h.get (hlength ▸ hi) hi⟩

/-- An optional value, checked if it is there. -/
theorem mapM_some_eq_ok {f : α → Except ε β} {a : α} {o : Option β} :
    (some a).mapM f = .ok o ↔ ∃ b, f a = .ok b ∧ some b = o := by
  rw [Option.mapM_some]
  cases f a with
  | error e => simp [Functor.map, Except.map]
  | ok b => simp

/-- A loop that checks every element of a list. -/
theorem forM_eq_ok {f : α → Except ε Unit} {xs : List α} {u : Unit} :
    forM xs f = .ok u ↔ ∀ x ∈ xs, f x = .ok () := by
  induction xs with
  | nil => simp [pure, Except.pure]
  | cons x xs ih =>
      rw [List.forM_cons, bind_eq_ok]
      simp only [List.mem_cons, forall_eq_or_imp, ih]
      exact ⟨fun ⟨_, hx, hxs⟩ => ⟨hx, hxs⟩, fun ⟨hx, hxs⟩ => ⟨(), hx, hxs⟩⟩

/-- A `for` loop that only checks. -/
theorem forall_of_forIn {f : α → Except ε β} {xs : List α} {u : PUnit}
    (h : (forIn xs PUnit.unit fun a _ => do
      let _ ← f a
      pure (ForInStep.yield PUnit.unit)) = .ok u) : ∀ a ∈ xs, ∃ b, f a = .ok b := by
  induction xs with
  | nil => exact List.forall_mem_nil _
  | cons x xs ih =>
      rw [List.forIn_cons, bind_eq_ok] at h
      obtain ⟨step, hstep, h⟩ := h
      obtain ⟨b, hb, hyield⟩ := bind_eq_ok.1 hstep
      rw [pure_eq_ok] at hyield
      subst hyield
      exact List.forall_mem_cons.2 ⟨⟨b, hb⟩, ih h⟩

theorem foldlM_congr {γ : Type} {f g : β → γ → Except ε β} {cs : List γ} {b : β}
    (h : ∀ c ∈ cs, ∀ b, f b c = g b c) : cs.foldlM f b = cs.foldlM g b := by
  induction cs generalizing b with
  | nil => rfl
  | cons c cs ih =>
      obtain ⟨hfirst, hlater⟩ := List.forall_mem_cons.1 h
      rw [List.foldlM_cons, List.foldlM_cons, hfirst]
      exact bind_congr_ok fun b' _ => ih hlater

end SolTrade.Library
