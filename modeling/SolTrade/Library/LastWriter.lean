import Mathlib.Data.List.Induction
import Mathlib.Logic.Function.Basic
import Mathlib.Order.Lattice

/-!
Maps that keep the newest update of every key.

An update replaces what is stored only if its version is greater. As long as a
key has one value for every version, what is stored in the end is a function of
the set of delivered updates: the greatest version of each key, whatever the
order, the batching and the repetitions.
-/

namespace SolTrade.Library.LastWriter

variable {K V W : Type} [DecidableEq K] [LinearOrder W] (version : V → W)

/-- The value replaces what is stored. -/
def Newer (old : Option V) (v : V) : Prop := ∀ o ∈ old, version o < version v

instance (old : Option V) (v : V) : Decidable (Newer version old v) :=
  match old with
  | none => isTrue fun _ h => nomatch h
  | some o => decidable_of_iff (version o < version v) (by simp [Newer])

def deliver (m : K → Option V) (u : K × V) : K → Option V :=
  if Newer version (m u.1) u.2 then Function.update m u.1 (some u.2) else m

def deliverAll (m : K → Option V) (us : List (K × V)) : K → Option V :=
  us.foldl (deliver version) m

/-- How many of the updates replace something or are the first of their key. -/
def changes : (K → Option V) → List (K × V) → ℕ
  | _, [] => 0
  | m, u :: us => (if Newer version (m u.1) u.2 then 1 else 0) + changes (deliver version m u) us

/-- A key has one value for every version. -/
def Coherent (us : List (K × V)) : Prop :=
  ∀ k a b, (k, a) ∈ us → (k, b) ∈ us → version a = version b → a = b

/-- The value is an update of the key with the greatest version. -/
def Greatest (us : List (K × V)) (k : K) (a : V) : Prop :=
  (k, a) ∈ us ∧ ∀ b, (k, b) ∈ us → version b ≤ version a

/-- What is stored agrees with an update of the same version. -/
def Agrees (m : K → Option V) (us : List (K × V)) : Prop :=
  ∀ k, ∀ a ∈ m k, ∀ b, (k, b) ∈ us → version a = version b → a = b

variable {version} {m : K → Option V} {u : K × V} {us vs : List (K × V)} {k : K} {a b : V}

@[simp] theorem deliverAll_nil : deliverAll version m [] = m := rfl

@[simp] theorem deliverAll_cons :
    deliverAll version m (u :: us) = deliverAll version (deliver version m u) us := rfl

theorem deliverAll_append :
    deliverAll version m (us ++ vs) = deliverAll version (deliverAll version m us) vs :=
  List.foldl_append ..

theorem deliver_of_newer (h : Newer version (m u.1) u.2) :
    deliver version m u = Function.update m u.1 (some u.2) := if_pos h

theorem deliver_of_not_newer (h : ¬ Newer version (m u.1) u.2) : deliver version m u = m := if_neg h

theorem deliver_of_ne (h : k ≠ u.1) : deliver version m u k = m k := by
  unfold deliver
  split
  · exact Function.update_of_ne h _ _
  · rfl

/-- The key of an update then holds the newer of the two. -/
theorem deliver_self (version : V → W) (m : K → Option V) (u : K × V) :
    Newer version (m u.1) u.2 ∧ deliver version m u u.1 = some u.2 ∨
      ∃ o, m u.1 = some o ∧ version u.2 ≤ version o ∧ deliver version m u u.1 = some o := by
  by_cases h : Newer version (m u.1) u.2
  · rw [deliver_of_newer h]
    exact .inl ⟨h, Function.update_self ..⟩
  · rw [deliver_of_not_newer h]
    simp only [Newer, not_forall, not_lt] at h
    obtain ⟨o, ho, hle⟩ := h
    exact .inr ⟨o, ho, hle, ho⟩

/-! ### What is stored in the end -/

omit [DecidableEq K] in
theorem mem_append_of_ne (hk : k ≠ u.1) : (k, a) ∈ us ++ [u] ↔ (k, a) ∈ us := by
  simp only [List.mem_append, List.mem_singleton, or_iff_left_iff_imp]
  rintro rfl
  exact absurd rfl hk

/-- What a map of updates alone holds is an update of the greatest version, and
it holds one for every key that was updated. -/
theorem deliverAll_spec (version : V → W) (us : List (K × V)) (k : K) :
    (∀ a, deliverAll version (fun _ => none) us k = some a → Greatest version us k a) ∧
      (deliverAll version (fun _ => none) us k = none → ∀ a, (k, a) ∉ us) := by
  induction us using List.reverseRecOn with
  | nil => simp
  | append_singleton us u ih =>
      obtain ⟨hsome, hnone⟩ := ih
      simp only [deliverAll_append, deliverAll_cons, deliverAll_nil]
      generalize deliverAll version (fun _ => none) us = m at hsome hnone
      by_cases hk : k = u.1
      · subst hk
        rcases deliver_self version m u with
          ⟨hnewer, h⟩ | ⟨o, ho, hle, h⟩
        · rw [h]
          refine ⟨fun a ha => ?_, fun ha => by cases ha⟩
          obtain rfl := Option.some.inj ha
          refine ⟨List.mem_append_right _ (List.mem_singleton_self u), fun b hb => ?_⟩
          rcases List.mem_append.1 hb with hold | hnew
          · cases ho : m u.1 with
            | none => exact absurd hold (hnone ho b)
            | some o => exact ((hsome o ho).2 b hold).trans (hnewer o ho).le
          · rw [← List.mem_singleton.1 hnew]
        · rw [h]
          refine ⟨fun a ha => ?_, fun ha => by cases ha⟩
          obtain rfl := Option.some.inj ha
          obtain ⟨hmem, hgreatest⟩ := hsome o ho
          refine ⟨List.mem_append_left _ hmem, fun b hb => ?_⟩
          rcases List.mem_append.1 hb with hold | hnew
          · exact hgreatest b hold
          · rw [← List.mem_singleton.1 hnew] at hle
            exact hle
      · rw [deliver_of_ne hk]
        simp only [Greatest, mem_append_of_ne hk]
        exact ⟨hsome, hnone⟩

/-- Of coherent updates the map holds exactly the greatest version of each key. -/
theorem deliverAll_eq_some_iff (hus : Coherent version us) :
    deliverAll version (fun _ => none) us k = some a ↔ Greatest version us k a := by
  obtain ⟨hsome, hnone⟩ := deliverAll_spec version us k
  refine ⟨hsome a, fun ⟨hmem, hgreatest⟩ => ?_⟩
  cases h : deliverAll version (fun _ => none) us k with
  | none => exact absurd hmem (hnone h a)
  | some b =>
      obtain ⟨hb, hle⟩ := hsome b h
      rw [hus k b a hb hmem (le_antisymm (hgreatest b hb) (hle a hmem))]

/-- Order and repetition do not matter. -/
theorem deliverAll_eq_of_mem_iff (hus : Coherent version us) (h : ∀ u, u ∈ us ↔ u ∈ vs) :
    deliverAll version (fun _ => none) us = deliverAll version (fun _ => none) vs := by
  have hvs : Coherent version vs := fun k a b ha hb => hus k a b ((h _).2 ha) ((h _).2 hb)
  funext k
  ext a
  rw [deliverAll_eq_some_iff hus, deliverAll_eq_some_iff hvs]
  simp only [Greatest, h]

/-! ### Coherence of what is stored with what comes -/

omit [DecidableEq K] [LinearOrder W] in
theorem Coherent.tail (h : Coherent version (u :: us)) : Coherent version us :=
  fun k a b ha hb => h k a b (List.mem_cons_of_mem _ ha) (List.mem_cons_of_mem _ hb)

theorem Agrees.tail (h : Agrees version m (u :: us)) (hus : Coherent version (u :: us)) :
    Agrees version (deliver version m u) us := by
  intro k a ha b hb hab
  by_cases hk : k = u.1
  · subst hk
    rcases deliver_self version m u with ⟨-, hd⟩ | ⟨o, ho, -, hd⟩
    · rw [hd] at ha
      obtain rfl := Option.some.inj ha
      exact hus u.1 _ b List.mem_cons_self (List.mem_cons_of_mem _ hb) hab
    · rw [hd] at ha
      obtain rfl := Option.some.inj ha
      exact h u.1 o ho b (List.mem_cons_of_mem _ hb) hab
  · rw [deliver_of_ne hk] at ha
    exact h k a ha b (List.mem_cons_of_mem _ hb) hab

/-- What coherent updates leave agrees with the updates that follow. -/
theorem agrees_deliverAll (h : Coherent version (us ++ vs)) :
    Agrees version (deliverAll version (fun _ => none) us) vs := by
  intro k a ha b hb hab
  have hmem := ((deliverAll_spec version us k).1 a ha).1
  exact h k a b (List.mem_append_left _ hmem) (List.mem_append_right _ hb) hab

end SolTrade.Library.LastWriter
