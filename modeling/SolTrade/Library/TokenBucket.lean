import Mathlib.Algebra.Order.Field.Basic
import Mathlib.Data.List.Count
import Mathlib.Tactic.Linarith
import Mathlib.Tactic.Ring

/-!
Token buckets.

The level grows with time at a rate, up to the burst, and a request takes one
token. Admissions are paid for out of the level: those of a window are bounded by
the level at its beginning, which the burst bounds, and by what flows in during it.
-/

namespace SolTrade.Library.TokenBucket

variable {𝕜 : Type} [Field 𝕜] [LinearOrder 𝕜]

/-- The level and the time at which it was last brought up to date. -/
structure Bucket (𝕜 : Type) where
  level : 𝕜
  updated : 𝕜

variable (rate burst : 𝕜)

/-- The level at a time, before a request. -/
def refilled (b : Bucket 𝕜) (now : 𝕜) : 𝕜 := min (b.level + (now - b.updated) * rate) burst

def grant (b : Bucket 𝕜) (now : 𝕜) : Bool × Bucket 𝕜 :=
  if 1 ≤ refilled rate burst b now then (true, ⟨refilled rate burst b now - 1, now⟩)
  else (false, ⟨refilled rate burst b now, now⟩)

/-- The requests with the decisions about them. -/
def trace : Bucket 𝕜 → List 𝕜 → List (𝕜 × Bool)
  | _, [] => []
  | b, now :: readings =>
      (now, (grant rate burst b now).1) :: trace (grant rate burst b now).2 readings

/-- The bucket after requests. -/
def after (b : Bucket 𝕜) (readings : List 𝕜) : Bucket 𝕜 :=
  readings.foldl (fun b now => (grant rate burst b now).2) b

/-- How many requests of a window were granted. -/
def granted (s t : 𝕜) (decisions : List (𝕜 × Bool)) : ℕ :=
  decisions.countP fun d => d.2 && decide (s ≤ d.1 ∧ d.1 ≤ t)

def Bucket.Within (b : Bucket 𝕜) : Prop := 0 ≤ b.level ∧ b.level ≤ burst

variable {rate burst} {b : Bucket 𝕜} {now s t : 𝕜} {readings : List 𝕜}

/-- A request takes one token of the refilled level. -/
theorem level_grant : (grant rate burst b now).2.level =
    refilled rate burst b now - if (grant rate burst b now).1 then 1 else 0 := by
  unfold grant
  split
  · simp
  · simp

@[simp] theorem updated_grant : (grant rate burst b now).2.updated = now := by
  unfold grant
  split <;> rfl

/-! ### Admissions of a window -/

omit [Field 𝕜] in
theorem granted_cons_of_outside {d : 𝕜 × Bool} {ds : List (𝕜 × Bool)}
    (h : ¬ (s ≤ d.1 ∧ d.1 ≤ t)) : granted s t (d :: ds) = granted s t ds := by
  unfold granted
  rw [List.countP_cons_of_neg]
  simp [h]

omit [Field 𝕜] in
theorem granted_cons_of_inside {d : 𝕜 × Bool} {ds : List (𝕜 × Bool)}
    (h : s ≤ d.1 ∧ d.1 ≤ t) :
    granted s t (d :: ds) = granted s t ds + if d.2 then 1 else 0 := by
  unfold granted
  rw [List.countP_cons]
  simp [h]

/-- Nothing is granted in a window that has passed. -/
theorem granted_trace_of_past (hmono : (now :: readings).Pairwise (· ≤ ·)) (ht : t < now) :
    granted s t (trace rate burst b readings) = 0 := by
  induction readings generalizing b with
  | nil => rfl
  | cons now' readings ih =>
      obtain ⟨hfirst, hrest⟩ := List.pairwise_cons.1 hmono
      have hlate : t < now' := ht.trans_le (hfirst now' List.mem_cons_self)
      have hskip : (now :: readings).Pairwise (· ≤ ·) :=
        hmono.sublist (List.Sublist.cons_cons _ (List.sublist_cons_self _ _))
      rw [trace, granted_cons_of_outside (fun h => hlate.not_ge h.2)]
      exact ih hskip

/-! ### The level -/

variable [IsStrictOrderedRing 𝕜]

theorem refilled_nonneg (hrate : 0 ≤ rate) (hburst : 0 ≤ burst) (h : 0 ≤ b.level)
    (hnow : b.updated ≤ now) : 0 ≤ refilled rate burst b now := by
  have hinflow : 0 ≤ (now - b.updated) * rate := mul_nonneg (sub_nonneg.2 hnow) hrate
  exact le_min (add_nonneg h hinflow) hburst

theorem level_grant_nonneg (hrate : 0 ≤ rate) (hburst : 0 ≤ burst) (h : 0 ≤ b.level)
    (hnow : b.updated ≤ now) : 0 ≤ (grant rate burst b now).2.level := by
  unfold grant
  split
  · exact sub_nonneg.2 ‹_›
  · exact refilled_nonneg hrate hburst h hnow

theorem within_grant (hrate : 0 ≤ rate) (hburst : 0 ≤ burst) (h : b.Within burst)
    (hnow : b.updated ≤ now) : (grant rate burst b now).2.Within burst := by
  refine ⟨level_grant_nonneg hrate hburst h.1 hnow, ?_⟩
  have hle : refilled rate burst b now ≤ burst := min_le_right ..
  rw [level_grant]
  split
  · linarith
  · linarith

/-- The level stays between zero and the burst. -/
theorem within_after (hrate : 0 ≤ rate) (hburst : 0 ≤ burst) (h : b.Within burst)
    (hmono : (b.updated :: readings).Pairwise (· ≤ ·)) :
    (after rate burst b readings).Within burst := by
  induction readings generalizing b with
  | nil => exact h
  | cons now readings ih =>
      obtain ⟨hfirst, hrest⟩ := List.pairwise_cons.1 hmono
      refine ih (within_grant hrate hburst h (hfirst now List.mem_cons_self)) ?_
      rwa [updated_grant]

/-! ### What pays for the requests -/

/-- Admissions up to a time are paid for by the level and by what flows in until then. -/
theorem granted_le_level (hrate : 0 ≤ rate) (hburst : 0 ≤ burst) (h : 0 ≤ b.level)
    (hmono : (b.updated :: readings).Pairwise (· ≤ ·)) (ht : b.updated ≤ t) :
    (granted s t (trace rate burst b readings) : 𝕜) ≤ b.level + (t - b.updated) * rate := by
  induction readings generalizing b with
  | nil =>
      have hinflow : 0 ≤ (t - b.updated) * rate := mul_nonneg (sub_nonneg.2 ht) hrate
      simpa [trace, granted] using add_nonneg h hinflow
  | cons now readings ih =>
      obtain ⟨hfirst, hrest⟩ := List.pairwise_cons.1 hmono
      have hnow := hfirst now List.mem_cons_self
      have hrefilled : refilled rate burst b now ≤ b.level + (now - b.updated) * rate :=
        min_le_left ..
      by_cases hlate : t < now
      · have hinflow : 0 ≤ (t - b.updated) * rate := mul_nonneg (sub_nonneg.2 ht) hrate
        rw [trace, granted_cons_of_outside (fun hin => hlate.not_ge hin.2),
          granted_trace_of_past hrest hlate]
        simpa using add_nonneg h hinflow
      · have hrec := ih (b := (grant rate burst b now).2)
          (level_grant_nonneg hrate hburst h hnow) (by rwa [updated_grant])
          (updated_grant.trans_le (not_lt.1 hlate))
        rw [level_grant, updated_grant] at hrec
        by_cases hin : s ≤ now
        · rw [trace, granted_cons_of_inside ⟨hin, not_lt.1 hlate⟩]
          push_cast
          linarith
        · rw [trace, granted_cons_of_outside fun h => hin h.1]
          split at hrec <;> linarith

/-- At most the burst and what flows in during a window is granted in it. -/
theorem granted_le (hrate : 0 ≤ rate) (hburst : 0 ≤ burst) (h : 0 ≤ b.level)
    (hmono : (b.updated :: readings).Pairwise (· ≤ ·)) (hst : s ≤ t) :
    (granted s t (trace rate burst b readings) : 𝕜) ≤ burst + (t - s) * rate := by
  have hroom : 0 ≤ (t - s) * rate := mul_nonneg (sub_nonneg.2 hst) hrate
  induction readings generalizing b with
  | nil => simpa [trace, granted] using add_nonneg hburst hroom
  | cons now readings ih =>
      obtain ⟨hfirst, hrest⟩ := List.pairwise_cons.1 hmono
      have hnow := hfirst now List.mem_cons_self
      have hlevel := level_grant_nonneg hrate hburst h hnow
      have hmono' : ((grant rate burst b now).2.updated :: readings).Pairwise (· ≤ ·) := by
        rwa [updated_grant]
      by_cases hin : s ≤ now ∧ now ≤ t
      · -- the window has begun: from here on the level pays
        have hpaid := granted_le_level (s := s) hrate hburst hlevel hmono'
          (updated_grant.trans_le hin.2)
        have hrefilled : refilled rate burst b now ≤ burst := min_le_right ..
        have hinflow : (t - now) * rate ≤ (t - s) * rate :=
          mul_le_mul_of_nonneg_right (sub_le_sub_left hin.1 t) hrate
        rw [level_grant, updated_grant] at hpaid
        rw [trace, granted_cons_of_inside hin]
        push_cast
        linarith
      · rw [trace, granted_cons_of_outside hin]
        exact ih hlevel hmono'

end SolTrade.Library.TokenBucket
