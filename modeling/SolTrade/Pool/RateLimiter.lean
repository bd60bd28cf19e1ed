import Mathlib.Algebra.Order.Field.Rat
import SolTrade.Library.TokenBucket

/-!
The rate limiter: a token bucket that every call of `allow` brings up to date.
-/

namespace SolTrade.Pool

open Library

structure RateLimiter where
  rate : ℚ
  burst : ℚ
  tokens : ℚ
  lastUpdate : ℚ

namespace RateLimiter

/-- A limiter that is created when the clock reads `now`. -/
def new (rate burst now : ℚ) : RateLimiter where
  rate := rate
  burst := burst
  tokens := burst
  lastUpdate := now

/-- Checks if a request is allowed. -/
def allow (self : RateLimiter) (now : ℚ) : Bool × RateLimiter :=
  let elapsed := now - self.lastUpdate
  let tokens := self.tokens + elapsed * self.rate
  let tokens := if tokens > self.burst then self.burst else tokens
  if tokens ≥ 1 then (true, { self with tokens := tokens - 1, lastUpdate := now })
  else (false, { self with tokens, lastUpdate := now })

/-- The calls of `allow`, with what the clock read and what they returned. -/
def trace : RateLimiter → List ℚ → List (ℚ × Bool)
  | _, [] => []
  | self, now :: readings => (now, (self.allow now).1) :: (self.allow now).2.trace readings

/-- The limiter after calls of `allow`. -/
def after (self : RateLimiter) (readings : List ℚ) : RateLimiter :=
  readings.foldl (fun self now => (self.allow now).2) self

/-- How many of the calls from `s` to `t` returned `True`. -/
def allowedBetween (s t : ℚ) (calls : List (ℚ × Bool)) : ℕ :=
  calls.countP fun call => call.2 && decide (s ≤ call.1 ∧ call.1 ≤ t)

/-! ### The bucket of a limiter -/

def bucket (self : RateLimiter) : TokenBucket.Bucket ℚ := ⟨self.tokens, self.lastUpdate⟩

variable {self : RateLimiter} {now : ℚ} {readings : List ℚ}

theorem tokens_clipped :
    (if self.tokens + (now - self.lastUpdate) * self.rate > self.burst then self.burst
      else self.tokens + (now - self.lastUpdate) * self.rate) =
      TokenBucket.refilled self.rate self.burst self.bucket now := by
  show _ = min (self.tokens + (now - self.lastUpdate) * self.rate) self.burst
  split
  · rename_i hfull
    exact (min_eq_right hfull.le).symm
  · rename_i hroom
    exact (min_eq_left (not_lt.1 hroom)).symm

/-- A call of `allow` is a request to the bucket. -/
theorem allow_eq : self.allow now = ((TokenBucket.grant self.rate self.burst self.bucket now).1,
    { self with
      tokens := (TokenBucket.grant self.rate self.burst self.bucket now).2.level
      lastUpdate := now }) := by
  unfold allow TokenBucket.grant
  dsimp only
  rw [tokens_clipped]
  split
  · rfl
  · rfl

@[simp] theorem rate_allow : (self.allow now).2.rate = self.rate := by rw [allow_eq]

@[simp] theorem burst_allow : (self.allow now).2.burst = self.burst := by rw [allow_eq]

theorem allowed_eq :
    (self.allow now).1 = (TokenBucket.grant self.rate self.burst self.bucket now).1 := by
  rw [allow_eq]

theorem bucket_allow :
    (self.allow now).2.bucket = (TokenBucket.grant self.rate self.burst self.bucket now).2 := by
  have hupdated : (TokenBucket.grant self.rate self.burst self.bucket now).2.updated = now :=
    TokenBucket.updated_grant
  rw [allow_eq, bucket]
  exact congrArg (TokenBucket.Bucket.mk _) hupdated.symm

theorem trace_eq :
    self.trace readings = TokenBucket.trace self.rate self.burst self.bucket readings := by
  induction readings generalizing self with
  | nil => rfl
  | cons now readings ih =>
      rw [trace, TokenBucket.trace, ih, rate_allow, burst_allow, allowed_eq, bucket_allow]

theorem bucket_after : (self.after readings).bucket =
    TokenBucket.after self.rate self.burst self.bucket readings := by
  induction readings generalizing self with
  | nil => rfl
  | cons now readings ih =>
      rw [after, List.foldl_cons]
      refine ih.trans ?_
      rw [rate_allow, burst_allow, bucket_allow]
      rfl

/-- In every window at most the burst and what the rate lets in during it is allowed, and the
level stays between zero and the burst. -/
theorem allowedBetween_le (rate burst created : ℚ) (readings : List ℚ) (hrate : 0 ≤ rate)
    (hburst : 0 ≤ burst) (hclock : (created :: readings).Pairwise (· ≤ ·)) :
    (∀ s t, s ≤ t →
      (allowedBetween s t ((new rate burst created).trace readings) : ℚ) ≤ burst + rate * (t - s)) ∧
    ∀ pre post, readings = pre ++ post →
      0 ≤ ((new rate burst created).after pre).tokens ∧
        ((new rate burst created).after pre).tokens ≤ burst := by
  constructor
  · intro s t hst
    rw [trace_eq, mul_comm]
    exact TokenBucket.granted_le hrate hburst hburst hclock hst
  · rintro pre post rfl
    have hpre : (created :: pre).Pairwise (· ≤ ·) :=
      hclock.sublist (List.Sublist.cons_cons _ (List.sublist_append_left pre post))
    have hwithin := TokenBucket.within_after (b := (new rate burst created).bucket) hrate hburst
      ⟨hburst, le_rfl⟩ hpre
    have hbucket : ((new rate burst created).after pre).bucket =
      TokenBucket.after rate burst (new rate burst created).bucket pre := bucket_after
    rwa [← hbucket] at hwithin

/-- Two at once, and another after a second. -/
theorem allowedBetween_le_two :
    (allowedBetween 0 1 ((new 1 2 0).trace [0, 0, 0, 1, 1]) : ℚ) ≤ 2 + 1 * (1 - 0) :=
  (allowedBetween_le 1 2 0 [0, 0, 0, 1, 1] (by decide +kernel) (by decide +kernel)
    (by decide +kernel)).1 0 1 (by decide +kernel)

end RateLimiter

end SolTrade.Pool
