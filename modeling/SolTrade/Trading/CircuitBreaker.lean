import Mathlib.Algebra.Order.Ring.Rat
import SolTrade.Library.Runs

/-!
The circuit breaker.

The sections under the lock do not wait, so a run is a sequence of arrivals and of
recorded completions, in any order: a call may start in one state and complete in
another. Which of the started calls it is that completes makes no difference to the
breaker, and a cancelled one records nothing.
-/

namespace SolTrade.Trading

open Library

inductive BreakerState where
  | closed
  | opened
  | halfOpen
deriving DecidableEq

structure BreakerConfig where
  failureThreshold : ℤ := 5
  recoveryTimeoutMs : ℚ := 30000
  successThreshold : ℤ := 3

structure CircuitBreaker where
  state : BreakerState := .closed
  failureCount : ℤ := 0
  successCount : ℤ := 0
  lastFailureTime : Option ℚ := none
deriving DecidableEq

inductive CircuitBreakerOpen where
  | open (message : String)
deriving DecidableEq

namespace CircuitBreaker

/-- What `call` does before the function starts. `None` and a reading of zero count as false. -/
def enter (config : BreakerConfig) (self : CircuitBreaker) (now : ℚ) :
    Except CircuitBreakerOpen Unit × CircuitBreaker :=
  if self.state = .opened then
    match self.lastFailureTime with
    | none => (.ok (), self)
    | some failure =>
        if failure = 0 then (.ok (), self)
        else
          let elapsed := (now - failure) * 1000
          if elapsed > config.recoveryTimeoutMs then
            (.ok (), { self with state := .halfOpen, successCount := 0 })
          else (.error (.open "Circuit breaker is open"), self)
  else (.ok (), self)

def onSuccess (config : BreakerConfig) (self : CircuitBreaker) : CircuitBreaker :=
  if self.state = .halfOpen then
    let self := { self with successCount := self.successCount + 1 }
    if self.successCount ≥ config.successThreshold then
      { self with state := .closed, failureCount := 0 }
    else self
  else { self with failureCount := 0 }

def onFailure (config : BreakerConfig) (self : CircuitBreaker) (now : ℚ) : CircuitBreaker :=
  let self := { self with failureCount := self.failureCount + 1, lastFailureTime := some now }
  if self.state = .halfOpen then { self with state := .opened }
  else if self.failureCount ≥ config.failureThreshold then { self with state := .opened }
  else self

end CircuitBreaker

/-- What happens at the breaker, with what is read of the clock. -/
inductive BreakerEvent where
  | call (now : ℚ)
  | success
  | failure (now : ℚ)
  | cancelled
deriving DecidableEq

namespace CircuitBreaker

def apply (config : BreakerConfig) (self : CircuitBreaker) : BreakerEvent → CircuitBreaker
  | .call now => (self.enter config now).2
  | .success => self.onSuccess config
  | .failure now => self.onFailure config now
  | .cancelled => self

/-- The breaker after a run. -/
def after (config : BreakerConfig) (events : List BreakerEvent) : CircuitBreaker :=
  Runs.run (apply config) {} events

/-- A function whose call arrives now is started. -/
def Starts (config : BreakerConfig) (self : CircuitBreaker) (now : ℚ) : Prop :=
  (self.enter config now).1 = .ok ()

end CircuitBreaker

/-! ### Histories -/

def BreakerEvent.failedAt : BreakerEvent → Option ℚ
  | .failure now => some now
  | .call _ | .success | .cancelled => none

def BreakerEvent.IsFailure (event : BreakerEvent) : Prop := ∃ now, event = .failure now

/-- When the last failure of a run was recorded. -/
def lastFailure (events : List BreakerEvent) : Option ℚ :=
  (events.filterMap BreakerEvent.failedAt).getLast?

/-- The failures of a run since its last success. -/
def failuresSinceSuccess (events : List BreakerEvent) : ℕ :=
  (events.reverse.takeWhile fun event => event ≠ .success).countP fun event => event.failedAt.isSome

/-- The run has been half open since the call that ended a time when it was open, and there was no
failure since. -/
def HalfOpenSince (config : BreakerConfig) (events trial : List BreakerEvent) : Prop :=
  ∃ early now, events = early ++ .call now :: trial ∧
    (CircuitBreaker.after config early).state = .opened ∧
    (∀ mid later, trial = mid ++ later →
      (CircuitBreaker.after config (early ++ .call now :: mid)).state = .halfOpen) ∧
    ∀ event ∈ trial, ¬ event.IsFailure

open CircuitBreaker

/-- What the breaker is for, over a run. -/
structure BreakerLaws (config : BreakerConfig) (events : List BreakerEvent) : Prop where
  /-- Nothing starts in an open breaker before the timeout has passed since the last failure. -/
  rejects : ∀ pre now post failure, events = pre ++ .call now :: post →
    (after config pre).state = .opened → lastFailure pre = some failure →
    (now - failure) * 1000 ≤ config.recoveryTimeoutMs → ¬ (after config pre).Starts config now
  /-- Open is left only to half open. -/
  leaves : ∀ pre event post, events = pre ++ event :: post →
    (after config pre).state = .opened → (after config (pre ++ [event])).state ≠ .closed
  /-- The breaker closes at a success that is at least the `successThreshold`-th of a half-open
  time without failures. -/
  closes : ∀ pre event post, events = pre ++ event :: post →
    (after config pre).state ≠ .closed → (after config (pre ++ [event])).state = .closed →
    event = .success ∧ ∃ trial, HalfOpenSince config pre trial ∧
      config.successThreshold ≤ trial.count .success + 1
  /-- A failure in half open opens it again. -/
  reopens : ∀ pre now post, events = pre ++ .failure now :: post →
    (after config pre).state = .halfOpen →
    (after config (pre ++ [.failure now])).state = .opened
  /-- A closed breaker opens at the `failureThreshold`-th failure since the last success. -/
  opens : ∀ pre event post, events = pre ++ event :: post → (after config pre).state = .closed →
    ((after config (pre ++ [event])).state = .opened ↔ event.IsFailure ∧
      (failuresSinceSuccess (pre ++ [event]) : ℤ) = max config.failureThreshold 1)

/-! ### Steps -/

section Steps

variable {config : BreakerConfig} {self : CircuitBreaker} {event : BreakerEvent}
  {events trial : List BreakerEvent} {now : ℚ}

@[simp] theorem breaker_append_singleton :
    after config (events ++ [event]) = (after config events).apply config event :=
  Runs.run_append

theorem enter_of_ne (h : self.state ≠ .opened) : self.enter config now = (.ok (), self) := if_neg h

/-- An arrival leaves the breaker as it is, or it begins a trial. -/
theorem enter_cases (config : BreakerConfig) (self : CircuitBreaker) (now : ℚ) :
    (self.enter config now).2 = self ∨ self.state = .opened ∧
      (self.enter config now).2 = { self with state := .halfOpen, successCount := 0 } := by
  by_cases hopen : self.state = .opened
  · unfold enter
    rw [if_pos hopen]
    cases self.lastFailureTime with
    | none => exact .inl rfl
    | some failure =>
        dsimp only
        split
        · exact .inl rfl
        · split
          · exact .inr ⟨hopen, rfl⟩
          · exact .inl rfl
  · rw [enter_of_ne hopen]
    exact .inl rfl

/-- An open breaker turns a call away if and only if its last failure is recent and was not
recorded at zero. -/
theorem starts_iff_of_opened {failure : ℚ} (hopen : self.state = .opened)
    (hfailure : self.lastFailureTime = some failure) :
    self.Starts config now ↔
      (now - failure) * 1000 ≤ config.recoveryTimeoutMs → failure = 0 := by
  unfold Starts enter
  rw [if_pos hopen, hfailure]
  dsimp only
  split
  · rename_i hzero
    exact iff_of_true rfl fun _ => hzero
  · rename_i hzero
    split
    · rename_i hlate
      exact iff_of_true rfl fun hrecent => absurd hrecent (not_le.2 hlate)
    · rename_i hrecent
      exact iff_of_false (by simp) fun h => hzero (h (not_lt.1 hrecent))

theorem onSuccess_of_halfOpen (h : self.state = .halfOpen) :
    self.onSuccess config =
      if self.successCount + 1 ≥ config.successThreshold then
        { self with state := .closed, failureCount := 0, successCount := self.successCount + 1 }
      else { self with successCount := self.successCount + 1 } := if_pos h

theorem onSuccess_of_ne (h : self.state ≠ .halfOpen) :
    self.onSuccess config = { self with failureCount := 0 } := if_neg h

theorem lastFailureTime_onSuccess :
    (self.onSuccess config).lastFailureTime = self.lastFailureTime := by
  by_cases h : self.state = .halfOpen
  · rw [onSuccess_of_halfOpen h]
    split <;> rfl
  · rw [onSuccess_of_ne h]

theorem onFailure_eq : self.onFailure config now =
    { self with
      failureCount := self.failureCount + 1
      lastFailureTime := some now
      state := if self.state = .halfOpen ∨ self.failureCount + 1 ≥ config.failureThreshold
        then .opened else self.state } := by
  unfold onFailure
  dsimp only
  by_cases h : self.state = .halfOpen
  · rw [if_pos h, if_pos (.inl h)]
  · rw [if_neg h]
    by_cases hcount : self.failureCount + 1 ≥ config.failureThreshold
    · rw [if_pos hcount, if_pos (.inr hcount)]
    · rw [if_neg hcount, if_neg (not_or.2 ⟨h, hcount⟩)]

/-! ### Histories that grow -/

theorem lastFailure_append_singleton :
    lastFailure (events ++ [event]) = event.failedAt.or (lastFailure events) := by
  unfold lastFailure
  rw [List.filterMap_append]
  cases h : event.failedAt with
  | none => simp [h]
  | some now => simp [h]

theorem failuresSinceSuccess_append_singleton :
    failuresSinceSuccess (events ++ [event]) =
      if event = .success then 0
      else failuresSinceSuccess events + if event.failedAt.isSome then 1 else 0 := by
  unfold failuresSinceSuccess
  rw [List.reverse_append, List.reverse_singleton, List.singleton_append, List.takeWhile_cons]
  by_cases h : event = .success
  · simp [h]
  · simp [h, List.countP_cons]

theorem HalfOpenSince.begin (hopen : (after config events).state = .opened)
    (hnext : (after config (events ++ [.call now])).state = .halfOpen) :
    HalfOpenSince config (events ++ [.call now]) [] := by
  refine ⟨events, now, rfl, hopen, fun mid later hsplit => ?_, fun _ h => by cases h⟩
  obtain ⟨rfl, -⟩ := List.append_eq_nil_iff.1 hsplit.symm
  exact hnext

theorem HalfOpenSince.extend (h : HalfOpenSince config events trial)
    (hnext : (after config (events ++ [event])).state = .halfOpen) (hevent : ¬ event.IsFailure) :
    HalfOpenSince config (events ++ [event]) (trial ++ [event]) := by
  obtain ⟨early, now, rfl, hopen, hduring, hclean⟩ := h
  refine ⟨early, now, by simp, hopen, fun mid later hsplit => ?_, fun e he => ?_⟩
  · rcases List.prefix_concat_iff.1 ⟨later, hsplit.symm⟩ with rfl | ⟨rest, hrest⟩
    · simpa using hnext
    · exact hduring mid rest hrest.symm
  · rcases List.mem_append.1 he with he | he
    · exact hclean e he
    · rwa [List.mem_singleton.1 he]

end Steps

/-! ### What the counters mean -/

/-- The counters of a breaker after a run. -/
structure Meaning (config : BreakerConfig) (events : List BreakerEvent) : Prop where
  lastFailureTime : (after config events).lastFailureTime = lastFailure events
  closed : (after config events).state = .closed →
    (after config events).failureCount = failuresSinceSuccess events ∧
      (after config events).failureCount < max config.failureThreshold 1
  halfOpen : (after config events).state = .halfOpen →
    ∃ trial, HalfOpenSince config events trial ∧
      (after config events).successCount = trial.count .success

section Meaning

variable {config : BreakerConfig} {event : BreakerEvent} {events : List BreakerEvent} {now : ℚ}

/-- An event that leaves the breaker as it is and records nothing. -/
theorem Meaning.quiet (h : Meaning config events)
    (hsame : (after config events).apply config event = after config events)
    (hfailed : event.failedAt = none) (hsuccess : event ≠ .success) :
    Meaning config (events ++ [event]) := by
  have hnot : ¬ event.IsFailure := by
    rintro ⟨now, rfl⟩
    cases hfailed
  constructor
  · rw [breaker_append_singleton, hsame, lastFailure_append_singleton, hfailed]
    exact h.lastFailureTime
  · rw [breaker_append_singleton, hsame, failuresSinceSuccess_append_singleton, if_neg hsuccess,
      hfailed]
    exact h.closed
  · intro hhalf
    rw [breaker_append_singleton, hsame] at hhalf ⊢
    obtain ⟨trial, hsince, hcount⟩ := h.halfOpen hhalf
    refine ⟨trial ++ [event], hsince.extend ?_ hnot, ?_⟩
    · rwa [breaker_append_singleton, hsame]
    · rw [hcount, List.count_append, List.count_singleton]
      simp [hsuccess]

theorem Meaning.call (h : Meaning config events) (now : ℚ) :
    Meaning config (events ++ [.call now]) := by
  rcases enter_cases config (after config events) now with hsame | ⟨hopen, hnext⟩
  · exact h.quiet hsame rfl (by simp)
  · have hafter : after config (events ++ [.call now]) =
        { after config events with state := .halfOpen, successCount := 0 } := by
      rw [breaker_append_singleton]
      exact hnext
    constructor
    · rw [hafter, lastFailure_append_singleton]
      exact h.lastFailureTime
    · rw [hafter]
      intro hclosed
      cases hclosed
    · intro hhalf
      refine ⟨[], .begin hopen hhalf, ?_⟩
      rw [hafter]
      rfl

theorem Meaning.success (h : Meaning config events) : Meaning config (events ++ [.success]) := by
  have hzero : failuresSinceSuccess (events ++ [.success]) = 0 := by
    rw [failuresSinceSuccess_append_singleton, if_pos rfl]
  have hafter : after config (events ++ [.success]) = (after config events).onSuccess config :=
    breaker_append_singleton
  constructor
  · rw [hafter, lastFailureTime_onSuccess, lastFailure_append_singleton]
    exact h.lastFailureTime
  · intro hclosed
    rw [hafter] at hclosed ⊢
    rw [hzero]
    have hpos : (0 : ℤ) < max config.failureThreshold 1 := by omega
    by_cases hhalf : (after config events).state = .halfOpen
    · rw [onSuccess_of_halfOpen hhalf] at hclosed ⊢
      split at hclosed
      · rw [if_pos ‹_›]
        exact ⟨rfl, hpos⟩
      · exact absurd (hhalf.symm.trans hclosed) (by decide)
    · rw [onSuccess_of_ne hhalf]
      exact ⟨rfl, hpos⟩
  · intro hnext
    have hhalf : (after config events).state = .halfOpen := by
      by_contra hhalf
      rw [hafter, onSuccess_of_ne hhalf] at hnext
      exact hhalf hnext
    obtain ⟨trial, hsince, hcount⟩ := h.halfOpen hhalf
    refine ⟨trial ++ [.success], hsince.extend hnext (by rintro ⟨now, hnow⟩; cases hnow), ?_⟩
    rw [hafter, onSuccess_of_halfOpen hhalf, List.count_append]
    split
    · simp [hcount]
    · simp [hcount]

theorem Meaning.failure (h : Meaning config events) (now : ℚ) :
    Meaning config (events ++ [.failure now]) := by
  have hafter : after config (events ++ [.failure now]) =
    (after config events).onFailure config now := breaker_append_singleton
  rw [onFailure_eq] at hafter
  constructor
  · rw [hafter, lastFailure_append_singleton]
    rfl
  · rw [hafter, failuresSinceSuccess_append_singleton]
    intro hclosed
    dsimp only at hclosed ⊢
    split at hclosed
    · cases hclosed
    · rename_i hbelow
      obtain ⟨-, hcount⟩ := not_or.1 hbelow
      obtain ⟨hmeans, -⟩ := h.closed hclosed
      rw [hmeans] at hcount ⊢
      simp only [BreakerEvent.failedAt, Option.isSome_some, reduceCtorEq, if_true, if_false]
      omega
  · rw [hafter]
    intro hhalf
    dsimp only at hhalf
    split at hhalf
    · cases hhalf
    · rename_i hbelow
      exact absurd hhalf (not_or.1 hbelow).1

/-- The counters mean what the laws need in every state of a run. -/
theorem meaning_after (config : BreakerConfig) (events : List BreakerEvent) :
    Meaning config events := by
  induction events using List.reverseRecOn with
  | nil => exact ⟨rfl, fun _ => ⟨rfl, by show (0 : ℤ) < _; omega⟩, fun h => by cases h⟩
  | append_singleton events event ih =>
      cases event with
      | call now => exact ih.call now
      | success => exact ih.success
      | failure now => exact ih.failure now
      | cancelled => exact ih.quiet rfl rfl (by simp)

end Meaning

/-! ### The laws -/

section Laws

variable {config : BreakerConfig} {self : CircuitBreaker} {event : BreakerEvent}
  {pre : List BreakerEvent} {now : ℚ}

/-- Open is left only to half open. -/
theorem apply_ne_closed (hopen : self.state = .opened) :
    (self.apply config event).state ≠ .closed := by
  cases event with
  | call now =>
      show (self.enter config now).2.state ≠ .closed
      rcases enter_cases config self now with hsame | ⟨-, hnext⟩
      · rw [hsame, hopen]
        decide
      · rw [hnext]
        exact (by decide : BreakerState.halfOpen ≠ .closed)
  | success =>
      show (self.onSuccess config).state ≠ .closed
      rw [onSuccess_of_ne (by rw [hopen]; decide)]
      show self.state ≠ .closed
      rw [hopen]
      decide
  | failure now =>
      show (self.onFailure config now).state ≠ .closed
      rw [onFailure_eq]
      dsimp only
      split
      · decide
      · rw [hopen]
        decide
  | cancelled =>
      show self.state ≠ .closed
      rw [hopen]
      decide

/-- Only a success in half open closes the breaker, the last one that it needs. -/
theorem eq_success_of_apply (hstate : self.state ≠ .closed)
    (hclosed : (self.apply config event).state = .closed) :
    event = .success ∧ self.state = .halfOpen ∧
      self.successCount + 1 ≥ config.successThreshold := by
  have hhalf : self.state = .halfOpen := by
    cases h : self.state with
    | closed => exact absurd h hstate
    | opened => exact absurd hclosed (apply_ne_closed h)
    | halfOpen => rfl
  have hsuccess : event = .success := by
    cases event with
    | success => rfl
    | call now =>
        have henter : (self.enter config now).2.state = .closed := hclosed
        rw [enter_of_ne (by rw [hhalf]; decide)] at henter
        exact absurd henter hstate
    | failure now =>
        have hfailure : (self.onFailure config now).state = .closed := hclosed
        rw [onFailure_eq, if_pos (.inl hhalf)] at hfailure
        cases hfailure
    | cancelled => exact absurd hclosed hstate
  subst hsuccess
  refine ⟨rfl, hhalf, ?_⟩
  by_contra hcount
  have hcloses : (self.onSuccess config).state = .closed := hclosed
  rw [onSuccess_of_halfOpen hhalf, if_neg hcount] at hcloses
  exact hstate hcloses

/-- A closed breaker opens exactly at the failure that reaches the threshold. -/
theorem opens_iff (hclosed : (after config pre).state = .closed) :
    ((after config (pre ++ [event])).state = .opened ↔ event.IsFailure ∧
      (failuresSinceSuccess (pre ++ [event]) : ℤ) = max config.failureThreshold 1) := by
  obtain ⟨hcount, hbelow⟩ := (meaning_after config pre).closed hclosed
  have hnot : (∀ now, event ≠ .failure now) → ¬ event.IsFailure := fun hne ⟨now, hnow⟩ =>
    hne now hnow
  rw [breaker_append_singleton]
  cases event with
  | call now =>
      refine iff_of_false ?_ fun h => hnot (by simp) h.1
      show (CircuitBreaker.enter config _ now).2.state ≠ .opened
      rw [enter_of_ne (by rw [hclosed]; decide), hclosed]
      decide
  | success =>
      refine iff_of_false ?_ fun h => hnot (by simp) h.1
      show (CircuitBreaker.onSuccess config _).state ≠ .opened
      rw [onSuccess_of_ne (by rw [hclosed]; decide)]
      show (after config pre).state ≠ .opened
      rw [hclosed]
      decide
  | failure now =>
      have hopened : (CircuitBreaker.onFailure config (after config pre) now).state = .opened ↔
          (after config pre).failureCount + 1 ≥ config.failureThreshold := by
        rw [onFailure_eq, hclosed]
        simp
      refine hopened.trans ?_
      rw [failuresSinceSuccess_append_singleton, hcount, if_neg (by simp)]
      rw [hcount] at hbelow
      constructor
      · intro hreached
        refine ⟨⟨now, rfl⟩, ?_⟩
        show ((failuresSinceSuccess pre + 1 : ℕ) : ℤ) = _
        omega
      · rintro ⟨-, hreached⟩
        have hreached : ((failuresSinceSuccess pre + 1 : ℕ) : ℤ) =
          max config.failureThreshold 1 := hreached
        omega
  | cancelled =>
      refine iff_of_false ?_ fun h => hnot (by simp) h.1
      show (after config pre).state ≠ .opened
      rw [hclosed]
      decide

end Laws

/-- The breaker obeys its laws in a run if and only if no call of the run arrives while it is open
and the timeout is not over since a last failure that was recorded at a reading of zero. -/
theorem breakerLaws_iff (config : BreakerConfig) (events : List BreakerEvent) :
    BreakerLaws config events ↔ ∀ pre now post, events = pre ++ .call now :: post →
      (after config pre).state = .opened → lastFailure pre = some 0 →
      now * 1000 > config.recoveryTimeoutMs := by
  constructor
  · intro h pre now post hsplit hopen hzero
    by_contra hearly
    have hlast := (meaning_after config pre).lastFailureTime.trans hzero
    have hrecent : (now - 0) * 1000 ≤ config.recoveryTimeoutMs := by
      rw [sub_zero]
      exact not_lt.1 hearly
    exact h.rejects pre now post 0 hsplit hopen hzero hrecent
      ((starts_iff_of_opened hopen hlast).2 fun _ => rfl)
  · intro h
    constructor
    · intro pre now post failure hsplit hopen hfailure hrecent hstarts
      have hlast := (meaning_after config pre).lastFailureTime.trans hfailure
      obtain rfl := (starts_iff_of_opened hopen hlast).1 hstarts hrecent
      rw [sub_zero] at hrecent
      exact absurd hrecent (not_le.2 (h pre now post hsplit hopen hfailure))
    · intro pre event post _ hopen
      rw [breaker_append_singleton]
      exact apply_ne_closed hopen
    · intro pre event post _ hstate hclosed
      rw [breaker_append_singleton] at hclosed
      obtain ⟨rfl, hhalf, hcount⟩ := eq_success_of_apply hstate hclosed
      obtain ⟨trial, hsince, htrial⟩ := (meaning_after config pre).halfOpen hhalf
      rw [htrial] at hcount
      exact ⟨rfl, trial, hsince, hcount⟩
    · intro pre now post _ hhalf
      rw [breaker_append_singleton]
      show (CircuitBreaker.onFailure config _ now).state = .opened
      rw [onFailure_eq]
      exact if_pos (.inl hhalf)
    · exact fun pre event post _ hclosed => opens_iff hclosed

/-- A failure at a reading of zero opens the breaker, and the next call starts at once. -/
theorem starts_while_opened :
    ¬ BreakerLaws { failureThreshold := 1 } [.call 0, .failure 0, .call 0] := by
  intro h
  exact h.rejects [.call 0, .failure 0] 0 [] 0 rfl rfl rfl (by decide +kernel)
    ((starts_iff_of_opened rfl rfl).2 fun _ => rfl)

end SolTrade.Trading
