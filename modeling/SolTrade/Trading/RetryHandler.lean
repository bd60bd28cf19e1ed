import Mathlib.Algebra.Order.BigOperators.Group.List
import Mathlib.Algebra.Order.Ring.Int
import Mathlib.Tactic.Positivity
import SolTrade.Library.Checked
import SolTrade.Library.Runs

/-!
Retries with delays.

The executions of one handler share the delay that it drew last, and interleave: an execution calls
its function, waits for it, and waits again before the next attempt. A step is what it does between
two waits. What the clock shows, what the function returns and what is drawn at random is given
with the step, and callbacks are among the waits. Delays are whole milliseconds below 2^53, so a
power of two times one of them is what floats make of it.
-/

namespace SolTrade.Trading

open Library

inductive RetryStrategy where
  | fixed
  | linear
  | exponential
  | exponentialJitter
  | decorrelatedJitter
  deriving DecidableEq

/-- What an attempt may raise: what the function raises, or `RetryTimeout`. -/
inductive AttemptError (ε : Type) where
  | raised (error : ε)
  | timeout (elapsedMs : ℤ)
  deriving DecidableEq

/-- What an execution may raise. -/
inductive RetryError (ε : Type) where
  | notRetryable (error : AttemptError ε)
  | exhausted (maxAttempts : ℤ) (lastError : Option (AttemptError ε))
  | emptyRange
  | overflow
  deriving DecidableEq

/-- The kinds of errors are those that `isinstance` is asked for. -/
structure RetryConfig (κ : Type) where
  maxAttempts : ℤ := 3
  baseDelayMs : ℤ := 100
  maxDelayMs : ℤ := 30000
  strategy : RetryStrategy := .exponentialJitter
  retryableErrors : List κ := []
  nonRetryableErrors : List κ := []
  timeoutMs : ℤ := 60000

/-! ### Delays -/

/-- `random.randint(low, high)`, with a number that decides the draw. -/
def randint {ε : Type} (low high : ℤ) (roll : ℕ) : Except (RetryError ε) ℤ := do
  require (low ≤ high) .emptyRange
  return low + roll % (high - low + 1)

/-- `ExponentialBackoff.calculate`. -/
def backoff {ε : Type} (baseDelayMs maxDelayMs : ℤ) (attempt : ℕ) : Except (RetryError ε) ℤ := do
  require (attempt < 1024) .overflow
  return min (baseDelayMs * 2 ^ attempt) maxDelayMs

def equalJitter {ε : Type} (delayMs : ℤ) (roll : ℕ) : Except (RetryError ε) ℤ := do
  let half := delayMs / 2
  return half + (← randint 0 half roll)

def decorrelatedJitter {ε : Type} (lastDelayMs baseDelayMs maxDelayMs : ℤ) (roll : ℕ) :
    Except (RetryError ε) ℤ := do
  return min maxDelayMs (← randint baseDelayMs (lastDelayMs * 3) roll)

namespace RetryConfig

variable {κ ε : Type} (config : RetryConfig κ) (isInstance : AttemptError ε → κ → Bool)

def isRetryable (error : AttemptError ε) : Bool :=
  if config.nonRetryableErrors.any (isInstance error) then false
  else if config.retryableErrors ≠ [] then config.retryableErrors.any (isInstance error)
  else true

/-- The delay of the strategy, and what the handler has drawn last. -/
def strategyDelay (lastDelayMs : ℤ) (attempt : ℕ) (roll : ℕ) : Except (RetryError ε) (ℤ × ℤ) :=
  match config.strategy with
  | .fixed => return (config.baseDelayMs, lastDelayMs)
  | .linear => return (config.baseDelayMs * attempt, lastDelayMs)
  | .exponential => do
      let delay ← backoff config.baseDelayMs config.maxDelayMs (attempt - 1)
      return (delay, lastDelayMs)
  | .exponentialJitter => do
      let baseDelay ← backoff config.baseDelayMs config.maxDelayMs (attempt - 1)
      let delay ← equalJitter baseDelay roll
      return (delay, lastDelayMs)
  | .decorrelatedJitter => do
      let delay ← decorrelatedJitter lastDelayMs config.baseDelayMs config.maxDelayMs roll
      return (delay, delay)

/-- The delay before the next attempt. -/
def calculateDelay (lastDelayMs : ℤ) (attempt : ℕ) (roll : ℕ) :
    Except (RetryError ε) (ℤ × ℤ) := do
  let (delay, lastDelayMs) ← config.strategyDelay lastDelayMs attempt roll
  return (min delay config.maxDelayMs, lastDelayMs)

end RetryConfig

/-! ### Executions -/

/-- Where an execution waits, or how it has ended. -/
inductive RetryPhase (ε α : Type) where
  | ready
  | calling
  | delaying
  | returned (result : α)
  | raised (error : RetryError ε)
  | cancelled
  deriving DecidableEq

/-- One call of `execute`: `RetryState`, the errors of its attempts and the delays before them, and
how often it has called the function. -/
structure RetryExecution (ε α : Type) where
  attempt : ℕ := 0
  errors : List (AttemptError ε) := []
  delays : List ℤ := []
  calls : ℕ := 0
  phase : RetryPhase ε α := .ready
  deriving DecidableEq

/-- What an execution meets at a wait: what the clock shows when an attempt begins, what the
function does, and with an error what is drawn for the delay. -/
inductive RetryEvent (ε α : Type) where
  | begins (elapsedMs elapsedAgainMs : ℤ) (roll : ℕ)
  | returns (result : α)
  | raises (error : ε) (roll : ℕ)
  | wakes
  | cancels
  deriving DecidableEq

structure RetryHandler (ε α : Type) where
  lastDelayMs : ℤ
  executions : List (RetryExecution ε α) := []
  deriving DecidableEq

namespace RetryExecution

variable {κ ε α : Type} (config : RetryConfig κ) (isInstance : AttemptError ε → κ → Bool)

/-- `state.last_error`. -/
def lastError (self : RetryExecution ε α) : Option (AttemptError ε) := self.errors.getLast?

/-- `state.total_delay_ms`. -/
def totalDelayMs (self : RetryExecution ε α) : ℤ := self.delays.sum

def exhaust (self : RetryExecution ε α) : RetryExecution ε α :=
  { self with phase := .raised (.exhausted config.maxAttempts self.lastError) }

/-- `except Exception as e`, and the delay that the handler has drawn last. -/
def handleError (self : RetryExecution ε α) (lastDelayMs : ℤ) (error : AttemptError ε)
    (roll : ℕ) : RetryExecution ε α × ℤ :=
  let self := { self with errors := self.errors ++ [error] }
  if config.isRetryable isInstance error = false then
    ({ self with phase := .raised (.notRetryable error) }, lastDelayMs)
  else
    let self := { self with attempt := self.attempt + 1 }
    if self.attempt ≥ config.maxAttempts then (self.exhaust config, lastDelayMs)
    else
      match config.calculateDelay lastDelayMs self.attempt roll with
      | .ok (delay, lastDelayMs) =>
          ({ self with delays := self.delays ++ [delay], phase := .delaying }, lastDelayMs)
      -- what the delay raises leaves the handler of the error
      | .error e => ({ self with phase := .raised e }, lastDelayMs)

def step (self : RetryExecution ε α) (lastDelayMs : ℤ) :
    RetryEvent ε α → RetryExecution ε α × ℤ
  | .begins elapsedMs elapsedAgainMs roll =>
      match self.phase with
      | .ready =>
          if self.attempt < config.maxAttempts then
            if elapsedMs > config.timeoutMs then
              self.handleError config isInstance lastDelayMs (.timeout elapsedAgainMs) roll
            else ({ self with calls := self.calls + 1, phase := .calling }, lastDelayMs)
          else (self.exhaust config, lastDelayMs)
      | _ => (self, lastDelayMs)
  | .returns result =>
      match self.phase with
      | .calling => ({ self with phase := .returned result }, lastDelayMs)
      | _ => (self, lastDelayMs)
  | .raises error roll =>
      match self.phase with
      | .calling => self.handleError config isInstance lastDelayMs (.raised error) roll
      | _ => (self, lastDelayMs)
  | .wakes =>
      match self.phase with
      | .delaying => ({ self with phase := .ready }, lastDelayMs)
      | _ => (self, lastDelayMs)
  | .cancels =>
      match self.phase with
      | .calling | .delaying => ({ self with phase := .cancelled }, lastDelayMs)
      | _ => (self, lastDelayMs)

end RetryExecution

namespace RetryHandler

variable {κ ε α : Type} (config : RetryConfig κ) (isInstance : AttemptError ε → κ → Bool)

/-- What happens at a handler. -/
inductive Action (ε α : Type) where
  | execute
  | execution (i : ℕ) (event : RetryEvent ε α)
  deriving DecidableEq

def step (self : RetryHandler ε α) : Action ε α → RetryHandler ε α
  | .execute => { self with executions := self.executions ++ [{}] }
  | .execution i event =>
      match self.executions[i]? with
      | some execution =>
          let (execution, lastDelayMs) :=
            execution.step config isInstance self.lastDelayMs event
          { lastDelayMs, executions := self.executions.set i execution }
      | none => self

/-- The handler after a run. -/
def after (actions : List (Action ε α)) : RetryHandler ε α :=
  Runs.run (step config isInstance) { lastDelayMs := config.baseDelayMs } actions

end RetryHandler

/-! ### Delays that are drawn -/

namespace RetryConfig

variable {κ ε α : Type} {config : RetryConfig κ} {isInstance : AttemptError ε → κ → Bool}
  {low high lastDelayMs next delay : ℤ} {attempt roll : ℕ}

theorem randint_eq_ok {n : ℤ} (h : (randint low high roll : Except (RetryError ε) ℤ) = .ok n) :
    low ≤ n ∧ n ≤ high := by
  obtain ⟨_, hrange, h⟩ := bind_eq_ok.1 h
  rw [require_eq_ok] at hrange
  obtain rfl := Except.ok.inj h
  have hpos : 0 < high - low + 1 := by omega
  have hnonneg := Int.emod_nonneg (roll : ℤ) hpos.ne'
  have hlt := Int.emod_lt_of_pos (roll : ℤ) hpos
  omega

theorem randint_of_le (h : low ≤ high) :
    ∃ n, (randint low high roll : Except (RetryError ε) ℤ) = .ok n := by
  rw [randint, require_of h]
  exact ⟨_, rfl⟩

theorem randint_of_lt (h : high < low) :
    (randint low high roll : Except (RetryError ε) ℤ) = .error .emptyRange := by
  rw [randint, require_of_not (not_le.2 h)]
  rfl

theorem backoff_eq_ok (h : (backoff low high attempt : Except (RetryError ε) ℤ) = .ok delay) :
    delay = min (low * 2 ^ attempt) high := by
  obtain ⟨_, -, h⟩ := bind_eq_ok.1 h
  exact (Except.ok.inj h).symm

/-- What the handler has drawn last admits a next draw. -/
def Ready (config : RetryConfig κ) (lastDelayMs : ℤ) : Prop :=
  config.strategy = .decorrelatedJitter →
    0 ≤ config.baseDelayMs ∧ config.baseDelayMs ≤ 3 * config.maxDelayMs ∧
      config.baseDelayMs ≤ lastDelayMs * 3

/-- No strategy asks for a negative delay. -/
theorem strategyDelay_nonneg (h : (config.strategyDelay lastDelayMs attempt roll :
    Except (RetryError ε) (ℤ × ℤ)) = .ok (delay, next)) (hbase : 0 ≤ config.baseDelayMs)
    (hmax : 0 ≤ config.maxDelayMs) : 0 ≤ delay := by
  rw [strategyDelay] at h
  cases hstrategy : config.strategy with
  | fixed =>
      rw [hstrategy] at h
      cases h
      exact hbase
  | linear =>
      rw [hstrategy] at h
      cases h
      positivity
  | exponential =>
      rw [hstrategy] at h
      obtain ⟨base, hbackoff, h⟩ := bind_eq_ok.1 h
      cases h
      rw [backoff_eq_ok hbackoff]
      exact le_min (by positivity) hmax
  | exponentialJitter =>
      rw [hstrategy] at h
      obtain ⟨base, hbackoff, h⟩ := bind_eq_ok.1 h
      obtain ⟨jittered, hjitter, h⟩ := bind_eq_ok.1 h
      obtain ⟨n, hn, hjitter⟩ := bind_eq_ok.1 hjitter
      cases h
      cases hjitter
      have hnonneg : 0 ≤ base := by
        rw [backoff_eq_ok hbackoff]
        exact le_min (by positivity) hmax
      have hdraw := randint_eq_ok hn
      omega
  | decorrelatedJitter =>
      rw [hstrategy] at h
      obtain ⟨jittered, hjitter, h⟩ := bind_eq_ok.1 h
      obtain ⟨n, hn, hjitter⟩ := bind_eq_ok.1 hjitter
      cases h
      cases hjitter
      exact le_min hmax (hbase.trans (randint_eq_ok hn).1)

/-- A draw leaves the handler ready for the next one. -/
theorem strategyDelay_ready (h : (config.strategyDelay lastDelayMs attempt roll :
    Except (RetryError ε) (ℤ × ℤ)) = .ok (delay, next)) (hready : config.Ready lastDelayMs) :
    config.Ready next := by
  intro hstrategy
  obtain ⟨hbase, hmax, -⟩ := hready hstrategy
  rw [strategyDelay, hstrategy] at h
  obtain ⟨jittered, hjitter, h⟩ := bind_eq_ok.1 h
  obtain ⟨n, hn, hjitter⟩ := bind_eq_ok.1 hjitter
  cases h
  cases hjitter
  have hdraw := randint_eq_ok hn
  exact ⟨hbase, hmax, by omega⟩

/-- The range of a delay. -/
theorem calculateDelay_eq_ok (h : (config.calculateDelay lastDelayMs attempt roll :
    Except (RetryError ε) (ℤ × ℤ)) = .ok (delay, next)) :
    delay ≤ config.maxDelayMs ∧ (0 ≤ config.baseDelayMs → 0 ≤ config.maxDelayMs → 0 ≤ delay) ∧
      (config.Ready lastDelayMs → config.Ready next) := by
  obtain ⟨⟨drawn, next'⟩, hdrawn, h⟩ := bind_eq_ok.1 h
  obtain ⟨rfl, rfl⟩ := Prod.mk.inj (Except.ok.inj h)
  refine ⟨min_le_right _ _, fun hbase hmax => ?_, strategyDelay_ready hdrawn⟩
  exact le_min (strategyDelay_nonneg hdrawn hbase hmax) hmax

theorem strategyDelay_eq_error {e : RetryError ε}
    (h : (config.strategyDelay lastDelayMs attempt roll : Except (RetryError ε) (ℤ × ℤ)) =
      .error e) : e = .emptyRange ∨ e = .overflow := by
  by_contra hne
  obtain ⟨hrange, hoverflow⟩ := not_or.1 hne
  have hrandint : ∀ low high, (randint low high roll : Except (RetryError ε) ℤ) ≠ .error e :=
    fun _ _ => bind_ne_error (require_ne_error (Ne.symm hrange)) fun _ => pure_ne_error
  have hbackoff : (backoff config.baseDelayMs config.maxDelayMs (attempt - 1) :
      Except (RetryError ε) ℤ) ≠ .error e :=
    bind_ne_error (require_ne_error (Ne.symm hoverflow)) fun _ => pure_ne_error
  revert h
  rw [strategyDelay]
  cases config.strategy with
  | fixed => exact pure_ne_error
  | linear => exact pure_ne_error
  | exponential => exact bind_ne_error hbackoff fun _ => pure_ne_error
  | exponentialJitter =>
      exact bind_ne_error hbackoff fun _ => bind_ne_error
        (bind_ne_error (hrandint _ _) fun _ => pure_ne_error) fun _ => pure_ne_error
  | decorrelatedJitter =>
      exact bind_ne_error (bind_ne_error (hrandint _ _) fun _ => pure_ne_error) fun _ =>
        pure_ne_error

theorem calculateDelay_eq_error {e : RetryError ε}
    (h : (config.calculateDelay lastDelayMs attempt roll : Except (RetryError ε) (ℤ × ℤ)) =
      .error e) : e = .emptyRange ∨ e = .overflow := by
  obtain h | ⟨_, -, h⟩ := bind_eq_error.1 h
  · exact strategyDelay_eq_error h
  · cases h

/-- The configurations under which no draw is from an empty range. -/
def Drawable (config : RetryConfig κ) : Prop :=
  config.maxAttempts < 2 ∨
    match config.strategy with
    | .fixed | .linear | .exponential => True
    | .exponentialJitter => 0 ≤ config.baseDelayMs ∧ 0 ≤ config.maxDelayMs
    | .decorrelatedJitter =>
        0 ≤ config.baseDelayMs ∧ config.baseDelayMs ≤ 3 * config.maxDelayMs

theorem calculateDelay_ne (hdrawable : config.Drawable) (hattempts : 2 ≤ config.maxAttempts)
    (hready : config.Ready lastDelayMs) :
    (config.calculateDelay lastDelayMs attempt roll : Except (RetryError ε) (ℤ × ℤ)) ≠
      .error .emptyRange := by
  have hstrategies := hdrawable.resolve_left (not_lt.2 hattempts)
  refine bind_ne_error ?_ fun _ => pure_ne_error
  have hbackoff : (backoff config.baseDelayMs config.maxDelayMs (attempt - 1) :
      Except (RetryError ε) ℤ) ≠ .error .emptyRange :=
    bind_ne_error (require_ne_error (by simp)) fun _ => pure_ne_error
  rw [strategyDelay]
  cases hstrategy : config.strategy with
  | fixed => exact pure_ne_error
  | linear => exact pure_ne_error
  | exponential => exact bind_ne_error hbackoff fun _ => pure_ne_error
  | exponentialJitter =>
      rw [hstrategy] at hstrategies
      intro h
      obtain h | ⟨base, hbase, h⟩ := bind_eq_error.1 h
      · exact hbackoff h
      · have hnonneg : 0 ≤ base := by
          rw [backoff_eq_ok hbase]
          exact le_min (mul_nonneg hstrategies.1 (by positivity)) hstrategies.2
        obtain ⟨n, hn⟩ : ∃ n, (randint 0 (base / 2) roll : Except (RetryError ε) ℤ) = .ok n :=
          randint_of_le (by omega)
        rw [equalJitter, hn] at h
        cases h
  | decorrelatedJitter =>
      intro h
      obtain ⟨n, hn⟩ : ∃ n, (randint config.baseDelayMs (lastDelayMs * 3) roll :
          Except (RetryError ε) ℤ) = .ok n := randint_of_le (hready hstrategy).2.2
      rw [decorrelatedJitter, hn] at h
      cases h

end RetryConfig

/-! ### What an execution keeps -/

namespace RetryExecution

variable {κ ε α : Type} {config : RetryConfig κ} {isInstance : AttemptError ε → κ → Bool}
  {x : RetryExecution ε α} {lastDelayMs : ℤ} {error : AttemptError ε} {roll : ℕ}
  {event : RetryEvent ε α}

/-- Every attempt so far has failed with an error that is retried. -/
structure Tried (config : RetryConfig κ) (isInstance : AttemptError ε → κ → Bool)
    (errors : List (AttemptError ε)) (attempt : ℕ) : Prop where
  length : errors.length = attempt
  retryable : ∀ e ∈ errors, config.isRetryable isInstance e = true

/-- Where an execution is, by its errors. -/
def AtPhase (config : RetryConfig κ) (isInstance : AttemptError ε → κ → Bool)
    (x : RetryExecution ε α) : Prop :=
  match x.phase with
  | .ready => Tried config isInstance x.errors x.attempt ∧ x.calls ≤ x.attempt ∧
      (x.attempt = 0 ∨ x.attempt < config.maxAttempts)
  | .delaying => Tried config isInstance x.errors x.attempt ∧ x.calls ≤ x.attempt ∧
      x.attempt < config.maxAttempts
  | .calling => Tried config isInstance x.errors x.attempt ∧ x.calls ≤ x.attempt + 1 ∧
      x.attempt < config.maxAttempts
  | .returned _ | .cancelled => Tried config isInstance x.errors x.attempt ∧
      x.attempt < config.maxAttempts
  | .raised (.notRetryable error) => ∃ before, x.errors = before ++ [error] ∧
      config.isRetryable isInstance error = false ∧
      (∀ e ∈ before, config.isRetryable isInstance e = true) ∧ x.errors.length ≤ config.maxAttempts
  | .raised (.exhausted maxAttempts lastError) => maxAttempts = config.maxAttempts ∧
      lastError = x.errors.getLast? ∧ x.errors.length = config.maxAttempts.toNat ∧
      ∀ e ∈ x.errors, config.isRetryable isInstance e = true
  | .raised .emptyRange | .raised .overflow =>
      Tried config isInstance x.errors x.attempt ∧ x.attempt < config.maxAttempts

/-- What holds of an execution at every wait. -/
structure Sound (config : RetryConfig κ) (isInstance : AttemptError ε → κ → Bool)
    (x : RetryExecution ε α) : Prop where
  calls : x.calls ≤ config.maxAttempts.toNat
  delays : x.delays.length ≤ (config.maxAttempts - 1).toNat
  delays_attempt : x.delays.length ≤ x.attempt
  range : ∀ d ∈ x.delays, d ≤ config.maxDelayMs ∧
    (0 ≤ config.baseDelayMs → 0 ≤ config.maxDelayMs → 0 ≤ d)
  phase : x.AtPhase config isInstance

/-- One error more, of an attempt that was allowed. -/
theorem handleError_sound (hsound : x.Sound config isInstance)
    (htried : Tried config isInstance x.errors x.attempt) (hcalls : x.calls ≤ x.attempt + 1)
    (hattempt : x.attempt < config.maxAttempts) :
    (x.handleError config isInstance lastDelayMs error roll).1.Sound config isInstance := by
  have hlength : (x.errors ++ [error]).length = x.attempt + 1 := by
    rw [List.length_append, List.length_singleton, htried.length]
  rw [handleError]
  split
  · rename_i hretryable
    refine ⟨hsound.calls, hsound.delays, hsound.delays_attempt, hsound.range, ?_⟩
    refine ⟨x.errors, rfl, hretryable, htried.retryable, ?_⟩
    show ((x.errors ++ [error]).length : ℤ) ≤ _
    rw [hlength]
    omega
  · rename_i hretryable
    have hall : ∀ e ∈ x.errors ++ [error], config.isRetryable isInstance e = true := by
      rw [List.forall_mem_append, List.forall_mem_singleton]
      exact ⟨htried.retryable, by simpa using hretryable⟩
    dsimp only
    split
    · rename_i hlast
      refine ⟨hsound.calls, hsound.delays, hsound.delays_attempt.trans (Nat.le_succ _),
        hsound.range, rfl, rfl, ?_, hall⟩
      show (x.errors ++ [error]).length = _
      rw [hlength]
      push_cast at hlast
      omega
    · rename_i hlast
      have htried' : Tried config isInstance (x.errors ++ [error]) (x.attempt + 1) :=
        ⟨hlength, hall⟩
      split
      · rename_i delay next hdelay
        obtain ⟨hmax, hnonneg, -⟩ := RetryConfig.calculateDelay_eq_ok hdelay
        have hdelays : (x.delays ++ [delay]).length = x.delays.length + 1 := by
          rw [List.length_append, List.length_singleton]
        have hattempts := hsound.delays_attempt
        refine ⟨hsound.calls, ?_, ?_, ?_, htried', hcalls, not_le.1 hlast⟩
        · show (x.delays ++ [delay]).length ≤ _
          rw [hdelays]
          push_cast at hlast
          omega
        · show (x.delays ++ [delay]).length ≤ x.attempt + 1
          rw [hdelays]
          omega
        · show ∀ d ∈ x.delays ++ [delay], _
          rw [List.forall_mem_append, List.forall_mem_singleton]
          exact ⟨hsound.range, hmax, hnonneg⟩
      · rename_i e hdelay
        refine ⟨hsound.calls, hsound.delays, hsound.delays_attempt.trans (Nat.le_succ _),
          hsound.range, ?_⟩
        obtain rfl | rfl := RetryConfig.calculateDelay_eq_error hdelay
        · exact ⟨htried', not_le.1 hlast⟩
        · exact ⟨htried', not_le.1 hlast⟩

theorem Sound.step_sound (hsound : x.Sound config isInstance) :
    (x.step config isInstance lastDelayMs event).1.Sound config isInstance := by
  have hphase := hsound.phase
  obtain ⟨attempt, errors, delays, calls, phase⟩ := x
  cases event with
  | begins elapsedMs elapsedAgainMs roll =>
      cases phase <;> try exact hsound
      obtain ⟨htried, hcalls, hstart⟩ := hphase
      rw [step]
      dsimp only
      split
      · rename_i hattempt
        split
        · exact handleError_sound hsound htried (hcalls.trans (Nat.le_succ _)) hattempt
        · dsimp only at hcalls hattempt
          refine ⟨?_, hsound.delays, hsound.delays_attempt, hsound.range, htried, ?_, hattempt⟩
          · show calls + 1 ≤ _
            omega
          · exact Nat.succ_le_succ hcalls
      · rename_i hattempt
        have hzero := hstart.resolve_right hattempt
        have hlength := htried.length
        dsimp only at hattempt hzero hlength
        refine ⟨hsound.calls, hsound.delays, hsound.delays_attempt, hsound.range, rfl, rfl, ?_,
          htried.retryable⟩
        show errors.length = _
        omega
  | returns result =>
      cases phase <;> try exact hsound
      obtain ⟨htried, hcalls, hattempt⟩ := hphase
      exact ⟨hsound.calls, hsound.delays, hsound.delays_attempt, hsound.range, htried, hattempt⟩
  | raises error roll =>
      cases phase <;> try exact hsound
      obtain ⟨htried, hcalls, hattempt⟩ := hphase
      exact handleError_sound hsound htried hcalls hattempt
  | wakes =>
      cases phase <;> try exact hsound
      obtain ⟨htried, hcalls, hattempt⟩ := hphase
      exact ⟨hsound.calls, hsound.delays, hsound.delays_attempt, hsound.range, htried, hcalls,
        .inr hattempt⟩
  | cancels =>
      cases phase <;> try exact hsound
      · obtain ⟨htried, hcalls, hattempt⟩ := hphase
        exact ⟨hsound.calls, hsound.delays, hsound.delays_attempt, hsound.range, htried, hattempt⟩
      · obtain ⟨htried, hcalls, hattempt⟩ := hphase
        exact ⟨hsound.calls, hsound.delays, hsound.delays_attempt, hsound.range, htried, hattempt⟩

/-- A draw is from no empty range, and the handler stays ready for the next one. -/
theorem handleError_drawn (hdrawable : config.Drawable)
    (hready : config.maxAttempts < 2 ∨ config.Ready lastDelayMs) :
    (x.handleError config isInstance lastDelayMs error roll).1.phase ≠ .raised .emptyRange ∧
      (config.maxAttempts < 2 ∨
        config.Ready (x.handleError config isInstance lastDelayMs error roll).2) := by
  rw [handleError]
  split
  · exact ⟨by simp, hready⟩
  · dsimp only
    split
    · exact ⟨by simp [exhaust], hready⟩
    · rename_i hlast
      have hattempts : 2 ≤ config.maxAttempts := by
        push_cast at hlast
        omega
      have hready := hready.resolve_left (not_lt.2 hattempts)
      split
      · rename_i hdelay
        exact ⟨by simp, .inr ((RetryConfig.calculateDelay_eq_ok hdelay).2.2 hready)⟩
      · rename_i e hdelay
        refine ⟨fun hphase => ?_, .inr hready⟩
        obtain rfl := RetryPhase.raised.inj hphase
        exact RetryConfig.calculateDelay_ne hdrawable hattempts hready hdelay

theorem step_drawn (hdrawable : config.Drawable)
    (hready : config.maxAttempts < 2 ∨ config.Ready lastDelayMs)
    (hphase : x.phase ≠ .raised .emptyRange) :
    (x.step config isInstance lastDelayMs event).1.phase ≠ .raised .emptyRange ∧
      (config.maxAttempts < 2 ∨
        config.Ready (x.step config isInstance lastDelayMs event).2) := by
  cases event with
  | begins elapsedMs elapsedAgainMs roll =>
      rw [step]
      split
      · split
        · split
          · exact handleError_drawn hdrawable hready
          · exact ⟨by simp, hready⟩
        · exact ⟨by simp [exhaust], hready⟩
      · exact ⟨hphase, hready⟩
  | raises error roll =>
      rw [step]
      split
      · exact handleError_drawn hdrawable hready
      · exact ⟨hphase, hready⟩
  | returns | wakes | cancels =>
      rw [step]
      split <;> first | exact ⟨hphase, hready⟩ | exact ⟨by simp, hready⟩

end RetryExecution

/-! ### Runs of a handler -/

namespace RetryHandler

variable {κ ε α : Type} {config : RetryConfig κ} {isInstance : AttemptError ε → κ → Bool}
  {s : RetryHandler ε α} {actions : List (Action ε α)}

theorem init_sound : ({} : RetryExecution ε α).Sound config isInstance := by
  refine ⟨Nat.zero_le _, Nat.zero_le _, le_rfl, fun d hd => (by cases hd), ?_⟩
  exact ⟨⟨rfl, fun e he => (by cases he)⟩, le_rfl, .inl rfl⟩

theorem after_sound : ∀ x ∈ (after config isInstance actions).executions,
    x.Sound config isInstance := by
  refine Runs.run_invariant (I := fun s : RetryHandler ε α => ∀ x ∈ s.executions,
    x.Sound config isInstance) (fun s action h => ?_) (fun x hx => (by cases hx))
  cases action with
  | execute =>
      rw [step, List.forall_mem_append, List.forall_mem_singleton]
      exact ⟨h, init_sound⟩
  | execution i event =>
      rw [step]
      split
      · rename_i execution hexecution
        intro x hx
        obtain hx | rfl := List.mem_or_eq_of_mem_set hx
        · exact h x hx
        · exact (h execution (List.mem_of_getElem? hexecution)).step_sound
      · exact h

/-- However the executions of a handler interleave, each of them calls its function at most as
often as there are attempts and waits once less, never longer than the longest delay; it ends with
a result, with an error that is not retried, or with all attempts used up by errors that are. -/
theorem executions_bounded (config : RetryConfig κ) (isInstance : AttemptError ε → κ → Bool)
    (actions : List (Action ε α)) :
    ∀ x ∈ (after config isInstance actions).executions, x.Sound config isInstance ∧
      (0 ≤ config.maxDelayMs →
        x.totalDelayMs ≤ (config.maxAttempts - 1).toNat * config.maxDelayMs) := by
  intro x hx
  have hsound := after_sound x hx
  refine ⟨hsound, fun hmax => ?_⟩
  have hsum : x.delays.sum ≤ x.delays.length • config.maxDelayMs :=
    List.sum_le_card_nsmul _ _ fun d hd => (hsound.range d hd).1
  rw [nsmul_eq_mul] at hsum
  refine hsum.trans (mul_le_mul_of_nonneg_right ?_ hmax)
  exact_mod_cast hsound.delays

/-- An execution whose first two attempts fail. -/
def retriedTwice : List (Action Unit Unit) :=
  [.execute, .execution 0 (.begins 0 0 0), .execution 0 (.raises () 7), .execution 0 .wakes,
    .execution 0 (.begins 90 90 0), .execution 0 (.raises () 7), .execution 0 .wakes,
    .execution 0 (.begins 250 250 0), .execution 0 (.returns ())]

theorem executions_bounded_retriedTwice :
    let config : RetryConfig Unit := {}
    ∃ x ∈ (after config (fun _ _ => false) retriedTwice).executions, x.calls = 3 ∧
      x.delays = [57, 107] ∧ x.Sound config (fun _ _ => false) ∧ x.totalDelayMs ≤ 2 * 30000 := by
  intro config
  let x : RetryExecution Unit Unit := {
    attempt := 2, errors := [.raised (), .raised ()], delays := [57, 107], calls := 3
    phase := .returned () }
  have hx : x ∈ (after config (fun _ _ => false) retriedTwice).executions := by decide
  obtain ⟨hsound, htotal⟩ := executions_bounded config (fun _ _ => false) retriedTwice x hx
  exact ⟨x, hx, rfl, rfl, hsound, htotal (by decide)⟩

theorem after_drawn (hdrawable : config.Drawable) :
    (config.maxAttempts < 2 ∨ config.Ready (after config isInstance actions).lastDelayMs) ∧
      ∀ x ∈ (after config isInstance actions).executions, x.phase ≠ .raised .emptyRange := by
  refine Runs.run_invariant (I := fun s : RetryHandler ε α =>
    (config.maxAttempts < 2 ∨ config.Ready s.lastDelayMs) ∧
      ∀ x ∈ s.executions, x.phase ≠ .raised .emptyRange) (fun s action h => ?_) ⟨?_, ?_⟩
  · obtain ⟨hready, hphases⟩ := h
    cases action with
    | execute =>
        refine ⟨hready, ?_⟩
        rw [step, List.forall_mem_append, List.forall_mem_singleton]
        exact ⟨hphases, by simp⟩
    | execution i event =>
        rw [step]
        split
        · rename_i execution hexecution
          obtain ⟨hphase, hready⟩ := RetryExecution.step_drawn hdrawable hready
            (hphases execution (List.mem_of_getElem? hexecution))
          refine ⟨hready, fun x hx => ?_⟩
          obtain hx | rfl := List.mem_or_eq_of_mem_set hx
          · exact hphases x hx
          · exact hphase
        · exact ⟨hready, hphases⟩
  · refine hdrawable.imp_right fun hstrategies hstrategy => ?_
    rw [hstrategy] at hstrategies
    have hbase := hstrategies.1
    refine ⟨hbase, hstrategies.2, ?_⟩
    dsimp only
    omega
  · exact fun x hx => (by cases hx)

/-- A new execution whose first attempt fails. -/
def failing (config : RetryConfig κ) (s : RetryHandler ε α) (e : ε) : List (Action ε α) :=
  [.execute, .execution s.executions.length (.begins config.timeoutMs config.timeoutMs 0),
    .execution s.executions.length (.raises e 0)]

/-- What that leaves of it, and of what the handler has drawn last. -/
def failed (config : RetryConfig κ) (isInstance : AttemptError ε → κ → Bool) (lastDelayMs : ℤ)
    (e : ε) : RetryExecution ε α × ℤ :=
  RetryExecution.handleError config isInstance { calls := 1, phase := .calling } lastDelayMs
    (.raised e) 0

theorem run_failing (hattempts : 0 < config.maxAttempts) (e : ε) :
    Runs.run (step config isInstance) s (failing config s e) =
      { lastDelayMs := (failed config isInstance s.lastDelayMs e : RetryExecution ε α × ℤ).2
        executions := s.executions ++ [(failed config isInstance s.lastDelayMs e).1] } := by
  have hlast : ∀ x : RetryExecution ε α,
      (s.executions ++ [x])[s.executions.length]? = some x := fun x => by simp
  have hset : ∀ x y : RetryExecution ε α,
      (s.executions ++ [x]).set s.executions.length y = s.executions ++ [y] := fun x y => by simp
  simp only [failing, failed, Runs.run_cons, Runs.run_nil, step, hlast, RetryExecution.step,
    Nat.cast_zero, hattempts, gt_iff_lt, lt_irrefl, if_true, if_false, hset, zero_add]

theorem after_failing {actions : List (Action ε α)} (hattempts : 0 < config.maxAttempts) (e : ε) :
    after config isInstance (actions ++ failing config (after config isInstance actions) e) =
      { lastDelayMs := (failed config isInstance (after config isInstance actions).lastDelayMs e :
          RetryExecution ε α × ℤ).2
        executions := (after config isInstance actions).executions ++
          [(failed config isInstance (after config isInstance actions).lastDelayMs e).1] } := by
  rw [← run_failing hattempts, after, Runs.run_append]
  rfl

/-- An error that is retried asks for a first delay. -/
theorem failed_of_ok {lastDelayMs delay next : ℤ} (hattempts : 2 ≤ config.maxAttempts) {e : ε}
    (hretry : config.isRetryable isInstance (.raised e) = true)
    (hdelay : config.calculateDelay lastDelayMs 1 0 =
      (.ok (delay, next) : Except (RetryError ε) (ℤ × ℤ))) :
    (failed config isInstance lastDelayMs e : RetryExecution ε α × ℤ).2 = next := by
  have hlast : ¬ (((0 + 1 : ℕ) : ℤ) ≥ config.maxAttempts) := by
    push_cast
    omega
  simp only [failed, RetryExecution.handleError, hretry, Bool.true_eq_false, if_false, hlast,
    hdelay]

theorem failed_of_error {lastDelayMs : ℤ} (hattempts : 2 ≤ config.maxAttempts) {e : ε}
    (hretry : config.isRetryable isInstance (.raised e) = true)
    (hdelay : config.calculateDelay lastDelayMs 1 0 =
      (.error .emptyRange : Except (RetryError ε) (ℤ × ℤ))) :
    (failed config isInstance lastDelayMs e : RetryExecution ε α × ℤ).1.phase =
      .raised .emptyRange := by
  have hlast : ¬ (((0 + 1 : ℕ) : ℤ) ≥ config.maxAttempts) := by
    push_cast
    omega
  simp only [failed, RetryExecution.handleError, hretry, Bool.true_eq_false, if_false, hlast,
    hdelay]

/-- Where no first delay can be drawn, an execution raises that. -/
theorem exists_emptyRange (actions : List (Action ε α)) (hattempts : 2 ≤ config.maxAttempts)
    {e : ε} (hretry : config.isRetryable isInstance (.raised e) = true)
    (hdelay : config.calculateDelay (after config isInstance actions).lastDelayMs 1 0 =
      (.error .emptyRange : Except (RetryError ε) (ℤ × ℤ))) :
    ∃ actions : List (Action ε α), ∃ x ∈ (after config isInstance actions).executions,
      x.phase = .raised .emptyRange := by
  refine ⟨actions ++ failing config (after config isInstance actions) e,
    (failed config isInstance (after config isInstance actions).lastDelayMs e).1, ?_,
    failed_of_error hattempts hretry hdelay⟩
  rw [after_failing (by omega)]
  exact List.mem_append_right _ (List.mem_singleton_self _)

end RetryHandler

namespace RetryConfig

variable {κ ε : Type} {config : RetryConfig κ} {lastDelayMs : ℤ}

theorem calculateDelay_jitter (hstrategy : config.strategy = .exponentialJitter)
    (h : ¬ (0 ≤ config.baseDelayMs ∧ 0 ≤ config.maxDelayMs)) :
    config.calculateDelay lastDelayMs 1 0 =
      (.error .emptyRange : Except (RetryError ε) (ℤ × ℤ)) := by
  have hempty : min (config.baseDelayMs * 2 ^ (1 - 1)) config.maxDelayMs / 2 < 0 := by
    rw [Nat.sub_self, pow_zero, mul_one]
    omega
  rw [calculateDelay, strategyDelay, hstrategy]
  dsimp only
  rw [backoff, require_of (by norm_num), ok_bind, pure_bind, equalJitter, randint_of_lt hempty]
  rfl

theorem calculateDelay_decorrelated (hstrategy : config.strategy = .decorrelatedJitter)
    (h : lastDelayMs * 3 < config.baseDelayMs) :
    config.calculateDelay lastDelayMs 1 0 =
      (.error .emptyRange : Except (RetryError ε) (ℤ × ℤ)) := by
  rw [calculateDelay, strategyDelay, hstrategy]
  dsimp only
  rw [decorrelatedJitter, randint_of_lt h]
  rfl

/-- What is drawn is no longer than the longest delay. -/
theorem exists_calculateDelay (hstrategy : config.strategy = .decorrelatedJitter)
    (h : config.baseDelayMs ≤ lastDelayMs * 3) :
    ∃ delay next, config.calculateDelay lastDelayMs 1 0 =
      (.ok (delay, next) : Except (RetryError ε) (ℤ × ℤ)) ∧ next ≤ config.maxDelayMs := by
  obtain ⟨n, hn⟩ : ∃ n, (randint config.baseDelayMs (lastDelayMs * 3) 0 :
      Except (RetryError ε) ℤ) = .ok n := randint_of_le h
  refine ⟨min (min config.maxDelayMs n) config.maxDelayMs, min config.maxDelayMs n, ?_,
    min_le_left _ _⟩
  rw [calculateDelay, strategyDelay, hstrategy]
  dsimp only
  rw [decorrelatedJitter, hn]
  rfl

end RetryConfig

namespace RetryHandler

variable {κ ε α : Type} {config : RetryConfig κ} {isInstance : AttemptError ε → κ → Bool}

/-- No draw of any run is from an empty range if and only if the delays of the configuration are
such that every draw has one. -/
theorem draws_iff (hretry : ∃ e : ε, config.isRetryable isInstance (.raised e) = true) :
    (∀ actions : List (Action ε α), ∀ x ∈ (after config isInstance actions).executions,
      x.phase ≠ .raised .emptyRange) ↔ config.Drawable := by
  refine ⟨fun h => ?_, fun hdrawable actions => (after_drawn hdrawable).2⟩
  by_contra hnot
  obtain ⟨e, he⟩ := hretry
  obtain ⟨hattempts, hstrategies⟩ := not_or.1 hnot
  have hattempts : 2 ≤ config.maxAttempts := not_lt.1 hattempts
  have hdraws : ∀ actions : List (Action ε α),
      config.calculateDelay (after config isInstance actions).lastDelayMs 1 0 ≠
        (.error .emptyRange : Except (RetryError ε) (ℤ × ℤ)) := by
    intro actions hdelay
    obtain ⟨actions, x, hx, hphase⟩ := exists_emptyRange actions hattempts he hdelay
    exact h actions x hx hphase
  cases hstrategy : config.strategy with
  | fixed | linear | exponential =>
      rw [hstrategy] at hstrategies
      exact hstrategies trivial
  | exponentialJitter =>
      rw [hstrategy] at hstrategies
      exact hdraws [] (RetryConfig.calculateDelay_jitter hstrategy hstrategies)
  | decorrelatedJitter =>
      rw [hstrategy] at hstrategies
      have hbase : 0 ≤ config.baseDelayMs := by
        by_contra hneg
        refine hdraws [] (RetryConfig.calculateDelay_decorrelated hstrategy ?_)
        show config.baseDelayMs * 3 < _
        omega
      have hshort : 3 * config.maxDelayMs < config.baseDelayMs :=
        not_le.1 fun hle => hstrategies ⟨hbase, hle⟩
      obtain ⟨delay, next, hdelay, hnext⟩ : ∃ delay next,
          config.calculateDelay config.baseDelayMs 1 0 =
            (.ok (delay, next) : Except (RetryError ε) (ℤ × ℤ)) ∧ next ≤ config.maxDelayMs :=
        RetryConfig.exists_calculateDelay hstrategy (by omega)
      -- what the first execution draws is too short for a second one
      refine hdraws ([] ++ failing config (after config isInstance []) e)
        (RetryConfig.calculateDelay_decorrelated hstrategy ?_)
      rw [after_failing (by omega)]
      have hdrawn : (failed config isInstance config.baseDelayMs e :
          RetryExecution ε α × ℤ).2 = next := failed_of_ok hattempts he hdelay
      show (failed config isInstance config.baseDelayMs e : RetryExecution ε α × ℤ).2 * 3 < _
      rw [hdrawn]
      omega

/-- The second execution of this handler cannot draw its delay. -/
theorem draws_iff_short :
    let config : RetryConfig Unit := {
      baseDelayMs := 1000, maxDelayMs := 300, strategy := .decorrelatedJitter }
    ¬ ∀ actions : List (Action Unit Unit),
      ∀ x ∈ (after config (fun _ _ => true) actions).executions, x.phase ≠ .raised .emptyRange := by
  intro config h
  have hdrawable : config.Drawable := (draws_iff ⟨(), rfl⟩).1 h
  obtain hattempts | ⟨-, hbase⟩ := hdrawable
  · exact absurd hattempts (by decide)
  · exact absurd hbase (by decide)

end RetryHandler

end SolTrade.Trading
