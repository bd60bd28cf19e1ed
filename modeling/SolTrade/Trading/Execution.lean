import Mathlib.Data.List.Basic
import SolTrade.Library.Runs
import SolTrade.Trading.GasFeeStrategy

/-!
The submission of a transaction to clients.

A lane is one submission to one client: it sends, is acknowledged with a signature, and waits for
the confirmation where that is asked for. In parallel all lanes run at once and the execution takes
their results in the order in which they end; in sequence there is one lane at a time. A step is
what a task does between two waits, and the environment decides which task goes on and with what.
What is measured of the time is left out: a deadline may pass at any wait.
-/

namespace SolTrade.Trading

open Library

structure ExecuteOptions where
  waitConfirmation : Bool := true
  maxRetries : ℤ := 3
  parallelSubmit : Bool := true
  deriving DecidableEq

structure TradeResult where
  signature : String
  success : Bool
  error : Option String := none
  swqosType : Option SwqosType := none
  retries : ℤ := 0
  deriving DecidableEq

/-! ### Lanes -/

/-- Where `_submit_to_client` waits, or how it has ended. -/
inductive Lane where
  | ready
  | sending
  | confirming (signature : String)
  | finished (result : TradeResult)
  | raised (error : String)
  | cancelled
  deriving DecidableEq

/-- What a lane meets at a wait. -/
inductive LaneEvent where
  | typeRaised (error : String)
  | sends
  | acknowledged (signature : String)
  | confirmed
  | unconfirmed (error : String)
  | failed (error : String)
  | expired
  deriving DecidableEq

def deadlineExceeded : String := "Execution deadline exceeded"

namespace Lane

/-- `result.signature`. -/
def signature : Lane → String
  | confirming signature => signature
  | _ => ""

/-- `result` with an error. -/
def failing (self : Lane) (swqosType : SwqosType) (error : String) : Lane :=
  finished { signature := self.signature, success := false, error, swqosType }

def Settled : Lane → Prop
  | finished _ | raised _ | cancelled => True
  | _ => False

instance : DecidablePred Settled := fun lane => by
  cases lane <;> unfold Settled <;> infer_instance

def step (options : ExecuteOptions) (swqosType : SwqosType) : Lane → LaneEvent → Option Lane
  | ready, .typeRaised error => some (raised error)
  | ready, .sends => some sending
  -- the deadline may have passed before the submission begins
  | ready, .expired => some (ready.failing swqosType deadlineExceeded)
  | sending, .acknowledged signature =>
      if options.waitConfirmation then some (confirming signature)
      else some (finished { signature, success := true, swqosType })
  | sending, .failed error => some (sending.failing swqosType error)
  | sending, .expired => some (sending.failing swqosType deadlineExceeded)
  | confirming signature, .confirmed =>
      some (finished { signature, success := true, swqosType })
  | confirming signature, .unconfirmed error | confirming signature, .failed error =>
      some ((confirming signature).failing swqosType error)
  | confirming signature, .expired =>
      some ((confirming signature).failing swqosType deadlineExceeded)
  | _, _ => none

/-- What the lane adds to `receipts`. Success and error of a receipt are not read. -/
def receipt (swqosType : SwqosType) : LaneEvent → Option TradeResult
  | .acknowledged signature => some { signature, success := false, swqosType }
  | _ => none

end Lane

/-! ### Executions -/

/-- A lane of a parallel execution, and whether `cancel` has been called on its task. -/
structure Submission where
  lane : Lane := .ready
  asked : Bool := false
  deriving DecidableEq

/-- Why an execution cancels its lanes. -/
inductive Interruption where
  | closed
  | deadline
  | caller
  deriving DecidableEq

inductive Stage where
  | limited
  | parallel
  | cancelling (reason : Interruption)
  | attempt (retry index : ℕ) (lane : Lane)
  | pausing (retry : ℕ)
  deriving DecidableEq

inductive Outcome where
  | returned (result : TradeResult)
  | cancelled
  deriving DecidableEq

/-- `_record_success` and `_record_failure`. -/
inductive Record where
  | success
  | failure
  deriving DecidableEq

/-- One call of `execute`. A client is known by its `get_swqos_type`. The lanes that have ended
wait in `done` until the execution comes to them. -/
structure Execution where
  options : ExecuteOptions
  clients : List SwqosType
  stage : Stage := .limited
  futures : List Submission := []
  done : List ℕ := []
  collected : ℕ := 0
  acknowledged : Option TradeResult := none
  lastError : String := "All parallel submissions failed"
  receipts : List TradeResult := []
  outcome : Option Outcome := none
  deriving DecidableEq

/-- What happens to an execution. -/
inductive ExecutionEvent where
  | limiterPassed
  | lane (i : ℕ) (event : LaneEvent)
  | laneCancelled (i : ℕ)
  | collect
  | gathered
  | attempt (event : LaneEvent)
  | delayElapsed
  | deadline
  | cancel
  | closed
  deriving DecidableEq

namespace Execution

/-- The execution returns, after the trade has been recorded. -/
def finish (self : Execution) (result : TradeResult) (record : Record) :
    Execution × Option Record :=
  ({ self with outcome := some (.returned result) }, some record)

/-- What `execute` returns when the deadline has passed. -/
def timedOut (self : Execution) : TradeResult :=
  match self.receipts with
  | receipt :: _ => { receipt with success := false, error := some deadlineExceeded }
  | [] => { signature := "", success := false, error := some deadlineExceeded }

/-- The end of the loop over the retries. -/
def giveUp (self : Execution) : Execution × Option Record :=
  self.finish
    { signature := "", success := false,
      error := some ("All submissions failed after " ++ toString self.options.maxRetries ++
        " retries")
      retries := self.options.maxRetries }
    .failure

/-- The next client, or the pause before the next round. -/
def nextAttempt (self : Execution) (retry index : ℕ) : Execution × Option Record :=
  if index + 1 < self.clients.length then
    ({ self with stage := .attempt retry (index + 1) .ready }, none)
  else if (retry : ℤ) + 1 < self.options.maxRetries then
    ({ self with stage := .pausing retry }, none)
  else self.giveUp

/-- What `_execute_sequential` does with a lane that has moved on. -/
def afterAttempt (self : Execution) (retry index : ℕ) : Lane → Execution × Option Record
  | .finished result =>
      if result.signature ≠ "" ∧ ¬ result.success then self.finish result .failure
      else if result.success then self.finish result .success
      else self.nextAttempt retry index
  | .raised _ => self.nextAttempt retry index
  | lane => ({ self with stage := .attempt retry index lane }, none)

/-- The end of the loop over the futures, once all of them have been collected. -/
def afterCollect (self : Execution) : Execution × Option Record :=
  if self.collected = self.futures.length then
    self.finish
      (self.acknowledged.getD { signature := "", success := false, error := some self.lastError })
      .failure
  else (self, none)

/-- `task.cancel()` for all futures. -/
def askAll (self : Execution) : Execution :=
  { self with futures := self.futures.map fun future => { future with asked := true } }

/-- What `_execute_parallel` does with the next future that is done. -/
def collectNext (self : Execution) : Lane → Execution × Option Record
  | .finished result =>
      if result.success then self.finish result .success
      else
        afterCollect { self with
          acknowledged := if result.signature ≠ "" then some result else self.acknowledged
          lastError := match result.error with
            | some error => if error ≠ "" then error else self.lastError
            | none => self.lastError }
  | .raised error => afterCollect { self with lastError := error }
  | _ => ({ self with stage := .cancelling .closed }.askAll, none)

/-- A future has a new lane. -/
def setLane (self : Execution) (i : ℕ) (future : Submission) (lane : Lane) : Execution :=
  { self with
    futures := self.futures.set i { future with lane }
    done := if lane.Settled then self.done ++ [i] else self.done }

def step (self : Execution) (event : ExecutionEvent) : Execution × Option Record :=
  match event, self.outcome, self.stage with
  | .limiterPassed, none, .limited =>
      if self.options.parallelSubmit then
        ({ self with stage := .parallel, futures := self.clients.map fun _ => {} }, none)
      else if 0 < self.options.maxRetries then
        ({ self with stage := .attempt 0 0 .ready }, none)
      else self.giveUp
  -- the other lanes go on after the execution has returned
  | .lane i event, _, _ =>
      match self.futures[i]?, self.clients[i]? with
      | some future, some swqosType =>
          match future.lane.step self.options swqosType event with
          | some lane =>
              ({ self.setLane i future lane with
                receipts := self.receipts ++ (Lane.receipt swqosType event).toList }, none)
          | none => (self, none)
      | _, _ => (self, none)
  | .laneCancelled i, _, _ =>
      match self.futures[i]? with
      | some future =>
          if future.asked ∧ ¬ future.lane.Settled then (self.setLane i future .cancelled, none)
          else (self, none)
      | none => (self, none)
  | .collect, none, .parallel =>
      match self.done with
      | i :: done =>
          match self.futures[i]? with
          | some future =>
              { self with done, collected := self.collected + 1 }.collectNext future.lane
          | none => (self, none)
      | [] => (self, none)
  | .gathered, none, .cancelling reason =>
      if self.futures.all fun future => future.lane.Settled then
        if reason = .deadline then self.finish self.timedOut .failure
        else ({ self with outcome := some .cancelled }, none)
      else (self, none)
  | .attempt event, none, .attempt retry index lane =>
      match self.clients[index]? with
      | some swqosType =>
          match lane.step self.options swqosType event with
          | some lane =>
              afterAttempt { self with
                receipts := self.receipts ++ (Lane.receipt swqosType event).toList }
                retry index lane
          | none => (self, none)
      | none => (self, none)
  | .delayElapsed, none, .pausing retry =>
      ({ self with stage := .attempt (retry + 1) 0 .ready }, none)
  | .deadline, none, .parallel | .deadline, none, .cancelling .closed =>
      ({ self with stage := .cancelling .deadline }.askAll, none)
  | .deadline, none, .limited | .deadline, none, .attempt .. | .deadline, none, .pausing _ =>
      self.finish self.timedOut .failure
  | .cancel, none, .parallel | .cancel, none, .cancelling _ =>
      ({ self with stage := .cancelling .caller }.askAll, none)
  | .cancel, none, _ => ({ self with outcome := some .cancelled }, none)
  | .closed, _, _ => (self.askAll, none)
  | _, _, _ => (self, none)

end Execution

/-! ### What the clients see -/

/-- A client, by its place among the clients of the execution, is sent the transaction,
acknowledges it, or its signature is confirmed. -/
inductive Trace where
  | sent (client : ℕ)
  | acknowledged (client : ℕ) (signature : String)
  | confirmed (client : ℕ) (signature : String)
  deriving DecidableEq

namespace Trace

def client : Trace → ℕ
  | sent client | acknowledged client _ | confirmed client _ => client

def receipt (clients : List SwqosType) : Trace → Option TradeResult
  | acknowledged client signature =>
      some { signature, success := false, swqosType := clients[client]? }
  | _ => none

end Trace

def Lane.traced (client : ℕ) : Lane → LaneEvent → List Trace
  | ready, .sends => [.sent client]
  | sending, .acknowledged signature => [.acknowledged client signature]
  | confirming signature, .confirmed => [.confirmed client signature]
  | _, _ => []

namespace Execution

def traced (self : Execution) (event : ExecutionEvent) : List Trace :=
  match event, self.outcome, self.stage with
  | .lane i event, _, _ =>
      match self.futures[i]?, self.clients[i]? with
      | some future, some _ => future.lane.traced i event
      | _, _ => []
  | .attempt event, none, .attempt _ index lane =>
      if index < self.clients.length then lane.traced index event else []
  | _, _, _ => []

/-- The execution after what has happened to it. -/
def after (options : ExecuteOptions) (clients : List SwqosType) (events : List ExecutionEvent) :
    Execution :=
  Runs.run (fun self event => (self.step event).1) { options, clients } events

/-- What its clients have seen. -/
def history (options : ExecuteOptions) (clients : List SwqosType) (events : List ExecutionEvent) :
    List Trace :=
  Runs.emitted (fun self event => (self.step event).1) traced { options, clients } events

/-! ### Steps -/

/-- What a step can do, with what the clients see and what is recorded. -/
inductive Moves (x : Execution) : List Trace → Execution → Option Record → Prop
  | stays : Moves x [] x none
  | starts : x.outcome = none → x.stage = .limited → x.options.parallelSubmit = true →
      Moves x [] { x with stage := .parallel, futures := x.clients.map fun _ => {} } none
  | begins : x.outcome = none → x.stage = .limited → x.options.parallelSubmit = false →
      0 < x.options.maxRetries → Moves x [] { x with stage := .attempt 0 0 .ready } none
  | refuses : x.outcome = none → x.stage = .limited → x.options.parallelSubmit = false →
      Moves x [] x.giveUp.1 x.giveUp.2
  | lane (i : ℕ) (future : Submission) (swqosType : SwqosType) (event : LaneEvent) (lane : Lane) :
      x.futures[i]? = some future → x.clients[i]? = some swqosType →
      future.lane.step x.options swqosType event = some lane →
      Moves x (future.lane.traced i event) { x.setLane i future lane with
        receipts := x.receipts ++ (Lane.receipt swqosType event).toList } none
  | laneCancelled (i : ℕ) (future : Submission) :
      x.futures[i]? = some future → ¬ future.lane.Settled →
      Moves x [] (x.setLane i future .cancelled) none
  | collects (i : ℕ) (done : List ℕ) (future : Submission) :
      x.outcome = none → x.stage = .parallel → x.done = i :: done →
      x.futures[i]? = some future →
      Moves x [] ({ x with done, collected := x.collected + 1 }.collectNext future.lane).1
        ({ x with done, collected := x.collected + 1 }.collectNext future.lane).2
  | gathers : x.outcome = none → x.stage = .cancelling .deadline →
      (∀ future ∈ x.futures, future.lane.Settled) →
      Moves x [] (x.finish x.timedOut .failure).1 (x.finish x.timedOut .failure).2
  | attempts (retry index : ℕ) (current : Lane) (swqosType : SwqosType) (event : LaneEvent)
      (lane : Lane) :
      x.outcome = none → x.stage = .attempt retry index current →
      x.clients[index]? = some swqosType →
      current.step x.options swqosType event = some lane →
      Moves x (current.traced index event)
        (afterAttempt { x with
          receipts := x.receipts ++ (Lane.receipt swqosType event).toList } retry index lane).1
        (afterAttempt { x with
          receipts := x.receipts ++ (Lane.receipt swqosType event).toList } retry index lane).2
  | resumes (retry : ℕ) : x.outcome = none → x.stage = .pausing retry →
      Moves x [] { x with stage := .attempt (retry + 1) 0 .ready } none
  | interrupts (reason : Interruption) : x.outcome = none →
      (x.stage = .parallel ∨ ∃ before, x.stage = .cancelling before) →
      Moves x [] ({ x with stage := .cancelling reason }.askAll) none
  | expires : x.outcome = none → x.stage ≠ .parallel → (∀ reason, x.stage ≠ .cancelling reason) →
      Moves x [] (x.finish x.timedOut .failure).1 (x.finish x.timedOut .failure).2
  | abandons : x.outcome = none → Moves x [] { x with outcome := some .cancelled } none
  | closes : Moves x [] x.askAll none

section

variable {x : Execution} {event : ExecutionEvent}

theorem traced_lane_of_step {lane : Lane} {i : ℕ} {options : ExecuteOptions}
    {swqosType : SwqosType} {event : LaneEvent}
    (h : lane.step options swqosType event = none) : lane.traced i event = [] := by
  cases lane <;> cases event <;> simp_all [Lane.step, Lane.traced]
  split at h <;> cases h

theorem step_moves (event : ExecutionEvent) :
    x.Moves (x.traced event) (x.step event).1 (x.step event).2 := by
  obtain ⟨options, clients, stage, futures, done, collected, acknowledged, lastError, receipts,
    outcome⟩ := x
  cases event with
  | limiterPassed =>
      cases outcome <;> cases stage <;> simp only [step, traced] <;> try exact .stays
      split
      · exact .starts rfl rfl ‹_›
      · split
        · exact .begins rfl rfl (Bool.eq_false_iff.2 ‹_›) ‹_›
        · exact .refuses rfl rfl (Bool.eq_false_iff.2 ‹_›)
  | lane i event =>
      simp only [step, traced]
      split
      · rename_i future swqosType hfuture hclient
        split
        · rename_i lane hlane
          exact .lane i future swqosType event lane hfuture hclient hlane
        · rename_i hlane
          rw [traced_lane_of_step hlane]
          exact .stays
      · exact .stays
  | laneCancelled i =>
      simp only [step, traced]
      split
      · rename_i future hfuture
        split
        · rename_i hasked
          exact .laneCancelled i future hfuture hasked.2
        · exact .stays
      · exact .stays
  | collect =>
      cases outcome <;> cases stage <;> simp only [step, traced] <;> try exact .stays
      cases done with
      | nil => exact .stays
      | cons i done =>
          dsimp only
          split
          · rename_i future hfuture
            exact .collects i done future rfl rfl rfl hfuture
          · exact .stays
  | gathered =>
      cases outcome <;> cases stage <;> simp only [step, traced] <;> try exact .stays
      split
      · rename_i hsettled
        split
        · rename_i hreason
          subst hreason
          refine .gathers rfl rfl fun future hfuture => ?_
          exact of_decide_eq_true (List.all_eq_true.1 hsettled future hfuture)
        · exact .abandons rfl
      · exact .stays
  | attempt event =>
      cases outcome <;> cases stage <;> simp only [step, traced] <;> try exact .stays
      rename_i retry index current
      cases hclient : clients[index]? with
      | none =>
          rw [if_neg (not_lt.2 (List.getElem?_eq_none_iff.1 hclient))]
          exact .stays
      | some swqosType =>
          obtain ⟨hindex, -⟩ := List.getElem?_eq_some_iff.1 hclient
          rw [if_pos hindex]
          dsimp only
          split
          · rename_i lane hlane
            exact .attempts retry index current swqosType event lane rfl rfl hclient hlane
          · rename_i hlane
            rw [traced_lane_of_step hlane]
            exact .stays
  | delayElapsed =>
      cases outcome <;> cases stage <;> simp only [step, traced] <;> try exact .stays
      exact .resumes _ rfl rfl
  | deadline =>
      cases outcome with
      | some =>
          simp only [step, traced]
          exact .stays
      | none =>
          cases stage with
          | parallel =>
              simp only [step, traced]
              exact .interrupts .deadline rfl (.inl rfl)
          | cancelling reason =>
              cases reason <;> simp only [step, traced] <;> try exact .stays
              exact .interrupts .deadline rfl (.inr ⟨_, rfl⟩)
          | limited | attempt | pausing =>
              simp only [step, traced]
              exact .expires rfl (by simp) (by simp)
  | cancel =>
      cases outcome with
      | some =>
          simp only [step, traced]
          exact .stays
      | none =>
          cases stage with
          | parallel =>
              simp only [step, traced]
              exact .interrupts .caller rfl (.inl rfl)
          | cancelling reason =>
              simp only [step, traced]
              exact .interrupts .caller rfl (.inr ⟨_, rfl⟩)
          | limited | attempt | pausing =>
              simp only [step, traced]
              exact .abandons rfl
  | closed => exact .closes

end

end Execution

/-! ### One lane -/

namespace Lane

/-- What the client of a lane has seen so far. -/
def Past (options : ExecuteOptions) (client : ℕ) (swqosType : Option SwqosType) (lane : Lane)
    (T : List Trace) : Prop :=
  match lane with
  | ready | raised _ => T = []
  | sending => T = [.sent client]
  | confirming signature =>
      options.waitConfirmation = true ∧ T = [.sent client, .acknowledged client signature]
  | finished r => r.swqosType = swqosType ∧
      (if r.success = true then
        T = [.sent client, .acknowledged client r.signature] ++
          (if options.waitConfirmation = true then [.confirmed client r.signature] else [])
      else r.error.isSome ∧ (r.signature = "" ∧ (T = [] ∨ T = [.sent client]) ∨
        T = [.sent client, .acknowledged client r.signature]))
  | cancelled => ∃ signature, T <+: [.sent client, .acknowledged client signature]

section

variable {options : ExecuteOptions} {client : ℕ} {swqosType : SwqosType} {type : Option SwqosType}
  {lane lane' : Lane} {event : LaneEvent} {T : List Trace} {r : TradeResult}

theorem not_settled_of_step (h : lane.step options swqosType event = some lane') :
    ¬ lane.Settled := by
  cases lane <;> simp_all [Settled, step]

theorem ne_cancelled_of_step (h : lane.step options swqosType event = some lane') :
    lane' ≠ .cancelled := by
  rintro rfl
  cases lane <;> cases event <;> simp [step, failing] at h
  split at h <;> cases h

theorem Past.step (h : lane.Past options client (some swqosType) T)
    (hstep : lane.step options swqosType event = some lane') :
    lane'.Past options client (some swqosType) (T ++ lane.traced client event) := by
  cases lane with
  | ready =>
      obtain rfl : T = [] := h
      cases event <;> cases hstep <;> simp [Past, failing, traced, signature]
  | sending =>
      obtain rfl : T = [.sent client] := h
      cases event with
      | acknowledged =>
          rw [Lane.step] at hstep
          split at hstep <;> rename_i hwait <;> cases hstep <;> simp [Past, traced, hwait]
      | _ => cases hstep <;> simp [Past, failing, traced, signature]
  | confirming =>
      obtain ⟨hwait, rfl⟩ := h
      cases event <;> cases hstep <;> simp [Past, failing, traced, signature, hwait]
  | _ => cases hstep

theorem Past.cancel (h : lane.Past options client type T) (hunsettled : ¬ lane.Settled) :
    cancelled.Past options client type T := by
  cases lane with
  | ready =>
      obtain rfl : T = [] := h
      exact ⟨"", List.nil_prefix⟩
  | sending =>
      obtain rfl : T = [.sent client] := h
      exact ⟨"", by simp⟩
  | confirming signature =>
      obtain ⟨-, rfl⟩ := h
      exact ⟨signature, List.prefix_rfl⟩
  | _ => exact absurd trivial hunsettled

/-- A client sees the transaction, its own acknowledgement and the confirmation, in this order. -/
theorem Past.ordered (h : lane.Past options client type T) : ∃ signature,
    T <+: [.sent client, .acknowledged client signature, .confirmed client signature] := by
  cases lane with
  | ready | raised =>
      obtain rfl : T = [] := h
      exact ⟨"", List.nil_prefix⟩
  | sending =>
      obtain rfl : T = [.sent client] := h
      exact ⟨"", by simp⟩
  | confirming signature =>
      obtain ⟨-, rfl⟩ := h
      exact ⟨signature, by simp⟩
  | finished r =>
      refine ⟨r.signature, ?_⟩
      obtain ⟨-, h⟩ := h
      split at h
      · subst h
        split <;> simp
      · obtain ⟨-, ⟨-, rfl | rfl⟩ | rfl⟩ := h <;> simp
  | cancelled =>
      obtain ⟨signature, h⟩ := h
      exact ⟨signature, h.trans (by simp)⟩

theorem Past.success (h : (finished r).Past options client type T) (hsuccess : r.success = true) :
    .acknowledged client r.signature ∈ T ∧
      (options.waitConfirmation = true → .confirmed client r.signature ∈ T) := by
  obtain ⟨-, h⟩ := h
  rw [if_pos hsuccess] at h
  subst h
  refine ⟨by simp, fun hwait => ?_⟩
  simp [hwait]

theorem Past.failure (h : (finished r).Past options client type T) (hfailure : r.success = false) :
    r.error.isSome ∧ (r.signature ≠ "" → .acknowledged client r.signature ∈ T) ∧
      ∀ signature, .acknowledged client signature ∈ T → signature = r.signature := by
  obtain ⟨-, h⟩ := h
  rw [if_neg (by simp [hfailure])] at h
  obtain ⟨herror, ⟨hempty, rfl | rfl⟩ | rfl⟩ := h
  · exact ⟨herror, fun hne => absurd hempty hne, by simp⟩
  · exact ⟨herror, fun hne => absurd hempty hne, by simp⟩
  · exact ⟨herror, fun _ => by simp, by simp⟩

theorem traced_client {t : Trace} (h : t ∈ lane.traced client event) : t.client = client := by
  cases lane <;> cases event <;> simp_all [traced, Trace.client]

/-- The receipts are those of the acknowledgements. -/
theorem filterMap_receipt {clients : List SwqosType} (hclient : clients[client]? = some swqosType)
    (hstep : lane.step options swqosType event = some lane') :
    (lane.traced client event).filterMap (Trace.receipt clients) =
      (receipt swqosType event).toList := by
  cases lane <;> cases event <;> simp_all [Lane.step, traced, Trace.receipt, receipt]

end

end Lane

namespace Execution

/-! ### What an execution returns -/

def lanes (self : Execution) : List Lane := self.futures.map (·.lane)

/-- What a result says of what the clients have seen. -/
structure Answer (options : ExecuteOptions) (clients : List SwqosType) (T : List Trace)
    (r : TradeResult) : Prop where
  /-- A trade succeeds by a signature that a client has acknowledged, and that has been confirmed
  if that is asked for. -/
  success : r.success = true → ∃ i, .acknowledged i r.signature ∈ T ∧
    (options.waitConfirmation = true → .confirmed i r.signature ∈ T)
  /-- A trade that fails has an error. -/
  error : r.success = false → r.error.isSome
  /-- A signature has been acknowledged by a client of the type. -/
  acknowledged : r.signature ≠ "" → ∃ i, .acknowledged i r.signature ∈ T ∧
    r.swqosType = clients[i]?
  /-- Where there is no signature, no client has acknowledged the transaction. -/
  silent : r.signature = "" → ∀ i signature, .acknowledged i signature ∉ T

/-! ### What the steps leave alone -/

/-- What the tasks share but for where they are. -/
structure Frame (x y : Execution) : Prop where
  options : y.options = x.options
  clients : y.clients = x.clients
  receipts : y.receipts = x.receipts
  lanes : y.lanes = x.lanes

section

variable {x y : Execution} {T new : List Trace} {record : Option Record} {lane : Lane}
  {retry index i : ℕ} {r : TradeResult} {event : ExecutionEvent}

@[simp] theorem lanes_askAll : x.askAll.lanes = x.lanes := by
  rw [lanes, askAll, List.map_map]
  rfl

theorem nextAttempt_frame : Frame x (x.nextAttempt retry index).1 := by
  unfold nextAttempt
  split
  · exact ⟨rfl, rfl, rfl, rfl⟩
  · split <;> exact ⟨rfl, rfl, rfl, rfl⟩

theorem afterAttempt_frame : Frame x (x.afterAttempt retry index lane).1 := by
  cases lane with
  | finished r =>
      rw [afterAttempt]
      split
      · exact ⟨rfl, rfl, rfl, rfl⟩
      · split
        · exact ⟨rfl, rfl, rfl, rfl⟩
        · exact nextAttempt_frame
  | raised => exact nextAttempt_frame
  | _ => exact ⟨rfl, rfl, rfl, rfl⟩

theorem afterCollect_frame : Frame x x.afterCollect.1 := by
  unfold afterCollect
  split <;> exact ⟨rfl, rfl, rfl, rfl⟩

theorem collectNext_frame : Frame x (x.collectNext lane).1 := by
  cases lane with
  | finished r =>
      rw [collectNext]
      split
      · exact ⟨rfl, rfl, rfl, rfl⟩
      · obtain ⟨hoptions, hclients, hreceipts, hlanes⟩ := @afterCollect_frame { x with
          acknowledged := if r.signature ≠ "" then some r else x.acknowledged
          lastError := match r.error with
            | some error => if error ≠ "" then error else x.lastError
            | none => x.lastError }
        exact ⟨hoptions, hclients, hreceipts, hlanes⟩
  | raised error =>
      obtain ⟨hoptions, hclients, hreceipts, hlanes⟩ :=
        @afterCollect_frame { x with lastError := error }
      exact ⟨hoptions, hclients, hreceipts, hlanes⟩
  | _ => exact ⟨rfl, rfl, rfl, lanes_askAll⟩

theorem Moves.frame (h : x.Moves new y record) : y.options = x.options ∧ y.clients = x.clients ∧
    y.receipts = x.receipts ++ new.filterMap (Trace.receipt x.clients) := by
  cases h with
  | lane i future swqosType event lane hfuture hclient hstep =>
      refine ⟨rfl, rfl, ?_⟩
      rw [Lane.filterMap_receipt hclient hstep]
  | attempts retry index current swqosType event lane _ _ hclient hstep =>
      obtain ⟨hoptions, hclients, hreceipts, -⟩ := @afterAttempt_frame { x with
        receipts := x.receipts ++ (Lane.receipt swqosType event).toList } lane retry index
      refine ⟨hoptions, hclients, ?_⟩
      rw [Lane.filterMap_receipt hclient hstep]
      exact hreceipts
  | collects i done future =>
      obtain ⟨hoptions, hclients, hreceipts, -⟩ := @collectNext_frame
        { x with done, collected := x.collected + 1 } future.lane
      exact ⟨hoptions, hclients, hreceipts.trans (List.append_nil _).symm⟩
  | _ => exact ⟨rfl, rfl, (List.append_nil _).symm⟩

/-- How an execution ends is not changed. -/
theorem Moves.outcome_eq {outcome : Outcome} (h : x.Moves new y record)
    (houtcome : x.outcome = some outcome) : y.outcome = some outcome ∧ record = none := by
  cases h with
  | stays | lane | laneCancelled | closes => exact ⟨houtcome, rfl⟩
  | starts hnone | begins hnone | refuses hnone | collects _ _ _ hnone | gathers hnone
  | attempts _ _ _ _ _ _ hnone | resumes _ hnone | interrupts _ hnone | expires hnone
  | abandons hnone =>
      rw [hnone] at houtcome
      cases houtcome

/-- Once all lanes of an execution that has ended have ended, nothing happens any more. -/
theorem Moves.over (h : x.Moves new y record) (houtcome : x.outcome ≠ none)
    (hlanes : ∀ lane ∈ x.lanes, lane.Settled) : new = [] ∧ y.lanes = x.lanes := by
  have hfuture : ∀ {i : ℕ} {future : Submission}, x.futures[i]? = some future →
      future.lane.Settled := fun h =>
    hlanes _ (List.mem_map_of_mem (List.mem_of_getElem? h))
  cases h with
  | stays => exact ⟨rfl, rfl⟩
  | lane i future swqosType event lane hget _ hstep =>
      exact absurd (hfuture hget) (Lane.not_settled_of_step hstep)
  | laneCancelled i future hget hunsettled => exact absurd (hfuture hget) hunsettled
  | closes => exact ⟨rfl, lanes_askAll⟩
  | starts hnone | begins hnone | refuses hnone | collects _ _ _ hnone | gathers hnone
  | attempts _ _ _ _ _ _ hnone | resumes _ hnone | interrupts _ hnone | expires hnone
  | abandons hnone => exact absurd hnone houtcome

/-! ### What is recorded -/

end

end Execution

/-- How an execution that ends so is recorded. -/
def Outcome.record : Outcome → Option Record
  | returned r => some (if r.success = true then .success else .failure)
  | cancelled => none

namespace Execution

section

variable {x y : Execution} {T new : List Trace} {record : Option Record} {lane : Lane}
  {retry index i : ℕ} {r : TradeResult} {event : ExecutionEvent}

/-- What is kept as acknowledged has failed. -/
def KeptFailed (x : Execution) : Prop := ∀ r ∈ x.acknowledged, r.success = false

/-- A segment that ends an execution records it. -/
def Recorded (x : Execution) (p : Execution × Option Record) : Prop :=
  p.1.KeptFailed ∧ (p.1.outcome = x.outcome ∧ p.2 = none ∨
    ∃ r, p.1.outcome = some (.returned r) ∧ p.2 = Outcome.record (.returned r))

theorem finish_recorded {kind : Record} (hkept : x.KeptFailed)
    (h : (if r.success = true then .success else .failure) = kind) :
    Recorded x (x.finish r kind) :=
  ⟨hkept, .inr ⟨r, rfl, congrArg some h.symm⟩⟩

theorem nextAttempt_recorded (hkept : x.KeptFailed) :
    Recorded x (x.nextAttempt retry index) := by
  unfold nextAttempt
  split
  · exact ⟨hkept, .inl ⟨rfl, rfl⟩⟩
  · split
    · exact ⟨hkept, .inl ⟨rfl, rfl⟩⟩
    · exact finish_recorded hkept rfl

theorem afterAttempt_recorded (hkept : x.KeptFailed) :
    Recorded x (x.afterAttempt retry index lane) := by
  cases lane with
  | finished r =>
      rw [afterAttempt]
      split
      · rename_i hfailure
        exact finish_recorded hkept (if_neg hfailure.2)
      · split
        · rename_i hsuccess
          exact finish_recorded hkept (if_pos hsuccess)
        · exact nextAttempt_recorded hkept
  | raised => exact nextAttempt_recorded hkept
  | _ => exact ⟨hkept, .inl ⟨rfl, rfl⟩⟩

theorem afterCollect_recorded (hkept : x.KeptFailed) : Recorded x x.afterCollect := by
  unfold afterCollect
  split
  · refine finish_recorded hkept (if_neg ?_)
    rw [Bool.not_eq_true]
    cases hack : x.acknowledged with
    | none => rfl
    | some r => exact hkept r hack
  · exact ⟨hkept, .inl ⟨rfl, rfl⟩⟩

theorem collectNext_recorded (hkept : x.KeptFailed) : Recorded x (x.collectNext lane) := by
  cases lane with
  | finished r =>
      rw [collectNext]
      split
      · rename_i hsuccess
        exact finish_recorded hkept (if_pos hsuccess)
      · rename_i hfailure
        have hkept' : KeptFailed { x with
            acknowledged := if r.signature ≠ "" then some r else x.acknowledged
            lastError := match r.error with
              | some error => if error ≠ "" then error else x.lastError
              | none => x.lastError } := by
          intro kept hmem
          dsimp only at hmem
          split at hmem
          · obtain rfl := Option.some.inj hmem
            exact Bool.eq_false_iff.2 hfailure
          · exact hkept kept hmem
        exact afterCollect_recorded hkept'
  | raised error =>
      have hkept' : KeptFailed { x with lastError := error } := hkept
      exact afterCollect_recorded hkept'
  | _ => exact ⟨hkept, .inl ⟨rfl, rfl⟩⟩

theorem Moves.recorded (h : x.Moves new y record) (hkept : x.KeptFailed) :
    y.KeptFailed ∧ (x.outcome = none → record = y.outcome.bind Outcome.record) := by
  have hends : ∀ (x' : Execution) {p : Execution × Option Record}, x'.outcome = x.outcome →
      Recorded x' p →
      p.1.KeptFailed ∧ (x.outcome = none → p.2 = p.1.outcome.bind Outcome.record) := by
    rintro x' p hx' ⟨hkept, ⟨houtcome, hp⟩ | ⟨r, houtcome, hp⟩⟩
    · refine ⟨hkept, fun hnone => ?_⟩
      rw [hp, houtcome, hx', hnone]
      rfl
    · refine ⟨hkept, fun _ => ?_⟩
      rw [hp, houtcome]
      rfl
  cases h with
  | refuses => exact hends _ rfl (finish_recorded hkept rfl)
  | attempts retry index current swqosType event lane =>
      exact hends { x with
        receipts := x.receipts ++ (Lane.receipt swqosType event).toList } rfl
        (afterAttempt_recorded hkept)
  | collects i done future =>
      exact hends { x with done, collected := x.collected + 1 } rfl
        (collectNext_recorded hkept)
  | gathers | expires =>
      refine hends _ rfl (finish_recorded hkept (if_neg ?_))
      unfold timedOut
      split <;> simp
  | abandons => exact ⟨hkept, fun _ => rfl⟩
  | _ =>
      refine ⟨hkept, fun hnone => ?_⟩
      first
        | rw [hnone]; rfl
        | exact (congrArg (Option.bind · Outcome.record) hnone).symm

/-! ### Answers -/

/-- What clients acknowledge with is a signature. -/
def Signed (T : List Trace) : Prop := ∀ i signature, .acknowledged i signature ∈ T → signature ≠ ""

/-- The first receipt is an acknowledged signature. -/
theorem timedOut_answer (hreceipts : x.receipts = T.filterMap (Trace.receipt x.clients))
    (hsigned : Signed T) : Answer x.options x.clients T x.timedOut := by
  have hfailed : x.timedOut.success = false := by
    unfold timedOut
    split <;> rfl
  refine ⟨fun hsuccess => ?_, fun _ => ?_, ?_, ?_⟩
  · rw [hfailed] at hsuccess
    cases hsuccess
  · unfold timedOut
    split <;> rfl
  · cases hcase : x.receipts with
    | nil => simp [timedOut, hcase]
    | cons receipt rest =>
        have hmem : receipt ∈ T.filterMap (Trace.receipt x.clients) := by
          rw [← hreceipts, hcase]
          exact List.mem_cons_self
        obtain ⟨t, ht, heq⟩ := List.mem_filterMap.1 hmem
        cases t <;> cases heq
        simp only [timedOut, hcase]
        exact fun _ => ⟨_, ht, rfl⟩
  · intro hempty i signature hmem
    have hreceipt : { signature, success := false, swqosType := x.clients[i]? } ∈ x.receipts := by
      rw [hreceipts]
      exact List.mem_filterMap.2 ⟨_, hmem, rfl⟩
    cases hcase : x.receipts with
    | nil =>
        rw [hcase] at hreceipt
        cases hreceipt
    | cons receipt rest =>
        have hfirst : receipt ∈ T.filterMap (Trace.receipt x.clients) := by
          rw [← hreceipts, hcase]
          exact List.mem_cons_self
        obtain ⟨t, ht, heq⟩ := List.mem_filterMap.1 hfirst
        cases t <;> cases heq
        simp only [timedOut, hcase] at hempty
        exact hsigned _ _ ht hempty

/-- What an execution that has come to its end returns. -/
def Returns (x : Execution) (T : List Trace) : Prop :=
  ∀ r, x.outcome = some (.returned r) → Signed T →
    Answer x.options x.clients T r ∧ (r.success = false → ∀ lane ∈ x.lanes, lane.Settled)

theorem Returns.of_none (h : x.outcome = none) : x.Returns T := by
  intro r hr
  rw [h] at hr
  cases hr

end

end Execution

end SolTrade.Trading
