import Mathlib.Data.List.Basic
import Mathlib.Data.Option.Basic
import Mathlib.Data.Int.Order.Basic
import SolTrade.Library.Runs

/-!
The handle of a subscription, plain or over a WebSocket.

Its coroutines run on one event loop, so they take turns at their awaits: a task is known by
the await it is suspended at, and an action resumes a task with an outcome, carries out a call
up to its next await, or runs a call to its end. What a task does between two awaits is done at
once. A cancelled task is resumed by the cancellation alone, except where a callback of the
user awaits, which may swallow it, and where a message has arrived as well.
-/

namespace SolTrade.Subscription

open Library

inductive SubscriptionState where
  | pending
  | active
  | paused
  | closed
  | error
  deriving DecidableEq

structure SubscriptionConfig where
  autoReconnect : Bool := true
  maxReconnectAttempts : ℤ := 10
  bufferSize : ℕ := 1000

structure SubscriptionStats where
  messagesReceived : ℕ := 0
  messagesDropped : ℕ := 0
  reconnections : ℕ := 0
  errors : ℕ := 0

/-- No callback, a function or a coroutine function. -/
inductive CallbackKind where
  | unset
  | sync
  | async

/-- Where `_run` is suspended. -/
inductive RunAwait (M : Type) where
  | created
  | pausedSleep
  | waiting
  | holding (message : M)
  | callback (message : M)
  | errorCallback
  | backoff
  | done

/-- Where `_open_transport` is suspended; it abandons the transport when it has failed. -/
inductive OpenAwait where
  | opening
  | acknowledging
  | abandoning (cancelled : Bool)

/-- Where `_receive` is suspended. It waits for the queue to be finished once more, then to begin
its own `stop`, then for its end; it dies of an exception that it does not catch. -/
inductive ReadAwait where
  | created
  | receiving
  | joining (since : ℕ)
  | stopping
  | stopped
  | closing
  | errorCallback
  | backoff
  | transport (await : OpenAwait)
  | done
  | died

structure Task (A : Type) where
  await : A
  cancelling : Bool

inductive TaskRef where
  | run (t : ℕ)
  | reader (r : ℕ)
  deriving DecidableEq

/-- What a call of `stop` that has closed the subscription still waits for. -/
inductive StopAwait where
  | reader
  | task
  | transport

/-- The call, and the task that it runs in if that is one of the subscription's own. -/
structure StopCall where
  caller : Option TaskRef
  await : StopAwait

/-- Where `_handle_error` comes to. -/
inductive ErrorAwait where
  | errorCallback
  | backoff
  | returned

/-- How an await of `_run` ends: by the clock, with a message, with an exception, by the return
of a callback, with a cancellation. -/
inductive RunOutcome where
  | elapsed
  | received
  | failed
  | returned
  | cancelled

inductive OpenOutcome where
  | returned
  | failed
  | cancelled
  deriving DecidableEq

/-- Where `_open_transport` comes to. -/
inductive OpenResult where
  | awaits (await : OpenAwait)
  | succeeded
  | raised (cancelled : Bool)

/-- How an await of `_receive` ends. A notification may be the last one of a signature. -/
inductive ReadOutcome (M : Type) where
  | elapsed
  | skipped
  | notified (message : M) (last : Bool)
  | ended
  | failed
  | returned
  | transport (outcome : OpenOutcome)
  | cancelled

/-- What a step does that can be told from outside. -/
inductive Event (M : Type) where
  | assigned (state : SubscriptionState)
  | messageCallback (message : M)
  | opening
  | opened

structure SubscriptionHandle (M : Type) where
  webSocket : Bool
  config : SubscriptionConfig
  callback : CallbackKind
  errorCallback : CallbackKind
  state : SubscriptionState
  queue : List M
  unfinished : ℕ
  /-- How often the last unfinished message has been done. -/
  finished : ℕ
  stats : SubscriptionStats
  reconnectAttempts : ℕ
  runs : List (Task (RunAwait M))
  task : Option ℕ
  readers : List (Task ReadAwait)
  reader : Option ℕ
  connected : Bool
  connecting : Option OpenAwait
  stopCall : Option StopCall

variable {M : Type}

def RunAwait.isDone : RunAwait M → Bool
  | done => true
  | _ => false

def ReadAwait.isDone : ReadAwait → Bool
  | done | died => true
  | _ => false

/-- `task.cancel()`. -/
def Task.cancel {A : Type} (isDone : A → Bool) (task : Task A) : Task A :=
  if isDone task.await then task else { task with cancelling := true }

namespace SubscriptionHandle

/-- A new handle. -/
def init (webSocket : Bool) (config : SubscriptionConfig) : SubscriptionHandle M where
  webSocket := webSocket
  config := config
  callback := .unset
  errorCallback := .unset
  state := .pending
  queue := []
  unfinished := 0
  finished := 0
  stats := {}
  reconnectAttempts := 0
  runs := []
  task := none
  readers := []
  reader := none
  connected := false
  connecting := none
  stopCall := none

variable (s : SubscriptionHandle M)

/-! ### The locks -/

/-- A `stop` of a plain handle keeps the lock while it waits for the task. -/
def locked : Bool := s.webSocket = false ∧ s.stopCall.isSome

def transportLocked : Bool := s.stopCall.isSome ∨ s.connecting.isSome

/-- The task is not inside a `stop` of its own. -/
def free (ref : TaskRef) : Bool := ∀ call ∈ s.stopCall, call.caller ≠ some ref

def runDone (t : ℕ) : Bool := s.runs[t]?.all (·.await.isDone)

def readerDone (r : ℕ) : Bool := s.readers[r]?.all (·.await.isDone)

def readerDied (r : ℕ) : Bool := match s.readers[r]? with
  | some ⟨.died, _⟩ => true
  | _ => false

/-! ### Calls -/

/-- A subscription that is closed is not started; this raises. -/
def start : List (Event M) × SubscriptionHandle M :=
  if s.state = .closed then ([], s)
  else if s.task.any fun t => s.runDone t = false then
    ([.assigned .active], { s with state := .active })
  else
    ([.assigned .active], { s with
      state := .active
      runs := s.runs ++ [⟨.created, false⟩]
      task := some s.runs.length })

def pause : List (Event M) × SubscriptionHandle M :=
  if s.state = .active then ([.assigned .paused], { s with state := .paused }) else ([], s)

def resume : List (Event M) × SubscriptionHandle M :=
  if s.state = .paused then ([.assigned .active], { s with state := .active }) else ([], s)

def send (message : M) : SubscriptionHandle M :=
  if s.state = .closed then s
  else if s.queue.length < s.config.bufferSize then
    { s with queue := s.queue ++ [message], unfinished := s.unfinished + 1 }
  else { s with stats.messagesDropped := s.stats.messagesDropped + 1 }

def cancelRun (t : ℕ) : SubscriptionHandle M :=
  { s with runs := s.runs.modify t (·.cancel RunAwait.isDone) }

def cancelReader (r : ℕ) : SubscriptionHandle M :=
  { s with readers := s.readers.modify r (·.cancel ReadAwait.isDone) }

/-- `SubscriptionHandle.stop`, up to the wait for the task. -/
def stopHandle (caller : Option TaskRef) : List (Event M) × SubscriptionHandle M :=
  if s.state = .closed then ([], s)
  else
    let closed := { s with state := .closed }
    match s.task with
    | none => ([.assigned .closed], closed)
    | some t =>
        if caller = some (.run t) then ([.assigned .closed], closed)
        else ([.assigned .closed], { closed.cancelRun t with stopCall := some ⟨caller, .task⟩ })

/-- `WebSocketSubscription.stop`, up to the wait for the reader. -/
def stopWebSocket (caller : Option TaskRef) : List (Event M) × SubscriptionHandle M :=
  let closed := { s with state := .closed, stopCall := some ⟨caller, .reader⟩ }
  match s.reader with
  | none => ([.assigned .closed], closed)
  | some r =>
      if caller = some (.reader r) then ([.assigned .closed], closed)
      else ([.assigned .closed], closed.cancelReader r)

/-- A task calls from a callback, the reader also after its last message. -/
def mayStop : Option TaskRef → Bool
  | none => true
  | some (.run t) => match s.runs[t]? with
      | some ⟨.callback _, _⟩ | some ⟨.errorCallback, _⟩ => true
      | _ => false
  | some (.reader r) => match s.readers[r]? with
      | some ⟨.errorCallback, _⟩ | some ⟨.stopping, _⟩ => true
      | _ => false

/-- A reader that was waiting to begin its own `stop` is inside it. -/
def enterStop : Option TaskRef → SubscriptionHandle M
  | some (.reader r) =>
      { s with readers := s.readers.modify r fun task =>
          match task.await with
          | .stopping => { task with await := .stopped }
          | _ => task }
  | _ => s

def stop (caller : Option TaskRef) : List (Event M) × SubscriptionHandle M :=
  if s.webSocket then (s.enterStop caller).stopWebSocket caller
  else (s.enterStop caller).stopHandle caller

/-- The wait of a `stop` is over: for the reader, whose exception it raises, for the task, for
the transport. -/
def continueStop (call : StopCall) : Option (SubscriptionHandle M) :=
  match call.await with
  | .reader =>
      if s.reader.any s.readerDied then some { s with stopCall := none }
      else if s.reader.all fun r => call.caller = some (.reader r) ∨ s.readerDone r then
        let next := { s with stopCall := some { call with await := .task } }
        match s.task with
        | none => some next
        | some t => some (if call.caller = some (.run t) then next else next.cancelRun t)
      else none
  | .task =>
      if s.task.all fun t => call.caller = some (.run t) ∨ s.runDone t then
        if s.webSocket then
          some { s with
            reader := none
            task := none
            connected := false
            stopCall := some { call with await := .transport } }
        else some { s with task := none, stopCall := none }
      else none
  | .transport => some { s with stopCall := none }

/-! ### The error handler -/

/-- The end of `_handle_error`: a reconnection, or the subscription is closed. -/
def reconnect : List (Event M) × SubscriptionHandle M × ErrorAwait :=
  if s.config.autoReconnect ∧ s.reconnectAttempts < s.config.maxReconnectAttempts then
    ([], { s with
      reconnectAttempts := s.reconnectAttempts + 1
      stats.reconnections := s.stats.reconnections + 1 }, .backoff)
  else ([.assigned .closed], { s with state := .closed }, .returned)

def handleError : List (Event M) × SubscriptionHandle M × ErrorAwait :=
  let failed := { s with state := .error, stats.errors := s.stats.errors + 1 }
  match s.errorCallback with
  | .async => ([.assigned .error], failed, .errorCallback)
  | .unset | .sync =>
      let (events, next, await) := failed.reconnect
      (.assigned .error :: events, next, await)

/-! ### The processing loop -/

/-- From the head of `_run` to the next await. -/
def runHead : RunAwait M :=
  match s.state with
  | .closed => .done
  | .paused => .pausedSleep
  | _ => .waiting

def taskDone : SubscriptionHandle M :=
  { s with
    unfinished := s.unfinished - 1
    finished := if s.unfinished = 1 then s.finished + 1 else s.finished }

def processMessage (message : M) : List (Event M) × SubscriptionHandle M × RunAwait M :=
  let counted := { s with stats.messagesReceived := s.stats.messagesReceived + 1 }
  match s.callback with
  | .unset => ([], counted.taskDone, counted.runHead)
  | .sync => ([.messageCallback message], counted.taskDone, counted.runHead)
  | .async => ([.messageCallback message], counted, .callback message)

/-- A message in hand waits while the subscription is paused, and is left if it is closed. -/
def takeMessage (message : M) : List (Event M) × SubscriptionHandle M × RunAwait M :=
  match s.state with
  | .paused => ([], s, .holding message)
  | .closed => ([], s.taskDone, .done)
  | _ => s.processMessage message

/-- `_run` after `_handle_error`. -/
def runAfterError :
    List (Event M) × SubscriptionHandle M × ErrorAwait →
      List (Event M) × SubscriptionHandle M × RunAwait M
  | (events, next, .errorCallback) => (events, next, .errorCallback)
  | (events, next, .backoff) => (events, next, .backoff)
  | (events, next, .returned) => (events, next, next.runHead)

def resumeRun (cancelling : Bool) : RunAwait M → RunOutcome →
    Option (List (Event M) × SubscriptionHandle M × RunAwait M)
  | .created, .elapsed | .pausedSleep, .elapsed | .waiting, .elapsed =>
      if cancelling then none else some ([], s, s.runHead)
  | .waiting, .received => match s.queue with
      | [] => none
      | message :: queue => some ({ s with queue }.takeMessage message)
  | .waiting, .failed => if cancelling then none else some (runAfterError s.handleError)
  | .holding message, .elapsed => if cancelling then none else some (s.takeMessage message)
  | .callback _, .returned => some ([], s.taskDone, s.runHead)
  | .errorCallback, .returned => some (runAfterError s.reconnect)
  | .backoff, .elapsed =>
      if cancelling then none
      else
        let active := { s with state := .active }
        some ([.assigned .active], active, active.runHead)
  -- a cancellation; a callback may also raise it by itself
  | .callback _, .cancelled => some ([], s.taskDone, .done)
  | .errorCallback, .cancelled => some ([], s, .done)
  | .holding _, .cancelled => if cancelling then some ([], s.taskDone, .done) else none
  | .created, .cancelled | .pausedSleep, .cancelled | .waiting, .cancelled |
    .backoff, .cancelled => if cancelling then some ([], s, .done) else none
  | _, _ => none

/-! ### The transport -/

/-- The connection, the acknowledgement, or the end of the transport after a failure. -/
def resumeOpen : OpenAwait → OpenOutcome →
    List (Event M) × SubscriptionHandle M × OpenResult
  | .opening, .returned => ([.opened], { s with connected := true }, .awaits .acknowledging)
  | .acknowledging, .returned => ([], { s with reconnectAttempts := 0 }, .succeeded)
  | .opening, .failed | .acknowledging, .failed =>
      ([], { s with connected := false }, .awaits (.abandoning false))
  | .opening, .cancelled | .acknowledging, .cancelled =>
      ([], { s with connected := false }, .awaits (.abandoning true))
  | .abandoning cancelled, .returned => ([], s, .raised cancelled)
  | .abandoning _, .failed => ([], s, .raised false)
  | .abandoning _, .cancelled => ([], s, .raised true)

/-! ### The receive loop -/

/-- From the head of `_receive` to the next await. -/
def readHead : ReadAwait := if s.state = .closed then .done else .receiving

/-- `self._queue.join()`. A wait is over once the queue has been finished, whatever it holds by
then. -/
def join : ReadAwait := if s.unfinished = 0 then .stopping else .joining s.finished

/-- `_receive` after `_handle_error`. -/
def readAfterError :
    List (Event M) × SubscriptionHandle M × ErrorAwait →
      List (Event M) × SubscriptionHandle M × ReadAwait
  | (events, next, .errorCallback) => (events, next, .errorCallback)
  | (events, next, .backoff) => (events, next, .backoff)
  | (events, next, .returned) => (events, next, .stopping)

/-- The head of the loop that reconnects. -/
def errorHead : List (Event M) × SubscriptionHandle M × ReadAwait :=
  if s.state = .closed then ([], s, .done) else readAfterError s.handleError

def resumeRead (cancelling : Bool) : ReadAwait → ReadOutcome M →
    Option (List (Event M) × SubscriptionHandle M × ReadAwait)
  | .created, .elapsed => if cancelling then none else some ([], s, s.readHead)
  | .receiving, .skipped => if cancelling then none else some ([], s, .receiving)
  | .receiving, .notified message last =>
      if cancelling then none
      else
        let next := s.send message
        some ([], next, if last then next.join else .receiving)
  | .receiving, .ended =>
      if cancelling then none
      else if s.state = .closed then some ([], s, .done)
      else some ([], { s with connected := false }, .closing)
  | .receiving, .failed =>
      if cancelling then none else some ([], { s with connected := false }, .closing)
  | .joining since, .returned =>
      if cancelling ∨ s.finished = since then none else some ([], s, .stopping)
  | .stopped, .returned => some ([], s, .done)
  | .closing, .returned => if cancelling then none else some s.errorHead
  | .closing, .failed => if cancelling then none else some ([], s, .died)
  | .errorCallback, .returned => some (readAfterError s.reconnect)
  | .backoff, .elapsed =>
      if cancelling then none
      else some ([.assigned .active, .opening], { s with state := .active }, .transport .opening)
  | .transport await, .transport outcome =>
      if cancelling ≠ (outcome = .cancelled : Bool) then none
      else
        match s.resumeOpen await outcome with
        | (events, next, .awaits await) => some (events, next, .transport await)
        | (events, next, .succeeded) => some (events, next, next.readHead)
        | (events, next, .raised true) => some (events, next, .done)
        | (_, next, .raised false) => some next.errorHead
  | .errorCallback, .cancelled => some ([], s, .done)
  | .created, .cancelled | .receiving, .cancelled | .joining _, .cancelled | .stopping, .cancelled |
    .closing, .cancelled | .backoff, .cancelled => if cancelling then some ([], s, .done) else none
  | _, _ => none

/-! ### Connecting -/

/-- `connect`, up to the wait for the connection. It raises if the subscription is closed. -/
def connect : List (Event M) × SubscriptionHandle M :=
  if s.state = .closed ∨ s.connected then ([], s)
  else ([.opening], { s with connecting := some .opening })

/-- A connection that has been acknowledged starts the subscription, which raises if it is
closed by then, and has it received. -/
def finishConnect : List (Event M) × SubscriptionHandle M :=
  let opened := { s with connecting := none }
  if s.state = .closed then ([], opened)
  else
    let (events, started) := opened.start
    (events, { started with
      readers := started.readers ++ [⟨.created, false⟩]
      reader := some started.readers.length })

def continueConnect (await : OpenAwait) (outcome : OpenOutcome) :
    List (Event M) × SubscriptionHandle M :=
  match s.resumeOpen await outcome with
  | (events, next, .awaits await) => (events, { next with connecting := some await })
  | (events, next, .raised _) => (events, { next with connecting := none })
  | (_, next, .succeeded) => next.finishConnect

end SubscriptionHandle

/-! ### Runs -/

/-- A call from a task, a wait of one that ends, or an await of a task of the subscription that
ends. -/
inductive Action (M : Type) where
  | onMessage (callback : CallbackKind)
  | onError (callback : CallbackKind)
  | start
  | pause
  | resume
  | send (message : M)
  | stop (caller : Option TaskRef)
  | continueStop
  | connect
  | continueConnect (outcome : OpenOutcome)
  | run (t : ℕ) (outcome : RunOutcome)
  | reader (r : ℕ) (outcome : ReadOutcome M)

namespace SubscriptionHandle

variable (s : SubscriptionHandle M)

/-- A task that is not inside a `stop` of its own goes on to its next await. -/
def stepRun (t : ℕ) (outcome : RunOutcome) : Option (List (Event M) × SubscriptionHandle M) := do
  let task ← s.runs[t]?
  let (events, next, await) ← s.resumeRun task.cancelling task.await outcome
  if s.free (.run t) then some (events, { next with runs := next.runs.set t ⟨await, false⟩ })
  else none

def stepReader (r : ℕ) (outcome : ReadOutcome M) :
    Option (List (Event M) × SubscriptionHandle M) := do
  let task ← s.readers[r]?
  let (events, next, await) ← s.resumeRead task.cancelling task.await outcome
  if s.free (.reader r) then
    some (events, { next with readers := next.readers.set r ⟨await, false⟩ })
  else none

/-- What an action does, if it can happen. -/
def enabledStep : Action M → Option (List (Event M) × SubscriptionHandle M)
  | .onMessage callback => some ([], { s with callback })
  | .onError errorCallback => some ([], { s with errorCallback })
  | .start => if s.locked then none else some s.start
  | .pause => if s.locked then none else some s.pause
  | .resume => if s.locked then none else some s.resume
  | .send message => some ([], s.send message)
  | .stop caller =>
      if s.transportLocked ∨ s.mayStop caller = false then none else some (s.stop caller)
  | .continueStop => s.stopCall.bind fun call => (s.continueStop call).map fun next => ([], next)
  | .connect => if s.webSocket = false ∨ s.transportLocked then none else some s.connect
  | .continueConnect outcome => s.connecting.map fun await => s.continueConnect await outcome
  | .run t outcome => s.stepRun t outcome
  | .reader r outcome => s.stepReader r outcome

/-- An action that cannot happen changes nothing. -/
def step (a : Action M) : List (Event M) × SubscriptionHandle M := (s.enabledStep a).getD ([], s)

/-- The handle after some actions. -/
def after (webSocket : Bool) (config : SubscriptionConfig) (actions : List (Action M)) :
    SubscriptionHandle M :=
  Runs.run (fun s a => (step s a).2) (init webSocket config) actions

end SubscriptionHandle

end SolTrade.Subscription
