import Mathlib.Data.List.Perm.Basic
import Mathlib.Data.List.Flatten
import Mathlib.Algebra.Order.Group.Multiset
import Mathlib.Tactic.Abel
import SolTrade.Subscription.Handle

/-!
What becomes of the messages of a subscription.

A message that the queue accepts is in the queue, then with the processing task, which may hold it
while the subscription is paused, and then it is handled: its callback is called, it is counted
without a callback, or it is abandoned because the subscription has been closed. The messages that
wait are those held and those queued; a step moves messages from one end of them to the other.
-/

namespace SolTrade.Subscription

open Library

variable {M : Type} {s next : SubscriptionHandle M} {events : List (Event M)} {a : Action M}

/-- How a message is handled. -/
inductive Fate where
  | called
  | counted
  | abandoned
  deriving DecidableEq

/-- The message that a task has taken and not begun to process. -/
def RunAwait.held : RunAwait M → List M
  | holding message => [message]
  | _ => []

/-- The message for which a task has yet to call `task_done`. -/
def RunAwait.inHand : RunAwait M → List M
  | holding message | callback message => [message]
  | _ => []

def Event.call? : Event M → Option M
  | messageCallback message => some message
  | _ => none

namespace SubscriptionHandle

def awaits (s : SubscriptionHandle M) : List (RunAwait M) := s.runs.map (·.await)

/-- The messages that have been accepted and not handled, the oldest first. -/
def pending (s : SubscriptionHandle M) : List M := s.awaits.flatMap RunAwait.held ++ s.queue

/-- The messages that the processing tasks are at. -/
def inHand (s : SubscriptionHandle M) : List M := s.awaits.flatMap RunAwait.inHand

/-- `send` puts the message into the queue. -/
def accepts (s : SubscriptionHandle M) : Bool :=
  s.state ≠ .closed ∧ s.queue.length < s.config.bufferSize

/-- The message that a step offers to the queue. -/
def offered (s : SubscriptionHandle M) : Action M → Option M
  | .send message => some message
  | .reader r (.notified message last) =>
      if (s.stepReader r (.notified message last)).isSome then some message else none
  | _ => none

/-- The message that a step puts into the queue. -/
def acceptedBy (s : SubscriptionHandle M) (a : Action M) : Option M :=
  if s.accepts then s.offered a else none

/-- The messages whose callback is called among those handled. -/
def called (handled : List (M × Fate)) : List M :=
  (handled.filter (·.2 = .called)).map Prod.fst

/-- The message that a step drops since the queue is full. -/
def droppedBy (s : SubscriptionHandle M) (a : Action M) : Option M :=
  if s.state = .closed ∨ s.accepts then none else s.offered a

/-- How `_run` handles a message that it has taken, if it does not hold it. -/
def fate? (s : SubscriptionHandle M) : Option Fate :=
  match s.state, s.callback with
  | .paused, _ => none
  | .closed, _ => some .abandoned
  | _, .unset => some .counted
  | _, _ => some .called

/-- The message that a segment of `_run` handles. -/
def handledIn (s : SubscriptionHandle M) : RunAwait M → RunOutcome → Option (M × Fate)
  | .waiting, .received => s.queue.head?.bind fun message => s.fate?.map (message, ·)
  | .holding message, .elapsed => s.fate?.map (message, ·)
  | .holding message, .cancelled => some (message, .abandoned)
  | _, _ => none

/-- The message that a step handles. -/
def handledBy (s : SubscriptionHandle M) : Action M → Option (M × Fate)
  | .run t outcome =>
      if (s.stepRun t outcome).isSome then
        s.runs[t]?.bind fun task => s.handledIn task.await outcome
      else none
  | _ => none

/-! ### Segments -/

/-- What a segment of a task leaves alone. -/
structure SameTasks (s next : SubscriptionHandle M) : Prop where
  webSocket : next.webSocket = s.webSocket
  config : next.config = s.config
  runs : next.runs = s.runs
  task : next.task = s.task
  readers : next.readers = s.readers
  stopCall : next.stopCall = s.stopCall

theorem SameTasks.refl (s : SubscriptionHandle M) : SameTasks s s :=
  ⟨rfl, rfl, rfl, rfl, rfl, rfl⟩

/-- The queue is finished at most once, when no message is unfinished. -/
def Finishes (s next : SubscriptionHandle M) : Prop :=
  next.finished = s.finished ∨ next.finished = s.finished + 1 ∧ next.unfinished = 0

theorem taskDone_finishes (s : SubscriptionHandle M) : Finishes s s.taskDone := by
  unfold Finishes taskDone
  dsimp only
  split
  · rename_i hone
    exact .inr ⟨rfl, by omega⟩
  · exact .inl rfl

/-- What a segment leaves alone that has nothing to do with messages. -/
structure Idle (s next : SubscriptionHandle M) (events : List (Event M)) : Prop where
  same : SameTasks s next
  queue : next.queue = s.queue
  unfinished : next.unfinished = s.unfinished
  finished : next.finished = s.finished
  received : next.stats.messagesReceived = s.stats.messagesReceived
  dropped : next.stats.messagesDropped = s.stats.messagesDropped
  calls : events.filterMap Event.call? = []

theorem Idle.refl (s : SubscriptionHandle M) : Idle s s [] :=
  ⟨.refl s, rfl, rfl, rfl, rfl, rfl, rfl⟩

/-- What a segment of `_run` does with the messages. -/
structure Segment (s next : SubscriptionHandle M) (events : List (Event M))
    (await await' : RunAwait M) (handled : Option (M × Fate)) : Prop where
  same : SameTasks s next
  queue : next.queue <:+ s.queue
  flow : handled.toList.map Prod.fst ++ (await'.held ++ next.queue) = await.held ++ s.queue
  calls : events.filterMap Event.call? = called handled.toList
  unfinished : ∀ n, s.unfinished = n + (await.inHand.length + s.queue.length) →
    next.unfinished = n + (await'.inHand.length + next.queue.length)
  finishes : Finishes s next
  dropped : next.stats.messagesDropped = s.stats.messagesDropped
  received : next.stats.messagesReceived =
    s.stats.messagesReceived + handled.toList.countP (·.2 ≠ .abandoned)

theorem held_of_inHand {await : RunAwait M} (h : await.inHand = []) : await.held = [] := by
  cases await with
  | holding | callback => cases h
  | _ => rfl

theorem Segment.of_idle {await await' : RunAwait M} (h : Idle s next events)
    (hawait : await.inHand = []) (hawait' : await'.inHand = []) :
    Segment s next events await await' none := by
  constructor
  case same => exact h.same
  case queue => exact h.queue ▸ List.suffix_rfl
  case flow => rw [held_of_inHand hawait, held_of_inHand hawait', h.queue]; rfl
  case calls => exact h.calls
  case unfinished =>
    intro n hn
    rw [h.unfinished, hn, hawait, hawait', h.queue]
  case finishes => exact .inl h.finished
  case dropped => exact h.dropped
  case received => exact h.received

theorem inHand_runHead (s : SubscriptionHandle M) : s.runHead.inHand = [] := by
  unfold runHead
  split <;> rfl

theorem held_runHead (s : SubscriptionHandle M) : s.runHead.held = [] := by
  unfold runHead
  split <;> rfl

/-- A message that is counted is processed at once or with a callback to wait for. -/
theorem processMessage_segment {await' : RunAwait M} {message : M} {fate : Fate}
    (hfate : fate = if s.callback matches .unset then .counted else .called)
    (h : s.processMessage message = (events, next, await')) :
    Segment s next events (.holding message) await' (some (message, fate)) := by
  subst hfate
  unfold processMessage at h
  cases hcallback : s.callback with
  | unset | sync =>
      simp only [hcallback] at h
      cases h
      refine ⟨⟨rfl, rfl, rfl, rfl, rfl, rfl⟩, List.suffix_rfl, ?_, rfl, fun n hn => ?_,
        taskDone_finishes _, rfl, rfl⟩
      · rw [held_runHead]
        rfl
      · rw [inHand_runHead]
        simp only [taskDone, hn, RunAwait.inHand, List.length_singleton, List.length_nil]
        omega
  | async =>
      simp only [hcallback] at h
      cases h
      exact ⟨⟨rfl, rfl, rfl, rfl, rfl, rfl⟩, List.suffix_rfl, rfl, rfl, fun n hn => hn, .inl rfl,
        rfl, rfl⟩

theorem takeMessage_segment {await' : RunAwait M} {message : M}
    (h : s.takeMessage message = (events, next, await')) :
    Segment s next events (.holding message) await' (s.fate?.map (message, ·)) := by
  unfold takeMessage at h
  cases hstate : s.state with
  | paused =>
      simp only [hstate] at h
      cases h
      simp only [fate?, hstate, Option.map_none]
      exact ⟨.refl s, List.suffix_rfl, rfl, rfl, fun n hn => hn, .inl rfl, rfl, rfl⟩
  | closed =>
      simp only [hstate] at h
      cases h
      simp only [fate?, hstate, Option.map_some]
      refine ⟨⟨rfl, rfl, rfl, rfl, rfl, rfl⟩, List.suffix_rfl, rfl, rfl, fun n hn => ?_,
        taskDone_finishes s, rfl, rfl⟩
      simp only [taskDone, hn, RunAwait.inHand, List.length_singleton, List.length_nil]
      omega
  | pending | active | error =>
      simp only [hstate] at h
      have hfate : s.fate? = some (if s.callback matches .unset then .counted else .called) := by
        cases hcallback : s.callback <;> simp [fate?, hstate, hcallback]
      rw [hfate]
      exact processMessage_segment rfl h

/-- The subscription as the error callback finds it. -/
def failed (s : SubscriptionHandle M) : SubscriptionHandle M :=
  { s with state := .error, stats.errors := s.stats.errors + 1 }

theorem handleError_cases (s : SubscriptionHandle M) :
    s.handleError = ([.assigned .error], s.failed, .errorCallback) ∨
      s.handleError = (.assigned .error :: s.failed.reconnect.1, s.failed.reconnect.2) := by
  unfold handleError
  dsimp only
  split
  · exact .inl rfl
  · exact .inr rfl
  · exact .inr rfl

theorem reconnect_idle (s : SubscriptionHandle M) :
    Idle s s.reconnect.2.1 s.reconnect.1 := by
  unfold reconnect
  split <;> exact ⟨⟨rfl, rfl, rfl, rfl, rfl, rfl⟩, rfl, rfl, rfl, rfl, rfl, rfl⟩

theorem handleError_idle (s : SubscriptionHandle M) :
    Idle s s.handleError.2.1 s.handleError.1 := by
  rcases handleError_cases s with hasync | hsync
  · rw [hasync]
    exact ⟨⟨rfl, rfl, rfl, rfl, rfl, rfl⟩, rfl, rfl, rfl, rfl, rfl, rfl⟩
  · rw [hsync]
    obtain ⟨same, queue, unfinished, finished, received, dropped, calls⟩ := reconnect_idle s.failed
    exact ⟨⟨same.webSocket, same.config, same.runs, same.task, same.readers, same.stopCall⟩,
      queue, unfinished, finished, received, dropped, calls⟩

theorem runAfterError_segment {x : List (Event M) × SubscriptionHandle M × ErrorAwait}
    {await await' : RunAwait M} (hidle : Idle s x.2.1 x.1) (hawait : await.inHand = [])
    (h : runAfterError x = (events, next, await')) : Segment s next events await await' none := by
  obtain ⟨events', next', error⟩ := x
  cases error with
  | errorCallback | backoff =>
      cases h
      exact .of_idle hidle hawait rfl
  | returned =>
      cases h
      exact .of_idle hidle hawait (inHand_runHead _)

/-- What a segment of `_run` does with the messages. -/
theorem resumeRun_segment {c : Bool} {await await' : RunAwait M} {outcome : RunOutcome}
    (h : s.resumeRun c await outcome = some (events, next, await')) :
    Segment s next events await await' (s.handledIn await outcome) := by
  have hidle {x y : RunAwait M} (hx : x.inHand = []) (hy : y.inHand = []) :
      Segment s s [] x y none :=
    .of_idle (.refl s) hx hy
  have hreturned (message : M) {y : RunAwait M} (hy : y.inHand = []) :
      Segment s s.taskDone [] (.callback message) y none := by
    have hheld : y.held = [] := held_of_inHand hy
    refine ⟨⟨rfl, rfl, rfl, rfl, rfl, rfl⟩, List.suffix_rfl, ?_, rfl, fun n hn => ?_,
      taskDone_finishes s, rfl, rfl⟩
    · rw [hheld]
      rfl
    · change s.unfinished = n + (1 + s.queue.length) at hn
      change s.unfinished - 1 = n + (y.inHand.length + s.queue.length)
      rw [hy, hn, List.length_nil]
      omega
  cases outcome with
  | elapsed =>
      cases await with
      | callback | errorCallback | done => contradiction
      | created | pausedSleep | waiting =>
          cases c with
          | true => contradiction
          | false =>
              cases h
              exact hidle rfl (inHand_runHead s)
      | holding message =>
          cases c with
          | true => contradiction
          | false => exact takeMessage_segment (Option.some_inj.1 h)
      | backoff =>
          cases c with
          | true => contradiction
          | false =>
              cases h
              exact .of_idle ⟨⟨rfl, rfl, rfl, rfl, rfl, rfl⟩, rfl, rfl, rfl, rfl, rfl, rfl⟩ rfl
                (inHand_runHead _)
  | received =>
      cases await with
      | waiting =>
          cases hqueue : s.queue with
          | nil => simp [resumeRun, hqueue] at h
          | cons message queue =>
              simp only [resumeRun, hqueue] at h
              obtain ⟨same, hsuffix, flow, calls, unfinished, finishes, dropped, received⟩ :=
                takeMessage_segment (Option.some_inj.1 h)
              have hhandled : s.handledIn .waiting .received = s.fate?.map (message, ·) := by
                simp [handledIn, hqueue]
              rw [hhandled]
              refine ⟨⟨same.webSocket, same.config, same.runs, same.task, same.readers,
                same.stopCall⟩, ?_, ?_, calls, fun n hn => unfinished n ?_, finishes, dropped, received⟩
              · rw [hqueue]
                exact hsuffix.trans (List.suffix_cons message queue)
              · rw [hqueue]
                exact flow
              · rw [hqueue] at hn
                simpa [RunAwait.inHand, Nat.add_comm] using hn
      | _ => contradiction
  | failed =>
      cases await with
      | waiting =>
          cases c with
          | true => contradiction
          | false => exact runAfterError_segment (handleError_idle s) rfl (Option.some_inj.1 h)
      | _ => contradiction
  | returned =>
      cases await with
      | callback message =>
          cases h
          exact hreturned message (inHand_runHead s)
      | errorCallback => exact runAfterError_segment (reconnect_idle s) rfl (Option.some_inj.1 h)
      | _ => contradiction
  | cancelled =>
      cases await with
      | callback message =>
          cases h
          exact hreturned message rfl
      | errorCallback =>
          cases h
          exact hidle rfl rfl
      | done => contradiction
      | holding message =>
          cases c with
          | false => contradiction
          | true =>
              cases h
              refine ⟨⟨rfl, rfl, rfl, rfl, rfl, rfl⟩, List.suffix_rfl, rfl, rfl, fun n hn => ?_,
                taskDone_finishes s, rfl, rfl⟩
              simp only [taskDone, hn, RunAwait.inHand, List.length_singleton, List.length_nil]
              omega
      | _ =>
          cases c with
          | false => contradiction
          | true =>
              cases h
              exact hidle rfl rfl

theorem readAfterError_idle {x : List (Event M) × SubscriptionHandle M × ErrorAwait}
    {await' : ReadAwait} (hidle : Idle s x.2.1 x.1)
    (h : readAfterError x = (events, next, await')) : Idle s next events := by
  obtain ⟨events', next', error⟩ := x
  cases error <;> cases h <;> exact hidle

theorem errorHead_idle {await' : ReadAwait} (h : s.errorHead = (events, next, await')) :
    Idle s next events := by
  unfold errorHead at h
  split at h
  · cases h
    exact .refl s
  · exact readAfterError_idle (handleError_idle s) h

theorem resumeOpen_idle (s : SubscriptionHandle M) (await : OpenAwait) (outcome : OpenOutcome) :
    Idle s (s.resumeOpen await outcome).2.1 (s.resumeOpen await outcome).1 := by
  cases await <;> cases outcome <;>
    exact ⟨⟨rfl, rfl, rfl, rfl, rfl, rfl⟩, rfl, rfl, rfl, rfl, rfl, rfl⟩

/-- A transport that fails goes to the error handler without an event. -/
theorem resumeOpen_raised {await : OpenAwait} {outcome : OpenOutcome} {cancelled : Bool}
    (h : s.resumeOpen await outcome = (events, next, .raised cancelled)) :
    next = s ∧ events = [] := by
  cases await <;> cases outcome <;> cases h <;> exact ⟨rfl, rfl⟩

theorem resumeTransport_idle {c : Bool} {await : OpenAwait} {await' : ReadAwait}
    {outcome : OpenOutcome}
    (h : s.resumeRead c (.transport await) (.transport outcome) = some (events, next, await')) :
    Idle s next events := by
  have hopen := resumeOpen_idle s await outcome
  simp only [resumeRead] at h
  split at h
  · contradiction
  · cases hresult : s.resumeOpen await outcome with
    | mk events' rest =>
        obtain ⟨opened, result⟩ := rest
        rw [hresult] at h hopen
        cases result with
        | awaits await | succeeded =>
            cases h
            exact hopen
        | raised cancelled =>
            obtain ⟨rfl, rfl⟩ := resumeOpen_raised hresult
            cases cancelled with
            | true =>
                cases h
                exact .refl _
            | false => exact errorHead_idle (Option.some_inj.1 h)

/-- What a segment of `_receive` does with the messages. -/
theorem resumeRead_idle {c : Bool} {await await' : ReadAwait} {outcome : ReadOutcome M}
    (h : s.resumeRead c await outcome = some (events, next, await')) :
    (∃ message last, outcome = .notified message last ∧ next = s.send message ∧ events = []) ∨
      Idle s next events ∧ ∀ message last, outcome ≠ .notified message last := by
  have hclosing : Idle s { s with connected := false } [] :=
    ⟨⟨rfl, rfl, rfl, rfl, rfl, rfl⟩, rfl, rfl, rfl, rfl, rfl, rfl⟩
  cases outcome with
  | notified message last =>
      left
      cases await with
      | receiving =>
          cases c with
          | true => contradiction
          | false =>
              cases h
              exact ⟨message, last, rfl, rfl, rfl⟩
      | _ => contradiction
  | elapsed =>
      refine .inr ⟨?_, by simp⟩
      cases await with
      | created | backoff =>
          cases c with
          | true => contradiction
          | false =>
              cases h
              exact ⟨⟨rfl, rfl, rfl, rfl, rfl, rfl⟩, rfl, rfl, rfl, rfl, rfl, rfl⟩
      | _ => contradiction
  | skipped =>
      refine .inr ⟨?_, by simp⟩
      cases await with
      | receiving =>
          cases c with
          | true => contradiction
          | false =>
              cases h
              exact .refl s
      | _ => contradiction
  | ended =>
      refine .inr ⟨?_, by simp⟩
      cases await with
      | receiving =>
          cases c with
          | true => contradiction
          | false =>
              change (if s.state = .closed then _ else _) = _ at h
              split at h
              · cases h
                exact .refl s
              · cases h
                exact hclosing
      | _ => contradiction
  | failed =>
      refine .inr ⟨?_, by simp⟩
      cases await with
      | receiving | closing =>
          cases c with
          | true => contradiction
          | false =>
              cases h
              exact ⟨⟨rfl, rfl, rfl, rfl, rfl, rfl⟩, rfl, rfl, rfl, rfl, rfl, rfl⟩
      | _ => contradiction
  | returned =>
      refine .inr ⟨?_, by simp⟩
      cases await with
      | joining =>
          simp only [resumeRead] at h
          split at h
          · contradiction
          · cases h
            exact .refl s
      | stopped =>
          cases h
          exact .refl s
      | closing =>
          cases c with
          | true => contradiction
          | false => exact errorHead_idle (Option.some_inj.1 h)
      | errorCallback => exact readAfterError_idle (reconnect_idle s) (Option.some_inj.1 h)
      | _ => contradiction
  | transport outcome =>
      refine .inr ⟨?_, by simp⟩
      cases await with
      | transport await => exact resumeTransport_idle h
      | _ => contradiction
  | cancelled =>
      refine .inr ⟨?_, by simp⟩
      cases await with
      | errorCallback =>
          cases h
          exact .refl s
      | transport | stopped | done | died => contradiction
      | _ =>
          cases c with
          | false => contradiction
          | true =>
              cases h
              exact .refl s

/-! ### Steps -/

structure SameMessages (s next : SubscriptionHandle M) : Prop where
  webSocket : next.webSocket = s.webSocket
  config : next.config = s.config
  awaits : next.awaits = s.awaits
  queue : next.queue = s.queue
  unfinished : next.unfinished = s.unfinished
  finished : next.finished = s.finished
  stats : next.stats.messagesReceived = s.stats.messagesReceived ∧
    next.stats.messagesDropped = s.stats.messagesDropped

theorem Idle.sameMessages (h : Idle s next events) : SameMessages s next :=
  ⟨h.same.webSocket, h.same.config, by rw [awaits, h.same.runs, awaits], h.queue, h.unfinished,
    h.finished, h.received, h.dropped⟩

/-- What a step does with the messages that is not one of `_run`: it puts one into the queue or
drops it, and may create a task. -/
structure Feeds (s next : SubscriptionHandle M) (events : List (Event M))
    (accepted dropped : Option M) : Prop where
  webSocket : next.webSocket = s.webSocket
  config : next.config = s.config
  awaits : next.awaits = s.awaits ∨ next.awaits = s.awaits ++ [.created]
  queue : next.queue = s.queue ++ accepted.toList
  unfinished : next.unfinished = s.unfinished + accepted.toList.length
  finished : next.finished = s.finished
  received : next.stats.messagesReceived = s.stats.messagesReceived
  dropped : next.stats.messagesDropped = s.stats.messagesDropped + dropped.toList.length
  calls : events.filterMap Event.call? = []

theorem SameMessages.feeds (h : SameMessages s next) (hcalls : events.filterMap Event.call? = []) :
    Feeds s next events none none :=
  ⟨h.webSocket, h.config, .inl h.awaits, by rw [h.queue]; exact (List.append_nil _).symm,
    h.unfinished, h.finished, h.stats.1, h.stats.2, hcalls⟩

theorem Idle.feeds (h : Idle s next events) : Feeds s next events none none :=
  h.sameMessages.feeds h.calls

theorem Feeds.trans_same {accepted dropped : Option M} {last : SubscriptionHandle M}
    (h : Feeds s next events accepted dropped) (hsame : SameMessages next last) :
    Feeds s last events accepted dropped :=
  ⟨hsame.webSocket.trans h.webSocket, hsame.config.trans h.config,
    by rw [hsame.awaits]; exact h.awaits, hsame.queue.trans h.queue,
    hsame.unfinished.trans h.unfinished, hsame.finished.trans h.finished,
    hsame.stats.1.trans h.received, hsame.stats.2.trans h.dropped, h.calls⟩

theorem SameMessages.trans_feeds {accepted dropped : Option M} {last : SubscriptionHandle M}
    (hsame : SameMessages s next) (h : Feeds next last events accepted dropped) :
    Feeds s last events accepted dropped := by
  obtain ⟨webSocket, config, awaits, queue, unfinished, finished, received, dropped⟩ := hsame
  obtain ⟨webSocket', config', awaits', queue', unfinished', finished', received', dropped',
    calls⟩ := h
  simp only [webSocket, config, awaits, queue, unfinished, finished, received, dropped] at *
  exact ⟨webSocket', config', awaits', queue', unfinished', finished', received', dropped', calls⟩

theorem awaits_cancelRun (s : SubscriptionHandle M) (t : ℕ) :
    (s.cancelRun t).awaits = s.awaits := by
  apply List.ext_getElem?
  intro i
  have hcancel (task : Task (RunAwait M)) : (task.cancel RunAwait.isDone).await = task.await := by
    unfold Task.cancel
    split <;> rfl
  simp only [awaits, cancelRun, List.getElem?_map, List.getElem?_modify]
  cases s.runs[i]? with
  | none => rfl
  | some task => by_cases hi : t = i <;> simp [hi, hcancel]

theorem send_feeds (s : SubscriptionHandle M) (message : M) :
    Feeds s (s.send message) [] (if s.accepts then some message else none)
      (if s.state = .closed ∨ s.accepts then none else some message) := by
  unfold send
  split
  · rename_i hclosed
    rw [if_neg (by simp [accepts, hclosed]), if_pos (.inl hclosed)]
    exact (Idle.refl s).feeds
  · rename_i hopen
    split
    · rename_i hroom
      have haccepts : s.accepts = true := by simp [accepts, hopen, hroom]
      rw [if_pos haccepts, if_pos (.inr haccepts)]
      exact ⟨rfl, rfl, .inl rfl, rfl, rfl, rfl, rfl, rfl, rfl⟩
    · rename_i hfull
      have haccepts : s.accepts = false := by simp [accepts, hfull]
      rw [if_neg (by simp [haccepts]), if_neg (by simp [haccepts, hopen])]
      exact ⟨rfl, rfl, .inl rfl, (List.append_nil _).symm, rfl, rfl, rfl, rfl, rfl⟩

theorem start_feeds (s : SubscriptionHandle M) : Feeds s s.start.2 s.start.1 none none := by
  unfold start
  split
  · exact (Idle.refl s).feeds
  · split
    · exact ⟨rfl, rfl, .inl rfl, (List.append_nil _).symm, rfl, rfl, rfl, rfl, rfl⟩
    · exact ⟨rfl, rfl, .inr (by simp [awaits]), (List.append_nil _).symm, rfl, rfl, rfl, rfl, rfl⟩

theorem enterStop_same (s : SubscriptionHandle M) (caller : Option TaskRef) :
    SameMessages s (s.enterStop caller) := by
  unfold enterStop
  split <;> exact ⟨rfl, rfl, rfl, rfl, rfl, rfl, rfl, rfl⟩

theorem stop_feeds (s : SubscriptionHandle M) (caller : Option TaskRef) :
    Feeds s (s.stop caller).2 (s.stop caller).1 none none := by
  unfold stop
  split
  · refine (enterStop_same s caller).trans_feeds ?_
    unfold stopWebSocket
    dsimp only
    split
    · exact ⟨rfl, rfl, .inl rfl, (List.append_nil _).symm, rfl, rfl, rfl, rfl, rfl⟩
    · split <;> exact ⟨rfl, rfl, .inl rfl, (List.append_nil _).symm, rfl, rfl, rfl, rfl, rfl⟩
  · refine (enterStop_same s caller).trans_feeds ?_
    unfold stopHandle
    dsimp only
    split
    · exact (Idle.refl _).feeds
    · split
      · exact ⟨rfl, rfl, .inl rfl, (List.append_nil _).symm, rfl, rfl, rfl, rfl, rfl⟩
      · split
        · exact ⟨rfl, rfl, .inl rfl, (List.append_nil _).symm, rfl, rfl, rfl, rfl, rfl⟩
        · exact ⟨rfl, rfl, .inl (awaits_cancelRun _ _), (List.append_nil _).symm, rfl, rfl, rfl,
            rfl, rfl⟩

theorem continueStop_same {call : StopCall} (h : s.continueStop call = some next) :
    SameMessages s next := by
  unfold continueStop at h
  split at h
  · split at h
    · cases h
      exact ⟨rfl, rfl, rfl, rfl, rfl, rfl, rfl, rfl⟩
    · split at h
      · dsimp only at h
        split at h
        · cases h
          exact ⟨rfl, rfl, rfl, rfl, rfl, rfl, rfl, rfl⟩
        · cases h
          split
          · exact ⟨rfl, rfl, rfl, rfl, rfl, rfl, rfl, rfl⟩
          · exact ⟨rfl, rfl, awaits_cancelRun _ _, rfl, rfl, rfl, rfl, rfl⟩
      · contradiction
  · split at h
    · split at h <;> cases h <;> exact ⟨rfl, rfl, rfl, rfl, rfl, rfl, rfl, rfl⟩
    · contradiction
  · cases h
    exact ⟨rfl, rfl, rfl, rfl, rfl, rfl, rfl, rfl⟩

theorem finishConnect_feeds (s : SubscriptionHandle M) :
    Feeds s s.finishConnect.2 s.finishConnect.1 none none := by
  unfold finishConnect
  have hsame : SameMessages s { s with connecting := none } :=
    ⟨rfl, rfl, rfl, rfl, rfl, rfl, rfl, rfl⟩
  refine hsame.trans_feeds ?_
  dsimp only
  split
  · exact (Idle.refl _).feeds
  · exact (start_feeds _).trans_same ⟨rfl, rfl, rfl, rfl, rfl, rfl, rfl, rfl⟩

theorem continueConnect_feeds (s : SubscriptionHandle M) (await : OpenAwait)
    (outcome : OpenOutcome) :
    Feeds s (s.continueConnect await outcome).2 (s.continueConnect await outcome).1 none none := by
  have hopen := resumeOpen_idle s await outcome
  unfold continueConnect
  cases hresult : s.resumeOpen await outcome with
  | mk events rest =>
      obtain ⟨opened, result⟩ := rest
      rw [hresult] at hopen
      cases result with
      | awaits _ | raised _ => exact hopen.feeds.trans_same ⟨rfl, rfl, rfl, rfl, rfl, rfl, rfl, rfl⟩
      | succeeded => exact hopen.sameMessages.trans_feeds (finishConnect_feeds opened)

theorem stepReader_feeds {r : ℕ} {outcome : ReadOutcome M}
    (h : s.stepReader r outcome = some (events, next)) :
    Feeds s next events (s.acceptedBy (.reader r outcome)) (s.droppedBy (.reader r outcome)) := by
  have hsome : (s.stepReader r outcome).isSome := by rw [h]; rfl
  unfold stepReader at h
  obtain ⟨task, -, h⟩ := Option.bind_eq_some_iff.1 h
  obtain ⟨⟨events', next', await'⟩, hresume, h⟩ := Option.bind_eq_some_iff.1 h
  dsimp only at h
  split at h
  · cases h
    rcases resumeRead_idle hresume with ⟨message, last, rfl, rfl, rfl⟩ | ⟨hidle, hnotified⟩
    · have hoffered : s.offered (.reader r (.notified message last)) = some message := if_pos hsome
      rw [acceptedBy, droppedBy, hoffered]
      exact (send_feeds s message).trans_same ⟨rfl, rfl, rfl, rfl, rfl, rfl, rfl, rfl⟩
    · have hoffered : s.offered (.reader r outcome) = none := by
        cases outcome with
        | notified message last => exact absurd rfl (hnotified message last)
        | _ => rfl
      rw [acceptedBy, droppedBy, hoffered, ite_self, ite_self]
      exact hidle.feeds.trans_same ⟨rfl, rfl, rfl, rfl, rfl, rfl, rfl, rfl⟩
  · contradiction

/-- What a step does with the messages that is not one of `_run`. -/
theorem enabledStep_feeds (h : s.enabledStep a = some (events, next))
    (ha : ∀ t outcome, a ≠ .run t outcome) :
    Feeds s next events (s.acceptedBy a) (s.droppedBy a) := by
  have hnone (hoffered : s.offered a = none) (hfeeds : Feeds s next events none none) :
      Feeds s next events (s.acceptedBy a) (s.droppedBy a) := by
    rwa [acceptedBy, droppedBy, hoffered, ite_self, ite_self]
  cases a with
  | onMessage callback | onError callback =>
      cases h
      exact hnone rfl ⟨rfl, rfl, .inl rfl, (List.append_nil _).symm, rfl, rfl, rfl, rfl, rfl⟩
  | start =>
      simp only [enabledStep] at h
      split at h
      · contradiction
      · have hfeeds := start_feeds s
        rw [Option.some_inj.1 h] at hfeeds
        exact hnone rfl hfeeds
  | pause =>
      simp only [enabledStep, pause] at h
      split at h
      · contradiction
      · split at h <;> cases h <;>
          exact hnone rfl ⟨rfl, rfl, .inl rfl, (List.append_nil _).symm, rfl, rfl, rfl, rfl, rfl⟩
  | resume =>
      simp only [enabledStep, resume] at h
      split at h
      · contradiction
      · split at h <;> cases h <;>
          exact hnone rfl ⟨rfl, rfl, .inl rfl, (List.append_nil _).symm, rfl, rfl, rfl, rfl, rfl⟩
  | send message =>
      cases h
      exact send_feeds s message
  | stop caller =>
      simp only [enabledStep] at h
      split at h
      · contradiction
      · have hfeeds := stop_feeds s caller
        rw [Option.some_inj.1 h] at hfeeds
        exact hnone rfl hfeeds
  | continueStop =>
      simp only [enabledStep] at h
      obtain ⟨call, -, h⟩ := Option.bind_eq_some_iff.1 h
      obtain ⟨next', hnext, h⟩ := Option.map_eq_some_iff.1 h
      cases h
      exact hnone rfl ((continueStop_same hnext).feeds rfl)
  | connect =>
      simp only [enabledStep, connect] at h
      split at h
      · contradiction
      · split at h <;> cases h <;>
          exact hnone rfl ⟨rfl, rfl, .inl rfl, (List.append_nil _).symm, rfl, rfl, rfl, rfl, rfl⟩
  | continueConnect outcome =>
      simp only [enabledStep] at h
      obtain ⟨await, -, h⟩ := Option.map_eq_some_iff.1 h
      have hfeeds := continueConnect_feeds s await outcome
      rw [h] at hfeeds
      exact hnone rfl hfeeds
  | run t outcome => exact absurd rfl (ha t outcome)
  | reader r outcome => exact stepReader_feeds h

/-- What a step of `_run` does with the messages. -/
theorem stepRun_segment {t : ℕ} {outcome : RunOutcome}
    (h : s.stepRun t outcome = some (events, next)) : ∃ await await' mid,
      s.awaits[t]? = some await ∧ await.isDone = false ∧
        s.handledBy (.run t outcome) = s.handledIn await outcome ∧
        Segment s mid events await await' (s.handledIn await outcome) ∧
        next = { mid with runs := mid.runs.set t ⟨await', false⟩ } := by
  have hsome : (s.stepRun t outcome).isSome := by rw [h]; rfl
  unfold stepRun at h
  obtain ⟨task, htask, h⟩ := Option.bind_eq_some_iff.1 h
  obtain ⟨⟨events', mid, await'⟩, hresume, h⟩ := Option.bind_eq_some_iff.1 h
  dsimp only at h
  split at h
  · cases h
    refine ⟨task.await, await', mid, ?_, ?_, ?_, resumeRun_segment hresume, rfl⟩
    · rw [awaits, List.getElem?_map, htask]
      rfl
    · cases hawait : task.await with
      | done =>
          rw [hawait] at hresume
          cases outcome <;> contradiction
      | _ => rfl
    · rw [handledBy, if_pos hsome, htask]
      rfl
  · contradiction

theorem Segment.awaits_set {await await' : RunAwait M} {handled : Option (M × Fate)} {t : ℕ}
    (h : Segment s next events await await' handled) :
    ({ next with runs := next.runs.set t ⟨await', false⟩ } : SubscriptionHandle M).awaits =
      s.awaits.set t await' := by
  simp only [awaits, h.same.runs, List.map_set]

/-- Replacing an element exchanges what it contributes. -/
theorem flatMap_set_perm {A B : Type} {f : A → List B} {xs : List A} {t : ℕ} {x y : A}
    (h : xs[t]? = some x) : (f x ++ (xs.set t y).flatMap f).Perm (f y ++ xs.flatMap f) := by
  induction xs generalizing t with
  | nil => cases h
  | cons z xs ih =>
      cases t with
      | zero =>
          cases h
          simp only [List.set_cons_zero, List.flatMap_cons]
          exact List.perm_append_comm_assoc _ _ _
      | succ t =>
          simp only [List.set_cons_succ, List.flatMap_cons]
          refine (List.perm_append_comm_assoc _ _ _).trans ?_
          exact ((ih h).append_left _).trans (List.perm_append_comm_assoc _ _ _)

theorem offered_of_disabled (h : s.enabledStep a = none) : s.offered a = none := by
  cases a with
  | send message => contradiction
  | reader r outcome =>
      have hstep : s.stepReader r outcome = none := h
      cases outcome with
      | notified message last => rw [offered, hstep]; rfl
      | _ => rfl
  | _ => rfl

theorem handledBy_of_disabled (h : s.enabledStep a = none) : s.handledBy a = none := by
  cases a with
  | run t outcome =>
      have hstep : s.stepRun t outcome = none := h
      rw [handledBy, hstep]
      rfl
  | _ => rfl

/-- A step feeds the queue, or it is a segment of `_run`. -/
theorem step_cases (s : SubscriptionHandle M) (a : Action M) :
    s.handledBy a = none ∧
        Feeds s (s.step a).2 (s.step a).1 (s.acceptedBy a) (s.droppedBy a) ∨
      s.acceptedBy a = none ∧ s.droppedBy a = none ∧
        ∃ t await await' mid, s.awaits[t]? = some await ∧ await.isDone = false ∧
          Segment s mid (s.step a).1 await await' (s.handledBy a) ∧
          (s.step a).2 = { mid with runs := mid.runs.set t ⟨await', false⟩ } := by
  have hnone (h : s.offered a = none) : s.acceptedBy a = none ∧ s.droppedBy a = none := by
    rw [acceptedBy, droppedBy, h, ite_self, ite_self]
    exact ⟨rfl, rfl⟩
  cases hstep : s.enabledStep a with
  | none =>
      left
      obtain ⟨haccepted, hdropped⟩ := hnone (offered_of_disabled hstep)
      rw [step, hstep, haccepted, hdropped]
      exact ⟨handledBy_of_disabled hstep, (Idle.refl s).feeds⟩
  | some result =>
      obtain ⟨events, next⟩ := result
      rw [step, hstep]
      cases a with
      | run t outcome =>
          obtain ⟨await, await', mid, hawait, hdone, hhandled, hsegment, rfl⟩ :=
            stepRun_segment hstep
          rw [hhandled]
          exact .inr ⟨(hnone rfl).1, (hnone rfl).2, t, await, await', mid, hawait, hdone, hsegment,
            rfl⟩
      | _ => exact .inl ⟨rfl, enabledStep_feeds hstep (by simp)⟩

/-! ### The account of the messages -/

theorem pending_of_feeds {accepted dropped : Option M}
    (h : Feeds s next events accepted dropped) : next.pending = s.pending ++ accepted.toList := by
  rw [pending, pending, h.queue, List.append_assoc]
  rcases h.awaits with hawaits | hawaits <;> simp [hawaits, RunAwait.held]

/-- A step moves the messages on. -/
theorem step_flow (s : SubscriptionHandle M) (a : Action M) :
    ((s.handledBy a).toList.map Prod.fst ++ (s.step a).2.pending).Perm
      (s.pending ++ (s.acceptedBy a).toList) := by
  rcases step_cases s a with ⟨hhandled, hfeeds⟩ | ⟨haccepted, -, t, await, await', mid, hawait, -,
    hsegment, hnext⟩
  · rw [hhandled, pending_of_feeds hfeeds]
    rfl
  · rw [haccepted, hnext, pending, hsegment.awaits_set, pending, Option.toList_none,
      List.append_nil]
    have hset := Multiset.coe_eq_coe.2
      (flatMap_set_perm (f := RunAwait.held) (y := await') hawait)
    have hflow := congrArg (fun l : List M => (l : Multiset M)) hsegment.flow
    simp only [← Multiset.coe_add, ← Multiset.coe_eq_coe] at hset hflow ⊢
    apply add_left_cancel (a := (await.held : Multiset M))
    calc _ = ((s.handledBy a).toList.map Prod.fst + mid.queue : Multiset M) +
          (await.held + (s.awaits.set t await').flatMap RunAwait.held) := by abel
      _ = ((s.handledBy a).toList.map Prod.fst + (await'.held + mid.queue) : Multiset M) +
          s.awaits.flatMap RunAwait.held := by rw [hset]; abel
      _ = _ := by rw [hflow]; abel

/-- Every message that is in the queue or in hand is unfinished. -/
def Counted (s : SubscriptionHandle M) : Prop :=
  s.unfinished = s.inHand.length + s.queue.length ∧ s.queue.length ≤ s.config.bufferSize

theorem step_counted (h : s.Counted) (a : Action M) : (s.step a).2.Counted := by
  obtain ⟨hunfinished, hbuffer⟩ := h
  rcases step_cases s a with ⟨-, hfeeds⟩ | ⟨-, -, t, await, await', mid, hawait, -, hsegment, hnext⟩
  · have hinHand : (s.step a).2.inHand = s.inHand := by
      rw [inHand, inHand]
      rcases hfeeds.awaits with hawaits | hawaits <;> simp [hawaits, RunAwait.inHand]
    refine ⟨?_, ?_⟩
    · rw [hfeeds.unfinished, hinHand, hfeeds.queue, hunfinished, List.length_append]
      omega
    · rw [hfeeds.queue, hfeeds.config, List.length_append, acceptedBy]
      split
      · rename_i haccepts
        have hroom : s.queue.length < s.config.bufferSize := by simp_all [accepts]
        cases s.offered a <;> simp <;> omega
      · exact hbuffer
  · have hset := (flatMap_set_perm (f := RunAwait.inHand) (y := await') hawait).length_eq
    simp only [List.length_append] at hset
    have hshare : await.inHand.length ≤ s.inHand.length := by
      have hdone := (flatMap_set_perm (f := RunAwait.inHand) (y := .done) hawait).length_eq
      simp only [List.length_append, RunAwait.inHand, List.length_nil, Nat.zero_add] at hdone
      rw [inHand]
      exact Nat.le.intro hdone
    have hmid := hsegment.unfinished (s.inHand.length - await.inHand.length) (by omega)
    refine ⟨?_, ?_⟩
    · rw [hnext, inHand, hsegment.awaits_set]
      change mid.unfinished = _ + mid.queue.length
      change _ + _ = _ + s.inHand.length at hset
      omega
    · rw [hnext]
      change mid.queue.length ≤ mid.config.bufferSize
      rw [hsegment.same.config]
      exact hsegment.queue.length_le.trans hbuffer

theorem step_calls (s : SubscriptionHandle M) (a : Action M) :
    (s.step a).1.filterMap Event.call? = called (s.handledBy a).toList := by
  rcases step_cases s a with ⟨hhandled, hfeeds⟩ | ⟨-, -, t, await, await', mid, -, -, hsegment, -⟩
  · rw [hhandled]
    exact hfeeds.calls
  · exact hsegment.calls

theorem step_received (s : SubscriptionHandle M) (a : Action M) :
    (s.step a).2.stats.messagesReceived =
      s.stats.messagesReceived + (s.handledBy a).toList.countP (·.2 ≠ .abandoned) := by
  rcases step_cases s a with ⟨hhandled, hfeeds⟩ | ⟨-, -, t, await, await', mid, -, -, hsegment,
    hnext⟩
  · rw [hhandled]
    exact hfeeds.received
  · rw [hnext]
    exact hsegment.received

theorem step_dropped (s : SubscriptionHandle M) (a : Action M) :
    (s.step a).2.stats.messagesDropped =
      s.stats.messagesDropped + (s.droppedBy a).toList.countP fun _ => true := by
  rw [List.countP_true]
  rcases step_cases s a with ⟨-, hfeeds⟩ | ⟨-, hdropped, t, await, await', mid, -, -, hsegment,
    hnext⟩
  · exact hfeeds.dropped
  · rw [hnext, hdropped]
    exact hsegment.dropped

section Runs

variable (webSocket : Bool) (config : SubscriptionConfig) (actions : List (Action M))

/-- What the steps of a run show of themselves, in their order. -/
def during {B : Type} (emits : SubscriptionHandle M → Action M → List B) : List B :=
  Runs.emitted (fun s a => (step s a).2) emits (init webSocket config) actions

/-- The messages that a run has put into the queue. -/
def accepted : List M := during webSocket config actions fun s a => (s.acceptedBy a).toList

/-- The messages that a run has dropped. -/
def dropped : List M := during webSocket config actions fun s a => (s.droppedBy a).toList

/-- The messages that a run has handled, each with its fate. -/
def handled : List (M × Fate) := during webSocket config actions fun s a => (s.handledBy a).toList

/-- The messages that the callback has been called with. -/
def calls : List M :=
  during webSocket config actions fun s a => (s.step a).1.filterMap Event.call?

variable {webSocket config actions}

theorem handled_map_fst :
    (during webSocket config actions fun s a => (s.handledBy a).toList.map Prod.fst) =
      (handled webSocket config actions).map Prod.fst :=
  Runs.emitted_translate (I := fun _ => True) trivial (fun _ _ h => h) rfl
    (fun _ _ => List.map_append) fun _ _ _ => rfl

theorem after_counted : (after webSocket config actions).Counted :=
  Runs.run_invariant (fun _ a h => step_counted h a) ⟨rfl, Nat.zero_le _⟩

theorem accepted_perm : ((handled webSocket config actions).map Prod.fst ++
    (after webSocket config actions).pending).Perm (accepted webSocket config actions) := by
  rw [← handled_map_fst]
  exact Runs.emitted_flow_perm (I := fun _ => True) trivial (fun _ _ h => h)
    fun s a _ => step_flow s a

theorem calls_eq : calls webSocket config actions = called (handled webSocket config actions) :=
  Runs.emitted_translate (I := fun _ => True) trivial (fun _ _ h => h) rfl
    (fun x y => by simp [called]) fun s a _ => step_calls s a

/-- Every accepted message is handled once or is still pending; the callback has been called with
those that are handled that way, in that order; and the counters count them. -/
theorem messages_accounted :
    ((handled webSocket config actions).map Prod.fst ++
        (after webSocket config actions).pending).Perm (accepted webSocket config actions) ∧
      calls webSocket config actions = called (handled webSocket config actions) ∧
      (after webSocket config actions).stats.messagesReceived =
        (handled webSocket config actions).countP (·.2 ≠ .abandoned) ∧
      (after webSocket config actions).stats.messagesDropped =
        (dropped webSocket config actions).length ∧
      (after webSocket config actions).Counted := by
  refine ⟨accepted_perm, calls_eq, ?_, ?_, after_counted⟩
  · refine (Runs.count_emitted (fun s : SubscriptionHandle M => s.stats.messagesReceived)
      (I := fun _ => True) trivial (fun _ _ h => h) fun s a _ => step_received s a).trans ?_
    exact Nat.zero_add _
  · refine (Runs.count_emitted (fun s : SubscriptionHandle M => s.stats.messagesDropped)
      (I := fun _ => True) trivial (fun _ _ h => h) fun s a _ => step_dropped s a).trans ?_
    rw [List.countP_true]
    exact Nat.zero_add _

end Runs

/-! ### The order of a plain subscription -/

/-- A plain subscription has one processing task at a time. -/
structure SingleRun (s : SubscriptionHandle M) : Prop where
  plain : s.webSocket = false
  live : ∀ t await, s.awaits[t]? = some await → await.isDone = false → s.task = some t
  stopCall : ∀ call ∈ s.stopCall, ∀ t, call.caller ≠ some (.run t)

namespace SingleRun

theorem of_same (h : s.SingleRun) (hsame : SameMessages s next) (htask : next.task = s.task)
    (hstop : next.stopCall = s.stopCall) : next.SingleRun where
  plain := hsame.webSocket.trans h.plain
  live := by
    rw [hsame.awaits, htask]
    exact h.live
  stopCall := by
    rw [hstop]
    exact h.stopCall

theorem of_idle (h : s.SingleRun) (hidle : Idle s next events) : next.SingleRun :=
  h.of_same hidle.sameMessages hidle.same.task hidle.same.stopCall

theorem runDone_eq {t : ℕ} {await : RunAwait M} (h : s.awaits[t]? = some await) :
    s.runDone t = await.isDone := by
  rw [awaits, List.getElem?_map, Option.map_eq_some_iff] at h
  obtain ⟨task, hrun, rfl⟩ := h
  rw [runDone, hrun]
  rfl

theorem start (h : s.SingleRun) : s.start.2.SingleRun := by
  unfold SubscriptionHandle.start
  split
  · exact h
  · split
    · exact h.of_same ⟨rfl, rfl, rfl, rfl, rfl, rfl, rfl, rfl⟩ rfl rfl
    · rename_i hnone
      refine ⟨h.plain, fun t await hawait hlive => ?_, h.stopCall⟩
      have hawaits : await ∈ (s.awaits ++ [.created])[t]? := by simpa [awaits] using hawait
      rcases Nat.lt_or_ge t s.awaits.length with hlt | hge
      · -- an old task that is alive would have been kept
        rw [List.getElem?_append_left hlt] at hawaits
        have htask := h.live t await hawaits hlive
        exact absurd (by simp [htask, runDone_eq hawaits, hlive]) hnone
      · rw [List.getElem?_append_right hge] at hawaits
        have ht : t - s.awaits.length = 0 := by
          by_contra hne
          obtain ⟨n, hn⟩ := Nat.exists_eq_succ_of_ne_zero hne
          rw [hn] at hawaits
          cases hawaits
        simp only [awaits, List.length_map] at ht hge
        exact congrArg some (by omega)

/-- A processing task that may call `stop` is alive. -/
theorem caller_live {t : ℕ} (hmay : s.mayStop (some (.run t)) = true) :
    ∃ await, s.awaits[t]? = some await ∧ await.isDone = false := by
  simp only [mayStop] at hmay
  split at hmay
  · rename_i message c hrun
    exact ⟨.callback message, by rw [awaits, List.getElem?_map, hrun]; rfl, rfl⟩
  · rename_i c hrun
    exact ⟨.errorCallback, by rw [awaits, List.getElem?_map, hrun]; rfl, rfl⟩
  · contradiction

theorem stop (h : s.SingleRun) {caller : Option TaskRef} (hmay : s.mayStop caller = true) :
    (s.stop caller).2.SingleRun := by
  have henter : (s.enterStop caller).SingleRun := by
    refine h.of_same (enterStop_same s caller) ?_ ?_ <;> unfold enterStop <;> split <;> rfl
  have hstop : s.stop caller = (s.enterStop caller).stopHandle caller := if_neg (by simp [h.plain])
  rw [hstop]
  unfold stopHandle
  dsimp only
  split
  · exact henter
  · split
    · exact henter.of_same ⟨rfl, rfl, rfl, rfl, rfl, rfl, rfl, rfl⟩ rfl rfl
    · rename_i t htask
      split
      · exact henter.of_same ⟨rfl, rfl, rfl, rfl, rfl, rfl, rfl, rfl⟩ rfl rfl
      · rename_i hcaller
        refine ⟨henter.plain, fun i await hawait hlive => ?_, fun call hcall i hi => ?_⟩
        · exact henter.live i await ((awaits_cancelRun _ t) ▸ hawait) hlive
        · -- a task that calls `stop` is alive, so it is the one that is waited for
          cases hcall
          subst hi
          obtain ⟨await, hawait, hlive⟩ := caller_live hmay
          have hentered := (enterStop_same s (some (.run i))).awaits
          have hi := henter.live i await (by rw [hentered]; exact hawait) hlive
          rw [htask] at hi
          exact hcaller (by rw [Option.some_inj.1 hi])

theorem continueStop (h : s.SingleRun) {call : StopCall} (hcall : s.stopCall = some call)
    (hnext : s.continueStop call = some next) : next.SingleRun := by
  have hsame := continueStop_same hnext
  have hcaller : ∀ t, call.caller ≠ some (.run t) := h.stopCall call hcall
  have hend {last : SubscriptionHandle M} (hlast : SameMessages s last) (htask : last.task = s.task)
      (hstop : ∀ call' ∈ last.stopCall, call'.caller = call.caller) : last.SingleRun := by
    refine ⟨hlast.webSocket.trans h.plain, ?_, fun call' hcall' => ?_⟩
    · rw [hlast.awaits, htask]
      exact h.live
    · rw [hstop call' hcall']
      exact hcaller
  unfold SubscriptionHandle.continueStop at hnext
  split at hnext
  · split at hnext
    · cases hnext
      exact hend hsame rfl (by simp)
    · split at hnext
      · dsimp only at hnext
        split at hnext
        · cases hnext
          exact hend hsame rfl (by simp)
        · cases hnext
          refine hend hsame ?_ ?_ <;> split <;> simp [cancelRun]
      · contradiction
  · split at hnext
    · rename_i hdone
      rw [if_neg (by simp [h.plain])] at hnext
      cases hnext
      refine ⟨h.plain, fun t await hawait hlive => ?_, by simp⟩
      -- the task that is waited for is done
      have hawait : s.awaits[t]? = some await := hawait
      have htask := h.live t await hawait hlive
      have hrun : s.runDone t = true := by simpa [htask, hcaller] using hdone
      rw [runDone_eq hawait, hlive] at hrun
      contradiction
    · contradiction
  · cases hnext
    exact hend hsame rfl (by simp)

theorem continueConnect (h : s.SingleRun) (await : OpenAwait) (outcome : OpenOutcome) :
    (s.continueConnect await outcome).2.SingleRun := by
  have hopen := resumeOpen_idle s await outcome
  unfold SubscriptionHandle.continueConnect
  cases hresult : s.resumeOpen await outcome with
  | mk events rest =>
      obtain ⟨opened, result⟩ := rest
      rw [hresult] at hopen
      have hopened : opened.SingleRun := h.of_idle hopen
      cases result with
      | awaits _ | raised _ =>
          exact hopened.of_same ⟨rfl, rfl, rfl, rfl, rfl, rfl, rfl, rfl⟩ rfl rfl
      | succeeded =>
          have hready : ({ opened with connecting := none } : SubscriptionHandle M).SingleRun :=
            hopened.of_same ⟨rfl, rfl, rfl, rfl, rfl, rfl, rfl, rfl⟩ rfl rfl
          change (finishConnect opened).2.SingleRun
          unfold finishConnect
          dsimp only
          split
          · exact hready
          · exact hready.start.of_same ⟨rfl, rfl, rfl, rfl, rfl, rfl, rfl, rfl⟩ rfl rfl

theorem stepRun (h : s.SingleRun) {t : ℕ} {outcome : RunOutcome}
    (hstep : s.stepRun t outcome = some (events, next)) : next.SingleRun := by
  obtain ⟨await, await', mid, hawait, hlive, -, hsegment, rfl⟩ := stepRun_segment hstep
  refine ⟨hsegment.same.webSocket.trans h.plain, fun i other hother hdone => ?_, ?_⟩
  · rw [hsegment.awaits_set] at hother
    change mid.task = some i
    rw [hsegment.same.task]
    rcases eq_or_ne i t with rfl | hi
    · exact h.live i await hawait hlive
    · rw [List.getElem?_set_ne hi.symm] at hother
      exact h.live i other hother hdone
  · change ∀ call ∈ mid.stopCall, _
    rw [hsegment.same.stopCall]
    exact h.stopCall

theorem send (h : s.SingleRun) (message : M) : (s.send message).SingleRun := by
  unfold SubscriptionHandle.send
  split
  · exact h
  · split
    · exact ⟨h.plain, h.live, h.stopCall⟩
    · exact ⟨h.plain, h.live, h.stopCall⟩

theorem stepReader (h : s.SingleRun) {r : ℕ} {outcome : ReadOutcome M}
    (hstep : s.stepReader r outcome = some (events, next)) : next.SingleRun := by
  unfold SubscriptionHandle.stepReader at hstep
  obtain ⟨task, -, hstep⟩ := Option.bind_eq_some_iff.1 hstep
  obtain ⟨⟨events', mid, await'⟩, hresume, hstep⟩ := Option.bind_eq_some_iff.1 hstep
  dsimp only at hstep
  split at hstep
  · cases hstep
    have hmid : mid.SingleRun := by
      rcases resumeRead_idle hresume with ⟨message, -, -, rfl, -⟩ | ⟨hidle, -⟩
      · exact h.send message
      · exact h.of_idle hidle
    exact hmid.of_same ⟨rfl, rfl, rfl, rfl, rfl, rfl, rfl, rfl⟩ rfl rfl
  · contradiction

end SingleRun

theorem singleRun_step (h : s.SingleRun) (a : Action M) : (s.step a).2.SingleRun := by
  unfold step
  cases hstep : s.enabledStep a with
  | none => exact h
  | some result =>
      obtain ⟨events, next⟩ := result
      change next.SingleRun
      cases a with
      | run t outcome => exact h.stepRun hstep
      | reader r outcome => exact h.stepReader hstep
      | send message =>
          cases hstep
          exact h.send message
      | onMessage callback | onError callback =>
          cases hstep
          exact h.of_same ⟨rfl, rfl, rfl, rfl, rfl, rfl, rfl, rfl⟩ rfl rfl
      | start =>
          simp only [enabledStep] at hstep
          split at hstep
          · contradiction
          · have hstart := h.start
            rwa [Option.some_inj.1 hstep] at hstart
      | pause =>
          simp only [enabledStep, pause] at hstep
          split at hstep
          · contradiction
          · split at hstep <;> cases hstep <;>
              exact h.of_same ⟨rfl, rfl, rfl, rfl, rfl, rfl, rfl, rfl⟩ rfl rfl
      | resume =>
          simp only [enabledStep, resume] at hstep
          split at hstep
          · contradiction
          · split at hstep <;> cases hstep <;>
              exact h.of_same ⟨rfl, rfl, rfl, rfl, rfl, rfl, rfl, rfl⟩ rfl rfl
      | stop caller =>
          simp only [enabledStep] at hstep
          split at hstep
          · contradiction
          · rename_i hmay
            have hcaller : s.mayStop caller = true := by simp_all
            have hstop := h.stop hcaller
            rwa [Option.some_inj.1 hstep] at hstop
      | continueStop =>
          simp only [enabledStep] at hstep
          obtain ⟨call, hcall, hstep⟩ := Option.bind_eq_some_iff.1 hstep
          obtain ⟨next', hnext, hstep⟩ := Option.map_eq_some_iff.1 hstep
          cases hstep
          exact h.continueStop hcall hnext
      | connect =>
          simp only [enabledStep, h.plain, true_or, if_true] at hstep
          contradiction
      | continueConnect outcome =>
          simp only [enabledStep] at hstep
          obtain ⟨await, -, hstep⟩ := Option.map_eq_some_iff.1 hstep
          have hconnect := h.continueConnect await outcome
          rwa [hstep] at hconnect

/-- Where one element contributes, the whole is its contribution. -/
theorem flatMap_eq_of_single {A B : Type} {f : A → List B} {xs : List A} {t : ℕ} {x : A}
    (hx : xs[t]? = some x) (hrest : ∀ i y, xs[i]? = some y → i ≠ t → f y = []) :
    xs.flatMap f = f x := by
  induction xs generalizing t with
  | nil => cases hx
  | cons z xs ih =>
      cases t with
      | zero =>
          cases hx
          have hnone : xs.flatMap f = [] := by
            rw [List.flatMap_eq_nil_iff]
            intro y hy
            obtain ⟨i, hi⟩ := List.getElem?_of_mem hy
            exact hrest (i + 1) y hi (Nat.succ_ne_zero i)
          rw [List.flatMap_cons, hnone, List.append_nil]
      | succ t =>
          rw [List.flatMap_cons, hrest 0 z rfl (Nat.succ_ne_zero t).symm, List.nil_append]
          exact ih hx fun i y hy hi => hrest (i + 1) y hy fun heq => hi (Nat.succ.inj heq)

theorem step_flow_single (h : s.SingleRun) (a : Action M) :
    (s.handledBy a).toList.map Prod.fst ++ (s.step a).2.pending =
      s.pending ++ (s.acceptedBy a).toList := by
  rcases step_cases s a with ⟨hhandled, hfeeds⟩ | ⟨haccepted, -, t, await, await', mid, hawait,
    hlive, hsegment, hnext⟩
  · rw [hhandled, pending_of_feeds hfeeds]
    rfl
  · have hrest (i : ℕ) (other : RunAwait M) (hother : s.awaits[i]? = some other) (hi : i ≠ t) :
        other.held = [] := by
      cases hdone : other.isDone with
      | true => cases other <;> first | rfl | contradiction
      | false =>
          have htask := h.live i other hother hdone
          rw [h.live t await hawait hlive] at htask
          exact absurd (Option.some_inj.1 htask).symm hi
    have hbefore := flatMap_eq_of_single hawait hrest
    have hafter : (s.awaits.set t await').flatMap RunAwait.held = await'.held := by
      have hlt := (List.getElem?_eq_some_iff.1 hawait).1
      refine flatMap_eq_of_single (t := t) (by simp [hlt]) fun i other hother hi => ?_
      rw [List.getElem?_set_ne hi.symm] at hother
      exact hrest i other hother hi
    rw [haccepted, hnext, pending, hsegment.awaits_set, pending, Option.toList_none,
      List.append_nil, hbefore, hafter]
    exact hsegment.flow

section Runs

variable {config : SubscriptionConfig} {actions : List (Action M)}

theorem init_singleRun : (init false config : SubscriptionHandle M).SingleRun where
  plain := rfl
  live _ _ h := by cases h
  stopCall _ h := by cases h

/-- A plain subscription handles its messages in the order in which it has accepted them, and
calls its callback with some of them in that order. -/
theorem plain_messages_in_order :
    (handled false config actions).map Prod.fst ++ (after false config actions).pending =
        accepted false config actions ∧
      (calls false config actions).Sublist (accepted false config actions) := by
  have hflow : (handled false config actions).map Prod.fst ++ (after false config actions).pending =
      accepted false config actions := by
    rw [← handled_map_fst]
    exact Runs.emitted_flow init_singleRun (fun _ a h => singleRun_step h a)
      fun s a h => step_flow_single h a
  refine ⟨hflow, ?_⟩
  rw [calls_eq, called, ← hflow]
  exact (List.filter_sublist.map Prod.fst).trans (List.sublist_append_left _ _)

end Runs

end SubscriptionHandle

end SolTrade.Subscription
