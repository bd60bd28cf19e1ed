import SolTrade.Subscription.Handle

/-!
What becomes of a subscription that is closed.

Every segment of a task asks for the state before it processes a message, begins an error or
opens a transport. It does not ask again where it comes back from an await in between: from the
back-off, from the connection, and with an exception from the queue. So a closed subscription
stays closed if and only if no task comes back there.
-/

namespace SolTrade.Subscription

open Library

variable {M : Type} {s next : SubscriptionHandle M} {events : List (Event M)} {a : Action M}

namespace SubscriptionHandle

/-- A task goes on with its error handler or its transport although the state may have changed
during its await. -/
def GoesOn (s : SubscriptionHandle M) : Action M → Prop
  | .run t .elapsed => s.runs[t]? = some ⟨.backoff, false⟩ ∧ s.free (.run t) = true
  | .run t .failed => s.runs[t]? = some ⟨.waiting, false⟩ ∧ s.free (.run t) = true
  | .reader r .elapsed => s.readers[r]? = some ⟨.backoff, false⟩ ∧ s.free (.reader r) = true
  | .reader r (.transport .returned) =>
      s.readers[r]? = some ⟨.transport .opening, false⟩ ∧ s.free (.reader r) = true
  | .continueConnect .returned => s.connecting = some .opening
  | _ => False

/-- What a step may do to a closed subscription. -/
def Quiet (result : List (Event M) × SubscriptionHandle M) : Prop :=
  result.2.state = .closed ∧ ∀ e ∈ result.1, e = .assigned .closed

/-! ### Segments of a closed subscription -/

section Segments

variable {c : Bool}

/-- A segment that records nothing and stays closed. -/
theorem quiet_of_silent {A : Type} {t : SubscriptionHandle M} {await await' : A}
    (ht : t.state = .closed)
    (heq : some (([] : List (Event M)), t, await) = some (events, next, await')) :
    Quiet (events, next) := by
  cases heq
  exact ⟨ht, by simp⟩

theorem quiet_reconnect (h : s.state = .closed) :
    Quiet ((s.reconnect).1, (s.reconnect).2.1) := by
  unfold reconnect
  split
  · exact ⟨h, by simp⟩
  · exact ⟨rfl, by simp⟩

theorem runAfterError_fst (x : List (Event M) × SubscriptionHandle M × ErrorAwait) :
    (runAfterError x).1 = x.1 ∧ (runAfterError x).2.1 = x.2.1 := by
  obtain ⟨events, next, await⟩ := x
  cases await <;> exact ⟨rfl, rfl⟩

theorem readAfterError_fst (x : List (Event M) × SubscriptionHandle M × ErrorAwait) :
    (readAfterError x).1 = x.1 ∧ (readAfterError x).2.1 = x.2.1 := by
  obtain ⟨events, next, await⟩ := x
  cases await <;> exact ⟨rfl, rfl⟩

/-- The error handler begins with an error. -/
theorem assigned_mem_handleError : .assigned .error ∈ (s.handleError).1 := by
  unfold handleError
  dsimp only
  split <;> simp

/-- A closed subscription has no message processed. -/
theorem takeMessage_closed (h : s.state = .closed) (message : M) :
    s.takeMessage message = ([], s.taskDone, .done) := by
  unfold takeMessage
  rw [h]

/-- What resuming `_run` does to a closed subscription. -/
theorem quiet_resumeRun (h : s.state = .closed) {await await' : RunAwait M} {outcome : RunOutcome}
    (hresume : s.resumeRun c await outcome = some (events, next, await')) :
    Quiet (events, next) ∨ c = false ∧
      (await = .backoff ∧ outcome = .elapsed ∨ await = .waiting ∧ outcome = .failed) := by
  have hdone : s.taskDone.state = .closed := h
  cases outcome with
  | elapsed =>
      cases await with
      | backoff =>
          cases c with
          | true => contradiction
          | false => exact .inr ⟨rfl, .inl ⟨rfl, rfl⟩⟩
      | holding message =>
          cases c with
          | true => contradiction
          | false =>
              change some (s.takeMessage message) = _ at hresume
              rw [takeMessage_closed h] at hresume
              exact .inl (quiet_of_silent hdone hresume)
      | created | pausedSleep | waiting =>
          cases c with
          | true => contradiction
          | false => exact .inl (quiet_of_silent h hresume)
      | callback | errorCallback | done => contradiction
  | received =>
      cases await with
      | waiting =>
          cases hqueue : s.queue with
          | nil => simp [resumeRun, hqueue] at hresume
          | cons message queue =>
              have hclosed : ({ s with queue } : SubscriptionHandle M).state = .closed := h
              simp only [resumeRun, hqueue] at hresume
              rw [takeMessage_closed hclosed] at hresume
              refine .inl (quiet_of_silent ?_ hresume)
              exact h
      | _ => contradiction
  | failed =>
      cases await with
      | waiting =>
          cases c with
          | true => contradiction
          | false => exact .inr ⟨rfl, .inr ⟨rfl, rfl⟩⟩
      | _ => contradiction
  | returned =>
      cases await with
      | callback message => exact .inl (quiet_of_silent hdone hresume)
      | errorCallback =>
          change some (runAfterError s.reconnect) = _ at hresume
          have hresult := Option.some_inj.1 hresume
          have hreconnect := quiet_reconnect h
          rw [← (runAfterError_fst _).1, ← (runAfterError_fst s.reconnect).2, hresult] at hreconnect
          exact .inl hreconnect
      | _ => contradiction
  | cancelled =>
      cases await with
      | callback message => exact .inl (quiet_of_silent hdone hresume)
      | errorCallback => exact .inl (quiet_of_silent h hresume)
      | done => contradiction
      | holding message =>
          cases c with
          | false => contradiction
          | true => exact .inl (quiet_of_silent hdone hresume)
      | _ =>
          cases c with
          | false => contradiction
          | true => exact .inl (quiet_of_silent h hresume)

theorem errorHead_closed (h : s.state = .closed) : s.errorHead = ([], s, .done) := if_pos h

theorem send_closed (h : s.state = .closed) (message : M) : s.send message = s := if_pos h

/-- What the transport does to a closed subscription. -/
theorem quiet_resumeOpen (h : s.state = .closed) (await : OpenAwait) (outcome : OpenOutcome) :
    Quiet ((s.resumeOpen await outcome).1, (s.resumeOpen await outcome).2.1) ∨
      await = .opening ∧ outcome = .returned := by
  cases await with
  | opening =>
      cases outcome with
      | returned => exact .inr ⟨rfl, rfl⟩
      | _ => exact .inl ⟨h, by simp [resumeOpen]⟩
  | acknowledging => cases outcome <;> exact .inl ⟨h, by simp [resumeOpen]⟩
  | abandoning cancelled => cases outcome <;> exact .inl ⟨h, by simp [resumeOpen]⟩

/-- What `_receive` does to a closed subscription as its transport goes on. -/
theorem quiet_resumeTransport (h : s.state = .closed) {await : OpenAwait} {await' : ReadAwait}
    {outcome : OpenOutcome}
    (hresume : s.resumeRead c (.transport await) (.transport outcome) =
      some (events, next, await')) :
    Quiet (events, next) ∨ c = false ∧ await = .opening ∧ outcome = .returned := by
  simp only [resumeRead] at hresume
  split at hresume
  · contradiction
  · rename_i hguard
    have hopen := quiet_resumeOpen h await outcome
    -- a connection that comes about is not the result of a cancellation
    have hopened : await = .opening ∧ outcome = .returned →
        c = false ∧ await = .opening ∧ outcome = .returned := by
      rintro ⟨rfl, rfl⟩
      exact ⟨by simpa using hguard, rfl, rfl⟩
    cases hresult : s.resumeOpen await outcome with
    | mk events' rest =>
        obtain ⟨opened, result⟩ := rest
        rw [hresult] at hresume hopen
        cases result with
        | awaits await =>
            cases hresume
            exact hopen.imp_right hopened
        | succeeded =>
            cases hresume
            exact hopen.imp_right hopened
        | raised cancelled =>
            cases cancelled with
            | true =>
                cases hresume
                exact hopen.imp_right hopened
            | false =>
                rcases hopen with hopen | ⟨rfl, rfl⟩
                · have hclosed : opened.state = .closed := hopen.1
                  change some opened.errorHead = _ at hresume
                  rw [errorHead_closed hclosed] at hresume
                  exact .inl (quiet_of_silent hclosed hresume)
                · cases hresult

/-- What resuming `_receive` does to a closed subscription. -/
theorem quiet_resumeRead (h : s.state = .closed) {await await' : ReadAwait}
    {outcome : ReadOutcome M}
    (hresume : s.resumeRead c await outcome = some (events, next, await')) :
    Quiet (events, next) ∨ c = false ∧ (await = .backoff ∧ outcome = .elapsed ∨
      await = .transport .opening ∧ outcome = .transport .returned) := by
  cases outcome with
  | elapsed =>
      cases await with
      | created =>
          cases c with
          | true => contradiction
          | false => exact .inl (quiet_of_silent h hresume)
      | backoff =>
          cases c with
          | true => contradiction
          | false => exact .inr ⟨rfl, .inl ⟨rfl, rfl⟩⟩
      | _ => contradiction
  | skipped =>
      cases await with
      | receiving =>
          cases c with
          | true => contradiction
          | false => exact .inl (quiet_of_silent h hresume)
      | _ => contradiction
  | notified message last =>
      cases await with
      | receiving =>
          cases c with
          | true => contradiction
          | false =>
              change some ([], s.send message, _) = _ at hresume
              rw [send_closed h] at hresume
              exact .inl (quiet_of_silent h hresume)
      | _ => contradiction
  | ended =>
      cases await with
      | receiving =>
          cases c with
          | true => contradiction
          | false =>
              change (if s.state = .closed then _ else _) = _ at hresume
              rw [if_pos h] at hresume
              exact .inl (quiet_of_silent h hresume)
      | _ => contradiction
  | failed =>
      cases await with
      | receiving =>
          cases c with
          | true => contradiction
          | false =>
              refine .inl (quiet_of_silent ?_ hresume)
              exact h
      | closing =>
          cases c with
          | true => contradiction
          | false => exact .inl (quiet_of_silent h hresume)
      | _ => contradiction
  | returned =>
      cases await with
      | joining =>
          simp only [resumeRead] at hresume
          split at hresume
          · contradiction
          · exact .inl (quiet_of_silent h hresume)
      | stopped => exact .inl (quiet_of_silent h hresume)
      | closing =>
          cases c with
          | true => contradiction
          | false =>
              change some s.errorHead = _ at hresume
              rw [errorHead_closed h] at hresume
              exact .inl (quiet_of_silent h hresume)
      | errorCallback =>
          change some (readAfterError s.reconnect) = _ at hresume
          have hresult := Option.some_inj.1 hresume
          have hreconnect := quiet_reconnect h
          rw [← (readAfterError_fst _).1, ← (readAfterError_fst s.reconnect).2, hresult]
            at hreconnect
          exact .inl hreconnect
      | _ => contradiction
  | transport outcome =>
      cases await with
      | transport await =>
          rcases quiet_resumeTransport h hresume with hquiet | ⟨hc, rfl, rfl⟩
          · exact .inl hquiet
          · exact .inr ⟨hc, .inr ⟨rfl, rfl⟩⟩
      | _ => contradiction
  | cancelled =>
      cases await with
      | errorCallback => exact .inl (quiet_of_silent h hresume)
      | transport | stopped | done | died => contradiction
      | _ =>
          cases c with
          | false => contradiction
          | true => exact .inl (quiet_of_silent h hresume)

end Segments

/-! ### Steps of a closed subscription -/

theorem state_enterStop (caller : Option TaskRef) : (s.enterStop caller).state = s.state := by
  unfold enterStop
  split <;> rfl

theorem quiet_stop (h : s.state = .closed) (caller : Option TaskRef) : Quiet (s.stop caller) := by
  have hclosed := (state_enterStop caller).trans h
  unfold stop
  split
  · unfold stopWebSocket
    dsimp only
    split
    · exact ⟨rfl, by simp⟩
    · split
      · exact ⟨rfl, by simp⟩
      · exact ⟨rfl, by simp⟩
  · unfold stopHandle
    rw [if_pos hclosed]
    exact ⟨hclosed, by simp⟩

theorem state_continueStop {call : StopCall} (h : s.continueStop call = some next) :
    next.state = s.state := by
  unfold continueStop at h
  split at h
  · split at h
    · cases h
      rfl
    · split at h
      · dsimp only at h
        split at h
        · cases h
          rfl
        · cases h
          split
          · rfl
          · rfl
      · contradiction
  · split at h
    · split at h
      · cases h
        rfl
      · cases h
        rfl
    · contradiction
  · cases h
    rfl

theorem quiet_continueConnect (h : s.state = .closed) (await : OpenAwait) (outcome : OpenOutcome) :
    Quiet (s.continueConnect await outcome) ∨ await = .opening ∧ outcome = .returned := by
  have hopen := quiet_resumeOpen h await outcome
  unfold continueConnect
  cases hresult : s.resumeOpen await outcome with
  | mk events rest =>
      obtain ⟨opened, result⟩ := rest
      rw [hresult] at hopen
      cases result with
      | awaits await => exact hopen
      | raised cancelled => exact hopen
      | succeeded =>
          rcases hopen with hopen | ⟨rfl, rfl⟩
          · left
            have hclosed : opened.state = .closed := hopen.1
            unfold finishConnect
            dsimp only
            rw [if_pos hclosed]
            exact ⟨hclosed, by simp⟩
          · cases hresult

theorem quiet_stepRun (h : s.state = .closed) {t : ℕ} {outcome : RunOutcome}
    {result : List (Event M) × SubscriptionHandle M} (hstep : s.stepRun t outcome = some result) :
    Quiet result ∨ GoesOn s (.run t outcome) := by
  unfold stepRun at hstep
  obtain ⟨task, htask, hstep⟩ := Option.bind_eq_some_iff.1 hstep
  obtain ⟨⟨events, next, await'⟩, hresume, hstep⟩ := Option.bind_eq_some_iff.1 hstep
  dsimp only at hstep
  split at hstep
  · rename_i hfree
    cases hstep
    obtain ⟨await, c⟩ := task
    rcases quiet_resumeRun h hresume with hquiet | ⟨rfl, ⟨rfl, rfl⟩ | ⟨rfl, rfl⟩⟩
    · exact .inl hquiet
    · exact .inr ⟨htask, hfree⟩
    · exact .inr ⟨htask, hfree⟩
  · contradiction

theorem quiet_stepReader (h : s.state = .closed) {r : ℕ} {outcome : ReadOutcome M}
    {result : List (Event M) × SubscriptionHandle M}
    (hstep : s.stepReader r outcome = some result) :
    Quiet result ∨ GoesOn s (.reader r outcome) := by
  unfold stepReader at hstep
  obtain ⟨task, htask, hstep⟩ := Option.bind_eq_some_iff.1 hstep
  obtain ⟨⟨events, next, await'⟩, hresume, hstep⟩ := Option.bind_eq_some_iff.1 hstep
  dsimp only at hstep
  split at hstep
  · rename_i hfree
    cases hstep
    obtain ⟨await, c⟩ := task
    rcases quiet_resumeRead h hresume with hquiet | ⟨rfl, ⟨rfl, rfl⟩ | ⟨rfl, rfl⟩⟩
    · exact .inl hquiet
    · exact .inr ⟨htask, hfree⟩
    · exact .inr ⟨htask, hfree⟩
  · contradiction

theorem quiet_enabledStep (h : s.state = .closed) {result : List (Event M) × SubscriptionHandle M}
    (hstep : s.enabledStep a = some result) : Quiet result ∨ GoesOn s a := by
  have hsame : Quiet (([] : List (Event M)), s) := ⟨h, by simp⟩
  cases a with
  | onMessage callback | onError callback =>
      cases hstep
      exact .inl ⟨h, by simp⟩
  | start =>
      simp only [enabledStep, start, if_pos h] at hstep
      split at hstep
      · contradiction
      · cases hstep
        exact .inl hsame
  | pause =>
      simp only [enabledStep, pause, h, reduceCtorEq, if_false] at hstep
      split at hstep
      · contradiction
      · cases hstep
        exact .inl hsame
  | resume =>
      simp only [enabledStep, resume, h, reduceCtorEq, if_false] at hstep
      split at hstep
      · contradiction
      · cases hstep
        exact .inl hsame
  | send message =>
      simp only [enabledStep, send_closed h] at hstep
      cases hstep
      exact .inl hsame
  | stop caller =>
      simp only [enabledStep] at hstep
      split at hstep
      · contradiction
      · cases hstep
        exact .inl (quiet_stop h caller)
  | continueStop =>
      simp only [enabledStep] at hstep
      obtain ⟨call, -, hstep⟩ := Option.bind_eq_some_iff.1 hstep
      obtain ⟨next, hnext, rfl⟩ := Option.map_eq_some_iff.1 hstep
      exact .inl ⟨(state_continueStop hnext).trans h, by simp⟩
  | connect =>
      simp only [enabledStep, connect, h, true_or, if_true] at hstep
      split at hstep
      · contradiction
      · cases hstep
        exact .inl hsame
  | continueConnect outcome =>
      simp only [enabledStep] at hstep
      obtain ⟨await, hawait, rfl⟩ := Option.map_eq_some_iff.1 hstep
      rcases quiet_continueConnect h await outcome with hquiet | ⟨rfl, rfl⟩
      · exact .inl hquiet
      · exact .inr hawait
  | run t outcome => exact quiet_stepRun h hstep
  | reader r outcome => exact quiet_stepReader h hstep

/-- Where a task goes on, something happens that a closed subscription is not to do. -/
theorem GoesOn.exists_event (h : GoesOn s a) : ∃ e ∈ (s.step a).1, e ≠ .assigned .closed := by
  cases a with
  | run t outcome =>
      cases outcome with
      | elapsed =>
          obtain ⟨htask, hfree⟩ := h
          exact ⟨.assigned .active,
            by simp [step, enabledStep, stepRun, htask, resumeRun, hfree], by simp⟩
      | failed =>
          obtain ⟨htask, hfree⟩ := h
          refine ⟨.assigned .error, ?_, by simp⟩
          simp [step, enabledStep, stepRun, htask, resumeRun, hfree, (runAfterError_fst _).1,
            assigned_mem_handleError]
      | _ => contradiction
  | reader r outcome =>
      cases outcome with
      | elapsed =>
          obtain ⟨htask, hfree⟩ := h
          exact ⟨.assigned .active,
            by simp [step, enabledStep, stepReader, htask, resumeRead, hfree], by simp⟩
      | transport outcome =>
          cases outcome with
          | returned =>
              obtain ⟨htask, hfree⟩ := h
              exact ⟨.opened, by
                simp [step, enabledStep, stepReader, htask, resumeRead, resumeOpen, hfree], by simp⟩
          | _ => contradiction
      | _ => contradiction
  | continueConnect outcome =>
      cases outcome with
      | returned =>
          have hconnecting : s.connecting = some .opening := h
          exact ⟨.opened, by
            simp [step, enabledStep, hconnecting, continueConnect, resumeOpen], by simp⟩
      | _ => contradiction
  | _ => contradiction

/-- A step from a closed subscription is quiet unless a task goes on in it. -/
theorem quiet_step (h : s.state = .closed) (a : Action M) : Quiet (s.step a) ↔ ¬ GoesOn s a := by
  constructor
  · intro hquiet hgoes
    obtain ⟨e, he, hne⟩ := hgoes.exists_event
    exact hne (hquiet.2 e he)
  · intro hstays
    unfold step
    cases hstep : s.enabledStep a with
    | none => exact ⟨h, by simp⟩
    | some result => exact (quiet_enabledStep h hstep).resolve_right hstays

/-! ### Runs -/

/-- Once the subscription is closed in the run, no later step assigns another state, opens a
transport or begins a message callback. -/
def StaysClosed (webSocket : Bool) (config : SubscriptionConfig) (actions : List (Action M)) :
    Prop :=
  ∀ pre mid a post, actions = pre ++ (mid ++ a :: post) →
    (after webSocket config pre).state = .closed →
      Quiet ((after webSocket config (pre ++ mid)).step a)

/-- A subscription stays closed in a run if and only if no task goes on in it after an await
during which the subscription has been closed. -/
theorem staysClosed_iff (webSocket : Bool) (config : SubscriptionConfig)
    (actions : List (Action M)) :
    StaysClosed webSocket config actions ↔ ∀ pre a post, actions = pre ++ a :: post →
      (after webSocket config pre).state = .closed → ¬ GoesOn (after webSocket config pre) a := by
  constructor
  · intro h pre a post hsplit hclosed
    rw [← quiet_step hclosed]
    have hquiet := h pre [] a post hsplit hclosed
    rwa [List.append_nil] at hquiet
  · intro h
    have hfrozen : Runs.Frozen (fun (s : SubscriptionHandle M) a => (s.step a).2)
        (init webSocket config) actions
        (fun (_ : Unit) s => s.state = .closed) := by
      rw [Runs.frozen_iff]
      intro _ pre a post hsplit hclosed
      exact ((quiet_step hclosed a).2 (h pre a post hsplit hclosed)).1
    intro pre mid a post hsplit hclosed
    have hlater : (after webSocket config (pre ++ mid)).state = .closed :=
      hfrozen () pre mid (a :: post) hsplit hclosed
    exact (quiet_step hlater a).2 (h (pre ++ mid) a post (by simp [hsplit]) hlater)

/-- The connection fails, and the error callback stops the subscription from within the reader;
then it returns to the error handler. -/
def sampleStopped : List (Action ℕ) :=
  [.onError .async, .connect, .continueConnect .returned, .continueConnect .returned,
    .reader 0 .elapsed, .reader 0 .failed, .reader 0 .returned, .stop (some (.reader 0)),
    .continueStop, .run 0 .cancelled, .continueStop, .continueStop, .reader 0 .returned]

/-- The back-off ends: the subscription is active again and a transport is opened. -/
theorem stopped_revives :
    (after true {} sampleStopped).state = .closed ∧ (after true {} sampleStopped).stopCall = none ∧
      ((after true {} sampleStopped).step (.reader 0 .elapsed)).1 =
        [.assigned .active, .opening] ∧
      (after true {} (sampleStopped ++ [.reader 0 .elapsed])).state = .active ∧
      ¬ StaysClosed true {} (sampleStopped ++ [.reader 0 .elapsed]) := by
  have hclosed : (after true {} sampleStopped).state = .closed := rfl
  have hrevived : ((after true {} sampleStopped).step (.reader 0 .elapsed)).2.state = .active := rfl
  refine ⟨hclosed, rfl, rfl, rfl, fun h => ?_⟩
  have hquiet := h sampleStopped [] (.reader 0 .elapsed) [] rfl hclosed
  rw [List.append_nil] at hquiet
  exact absurd (hrevived.symm.trans hquiet.1) (by decide)

end SubscriptionHandle

end SolTrade.Subscription
