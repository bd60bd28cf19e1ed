import SolTrade.Subscription.Delivery

/-!
The reader of a signature subscription stops it after its last message.

The reader waits for the queue to be finished, and goes on when it has been, whatever has been
accepted since. So there was a moment, at or after the last message, at which everything that
had been accepted was handled.
-/

namespace SolTrade.Subscription

open Library

variable {M : Type}

def ReadAwait.joins : ReadAwait → Option ℕ
  | joining since => some since
  | _ => none

namespace SubscriptionHandle

variable {s next : SubscriptionHandle M} {events : List (Event M)} {a : Action M} {r since : ℕ}

/-- The reader waits for the queue, which had been finished that often when it began. -/
def Joining (s : SubscriptionHandle M) (r since : ℕ) : Prop :=
  ∃ task ∈ s.readers[r]?, task.await.joins = some since

/-- No reader begins to wait for the queue. -/
def KeepsJoins (s next : SubscriptionHandle M) : Prop :=
  ∀ r since, next.Joining r since → s.Joining r since

theorem KeepsJoins.of_readers (h : next.readers = s.readers) : KeepsJoins s next := by
  intro r since
  rw [Joining, h]
  exact id

theorem KeepsJoins.trans {last : SubscriptionHandle M} (h : KeepsJoins s next)
    (h' : KeepsJoins next last) : KeepsJoins s last :=
  fun r since hlast => h r since (h' r since hlast)

theorem KeepsJoins.of_modify {f : Task ReadAwait → Task ReadAwait}
    (hf : ∀ task, (f task).await.joins = task.await.joins)
    (h : next.readers = s.readers.modify r f) : KeepsJoins s next := by
  rintro i since ⟨task, htask, hjoins⟩
  rw [h, List.getElem?_modify, Option.mem_def, Option.map_eq_map, Option.map_eq_some_iff] at htask
  obtain ⟨old, hold, rfl⟩ := htask
  refine ⟨old, hold, ?_⟩
  split at hjoins
  · rwa [hf] at hjoins
  · exact hjoins

theorem KeepsJoins.of_append
    (h : next.readers = s.readers ++ [⟨.created, false⟩]) : KeepsJoins s next := by
  rintro i since ⟨task, htask, hjoins⟩
  rw [h, Option.mem_def, List.getElem?_append] at htask
  split at htask
  · exact ⟨task, htask, hjoins⟩
  · obtain rfl := List.mem_singleton.1 (List.mem_of_getElem? htask)
    contradiction

theorem cancelReader_keepsJoins (s : SubscriptionHandle M) (r : ℕ) :
    KeepsJoins s (s.cancelReader r) := by
  refine .of_modify (fun task => ?_) rfl
  unfold Task.cancel
  split <;> rfl

theorem enterStop_keepsJoins (s : SubscriptionHandle M) (caller : Option TaskRef) :
    KeepsJoins s (s.enterStop caller) := by
  unfold enterStop
  split
  · refine .of_modify (fun task => ?_) rfl
    split
    · rename_i hstopping
      rw [hstopping]
      rfl
    · rfl
  · exact .of_readers rfl

theorem stop_keepsJoins (s : SubscriptionHandle M) (caller : Option TaskRef) :
    KeepsJoins s (s.stop caller).2 := by
  unfold stop
  split
  · refine (enterStop_keepsJoins s caller).trans ?_
    unfold stopWebSocket
    dsimp only
    split
    · exact .of_readers rfl
    · split
      · exact .of_readers rfl
      · exact (KeepsJoins.of_readers rfl).trans (cancelReader_keepsJoins _ _)
  · refine (enterStop_keepsJoins s caller).trans (.of_readers ?_)
    unfold stopHandle
    split
    · rfl
    · dsimp only
      split
      · rfl
      · split <;> rfl

theorem continueStop_readers {call : StopCall} (h : s.continueStop call = some next) :
    next.readers = s.readers := by
  unfold continueStop at h
  split at h
  · split at h
    · cases h
      rfl
    · split at h
      · dsimp only at h
        split at h
        · cases h
          rfl
        · cases h
          split <;> rfl
      · contradiction
  · split at h
    · split at h <;> cases h <;> rfl
    · contradiction
  · cases h
    rfl

theorem start_readers (s : SubscriptionHandle M) : s.start.2.readers = s.readers := by
  unfold start
  split
  · rfl
  · split <;> rfl

theorem finishConnect_keepsJoins (s : SubscriptionHandle M) : KeepsJoins s s.finishConnect.2 := by
  unfold finishConnect
  dsimp only
  split
  · exact .of_readers rfl
  · exact .of_append (congrArg (· ++ _) (start_readers _))

theorem continueConnect_keepsJoins (s : SubscriptionHandle M) (await : OpenAwait)
    (outcome : OpenOutcome) : KeepsJoins s (s.continueConnect await outcome).2 := by
  have hopen := (resumeOpen_idle s await outcome).same.readers
  unfold continueConnect
  cases hresult : s.resumeOpen await outcome with
  | mk events rest =>
      obtain ⟨opened, result⟩ := rest
      rw [hresult] at hopen
      cases result with
      | awaits await | raised cancelled => exact .of_readers hopen
      | succeeded => exact (KeepsJoins.of_readers hopen).trans (finishConnect_keepsJoins opened)

/-! ### The reader -/

theorem joins_readHead (s : SubscriptionHandle M) : s.readHead.joins = none := by
  unfold readHead
  split <;> rfl

theorem joins_readAfterError (x : List (Event M) × SubscriptionHandle M × ErrorAwait) :
    (readAfterError x).2.2.joins = none := by
  obtain ⟨events, next, await⟩ := x
  cases await <;> rfl

theorem joins_errorHead (s : SubscriptionHandle M) : s.errorHead.2.2.joins = none := by
  unfold errorHead
  split
  · rfl
  · exact joins_readAfterError _

theorem resumeTransport_joins {c : Bool} {await : OpenAwait} {await' : ReadAwait}
    {outcome : OpenOutcome}
    (h : s.resumeRead c (.transport await) (.transport outcome) = some (events, next, await')) :
    await'.joins = none := by
  simp only [resumeRead] at h
  split at h
  · contradiction
  · split at h
    · cases h
      rfl
    · cases h
      exact joins_readHead _
    · cases h
      rfl
    · rw [← show _ = await' from congrArg (·.2.2) (Option.some_inj.1 h)]
      exact joins_errorHead _

/-- A reader begins to wait for the queue with its last message. -/
theorem resumeRead_joins {c : Bool} {await await' : ReadAwait} {outcome : ReadOutcome M}
    (h : s.resumeRead c await outcome = some (events, next, await')) :
    await'.joins = none ∨
      ∃ message, outcome = .notified message true ∧ next = s.send message ∧ await' = next.join := by
  cases outcome with
  | notified message last =>
      cases await with
      | receiving =>
          cases c with
          | true => contradiction
          | false =>
              cases h
              cases last with
              | true => exact .inr ⟨message, rfl, rfl, rfl⟩
              | false => exact .inl rfl
      | _ => contradiction
  | elapsed =>
      left
      cases await with
      | created =>
          cases c with
          | true => contradiction
          | false =>
              cases h
              exact joins_readHead s
      | backoff =>
          cases c with
          | true => contradiction
          | false =>
              cases h
              rfl
      | _ => contradiction
  | skipped =>
      left
      cases await with
      | receiving =>
          cases c with
          | true => contradiction
          | false =>
              cases h
              rfl
      | _ => contradiction
  | ended =>
      left
      cases await with
      | receiving =>
          cases c with
          | true => contradiction
          | false =>
              change (if s.state = .closed then _ else _) = _ at h
              split at h <;> cases h <;> rfl
      | _ => contradiction
  | failed =>
      left
      cases await with
      | receiving | closing =>
          cases c with
          | true => contradiction
          | false =>
              cases h
              rfl
      | _ => contradiction
  | returned =>
      left
      cases await with
      | joining since =>
          simp only [resumeRead] at h
          split at h
          · contradiction
          · cases h
            rfl
      | stopped =>
          cases h
          rfl
      | closing =>
          cases c with
          | true => contradiction
          | false =>
              rw [← show _ = await' from congrArg (·.2.2) (Option.some_inj.1 h)]
              exact joins_errorHead s
      | errorCallback =>
          rw [← show _ = await' from congrArg (·.2.2) (Option.some_inj.1 h)]
          exact joins_readAfterError _
      | _ => contradiction
  | transport outcome =>
      left
      cases await with
      | transport await => exact resumeTransport_joins h
      | _ => contradiction
  | cancelled =>
      left
      cases await with
      | errorCallback =>
          cases h
          rfl
      | transport | stopped | done | died => contradiction
      | _ =>
          cases c with
          | false => contradiction
          | true =>
              cases h
              rfl

/-- A reader goes on to stop the subscription when the queue is finished or has been. -/
theorem resumeRead_stopping {c : Bool} {await : ReadAwait} {outcome : ReadOutcome M}
    (h : s.resumeRead c await outcome = some (events, next, .stopping))
    (hawait : await = .receiving ∨ ∃ since, await = .joining since) :
    (∃ message, outcome = .notified message true ∧ next.unfinished = 0) ∨
      ∃ since, await = .joining since ∧ s.finished ≠ since := by
  rcases hawait with rfl | ⟨since, rfl⟩
  · cases outcome with
    | notified message last =>
        cases c with
        | true => contradiction
        | false =>
            have hresult := Option.some_inj.1 h
            rw [Prod.mk.injEq, Prod.mk.injEq] at hresult
            obtain ⟨-, rfl, hjoin⟩ := hresult
            split at hjoin
            · rename_i hlast
              refine .inl ⟨message, by rw [hlast], ?_⟩
              unfold join at hjoin
              split at hjoin
              · assumption
              · contradiction
            · contradiction
    | skipped | failed | cancelled => cases c <;> cases h
    | ended =>
        cases c with
        | true => contradiction
        | false =>
            change (if s.state = .closed then _ else _) = _ at h
            split at h <;> cases h
    | _ => contradiction
  · cases outcome with
    | returned =>
        simp only [resumeRead] at h
        split at h
        · contradiction
        · rename_i hwait
          exact .inr ⟨since, rfl, fun hsame => hwait (.inr hsame)⟩
    | cancelled => cases c <;> cases h
    | _ => contradiction

/-! ### Steps -/

theorem send_readers (s : SubscriptionHandle M) (message : M) :
    (s.send message).readers = s.readers := by
  unfold send
  split
  · rfl
  · split <;> rfl

theorem resumeRead_readers {c : Bool} {await await' : ReadAwait} {outcome : ReadOutcome M}
    (h : s.resumeRead c await outcome = some (events, next, await')) :
    next.readers = s.readers := by
  rcases resumeRead_idle h with ⟨message, last, -, rfl, -⟩ | ⟨hidle, -⟩
  · exact send_readers s message
  · exact hidle.same.readers

/-- What a step of the reader is. -/
theorem stepReader_eq_some {outcome : ReadOutcome M}
    (h : s.stepReader r outcome = some (events, next)) : ∃ task mid await',
      s.readers[r]? = some task ∧
        s.resumeRead task.cancelling task.await outcome = some (events, mid, await') ∧
        next = { mid with readers := s.readers.set r ⟨await', false⟩ } := by
  unfold stepReader at h
  obtain ⟨task, htask, h⟩ := Option.bind_eq_some_iff.1 h
  obtain ⟨⟨events', mid, await'⟩, hresume, h⟩ := Option.bind_eq_some_iff.1 h
  dsimp only at h
  split at h
  · cases h
    refine ⟨task, mid, await', htask, hresume, ?_⟩
    rw [resumeRead_readers hresume]
  · contradiction

theorem stepReader_joining {outcome : ReadOutcome M} {i : ℕ}
    (h : s.stepReader i outcome = some (events, next)) (hjoining : next.Joining r since) :
    s.Joining r since ∨ ∃ message, Action.reader i outcome = .reader r (.notified message true) ∧
      next.finished = since := by
  obtain ⟨task, mid, await', htask, hresume, rfl⟩ := stepReader_eq_some h
  obtain ⟨task', htask', hjoins⟩ := hjoining
  by_cases hi : i = r
  · subst hi
    rw [Option.mem_def, List.getElem?_set_self', htask] at htask'
    cases htask'
    change await'.joins = some since at hjoins
    rcases resumeRead_joins hresume with hnone | ⟨message, rfl, rfl, rfl⟩
    · rw [hnone] at hjoins
      contradiction
    · refine .inr ⟨message, rfl, ?_⟩
      unfold join at hjoins
      split at hjoins
      · contradiction
      · exact Option.some_inj.1 hjoins
  · refine .inl ⟨task', ?_, hjoins⟩
    rwa [Option.mem_def, List.getElem?_set_ne hi] at htask'

/-- A reader that waits for the queue waited for it before, or has just had its last message. -/
theorem step_joining (h : (s.step a).2.Joining r since) : s.Joining r since ∨
    ∃ message, a = .reader r (.notified message true) ∧ (s.enabledStep a).isSome = true ∧
      (s.step a).2.finished = since := by
  unfold step at h ⊢
  cases hstep : s.enabledStep a with
  | none =>
      rw [hstep] at h
      exact .inl h
  | some result =>
      obtain ⟨events, next⟩ := result
      rw [hstep] at h
      change next.Joining r since at h
      have hkeeps (hkept : KeepsJoins s next) : s.Joining r since := hkept r since h
      cases a with
      | reader i outcome =>
          rcases stepReader_joining hstep h with hold | ⟨message, hlast, hsince⟩
          · exact .inl hold
          · exact .inr ⟨message, hlast, rfl, hsince⟩
      | run t outcome =>
          obtain ⟨await, await', mid, -, -, -, hsegment, rfl⟩ := stepRun_segment hstep
          exact .inl (hkeeps (.of_readers hsegment.same.readers))
      | onMessage callback | onError callback =>
          cases hstep
          exact .inl (hkeeps (.of_readers rfl))
      | send message =>
          cases hstep
          exact .inl (hkeeps (.of_readers (send_readers s message)))
      | start =>
          simp only [enabledStep] at hstep
          split at hstep
          · contradiction
          · have hreaders := start_readers s
            rw [Option.some_inj.1 hstep] at hreaders
            exact .inl (hkeeps (.of_readers hreaders))
      | pause | resume | connect =>
          simp only [enabledStep, pause, resume, connect] at hstep
          split at hstep
          · contradiction
          · split at hstep <;> cases hstep <;> exact .inl (hkeeps (.of_readers rfl))
      | stop caller =>
          simp only [enabledStep] at hstep
          split at hstep
          · contradiction
          · have hkept := stop_keepsJoins s caller
            rw [Option.some_inj.1 hstep] at hkept
            exact .inl (hkeeps hkept)
      | continueStop =>
          simp only [enabledStep] at hstep
          obtain ⟨call, -, hstep⟩ := Option.bind_eq_some_iff.1 hstep
          obtain ⟨next', hnext, hstep⟩ := Option.map_eq_some_iff.1 hstep
          cases hstep
          exact .inl (hkeeps (.of_readers (continueStop_readers hnext)))
      | continueConnect outcome =>
          simp only [enabledStep] at hstep
          obtain ⟨await, -, hstep⟩ := Option.map_eq_some_iff.1 hstep
          have hkept := continueConnect_keepsJoins s await outcome
          rw [hstep] at hkept
          exact .inl (hkeeps hkept)

theorem step_finishes (s : SubscriptionHandle M) (a : Action M) : Finishes s (s.step a).2 := by
  rcases step_cases s a with ⟨-, hfeeds⟩ | ⟨-, -, t, await, await', mid, -, -, hsegment, hnext⟩
  · exact .inl hfeeds.finished
  · rw [hnext]
    exact hsegment.finishes

/-! ### Runs -/

section Runs

variable {webSocket : Bool} {config : SubscriptionConfig} {actions : List (Action M)}

@[simp] theorem after_append_singleton : after webSocket config (actions ++ [a]) =
    ((after webSocket config actions).step a).2 := Runs.run_append

/-- Everything that the run has accepted is handled, and no callback of a message is waited for. -/
structure Settled (webSocket : Bool) (config : SubscriptionConfig) (actions : List (Action M)) :
    Prop where
  inHand : (after webSocket config actions).inHand = []
  pending : (after webSocket config actions).pending = []
  handled : ((handled webSocket config actions).map Prod.fst).Perm
    (accepted webSocket config actions)

theorem settled_of_unfinished (h : (after webSocket config actions).unfinished = 0) :
    Settled webSocket config actions := by
  have hcounted : (after webSocket config actions).Counted := after_counted
  have hcount := hcounted.1
  rw [h] at hcount
  have hinHand : (after webSocket config actions).inHand = [] :=
    List.eq_nil_of_length_eq_zero (by omega)
  have hqueue : (after webSocket config actions).queue = [] :=
    List.eq_nil_of_length_eq_zero (by omega)
  have hpending : (after webSocket config actions).pending = [] := by
    rw [pending, hqueue, List.append_nil, List.flatMap_eq_nil_iff]
    intro await hawait
    exact held_of_inHand (List.flatMap_eq_nil_iff.1 hinHand await hawait)
  refine ⟨hinHand, hpending, ?_⟩
  have hperm : ((handled webSocket config actions).map Prod.fst ++
    (after webSocket config actions).pending).Perm (accepted webSocket config actions) :=
    accepted_perm
  rwa [hpending, List.append_nil] at hperm

/-- A reader that waits for the queue has had its last message, and if the queue has been
finished since, there was a moment at which no message was unfinished. -/
theorem joining_since (h : (after webSocket config actions).Joining r since) :
    ∃ early message mid, actions = early ++ .reader r (.notified message true) :: mid ∧
      ((after webSocket config early).enabledStep (.reader r (.notified message true))).isSome =
        true ∧
      ((after webSocket config actions).finished = since ∨ ∃ mid₁ mid₂, mid = mid₁ ++ mid₂ ∧
        (after webSocket config
          (early ++ .reader r (.notified message true) :: mid₁)).unfinished = 0) := by
  induction actions using List.reverseRecOn with
  | nil =>
      obtain ⟨task, htask, -⟩ := h
      cases htask
  | append_singleton actions a ih =>
      rw [after_append_singleton] at h
      rcases step_joining h with hold | ⟨message, rfl, hsome, hsince⟩
      · obtain ⟨early, message, mid, rfl, hsome, hmoment⟩ := ih hold
        refine ⟨early, message, mid ++ [a], by simp, hsome, ?_⟩
        rcases hmoment with hnow | ⟨mid₁, mid₂, rfl, hzero⟩
        · rcases step_finishes (after webSocket config _) a with hsame | ⟨-, hzero⟩
          · rw [after_append_singleton, hsame]
            exact .inl hnow
          · refine .inr ⟨mid ++ [a], [], (List.append_nil _).symm, ?_⟩
            rwa [← List.cons_append, ← List.append_assoc, after_append_singleton]
        · exact .inr ⟨mid₁, mid₂ ++ [a], List.append_assoc .., hzero⟩
      · refine ⟨actions, message, [], rfl, hsome, .inl ?_⟩
        rwa [after_append_singleton]

/-- The reader of a signature goes on to stop its subscription only after a moment, at or after
its last message, at which everything that had been accepted was handled. -/
theorem joined_handled {await : ReadAwait} {c c' : Bool} {outcome : ReadOutcome M}
    (hreader : (after true config actions).readers[r]? = some ⟨await, c⟩)
    (hawait : await = .receiving ∨ ∃ since, await = .joining since)
    (hstops : (after true config (actions ++ [.reader r outcome])).readers[r]? =
      some ⟨.stopping, c'⟩) :
    ∃ early message mid late,
      actions ++ [.reader r outcome] =
          early ++ .reader r (.notified message true) :: (mid ++ late) ∧
        ((after true config early).enabledStep (.reader r (.notified message true))).isSome =
          true ∧
        Settled true config (early ++ .reader r (.notified message true) :: mid) := by
  rw [after_append_singleton, step] at hstops
  cases hstep : (after true config actions).enabledStep (.reader r outcome) with
  | none =>
      rw [hstep, Option.getD_none, hreader] at hstops
      obtain ⟨rfl⟩ : await = .stopping := congrArg Task.await (Option.some_inj.1 hstops)
      simp at hawait
  | some result =>
      obtain ⟨events, next⟩ := result
      obtain ⟨task, mid, await', htask, hresume, rfl⟩ := stepReader_eq_some hstep
      obtain rfl := Option.some_inj.1 (hreader.symm.trans htask)
      rw [hstep] at hstops
      change (((after true config actions).readers.set r ⟨await', false⟩))[r]? = _ at hstops
      rw [List.getElem?_set_self', hreader] at hstops
      obtain rfl : await' = .stopping := congrArg Task.await (Option.some_inj.1 hstops)
      rcases resumeRead_stopping hresume hawait with ⟨message, rfl, hzero⟩ | ⟨since, rfl, hne⟩
      · refine ⟨actions, message, [], [], rfl, by rw [hstep]; rfl, settled_of_unfinished ?_⟩
        rw [after_append_singleton, step, hstep]
        exact hzero
      · obtain ⟨early, message, mid', rfl, hsome, hnow | ⟨mid₁, mid₂, rfl, hzero⟩⟩ :=
          joining_since ⟨_, htask, rfl⟩
        · exact absurd hnow hne
        · exact ⟨early, message, mid₁, mid₂ ++ [.reader r outcome], by simp, hsome,
            settled_of_unfinished hzero⟩

/-- A signature is notified, its message is counted, another message is sent before the reader
wakes up, and the reader goes on. -/
def sampleSignature : List (Action ℕ) :=
  [.connect, .continueConnect .returned, .continueConnect .returned, .run 0 .elapsed,
    .reader 0 .elapsed, .reader 0 (.notified 7 true), .run 0 .received, .send 8]

theorem sampleSignature_handled : (after true {} sampleSignature).pending = [8] ∧
    ∃ early message mid late,
      sampleSignature ++ [.reader 0 .returned] =
          early ++ .reader 0 (.notified message true) :: (mid ++ late) ∧
        ((after true {} early).enabledStep (.reader 0 (.notified message true))).isSome = true ∧
        Settled true {} (early ++ .reader 0 (.notified message true) :: mid) := by
  have hreader : (after true {} sampleSignature).readers[0]? = some ⟨.joining 0, false⟩ := rfl
  have hstops : (after true {} (sampleSignature ++ [.reader 0 .returned])).readers[0]? =
    some ⟨.stopping, false⟩ := rfl
  exact ⟨rfl, joined_handled hreader (.inr ⟨0, rfl⟩) hstops⟩

end Runs

end SubscriptionHandle

end SolTrade.Subscription
