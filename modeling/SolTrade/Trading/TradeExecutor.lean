import SolTrade.Trading.ParallelExecution
import SolTrade.Trading.SequentialExecution

/-!
The executor that submits transactions to its clients.

An execution is a run of its own, in parallel or in sequence, and the executor counts the
executions that have returned.
-/

namespace SolTrade.Trading

open Library

namespace Execution

/-! ### Runs of an execution -/

section

variable {x y : Execution} {T new : List Trace} {record : Option Record} {r : TradeResult}
  {options : ExecuteOptions} {clients : List SwqosType} {events later : List ExecutionEvent}
  {event : ExecutionEvent}

theorem Signed.left (h : Signed (T ++ new)) : Signed T := fun i signature hmem =>
  h i signature (List.mem_append_left _ hmem)

/-- What has been answered stays true. -/
theorem Returns.step (h : x.Returns T) (hmoves : x.Moves new y record)
    (hnone : x.outcome = none → y.Returns (T ++ new)) : y.Returns (T ++ new) := by
  cases houtcome : x.outcome with
  | none => exact hnone houtcome
  | some outcome =>
      intro r hr hsigned
      obtain rfl : outcome = .returned r := by
        rw [(hmoves.outcome_eq houtcome).1] at hr
        exact Option.some.inj hr
      obtain ⟨hanswer, hover⟩ := h r houtcome hsigned.left
      obtain ⟨hoptions, hclients, -⟩ := hmoves.frame
      rw [hoptions, hclients]
      cases hsuccess : r.success with
      | true =>
          obtain ⟨i, hmem, hconfirmed⟩ := hanswer.success hsuccess
          refine ⟨⟨fun _ => ⟨i, List.mem_append_left _ hmem, fun hwait =>
            List.mem_append_left _ (hconfirmed hwait)⟩, hanswer.error, fun hne => ?_,
            fun hempty => ?_⟩, fun hfailure => ?_⟩
          · obtain ⟨j, hj, htype⟩ := hanswer.acknowledged hne
            exact ⟨j, List.mem_append_left _ hj, htype⟩
          · exact absurd hempty (hsigned i _ (List.mem_append_left _ hmem))
          · cases hfailure
      | false =>
          have hne : x.outcome ≠ none := by
            rw [houtcome]
            exact Option.some_ne_none _
          obtain ⟨rfl, hlanes⟩ := hmoves.over hne (hover hsuccess)
          rw [List.append_nil, hlanes]
          exact ⟨hanswer, fun _ => hover hsuccess⟩

/-- What every execution keeps. -/
structure Sound (options : ExecuteOptions) (clients : List SwqosType) (x : Execution)
    (T : List Trace) : Prop where
  options_eq : x.options = options
  clients_eq : x.clients = clients
  kept : x.KeptFailed
  receipts : x.receipts = T.filterMap (Trace.receipt x.clients)

theorem Sound.step (h : Sound options clients x T) (hmoves : x.Moves new y record) :
    Sound options clients y (T ++ new) := by
  obtain ⟨hoptions, hclients, hreceipts⟩ := hmoves.frame
  refine ⟨hoptions.trans h.options_eq, hclients.trans h.clients_eq, (hmoves.recorded h.kept).1, ?_⟩
  rw [hreceipts, hclients, List.filterMap_append, h.receipts]

theorem after_concat : after options clients (events ++ [event]) =
    ((after options clients events).step event).1 := by
  rw [after, Runs.run_append]
  rfl

theorem history_concat : history options clients (events ++ [event]) =
    history options clients events ++ (after options clients events).traced event := by
  rw [history, Runs.emitted_append, Runs.emitted_singleton]
  rfl

theorem after_sound : Sound options clients (after options clients events)
    (history options clients events) := by
  induction events using List.reverseRecOn with
  | nil => exact ⟨rfl, rfl, fun r hr => absurd hr (Option.not_mem_none r), rfl⟩
  | append_singleton events event ih =>
      rw [after_concat, history_concat]
      exact ih.step (step_moves event)

theorem after_lanes (hmode : options.parallelSubmit = true) :
    (after options clients events).Lanes (history options clients events) ∧
      (after options clients events).Returns (history options clients events) := by
  induction events using List.reverseRecOn with
  | nil =>
      refine ⟨⟨hmode, .inl rfl, fun _ => ⟨rfl, rfl, rfl, rfl, rfl⟩, fun i lane hlane => ?_,
        fun t ht => absurd ht List.not_mem_nil, fun hparallel => ?_⟩, .of_none rfl⟩
      · cases hlane
      · cases hparallel
  | append_singleton events event ih =>
      rw [after_concat, history_concat]
      have hsound : Sound options clients (after options clients events)
        (history options clients events) := after_sound
      obtain ⟨hlanes, hreturns⟩ := ih.1.step hsound.kept hsound.receipts
        (step_moves event)
      exact ⟨hlanes, ih.2.step (step_moves event) hreturns⟩

theorem after_attempts (hmode : options.parallelSubmit = false)
    (hsigned : Signed (history options clients events)) :
    (after options clients events).Attempts (history options clients events) ∧
      (after options clients events).Returns (history options clients events) := by
  induction events using List.reverseRecOn with
  | nil =>
      refine ⟨⟨hmode, rfl, fun _ _ => rfl, fun _ _ _ _ hstage => ?_, fun _ _ hstage => ?_, ?_⟩,
        .of_none rfl⟩
      · cases hstage
      · cases hstage
      · exact ⟨Stage.noConfusion, fun _ => Stage.noConfusion⟩
  | append_singleton events event ih =>
      rw [history_concat] at hsigned
      rw [after_concat, history_concat]
      obtain ⟨hattempts, hreturns⟩ := ih hsigned.left
      have hsound : Sound options clients (after options clients events)
        (history options clients events) := after_sound
      obtain ⟨hattempts', hreturns'⟩ := hattempts.step hsound.receipts hsigned
        (step_moves event)
      exact ⟨hattempts', hreturns.step (step_moves event) hreturns'⟩

/-- One client cannot be reached, and the other acknowledges a transaction that is not confirmed. -/
def unconfirmedEvents : List ExecutionEvent :=
  [.limiterPassed, .lane 0 .sends, .lane 1 .sends, .lane 1 (.failed "Cannot connect to host"),
    .lane 0 (.acknowledged "5VERv8NMvzbJ"),
    .lane 0 (.unconfirmed "Transaction confirmation timed out after 30000ms"), .collect, .collect]

theorem Attempts.rounds (h : x.Attempts T) (hsound : Sound options clients x T)
    (hrounds : InRounds options clients T) (hmoves : x.Moves new y record) :
    InRounds options clients (T ++ new) := by
  cases hmoves with
  | lane _ _ _ _ _ hfuture =>
      rw [h.futures] at hfuture
      cases hfuture
  | attempts retry index current swqosType event lane houtcome hstage hclient hstep =>
      obtain ⟨hretry, -, earlier, now, rfl, hearlier, hpast⟩ :=
        h.current retry index current houtcome hstage
      rw [hclient] at hpast
      have hnow := hpast.step hstep
      rw [← hclient] at hnow
      rw [hsound.clients_eq] at hearlier hclient hnow
      rw [hsound.options_eq] at hretry hnow
      rw [List.append_assoc]
      exact .of_past hearlier (List.getElem?_eq_some_iff.1 hclient).1 hretry hnow
  | _ =>
      rw [List.append_nil]
      exact hrounds

theorem history_rounds (hmode : options.parallelSubmit = false)
    (hsigned : Signed (history options clients events)) :
    InRounds options clients (history options clients events) := by
  induction events using List.reverseRecOn with
  | nil =>
      exact ⟨[], [], rfl, fun t ht => absurd ht List.not_mem_nil, ⟨0, "", List.nil_prefix⟩,
        List.nil_sublist _⟩
  | append_singleton events event ih =>
      rw [history_concat] at hsigned ⊢
      exact (after_attempts hmode hsigned.left).1.rounds after_sound (ih hsigned.left)
        (step_moves event)

/-- In parallel every client is sent the transaction at most once. In sequence the clients are sent
it in rounds, as often as there are retries, and no client is once one has acknowledged it. -/
theorem execution_sends (options : ExecuteOptions) (clients : List SwqosType)
    (events : List ExecutionEvent) :
    (options.parallelSubmit = true → ∀ i, ∃ signature,
      (history options clients events).filter (fun t => t.client = i) <+:
        [.sent i, .acknowledged i signature, .confirmed i signature]) ∧
    (options.parallelSubmit = false → Signed (history options clients events) →
      InRounds options clients (history options clients events)) := by
  refine ⟨fun hmode i => ?_, history_rounds⟩
  have hlanes : (after options clients events).Lanes (history options clients events) :=
    (after_lanes hmode).1
  cases hlane : (after options clients events).lanes[i]? with
  | some lane => exact (hlanes.past i lane hlane).ordered
  | none =>
      refine ⟨"", ?_⟩
      have hle := List.getElem?_eq_none_iff.1 hlane
      have hnone : (history options clients events).filter (fun t => t.client = i) = [] := by
        rw [List.filter_eq_nil_iff]
        intro t ht heq
        have hlt := hlanes.bounded t ht
        rw [of_decide_eq_true heq] at hlt
        omega
      rw [hnone]
      exact List.nil_prefix

/-- After a round in which both clients fail, the second one acknowledges the transaction. -/
def secondRoundEvents : List ExecutionEvent :=
  [.limiterPassed, .attempt .sends, .attempt (.failed "Cannot connect to host"), .attempt .sends,
    .attempt (.failed "HTTP 503"), .delayElapsed, .attempt .sends,
    .attempt (.failed "Cannot connect to host"), .attempt .sends,
    .attempt (.acknowledged "5VERv8NMvzbJ"), .attempt .confirmed]

theorem execution_sends_secondRound :
    (∀ i, ∃ signature, (history {} [.jito, .default] unconfirmedEvents).filter
      (fun t => t.client = i) <+: [.sent i, .acknowledged i signature, .confirmed i signature]) ∧
    InRounds { parallelSubmit := false } [.jito, .default]
      (history { parallelSubmit := false } [.jito, .default] secondRoundEvents) := by
  refine ⟨(execution_sends {} _ unconfirmedEvents).1 rfl,
    (execution_sends { parallelSubmit := false } _ secondRoundEvents).2 rfl ?_⟩
  have hhistory : history { parallelSubmit := false } [.jito, .default] secondRoundEvents =
      [.sent 0, .sent 1, .sent 0, .sent 1, .acknowledged 1 "5VERv8NMvzbJ",
        .confirmed 1 "5VERv8NMvzbJ"] := by decide +kernel
  rw [hhistory]
  intro i signature hmem
  simp at hmem
  simp [hmem.2]

end

end Execution

/-! ### The executor -/

/-- `_clients` by their types, the calls of `execute`, and the metrics. -/
structure TradeExecutor where
  clients : List SwqosType
  executions : List Execution := []
  totalTrades : ℕ := 0
  successfulTrades : ℕ := 0
  failedTrades : ℕ := 0

namespace TradeExecutor

/-- What happens at an executor. -/
inductive Action where
  | addClient (swqosType : SwqosType)
  | removeClient (swqosType : SwqosType)
  | execute (options : ExecuteOptions)
  | execution (i : ℕ) (event : ExecutionEvent)
  | close
  deriving DecidableEq

/-- A new client replaces the one of its type, and there is a default client with any other. -/
def addClient (self : TradeExecutor) (swqosType : SwqosType) : TradeExecutor :=
  let clients :=
    if swqosType ∈ self.clients then self.clients else self.clients ++ [swqosType]
  { self with
    clients :=
      if swqosType ≠ .default ∧ .default ∉ clients then clients ++ [.default] else clients }

def removeClient (self : TradeExecutor) (swqosType : SwqosType) : TradeExecutor :=
  { self with clients := self.clients.filter (· ≠ swqosType) }

def noClients : TradeResult where
  signature := ""
  success := false
  error := some "No SWQOS clients configured"

def execute (self : TradeExecutor) (options : ExecuteOptions) : TradeExecutor :=
  { self with
    executions := self.executions ++
      [if self.clients = [] then
        { options, clients := [], outcome := some (.returned noClients) }
      else { options, clients := self.clients }] }

def record (self : TradeExecutor) : Option Record → TradeExecutor
  | some .success =>
      { self with
        totalTrades := self.totalTrades + 1
        successfulTrades := self.successfulTrades + 1 }
  | some .failure =>
      { self with
        totalTrades := self.totalTrades + 1
        failedTrades := self.failedTrades + 1 }
  | none => self

def step (self : TradeExecutor) : Action → TradeExecutor
  | .addClient swqosType => self.addClient swqosType
  | .removeClient swqosType => self.removeClient swqosType
  | .execute options => self.execute options
  | .execution i event =>
      match self.executions[i]? with
      | some execution =>
          { self with executions := self.executions.set i (execution.step event).1 }.record
            (execution.step event).2
      | none => self
  | .close =>
      { self with executions := self.executions.map fun execution => (execution.step .closed).1 }

/-- The executor after a run. -/
def after (clients : List SwqosType) (actions : List Action) : TradeExecutor :=
  Runs.run step { clients } actions

/-- How a call of `execute` is recorded. -/
def recordOf (execution : Execution) : Option Record :=
  if execution.clients = [] then none else execution.outcome.bind Outcome.record

/-- An execution without clients has returned, and any other is at some point of a run. -/
def OfRun (execution : Execution) : Prop :=
  (∃ options, execution = { options, clients := [], outcome := some (.returned noClients) }) ∨
    ∃ options clients events, clients ≠ [] ∧ execution = Execution.after options clients events

/-- The metrics count the executions by how they have returned. -/
structure Accounted (s : TradeExecutor) : Prop where
  ofRun : ∀ execution ∈ s.executions, OfRun execution
  total : s.totalTrades = s.successfulTrades + s.failedTrades
  successful : s.successfulTrades =
    s.executions.countP fun execution => recordOf execution = some .success
  failed : s.failedTrades =
    s.executions.countP fun execution => recordOf execution = some .failure

section

variable {s : TradeExecutor} {execution : Execution} {event : ExecutionEvent} {i : ℕ}
  {action : Action}

theorem OfRun.step (h : OfRun execution) (event : ExecutionEvent) :
    OfRun (execution.step event).1 := by
  rcases h with ⟨options, rfl⟩ | ⟨options, clients, events, hne, rfl⟩
  · left
    refine ⟨options, ?_⟩
    cases event <;> rfl
  · right
    exact ⟨options, clients, events ++ [event], hne, Execution.after_concat.symm⟩

/-- A step records an execution when it returns, and never again. -/
theorem OfRun.record (h : OfRun execution) (event : ExecutionEvent) :
    (execution.step event).2 = none ∧ recordOf (execution.step event).1 = recordOf execution ∨
      recordOf execution = none ∧
        recordOf (execution.step event).1 = (execution.step event).2 := by
  rcases h with ⟨options, rfl⟩ | ⟨options, clients, events, hne, rfl⟩
  · left
    cases event <;> exact ⟨rfl, rfl⟩
  · have hsound : Execution.Sound options clients (Execution.after options clients events)
      (Execution.history options clients events) := Execution.after_sound
    have hmoves := Execution.step_moves (x := Execution.after options clients events) event
    have hclients := hsound.clients_eq
    have hclients' := (hsound.step hmoves).clients_eq
    rw [recordOf, recordOf, hclients, hclients', if_neg hne, if_neg hne]
    cases houtcome : (Execution.after options clients events).outcome with
    | none => exact .inr ⟨rfl, ((hmoves.recorded hsound.kept).2 houtcome).symm⟩
    | some outcome =>
        obtain ⟨hsame, hrecord⟩ := hmoves.outcome_eq houtcome
        exact .inl ⟨hrecord, by rw [hsame]⟩

/-- The count of a record after one execution has moved on. -/
theorem countP_set_record {record : Option Record} {y : Execution} {kind : Record}
    (hget : s.executions[i]? = some execution)
    (h : record = none ∧ recordOf y = recordOf execution ∨
      recordOf execution = none ∧ recordOf y = record) :
    (s.executions.set i y).countP (fun x => recordOf x = some kind) =
      s.executions.countP (fun x => recordOf x = some kind) +
        if record = some kind then 1 else 0 := by
  obtain ⟨hlt, rfl⟩ := List.getElem?_eq_some_iff.1 hget
  have hle : (if recordOf s.executions[i] = some kind then 1 else 0) ≤
      s.executions.countP (fun x => recordOf x = some kind) := by
    split
    · rename_i heq
      exact List.countP_pos_iff.2 ⟨_, List.getElem_mem hlt, decide_eq_true heq⟩
    · exact Nat.zero_le _
  rw [List.countP_set hlt]
  simp only [decide_eq_true_eq]
  rcases h with ⟨rfl, hsame⟩ | ⟨hnone, hnew⟩
  · rw [hsame, if_neg (show ¬ none = some kind from Option.some_ne_none kind ∘ Eq.symm)]
    omega
  · rw [hnone, hnew, if_neg (show ¬ none = some kind from Option.some_ne_none kind ∘ Eq.symm)]
    omega

theorem Accounted.step (h : s.Accounted) : (s.step action).Accounted := by
  cases action with
  | addClient | removeClient => exact ⟨h.ofRun, h.total, h.successful, h.failed⟩
  | execute options =>
      have hnew : ∀ kind, recordOf (if s.clients = [] then
          { options, clients := [], outcome := some (.returned noClients) }
          else { options, clients := s.clients }) ≠ some kind := by
        intro kind
        unfold recordOf
        split <;> simp_all
      have hofRun : OfRun (if s.clients = [] then
          { options, clients := [], outcome := some (.returned noClients) }
          else { options, clients := s.clients }) := by
        split
        · exact .inl ⟨options, rfl⟩
        · exact .inr ⟨options, s.clients, [], ‹_›, rfl⟩
      refine ⟨?_, h.total, ?_, ?_⟩
      · show ∀ execution ∈ s.executions ++ [_], OfRun execution
        rw [List.forall_mem_append, List.forall_mem_singleton]
        exact ⟨h.ofRun, hofRun⟩
      · show s.successfulTrades = (s.executions ++ [_]).countP _
        rw [List.countP_append, List.countP_singleton, decide_eq_false (hnew _)]
        exact h.successful
      · show s.failedTrades = (s.executions ++ [_]).countP _
        rw [List.countP_append, List.countP_singleton, decide_eq_false (hnew _)]
        exact h.failed
  | execution i event =>
      rw [TradeExecutor.step]
      split
      · rename_i execution hget
        have hold := h.ofRun execution (List.mem_of_getElem? hget)
        have hruns : ∀ x ∈ s.executions.set i (execution.step event).1, OfRun x := by
          intro x hx
          rcases List.mem_or_eq_of_mem_set hx with hmem | rfl
          · exact h.ofRun x hmem
          · exact hold.step event
        have hcount : ∀ kind, (s.executions.set i (execution.step event).1).countP
            (fun x => recordOf x = some kind) =
              s.executions.countP (fun x => recordOf x = some kind) +
                if (execution.step event).2 = some kind then 1 else 0 :=
          fun kind => countP_set_record hget (hold.record event)
        have htotal := h.total
        have hsuccessful := h.successful
        have hfailed := h.failed
        cases hrecord : (execution.step event).2 with
        | none =>
            refine ⟨hruns, htotal, ?_, ?_⟩
            · show s.successfulTrades = _
              simp only [record, hcount, hrecord]
              simpa using hsuccessful
            · show s.failedTrades = _
              simp only [record, hcount, hrecord]
              simpa using hfailed
        | some kind =>
            cases kind with
            | success =>
                refine ⟨hruns, ?_, ?_, ?_⟩
                · show s.totalTrades + 1 = s.successfulTrades + 1 + s.failedTrades
                  omega
                · show s.successfulTrades + 1 = _
                  simp only [record, hcount, hrecord]
                  simpa using hsuccessful
                · show s.failedTrades = _
                  simp only [record, hcount, hrecord]
                  simpa using hfailed
            | failure =>
                refine ⟨hruns, ?_, ?_, ?_⟩
                · show s.totalTrades + 1 = s.successfulTrades + (s.failedTrades + 1)
                  omega
                · show s.successfulTrades = _
                  simp only [record, hcount, hrecord]
                  simpa using hsuccessful
                · show s.failedTrades + 1 = _
                  simp only [record, hcount, hrecord]
                  simpa using hfailed
      · exact h
  | close =>
      have hrecord : ∀ execution ∈ s.executions,
          recordOf (execution.step .closed).1 = recordOf execution := by
        intro execution hmem
        rcases (h.ofRun execution hmem).record .closed with ⟨-, hsame⟩ | ⟨hnone, hnew⟩
        · exact hsame
        · rw [hnone, hnew]
          rfl
      have hcount : ∀ kind, (s.executions.map fun execution => (execution.step .closed).1).countP
          (fun x => recordOf x = some kind) =
            s.executions.countP fun x => recordOf x = some kind := by
        intro kind
        rw [List.countP_map]
        refine List.countP_congr fun execution hmem => ?_
        rw [Function.comp_apply, hrecord execution hmem]
      refine ⟨?_, h.total, ?_, ?_⟩
      · show ∀ execution ∈ s.executions.map _, OfRun execution
        rw [List.forall_mem_map]
        exact fun execution hmem => (h.ofRun execution hmem).step .closed
      · exact h.successful.trans (hcount .success).symm
      · exact h.failed.trans (hcount .failure).symm

/-- However the executions interleave, each of them goes through a run of its own, and the metrics
count those that have returned, each once, by whether they have succeeded. -/
theorem trades_accounted (clients : List SwqosType) (actions : List Action) :
    (after clients actions).Accounted :=
  Library.Runs.run_invariant (fun _ _ h => h.step)
    ⟨fun _ hmem => absurd hmem List.not_mem_nil, rfl, rfl, rfl⟩

end

end TradeExecutor

end SolTrade.Trading
