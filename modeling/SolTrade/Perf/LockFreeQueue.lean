import Mathlib.Data.List.Basic
import SolTrade.Library.Runs

/-!
The bounded queue between threads.

Every section under the lock is one step. A thread that waits gives the lock up, so other threads
enter between its notification and its return from `wait`.
-/

namespace SolTrade.Perf

open Library

variable {α K : Type}

/-! ### Condition variables -/

/-- What has happened to a thread inside `wait`. Its timeout may expire before it has the lock
back, and a notification that comes then is lost on it. -/
inductive Phase where
  | waiting
  | notified
  | expired
  | missed
  deriving DecidableEq

structure Waiter (K : Type) where
  call : K
  timed : Bool
  phase : Phase
  deriving DecidableEq

/-- A condition variable: the threads inside `wait`, in the order in which they came. -/
abbrev Condition (K : Type) := List (Waiter K)

namespace Condition

def wait (condition : Condition K) (call : K) (timed : Bool) : Condition K :=
  condition ++ [⟨call, timed, .waiting⟩]

/-- Wakes the first thread that has not been notified. -/
def notify : Condition K → Condition K
  | [] => []
  | waiter :: rest =>
      match waiter.phase with
      | .waiting => { waiter with phase := .notified } :: rest
      | .expired => { waiter with phase := .missed } :: rest
      | .notified | .missed => waiter :: notify rest

/-- The timeout of the `i`-th thread. -/
def expire (condition : Condition K) (i : ℕ) : Condition K :=
  condition.modify i fun waiter =>
    if waiter.timed ∧ waiter.phase = .waiting then { waiter with phase := .expired } else waiter

/-- The call of the `i`-th thread when it has the lock back, and what `wait` returns to it. -/
def resumed (condition : Condition K) (i : ℕ) : Option (K × Bool) :=
  match condition[i]? with
  | none => none
  | some waiter =>
      match waiter.phase with
      | .waiting => none
      | .notified => some (waiter.call, true)
      | .expired | .missed => some (waiter.call, false)

end Condition

/-! ### The queue -/

inductive GetError where
  | queueEmpty
  | timeout
  | indexError
  deriving DecidableEq

def GetError.text : GetError → String
  | queueEmpty => "Queue empty"
  | timeout => "Timeout"
  | indexError => "pop from an empty deque"

/-- What a call has come to. -/
inductive Outcome (α : Type) where
  | accepted (item : α)
  | refused (item : α)
  | returned (item : α)
  | raised (e : GetError)
  deriving DecidableEq

def Outcome.acceptedItem : Outcome α → Option α
  | accepted item => some item
  | _ => none

def Outcome.returnedItem : Outcome α → Option α
  | returned item => some item
  | _ => none

structure LockFreeQueue (α : Type) where
  maxsize : ℕ
  queue : List α
  notEmpty : Condition Unit
  notFull : Condition α
  /-- What the calls have come to, in the order of their last sections under the lock. -/
  outcomes : List (Outcome α)
  deriving DecidableEq

/-- `append` to a deque of bounded length, which drops the oldest item of a full one. -/
def dequeAppend (maxlen : ℕ) (queue : List α) (item : α) : List α :=
  let longer := queue ++ [item]
  if longer.length > maxlen then longer.tail else longer

namespace LockFreeQueue

def init (maxsize : ℕ) : LockFreeQueue α := ⟨maxsize, [], [], [], []⟩

variable (q : LockFreeQueue α)

def ends (outcome : Outcome α) : LockFreeQueue α := { q with outcomes := q.outcomes ++ [outcome] }

/-- The end of `put`. -/
def append (item : α) : LockFreeQueue α :=
  { q with
    queue := dequeAppend q.maxsize q.queue item
    notEmpty := q.notEmpty.notify }.ends (.accepted item)

/-- The end of `get`. -/
def popleft : LockFreeQueue α :=
  match q.queue with
  | [] => q.ends (.raised .indexError)
  | item :: rest =>
      { q with queue := rest, notFull := q.notFull.notify }.ends (.returned item)

/-- `put`, up to its wait. -/
def put (item : α) (block timed : Bool) : LockFreeQueue α :=
  if q.queue.length ≥ q.maxsize then
    if !block then q.ends (.refused item)
    else { q with notFull := q.notFull.wait item timed }
  else q.append item

/-- `put` after its wait. The length is not looked at again. -/
def putResumes (i : ℕ) : LockFreeQueue α :=
  match q.notFull.resumed i with
  | none => q
  | some (item, gotit) =>
      let left := { q with notFull := q.notFull.eraseIdx i }
      if !gotit then left.ends (.refused item) else left.append item

/-- `get`, up to its wait. -/
def get (block timed : Bool) : LockFreeQueue α :=
  if q.queue = [] then
    if !block then q.ends (.raised .queueEmpty)
    else { q with notEmpty := q.notEmpty.wait () timed }
  else q.popleft

/-- `get` after its wait. -/
def getResumes (i : ℕ) : LockFreeQueue α :=
  match q.notEmpty.resumed i with
  | none => q
  | some (_, gotit) =>
      let left := { q with notEmpty := q.notEmpty.eraseIdx i }
      if !gotit then left.ends (.raised .timeout) else left.popleft

end LockFreeQueue

/-! ### Runs -/

/-- One section under the lock, or a timeout. -/
inductive QueueStep (α : Type) where
  | put (item : α) (block timed : Bool)
  | get (block timed : Bool)
  | putExpires (i : ℕ)
  | getExpires (i : ℕ)
  | putResumes (i : ℕ)
  | getResumes (i : ℕ)
  deriving DecidableEq

namespace LockFreeQueue

def apply (q : LockFreeQueue α) : QueueStep α → LockFreeQueue α
  | .put item block timed => q.put item block timed
  | .get block timed => q.get block timed
  | .putExpires i => { q with notFull := q.notFull.expire i }
  | .getExpires i => { q with notEmpty := q.notEmpty.expire i }
  | .putResumes i => q.putResumes i
  | .getResumes i => q.getResumes i

/-- The queue after some steps of any number of threads. -/
def after (maxsize : ℕ) (steps : List (QueueStep α)) : LockFreeQueue α :=
  Runs.run apply (init maxsize) steps

/-- The items whose `put` returned `True`, in the order in which they were accepted. -/
def accepted (q : LockFreeQueue α) : List α := q.outcomes.filterMap Outcome.acceptedItem

/-- The items that `get` has returned, in order. -/
def returned (q : LockFreeQueue α) : List α := q.outcomes.filterMap Outcome.returnedItem

/-- A first-in first-out queue: what it has returned is the beginning of what it has accepted,
and it holds the rest. -/
structure Fifo (q : LockFreeQueue α) : Prop where
  ordered : q.returned <+: q.accepted
  lossless : q.queue = q.accepted.drop q.returned.length
  bounded : q.queue.length ≤ q.maxsize
  documented : .raised .indexError ∉ q.outcomes

/-- A thread that returns from `wait` because it was notified finds what it has waited for. -/
def Meets (q : LockFreeQueue α) : QueueStep α → Prop
  | .putResumes i => ∀ item, q.notFull.resumed i = some (item, true) → q.queue.length < q.maxsize
  | .getResumes i => q.notEmpty.resumed i = some ((), true) → q.queue ≠ []
  | _ => True

/-! ### One step -/

variable {q : LockFreeQueue α} {outcome : Outcome α}

@[simp] theorem accepted_ends :
    (q.ends outcome).accepted = q.accepted ++ outcome.acceptedItem.toList := by
  cases outcome <;> simp [ends, accepted, Outcome.acceptedItem]

@[simp] theorem returned_ends :
    (q.ends outcome).returned = q.returned ++ outcome.returnedItem.toList := by
  cases outcome <;> simp [ends, returned, Outcome.returnedItem]

theorem fifo_iff : q.Fifo ↔ q.accepted = q.returned ++ q.queue ∧ q.queue.length ≤ q.maxsize ∧
    .raised .indexError ∉ q.outcomes := by
  constructor
  · rintro ⟨⟨rest, hrest⟩, hlossless, hbounded, hdocumented⟩
    refine ⟨?_, hbounded, hdocumented⟩
    rw [hlossless, ← hrest, List.drop_left]
  · rintro ⟨haccepted, hbounded, hdocumented⟩
    refine ⟨⟨q.queue, haccepted.symm⟩, ?_, hbounded, hdocumented⟩
    rw [haccepted, List.drop_left]

theorem fifo_init (maxsize : ℕ) : (init maxsize : LockFreeQueue α).Fifo :=
  fifo_iff.2 ⟨rfl, Nat.zero_le _, List.not_mem_nil⟩

/-- The invariant does not speak of the threads that wait. -/
theorem fifo_congr {notEmpty : Condition Unit} {notFull : Condition α} :
    ({ q with notEmpty := notEmpty, notFull := notFull } : LockFreeQueue α).Fifo ↔ q.Fifo :=
  ⟨fun h => ⟨h.1, h.2, h.3, h.4⟩, fun h => ⟨h.1, h.2, h.3, h.4⟩⟩

/-- A call that ends without an item changes nothing that the invariant speaks of. -/
theorem fifo_ends_iff (haccepted : outcome.acceptedItem = none)
    (hreturned : outcome.returnedItem = none) :
    (q.ends outcome).Fifo ↔ q.Fifo ∧ outcome ≠ .raised .indexError := by
  have hqueue : (q.ends outcome).queue = q.queue := rfl
  have hmaxsize : (q.ends outcome).maxsize = q.maxsize := rfl
  have houtcomes : (q.ends outcome).outcomes = q.outcomes ++ [outcome] := rfl
  rw [fifo_iff, fifo_iff, accepted_ends, returned_ends, haccepted, hreturned, hqueue, hmaxsize,
    houtcomes]
  simp [eq_comm, and_assoc]

theorem dequeAppend_of_lt {maxlen : ℕ} {queue : List α} {item : α} (h : queue.length < maxlen) :
    dequeAppend maxlen queue item = queue ++ [item] := by
  apply if_neg
  rw [List.length_append, List.length_singleton]
  omega

theorem length_dequeAppend {maxlen : ℕ} {queue : List α} {item : α} (h : queue.length = maxlen) :
    (dequeAppend maxlen queue item).length = maxlen := by
  unfold dequeAppend
  simp [h]

/-- Appending keeps the invariant if and only if there is room. -/
theorem fifo_append_iff (h : q.Fifo) (item : α) :
    (q.append item).Fifo ↔ q.queue.length < q.maxsize := by
  obtain ⟨haccepted, hbounded, hdocumented⟩ := fifo_iff.1 h
  have hitems : (q.append item).accepted = q.accepted ++ [item] := accepted_ends
  have hreturned : (q.append item).returned = q.returned :=
    returned_ends.trans (List.append_nil _)
  have hqueue : (q.append item).queue = dequeAppend q.maxsize q.queue item := rfl
  constructor
  · intro hnext
    have hlossless := (fifo_iff.1 hnext).1
    rw [hitems, hreturned, hqueue, haccepted, List.append_assoc] at hlossless
    have hsame := congrArg List.length (List.append_cancel_left hlossless)
    by_contra hfull
    rw [length_dequeAppend (by omega), List.length_append, List.length_singleton] at hsame
    omega
  · intro hroom
    rw [dequeAppend_of_lt hroom] at hqueue
    refine fifo_iff.2 ⟨?_, ?_, ?_⟩
    · rw [hitems, hreturned, hqueue, haccepted, List.append_assoc]
    · show (q.append item).queue.length ≤ q.maxsize
      rw [hqueue, List.length_append, List.length_singleton]
      exact hroom
    · show _ ∉ q.outcomes ++ [_]
      simpa using hdocumented

/-- Taking the oldest item keeps the invariant if and only if there is one. -/
theorem fifo_popleft_iff (h : q.Fifo) : q.popleft.Fifo ↔ q.queue ≠ [] := by
  obtain ⟨haccepted, hbounded, hdocumented⟩ := fifo_iff.1 h
  unfold popleft
  cases hqueue : q.queue with
  | nil =>
      apply iff_of_false
      · intro hnext
        exact ((fifo_ends_iff rfl rfl).1 hnext).2 rfl
      · exact fun hne => hne rfl
  | cons item rest =>
      rw [hqueue] at haccepted hbounded
      apply iff_of_true
      · refine fifo_iff.2 ⟨?_, ?_, ?_⟩
        · rw [accepted_ends, returned_ends]
          show q.accepted ++ [] = (q.returned ++ [item]) ++ rest
          rw [List.append_nil, haccepted, List.append_assoc, List.singleton_append]
        · show rest.length ≤ q.maxsize
          exact (Nat.le_succ _).trans hbounded
        · show _ ∉ q.outcomes ++ [_]
          simpa using hdocumented
      · exact List.cons_ne_nil item rest

/-- A call that ends without an item keeps the invariant. -/
theorem Fifo.refuses (h : q.Fifo) (item : α) : (q.ends (.refused item)).Fifo :=
  (fifo_ends_iff rfl rfl).2 ⟨h, by simp⟩

theorem Fifo.raises (h : q.Fifo) {e : GetError} (he : e ≠ .indexError) :
    (q.ends (.raised e)).Fifo :=
  (fifo_ends_iff rfl rfl).2 ⟨h, by simpa using he⟩

theorem Fifo.put (h : q.Fifo) (item : α) (block timed : Bool) : (q.put item block timed).Fifo := by
  unfold LockFreeQueue.put
  split_ifs with hfull hblock
  · exact h.refuses item
  · exact fifo_congr.2 h
  · exact (fifo_append_iff h item).2 (not_le.1 hfull)

theorem Fifo.get (h : q.Fifo) (block timed : Bool) : (q.get block timed).Fifo := by
  unfold LockFreeQueue.get
  split_ifs with hempty hblock
  · exact h.raises (by decide)
  · exact fifo_congr.2 h
  · exact (fifo_popleft_iff h).2 hempty

theorem fifo_putResumes_iff (h : q.Fifo) (i : ℕ) :
    (q.putResumes i).Fifo ↔ q.Meets (.putResumes i) := by
  unfold LockFreeQueue.putResumes Meets
  have hleft : ({ q with notFull := q.notFull.eraseIdx i } : LockFreeQueue α).Fifo :=
    fifo_congr.2 h
  rcases hresumed : q.notFull.resumed i with _ | ⟨item, _ | _⟩
  · simp [hresumed, h]
  · simp [hresumed, hleft.refuses item]
  · have happend := fifo_append_iff hleft item
    simpa [hresumed] using happend

theorem fifo_getResumes_iff (h : q.Fifo) (i : ℕ) :
    (q.getResumes i).Fifo ↔ q.Meets (.getResumes i) := by
  unfold LockFreeQueue.getResumes Meets
  have hleft : ({ q with notEmpty := q.notEmpty.eraseIdx i } : LockFreeQueue α).Fifo :=
    fifo_congr.2 h
  rcases hresumed : q.notEmpty.resumed i with _ | ⟨_, _ | _⟩
  · simp [hresumed, h]
  · simp [hresumed, hleft.raises (e := .timeout) (by decide)]
  · have hpopleft := fifo_popleft_iff hleft
    simpa [hresumed] using hpopleft

/-- One step: it keeps the invariant if and only if it meets the condition. -/
theorem meets_iff (h : q.Fifo) (step : QueueStep α) : q.Meets step ↔ (q.apply step).Fifo := by
  cases step with
  | put item block timed => exact iff_of_true trivial (h.put item block timed)
  | get block timed => exact iff_of_true trivial (h.get block timed)
  | putExpires i | getExpires i => exact iff_of_true trivial (fifo_congr.2 h)
  | putResumes i => exact (fifo_putResumes_iff h i).symm
  | getResumes i => exact (fifo_getResumes_iff h i).symm

/-! ### Runs -/

/-- The queue is first-in first-out in every state that the run reaches. -/
def StaysFifo (maxsize : ℕ) (steps : List (QueueStep α)) : Prop :=
  ∀ pre post, steps = pre ++ post → (after maxsize pre).Fifo

theorem staysFifo_iff (maxsize : ℕ) (steps : List (QueueStep α)) :
    StaysFifo maxsize steps ↔
      ∀ pre step post, steps = pre ++ step :: post → (after maxsize pre).Meets step :=
  Runs.always_iff (fifo_init maxsize) fun _ step h => meets_iff h step

/-- A producer waits at a queue of size one. It is notified, and another producer enters before it
has the lock back. -/
def putOvertaken : List (QueueStep ℕ) :=
  [.put 1 true false, .put 2 true false, .get true false, .put 3 true false, .putResumes 0,
    .get true false]

/-- A consumer waits at an empty queue. It is notified, and another consumer takes the item. -/
def getOvertaken : List (QueueStep ℕ) :=
  [.get true false, .put 1 true false, .get false false, .getResumes 0]

/-- The item that the other producer put is lost, and the consumer fails with an `IndexError`. -/
theorem overtaken_not_fifo :
    (after 1 putOvertaken).accepted = [1, 3, 2] ∧ (after 1 putOvertaken).returned = [1, 2] ∧
      (after 1 getOvertaken).outcomes = [.accepted 1, .returned 1, .raised .indexError] ∧
      ¬ StaysFifo 1 putOvertaken ∧ ¬ StaysFifo 1 getOvertaken := by
  refine ⟨by rfl, by rfl, by rfl, fun h => ?_, fun h => ?_⟩
  · have hordered := (h putOvertaken [] rfl).ordered
    exact absurd hordered (by decide)
  · have hdocumented := (h getOvertaken [] rfl).documented
    exact absurd hdocumented (by decide)

end LockFreeQueue

end SolTrade.Perf
