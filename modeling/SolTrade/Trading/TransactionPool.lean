import Mathlib.Data.Finset.Basic
import Mathlib.Data.Rat.Defs
import Mathlib.Algebra.Order.Ring.Rat
import SolTrade.Float
import SolTrade.Library.Heapq
import SolTrade.Library.Runs

/-!
The pool of pending transactions.

The heap, the sets and the table of the pool hold one object per transaction, so a
transaction is known by its id here and its record is kept in the table. Ids are handed out
in the order of the table, which never loses an entry. The clock is read whenever the pool
reads it, and may show anything.
-/

namespace SolTrade.Trading

open Library

inductive TransactionStatus where
  | queued
  | processing
  | submitted
  | confirmed
  | failed
  | expired
  | dropped
  deriving DecidableEq

structure PoolConfig where
  maxSize : ℤ := 10000
  defaultTtlMs : ℤ := 60000
  batchSize : ℤ := 10
  priorityLevels : ℤ := 5

structure PendingTransaction where
  transaction : List UInt8
  priority : ℤ
  status : TransactionStatus := .queued
  createdAt : ℚ
  expiresAt : ℚ
  submittedAt : Option ℚ := none
  confirmedAt : Option ℚ := none
  signature : Option String := none
  error : Option String := none
  attempts : ℕ := 0
  maxAttempts : ℕ := 3
  deriving DecidableEq

/-- A higher priority comes first, then an earlier creation. -/
def PendingTransaction.lt (a b : PendingTransaction) : Bool :=
  if a.priority ≠ b.priority then a.priority > b.priority else a.createdAt < b.createdAt

def PendingTransaction.isExpired (t : PendingTransaction) (now : ℚ) : Bool := now > t.expiresAt

/-- The record of a failure: until the attempts are used up the transaction is queued again. -/
def PendingTransaction.fail (t : PendingTransaction) (error : String) : PendingTransaction :=
  { t with
    status := if t.attempts + 1 < t.maxAttempts then .queued else .failed
    error := some error
    attempts := t.attempts + 1 }

structure PoolMetrics where
  queued : ℤ := 0
  submitted : ℤ := 0
  confirmed : ℤ := 0
  failed : ℤ := 0
  expired : ℤ := 0
  dropped : ℤ := 0
  deriving DecidableEq

structure TransactionPool where
  queue : List ℕ
  transactions : List PendingTransaction
  processing : Finset ℕ
  submitted : Finset ℕ
  confirmed : Finset ℕ
  failed : Finset ℕ
  metrics : PoolMetrics
  deriving DecidableEq

/-- `value or default`. -/
def orDefault (value : Option ℤ) (default : ℤ) : ℤ :=
  match value with
  | some n => if n = 0 then default else n
  | none => default

namespace TransactionPool

/-- A new pool. -/
def empty : TransactionPool := ⟨[], [], ∅, ∅, ∅, ∅, {}⟩

variable (config : PoolConfig) (pool : TransactionPool) (id : ℕ)

/-- The order of the heap. -/
def before (i j : ℕ) : Bool :=
  match pool.transactions[i]?, pool.transactions[j]? with
  | some a, some b => a.lt b
  | _, _ => false

def statusOf : Option TransactionStatus := pool.transactions[id]?.map (·.status)

def isExpired (now : ℚ) : Bool := (pool.transactions[id]?.map (·.isExpired now)).getD false

/-- The pool with the record of a transaction changed. -/
def modify (f : PendingTransaction → PendingTransaction) : TransactionPool :=
  { pool with transactions := pool.transactions.modify id f }

def setStatus (status : TransactionStatus) : TransactionPool :=
  pool.modify id fun t => { t with status }

def push : TransactionPool :=
  { pool with queue := Heapq.heappush pool.before pool.queue id }

/-- The first entry of the heap, and the pool without it. -/
def pop : Option (ℕ × TransactionPool) :=
  (Heapq.heappop pool.before pool.queue).map fun (id, queue) => (id, { pool with queue })

/-! ### Operations -/

/-- A transaction gets an id unless the pool is full. -/
def submit (transaction : List UInt8) (priority : ℤ) (ttlMs : Option ℤ) (now : ℚ) :
    Option ℕ × TransactionPool :=
  if pool.transactions.length ≥ config.maxSize then
    (none, { pool with metrics.dropped := pool.metrics.dropped + 1 })
  else
    let txId := pool.transactions.length
    let pending : PendingTransaction :=
      { transaction
        priority := min priority (config.priorityLevels - 1)
        createdAt := now
        expiresAt := toFloat (now + toFloat (orDefault ttlMs config.defaultTtlMs / 1000)) }
    let stored := { pool with
      transactions := pool.transactions ++ [pending]
      metrics.queued := pool.metrics.queued + 1 }
    (some txId, stored.push txId)

def cancel : Bool × TransactionPool :=
  if pool.statusOf id = some .queued ∨ pool.statusOf id = some .processing then
    (true, { pool.setStatus id .dropped with processing := pool.processing.erase id })
  else (false, pool)

/-- What a batch does with an entry that it has taken from the heap. -/
def handle (now : ℚ) (batch : List ℕ) : List ℕ × TransactionPool :=
  if pool.isExpired id now then
    (batch, { pool.setStatus id .expired with
      metrics.expired := pool.metrics.expired + 1 })
  else if pool.statusOf id = some .queued then
    (batch ++ [id], { pool.setStatus id .processing with processing := insert id pool.processing })
  else (batch, pool)

@[simp] theorem handle_queue (now : ℚ) (batch : List ℕ) :
    (pool.handle id now batch).2.queue = pool.queue := by
  unfold handle
  split
  · rfl
  · split <;> rfl

theorem length_queue_of_pop {pool rest : TransactionPool} {id : ℕ}
    (h : pool.pop = some (id, rest)) : rest.queue.length < pool.queue.length := by
  unfold pop at h
  obtain ⟨⟨first, queue⟩, hpop, h⟩ := Option.map_eq_some_iff.1 h
  cases h
  show queue.length < pool.queue.length
  rw [(Heapq.heappop_perm hpop).length_eq]
  exact Nat.lt_succ_self _

/-- The loop of `get_batch`. The clock is read for the `k`-th entry. -/
def batchLoop (size : ℤ) (readings : ℕ → ℚ) (pool : TransactionPool) (batch : List ℕ) (k : ℕ) :
    List ℕ × TransactionPool :=
  if batch.length < size then
    match h : pool.pop with
    | none => (batch, pool)
    | some (id, rest) =>
        let handled := rest.handle id (readings k) batch
        batchLoop size readings handled.2 handled.1 (k + 1)
  else (batch, pool)
  termination_by pool.queue.length
  decreasing_by
    rw [handle_queue]
    exact length_queue_of_pop h

section BatchLoop

variable {size : ℤ} {readings : ℕ → ℚ} {pool rest : TransactionPool} {batch : List ℕ} {id k : ℕ}

theorem batchLoop_of_full (h : ¬ batch.length < size) :
    batchLoop size readings pool batch k = (batch, pool) := by
  rw [batchLoop, if_neg h]

theorem batchLoop_of_empty (h : pool.pop = none) :
    batchLoop size readings pool batch k = (batch, pool) := by
  rw [batchLoop]
  split
  · split
    · rfl
    · rename_i hpop
      rw [h] at hpop
      contradiction
  · rfl

theorem batchLoop_of_pop (hsize : batch.length < size) (hpop : pool.pop = some (id, rest)) :
    batchLoop size readings pool batch k =
      batchLoop size readings (rest.handle id (readings k) batch).2
        (rest.handle id (readings k) batch).1 (k + 1) := by
  rw [batchLoop, if_pos hsize]
  split
  · rename_i hnone
    rw [hpop] at hnone
    contradiction
  · rename_i hpop'
    rw [hpop] at hpop'
    cases hpop'
    rfl

end BatchLoop

def getBatch (maxSize : Option ℤ) (readings : ℕ → ℚ) : List ℕ × TransactionPool :=
  batchLoop (orDefault maxSize config.batchSize) readings pool [] 0

/-- A mark changes nothing if there is no transaction of the id. -/
def markSubmitted (signature : String) (now : ℚ) : TransactionPool :=
  match pool.transactions[id]? with
  | none => pool
  | some _ =>
      { pool.modify id fun t => { t with
          status := .submitted, signature := some signature, submittedAt := some now } with
        processing := pool.processing.erase id
        submitted := insert id pool.submitted
        metrics.submitted := pool.metrics.submitted + 1
        metrics.queued := pool.metrics.queued - 1 }

def markConfirmed (now : ℚ) : TransactionPool :=
  match pool.transactions[id]? with
  | none => pool
  | some _ =>
      { pool.modify id fun t => { t with status := .confirmed, confirmedAt := some now } with
        submitted := pool.submitted.erase id
        confirmed := insert id pool.confirmed
        metrics.confirmed := pool.metrics.confirmed + 1 }

def markFailed (error : String) : TransactionPool :=
  match pool.transactions[id]? with
  | none => pool
  | some t =>
      let marked := { pool.modify id (·.fail error) with processing := pool.processing.erase id }
      if t.attempts + 1 < t.maxAttempts then marked.push id
      else
        { marked with
          submitted := pool.submitted.erase id
          failed := insert id pool.failed
          metrics.failed := pool.metrics.failed + 1
          metrics.queued := pool.metrics.queued - 1 }

def cleanUp : TransactionPool :=
  { pool.setStatus id .expired with
    metrics.expired := pool.metrics.expired + 1
    metrics.queued := pool.metrics.queued - 1 }

/-- The clock is read for each transaction of the table. -/
def cleanupExpired (readings : ℕ → ℚ) : TransactionPool :=
  let expired := (List.range pool.transactions.length).filter fun id =>
    pool.isExpired id (readings id) ∧ pool.statusOf id = some .queued
  expired.foldl cleanUp pool

end TransactionPool

/-! ### Runs -/

inductive PoolCall where
  | submit (transaction : List UInt8) (priority : ℤ) (ttlMs : Option ℤ) (now : ℚ)
  | getBatch (maxSize : Option ℤ) (readings : ℕ → ℚ)
  | cancel (id : ℕ)
  | markSubmitted (id : ℕ) (signature : String) (now : ℚ)
  | markConfirmed (id : ℕ) (now : ℚ)
  | markFailed (id : ℕ) (error : String)
  | cleanupExpired (readings : ℕ → ℚ)

namespace PoolCall

variable (config : PoolConfig) (pool : TransactionPool)

def apply : PoolCall → TransactionPool
  | submit transaction priority ttlMs now =>
      (pool.submit config transaction priority ttlMs now).2
  | getBatch maxSize readings => (pool.getBatch config maxSize readings).2
  | cancel id => (pool.cancel id).2
  | markSubmitted id signature now => pool.markSubmitted id signature now
  | markConfirmed id now => pool.markConfirmed id now
  | markFailed id error => pool.markFailed id error
  | cleanupExpired readings => pool.cleanupExpired readings

/-- The transactions that a call hands out. -/
def handedOut : PoolCall → List ℕ
  | getBatch maxSize readings => (pool.getBatch config maxSize readings).1
  | _ => []

end PoolCall

/-- The pool after some calls. -/
def TransactionPool.after (config : PoolConfig) (calls : List PoolCall) : TransactionPool :=
  Runs.run (PoolCall.apply config) .empty calls

end SolTrade.Trading
