import SolTrade.Trading.TransactionPool

/-!
What becomes of a transaction that has ended.

A transaction has ended once it is confirmed, expired, dropped by a cancel or failed for the
last time. The marks do not ask for that, and a batch that meets the entry of an ended
transaction in the heap asks the clock first. So a run keeps what has ended if and only if
these cases do not come up in it.
-/

namespace SolTrade.Trading

open Library

/-- A transaction of the status is not to be touched any more. -/
def TransactionStatus.Ended (status : TransactionStatus) : Prop :=
  status ∈ [confirmed, failed, expired, dropped]

instance : DecidablePred TransactionStatus.Ended := fun _ => inferInstanceAs (Decidable (_ ∈ _))

namespace TransactionPool

variable {config : PoolConfig} {pool rest : TransactionPool} {id k : ℕ} {status : TransactionStatus}
  {now : ℚ} {batch : List ℕ}

def Ended (pool : TransactionPool) (id : ℕ) : Prop :=
  ∃ status, pool.statusOf id = some status ∧ status.Ended

/-! ### Statuses under the operations -/

theorem statusOf_modify (f : PendingTransaction → PendingTransaction) :
    (pool.modify id f).statusOf k =
      if id = k then pool.transactions[k]?.map fun t => (f t).status else pool.statusOf k := by
  unfold modify statusOf
  dsimp only
  rw [List.getElem?_modify]
  split
  · simp [Function.comp_def]
  · simp

theorem statusOf_modify_const {f : PendingTransaction → PendingTransaction}
    (hf : ∀ t, (f t).status = status) : (pool.modify id f).statusOf k =
      if id = k then (pool.statusOf k).map fun _ => status else pool.statusOf k := by
  rw [statusOf_modify]
  split
  · simp [statusOf, hf, Function.comp_def]
  · rfl

theorem statusOf_setStatus : (pool.setStatus id status).statusOf k =
    if id = k then (pool.statusOf k).map fun _ => status else pool.statusOf k :=
  statusOf_modify_const fun _ => rfl

theorem statusOf_of_missing (h : pool.transactions[id]? = none) : pool.statusOf k =
    if id = k then (pool.statusOf k).map fun _ => status else pool.statusOf k := by
  split
  · rename_i hk
    subst hk
    simp [statusOf, h]
  · rfl

@[simp] theorem statusOf_push : (pool.push id).statusOf k = pool.statusOf k := rfl

theorem transactions_of_pop (h : pool.pop = some (id, rest)) :
    rest.transactions = pool.transactions := by
  unfold pop at h
  obtain ⟨_, -, h⟩ := Option.map_eq_some_iff.1 h
  cases h
  rfl

theorem statusOf_of_pop (h : pool.pop = some (id, rest)) : rest.statusOf k = pool.statusOf k := by
  unfold statusOf
  rw [transactions_of_pop h]

theorem exists_status_of_isExpired (h : pool.isExpired id now = true) :
    ∃ status, pool.statusOf id = some status := by
  unfold isExpired at h
  unfold statusOf
  cases htx : pool.transactions[id]? with
  | none => simp [htx] at h
  | some t => exact ⟨t.status, rfl⟩

/-- What handling an entry does to the statuses. -/
theorem statusOf_handle : (pool.handle id now batch).2.statusOf k =
    if id = k ∧ pool.isExpired id now = true then some .expired
    else if id = k ∧ pool.statusOf id = some .queued then some .processing
    else pool.statusOf k := by
  unfold handle
  by_cases hexpired : pool.isExpired id now = true
  · rw [if_pos hexpired]
    refine statusOf_setStatus.trans ?_
    by_cases hk : id = k
    · subst hk
      obtain ⟨s, hs⟩ := exists_status_of_isExpired hexpired
      simp [hs, hexpired]
    · simp [hk]
  · rw [if_neg hexpired]
    by_cases hqueued : pool.statusOf id = some .queued
    · rw [if_pos hqueued]
      refine statusOf_setStatus.trans ?_
      by_cases hk : id = k
      · subst hk
        simp [hqueued, hexpired]
      · simp [hk]
    · simp [hexpired, hqueued]

theorem handle_handed (h : k ∈ (pool.handle id now batch).1) :
    k ∈ batch ∨ pool.statusOf k = some .queued := by
  unfold handle at h
  split at h
  · exact .inl h
  · split at h
    · rename_i hqueued
      rcases List.mem_append.1 h with hold | hnew
      · exact .inl hold
      · rw [List.mem_singleton.1 hnew]
        exact .inr hqueued
    · exact .inl h

/-! ### Statuses under the loop of a batch -/

section BatchLoop

variable {size : ℤ} {readings : ℕ → ℚ} {n : ℕ}

/-- The loop takes an entry from the heap that is past its expiry and has ended otherwise. -/
def OverwritesEnded (size : ℤ) (readings : ℕ → ℚ) (pool : TransactionPool) (batch : List ℕ)
    (k : ℕ) : Prop :=
  if batch.length < size then
    match h : pool.pop with
    | none => False
    | some (id, rest) =>
        let handled := rest.handle id (readings k) batch
        (rest.isExpired id (readings k) = true ∧ rest.Ended id ∧
          rest.statusOf id ≠ some .expired) ∨
        OverwritesEnded size readings handled.2 handled.1 (k + 1)
  else False
  termination_by pool.queue.length
  decreasing_by
    rw [handle_queue]
    exact length_queue_of_pop h

theorem overwritesEnded_of_pop (hsize : batch.length < size) (hpop : pool.pop = some (id, rest)) :
    OverwritesEnded size readings pool batch n ↔
      (rest.isExpired id (readings n) = true ∧ rest.Ended id ∧
        rest.statusOf id ≠ some .expired) ∨
      OverwritesEnded size readings (rest.handle id (readings n) batch).2
        (rest.handle id (readings n) batch).1 (n + 1) := by
  rw [OverwritesEnded, if_pos hsize]
  split
  · rename_i hnone
    rw [hpop] at hnone
    contradiction
  · rename_i hpop'
    rw [hpop] at hpop'
    cases hpop'
    rfl

/-- Only queued transactions are handed out. -/
theorem batchLoop_handed (h : k ∈ (batchLoop size readings pool batch n).1) :
    k ∈ batch ∨ pool.statusOf k = some .queued := by
  induction pool, batch, n using batchLoop.induct size readings with
  | case1 pool batch n hsize hnone =>
      rw [batchLoop_of_empty hnone] at h
      exact .inl h
  | case2 pool batch n hsize id rest hpop handled ih =>
      rw [batchLoop_of_pop hsize hpop] at h
      rw [← statusOf_of_pop hpop]
      rcases ih h with hbatch | hqueued
      · exact handle_handed hbatch
      · rw [statusOf_handle] at hqueued
        split at hqueued
        · contradiction
        · split at hqueued
          · contradiction
          · exact .inr hqueued
  | case3 pool batch n hsize =>
      rw [batchLoop_of_full hsize] at h
      exact .inl h

theorem handle_ended (hstatus : pool.statusOf k = some status) (hended : status.Ended)
    (hkeeps : ¬ (pool.isExpired id now = true ∧ pool.Ended id ∧
      pool.statusOf id ≠ some .expired)) :
    (pool.handle id now batch).2.statusOf k = some status := by
  rw [statusOf_handle]
  split
  · rename_i h
    obtain ⟨rfl, hexpired⟩ := h
    by_contra hne
    exact hkeeps ⟨hexpired, ⟨status, hstatus, hended⟩, fun h => hne (h.symm.trans hstatus)⟩
  · split
    · rename_i h
      obtain ⟨rfl, hqueued⟩ := h
      obtain rfl := Option.some_inj.1 (hstatus.symm.trans hqueued)
      exact absurd hended (by decide)
    · exact hstatus

/-- Handling an entry ends a transaction by its expiry only. -/
theorem handle_ended_before (hstatus : (pool.handle id now batch).2.statusOf k = some status)
    (hended : status.Ended) (hne : status ≠ .expired) : pool.statusOf k = some status := by
  rw [statusOf_handle] at hstatus
  split at hstatus
  · exact absurd (Option.some_inj.1 hstatus).symm hne
  · split at hstatus
    · obtain rfl := Option.some_inj.1 hstatus
      exact absurd hended (by decide)
    · exact hstatus

/-- What has ended stays so if the loop overwrites nothing. -/
theorem batchLoop_ended (hstatus : pool.statusOf k = some status) (hended : status.Ended)
    (hkeeps : ¬ OverwritesEnded size readings pool batch n) :
    (batchLoop size readings pool batch n).2.statusOf k = some status := by
  induction pool, batch, n using batchLoop.induct size readings with
  | case1 pool batch n hsize hnone => rwa [batchLoop_of_empty hnone]
  | case2 pool batch n hsize id rest hpop handled ih =>
      rw [overwritesEnded_of_pop hsize hpop, not_or] at hkeeps
      rw [batchLoop_of_pop hsize hpop]
      exact ih (handle_ended ((statusOf_of_pop hpop).trans hstatus) hended hkeeps.1) hkeeps.2
  | case3 pool batch n hsize => rwa [batchLoop_of_full hsize]

/-- The loop leaves what has expired. -/
theorem batchLoop_expired (hstatus : pool.statusOf k = some .expired) :
    (batchLoop size readings pool batch n).2.statusOf k = some .expired := by
  induction pool, batch, n using batchLoop.induct size readings with
  | case1 pool batch n hsize hnone => rwa [batchLoop_of_empty hnone]
  | case2 pool batch n hsize id rest hpop handled ih =>
      rw [batchLoop_of_pop hsize hpop]
      apply ih
      show (rest.handle id (readings n) batch).2.statusOf k = some .expired
      rw [← statusOf_of_pop hpop] at hstatus
      rw [statusOf_handle]
      split
      · rfl
      · split
        · rename_i h
          obtain ⟨rfl, hqueued⟩ := h
          simp [hqueued] at hstatus
        · exact hstatus
  | case3 pool batch n hsize => rwa [batchLoop_of_full hsize]

/-- What the loop overwrites has ended before and has expired after it. -/
theorem batchLoop_overwrites (h : OverwritesEnded size readings pool batch n) :
    ∃ k, pool.Ended k ∧ pool.statusOf k ≠ some .expired ∧
      (batchLoop size readings pool batch n).2.statusOf k = some .expired := by
  induction pool, batch, n using batchLoop.induct size readings with
  | case1 pool batch n hsize hnone =>
      rw [OverwritesEnded, if_pos hsize] at h
      split at h
      · contradiction
      · rename_i hpop
        rw [hnone] at hpop
        contradiction
  | case2 pool batch n hsize id rest hpop handled ih =>
      rw [batchLoop_of_pop hsize hpop]
      rcases (overwritesEnded_of_pop hsize hpop).1 h with ⟨hexpired, hended, hne⟩ | hlater
      · unfold Ended at hended
        rw [statusOf_of_pop hpop] at hended hne
        refine ⟨id, hended, hne, batchLoop_expired ?_⟩
        rw [statusOf_handle, if_pos ⟨rfl, hexpired⟩]
      · obtain ⟨k, ⟨status, hstatus, hended⟩, hne, hlast⟩ := ih hlater
        have hbefore := handle_ended_before hstatus hended fun h => hne (hstatus.trans (congrArg _ h))
        rw [statusOf_of_pop hpop] at hbefore
        rw [hstatus, ← hbefore] at hne
        exact ⟨k, ⟨status, hbefore, hended⟩, hne, hlast⟩
  | case3 pool batch n hsize =>
      rw [OverwritesEnded, if_neg hsize] at h
      contradiction

end BatchLoop

/-! ### Statuses under the other operations -/

theorem statusOf_submit {transaction : List UInt8} {priority : ℤ} {ttlMs : Option ℤ}
    (hstatus : pool.statusOf k = some status) :
    (pool.submit config transaction priority ttlMs now).2.statusOf k = some status := by
  unfold submit
  split
  · exact hstatus
  · show (Option.map _ (pool.transactions ++ [_])[k]?) = some status
    obtain ⟨t, ht, -⟩ := Option.map_eq_some_iff.1 hstatus
    rw [List.getElem?_append_left (List.getElem?_eq_some_iff.1 ht).1]
    exact hstatus

/-- A cancel that returns `True` has dropped the transaction. -/
theorem cancel_dropped (h : (pool.cancel id).1 = true) :
    (pool.cancel id).2.statusOf id = some .dropped := by
  unfold cancel at h ⊢
  split at h
  · rename_i hopen
    rw [if_pos hopen]
    refine statusOf_setStatus.trans ?_
    rcases hopen with hqueued | hprocessing
    · simp [hqueued]
    · simp [hprocessing]
  · contradiction

theorem statusOf_cancel (hstatus : pool.statusOf k = some status) (hended : status.Ended) :
    (pool.cancel id).2.statusOf k = some status := by
  unfold cancel
  split
  · rename_i hopen
    refine statusOf_setStatus.trans ?_
    rw [if_neg, hstatus]
    rintro rfl
    -- a transaction that a cancel drops has not ended
    rcases hopen with hqueued | hprocessing
    · obtain rfl := Option.some_inj.1 (hstatus.symm.trans hqueued)
      exact absurd hended (by decide)
    · obtain rfl := Option.some_inj.1 (hstatus.symm.trans hprocessing)
      exact absurd hended (by decide)
  · exact hstatus

theorem statusOf_markSubmitted {signature : String} :
    (pool.markSubmitted id signature now).statusOf k =
      if id = k then (pool.statusOf k).map fun _ => .submitted else pool.statusOf k := by
  unfold markSubmitted
  split
  · exact statusOf_of_missing ‹_›
  · exact statusOf_modify_const fun _ => rfl

theorem statusOf_markConfirmed : (pool.markConfirmed id now).statusOf k =
    if id = k then (pool.statusOf k).map fun _ => .confirmed else pool.statusOf k := by
  unfold markConfirmed
  split
  · exact statusOf_of_missing ‹_›
  · exact statusOf_modify_const fun _ => rfl

/-- A failure queues the transaction again or is its last one. -/
theorem statusOf_markFailed {error : String} : (pool.markFailed id error).statusOf k =
    if id = k then pool.transactions[k]?.map fun t => (t.fail error).status
    else pool.statusOf k := by
  unfold markFailed
  split
  · rename_i hnone
    split
    · rename_i hk
      subst hk
      simp [statusOf, hnone]
    · rfl
  · split
    · exact statusOf_modify _
    · exact statusOf_modify _

theorem statusOf_foldl_cleanUp {ids : List ℕ} (hk : k ∉ ids) :
    (ids.foldl cleanUp pool).statusOf k = pool.statusOf k := by
  induction ids generalizing pool with
  | nil => rfl
  | cons id ids ih =>
      rw [List.mem_cons, not_or] at hk
      rw [List.foldl_cons, ih hk.2]
      exact statusOf_setStatus.trans (if_neg (Ne.symm hk.1))

theorem statusOf_cleanupExpired {readings : ℕ → ℚ} (hstatus : pool.statusOf k = some status)
    (hended : status.Ended) : (pool.cleanupExpired readings).statusOf k = some status := by
  unfold cleanupExpired
  rw [statusOf_foldl_cleanUp, hstatus]
  simp only [List.mem_filter, decide_eq_true_eq, hstatus, Option.some.injEq]
  rintro ⟨-, -, rfl⟩
  exact absurd hended (by decide)

/-! ### Last attempts -/

/-- Whoever has failed has used up his attempts. -/
def Exhausted (pool : TransactionPool) : Prop :=
  ∀ t ∈ pool.transactions, t.status = .failed → t.maxAttempts ≤ t.attempts

namespace Exhausted

theorem modify {f : PendingTransaction → PendingTransaction} (h : pool.Exhausted)
    (hf : ∀ t ∈ pool.transactions[id]?,
      (f t).status = .failed → (f t).maxAttempts ≤ (f t).attempts) :
    (pool.modify id f).Exhausted := by
  intro t ht hfailed
  obtain ⟨k, hk⟩ := List.mem_iff_getElem?.1 ht
  have hk' : (pool.transactions.modify id f)[k]? = some t := hk
  rw [List.getElem?_modify] at hk'
  obtain ⟨t', ht', rfl⟩ := Option.map_eq_some_iff.1 hk'
  by_cases hid : id = k
  · subst hid
    rw [if_pos rfl] at hfailed ⊢
    exact hf t' ht' hfailed
  · rw [if_neg hid] at hfailed ⊢
    exact h t' (List.mem_of_getElem? ht') hfailed

theorem setStatus (h : pool.Exhausted) (hstatus : status ≠ .failed) :
    (pool.setStatus id status).Exhausted :=
  h.modify fun _ _ hfailed => absurd hfailed hstatus

theorem handle (h : pool.Exhausted) : (pool.handle id now batch).2.Exhausted := by
  unfold TransactionPool.handle
  split
  · exact h.setStatus (by decide)
  · split
    · exact h.setStatus (by decide)
    · exact h

theorem batchLoop {size : ℤ} {readings : ℕ → ℚ} {n : ℕ} (h : pool.Exhausted) :
    (batchLoop size readings pool batch n).2.Exhausted := by
  induction pool, batch, n using batchLoop.induct size readings with
  | case1 pool batch n hsize hnone => rwa [batchLoop_of_empty hnone]
  | case2 pool batch n hsize id rest hpop handled ih =>
      rw [batchLoop_of_pop hsize hpop]
      refine ih (handle ?_)
      unfold Exhausted
      rwa [transactions_of_pop hpop]
  | case3 pool batch n hsize => rwa [batchLoop_of_full hsize]

theorem foldl_cleanUp {ids : List ℕ} (h : pool.Exhausted) : (ids.foldl cleanUp pool).Exhausted := by
  induction ids generalizing pool with
  | nil => exact h
  | cons id ids ih => exact ih (h.setStatus (by decide))

theorem apply (h : pool.Exhausted) (call : PoolCall) : (call.apply config pool).Exhausted := by
  cases call with
  | submit transaction priority ttlMs now =>
      show (pool.submit config transaction priority ttlMs now).2.Exhausted
      unfold submit
      split
      · exact h
      · intro t ht hfailed
        rcases List.mem_append.1 ht with hold | hnew
        · exact h t hold hfailed
        · rw [List.mem_singleton.1 hnew] at hfailed
          contradiction
  | getBatch maxSize readings => exact h.batchLoop
  | cancel id =>
      show (pool.cancel id).2.Exhausted
      unfold cancel
      split
      · exact h.setStatus (by decide)
      · exact h
  | markSubmitted id signature now =>
      show (pool.markSubmitted id signature now).Exhausted
      unfold markSubmitted
      split
      · exact h
      · exact h.modify fun _ _ hfailed => by contradiction
  | markConfirmed id now =>
      show (pool.markConfirmed id now).Exhausted
      unfold markConfirmed
      split
      · exact h
      · exact h.modify fun _ _ hfailed => by contradiction
  | markFailed id error =>
      show (pool.markFailed id error).Exhausted
      unfold markFailed
      have hmarked : (pool.modify id (·.fail error)).Exhausted := by
        refine h.modify fun t _ hfailed => ?_
        unfold PendingTransaction.fail at hfailed ⊢
        dsimp only at hfailed ⊢
        split at hfailed
        · contradiction
        · exact not_lt.1 ‹_›
      split
      · exact h
      · split
        · exact hmarked
        · exact hmarked
  | cleanupExpired readings => exact h.foldl_cleanUp

theorem after (calls : List PoolCall) : (TransactionPool.after config calls).Exhausted :=
  Runs.run_invariant (fun _ call h => h.apply call) fun _ ht => absurd ht List.not_mem_nil

end Exhausted

end TransactionPool

/-! ### What ended transactions ask of a call -/

/-- The call marks no transaction that has ended, unless the mark is the status that it has,
and it takes no entry from the heap that is past its expiry and has ended otherwise. -/
def PoolCall.Respects (config : PoolConfig) (pool : TransactionPool) : PoolCall → Prop
  | .markSubmitted id _ _ => ¬ pool.Ended id
  | .markConfirmed id _ => pool.Ended id → pool.statusOf id = some .confirmed
  | .markFailed id _ => pool.Ended id → pool.statusOf id = some .failed
  | .getBatch maxSize readings =>
      ¬ TransactionPool.OverwritesEnded (orDefault maxSize config.batchSize) readings pool [] 0
  | .submit .. | .cancel _ | .cleanupExpired _ => True

section Respects

open TransactionPool

variable {config : PoolConfig} {pool : TransactionPool} {id : ℕ} {now : ℚ}
  {status : TransactionStatus}

/-- The call leaves every transaction that has ended. -/
def PoolCall.LeavesEnded (config : PoolConfig) (pool : TransactionPool) (call : PoolCall) : Prop :=
  ∀ k status, pool.statusOf k = some status → status.Ended →
    (call.apply config pool).statusOf k = some status

theorem leavesEnded_markSubmitted {signature : String} :
    (PoolCall.markSubmitted id signature now).LeavesEnded config pool ↔ ¬ pool.Ended id := by
  constructor
  · rintro h ⟨status, hstatus, hended⟩
    have hkept : (pool.markSubmitted id signature now).statusOf id = some status :=
      h id status hstatus hended
    rw [statusOf_markSubmitted, if_pos rfl, hstatus, Option.map_some] at hkept
    obtain rfl := Option.some_inj.1 hkept
    exact absurd hended (by decide)
  · intro hopen k status hstatus hended
    refine statusOf_markSubmitted.trans ?_
    rw [if_neg, hstatus]
    rintro rfl
    exact hopen ⟨status, hstatus, hended⟩

theorem leavesEnded_markConfirmed : (PoolCall.markConfirmed id now).LeavesEnded config pool ↔
    (pool.Ended id → pool.statusOf id = some .confirmed) := by
  constructor
  · rintro h ⟨status, hstatus, hended⟩
    have hkept : (pool.markConfirmed id now).statusOf id = some status :=
      h id status hstatus hended
    rw [statusOf_markConfirmed, if_pos rfl, hstatus, Option.map_some] at hkept
    rw [hstatus, hkept]
  · intro hconfirmed k status hstatus hended
    refine statusOf_markConfirmed.trans ?_
    by_cases hk : id = k
    · subst hk
      rw [if_pos rfl, hstatus, Option.map_some, ← hconfirmed ⟨status, hstatus, hended⟩, hstatus]
    · rw [if_neg hk, hstatus]

theorem leavesEnded_markFailed {error : String} (hexhausted : pool.Exhausted) :
    (PoolCall.markFailed id error).LeavesEnded config pool ↔
      (pool.Ended id → pool.statusOf id = some .failed) := by
  constructor
  · rintro h ⟨status, hstatus, hended⟩
    have hkept : (pool.markFailed id error).statusOf id = some status :=
      h id status hstatus hended
    rw [statusOf_markFailed, if_pos rfl] at hkept
    obtain ⟨t, -, rfl⟩ := Option.map_eq_some_iff.1 hkept
    -- a failure ends a transaction as failed only
    rw [hstatus]
    unfold PendingTransaction.fail at hended ⊢
    dsimp only at hended ⊢
    split at hended
    · exact absurd hended (by decide)
    · rename_i hlast
      rw [if_neg hlast]
  · intro hfailed k status hstatus hended
    refine statusOf_markFailed.trans ?_
    by_cases hk : id = k
    · subst hk
      obtain ⟨t, ht, hfailed⟩ := Option.map_eq_some_iff.1 (hfailed ⟨status, hstatus, hended⟩)
      have hlast := hexhausted t (List.mem_of_getElem? ht) hfailed
      rw [if_pos rfl, ht, Option.map_some]
      unfold PendingTransaction.fail
      dsimp only
      rw [if_neg (by omega), ← hstatus]
      simp [statusOf, ht, hfailed]
    · rw [if_neg hk, hstatus]

theorem leavesEnded_getBatch {maxSize : Option ℤ} {readings : ℕ → ℚ} :
    (PoolCall.getBatch maxSize readings).LeavesEnded config pool ↔
      ¬ OverwritesEnded (orDefault maxSize config.batchSize) readings pool [] 0 := by
  constructor
  · intro h hoverwrites
    obtain ⟨k, ⟨status, hstatus, hended⟩, hne, hlast⟩ := batchLoop_overwrites hoverwrites
    exact hne (hstatus.trans ((h k status hstatus hended).symm.trans hlast))
  · intro hkeeps k status hstatus hended
    exact batchLoop_ended hstatus hended hkeeps

/-- In a pool that a run has reached, a call leaves what has ended if and only if it respects
it. -/
theorem leavesEnded_iff (hexhausted : pool.Exhausted) (call : PoolCall) :
    call.LeavesEnded config pool ↔ call.Respects config pool := by
  cases call with
  | submit transaction priority ttlMs now =>
      exact iff_of_true (fun _ _ hstatus _ => statusOf_submit hstatus) trivial
  | getBatch maxSize readings => exact leavesEnded_getBatch
  | cancel id => exact iff_of_true (fun _ _ => statusOf_cancel) trivial
  | markSubmitted id signature now => exact leavesEnded_markSubmitted
  | markConfirmed id now => exact leavesEnded_markConfirmed
  | markFailed id error => exact leavesEnded_markFailed hexhausted
  | cleanupExpired readings => exact iff_of_true (fun _ _ => statusOf_cleanupExpired) trivial

theorem handedOut_queued {call : PoolCall} (h : id ∈ call.handedOut config pool) :
    pool.statusOf id = some .queued := by
  cases call with
  | getBatch maxSize readings =>
      rcases batchLoop_handed h with hempty | hqueued
      · contradiction
      · exact hqueued
  | _ => contradiction

end Respects

/-! ### Runs -/

/-- Once a transaction has ended in the run, no later call changes its status or hands it
out. -/
def EndedForGood (config : PoolConfig) (calls : List PoolCall) : Prop :=
  ∀ pre mid call post, calls = pre ++ (mid ++ call :: post) → ∀ id status,
    (TransactionPool.after config pre).statusOf id = some status → status.Ended →
      (TransactionPool.after config (pre ++ (mid ++ [call]))).statusOf id = some status ∧
        id ∉ call.handedOut config (TransactionPool.after config (pre ++ mid))

/-- A cancel that returns `True` ends a transaction. And a run leaves what has ended if and
only if all its calls respect what has ended before them. -/
theorem endedForGood_iff (config : PoolConfig) (calls : List PoolCall) :
    (∀ pre id, ((TransactionPool.after config pre).cancel id).1 = true →
      (TransactionPool.after config (pre ++ [.cancel id])).statusOf id = some .dropped) ∧
    (EndedForGood config calls ↔ ∀ pre call post, calls = pre ++ call :: post →
      call.Respects config (TransactionPool.after config pre)) := by
  have hafter : ∀ pre call, TransactionPool.after config (pre ++ [call]) =
      call.apply config (TransactionPool.after config pre) := fun pre call => Runs.run_append
  refine ⟨fun pre id hcancel => ?_, fun h pre call post hsplit => ?_, fun h => ?_⟩
  · rw [hafter]
    exact TransactionPool.cancel_dropped hcancel
  · rw [← leavesEnded_iff (.after pre)]
    intro k status hstatus hended
    rw [← hafter]
    exact (h pre [] call post hsplit k status hstatus hended).1
  · have hfrozen : Runs.Frozen (PoolCall.apply config) .empty calls
        (fun (i : ℕ × TransactionStatus) pool => pool.statusOf i.1 = some i.2 ∧ i.2.Ended) := by
      rw [Runs.frozen_iff]
      rintro ⟨k, status⟩ pre call post hsplit ⟨hstatus, hended⟩
      exact ⟨(leavesEnded_iff (.after pre) call).2 (h pre call post hsplit) k status hstatus hended,
        hended⟩
    intro pre mid call post hsplit id status hstatus hended
    constructor
    · exact (hfrozen (id, status) pre (mid ++ [call]) post (by simp [hsplit]) ⟨hstatus, hended⟩).1
    · intro hhanded
      have hkept := (hfrozen (id, status) pre mid (call :: post) hsplit ⟨hstatus, hended⟩).1
      obtain rfl := Option.some_inj.1 (hkept.symm.trans (handedOut_queued hhanded))
      exact absurd hended (by decide)

/-- A transaction is cancelled, a late failure queues it again, and it is handed out. -/
theorem cancelled_handed_out :
    ((TransactionPool.after {} [.submit [1] 0 none 10]).cancel 0).1 = true ∧
      0 ∈ (PoolCall.getBatch none fun _ => 20).handedOut {} (TransactionPool.after {}
        [.submit [1] 0 none 10, .cancel 0, .markFailed 0 "late"]) ∧
      ¬ EndedForGood {} [.submit [1] 0 none 10, .cancel 0, .markFailed 0 "late",
        .getBatch none fun _ => 20] := by
  have hhanded : 0 ∈ (PoolCall.getBatch none fun _ => 20).handedOut {} (TransactionPool.after {}
      [.submit [1] 0 none 10, .cancel 0, .markFailed 0 "late"]) := by decide +kernel
  refine ⟨by decide +kernel, hhanded, fun h => ?_⟩
  exact (h [.submit [1] 0 none 10, .cancel 0] [.markFailed 0 "late"] (.getBatch none fun _ => 20)
    [] rfl 0 .dropped (by decide +kernel) (by decide)).2 hhanded

end SolTrade.Trading
