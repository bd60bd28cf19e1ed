import SolTrade.Trading.HandOuts

/-!
The metrics of the pool against the statuses of its transactions.

Every operation that changes a status changes the metrics by itself. They stay in step as long
as nobody who waits is cancelled, no submitted transaction fails, and no batch takes an entry
that is past its expiry; and the pool is full of live transactions only as long as none of those
that it has ever taken has ended.
-/

namespace SolTrade.Trading

open Library

/-- The statuses that the `queued` metric stands for. -/
def TransactionStatus.Waiting (status : TransactionStatus) : Prop :=
  status = queued ∨ status = processing

instance : DecidablePred TransactionStatus.Waiting := fun _ => inferInstanceAs (Decidable (_ ∨ _))

namespace TransactionPool

variable {config : PoolConfig} {pool pool' rest : TransactionPool} {id k : ℕ}
  {old new : TransactionStatus} {now : ℚ} {batch : List ℕ}
  {f : PendingTransaction → PendingTransaction}

/-- How many transactions of the table have such a status. -/
def count (p : TransactionStatus → Prop) [DecidablePred p] (pool : TransactionPool) : ℕ :=
  pool.transactions.countP fun t => p t.status

/-- The metrics say how many transactions wait and how many have expired. -/
structure Counted (pool : TransactionPool) : Prop where
  queued : pool.metrics.queued = pool.count TransactionStatus.Waiting
  expired : pool.metrics.expired = pool.count (· = .expired)

/-! ### Counting -/

theorem countP_modify {α : Type} {l : List α} {i : ℕ} {a : α} (p : α → Bool) (f : α → α)
    (h : l[i]? = some a) :
    (l.modify i f).countP p + (p a).toNat = l.countP p + (p (f a)).toNat := by
  induction l generalizing i with
  | nil => simp at h
  | cons b l ih =>
      cases i with
      | zero =>
          obtain rfl : b = a := by simpa using h
          rw [List.modify_zero_cons, List.countP_cons, List.countP_cons]
          cases p b <;> cases p (f b) <;> simp
      | succ i =>
          rw [List.getElem?_cons_succ] at h
          rw [List.modify_succ_cons, List.countP_cons, List.countP_cons]
          have hl := ih h
          omega

/-- The weight of a status in a count. -/
def weight (p : TransactionStatus → Prop) [DecidablePred p] (status : TransactionStatus) : ℤ :=
  if p status then 1 else 0

theorem count_modify (p : TransactionStatus → Prop) [DecidablePred p]
    (hold : pool.statusOf id = some old)
    (hnew : ∀ t, pool.transactions[id]? = some t → (f t).status = new)
    (hpool' : pool'.transactions = pool.transactions.modify id f) :
    (pool'.count p : ℤ) = pool.count p + weight p new - weight p old := by
  obtain ⟨t, ht, hstatus⟩ := Option.map_eq_some_iff.1 hold
  have hcount := countP_modify (fun t => decide (p t.status)) f ht
  rw [hnew t ht, hstatus, ← hpool'] at hcount
  unfold weight count
  by_cases ho : p old <;> by_cases hn : p new <;> simp [ho, hn] at hcount ⊢ <;> omega

/-- By how much the metrics exceed the counts, together. -/
def excess (pool : TransactionPool) : ℤ :=
  pool.metrics.queued - pool.count TransactionStatus.Waiting +
    (pool.metrics.expired - pool.count (· = .expired))

theorem Counted.excess_eq (h : pool.Counted) : pool.excess = 0 := by
  rw [excess, h.queued, h.expired, sub_self, sub_self, add_zero]

theorem excess_modify (hold : pool.statusOf id = some old)
    (hnew : ∀ t, pool.transactions[id]? = some t → (f t).status = new)
    (hpool' : pool'.transactions = pool.transactions.modify id f) :
    pool'.excess - pool.excess =
      pool'.metrics.queued - pool.metrics.queued -
        (weight TransactionStatus.Waiting new - weight TransactionStatus.Waiting old) +
      (pool'.metrics.expired - pool.metrics.expired -
        (weight (· = .expired) new - weight (· = .expired) old)) := by
  have hwaiting := count_modify TransactionStatus.Waiting hold hnew hpool'
  have hexpired := count_modify (· = .expired) hold hnew hpool'
  rw [excess, excess, hwaiting, hexpired]
  omega

/-- After a change of one status the metrics have to change by the weights. -/
theorem Counted.modify_iff (h : pool.Counted) (hold : pool.statusOf id = some old)
    (hnew : ∀ t, pool.transactions[id]? = some t → (f t).status = new)
    (hpool' : pool'.transactions = pool.transactions.modify id f) :
    pool'.Counted ↔
      pool'.metrics.queued = pool.metrics.queued +
        weight TransactionStatus.Waiting new - weight TransactionStatus.Waiting old ∧
      pool'.metrics.expired =
        pool.metrics.expired + weight (· = .expired) new - weight (· = .expired) old := by
  have hwaiting := count_modify TransactionStatus.Waiting hold hnew hpool'
  have hexpired := count_modify (· = .expired) hold hnew hpool'
  rw [h.queued, h.expired, ← hwaiting, ← hexpired]
  exact ⟨fun h' => ⟨h'.queued, h'.expired⟩, fun h' => ⟨h'.1, h'.2⟩⟩

/-! ### Entries without strays -/

/-- A transaction has at most one entry, and only if it is queued or has expired. -/
structure EntriesOnce (pool : TransactionPool) : Prop where
  status : ∀ id ∈ pool.queue,
    pool.statusOf id = some .queued ∨ pool.statusOf id = some .expired
  nodup : pool.queue.Nodup

theorem EntriesOnce.of_eq (h : pool.EntriesOnce) (hqueue : pool'.queue = pool.queue)
    (hstatus : ∀ k ∈ pool.queue, pool'.statusOf k = pool.statusOf k) : pool'.EntriesOnce where
  status := by
    rw [hqueue]
    intro k hk
    rw [hstatus k hk]
    exact h.status k hk
  nodup := by
    rw [hqueue]
    exact h.nodup

/-- Who is in another status has no entry. -/
theorem EntriesOnce.not_mem (h : pool.EntriesOnce) (hold : pool.statusOf id = some old)
    (hne : old ≠ .queued ∧ old ≠ .expired) : id ∉ pool.queue := by
  intro hid
  rcases h.status id hid with hqueued | hexpired
  · exact hne.1 (Option.some_inj.1 (hold.symm.trans hqueued))
  · exact hne.2 (Option.some_inj.1 (hold.symm.trans hexpired))

theorem EntriesOnce.ne_of_mem (h : pool.EntriesOnce) (hold : pool.statusOf id = some old)
    (hne : old ≠ .queued ∧ old ≠ .expired) : ∀ k ∈ pool.queue, id ≠ k := by
  rintro _ hk rfl
  exact h.not_mem hold hne hk

theorem EntriesOnce.push (h : pool.EntriesOnce) (hid : id ∉ pool.queue)
    (hqueued : pool.statusOf id = some .queued) : (pool.push id).EntriesOnce where
  status k hk := by
    rcases mem_push.1 hk with hk | rfl
    · exact h.status k hk
    · exact .inl hqueued
  nodup := by
    show (Heapq.heappush pool.before pool.queue id).Nodup
    rw [(Heapq.heappush_perm _ _).nodup_iff, List.nodup_append]
    exact ⟨h.nodup, List.nodup_singleton id, fun a ha b hb => by
      rw [List.mem_singleton.1 hb]
      rintro rfl
      exact hid ha⟩

theorem EntriesOnce.of_pop (h : pool.EntriesOnce) (hpop : pool.pop = some (id, rest)) :
    rest.EntriesOnce ∧ id ∉ rest.queue ∧
      (rest.statusOf id = some .queued ∨ rest.statusOf id = some .expired) := by
  have hperm := mem_of_pop hpop
  have hnodup := hperm.nodup_iff.1 h.nodup
  rw [List.nodup_cons] at hnodup
  refine ⟨⟨fun k hk => ?_, hnodup.2⟩, hnodup.1, ?_⟩
  · rw [statusOf_of_pop hpop]
    exact h.status k (hperm.mem_iff.2 (List.mem_cons_of_mem id hk))
  · rw [statusOf_of_pop hpop]
    exact h.status id (hperm.mem_iff.2 List.mem_cons_self)

theorem EntriesOnce.handle (h : pool.EntriesOnce) (hid : id ∉ pool.queue) :
    (pool.handle id now batch).2.EntriesOnce := by
  refine h.of_eq (handle_queue ..) fun k hk => ?_
  have hne : id ≠ k := fun heq => hid (heq ▸ hk)
  rw [statusOf_handle, if_neg fun h => hne h.1, if_neg fun h => hne h.1]

/-! ### A batch -/

section BatchLoop

variable {size : ℤ} {readings : ℕ → ℚ} {n : ℕ}

/-- The loop takes an entry that is past its expiry. -/
def TakesExpired (size : ℤ) (readings : ℕ → ℚ) (pool : TransactionPool) (batch : List ℕ) (n : ℕ) :
    Prop :=
  ∃ j id, (entriesTaken size readings pool batch n)[j]? = some id ∧
    pool.isExpired id (readings (n + j)) = true

theorem takesExpired_of_pop (hsize : batch.length < size) (hpop : pool.pop = some (id, rest)) :
    TakesExpired size readings pool batch n ↔ rest.isExpired id (readings n) = true ∨
      TakesExpired size readings (rest.handle id (readings n) batch).2
        (rest.handle id (readings n) batch).1 (n + 1) := by
  unfold TakesExpired
  rw [entriesTaken_of_pop hsize hpop]
  constructor
  · rintro ⟨j, k, htaken, hexpired⟩
    cases j with
    | zero =>
        obtain rfl : id = k := by simpa using htaken
        rw [isExpired_of_pop hpop]
        exact .inl hexpired
    | succ j =>
        refine .inr ⟨j, k, htaken, ?_⟩
        rw [isExpired_handle, isExpired_of_pop hpop, Nat.add_right_comm]
        exact hexpired
  · rintro (hexpired | ⟨j, k, htaken, hexpired⟩)
    · rw [isExpired_of_pop hpop] at hexpired
      exact ⟨0, id, rfl, hexpired⟩
    · rw [isExpired_handle, isExpired_of_pop hpop, Nat.add_right_comm] at hexpired
      exact ⟨j + 1, k, htaken, hexpired⟩

theorem Counted.of_pop (h : pool.Counted) (hpop : pool.pop = some (id, rest)) : rest.Counted := by
  unfold pop at hpop
  obtain ⟨⟨first, queue⟩, -, hpop⟩ := Option.map_eq_some_iff.1 hpop
  cases hpop
  exact ⟨h.queued, h.expired⟩

theorem Counted.handle (h : pool.Counted) (hunexpired : ¬ pool.isExpired id now = true) :
    (pool.handle id now batch).2.Counted := by
  unfold TransactionPool.handle
  rw [if_neg hunexpired]
  by_cases hqueued : pool.statusOf id = some .queued
  · rw [if_pos hqueued, h.modify_iff (f := fun t => { t with status := .processing }) hqueued
      (fun _ _ => rfl) rfl]
    constructor
    · show pool.metrics.queued = pool.metrics.queued + 1 - 1
      omega
    · show pool.metrics.expired = pool.metrics.expired + 0 - 0
      omega
  · rwa [if_neg hqueued]

theorem Counted.batchLoop (h : pool.Counted) (honce : pool.EntriesOnce)
    (hunexpired : ¬ TakesExpired size readings pool batch n) :
    (batchLoop size readings pool batch n).2.Counted := by
  induction pool, batch, n using batchLoop.induct size readings with
  | case1 pool batch n hsize hnone => rwa [batchLoop_of_empty hnone]
  | case2 pool batch n hsize id rest hpop handled ih =>
      rw [batchLoop_of_pop hsize hpop]
      rw [takesExpired_of_pop hsize hpop, not_or] at hunexpired
      obtain ⟨hrest, hid, -⟩ := honce.of_pop hpop
      exact ih ((h.of_pop hpop).handle hunexpired.1) (hrest.handle hid) hunexpired.2
  | case3 pool batch n hsize => rwa [batchLoop_of_full hsize]

theorem EntriesOnce.batchLoop (h : pool.EntriesOnce) :
    (batchLoop size readings pool batch n).2.EntriesOnce := by
  induction pool, batch, n using batchLoop.induct size readings with
  | case1 pool batch n hsize hnone => rwa [batchLoop_of_empty hnone]
  | case2 pool batch n hsize id rest hpop handled ih =>
      rw [batchLoop_of_pop hsize hpop]
      obtain ⟨hrest, hid, -⟩ := h.of_pop hpop
      exact ih (hrest.handle hid)
  | case3 pool batch n hsize => rwa [batchLoop_of_full hsize]

theorem excess_of_pop (hpop : pool.pop = some (id, rest)) : rest.excess = pool.excess := by
  unfold pop at hpop
  obtain ⟨⟨first, queue⟩, -, hpop⟩ := Option.map_eq_some_iff.1 hpop
  cases hpop
  rfl

/-- An entry that is past its expiry is counted as expired, but no longer as waiting nor as
expired before. -/
theorem excess_handle_expired (hold : pool.statusOf id = some old)
    (hexpired : pool.isExpired id now = true) : (pool.handle id now batch).2.excess - pool.excess =
      weight TransactionStatus.Waiting old + weight (· = .expired) old := by
  unfold TransactionPool.handle
  rw [if_pos hexpired, excess_modify (f := fun t => { t with status := .expired }) hold
    (fun _ _ => rfl) rfl]
  show pool.metrics.queued - pool.metrics.queued - (0 - _) +
    (pool.metrics.expired + 1 - pool.metrics.expired - (1 - _)) = _
  omega

theorem weight_nonneg (p : TransactionStatus → Prop) [DecidablePred p]
    (status : TransactionStatus) : 0 ≤ weight p status := by
  unfold weight
  split <;> decide

theorem excess_le_handle : pool.excess ≤ (pool.handle id now batch).2.excess := by
  by_cases hexpired : pool.isExpired id now = true
  · obtain ⟨old, hold⟩ := exists_status_of_isExpired hexpired
    have hw := weight_nonneg TransactionStatus.Waiting old
    have he := weight_nonneg (· = .expired) old
    have hexcess : (pool.handle id now batch).2.excess - pool.excess = _ :=
      excess_handle_expired hold hexpired
    omega
  · unfold TransactionPool.handle
    rw [if_neg hexpired]
    by_cases hqueued : pool.statusOf id = some .queued
    · rw [if_pos hqueued, ← sub_nonneg,
        excess_modify (f := fun t => { t with status := .processing }) hqueued (fun _ _ => rfl) rfl]
      show 0 ≤ pool.metrics.queued - pool.metrics.queued - (1 - 1) +
        (pool.metrics.expired - pool.metrics.expired - (0 - 0))
      omega
    · rw [if_neg hqueued]

theorem excess_le_batchLoop :
    pool.excess ≤ (batchLoop size readings pool batch n).2.excess := by
  induction pool, batch, n using batchLoop.induct size readings with
  | case1 pool batch n hsize hnone => rw [batchLoop_of_empty hnone]
  | case2 pool batch n hsize id rest hpop handled ih =>
      rw [batchLoop_of_pop hsize hpop, ← excess_of_pop hpop]
      exact excess_le_handle.trans ih
  | case3 pool batch n hsize => rw [batchLoop_of_full hsize]

/-- A batch that takes an entry past its expiry leaves the metrics too high. -/
theorem excess_lt_batchLoop (honce : pool.EntriesOnce)
    (hexpired : TakesExpired size readings pool batch n) :
    pool.excess < (batchLoop size readings pool batch n).2.excess := by
  induction pool, batch, n using batchLoop.induct size readings with
  | case1 pool batch n hsize hnone =>
      obtain ⟨j, id, htaken, -⟩ := hexpired
      rw [entriesTaken_of_empty hnone] at htaken
      contradiction
  | case2 pool batch n hsize id rest hpop handled ih =>
      rw [batchLoop_of_pop hsize hpop, ← excess_of_pop hpop]
      rw [takesExpired_of_pop hsize hpop] at hexpired
      obtain ⟨hrest, hid, hstatus⟩ := honce.of_pop hpop
      rcases hexpired with hfirst | hlater
      · refine lt_of_lt_of_le ?_ excess_le_batchLoop
        -- an entry belongs to somebody who is queued or has expired, and either is counted already
        rw [← sub_pos]
        rcases hstatus with hqueued | hold
        · rw [excess_handle_expired hqueued hfirst]
          decide
        · rw [excess_handle_expired hold hfirst]
          decide
      · exact excess_le_handle.trans_lt (ih (hrest.handle hid) hlater)
  | case3 pool batch n hsize =>
      obtain ⟨j, id, htaken, -⟩ := hexpired
      rw [entriesTaken, if_neg hsize] at htaken
      contradiction

end BatchLoop

/-! ### The other operations -/

theorem Counted.submit {transaction : List UInt8} {priority : ℤ} {ttlMs : Option ℤ}
    (h : pool.Counted) : (pool.submit config transaction priority ttlMs now).2.Counted := by
  unfold TransactionPool.submit
  split
  · exact ⟨h.queued, h.expired⟩
  · constructor
    · show pool.metrics.queued + 1 = ((pool.transactions ++ [_]).countP _ : ℕ)
      rw [List.countP_append, h.queued]
      rfl
    · show pool.metrics.expired = ((pool.transactions ++ [_]).countP _ : ℕ)
      rw [List.countP_append, h.expired]
      rfl

theorem EntriesOnce.submit {transaction : List UInt8} {priority : ℤ} {ttlMs : Option ℤ}
    (h : pool.EntriesOnce) (hsound : pool.EntriesSound) :
    (pool.submit config transaction priority ttlMs now).2.EntriesOnce := by
  have hkept : ∀ k ∈ pool.queue, (pool.submit config transaction priority ttlMs now).2.statusOf k =
      pool.statusOf k := by
    intro k hk
    obtain ⟨status, hstatus⟩ : ∃ status, pool.statusOf k = some status := by
      rcases h.status k hk with hstatus | hstatus <;> exact ⟨_, hstatus⟩
    exact (statusOf_submit hstatus).trans hstatus.symm
  unfold TransactionPool.submit at hkept ⊢
  split
  · exact ⟨h.status, h.nodup⟩
  · rename_i hroom
    rw [if_neg hroom] at hkept
    refine EntriesOnce.push (h.of_eq rfl hkept) ?_ ?_
    · intro hmem
      exact absurd (hsound.known _ hmem) (Nat.lt_irrefl _)
    · simp [statusOf]

/-- A cancel that drops somebody leaves him in the `queued` metric. -/
theorem counted_cancel_iff (h : pool.Counted) :
    (pool.cancel id).2.Counted ↔
      ¬ (pool.statusOf id = some .queued ∨ pool.statusOf id = some .processing) := by
  unfold cancel
  by_cases hwaits : pool.statusOf id = some .queued ∨ pool.statusOf id = some .processing
  · obtain ⟨old, hold, hold'⟩ : ∃ old, pool.statusOf id = some old ∧ old.Waiting := by
      rcases hwaits with hqueued | hprocessing
      · exact ⟨_, hqueued, .inl rfl⟩
      · exact ⟨_, hprocessing, .inr rfl⟩
    have hweight : weight TransactionStatus.Waiting old = 1 := if_pos hold'
    rw [if_pos hwaits, h.modify_iff (f := fun t => { t with status := .dropped }) hold
      (fun _ _ => rfl) rfl, hweight]
    refine iff_of_false ?_ (not_not.2 hwaits)
    rintro ⟨hqueued, -⟩
    have hqueued : pool.metrics.queued = pool.metrics.queued + 0 - 1 := hqueued
    omega
  · rw [if_neg hwaits]
    exact iff_of_true h hwaits

theorem Counted.markSubmitted {signature : String} (h : pool.Counted)
    (hold : pool.statusOf id = some .processing) :
    (pool.markSubmitted id signature now).Counted := by
  obtain ⟨t, ht, -⟩ := Option.map_eq_some_iff.1 hold
  simp only [TransactionPool.markSubmitted, ht]
  rw [h.modify_iff (f := fun t => { t with
    status := .submitted, signature := some signature, submittedAt := some now }) hold
    (fun _ _ => rfl) rfl]
  constructor
  · show pool.metrics.queued - 1 = pool.metrics.queued + 0 - 1
    omega
  · show pool.metrics.expired = pool.metrics.expired + 0 - 0
    omega

theorem Counted.markConfirmed (h : pool.Counted) (hold : pool.statusOf id = some .submitted) :
    (pool.markConfirmed id now).Counted := by
  obtain ⟨t, ht, -⟩ := Option.map_eq_some_iff.1 hold
  simp only [TransactionPool.markConfirmed, ht]
  rw [h.modify_iff (f := fun t => { t with status := .confirmed, confirmedAt := some now }) hold
    (fun _ _ => rfl) rfl]
  constructor
  · show pool.metrics.queued = pool.metrics.queued + 0 - 0
    omega
  · show pool.metrics.expired = pool.metrics.expired + 0 - 0
    omega

/-- Whether it is queued again or not, the metric counts a transaction that fails as waiting. -/
theorem counted_markFailed_iff {error : String} (h : pool.Counted)
    (hold : pool.statusOf id = some old)
    (hexpected : old = .processing ∨ old = .submitted) :
    (pool.markFailed id error).Counted ↔ old = .processing := by
  obtain ⟨t, ht, -⟩ := Option.map_eq_some_iff.1 hold
  have hexpired : weight (· = .expired) old = 0 := by
    rcases hexpected with rfl | rfl <;> rfl
  have hwaiting : weight TransactionStatus.Waiting old = 1 ↔ old = .processing := by
    rcases hexpected with rfl | rfl <;> simp [weight, TransactionStatus.Waiting]
  simp only [TransactionPool.markFailed, ht]
  split
  · rename_i hretry
    have hnew : ∀ t', pool.transactions[id]? = some t' → (t'.fail error).status = .queued := by
      intro t' ht'
      obtain rfl := Option.some_inj.1 (ht.symm.trans ht')
      exact if_pos hretry
    rw [h.modify_iff (f := (·.fail error)) hold hnew rfl, hexpired, ← hwaiting]
    show pool.metrics.queued = pool.metrics.queued + 1 - _ ∧
      pool.metrics.expired = pool.metrics.expired + 0 - 0 ↔ _
    omega
  · rename_i hlast
    have hnew : ∀ t', pool.transactions[id]? = some t' → (t'.fail error).status = .failed := by
      intro t' ht'
      obtain rfl := Option.some_inj.1 (ht.symm.trans ht')
      exact if_neg hlast
    rw [h.modify_iff (f := (·.fail error)) hold hnew rfl, hexpired, ← hwaiting]
    show pool.metrics.queued - 1 = pool.metrics.queued + 0 - _ ∧
      pool.metrics.expired = pool.metrics.expired + 0 - 0 ↔ _
    omega

theorem EntriesOnce.markSubmitted {signature : String} (h : pool.EntriesOnce)
    (hold : pool.statusOf id = some .processing) :
    (pool.markSubmitted id signature now).EntriesOnce := by
  have hne := h.ne_of_mem hold (by decide)
  refine h.of_eq ?_ fun k hk => statusOf_markSubmitted.trans (if_neg (hne k hk))
  unfold TransactionPool.markSubmitted
  split <;> rfl

theorem EntriesOnce.markConfirmed (h : pool.EntriesOnce)
    (hold : pool.statusOf id = some .submitted) : (pool.markConfirmed id now).EntriesOnce := by
  have hne := h.ne_of_mem hold (by decide)
  refine h.of_eq ?_ fun k hk => statusOf_markConfirmed.trans (if_neg (hne k hk))
  unfold TransactionPool.markConfirmed
  split <;> rfl

theorem EntriesOnce.markFailed {error : String} (h : pool.EntriesOnce)
    (hold : pool.statusOf id = some .processing) : (pool.markFailed id error).EntriesOnce := by
  have hid := h.not_mem hold (by decide)
  have hne := h.ne_of_mem hold (by decide)
  have hkept : ∀ k ∈ pool.queue,
      (pool.modify id (·.fail error)).statusOf k = pool.statusOf k := fun k hk =>
    (statusOf_modify _).trans (if_neg (hne k hk))
  obtain ⟨t, ht, -⟩ := Option.map_eq_some_iff.1 hold
  simp only [TransactionPool.markFailed, ht]
  split
  · rename_i hretry
    refine EntriesOnce.push (h.of_eq rfl hkept) hid ?_
    refine (statusOf_modify _).trans ?_
    rw [if_pos rfl, ht]
    simp [PendingTransaction.fail, hretry]
  · exact h.of_eq rfl hkept

theorem Counted.cleanUp (h : pool.Counted) (hold : pool.statusOf id = some .queued) :
    (pool.cleanUp id).Counted := by
  rw [TransactionPool.cleanUp, h.modify_iff (f := fun t => { t with status := .expired }) hold
    (fun _ _ => rfl) rfl]
  constructor
  · show pool.metrics.queued - 1 = pool.metrics.queued + 0 - 1
    omega
  · show pool.metrics.expired + 1 = pool.metrics.expired + 1 - 0
    omega

theorem EntriesOnce.cleanUp (h : pool.EntriesOnce) : (pool.cleanUp id).EntriesOnce where
  status k hk := by
    have hstatus : (pool.cleanUp id).statusOf k = _ := statusOf_setStatus
    rw [hstatus]
    by_cases heq : id = k
    · rcases h.status k hk with hqueued | hexpired
      · simp [heq, hqueued]
      · simp [heq, hexpired]
    · rw [if_neg heq]
      exact h.status k hk
  nodup := h.nodup

/-- The cleanup lets everybody expire once who was queued when it began. -/
theorem foldl_cleanUp {ids : List ℕ} (hcounted : pool.Counted) (honce : pool.EntriesOnce)
    (hids : ids.Nodup) (hqueued : ∀ id ∈ ids, pool.statusOf id = some .queued) :
    (ids.foldl TransactionPool.cleanUp pool).Counted ∧
      (ids.foldl TransactionPool.cleanUp pool).EntriesOnce := by
  induction ids generalizing pool with
  | nil => exact ⟨hcounted, honce⟩
  | cons id ids ih =>
      rw [List.nodup_cons] at hids
      rw [List.forall_mem_cons] at hqueued
      refine ih (hcounted.cleanUp hqueued.1) honce.cleanUp hids.2 fun k hk => ?_
      have hne : id ≠ k := fun heq => hids.1 (heq ▸ hk)
      exact (statusOf_setStatus.trans (if_neg hne)).trans (hqueued.2 k hk)

theorem cleanupExpired_keeps {readings : ℕ → ℚ} (hcounted : pool.Counted)
    (honce : pool.EntriesOnce) :
    (pool.cleanupExpired readings).Counted ∧ (pool.cleanupExpired readings).EntriesOnce := by
  refine foldl_cleanUp hcounted honce (List.nodup_range.filter _) fun id hid => ?_
  obtain ⟨-, hid⟩ := List.mem_filter.1 hid
  exact (of_decide_eq_true hid).2

/-! ### Room in the pool -/

theorem length_batchLoop {size : ℤ} {readings : ℕ → ℚ} {n : ℕ} :
    (batchLoop size readings pool batch n).2.transactions.length = pool.transactions.length := by
  induction pool, batch, n using batchLoop.induct size readings with
  | case1 pool batch n hsize hnone => rw [batchLoop_of_empty hnone]
  | case2 pool batch n hsize id rest hpop handled ih =>
      rw [batchLoop_of_pop hsize hpop, ih, ← transactions_of_pop hpop]
      exact length_handle
  | case3 pool batch n hsize => rw [batchLoop_of_full hsize]

theorem length_foldl_cleanUp {ids : List ℕ} :
    (ids.foldl TransactionPool.cleanUp pool).transactions.length = pool.transactions.length := by
  induction ids generalizing pool with
  | nil => rfl
  | cons id ids ih => exact ih.trans length_modify

/-- The table never outgrows the pool. -/
theorem length_apply_le (call : PoolCall)
    (h : (pool.transactions.length : ℤ) ≤ max config.maxSize 0) :
    ((call.apply config pool).transactions.length : ℤ) ≤ max config.maxSize 0 := by
  cases call with
  | submit transaction priority ttlMs now =>
      show ((pool.submit config transaction priority ttlMs now).2.transactions.length : ℤ) ≤ _
      unfold TransactionPool.submit
      split
      · exact h
      · show ((pool.transactions ++ [_]).length : ℤ) ≤ _
        rw [List.length_append, List.length_singleton]
        push_cast
        omega
  | getBatch maxSize readings => exact (congrArg _ length_batchLoop).trans_le h
  | cancel id =>
      show ((pool.cancel id).2.transactions.length : ℤ) ≤ _
      unfold TransactionPool.cancel
      split
      · exact (congrArg _ length_modify).trans_le h
      · exact h
  | markSubmitted id signature now =>
      show ((pool.markSubmitted id signature now).transactions.length : ℤ) ≤ _
      unfold TransactionPool.markSubmitted
      split
      · exact h
      · exact (congrArg _ length_modify).trans_le h
  | markConfirmed id now =>
      show ((pool.markConfirmed id now).transactions.length : ℤ) ≤ _
      unfold TransactionPool.markConfirmed
      split
      · exact h
      · exact (congrArg _ length_modify).trans_le h
  | markFailed id error =>
      show ((pool.markFailed id error).transactions.length : ℤ) ≤ _
      unfold TransactionPool.markFailed
      split
      · exact h
      · split
        · exact (congrArg _ length_modify).trans_le h
        · exact (congrArg _ length_modify).trans_le h
  | cleanupExpired readings => exact (congrArg _ length_foldl_cleanUp).trans_le h

theorem length_after_le (calls : List PoolCall) :
    ((TransactionPool.after config calls).transactions.length : ℤ) ≤ max config.maxSize 0 :=
  Runs.run_invariant (I := fun pool : TransactionPool =>
    (pool.transactions.length : ℤ) ≤ max config.maxSize 0)
    (fun _ call h => length_apply_le call h) (le_max_right _ _)

/-- How many transactions have not ended. -/
def liveCount (pool : TransactionPool) : ℕ := pool.count fun status => ¬ status.Ended

theorem liveCount_eq_length_iff :
    pool.liveCount = pool.transactions.length ↔ ∀ id, ¬ pool.Ended id := by
  unfold liveCount count
  rw [List.countP_eq_length]
  constructor
  · rintro h id ⟨status, hstatus, hended⟩
    obtain ⟨t, ht, rfl⟩ := Option.map_eq_some_iff.1 hstatus
    exact of_decide_eq_true (h t (List.mem_of_getElem? ht)) hended
  · intro h t ht
    obtain ⟨id, hid⟩ := List.mem_iff_getElem?.1 ht
    exact decide_eq_true fun hended => h id ⟨t.status, by simp [statusOf, hid], hended⟩

/-- Whom the pool refuses finds it full of live transactions if and only if nobody has ended. -/
theorem maxSize_le_liveCount_iff
    (h : (pool.transactions.length : ℤ) ≤ max config.maxSize 0)
    (hfull : config.maxSize ≤ pool.transactions.length) :
    config.maxSize ≤ pool.liveCount ↔ ∀ id, ¬ pool.Ended id := by
  rw [← liveCount_eq_length_iff]
  have hle : pool.liveCount ≤ pool.transactions.length := List.countP_le_length
  omega

end TransactionPool

open TransactionPool

/-! ### Runs -/

/-- A mark is applied to a transaction in the status that it expects. -/
def PoolCall.Expected (pool : TransactionPool) : PoolCall → Prop
  | .markSubmitted id _ _ => pool.statusOf id = some .processing
  | .markConfirmed id _ => pool.statusOf id = some .submitted
  | .markFailed id _ =>
      pool.statusOf id = some .processing ∨ pool.statusOf id = some .submitted
  | .submit .. | .getBatch .. | .cancel _ | .cleanupExpired _ => True

/-- The call cancels nobody who waits, fails nobody who is submitted, takes no entry that is past
its expiry and submits nothing to a pool that is full but for those that have ended. -/
def PoolCall.Bookable (config : PoolConfig) (pool : TransactionPool) : PoolCall → Prop
  | .submit .. => config.maxSize ≤ pool.transactions.length → ∀ id, ¬ pool.Ended id
  | .getBatch maxSize readings =>
      ¬ TakesExpired (orDefault maxSize config.batchSize) readings pool [] 0
  | .cancel id => ¬ (pool.statusOf id = some .queued ∨ pool.statusOf id = some .processing)
  | .markFailed id _ => pool.statusOf id ≠ some .submitted
  | .markSubmitted .. | .markConfirmed .. | .cleanupExpired _ => True

/-- The call refuses a transaction only if the pool is full of live ones. -/
def PoolCall.RefusesFull (config : PoolConfig) (pool : TransactionPool) : PoolCall → Prop
  | .submit transaction priority ttlMs now =>
      (pool.submit config transaction priority ttlMs now).1 = none →
        config.maxSize ≤ pool.liveCount
  | _ => True

/-- The metrics agree with the statuses in every state of the run, and nobody is refused without
need. -/
structure AccountedFor (config : PoolConfig) (calls : List PoolCall) : Prop where
  counted : ∀ pre post, calls = pre ++ post → (TransactionPool.after config pre).Counted
  refused : ∀ pre call post, calls = pre ++ call :: post →
    call.RefusesFull config (TransactionPool.after config pre)

theorem AccountedFor.last {config : PoolConfig} {calls : List PoolCall}
    (h : AccountedFor config calls) : (TransactionPool.after config calls).Counted :=
  h.counted calls [] (List.append_nil calls).symm

section Runs

variable {config : PoolConfig} {pool : TransactionPool} {call : PoolCall} {calls : List PoolCall}

theorem submit_eq_none_iff {transaction : List UInt8} {priority : ℤ} {ttlMs : Option ℤ} {now : ℚ} :
    (pool.submit config transaction priority ttlMs now).1 = none ↔
      config.maxSize ≤ pool.transactions.length := by
  unfold TransactionPool.submit
  by_cases hfull : (pool.transactions.length : ℤ) ≥ config.maxSize
  · rw [if_pos hfull]
    exact iff_of_true rfl hfull
  · rw [if_neg hfull]
    exact iff_of_false (by simp) hfull

/-- A call that is expected keeps the metrics and refuses nobody without need if and only if it
is bookable. -/
theorem bookable_iff (hcounted : pool.Counted) (honce : pool.EntriesOnce)
    (hlength : (pool.transactions.length : ℤ) ≤ max config.maxSize 0)
    (hexpected : call.Expected pool) :
    call.Bookable config pool ↔
      (call.apply config pool).Counted ∧ call.RefusesFull config pool := by
  cases call with
  | submit transaction priority ttlMs now =>
      have hkept : (PoolCall.apply config pool (.submit transaction priority ttlMs now)).Counted :=
        hcounted.submit
      rw [and_iff_right hkept]
      show (config.maxSize ≤ pool.transactions.length → ∀ id, ¬ pool.Ended id) ↔
        ((pool.submit config transaction priority ttlMs now).1 = none →
          config.maxSize ≤ pool.liveCount)
      rw [submit_eq_none_iff]
      exact forall_congr' fun hfull => (maxSize_le_liveCount_iff hlength hfull).symm
  | getBatch maxSize readings =>
      refine ⟨fun h => ⟨hcounted.batchLoop honce h, trivial⟩, fun h hexpired => ?_⟩
      have hexcess := excess_lt_batchLoop honce hexpired
      rw [hcounted.excess_eq] at hexcess
      exact absurd (h.1.excess_eq.symm.trans_gt hexcess) (lt_irrefl _)
  | cancel id => exact (counted_cancel_iff hcounted).symm.trans (and_iff_left trivial).symm
  | markSubmitted id signature now =>
      exact iff_of_true trivial ⟨hcounted.markSubmitted hexpected, trivial⟩
  | markConfirmed id now =>
      exact iff_of_true trivial ⟨hcounted.markConfirmed hexpected, trivial⟩
  | markFailed id error =>
      obtain ⟨old, hold, hcase⟩ : ∃ old, pool.statusOf id = some old ∧
          (old = .processing ∨ old = .submitted) := by
        rcases hexpected with hprocessing | hsubmitted
        · exact ⟨_, hprocessing, .inl rfl⟩
        · exact ⟨_, hsubmitted, .inr rfl⟩
      have hbookable : (PoolCall.markFailed id error).Bookable config pool ↔ old = .processing := by
        show pool.statusOf id ≠ some .submitted ↔ _
        rw [hold]
        rcases hcase with rfl | rfl <;> decide
      rw [hbookable, ← counted_markFailed_iff hcounted hold hcase]
      exact (and_iff_left trivial).symm
  | cleanupExpired readings =>
      exact iff_of_true trivial ⟨(cleanupExpired_keeps hcounted honce).1, trivial⟩

/-- A bookable call leaves entries without strays. -/
theorem entriesOnce_apply (honce : pool.EntriesOnce) (hcounted : pool.Counted)
    (hsound : pool.EntriesSound) (hexpected : call.Expected pool)
    (hbookable : call.Bookable config pool) : (call.apply config pool).EntriesOnce := by
  cases call with
  | submit transaction priority ttlMs now => exact honce.submit hsound
  | getBatch maxSize readings => exact honce.batchLoop
  | cancel id =>
      have hnone : pool.cancel id = (false, pool) := if_neg hbookable
      show (pool.cancel id).2.EntriesOnce
      rwa [hnone]
  | markSubmitted id signature now => exact honce.markSubmitted hexpected
  | markConfirmed id now => exact honce.markConfirmed hexpected
  | markFailed id error => exact honce.markFailed (hexpected.resolve_right hbookable)
  | cleanupExpired readings => exact (cleanupExpired_keeps hcounted honce).2

/-- Every mark of the run is applied to a transaction in the status that it expects. -/
def MarksExpected (config : PoolConfig) (calls : List PoolCall) : Prop :=
  ∀ pre call post, calls = pre ++ call :: post → call.Expected (TransactionPool.after config pre)

theorem after_append_singleton (pre : List PoolCall) :
    TransactionPool.after config (pre ++ [call]) =
      call.apply config (TransactionPool.after config pre) := Runs.run_append

theorem booked_empty : TransactionPool.empty.Counted ∧ TransactionPool.empty.EntriesOnce :=
  ⟨⟨rfl, rfl⟩, ⟨fun _ h => absurd h List.not_mem_nil, .nil⟩⟩

/-- What a run of bookable calls keeps. -/
theorem booked_after (hmarks : MarksExpected config calls)
    (hbookable : ∀ pre call post, calls = pre ++ call :: post →
      call.Bookable config (TransactionPool.after config pre)) :
    ∀ pre post, calls = pre ++ post →
      (TransactionPool.after config pre).Counted ∧
        (TransactionPool.after config pre).EntriesOnce := by
  intro pre
  induction pre using List.reverseRecOn with
  | nil => exact fun _ _ => booked_empty
  | append_singleton pre call ih =>
      intro post hsplit
      have hsplit' : calls = pre ++ call :: post := by simp [hsplit]
      obtain ⟨hcounted, honce⟩ := ih (call :: post) hsplit'
      have hexpected := hmarks pre call post hsplit'
      have hbook := hbookable pre call post hsplit'
      rw [after_append_singleton]
      exact ⟨((bookable_iff hcounted honce (length_after_le pre) hexpected).1 hbook).1,
        entriesOnce_apply honce hcounted (.after config pre) hexpected hbook⟩

/-- In a run whose marks find the statuses that they expect, the metrics agree with the statuses
throughout and nobody is refused without need if and only if all its calls are bookable. -/
theorem accountedFor_iff (hmarks : MarksExpected config calls) :
    AccountedFor config calls ↔ ∀ pre call post, calls = pre ++ call :: post →
      call.Bookable config (TransactionPool.after config pre) := by
  constructor
  · intro h
    -- counted metrics make the next call bookable as long as the entries are unique, and a bookable
    -- call keeps them unique
    have hbookable : ∀ pre call post, calls = pre ++ call :: post →
        (TransactionPool.after config pre).EntriesOnce →
        call.Bookable config (TransactionPool.after config pre) := by
      intro pre call post hsplit honce
      have hnext := h.counted (pre ++ [call]) post (by simp [hsplit])
      rw [after_append_singleton] at hnext
      exact (bookable_iff (h.counted pre (call :: post) hsplit) honce (length_after_le pre)
        (hmarks pre call post hsplit)).2 ⟨hnext, h.refused pre call post hsplit⟩
    have honce : ∀ pre post, calls = pre ++ post →
        (TransactionPool.after config pre).EntriesOnce := by
      intro pre
      induction pre using List.reverseRecOn with
      | nil => exact fun _ _ => booked_empty.2
      | append_singleton pre call ih =>
          intro post hsplit
          have hsplit' : calls = pre ++ call :: post := by simp [hsplit]
          have hpre := ih (call :: post) hsplit'
          rw [after_append_singleton]
          exact entriesOnce_apply hpre (h.counted pre _ hsplit') (.after config pre)
            (hmarks pre call post hsplit') (hbookable pre call post hsplit' hpre)
    exact fun pre call post hsplit => hbookable pre call post hsplit (honce pre _ hsplit)
  · intro hbookable
    constructor
    · intro pre post hsplit
      exact (booked_after hmarks hbookable pre post hsplit).1
    · intro pre call post hsplit
      obtain ⟨hcounted, honce⟩ := booked_after hmarks hbookable pre (call :: post) hsplit
      exact ((bookable_iff hcounted honce (length_after_le pre) (hmarks pre call post hsplit)).1
        (hbookable pre call post hsplit)).2

end Runs

theorem marksExpected_of_unmarked {config : PoolConfig} {calls : List PoolCall}
    (h : ∀ call ∈ calls, ∀ pool, call.Expected pool) : MarksExpected config calls := by
  rintro pre call post rfl
  exact h call (by simp) _

/-- A transaction that is handed out in time, sent and confirmed. -/
def inTime : List PoolCall :=
  [.submit [1] 0 none 10, .getBatch none fun _ => 20, .markSubmitted 0 "signature" 21,
    .markConfirmed 0 30]

theorem marksExpected_inTime : MarksExpected {} inTime := by
  rintro pre call post hsplit
  rw [inTime] at hsplit
  rcases pre with _ | ⟨_, _ | ⟨_, _ | ⟨_, _ | ⟨_, _ | ⟨_, pre⟩⟩⟩⟩⟩ <;> cases hsplit
  · trivial
  · trivial
  · exact show TransactionPool.statusOf _ 0 = some .processing by decide +kernel
  · exact show TransactionPool.statusOf _ 0 = some .submitted by decide +kernel

theorem accountedFor_iff_inTime :
    AccountedFor {} inTime ↔ ∀ pre call post, inTime = pre ++ call :: post →
      call.Bookable {} (TransactionPool.after {} pre) :=
  accountedFor_iff marksExpected_inTime

/-- A cancelled transaction stays in the `queued` metric, one that the cleanup has let expire is
counted again by a batch, and a pool of one is full when its only transaction has expired. -/
theorem metrics_out_of_step :
    (MarksExpected {} [.submit [1] 0 none 10, .cancel 0] ∧
      ¬ AccountedFor {} [.submit [1] 0 none 10, .cancel 0]) ∧
    (MarksExpected {} [.submit [1] 0 none 10, .cleanupExpired fun _ => 100,
        .getBatch none fun _ => 100] ∧
      ¬ AccountedFor {} [.submit [1] 0 none 10, .cleanupExpired fun _ => 100,
        .getBatch none fun _ => 100]) ∧
    MarksExpected { maxSize := 1 } [.submit [1] 0 none 10, .cleanupExpired fun _ => 100,
        .submit [2] 0 none 100] ∧
      ¬ AccountedFor { maxSize := 1 } [.submit [1] 0 none 10, .cleanupExpired fun _ => 100,
        .submit [2] 0 none 100] := by
  refine ⟨⟨marksExpected_of_unmarked (by simp [PoolCall.Expected]), fun h => ?_⟩,
    ⟨marksExpected_of_unmarked (by simp [PoolCall.Expected]), fun h => ?_⟩,
    marksExpected_of_unmarked (by simp [PoolCall.Expected]), fun h => ?_⟩
  · exact absurd h.last.queued (by decide +kernel)
  · exact absurd h.last.expired (by decide +kernel)
  · have hrefused := h.refused [.submit [1] 0 none 10, .cleanupExpired fun _ => 100]
      (.submit [2] 0 none 100) [] rfl
    exact absurd (hrefused (by decide +kernel)) (by decide +kernel)

end SolTrade.Trading
