import SolTrade.Library.HeapOrder
import SolTrade.Trading.EndedTransactions

/-!
What the pool hands out, and in which order.

Statuses change while entries stay in the heap, so an entry may stand for a transaction that
has been handed out, cancelled or queued again. What every run keeps is one way round only:
whoever is queued has an entry. Priority and creation time never change, so the entries keep
their order whatever happens to the statuses.
-/

namespace SolTrade.Trading

open Library

/-! ### The order of the heap -/

namespace PendingTransaction

variable {a b c a' b' : PendingTransaction}

theorem lt_iff : a.lt b = true ↔
    b.priority < a.priority ∨ a.priority = b.priority ∧ a.createdAt < b.createdAt := by
  unfold lt
  split
  · rename_i hne
    simp [hne]
  · rename_i heq
    rw [not_not] at heq
    simp [heq]

theorem lt_asymm (h : a.lt b = true) : b.lt a = false := by
  rw [Bool.eq_false_iff, Ne, lt_iff]
  rw [lt_iff] at h
  rintro (hba | ⟨heq, hba⟩)
  · omega
  · rcases h with hab | ⟨-, hab⟩
    · omega
    · exact lt_irrefl _ (hab.trans hba)

theorem lt_trans_false (hab : a.lt b = false) (hbc : b.lt c = false) : a.lt c = false := by
  rw [Bool.eq_false_iff, Ne, lt_iff, not_or, not_and, not_lt] at hab hbc ⊢
  constructor
  · omega
  · intro heq
    have h₁ := hab.2 (by omega)
    have h₂ := hbc.2 (by omega)
    rw [not_lt] at h₁ h₂ ⊢
    exact h₂.trans h₁

theorem lt_congr (hp : a.priority = a'.priority) (hc : a.createdAt = a'.createdAt)
    (hp' : b.priority = b'.priority) (hc' : b.createdAt = b'.createdAt) : a.lt b = a'.lt b' := by
  unfold lt
  rw [hp, hc, hp', hc']

end PendingTransaction

namespace TransactionPool

variable {config : PoolConfig} {pool pool' rest : TransactionPool} {id j k : ℕ}
  {status : TransactionStatus} {now : ℚ} {batch : List ℕ}
  {f : PendingTransaction → PendingTransaction}

theorem before_eq_of_some {a b : PendingTransaction} (ha : pool.transactions[id]? = some a)
    (hb : pool.transactions[k]? = some b) : pool.before id k = a.lt b := by
  simp [before, ha, hb]

theorem ordered {ids : List ℕ} (h : ∀ id ∈ ids, id < pool.transactions.length) :
    Heapq.Ordered pool.before ids where
  asymm i hi j hj hij := by
    rw [before_eq_of_some (List.getElem?_eq_getElem (h i hi))
      (List.getElem?_eq_getElem (h j hj))] at hij
    rw [before_eq_of_some (List.getElem?_eq_getElem (h j hj))
      (List.getElem?_eq_getElem (h i hi))]
    exact PendingTransaction.lt_asymm hij
  trans i hi j hj k hk hij hjk := by
    rw [before_eq_of_some (List.getElem?_eq_getElem (h i hi))
      (List.getElem?_eq_getElem (h j hj))] at hij
    rw [before_eq_of_some (List.getElem?_eq_getElem (h j hj))
      (List.getElem?_eq_getElem (h k hk))] at hjk
    rw [before_eq_of_some (List.getElem?_eq_getElem (h i hi))
      (List.getElem?_eq_getElem (h k hk))]
    exact PendingTransaction.lt_trans_false hij hjk

/-- A change of a record that leaves its priority and its creation time. -/
def KeepsKey (f : PendingTransaction → PendingTransaction) : Prop :=
  ∀ t, (f t).priority = t.priority ∧ (f t).createdAt = t.createdAt

theorem before_modify (hf : KeepsKey f) : (pool.modify id f).before = pool.before := by
  have hrecord : ∀ (i : ℕ) (t : PendingTransaction),
      (if id = i then f t else t).priority = t.priority ∧
        (if id = i then f t else t).createdAt = t.createdAt := by
    intro i t
    split
    · exact hf t
    · exact ⟨rfl, rfl⟩
  funext i j
  unfold before modify
  simp only [List.getElem?_modify]
  cases pool.transactions[i]? with
  | none => rfl
  | some a => cases pool.transactions[j]? with
    | none => rfl
    | some b =>
        exact PendingTransaction.lt_congr (hrecord i a).1 (hrecord i a).2 (hrecord j b).1
          (hrecord j b).2

@[simp] theorem length_modify :
    (pool.modify id f).transactions.length = pool.transactions.length :=
  List.length_modify _ _ _

theorem before_setStatus : (pool.setStatus id status).before = pool.before :=
  before_modify fun _ => ⟨rfl, rfl⟩

/-! ### Entries -/

/-- The heap holds transactions of the table, in the order of a heap. -/
structure HeapSound (pool : TransactionPool) : Prop where
  known : ∀ id ∈ pool.queue, id < pool.transactions.length
  heap : Heapq.IsHeap pool.before pool.queue

/-- The heap is sound, and whoever is queued has an entry. -/
structure EntriesSound (pool : TransactionPool) : Prop extends pool.HeapSound where
  queued : ∀ id, pool.statusOf id = some .queued → id ∈ pool.queue

theorem HeapSound.of_eq (h : pool.HeapSound) (hqueue : pool'.queue = pool.queue)
    (hlength : pool'.transactions.length = pool.transactions.length)
    (hbefore : pool'.before = pool.before) : pool'.HeapSound where
  known := by rw [hqueue, hlength]; exact h.known
  heap := by rw [hqueue, hbefore]; exact h.heap

/-- A change of a record that queues nobody. -/
theorem EntriesSound.of_eq (h : pool.EntriesSound) (hqueue : pool'.queue = pool.queue)
    (hlength : pool'.transactions.length = pool.transactions.length)
    (hbefore : pool'.before = pool.before)
    (hstatus : ∀ k, pool'.statusOf k = some .queued → pool.statusOf k = some .queued) :
    pool'.EntriesSound where
  toHeapSound := h.toHeapSound.of_eq hqueue hlength hbefore
  queued k hk := by
    rw [hqueue]
    exact h.queued k (hstatus k hk)

theorem mem_push : k ∈ (pool.push id).queue ↔ k ∈ pool.queue ∨ k = id := by
  show k ∈ Heapq.heappush pool.before pool.queue id ↔ _
  rw [(Heapq.heappush_perm _ _).mem_iff, List.mem_append, List.mem_singleton]

theorem HeapSound.push (h : pool.HeapSound) (hid : id < pool.transactions.length) :
    (pool.push id).HeapSound where
  known := by
    intro k hk
    rcases mem_push.1 hk with hk | rfl
    · exact h.known k hk
    · exact hid
  heap := by
    apply Heapq.isHeap_heappush (ordered _) h.heap
    rw [List.forall_mem_append, List.forall_mem_singleton]
    exact ⟨h.known, hid⟩

theorem mem_of_pop (hpop : pool.pop = some (id, rest)) : pool.queue.Perm (id :: rest.queue) := by
  unfold pop at hpop
  obtain ⟨⟨first, queue⟩, hheap, hpop⟩ := Option.map_eq_some_iff.1 hpop
  cases hpop
  exact Heapq.heappop_perm hheap

theorem before_of_pop (hpop : pool.pop = some (id, rest)) : rest.before = pool.before := by
  funext i j
  unfold before
  rw [transactions_of_pop hpop]

theorem HeapSound.of_pop (h : pool.HeapSound) (hpop : pool.pop = some (id, rest)) :
    rest.HeapSound where
  known k hk := by
    rw [transactions_of_pop hpop]
    exact h.known k ((mem_of_pop hpop).mem_iff.2 (List.mem_cons_of_mem id hk))
  heap := by
    rw [before_of_pop hpop]
    unfold pop at hpop
    obtain ⟨⟨first, queue⟩, hheap, hpop⟩ := Option.map_eq_some_iff.1 hpop
    cases hpop
    exact Heapq.isHeap_heappop (ordered h.known) h.heap hheap

/-- No entry is more urgent than the one that is popped. -/
theorem HeapSound.not_before_popped (h : pool.HeapSound) (hpop : pool.pop = some (id, rest))
    (hk : k ∈ pool.queue) : pool.before k id = false := by
  unfold pop at hpop
  obtain ⟨⟨first, queue⟩, hheap, hpop⟩ := Option.map_eq_some_iff.1 hpop
  cases hpop
  exact Heapq.not_before_popped (ordered h.known) h.heap hheap hk

theorem before_handle : (pool.handle id now batch).2.before = pool.before := by
  unfold handle
  split
  · exact before_setStatus
  · split
    · exact before_setStatus
    · rfl

theorem length_handle :
    (pool.handle id now batch).2.transactions.length = pool.transactions.length := by
  unfold handle
  split
  · exact length_modify
  · split
    · exact length_modify
    · rfl

/-- Whoever is still queued has another entry than the one that is handled. -/
theorem EntriesSound.handle (h : pool.EntriesSound) (hpop : pool.pop = some (id, rest)) :
    (rest.handle id now batch).2.EntriesSound where
  toHeapSound := (h.toHeapSound.of_pop hpop).of_eq (handle_queue ..) length_handle before_handle
  queued k hk := by
    rw [handle_queue]
    rw [statusOf_handle] at hk
    split at hk
    · contradiction
    · split at hk
      · contradiction
      · rename_i hother
        have hentry := h.queued k ((statusOf_of_pop hpop).symm.trans hk)
        rcases List.mem_cons.1 ((mem_of_pop hpop).mem_iff.1 hentry) with rfl | hrest
        · exact absurd ⟨rfl, hk⟩ hother
        · exact hrest

/-! ### Who is not queued -/

/-- The transaction is in the table and not queued. -/
def Unqueued (pool : TransactionPool) (id : ℕ) : Prop :=
  ∃ status, pool.statusOf id = some status ∧ status ≠ .queued

theorem Unqueued.ne_queued (h : pool.Unqueued id) : pool.statusOf id ≠ some .queued := by
  obtain ⟨status, hstatus, hne⟩ := h
  rw [hstatus]
  exact fun h => hne (Option.some_inj.1 h)

theorem Unqueued.of_overwritten (h : pool.Unqueued k) (hne : status ≠ .queued)
    (hstatus : pool'.statusOf k =
      if id = k then (pool.statusOf k).map fun _ => status else pool.statusOf k) :
    pool'.Unqueued k := by
  obtain ⟨old, hold, hold'⟩ := h
  by_cases hk : id = k
  · exact ⟨status, by rw [hstatus, if_pos hk, hold, Option.map_some], hne⟩
  · exact ⟨old, by rw [hstatus, if_neg hk, hold], hold'⟩

theorem Unqueued.setStatus (h : pool.Unqueued k) (hne : status ≠ .queued) :
    (pool.setStatus id status).Unqueued k :=
  h.of_overwritten hne statusOf_setStatus

theorem Unqueued.handle (h : pool.Unqueued k) : (pool.handle id now batch).2.Unqueued k := by
  unfold TransactionPool.handle
  split
  · exact h.setStatus (by decide)
  · split
    · exact h.setStatus (by decide)
    · exact h

/-- Whose entry has been handled is not queued. -/
theorem unqueued_handle (hid : id < pool.transactions.length) :
    (pool.handle id now batch).2.Unqueued id := by
  unfold Unqueued
  rw [statusOf_handle]
  by_cases hexpired : pool.isExpired id now = true
  · exact ⟨.expired, if_pos ⟨rfl, hexpired⟩, by decide⟩
  · by_cases hqueued : pool.statusOf id = some .queued
    · exact ⟨.processing, by simp [hexpired, hqueued], by decide⟩
    · have hstatus : pool.statusOf id = some pool.transactions[id].status := by
        simp [statusOf, hid]
      refine ⟨pool.transactions[id].status, ?_, fun h => hqueued ?_⟩
      · rw [if_neg fun h => hexpired h.2, if_neg fun h => hqueued h.2, hstatus]
      · rw [hstatus, h]

section BatchLoop

variable {size : ℤ} {readings : ℕ → ℚ} {n : ℕ}

theorem Unqueued.of_pop (h : pool.Unqueued k) (hpop : pool.pop = some (id, rest)) :
    rest.Unqueued k := by
  unfold Unqueued
  rwa [statusOf_of_pop hpop]

theorem Unqueued.batchLoop (h : pool.Unqueued k) :
    (batchLoop size readings pool batch n).2.Unqueued k := by
  induction pool, batch, n using batchLoop.induct size readings with
  | case1 pool batch n hsize hnone => rwa [batchLoop_of_empty hnone]
  | case2 pool batch n hsize id rest hpop handled ih =>
      rw [batchLoop_of_pop hsize hpop]
      exact ih (h.of_pop hpop).handle
  | case3 pool batch n hsize => rwa [batchLoop_of_full hsize]

theorem isExpired_setStatus :
    (pool.setStatus id status).isExpired k now = pool.isExpired k now := by
  unfold isExpired setStatus modify
  rw [List.getElem?_modify]
  cases pool.transactions[k]? with
  | none => rfl
  | some t =>
      by_cases hk : id = k
      · simp [hk, PendingTransaction.isExpired]
      · simp [hk]

theorem isExpired_handle {reading : ℚ} :
    (pool.handle id now batch).2.isExpired k reading = pool.isExpired k reading := by
  unfold handle
  split
  · exact isExpired_setStatus
  · split
    · exact isExpired_setStatus
    · rfl

theorem isExpired_of_pop (hpop : pool.pop = some (id, rest)) :
    rest.isExpired k now = pool.isExpired k now := by
  unfold isExpired
  rw [transactions_of_pop hpop]

/-! ### The loop of a batch -/

/-- The entries that the loop takes from the heap, one for each reading of the clock. -/
def entriesTaken (size : ℤ) (readings : ℕ → ℚ) (pool : TransactionPool) (batch : List ℕ) (k : ℕ) :
    List ℕ :=
  if batch.length < size then
    match h : pool.pop with
    | none => []
    | some (id, rest) =>
        let handled := rest.handle id (readings k) batch
        id :: entriesTaken size readings handled.2 handled.1 (k + 1)
  else []
  termination_by pool.queue.length
  decreasing_by
    rw [handle_queue]
    exact length_queue_of_pop h

theorem entriesTaken_of_pop (hsize : batch.length < size) (hpop : pool.pop = some (id, rest)) :
    entriesTaken size readings pool batch n =
      id :: entriesTaken size readings (rest.handle id (readings n) batch).2
        (rest.handle id (readings n) batch).1 (n + 1) := by
  rw [entriesTaken, if_pos hsize]
  split
  · rename_i hnone
    rw [hpop] at hnone
    contradiction
  · rename_i hpop'
    rw [hpop] at hpop'
    cases hpop'
    rfl

theorem entriesTaken_of_empty (h : pool.pop = none) :
    entriesTaken size readings pool batch n = [] := by
  rw [entriesTaken]
  split
  · split
    · rfl
    · rename_i hpop
      rw [h] at hpop
      contradiction
  · rfl

/-- What the loop makes of the entries that it takes, from the `n`-th reading of the clock on. -/
structure BatchSpec (readings : ℕ → ℚ) (pool : TransactionPool) (n : ℕ) (taken handed : List ℕ)
    (pool' : TransactionPool) : Prop where
  entries : pool.queue.Perm (taken ++ pool'.queue)
  before : pool'.before = pool.before
  sorted : taken.Pairwise fun i j => pool.before j i = false
  left : ∀ i ∈ taken, ∀ j ∈ pool'.queue, pool.before j i = false
  sublist : handed.Sublist taken
  nodup : handed.Nodup
  queued : ∀ id ∈ handed, pool.statusOf id = some .queued
  unexpired : ∀ id ∈ handed, ∃ j, taken[j]? = some id ∧ id ∉ taken.take j ∧
    pool.isExpired id (readings (n + j)) = false
  unqueued : ∀ id ∈ handed, pool'.Unqueued id
  sound : pool'.EntriesSound

theorem BatchSpec.nil (h : pool.EntriesSound) : BatchSpec readings pool n [] [] pool where
  entries := .refl _
  before := rfl
  sorted := .nil
  left := by simp
  sublist := .slnil
  nodup := .nil
  queued := by simp
  unexpired := by simp
  unqueued := by simp
  sound := h

/-- One more entry in front, which is handed out or not. -/
theorem BatchSpec.cons {taken handed : List ℕ} (h : pool.EntriesSound)
    (hpop : pool.pop = some (id, rest))
    (hs : BatchSpec readings (rest.handle id (readings n) batch).2 (n + 1) taken handed pool') :
    BatchSpec readings pool n (id :: taken) handed pool' := by
  have hperm := mem_of_pop hpop
  have hentries := hs.entries
  rw [handle_queue] at hentries
  have hbefore : (rest.handle id (readings n) batch).2.before = pool.before :=
    before_handle.trans (before_of_pop hpop)
  have hid : id < rest.transactions.length := by
    rw [transactions_of_pop hpop]
    exact h.known id (hperm.mem_iff.2 List.mem_cons_self)
  -- who is handed out later is queued then, and the first one no longer is
  have hne : ∀ k ∈ handed, k ≠ id := by
    rintro k hk rfl
    exact (unqueued_handle hid).ne_queued (hs.queued k hk)
  have hfirst : ∀ k ∈ taken ++ pool'.queue, pool.before k id = false := fun k hk =>
    h.not_before_popped hpop
      (hperm.mem_iff.2 (List.mem_cons_of_mem id (hentries.mem_iff.2 hk)))
  constructor
  · exact hperm.trans (hentries.cons id)
  · exact hs.before.trans hbefore
  · rw [List.pairwise_cons, ← hbefore]
    refine ⟨fun k hk => ?_, hs.sorted⟩
    rw [hbefore]
    exact hfirst k (List.mem_append_left _ hk)
  · intro i hi j hj
    rcases List.mem_cons.1 hi with rfl | hi
    · exact hfirst j (List.mem_append_right _ hj)
    · rw [← hbefore]
      exact hs.left i hi j hj
  · exact hs.sublist.cons id
  · exact hs.nodup
  · intro k hk
    have hqueued := hs.queued k hk
    rw [statusOf_handle, if_neg (fun hk' => hne k hk hk'.1.symm),
      if_neg (fun hk' => hne k hk hk'.1.symm), statusOf_of_pop hpop] at hqueued
    exact hqueued
  · intro k hk
    obtain ⟨j, hj, hnew, hunexpired⟩ := hs.unexpired k hk
    refine ⟨j + 1, hj, ?_, ?_⟩
    · rw [List.take_succ_cons, List.mem_cons, not_or]
      exact ⟨hne k hk, hnew⟩
    · rw [isExpired_handle, isExpired_of_pop hpop] at hunexpired
      rwa [Nat.add_right_comm] at hunexpired
  · exact hs.unqueued
  · exact hs.sound

/-- The first entry is handed out if its transaction is queued and not expired. -/
theorem BatchSpec.hand {taken handed : List ℕ}
    (hs : BatchSpec readings pool n (id :: taken) handed pool')
    (hsub : handed.Sublist taken) (hnew : id ∉ handed) (hqueued : pool.statusOf id = some .queued)
    (hunexpired : pool.isExpired id (readings n) = false) (hunqueued : pool'.Unqueued id) :
    BatchSpec readings pool n (id :: taken) (id :: handed) pool' where
  entries := hs.entries
  before := hs.before
  sorted := hs.sorted
  left := hs.left
  sublist := hsub.cons_cons id
  nodup := List.nodup_cons.2 ⟨hnew, hs.nodup⟩
  queued := List.forall_mem_cons.2 ⟨hqueued, hs.queued⟩
  unexpired := by
    rw [List.forall_mem_cons]
    exact ⟨⟨0, rfl, List.not_mem_nil, hunexpired⟩, hs.unexpired⟩
  unqueued := List.forall_mem_cons.2 ⟨hunqueued, hs.unqueued⟩
  sound := hs.sound

theorem handle_batch : (pool.handle id now batch).1 =
    if pool.isExpired id now = false ∧ pool.statusOf id = some .queued then batch ++ [id]
    else batch := by
  unfold handle
  by_cases hexpired : pool.isExpired id now = true
  · simp [hexpired]
  · by_cases hqueued : pool.statusOf id = some .queued
    · simp [hexpired, hqueued]
    · simp [hexpired, hqueued]

theorem batchLoop_spec (size : ℤ) (readings : ℕ → ℚ) (batch : List ℕ) (n : ℕ)
    (h : pool.EntriesSound) : ∃ handed,
    (batchLoop size readings pool batch n).1 = batch ++ handed ∧
      BatchSpec readings pool n (entriesTaken size readings pool batch n) handed
        (batchLoop size readings pool batch n).2 := by
  induction pool, batch, n using batchLoop.induct size readings with
  | case1 pool batch n hsize hnone =>
      rw [batchLoop_of_empty hnone, entriesTaken_of_empty hnone]
      exact ⟨[], (List.append_nil _).symm, .nil h⟩
  | case2 pool batch n hsize id rest hpop handled ih =>
      rw [batchLoop_of_pop hsize hpop, entriesTaken_of_pop hsize hpop]
      obtain ⟨handed, hbatch, hs⟩ := ih (h.handle hpop)
      have hcons := hs.cons h hpop
      have hid : id < rest.transactions.length := by
        rw [transactions_of_pop hpop]
        exact h.known id ((mem_of_pop hpop).mem_iff.2 List.mem_cons_self)
      have hunqueued : handled.2.Unqueued id := unqueued_handle hid
      have hfirst : handled.1 = _ := handle_batch
      by_cases hout : rest.isExpired id (readings n) = false ∧ rest.statusOf id = some .queued
      · rw [if_pos hout] at hfirst
        refine ⟨id :: handed, by rw [hbatch, hfirst, List.append_assoc]; rfl, ?_⟩
        have hnew : id ∉ handed := fun hmem => hunqueued.ne_queued (hs.queued id hmem)
        refine hcons.hand hs.sublist hnew ?_ ?_ hunqueued.batchLoop
        · rw [← statusOf_of_pop hpop]
          exact hout.2
        · rw [← isExpired_of_pop hpop]
          exact hout.1
      · rw [if_neg hout] at hfirst
        exact ⟨handed, by rw [hbatch, hfirst], hcons⟩
  | case3 pool batch n hsize =>
      rw [batchLoop_of_full hsize, entriesTaken, if_neg hsize]
      exact ⟨[], (List.append_nil _).symm, .nil h⟩

end BatchLoop

/-! ### The other operations -/

theorem queued_of_overwritten (hne : status ≠ .queued)
    (h : (if id = k then (pool.statusOf k).map fun _ => status else pool.statusOf k) =
      some .queued) : pool.statusOf k = some .queued := by
  split at h
  · obtain ⟨_, -, hstatus⟩ := Option.map_eq_some_iff.1 h
    exact absurd hstatus hne
  · exact h

theorem EntriesSound.setStatus (h : pool.EntriesSound) (hne : status ≠ .queued) :
    (pool.setStatus id status).EntriesSound :=
  h.of_eq rfl length_modify before_setStatus fun _ hk =>
    queued_of_overwritten hne (statusOf_setStatus.symm.trans hk)

/-- A record that is added at the end of the table gets an entry. -/
theorem EntriesSound.store {stored : TransactionPool} {pending : PendingTransaction}
    (h : pool.EntriesSound) (hqueue : stored.queue = pool.queue)
    (htransactions : stored.transactions = pool.transactions ++ [pending]) :
    (stored.push pool.transactions.length).EntriesSound := by
  have hlength : stored.transactions.length = pool.transactions.length + 1 := by
    rw [htransactions, List.length_append, List.length_singleton]
  have hold : ∀ k < pool.transactions.length,
      stored.transactions[k]? = pool.transactions[k]? := by
    intro k hk
    rw [htransactions, List.getElem?_append_left hk]
  have hheap : stored.HeapSound := by
    constructor
    · intro k hk
      rw [hqueue] at hk
      rw [hlength]
      exact Nat.lt_succ_of_lt (h.known k hk)
    · rw [hqueue]
      apply h.heap.congr
      intro i hi j hj
      unfold before
      rw [hold i (h.known i hi), hold j (h.known j hj)]
  refine ⟨hheap.push (by omega), fun k hk => mem_push.2 ?_⟩
  rw [statusOf_push, statusOf] at hk
  by_cases hlt : k < pool.transactions.length
  · rw [hold k hlt] at hk
    rw [hqueue]
    exact .inl (h.queued k hk)
  · obtain ⟨t, ht, -⟩ := Option.map_eq_some_iff.1 hk
    obtain ⟨hroom, -⟩ := List.getElem?_eq_some_iff.1 ht
    exact .inr (by omega)

theorem EntriesSound.submit {transaction : List UInt8} {priority : ℤ} {ttlMs : Option ℤ}
    (h : pool.EntriesSound) :
    (pool.submit config transaction priority ttlMs now).2.EntriesSound := by
  unfold TransactionPool.submit
  split
  · exact h.of_eq rfl rfl rfl fun _ hk => hk
  · exact h.store rfl rfl

theorem EntriesSound.cancel (h : pool.EntriesSound) : (pool.cancel id).2.EntriesSound := by
  unfold TransactionPool.cancel
  split
  · have hdropped : (pool.setStatus id .dropped).EntriesSound := h.setStatus (by decide)
    exact hdropped.of_eq rfl rfl rfl fun _ hk => hk
  · exact h

theorem EntriesSound.markSubmitted {signature : String} (h : pool.EntriesSound) :
    (pool.markSubmitted id signature now).EntriesSound := by
  have hstatus : ∀ k, (pool.markSubmitted id signature now).statusOf k = some .queued →
      pool.statusOf k = some .queued := fun k hk =>
    queued_of_overwritten (by decide) (statusOf_markSubmitted.symm.trans hk)
  unfold TransactionPool.markSubmitted at hstatus ⊢
  split
  · exact h
  · rename_i t ht
    simp only [ht] at hstatus
    exact h.of_eq rfl length_modify (before_modify fun _ => ⟨rfl, rfl⟩) hstatus

theorem EntriesSound.markConfirmed (h : pool.EntriesSound) :
    (pool.markConfirmed id now).EntriesSound := by
  have hstatus : ∀ k, (pool.markConfirmed id now).statusOf k = some .queued →
      pool.statusOf k = some .queued := fun k hk =>
    queued_of_overwritten (by decide) (statusOf_markConfirmed.symm.trans hk)
  unfold TransactionPool.markConfirmed at hstatus ⊢
  split
  · exact h
  · rename_i t ht
    simp only [ht] at hstatus
    exact h.of_eq rfl length_modify (before_modify fun _ => ⟨rfl, rfl⟩) hstatus

/-- A failure that is not the last one queues the transaction again, with a new entry. -/
theorem EntriesSound.markFailed {error : String} (h : pool.EntriesSound) :
    (pool.markFailed id error).EntriesSound := by
  have hother : ∀ k, id ≠ k → (pool.modify id (·.fail error)).statusOf k = pool.statusOf k :=
    fun k hk => (statusOf_modify _).trans (if_neg hk)
  unfold TransactionPool.markFailed
  split
  · exact h
  · rename_i t ht
    have hmarked : ({ pool.modify id (·.fail error) with
        processing := pool.processing.erase id } : TransactionPool).HeapSound :=
      h.toHeapSound.of_eq rfl length_modify (before_modify fun _ => ⟨rfl, rfl⟩)
    obtain ⟨hid, -⟩ := List.getElem?_eq_some_iff.1 ht
    split
    · refine ⟨hmarked.push (hid.trans_eq length_modify.symm), fun k hk => mem_push.2 ?_⟩
      by_cases hk' : id = k
      · exact .inr hk'.symm
      · exact .inl (h.queued k ((hother k hk').symm.trans hk))
    · rename_i hlast
      refine h.of_eq rfl length_modify (before_modify fun _ => ⟨rfl, rfl⟩) fun k hk => ?_
      have hk : (pool.modify id (·.fail error)).statusOf k = some .queued := hk
      by_cases hk' : id = k
      · rw [statusOf_modify, if_pos hk', ← hk', ht] at hk
        simp [PendingTransaction.fail, hlast] at hk
      · exact (hother k hk').symm.trans hk

theorem EntriesSound.cleanupExpired {readings : ℕ → ℚ} (h : pool.EntriesSound) :
    (pool.cleanupExpired readings).EntriesSound := by
  unfold TransactionPool.cleanupExpired
  dsimp only
  generalize (List.range pool.transactions.length).filter _ = ids
  induction ids generalizing pool with
  | nil => exact h
  | cons id ids ih =>
      have hexpired : (pool.setStatus id .expired).EntriesSound := h.setStatus (by decide)
      exact ih (hexpired.of_eq rfl rfl rfl fun _ hk => hk)

theorem EntriesSound.getBatch {maxSize : Option ℤ} {readings : ℕ → ℚ} (h : pool.EntriesSound) :
    (pool.getBatch config maxSize readings).2.EntriesSound := by
  obtain ⟨_, -, hs⟩ := batchLoop_spec _ _ _ _ h
  exact hs.sound

theorem EntriesSound.apply (h : pool.EntriesSound) (call : PoolCall) :
    (call.apply config pool).EntriesSound := by
  cases call with
  | submit => exact h.submit
  | getBatch => exact h.getBatch
  | cancel => exact h.cancel
  | markSubmitted => exact h.markSubmitted
  | markConfirmed => exact h.markConfirmed
  | markFailed => exact h.markFailed
  | cleanupExpired => exact h.cleanupExpired

theorem EntriesSound.after (config : PoolConfig) (calls : List PoolCall) :
    (TransactionPool.after config calls).EntriesSound := by
  apply Runs.run_invariant fun _ call h => h.apply call
  exact ⟨⟨fun _ hk => absurd hk List.not_mem_nil, fun i _ => rfl⟩, fun k hk => by
    simp [statusOf, empty] at hk⟩

/-- Only a failure queues a transaction again. -/
theorem Unqueued.apply (h : pool.Unqueued k) (call : PoolCall)
    (hcall : ∀ error, call ≠ .markFailed k error) : (call.apply config pool).Unqueued k := by
  cases call with
  | submit transaction priority ttlMs now =>
      obtain ⟨status, hstatus, hne⟩ := h
      exact ⟨status, statusOf_submit hstatus, hne⟩
  | getBatch maxSize readings => exact h.batchLoop
  | cancel id =>
      show (pool.cancel id).2.Unqueued k
      unfold cancel
      split
      · exact h.of_overwritten (by decide) statusOf_setStatus
      · exact h
  | markSubmitted id signature now => exact h.of_overwritten (by decide) statusOf_markSubmitted
  | markConfirmed id now => exact h.of_overwritten (by decide) statusOf_markConfirmed
  | markFailed id error =>
      have hother : id ≠ k := by
        rintro rfl
        exact hcall error rfl
      obtain ⟨status, hstatus, hne⟩ := h
      exact ⟨status, (statusOf_markFailed.trans (if_neg hother)).trans hstatus, hne⟩
  | cleanupExpired readings =>
      show (pool.cleanupExpired readings).Unqueued k
      unfold cleanupExpired
      dsimp only
      generalize (List.range pool.transactions.length).filter _ = ids
      induction ids generalizing pool with
      | nil => exact h
      | cons id ids ih => exact ih (h.of_overwritten (by decide) statusOf_setStatus)

end TransactionPool

open TransactionPool

theorem unqueued_of_handedOut {config : PoolConfig} {pool : TransactionPool} {id : ℕ}
    {call : PoolCall} (h : pool.EntriesSound) (hid : id ∈ call.handedOut config pool) :
    (call.apply config pool).Unqueued id := by
  cases call with
  | getBatch maxSize readings =>
      obtain ⟨handed, hbatch, hs⟩ := batchLoop_spec _ _ _ _ h
      have hmem : id ∈ [] ++ handed := hbatch ▸ hid
      exact hs.unqueued id hmem
  | _ => contradiction

/-- Calls that do not fail a transaction do not queue it. -/
theorem TransactionPool.Unqueued.run {pool : TransactionPool} {id : ℕ} {calls : List PoolCall}
    (h : pool.Unqueued id) (config : PoolConfig) (hcalls : ∀ error, .markFailed id error ∉ calls) :
    (Runs.run (PoolCall.apply config) pool calls).Unqueued id := by
  induction calls generalizing pool with
  | nil => exact h
  | cons call calls ih =>
      simp only [List.mem_cons, not_or] at hcalls
      exact ih (h.apply call fun error heq => (hcalls error).1 heq.symm) fun error =>
        (hcalls error).2

/-- In every run whoever is queued has an entry in the heap, and what is handed out again has
failed in between. A batch has no transaction twice and none that has expired when its entry is
taken; it is ordered, and nobody who is queued after it is more urgent than anyone in it. -/
theorem transactionPool_handsOut (config : PoolConfig) (calls : List PoolCall) :
    (∀ id, (TransactionPool.after config calls).statusOf id = some .queued →
      id ∈ (TransactionPool.after config calls).queue) ∧
    (∀ pre first mid second post id, calls = pre ++ first :: (mid ++ second :: post) →
      id ∈ first.handedOut config (TransactionPool.after config pre) →
      id ∈ second.handedOut config (TransactionPool.after config (pre ++ first :: mid)) →
      ∃ error, .markFailed id error ∈ mid) ∧
    ∀ maxSize readings pool taken batch left, pool = TransactionPool.after config calls →
      taken = entriesTaken (orDefault maxSize config.batchSize) readings pool [] 0 →
      pool.getBatch config maxSize readings = (batch, left) →
      batch.Nodup ∧
      (∀ id ∈ batch, ∃ j, taken[j]? = some id ∧ id ∉ taken.take j ∧
        pool.isExpired id (readings j) = false) ∧
      (batch.Pairwise fun i j => pool.before j i = false) ∧
      ∀ id ∈ batch, ∀ k, left.statusOf k = some .queued → pool.before k id = false := by
  refine ⟨(EntriesSound.after config calls).queued, ?_, ?_⟩
  · intro pre first mid second post id _ hfirst hsecond
    by_contra hnone
    -- without a failure he stays unqueued, and only who is queued is handed out
    have hout := unqueued_of_handedOut (.after config pre) hfirst
    have hlater := hout.run config fun error hmem => hnone ⟨error, hmem⟩
    refine Unqueued.ne_queued ?_ (handedOut_queued hsecond)
    unfold TransactionPool.after
    rw [Runs.run_append]
    exact hlater
  · rintro maxSize readings pool taken batch left rfl rfl hbatch
    obtain ⟨handed, hhanded, hs⟩ := batchLoop_spec (orDefault maxSize config.batchSize) readings
      [] 0 (.after config calls)
    rw [← getBatch, hbatch] at hhanded hs
    obtain rfl : batch = handed := hhanded
    refine ⟨hs.nodup, ?_, hs.sorted.sublist hs.sublist, ?_⟩
    · intro id hid
      obtain ⟨j, hj⟩ := hs.unexpired id hid
      rw [Nat.zero_add] at hj
      exact ⟨j, hj⟩
    · intro id hid k hk
      exact hs.left id (hs.sublist.subset hid) k (hs.sound.queued k hk)

theorem transactionPool_handsOut_retry :
    0 ∈ (PoolCall.getBatch none fun _ => 20).handedOut {}
        (TransactionPool.after {} [.submit [1] 0 none 10]) ∧
      0 ∈ (PoolCall.getBatch none fun _ => 30).handedOut {} (TransactionPool.after {}
        [.submit [1] 0 none 10, .getBatch none fun _ => 20, .markFailed 0 "late"]) ∧
      ∃ error, PoolCall.markFailed 0 error ∈ [.markFailed 0 "late"] := by
  have hfirst : 0 ∈ (PoolCall.getBatch none fun _ => 20).handedOut {}
      (TransactionPool.after {} [.submit [1] 0 none 10]) := by decide +kernel
  have hsecond : 0 ∈ (PoolCall.getBatch none fun _ => 30).handedOut {} (TransactionPool.after {}
      [.submit [1] 0 none 10, .getBatch none fun _ => 20, .markFailed 0 "late"]) := by
    decide +kernel
  obtain ⟨-, hbetween, -⟩ := transactionPool_handsOut {} [.submit [1] 0 none 10,
    .getBatch none fun _ => 20, .markFailed 0 "late", .getBatch none fun _ => 30]
  exact ⟨hfirst, hsecond, hbetween [.submit [1] 0 none 10] _ [.markFailed 0 "late"] _ [] 0 rfl
    hfirst hsecond⟩

end SolTrade.Trading
