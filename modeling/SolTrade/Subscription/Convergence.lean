import SolTrade.Subscription.Cache

/-!
The cache converges.

A run of calls delivers its updates one after the other, whatever their batching.
What is stored then depends only on which updates were delivered.
-/

namespace SolTrade.Subscription

open Library LastWriter

/-- A call of the cache. -/
inductive CacheCall where
  | update (key : Pubkey) (a : CachedAccount)
  | updateMany (updates : List (Pubkey × CachedAccount))

/-- The updates that a call delivers. -/
def CacheCall.updates : CacheCall → List (Pubkey × CachedAccount)
  | .update key a => [(key, a)]
  | .updateMany updates => updates

/-- The cache after a call. -/
def CacheCall.apply (c : SubscriptionAccountCache) : CacheCall → SubscriptionAccountCache
  | .update key a => (c.update key a.toAccountUpdate).2
  | .updateMany updates => (c.updateMany (carried updates)).2

/-- The updates that a run delivers. -/
def delivered (calls : List CacheCall) : List (Pubkey × CachedAccount) :=
  calls.flatMap CacheCall.updates

/-- A new cache after a run. -/
def runCalls (calls : List CacheCall) : SubscriptionAccountCache :=
  calls.foldl CacheCall.apply .empty

/-- The updates of a batch one by one, and how many of them changed the cache. -/
def updateEach (c : SubscriptionAccountCache) :
    List (Pubkey × CachedAccount) → Except ValueError ℕ × SubscriptionAccountCache
  | [] => (.ok 0, c)
  | (key, a) :: rest =>
      match c.update key a.toAccountUpdate with
      | (.error e, c') => (.error e, c')
      | (.ok changed, c') =>
          match updateEach c' rest with
          | (.error e, c'') => (.error e, c'')
          | (.ok count, c'') => (.ok (changed.toNat + count), c'')

/-- No two updates of a key carry one version with different contents. -/
abbrev NoConflict (us : List (Pubkey × CachedAccount)) : Prop := Coherent CachedAccount.version us

section Calls

variable {c : SubscriptionAccountCache} {us : List (Pubkey × CachedAccount)} {key : Pubkey}
  {a : CachedAccount} {calls : List CacheCall}

theorem CacheCall.apply_eq (c : SubscriptionAccountCache) (call : CacheCall) :
    call.apply c = (c.updateMany (carried call.updates)).2 := by
  cases call <;> rfl

theorem update_of_coherent (hc : c.conflicted = false)
    (h : Agrees CachedAccount.version c.accounts [(key, a)]) :
    c.update key a.toAccountUpdate =
      (.ok (decide (Newer CachedAccount.version (c.accounts key) a)),
        ⟨deliver CachedAccount.version c.accounts (key, a), false⟩) := by
  have hmany : c.updateMany [(key, a.toAccountUpdate)] = _ :=
    updateMany_of_coherent hc h fun k x y hx hy _ => by
      rw [List.mem_singleton] at hx hy
      exact congrArg Prod.snd (hx.trans hy.symm)
  rw [SubscriptionAccountCache.update, hmany]
  by_cases hn : Newer CachedAccount.version (c.accounts key) a <;>
    simp [changes, hn, Except.map]

/-- A batch does what its updates do one by one. -/
theorem updateEach_of_coherent (hc : c.conflicted = false)
    (hagrees : Agrees CachedAccount.version c.accounts us) (hus : NoConflict us) :
    updateEach c us =
      (.ok (changes CachedAccount.version c.accounts us),
        ⟨deliverAll CachedAccount.version c.accounts us, false⟩) := by
  induction us generalizing c with
  | nil =>
      obtain ⟨accounts, conflicted⟩ := c
      simp only at hc
      subst hc
      rfl
  | cons u us ih =>
      obtain ⟨key, a⟩ := u
      have hhead : Agrees CachedAccount.version c.accounts [(key, a)] := fun k x hx y hy =>
        hagrees k x hx y (List.mem_singleton.1 hy ▸ List.mem_cons_self)
      rw [updateEach, update_of_coherent hc hhead]
      dsimp only
      rw [ih rfl (hagrees.tail hus) hus.tail]
      by_cases hn : Newer CachedAccount.version (c.accounts key) a <;> simp [changes, hn]

theorem delivered_append (calls calls' : List CacheCall) :
    delivered (calls ++ calls') = delivered calls ++ delivered calls' :=
  List.flatMap_append

/-- The run lemma: a run without conflicts delivers all its updates. -/
theorem runCalls_eq (h : NoConflict (delivered calls)) :
    runCalls calls = ⟨deliverAll CachedAccount.version (fun _ => none) (delivered calls), false⟩ := by
  induction calls using List.reverseRecOn with
  | nil => rfl
  | append_singleton calls call ih =>
      have hsingle : delivered [call] = call.updates := List.append_nil _
      rw [delivered_append, hsingle] at h ⊢
      have hrun := ih fun k x y hx hy =>
        h k x y (List.mem_append_left _ hx) (List.mem_append_left _ hy)
      have hcall : (runCalls calls).updateMany (carried call.updates) = _ :=
        updateMany_of_coherent (by rw [hrun]) (by rw [hrun]; exact agrees_deliverAll h)
          fun k x y hx hy => h k x y (List.mem_append_right _ hx) (List.mem_append_right _ hy)
      have hstep : runCalls (calls ++ [call]) = call.apply (runCalls calls) := by
        rw [runCalls, List.foldl_append]
        rfl
      rw [hstep, CacheCall.apply_eq, hcall, hrun, deliverAll_append]

end Calls

/-- Convergence of the account cache. After every run without conflicts the cache
holds for each key the delivered update with the greatest version and is not
marked; a run that delivers the same updates in any other order and batching ends
in the same map; and a batch that follows does what its updates do one by one. No
call of any run lowers a stored version. -/
theorem subscriptionAccountCache_converges (calls : List CacheCall) :
    (NoConflict (delivered calls) →
      (runCalls calls).conflicted = false ∧
      (∀ key a, (runCalls calls).accounts key = some a ↔
        (key, a) ∈ delivered calls ∧
          ∀ b, (key, b) ∈ delivered calls → b.version ≤ a.version) ∧
      (∀ calls', (delivered calls').Perm (delivered calls) →
        (runCalls calls').accounts = (runCalls calls).accounts)) ∧
    (∀ batch, NoConflict (delivered calls ++ batch) →
      (∃ count, ((runCalls calls).updateMany (carried batch)).1 = .ok count) ∧
      (runCalls calls).updateMany (carried batch) = updateEach (runCalls calls) batch) ∧
    ∀ call key a, (runCalls calls).accounts key = some a →
      ∃ b, (runCalls (calls ++ [call])).accounts key = some b ∧ a.version ≤ b.version := by
  refine ⟨fun h => ⟨?_, fun key a => ?_, fun calls' hperm => ?_⟩, fun batch h => ?_,
    fun call key a ha => ?_⟩
  · rw [runCalls_eq h]
  · rw [runCalls_eq h]
    exact deliverAll_eq_some_iff h
  · have h' : NoConflict (delivered calls') := fun k x y hx hy =>
      h k x y (hperm.mem_iff.1 hx) (hperm.mem_iff.1 hy)
    rw [runCalls_eq h, runCalls_eq h']
    exact deliverAll_eq_of_mem_iff h' fun u => hperm.mem_iff
  · have hold : NoConflict (delivered calls) := fun k x y hx hy =>
      h k x y (List.mem_append_left _ hx) (List.mem_append_left _ hy)
    have hbatch : NoConflict batch := fun k x y hx hy =>
      h k x y (List.mem_append_right _ hx) (List.mem_append_right _ hy)
    have hrun := runCalls_eq hold
    have hagrees : Agrees CachedAccount.version (runCalls calls).accounts batch := by
      rw [hrun]
      exact agrees_deliverAll h
    have hconflicted : (runCalls calls).conflicted = false := by rw [hrun]
    rw [updateMany_of_coherent hconflicted hagrees hbatch,
      updateEach_of_coherent hconflicted hagrees hbatch]
    exact ⟨⟨_, rfl⟩, rfl⟩
  · rw [runCalls, List.foldl_append]
    change ∃ b, (call.apply (runCalls calls)).accounts key = some b ∧ _
    rw [CacheCall.apply_eq]
    exact updateMany_mono ha

end SolTrade.Subscription
