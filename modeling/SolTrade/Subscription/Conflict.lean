import SolTrade.Subscription.Snapshot

/-!
A conflicting version changes no account and is latched.

The staging of a batch ends in a conflict only at an entry that contradicts a
stored account or an earlier entry. The cache is then marked, no call of a run
removes the mark, and every read asks for it first.
-/

namespace SolTrade.Subscription

open Library

/-- Two accounts of one version with different contents. -/
def Contradicts (a b : CachedAccount) : Prop :=
  (a.slot, a.writeVersion) = (b.slot, b.writeVersion) ∧ (a.owner ≠ b.owner ∨ a.data ≠ b.data)

/-- An entry of the batch contradicts the stored account of its key, or an earlier
entry of its key. -/
def Conflicts (accounts : AccountMap) (batch : List (Pubkey × AccountUpdate)) : Prop :=
  ∃ pre key update post a, batch = pre ++ (key, update) :: post ∧ ownedAccount update = .ok a ∧
    ∃ old, Contradicts a old ∧
      (accounts key = some old ∨ ∃ earlier, (key, earlier) ∈ pre ∧ ownedAccount earlier = .ok old)

section Staging

variable {accounts pending : AccountMap} {updates : List (Pubkey × AccountUpdate)} {changed : ℕ}

theorem contradicts_of_ne {a old : CachedAccount} (hversion : a.version = old.version)
    (hne : a ≠ old) : Contradicts a old := by
  have hboth : (a.slot, a.writeVersion) = (old.slot, old.writeVersion) := toLex_inj.1 hversion
  refine ⟨hboth, ?_⟩
  by_contra hsame
  rw [not_or, not_not, not_not] at hsame
  obtain ⟨⟨owner, data, slot, writeVersion⟩, _, _⟩ := a
  obtain ⟨⟨owner', data', slot', writeVersion'⟩, _, _⟩ := old
  obtain ⟨hslot, hwrite⟩ := Prod.mk.inj hboth
  obtain ⟨howner, hdata⟩ := hsame
  dsimp only at hslot hwrite howner hdata
  subst hslot hwrite howner hdata
  exact hne rfl

theorem Conflicts.cons {u : Pubkey × AccountUpdate} (h : Conflicts accounts updates) :
    Conflicts accounts (u :: updates) := by
  obtain ⟨pre, key, update, post, a, rfl, ha, old, hold, hfrom⟩ := h
  refine ⟨u :: pre, key, update, post, a, rfl, ha, old, hold, hfrom.imp_right ?_⟩
  rintro ⟨earlier, hmem, he⟩
  exact ⟨earlier, List.mem_cons_of_mem _ hmem, he⟩

/-- What the head of a batch has staged for its key is an earlier entry to the rest. -/
theorem Conflicts.of_staged {key : Pubkey} {update : AccountUpdate} {a : CachedAccount}
    (ha : ownedAccount update = .ok a)
    (h : Conflicts (Function.update accounts key (some a)) updates) :
    Conflicts accounts ((key, update) :: updates) := by
  obtain ⟨pre, k, next, post, b, rfl, hb, old, hold, hfrom⟩ := h
  refine ⟨(key, update) :: pre, k, next, post, b, rfl, hb, old, hold, ?_⟩
  rcases hfrom with hstored | ⟨earlier, hmem, he⟩
  · by_cases hk : k = key
    · subst hk
      rw [Function.update_self] at hstored
      exact .inr ⟨update, List.mem_cons_self, ha.trans (congrArg _ (Option.some.inj hstored))⟩
    · rw [Function.update_of_ne hk] at hstored
      exact .inl hstored
  · exact .inr ⟨earlier, List.mem_cons_of_mem _ hmem, he⟩

/-- Staging stops at a conflict only. -/
theorem stageUpdates_conflict (h : stageUpdates accounts pending changed updates = .conflict) :
    Conflicts (overlay pending accounts) updates := by
  induction updates generalizing pending changed with
  | nil => cases h
  | cons u updates ih =>
      obtain ⟨key, update⟩ := u
      rw [stageUpdates] at h
      cases howned : ownedAccount update with
      | error e =>
          rw [howned] at h
          cases h
      | ok owned =>
          rw [howned] at h
          dsimp only at h
          have hstaged : stageUpdates accounts (Function.update pending key (some owned))
              (changed + 1) updates = .conflict →
              Conflicts (overlay pending accounts) ((key, update) :: updates) := by
            intro hrest
            have hconflicts := ih hrest
            rw [overlay_update] at hconflicts
            exact .of_staged howned hconflicts
          split at h
          · exact hstaged h
          · rename_i old hold
            split at h
            · exact (ih h).cons
            · split at h
              · rename_i hversion
                split at h
                · rename_i hne
                  exact ⟨[], key, update, updates, owned, rfl, howned, old,
                    contradicts_of_ne hversion hne, .inl hold⟩
                · exact (ih h).cons
              · exact hstaged h

theorem stageUpdates_failed {e : ValueError}
    (h : stageUpdates accounts pending changed updates = .failed e) :
    e = .amountOutsideUnsignedRange := by
  induction updates generalizing pending changed with
  | nil => cases h
  | cons u updates ih =>
      obtain ⟨key, update⟩ := u
      rw [stageUpdates] at h
      split at h
      · rename_i e' howned
        cases h
        rw [ownedAccount] at howned
        split at howned
        · split at howned
          · cases howned
          · exact (Except.error.inj howned).symm
        · exact (Except.error.inj howned).symm
      · split at h
        · exact ih h
        · split at h
          · exact ih h
          · split at h
            · split at h
              · cases h
              · exact ih h
            · exact ih h

/-- The three ways in which a batch ends. -/
inductive UpdateManySpec (c : SubscriptionAccountCache) (updates : List (Pubkey × AccountUpdate)) :
    Except ValueError ℕ × SubscriptionAccountCache → Prop
  | done (count : ℕ) (accounts : AccountMap) (hopen : c.conflicted = false) :
      UpdateManySpec c updates (.ok count, ⟨accounts, false⟩)
  | conflict (hopen : c.conflicted = false) (hconflicts : Conflicts c.accounts updates) :
      UpdateManySpec c updates (.error .conflictingAccountVersion, ⟨c.accounts, true⟩)
  | rejected {e : ValueError} (hother : e ≠ .conflictingAccountVersion) :
      UpdateManySpec c updates (.error e, c)

theorem updateMany_spec (c : SubscriptionAccountCache) (updates : List (Pubkey × AccountUpdate)) :
    UpdateManySpec c updates (c.updateMany updates) := by
  obtain ⟨accounts, conflicted⟩ := c
  rw [SubscriptionAccountCache.updateMany]
  cases conflicted with
  | true => exact .rejected (by simp)
  | false =>
      rw [if_neg Bool.false_ne_true]
      dsimp only
      split
      · exact .done _ _ rfl
      · rename_i hstage
        have hconflicts := stageUpdates_conflict hstage
        rw [overlay_none] at hconflicts
        exact .conflict rfl hconflicts
      · rename_i e hstage
        refine .rejected ?_
        rw [stageUpdates_failed hstage]
        simp

end Staging

/-! ### The latch -/

section Latch

variable {sys : SubscriptionSystem}

/-- The cache is marked. -/
def Latched (accounts : AccountMap) (sys : SubscriptionSystem) : Prop :=
  sys.cache = ⟨accounts, true⟩

/-- Every snapshot that is out asks the cache. -/
def AllGuarded (sys : SubscriptionSystem) : Prop :=
  ∀ s ∈ sys.snapshots, s.continuityGuard ≠ none

theorem updateMany_latched (accounts : AccountMap) (updates : List (Pubkey × AccountUpdate)) :
    SubscriptionAccountCache.updateMany ⟨accounts, true⟩ updates =
      (.error .conflictedAccountCache, ⟨accounts, true⟩) := rfl

theorem update_latched (accounts : AccountMap) (key : Pubkey) (a : AccountUpdate) :
    SubscriptionAccountCache.update ⟨accounts, true⟩ key a =
      (.error .conflictedAccountCache, ⟨accounts, true⟩) := rfl

theorem keep_cache (e : Except SnapshotError AccountCacheSnapshot) :
    (sys.keep e).cache = sys.cache := by
  cases e <;> rfl

theorem Latched.apply {accounts : AccountMap} (h : Latched accounts sys) (call : SystemCall) :
    Latched accounts (call.apply sys) := by
  cases call with
  | update key a =>
      show (sys.cache.update key a).2 = _
      rw [h, update_latched]
  | updateMany updates =>
      show (sys.cache.updateMany updates).2 = _
      rw [h, updateMany_latched]
  | snapshot keys => exact (keep_cache _).trans h
  | readySnapshot gate keys => exact (keep_cache _).trans h
  | observedSnapshot gate slot keys => exact (keep_cache _).trans h
  | readiness gate call => exact h

theorem after_call (sys : SubscriptionSystem) (calls : List SystemCall) (call : SystemCall)
    (later : List SystemCall) :
    sys.after (calls ++ call :: later) = (call.apply (sys.after calls)).after later :=
  Runs.run_append

theorem Latched.after {accounts : AccountMap} (h : Latched accounts sys)
    (calls : List SystemCall) : Latched accounts (sys.after calls) :=
  Runs.run_invariant (fun _ call h => h.apply call) h

theorem AllGuarded.keep (h : AllGuarded sys) {e : Except SnapshotError AccountCacheSnapshot}
    (he : ∀ s, e = .ok s → s.continuityGuard ≠ none) : AllGuarded (sys.keep e) := by
  cases e with
  | error e => exact h
  | ok s =>
      intro s' hs'
      rcases List.mem_cons.1 hs' with rfl | hs'
      · exact he _ rfl
      · exact h s' hs'

theorem AllGuarded.apply (h : AllGuarded sys) (call : SystemCall) :
    AllGuarded (call.apply sys) := by
  cases call with
  | update key a => exact h
  | updateMany updates => exact h
  | snapshot keys =>
      refine h.keep fun s hs => ?_
      simp only [SubscriptionSystem.snapshot, bind_eq_ok, pure_eq_ok] at hs
      obtain ⟨_, -, rfl⟩ := hs
      exact Option.some_ne_none _
  | readySnapshot gate keys =>
      refine h.keep fun s hs => ?_
      simp only [SubscriptionSystem.readySnapshot, bind_eq_ok, pure_eq_ok] at hs
      obtain ⟨_, -, _, -, _, -, rfl⟩ := hs
      exact Option.some_ne_none _
  | observedSnapshot gate slot keys =>
      refine h.keep fun s hs => ?_
      simp only [SubscriptionSystem.observedSnapshot, bind_eq_ok, pure_eq_ok] at hs
      obtain ⟨_, -, _, -, _, -, _, -, rfl⟩ := hs
      exact Option.some_ne_none _
  | readiness gate call => exact h

theorem allGuarded_after (gates : ℕ → SubscriptionReadiness) (calls : List SystemCall) :
    AllGuarded ((SubscriptionSystem.init gates).after calls) :=
  Runs.run_invariant (fun _ call h => h.apply call) fun _ hs => nomatch hs

theorem assertUsable_latched {accounts : AccountMap} (h : Latched accounts sys)
    {s : AccountCacheSnapshot} (hs : s.continuityGuard ≠ none) :
    s.assertUsable sys = .error (.value .conflictedAccountCache) := by
  have hcache : sys.cache.assertNoConflict = .error (.value .conflictedAccountCache) := by
    rw [h]
    rfl
  rw [AccountCacheSnapshot.assertUsable]
  cases hguard : s.continuityGuard with
  | none => exact absurd hguard hs
  | some guard =>
      cases guard with
      | noConflict => exact hcache
      | ready gate g =>
          show (do sys.cache.assertNoConflict; _) = _
          rw [hcache]
          rfl

end Latch

/-- All the ways to use the cache raise: updating it and reading an account
through a snapshot that is out. -/
structure AllRaise (sys : SubscriptionSystem) : Prop where
  updateMany : ∀ updates, (sys.cache.updateMany updates).1 = .error .conflictedAccountCache
  update : ∀ key a, (sys.cache.update key a).1 = .error .conflictedAccountCache
  getObservation : ∀ s ∈ sys.snapshots, ∀ key context,
    s.getObservation sys key context = .error (.value .conflictedAccountCache)
  getOptional : ∀ s ∈ sys.snapshots, ∀ key context owner,
    s.getOptional sys key context owner = .error (.value .conflictedAccountCache)
  get : ∀ s ∈ sys.snapshots, ∀ key context owner,
    s.get sys key context owner = .error (.value .conflictedAccountCache)

theorem AllRaise.of_latched {sys : SubscriptionSystem} {accounts : AccountMap}
    (h : Latched accounts sys) (hsys : AllGuarded sys) : AllRaise sys where
  updateMany updates := by rw [h, updateMany_latched]
  update key a := by rw [h, update_latched]
  getObservation s hs key context := by
    rw [AccountCacheSnapshot.getObservation, assertUsable_latched h (hsys s hs)]
    rfl
  getOptional s hs key context owner := by
    rw [AccountCacheSnapshot.getOptional, assertUsable_latched h (hsys s hs)]
    rfl
  get s hs key context owner := by
    rw [AccountCacheSnapshot.get, assertUsable_latched h (hsys s hs)]
    rfl

/-- Conflicts in every reachable system. A batch that raises for a conflict leaves
every account as it was and latches: however the run goes on, updates and reads
raise, also through the snapshots that were out. A batch that raises for anything
else leaves the cache as it was. -/
theorem updateMany_conflict_latched (gates : ℕ → SubscriptionReadiness) (calls : List SystemCall)
    (batch : List (Pubkey × AccountUpdate)) :
    ((((SubscriptionSystem.init gates).after calls).cache.updateMany batch).1 =
        .error .conflictingAccountVersion →
      Conflicts ((SubscriptionSystem.init gates).after calls).cache.accounts batch ∧
      (((SubscriptionSystem.init gates).after calls).cache.updateMany batch).2.accounts =
        ((SubscriptionSystem.init gates).after calls).cache.accounts ∧
      ∀ later, AllRaise ((SubscriptionSystem.init gates).after
          (calls ++ .updateMany batch :: later)) ∧
        ((SubscriptionSystem.init gates).after (calls ++ .updateMany batch :: later)).cache.accounts
          = ((SubscriptionSystem.init gates).after calls).cache.accounts) ∧
    ∀ e, (((SubscriptionSystem.init gates).after calls).cache.updateMany batch).1 = .error e →
      e ≠ .conflictingAccountVersion →
      (((SubscriptionSystem.init gates).after calls).cache.updateMany batch).2 =
        ((SubscriptionSystem.init gates).after calls).cache := by
  have hspec := updateMany_spec ((SubscriptionSystem.init gates).after calls).cache batch
  generalize hresult :
    ((SubscriptionSystem.init gates).after calls).cache.updateMany batch = result at hspec
  refine ⟨fun hraise => ?_, fun e hraise hother => ?_⟩
  · cases hspec with
    | done => cases hraise
    | rejected h => exact absurd (Except.error.inj hraise) h
    | conflict _ hconflicts =>
        refine ⟨hconflicts, rfl, fun later => ?_⟩
        have hlatched : Latched ((SubscriptionSystem.init gates).after calls).cache.accounts
            ((SubscriptionSystem.init gates).after (calls ++ .updateMany batch :: later)) := by
          have hstep : Latched _ ((SystemCall.updateMany batch).apply
              ((SubscriptionSystem.init gates).after calls)) := congrArg Prod.snd hresult
          rw [after_call]
          exact hstep.after later
        exact ⟨.of_latched hlatched (allGuarded_after gates _), congrArg (·.accounts) hlatched⟩
  · cases hspec with
    | done => cases hraise
    | conflict => exact absurd (Except.error.inj hraise).symm hother
    | rejected => rfl

/-- A batch whose second entry contradicts a stored account: the first entry is not
stored, and the snapshot taken before raises. -/
theorem updateMany_conflict_latched_within_batch (gates : ℕ → SubscriptionReadiness) :
    ∃ batch, (((SubscriptionSystem.init gates).after
        [.update .default ⟨.default, [1], 7, 0⟩, .snapshot none]).cache.updateMany batch).1 =
          .error .conflictingAccountVersion ∧
      ∃ s ∈ ((SubscriptionSystem.init gates).after [.update .default ⟨.default, [1], 7, 0⟩,
          .snapshot none, .updateMany batch]).snapshots,
        ∀ context, s.get ((SubscriptionSystem.init gates).after
            [.update .default ⟨.default, [1], 7, 0⟩, .snapshot none, .updateMany batch])
          .default context none = .error (.value .conflictedAccountCache) := by
  have hraise : (((SubscriptionSystem.init gates).after
      [.update .default ⟨.default, [1], 7, 0⟩, .snapshot none]).cache.updateMany
        [(Vector.replicate 32 1, ⟨.default, [3], 9, 0⟩), (.default, ⟨.default, [2], 7, 0⟩)]).1 =
      .error .conflictingAccountVersion := by rfl
  obtain ⟨-, -, hlater⟩ := (updateMany_conflict_latched gates _ _).1 hraise
  exact ⟨_, hraise, _, List.mem_cons_self, fun context =>
    (hlater []).1.get _ List.mem_cons_self .default context none⟩

end SolTrade.Subscription
