import SolTrade.Subscription.Snapshot

/-!
A version stands for one account.

The cache replaces an account by newer ones only. So what two snapshots hold for one key is
the same account as soon as the versions are the same, whatever has happened in between and
also if the cache has met a conflict.
-/

namespace SolTrade.Subscription

open Library

section Selection

variable {c : SubscriptionAccountCache} {keys : List Pubkey} {selected : AccountMap}

theorem selectAccounts_sub {accounts : AccountMap} {key : Pubkey} {a : CachedAccount}
    (h : selectAccounts accounts keys = .ok selected) (ha : selected key = some a) :
    accounts key = some a := by
  induction keys generalizing selected with
  | nil =>
      cases h
      cases ha
  | cons k keys ih =>
      rw [selectAccounts] at h
      split at h
      · cases h
      · rename_i b hb
        obtain ⟨rest, hrest, h⟩ := bind_eq_ok.1 h
        rw [pure_eq_ok] at h
        subst h
        by_cases hk : key = k
        · subst hk
          rwa [Function.update_self, ← hb] at ha
        · rw [Function.update_of_ne hk] at ha
          exact ih hrest ha

/-- A snapshot holds accounts of the cache. -/
theorem snapshotAccounts_sub {keys : Option (List Pubkey)} {key : Pubkey} {a : CachedAccount}
    (h : c.snapshotAccounts keys = .ok selected) (ha : selected key = some a) :
    c.accounts key = some a := by
  cases keys with
  | none =>
      cases h
      exact ha
  | some keys =>
      obtain ⟨_, -, h⟩ := bind_eq_ok.1 h
      exact selectAccounts_sub h ha

end Selection

/-- Every account that is out is still in the cache, or a newer one of its key is; and two of
one key and one version are the same. -/
structure Versioned (sys : SubscriptionSystem) : Prop where
  superseded : ∀ s ∈ sys.snapshots, ∀ key a, s.accounts key = some a →
    ∃ b, sys.cache.accounts key = some b ∧ Supersedes b a
  coherent : ∀ s ∈ sys.snapshots, ∀ s' ∈ sys.snapshots, ∀ key a a',
    s.accounts key = some a → s'.accounts key = some a' → a.version = a'.version → a = a'

namespace Versioned

variable {sys : SubscriptionSystem}

theorem init (gates : ℕ → SubscriptionReadiness) : Versioned (.init gates) :=
  ⟨fun _ hs => (List.not_mem_nil hs).elim, fun _ hs => (List.not_mem_nil hs).elim⟩

/-- What a newer cache keeps. -/
theorem updateMany (h : Versioned sys) (updates : List (Pubkey × AccountUpdate)) :
    Versioned { sys with cache := (sys.cache.updateMany updates).2 } where
  superseded s hs key a ha := by
    obtain ⟨b, hb, hab⟩ := h.superseded s hs key a ha
    obtain ⟨d, hd, hbd⟩ := updateMany_supersedes updates hb
    exact ⟨d, hd, hbd.trans hab⟩
  coherent := h.coherent

/-- A new snapshot holds the newest accounts. -/
theorem keep (h : Versioned sys) {e : Except SnapshotError AccountCacheSnapshot}
    (he : ∀ s, e = .ok s → ∀ key a, s.accounts key = some a → sys.cache.accounts key = some a) :
    Versioned (sys.keep e) := by
  cases e with
  | error e => exact h
  | ok s =>
      have hnew := he s rfl
      -- an account that is out and has the version of the cached one is the cached one
      have hcoherent : ∀ s' ∈ sys.snapshots, ∀ key a a', s'.accounts key = some a →
          s.accounts key = some a' → a.version = a'.version → a = a' := by
        intro s' hs' key a a' ha ha' hversion
        obtain ⟨b, hb, hab⟩ := h.superseded s' hs' key a ha
        obtain rfl := Option.some_inj.1 (hb.symm.trans (hnew key a' ha'))
        rcases hab with rfl | hlt
        · rfl
        · exact absurd hversion hlt.ne
      constructor
      · intro s' hs' key a ha
        rcases List.mem_cons.1 hs' with rfl | hs'
        · exact ⟨a, hnew key a ha, .inl rfl⟩
        · exact h.superseded s' hs' key a ha
      · intro s₁ hs₁ s₂ hs₂ key a a' ha ha' hversion
        rcases List.mem_cons.1 hs₁ with rfl | hold₁
        · rcases List.mem_cons.1 hs₂ with rfl | hold₂
          · exact Option.some_inj.1 (ha.symm.trans ha')
          · exact (hcoherent s₂ hold₂ key a' a ha' ha hversion.symm).symm
        · rcases List.mem_cons.1 hs₂ with rfl | hold₂
          · exact hcoherent s₁ hold₁ key a a' ha ha' hversion
          · exact h.coherent s₁ hold₁ s₂ hold₂ key a a' ha ha' hversion

theorem apply (h : Versioned sys) (call : SystemCall) : Versioned (call.apply sys) := by
  cases call with
  | update key a => exact h.updateMany [(key, a)]
  | updateMany updates => exact h.updateMany updates
  | snapshot keys =>
      refine h.keep fun s hs key a ha => ?_
      simp only [SubscriptionSystem.snapshot, bind_eq_ok, pure_eq_ok] at hs
      obtain ⟨accounts, haccounts, rfl⟩ := hs
      exact snapshotAccounts_sub haccounts ha
  | readySnapshot gate keys =>
      refine h.keep fun s hs key a ha => ?_
      simp only [SubscriptionSystem.readySnapshot, bind_eq_ok, pure_eq_ok] at hs
      obtain ⟨_, -, _, -, accounts, haccounts, rfl⟩ := hs
      exact snapshotAccounts_sub haccounts ha
  | observedSnapshot gate slot keys =>
      refine h.keep fun s hs key a ha => ?_
      simp only [SubscriptionSystem.observedSnapshot, bind_eq_ok, pure_eq_ok] at hs
      obtain ⟨_, -, _, -, _, -, accounts, haccounts, rfl⟩ := hs
      exact snapshotAccounts_sub haccounts ha
  | readiness gate call => exact ⟨h.superseded, h.coherent⟩

theorem after (gates : ℕ → SubscriptionReadiness) (calls : List SystemCall) :
    Versioned ((SubscriptionSystem.init gates).after calls) :=
  Runs.run_invariant (fun _ call h => h.apply call) (init gates)

end Versioned

/-! ### Snapshots stay out -/

theorem mem_snapshots_keep {sys : SubscriptionSystem} {s : AccountCacheSnapshot}
    {e : Except SnapshotError AccountCacheSnapshot} (hs : s ∈ sys.snapshots) :
    s ∈ (sys.keep e).snapshots := by
  cases e with
  | error e => exact hs
  | ok s' => exact List.mem_cons_of_mem s' hs

theorem mem_snapshots_after {sys : SubscriptionSystem} {s : AccountCacheSnapshot}
    (hs : s ∈ sys.snapshots) (calls : List SystemCall) : s ∈ (sys.after calls).snapshots := by
  refine Runs.run_invariant (I := fun t : SubscriptionSystem => s ∈ t.snapshots) ?_ hs
  intro sys call hs
  cases call with
  | update key a => exact hs
  | updateMany updates => exact hs
  | snapshot keys => exact mem_snapshots_keep hs
  | readySnapshot gate keys => exact mem_snapshots_keep hs
  | observedSnapshot gate slot keys => exact mem_snapshots_keep hs
  | readiness gate call => exact hs

end SolTrade.Subscription
