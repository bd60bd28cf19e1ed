import SolTrade.Subscription.Cache
import SolTrade.Subscription.Readiness

/-!
Snapshots of the account cache, and the latched conflict.

A snapshot keeps the accounts of the moment it was taken, and asks the cache and
the gate it was taken under at every read. So a conflict that the cache runs into
later reaches the snapshots that are already out.
-/

namespace SolTrade.Subscription

open Library

structure CacheReadContext where
  slot : ℤ
  epoch : ℤ
  maximumSlotAge : ℤ
  slot_range : 0 ≤ slot ∧ slot ≤ u64
  epoch_range : 0 ≤ epoch ∧ epoch ≤ u64
  age_range : 0 ≤ maximumSlotAge ∧ maximumSlotAge ≤ u64
  deriving DecidableEq

/-- What taking or reading a snapshot raises. -/
inductive SnapshotError where
  | value (e : ValueError)
  | missingCachedAccount (key : Pubkey)
  | cacheNotReady (e : CacheNotReadyError)
  deriving DecidableEq

def SnapshotError.text (str : PubkeyText) : SnapshotError → String
  | value e => e.text
  | missingCachedAccount key => "Missing cached account: " ++ str key
  | cacheNotReady e => e.text

/-- The check bound to a snapshot: of the cache alone, or of the cache and a gate. -/
inductive ContinuityGuard where
  | noConflict
  | ready (gate : ℕ) (guard : ReadinessGuard)
  deriving DecidableEq

structure AccountCacheSnapshot where
  accounts : AccountMap
  continuityGuard : Option ContinuityGuard
  observedThrough : Option ℤ

/-- A cache, the gates it is used with and the snapshots taken of it. -/
structure SubscriptionSystem where
  cache : SubscriptionAccountCache
  gates : ℕ → SubscriptionReadiness
  snapshots : List AccountCacheSnapshot

def SubscriptionAccountCache.assertNoConflict (c : SubscriptionAccountCache) :
    Except SnapshotError Unit :=
  if c.conflicted then .error (.value .conflictedAccountCache) else .ok ()

/-- A gate's answer among the errors of a snapshot. -/
def liftReady {α : Type} : Except CacheNotReadyError α → Except SnapshotError α
  | .ok a => .ok a
  | .error e => .error (.cacheNotReady e)

def ContinuityGuard.check (sys : SubscriptionSystem) : ContinuityGuard → Except SnapshotError Unit
  | .noConflict => sys.cache.assertNoConflict
  | .ready gate guard => do
      sys.cache.assertNoConflict
      liftReady (guard.check (sys.gates gate))

/-! ### Reads -/

namespace AccountCacheSnapshot

variable (sys : SubscriptionSystem) (s : AccountCacheSnapshot)

def assertUsable : Except SnapshotError Unit :=
  match s.continuityGuard with
  | none => .ok ()
  | some guard => guard.check sys

def stale (accountSlot : ℤ) (context : CacheReadContext) : Bool :=
  let observed := s.observedThrough.getD accountSlot
  accountSlot > context.slot ∨ observed > context.slot ∨
    context.slot - max observed accountSlot > context.maximumSlotAge

/-- The account of the key, if it was observed. -/
def lookup (key : Pubkey) : Except SnapshotError CachedAccount :=
  match s.accounts key with
  | none => .error (.missingCachedAccount key)
  | some a => .ok a

def getObservation (key : Pubkey) (context : CacheReadContext) :
    Except SnapshotError CachedAccount := do
  s.assertUsable sys
  let a ← s.lookup key
  require (s.stale a.slot context = false) (.value .cachedAccountFutureOrStale)
  return a

/-- An observed account without data is absent. -/
def getOptional (key : Pubkey) (context : CacheReadContext) (expectedOwner : Option Pubkey) :
    Except SnapshotError (Option CachedAccount) := do
  s.assertUsable sys
  let a ← s.lookup key
  require (s.stale a.slot context = false) (.value .cachedAccountFutureOrStale)
  if a.data = [] then return none
  require (∀ owner ∈ expectedOwner, a.owner = owner) (.value .cachedAccountOwnerMismatch)
  return some a

def get (key : Pubkey) (context : CacheReadContext) (expectedOwner : Option Pubkey) :
    Except SnapshotError CachedAccount := do
  s.assertUsable sys
  let a ← s.lookup key
  require (∀ owner ∈ expectedOwner, a.owner = owner) (.value .cachedAccountOwnerMismatch)
  require (s.stale a.slot context = false) (.value .cachedAccountFutureOrStale)
  require (a.data ≠ []) (.value .cachedAccountClosed)
  return a

section Specs

variable {sys : SubscriptionSystem} {s : AccountCacheSnapshot} {key : Pubkey}
  {context : CacheReadContext} {expectedOwner : Option Pubkey} {a : CachedAccount}

theorem lookup_eq_ok : s.lookup key = .ok a ↔ s.accounts key = some a := by
  unfold lookup
  cases s.accounts key with
  | none => simp
  | some b => simp

theorem getObservation_eq_ok : s.getObservation sys key context = .ok a ↔
    s.assertUsable sys = .ok () ∧ s.accounts key = some a ∧ s.stale a.slot context = false := by
  unfold getObservation
  simp only [bind_eq_ok, lookup_eq_ok, require_eq_ok, pure_eq_ok]
  constructor
  · rintro ⟨_, husable, b, hb, _, hfresh, rfl⟩
    exact ⟨husable, hb, hfresh⟩
  · rintro ⟨husable, ha, hfresh⟩
    exact ⟨(), husable, a, ha, (), hfresh, rfl⟩

theorem get_eq_ok : s.get sys key context expectedOwner = .ok a ↔
    s.assertUsable sys = .ok () ∧ s.accounts key = some a ∧ (∀ o ∈ expectedOwner, a.owner = o) ∧
      s.stale a.slot context = false ∧ a.data ≠ [] := by
  unfold get
  simp only [bind_eq_ok, lookup_eq_ok, require_eq_ok, pure_eq_ok]
  constructor
  · rintro ⟨_, husable, b, hb, _, howner, _, hfresh, _, hdata, rfl⟩
    exact ⟨husable, hb, howner, hfresh, hdata⟩
  · rintro ⟨husable, ha, howner, hfresh, hdata⟩
    exact ⟨(), husable, a, ha, (), howner, (), hfresh, (), hdata, rfl⟩

end Specs

end AccountCacheSnapshot

/-! ### Taking snapshots -/

/-- The accounts of the keys, all of which must be cached. -/
def selectAccounts (accounts : AccountMap) : List Pubkey → Except SnapshotError AccountMap
  | [] => .ok fun _ => none
  | key :: keys =>
      match accounts key with
      | none => .error (.missingCachedAccount key)
      | some a => do
          let selected ← selectAccounts accounts keys
          return Function.update selected key (some a)

/-- All accounts, or those of the keys. -/
def SubscriptionAccountCache.snapshotAccounts (c : SubscriptionAccountCache) :
    Option (List Pubkey) → Except SnapshotError AccountMap
  | none => .ok c.accounts
  | some keys => do
      c.assertNoConflict
      selectAccounts c.accounts keys.eraseDups

namespace SubscriptionSystem

variable (sys : SubscriptionSystem)

def snapshot (keys : Option (List Pubkey)) : Except SnapshotError AccountCacheSnapshot := do
  let accounts ← sys.cache.snapshotAccounts keys
  return ⟨accounts, some .noConflict, none⟩

def readySnapshot (gate : ℕ) (keys : Option (List Pubkey)) :
    Except SnapshotError AccountCacheSnapshot := do
  sys.cache.assertNoConflict
  let guard ← liftReady (sys.gates gate).guard
  let accounts ← sys.cache.snapshotAccounts keys
  return ⟨accounts, some (.ready gate guard), none⟩

def observedSnapshot (gate : ℕ) (slot : ℤ) (keys : Option (List Pubkey)) :
    Except SnapshotError AccountCacheSnapshot := do
  require (0 ≤ slot ∧ slot ≤ u64) (.value .amountOutsideUnsignedRange)
  sys.cache.assertNoConflict
  let guard ← liftReady (sys.gates gate).guard
  let accounts ← sys.cache.snapshotAccounts keys
  return ⟨accounts, some (.ready gate guard), some slot⟩

/-- A snapshot that was taken is kept. -/
def keep : Except SnapshotError AccountCacheSnapshot → SubscriptionSystem
  | .ok s => { sys with snapshots := s :: sys.snapshots }
  | .error _ => sys

end SubscriptionSystem

/-! ### Runs -/

/-- A call of the cache or of a gate. Reads change nothing. -/
inductive SystemCall where
  | update (key : Pubkey) (a : AccountUpdate)
  | updateMany (updates : List (Pubkey × AccountUpdate))
  | snapshot (keys : Option (List Pubkey))
  | readySnapshot (gate : ℕ) (keys : Option (List Pubkey))
  | observedSnapshot (gate : ℕ) (slot : ℤ) (keys : Option (List Pubkey))
  | readiness (gate : ℕ) (call : ReadinessCall)

/-- The system after a call. -/
def SystemCall.apply (sys : SubscriptionSystem) : SystemCall → SubscriptionSystem
  | .update key a => { sys with cache := (sys.cache.update key a).2 }
  | .updateMany updates => { sys with cache := (sys.cache.updateMany updates).2 }
  | .snapshot keys => sys.keep (sys.snapshot keys)
  | .readySnapshot gate keys => sys.keep (sys.readySnapshot gate keys)
  | .observedSnapshot gate slot keys => sys.keep (sys.observedSnapshot gate slot keys)
  | .readiness gate call =>
      { sys with gates := Function.update sys.gates gate (call.apply (sys.gates gate)) }

def SubscriptionSystem.after (sys : SubscriptionSystem) (calls : List SystemCall) :
    SubscriptionSystem :=
  Runs.run SystemCall.apply sys calls

/-- A new cache beside any gates. -/
def SubscriptionSystem.init (gates : ℕ → SubscriptionReadiness) : SubscriptionSystem :=
  ⟨.empty, gates, []⟩

end SolTrade.Subscription
