import Mathlib.Data.Prod.Lex
import SolTrade.Library.LastWriter
import SolTrade.Numeric
import SolTrade.Pubkey

/-!
The account cache that subscriptions feed.

A batch is staged apart from the stored accounts and committed as a whole. A
version that comes again with other contents raises and marks the cache, which
then raises on every call.
-/

namespace SolTrade.Subscription

open Library

/-- What an update carries, before it is checked. -/
structure AccountUpdate where
  owner : Pubkey
  data : List UInt8
  slot : ℤ
  writeVersion : ℤ
  deriving DecidableEq

/-- An account that has passed the checks of its constructor. -/
structure CachedAccount extends AccountUpdate where
  slot_range : 0 ≤ slot ∧ slot ≤ u64
  writeVersion_range : 0 ≤ writeVersion ∧ writeVersion ≤ u64
  deriving DecidableEq

/-- Versions are compared by slot, then by write version. -/
def CachedAccount.version (a : CachedAccount) : ℤ ×ₗ ℤ := toLex (a.slot, a.writeVersion)

/-- The cache's own copy of an update. -/
def ownedAccount (a : AccountUpdate) : Except ValueError CachedAccount :=
  if hs : 0 ≤ a.slot ∧ a.slot ≤ u64 then
    if hw : 0 ≤ a.writeVersion ∧ a.writeVersion ≤ u64 then
      .ok { a with slot_range := hs, writeVersion_range := hw }
    else .error .amountOutsideUnsignedRange
  else .error .amountOutsideUnsignedRange

abbrev AccountMap := Pubkey → Option CachedAccount

structure SubscriptionAccountCache where
  accounts : AccountMap
  conflicted : Bool

/-- A new cache. -/
def SubscriptionAccountCache.empty : SubscriptionAccountCache := ⟨fun _ => none, false⟩

/-- The staged accounts over the stored ones. -/
def overlay (pending accounts : AccountMap) : AccountMap :=
  fun key => (pending key).or (accounts key)

/-- How the staging of a batch ends. -/
inductive Staged where
  | done (pending : AccountMap) (changed : ℕ)
  | conflict
  | failed (e : ValueError)

/-- Stages a batch; only the identities that it touches are in `pending`. -/
def stageUpdates (accounts : AccountMap) :
    AccountMap → ℕ → List (Pubkey × AccountUpdate) → Staged
  | pending, changed, [] => .done pending changed
  | pending, changed, (key, a) :: rest =>
      match ownedAccount a with
      | .error e => .failed e
      | .ok owned =>
          match overlay pending accounts key with
          | none =>
              stageUpdates accounts (Function.update pending key (some owned)) (changed + 1) rest
          | some old =>
              if owned.version < old.version then stageUpdates accounts pending changed rest
              else if owned.version = old.version then
                if owned ≠ old then .conflict else stageUpdates accounts pending changed rest
              else
                stageUpdates accounts (Function.update pending key (some owned)) (changed + 1) rest

/-- A call returns or raises, and leaves a cache in either case. -/
def SubscriptionAccountCache.updateMany (c : SubscriptionAccountCache)
    (updates : List (Pubkey × AccountUpdate)) : Except ValueError ℕ × SubscriptionAccountCache :=
  if c.conflicted then (.error .conflictedAccountCache, c)
  else
    match stageUpdates c.accounts (fun _ => none) 0 updates with
    | .done pending changed => (.ok changed, { c with accounts := overlay pending c.accounts })
    | .conflict => (.error .conflictingAccountVersion, { c with conflicted := true })
    | .failed e => (.error e, c)

def SubscriptionAccountCache.update (c : SubscriptionAccountCache) (key : Pubkey)
    (a : AccountUpdate) : Except ValueError Bool × SubscriptionAccountCache :=
  ((c.updateMany [(key, a)]).1.map (· ≠ 0), (c.updateMany [(key, a)]).2)

/-! ### Staging -/

section Stage

open LastWriter

variable {accounts pending : AccountMap} {key : Pubkey} {a : CachedAccount}
  {rest : List (Pubkey × AccountUpdate)} {us : List (Pubkey × CachedAccount)}

@[simp] theorem ownedAccount_of_cached (a : CachedAccount) :
    ownedAccount a.toAccountUpdate = .ok a := by
  rw [ownedAccount, dif_pos a.slot_range, dif_pos a.writeVersion_range]

@[simp] theorem overlay_none (accounts : AccountMap) :
    overlay (fun _ => none) accounts = accounts := by
  funext key
  simp [overlay]

@[simp] theorem overlay_update :
    overlay (Function.update pending key (some a)) accounts =
      Function.update (overlay pending accounts) key (some a) := by
  funext k
  by_cases hk : k = key
  · subst hk
    simp [overlay]
  · simp [overlay, hk]

theorem stageUpdates_cons_newer (changed : ℕ)
    (h : Newer CachedAccount.version (overlay pending accounts key) a) :
    stageUpdates accounts pending changed ((key, a.toAccountUpdate) :: rest) =
      stageUpdates accounts (Function.update pending key (some a)) (changed + 1) rest := by
  rw [stageUpdates, ownedAccount_of_cached]
  dsimp only
  split
  · rfl
  · rename_i old hold
    have hlt := h old hold
    rw [if_neg hlt.asymm, if_neg hlt.ne']

/-- An update that is not newer than what is stored, and does not contradict it,
is passed over. -/
theorem stageUpdates_cons_old (changed : ℕ)
    (h : ¬ Newer CachedAccount.version (overlay pending accounts key) a)
    (hagrees : ∀ old ∈ overlay pending accounts key, old.version = a.version → old = a) :
    stageUpdates accounts pending changed ((key, a.toAccountUpdate) :: rest) =
      stageUpdates accounts pending changed rest := by
  rw [stageUpdates, ownedAccount_of_cached]
  dsimp only
  split
  · rename_i hnone
    exact absurd (fun o ho => by simp [hnone] at ho) h
  · rename_i old hold
    split
    · rfl
    · rename_i hge
      split
      · rename_i heq
        rw [if_neg (not_not.2 (hagrees old hold heq.symm).symm)]
      · rename_i hne
        refine absurd (fun o ho => ?_) h
        obtain rfl := Option.some.inj (hold.symm.trans ho)
        exact lt_of_le_of_ne (not_lt.1 hge) (Ne.symm hne)

/-- What a batch of cached accounts carries. -/
def carried (us : List (Pubkey × CachedAccount)) : List (Pubkey × AccountUpdate) :=
  us.map fun u => (u.1, u.2.toAccountUpdate)

/-- Staging coherent updates is delivering them to the staged accounts over the
stored ones. -/
theorem stageUpdates_of_coherent (pending : AccountMap) (changed : ℕ)
    (hagrees : Agrees CachedAccount.version (overlay pending accounts) us)
    (hus : Coherent CachedAccount.version us) :
    ∃ pending', stageUpdates accounts pending changed (carried us) =
        .done pending' (changed + changes CachedAccount.version (overlay pending accounts) us) ∧
      overlay pending' accounts =
        deliverAll CachedAccount.version (overlay pending accounts) us := by
  induction us generalizing pending changed with
  | nil => exact ⟨pending, rfl, rfl⟩
  | cons u us ih =>
      obtain ⟨key, a⟩ := u
      have htail := hagrees.tail hus
      by_cases hnewer : Newer CachedAccount.version (overlay pending accounts key) a
      · rw [deliver_of_newer hnewer, ← overlay_update] at htail
        obtain ⟨pending', hstage, hoverlay⟩ :=
          ih (Function.update pending key (some a)) (changed + 1) htail hus.tail
        refine ⟨pending', ?_, ?_⟩
        · refine (stageUpdates_cons_newer changed hnewer).trans (hstage.trans ?_)
          rw [changes, deliver_of_newer hnewer, if_pos hnewer, overlay_update, add_assoc]
        · rw [hoverlay, deliverAll_cons, deliver_of_newer hnewer, overlay_update]
      · rw [deliver_of_not_newer hnewer] at htail
        obtain ⟨pending', hstage, hoverlay⟩ := ih pending changed htail hus.tail
        have hold : ∀ old ∈ overlay pending accounts key, old.version = a.version → old = a :=
          fun old ho heq => hagrees key old ho a List.mem_cons_self heq
        refine ⟨pending', ?_, ?_⟩
        · refine (stageUpdates_cons_old changed hnewer hold).trans (hstage.trans ?_)
          rw [changes, deliver_of_not_newer hnewer, if_neg hnewer, zero_add]
        · rw [hoverlay, deliverAll_cons, deliver_of_not_newer hnewer]

/-- A batch that agrees with the stored accounts and with itself is delivered. -/
theorem updateMany_of_coherent {c : SubscriptionAccountCache} (hc : c.conflicted = false)
    (hagrees : Agrees CachedAccount.version c.accounts us)
    (hus : Coherent CachedAccount.version us) :
    c.updateMany (carried us) =
      (.ok (changes CachedAccount.version c.accounts us),
        ⟨deliverAll CachedAccount.version c.accounts us, false⟩) := by
  obtain ⟨pending, hstage, hoverlay⟩ := stageUpdates_of_coherent (fun _ => none) 0
    ((overlay_none c.accounts).symm ▸ hagrees) hus
  rw [overlay_none, zero_add] at hstage
  rw [overlay_none] at hoverlay
  rw [SubscriptionAccountCache.updateMany, hc, if_neg Bool.false_ne_true, hstage]
  dsimp only
  rw [hoverlay]

/-- The account itself or a newer one. -/
def Supersedes (b a : CachedAccount) : Prop := b = a ∨ a.version < b.version

theorem Supersedes.trans {a b d : CachedAccount} (h : Supersedes d b) (h' : Supersedes b a) :
    Supersedes d a := by
  rcases h with rfl | h
  · exact h'
  · rcases h' with rfl | h'
    · exact .inr h
    · exact .inr (h'.trans h)

theorem Supersedes.version_le {a b : CachedAccount} (h : Supersedes b a) :
    a.version ≤ b.version := by
  rcases h with rfl | h
  · exact le_rfl
  · exact h.le

/-- Staging replaces an account by newer ones only, whatever the updates are. -/
theorem stageUpdates_supersedes {updates : List (Pubkey × AccountUpdate)} {changed changed' : ℕ}
    {pending' : AccountMap}
    (h : stageUpdates accounts pending changed updates = .done pending' changed')
    (ha : overlay pending accounts key = some a) :
    ∃ b, overlay pending' accounts key = some b ∧ Supersedes b a := by
  induction updates generalizing pending changed a with
  | nil =>
      cases h
      exact ⟨a, ha, .inl rfl⟩
  | cons u updates ih =>
      obtain ⟨k, update⟩ := u
      rw [stageUpdates] at h
      cases howned : ownedAccount update with
      | error e =>
          rw [howned] at h
          cases h
      | ok owned =>
          rw [howned] at h
          dsimp only at h
          -- a newer update is stored under its own key and leaves the others
          have hstored : (∀ old ∈ overlay pending accounts k, old.version < owned.version) →
              ∃ b, overlay (Function.update pending k (some owned)) accounts key = some b ∧
                Supersedes b a := by
            intro hlt
            rw [overlay_update]
            by_cases hk : key = k
            · subst hk
              exact ⟨owned, Function.update_self .., .inr (hlt a ha)⟩
            · exact ⟨a, by rw [Function.update_of_ne hk, ha], .inl rfl⟩
          split at h
          · rename_i hnone
            obtain ⟨b, hb, hab⟩ := hstored (by simp [hnone])
            obtain ⟨d, hd, hbd⟩ := ih h hb
            exact ⟨d, hd, hbd.trans hab⟩
          · rename_i old hold
            split at h
            · exact ih h ha
            · rename_i hge
              split at h
              · split at h
                · cases h
                · exact ih h ha
              · rename_i hne
                have hlt : old.version < owned.version :=
                  lt_of_le_of_ne (not_lt.1 hge) (Ne.symm hne)
                obtain ⟨b, hb, hab⟩ := hstored (by simpa [hold] using hlt)
                obtain ⟨d, hd, hbd⟩ := ih h hb
                exact ⟨d, hd, hbd.trans hab⟩

/-- No call replaces a stored account by an older one, also one that raises. -/
theorem updateMany_supersedes {c : SubscriptionAccountCache}
    (updates : List (Pubkey × AccountUpdate)) (ha : c.accounts key = some a) :
    ∃ b, (c.updateMany updates).2.accounts key = some b ∧ Supersedes b a := by
  unfold SubscriptionAccountCache.updateMany
  split
  · exact ⟨a, ha, .inl rfl⟩
  · split
    · rename_i pending changed hstage
      exact stageUpdates_supersedes hstage (by rw [overlay_none, ha])
    · exact ⟨a, ha, .inl rfl⟩
    · exact ⟨a, ha, .inl rfl⟩

theorem updateMany_mono {c : SubscriptionAccountCache} {updates : List (Pubkey × AccountUpdate)}
    (ha : c.accounts key = some a) :
    ∃ b, (c.updateMany updates).2.accounts key = some b ∧ a.version ≤ b.version := by
  obtain ⟨b, hb, hab⟩ := updateMany_supersedes updates ha
  exact ⟨b, hb, hab.version_le⟩

end Stage

end SolTrade.Subscription
