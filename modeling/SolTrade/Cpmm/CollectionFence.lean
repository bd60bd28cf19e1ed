import SolTrade.Cpmm.CreatorFee
import SolTrade.Subscription.Versions

/-!
What the validation of a creator's fee collection guarantees.

A collection is a function of three accounts, and an account is fixed by its key and its
version. So a validation succeeds for exactly the collections whose accounts have stayed
the same, whatever the cache has received in between.
-/

namespace SolTrade.Cpmm

open Library
open Subscription (SubscriptionSystem SubscriptionReadiness AccountCacheSnapshot CacheReadContext
  CachedAccount SystemCall Versioned mem_snapshots_after)

/-! ### Splits -/

section Split

variable {gross rate payout protocol : ℤ}

theorem u64Value_eq_ok {n : ℤ} {u : Unit} : u64Value n = .ok u ↔ 0 ≤ n ∧ n ≤ u64 :=
  require_eq_ok

theorem rateValue_eq_ok {u : Unit} :
    rateValue rate = .ok u ↔ 0 ≤ rate ∧ rate ≤ 1000000 := by
  unfold rateValue
  simp only [bind_eq_ok, u64Value_eq_ok, require_eq_ok, exists_and_left, exists_const]
  have : (1000000 : ℤ) ≤ u64 := by decide
  omega

/-- Both parts of a split are non-negative and make up the whole. -/
theorem splitCreatorFee_eq_ok (h : splitCreatorFee gross rate = .ok (payout, protocol)) :
    payout + protocol = gross ∧ 0 ≤ payout ∧ 0 ≤ protocol ∧ gross ≤ u64 := by
  unfold splitCreatorFee at h
  obtain ⟨_, hgross, h⟩ := bind_eq_ok.1 h
  obtain ⟨_, hrate, h⟩ := bind_eq_ok.1 h
  rw [u64Value_eq_ok] at hgross
  rw [rateValue_eq_ok] at hrate
  rw [pure_eq_ok, Prod.mk.injEq] at h
  obtain ⟨rfl, rfl⟩ := h
  have hnonneg : 0 ≤ gross * rate := mul_nonneg hgross.1 hrate.1
  have hle : gross * rate ≤ gross * 1000000 := mul_le_mul_of_nonneg_left hrate.2 hgross.1
  refine ⟨sub_add_cancel _ _, ?_, ?_, hgross.2⟩
  · omega
  · omega

end Split

/-! ### A collection from three accounts -/

/-- What the pool, its configuration and the share say of a collection. -/
structure Derivation where
  pool : CpmmCollectionPool
  rate : ℤ
  split0 : ℤ × ℤ
  split1 : ℤ × ℤ

def derive (p c o : CachedAccount) : Except CollectionError Derivation := do
  let pool ← decodeCpmmCollectionPool p.data
  checkPool pool
  let config ← decodeCpmmAmmConfig c.data
  let rate ← resolveCreatorFeeShareRate config pool.poolCreator pool.ammConfig
    (some ⟨o.owner, o.data, 1⟩)
  let split0 ← splitCreatorFee pool.creatorFeesToken0 rate
  let split1 ← splitCreatorFee pool.creatorFeesToken1 rate
  u64Value (pool.protocolFeesToken0 + split0.2)
  u64Value (pool.protocolFeesToken1 + split1.2)
  return ⟨pool, rate, split0, split1⟩

namespace Derivation

variable (d : Derivation) (find : ProgramAddress)

def sharePda : Pubkey := getCreatorFeeSharePda find d.pool.poolCreator d.pool.ammConfig

/-- The collection, with the versions of the accounts. -/
def collection (address : Pubkey) (payer : Option Pubkey) (slot : ℤ) (p c o : CachedAccount) :
    CreatorFeeCollection where
  pool := address
  creator := d.pool.poolCreator
  ammConfig := d.pool.ammConfig
  accountVersions := [(address, p.slot, p.writeVersion),
    (d.pool.ammConfig, c.slot, c.writeVersion), (d.sharePda find, o.slot, o.writeVersion)]
  instruction := build find address d.pool payer
  snapshotSlot := slot
  creatorFeeShare := d.sharePda find
  shareRate := d.rate
  creatorPayoutToken0 := d.split0.1
  creatorPayoutToken1 := d.split1.1
  protocolShareToken0 := d.split0.2
  protocolShareToken1 := d.split1.2

end Derivation

section Prepare

variable {find : ProgramAddress} {sys sys' : SubscriptionSystem}
  {s s' : AccountCacheSnapshot} {context context' : CacheReadContext} {address key : Pubkey}
  {payer payer' : Option Pubkey} {prepared : CreatorFeeCollection} {a p c o : CachedAccount}
  {slot slot' : ℤ}

theorem getAccount_eq_ok : getAccount sys s context key = .ok a ↔
    getObservation sys s context key = .ok a ∧ a.owner = Route.cpmmProgram ∧ a.data ≠ [] := by
  unfold getAccount getObservation
  rw [mapError_eq_ok, mapError_eq_ok, AccountCacheSnapshot.get_eq_ok,
    AccountCacheSnapshot.getObservation_eq_ok]
  simp only [Option.mem_some_iff, forall_eq']
  tauto

theorem versionOf_of_observed (h : getObservation sys s context key = .ok a) :
    versionOf sys s context key = .ok (key, a.slot, a.writeVersion) := by
  unfold versionOf
  rw [h]
  rfl

theorem versions_of_observed {key' key'' : Pubkey} (hp : getObservation sys s context key = .ok p)
    (hc : getObservation sys s context key' = .ok c)
    (ho : getObservation sys s context key'' = .ok o) :
    [key, key', key''].mapM (versionOf sys s context) = .ok [(key, p.slot, p.writeVersion),
      (key', c.slot, c.writeVersion), (key'', o.slot, o.writeVersion)] := by
  rw [mapM_eq_ok]
  exact .cons (versionOf_of_observed hp) (.cons (versionOf_of_observed hc)
    (.cons (versionOf_of_observed ho) .nil))

theorem usable_of_observed (h : getObservation sys s context key = .ok a) :
    s.assertUsable sys = .ok () :=
  (AccountCacheSnapshot.getObservation_eq_ok.1 (mapError_eq_ok.1 h)).1

/-- A preparation reads three accounts and derives the collection from them. -/
theorem prepare_eq_ok :
    prepareCpmmCreatorFeeCollection find sys s context address payer = .ok prepared ↔
      ∃ p c o d, derive p c o = .ok d ∧ getAccount sys s context address = .ok p ∧
        getAccount sys s context d.pool.ammConfig = .ok c ∧
        getObservation sys s context (d.sharePda find) = .ok o ∧
        d.collection find address payer context.slot p c o = prepared := by
  constructor
  · intro h
    unfold prepareCpmmCreatorFeeCollection at h
    obtain ⟨p, hp, h⟩ := bind_eq_ok.1 h
    obtain ⟨pool, hpool, h⟩ := bind_eq_ok.1 h
    obtain ⟨_, hcheck, h⟩ := bind_eq_ok.1 h
    obtain ⟨c, hc, h⟩ := bind_eq_ok.1 h
    obtain ⟨config, hconfig, h⟩ := bind_eq_ok.1 h
    obtain ⟨o, ho, h⟩ := bind_eq_ok.1 h
    obtain ⟨rate, hrate, h⟩ := bind_eq_ok.1 h
    obtain ⟨split0, hsplit0, h⟩ := bind_eq_ok.1 h
    obtain ⟨split1, hsplit1, h⟩ := bind_eq_ok.1 h
    obtain ⟨_, htotal0, h⟩ := bind_eq_ok.1 h
    obtain ⟨_, htotal1, h⟩ := bind_eq_ok.1 h
    rw [versions_of_observed (getAccount_eq_ok.1 hp).1 (getAccount_eq_ok.1 hc).1 ho, ok_bind] at h
    obtain ⟨_, -, h⟩ := bind_eq_ok.1 h
    refine ⟨p, c, o, ⟨pool, rate, split0, split1⟩, ?_, hp, hc, ho, pure_eq_ok.1 h⟩
    unfold derive
    rw [hpool, ok_bind, hcheck, ok_bind, hconfig, ok_bind, hrate, ok_bind, hsplit0, ok_bind,
      hsplit1, ok_bind, htotal0, ok_bind, htotal1]
    rfl
  · rintro ⟨p, c, o, d, h, hp, hc, ho, rfl⟩
    unfold derive at h
    obtain ⟨pool, hpool, h⟩ := bind_eq_ok.1 h
    obtain ⟨_, hcheck, h⟩ := bind_eq_ok.1 h
    obtain ⟨config, hconfig, h⟩ := bind_eq_ok.1 h
    obtain ⟨rate, hrate, h⟩ := bind_eq_ok.1 h
    obtain ⟨split0, hsplit0, h⟩ := bind_eq_ok.1 h
    obtain ⟨split1, hsplit1, h⟩ := bind_eq_ok.1 h
    obtain ⟨_, htotal0, h⟩ := bind_eq_ok.1 h
    obtain ⟨_, htotal1, h⟩ := bind_eq_ok.1 h
    obtain rfl := pure_eq_ok.1 h
    unfold Derivation.sharePda at ho
    unfold prepareCpmmCreatorFeeCollection
    rw [hp, ok_bind, hpool, ok_bind, hcheck, ok_bind, hc, ok_bind, hconfig, ok_bind]
    dsimp only
    rw [ho, ok_bind, hrate, ok_bind, hsplit0, ok_bind, hsplit1, ok_bind, htotal0, ok_bind, htotal1,
      ok_bind, versions_of_observed (getAccount_eq_ok.1 hp).1 (getAccount_eq_ok.1 hc).1 ho,
      ok_bind, usable_of_observed ho]
    rfl

/-- What a derivation is bound to. -/
structure Derived (p : CachedAccount) (d : Derivation) : Prop where
  pool_eq : decodeCpmmCollectionPool p.data = .ok d.pool
  rate : 0 ≤ d.rate ∧ d.rate ≤ 1000000
  split0 : d.split0.1 + d.split0.2 = d.pool.creatorFeesToken0 ∧ 0 ≤ d.split0.1 ∧
    0 ≤ d.split0.2 ∧ (d.pool.creatorFeesToken0 : ℤ) ≤ u64
  split1 : d.split1.1 + d.split1.2 = d.pool.creatorFeesToken1 ∧ 0 ≤ d.split1.1 ∧
    0 ≤ d.split1.2 ∧ (d.pool.creatorFeesToken1 : ℤ) ≤ u64

theorem derive_eq_ok {d : Derivation} (h : derive p c o = .ok d) : Derived p d := by
  unfold derive at h
  obtain ⟨pool, hpool, h⟩ := bind_eq_ok.1 h
  obtain ⟨_, -, h⟩ := bind_eq_ok.1 h
  obtain ⟨config, -, h⟩ := bind_eq_ok.1 h
  obtain ⟨rate, hrate, h⟩ := bind_eq_ok.1 h
  obtain ⟨split0, hsplit0, h⟩ := bind_eq_ok.1 h
  obtain ⟨split1, hsplit1, h⟩ := bind_eq_ok.1 h
  obtain ⟨_, -, h⟩ := bind_eq_ok.1 h
  obtain ⟨_, -, h⟩ := bind_eq_ok.1 h
  obtain rfl := pure_eq_ok.1 h
  obtain ⟨_, -, hrate⟩ := bind_eq_ok.1 hrate
  obtain ⟨_, hrange, hrate⟩ := bind_eq_ok.1 hrate
  obtain rfl := pure_eq_ok.1 hrate
  exact {
    pool_eq := hpool
    rate := rateValue_eq_ok.1 hrange
    split0 := splitCreatorFee_eq_ok hsplit0
    split1 := splitCreatorFee_eq_ok hsplit1 }

theorem observed_slot (h : getObservation sys s context key = .ok a) : a.slot ≤ context.slot := by
  obtain ⟨-, -, hfresh⟩ := AccountCacheSnapshot.getObservation_eq_ok.1 (mapError_eq_ok.1 h)
  rw [AccountCacheSnapshot.stale, decide_eq_false_iff_not, not_or] at hfresh
  exact not_lt.1 hfresh.1

/-! ### The fence -/

/-- Both snapshots can read the key, and it has the same version in both. -/
def SameVersion (sys : SubscriptionSystem) (s : AccountCacheSnapshot) (context : CacheReadContext)
    (sys' : SubscriptionSystem) (s' : AccountCacheSnapshot) (context' : CacheReadContext)
    (key : Pubkey) : Prop :=
  ∃ a b, getObservation sys s context key = .ok a ∧ getObservation sys' s' context' key = .ok b ∧
    (b.slot, b.writeVersion) = (a.slot, a.writeVersion)

/-- Accounts of one key and one version are the same. -/
def Coherent (s s' : AccountCacheSnapshot) : Prop :=
  ∀ key a a', s.accounts key = some a → s'.accounts key = some a' → a.version = a'.version → a = a'

theorem SameVersion.observed (h : SameVersion sys s context sys' s' context' key)
    (hcoherent : Coherent s s') (ha : getObservation sys s context key = .ok a) :
    getObservation sys' s' context' key = .ok a := by
  obtain ⟨a', b, ha', hb, hversion⟩ := h
  obtain rfl := Except.ok.inj (ha.symm.trans ha')
  obtain ⟨-, haccount, -⟩ := AccountCacheSnapshot.getObservation_eq_ok.1 (mapError_eq_ok.1 ha)
  obtain ⟨-, haccount', -⟩ := AccountCacheSnapshot.getObservation_eq_ok.1 (mapError_eq_ok.1 hb)
  obtain rfl := hcoherent key a b haccount haccount' (congrArg toLex hversion).symm
  exact hb

theorem checkVersion_eq_ok {version : ℤ} {u : Unit} (hslot : slot ≤ slot') :
    checkVersion sys s context slot' (key, slot, version) = .ok u ↔
      ∃ a, getObservation sys s context key = .ok a ∧ (a.slot, a.writeVersion) = (slot, version) := by
  unfold checkVersion
  simp only [bind_eq_ok, require_eq_ok, not_not, gt_iff_lt, not_lt, hslot, true_and, exists_const]

theorem validate_eq_ok (hcoherent : Coherent s s')
    (hprepared :
      prepareCpmmCreatorFeeCollection find sys s context address payer = .ok prepared) :
    validateCpmmCreatorFeeCollection find sys' s' context' prepared payer' = .ok () ↔
      context.slot ≤ context'.slot ∧ payer' = payer ∧
        ∀ key ∈ [address, prepared.ammConfig, prepared.creatorFeeShare],
          SameVersion sys s context sys' s' context' key := by
  obtain ⟨p, c, o, d, hderive, hp, hc, ho, rfl⟩ := prepare_eq_ok.1 hprepared
  have hpObserved := (getAccount_eq_ok.1 hp).1
  have hcObserved := (getAccount_eq_ok.1 hc).1
  have hpSlot := observed_slot hpObserved
  have hcSlot := observed_slot hcObserved
  have hoSlot := observed_slot ho
  constructor
  · intro h
    unfold validateCpmmCreatorFeeCollection at h
    obtain ⟨_, -, h⟩ := bind_eq_ok.1 h
    obtain ⟨_, hforward, h⟩ := bind_eq_ok.1 h
    obtain ⟨_, hversions, h⟩ := bind_eq_ok.1 h
    obtain ⟨current, hcurrent, h⟩ := bind_eq_ok.1 h
    rw [require_eq_ok, not_lt] at hforward
    rw [require_eq_ok, not_not] at h
    refine ⟨hforward, ?_, ?_⟩
    · -- the instruction of the collection that is derived again names its payer
      obtain ⟨p', c', o', d', -, -, -, -, rfl⟩ := prepare_eq_ok.1 hcurrent
      exact build_payer_inj (congrArg CreatorFeeCollection.instruction h)
    · rw [forM_eq_ok] at hversions
      simp only [Derivation.collection, List.forall_mem_cons, checkVersion_eq_ok hpSlot,
        checkVersion_eq_ok hcSlot, checkVersion_eq_ok hoSlot] at hversions
      obtain ⟨⟨p', hp', hpv⟩, ⟨c', hc', hcv⟩, ⟨o', ho', hov⟩, -⟩ := hversions
      simp only [List.forall_mem_cons, List.not_mem_nil, false_implies, implies_true, and_true]
      exact ⟨⟨p, p', hpObserved, hp', hpv⟩, ⟨c, c', hcObserved, hc', hcv⟩, o, o', ho, ho', hov⟩
  · rintro ⟨hforward, rfl, hsame⟩
    simp only [List.forall_mem_cons, List.not_mem_nil, false_implies, implies_true, and_true]
      at hsame
    obtain ⟨hsamep, hsamec, hsameo⟩ := hsame
    have hp' := hsamep.observed hcoherent hpObserved
    have hc' := hsamec.observed hcoherent hcObserved
    have ho' := hsameo.observed hcoherent ho
    have hcurrent : prepareCpmmCreatorFeeCollection find sys' s' context' address payer' =
        .ok (d.collection find address payer' context'.slot p c o) :=
      prepare_eq_ok.2 ⟨p, c, o, d, hderive, getAccount_eq_ok.2 ⟨hp', (getAccount_eq_ok.1 hp).2⟩,
        getAccount_eq_ok.2 ⟨hc', (getAccount_eq_ok.1 hc).2⟩, ho', rfl⟩
    obtain ⟨-, hrate, hsplit0, hsplit1⟩ := derive_eq_ok hderive
    unfold validateCpmmCreatorFeeCollection
    refine bind_eq_ok.2 ⟨(), ?_, bind_eq_ok.2 ⟨(), require_of (not_lt.2 hforward),
      bind_eq_ok.2 ⟨(), ?_, bind_eq_ok.2 ⟨_, hcurrent, require_of (not_not.2 rfl)⟩⟩⟩⟩
    · rw [forM_eq_ok]
      have := context.slot_range
      have : (1000000 : ℤ) ≤ u64 := by decide
      simp only [Derivation.collection, List.forall_mem_cons, u64Value_eq_ok, List.not_mem_nil,
        false_implies, implies_true, and_true]
      omega
    · rw [forM_eq_ok]
      simp only [Derivation.collection, List.forall_mem_cons, checkVersion_eq_ok hpSlot,
        checkVersion_eq_ok hcSlot, checkVersion_eq_ok hoSlot, List.not_mem_nil, false_implies,
        implies_true, and_true]
      exact ⟨⟨p, hp', rfl⟩, ⟨c, hc', rfl⟩, o, ho', rfl⟩

end Prepare

/-- The fence, in every run of a cache and its gates: a validation succeeds exactly if the
context has not moved backwards, the payer is the same and the three accounts can be read and
have kept their versions. What it succeeds for derives to the same collection again. -/
theorem validate_iff_same_versions (find : ProgramAddress) (gates : ℕ → SubscriptionReadiness)
    (calls later : List SystemCall) {s s' : AccountCacheSnapshot}
    {context context' : CacheReadContext} {address : Pubkey} {payer payer' : Option Pubkey}
    {prepared : CreatorFeeCollection}
    (hs : s ∈ ((SubscriptionSystem.init gates).after calls).snapshots)
    (hs' : s' ∈ ((SubscriptionSystem.init gates).after (calls ++ later)).snapshots)
    (hprepared : prepareCpmmCreatorFeeCollection find ((SubscriptionSystem.init gates).after calls)
      s context address payer = .ok prepared) :
    (validateCpmmCreatorFeeCollection find
        ((SubscriptionSystem.init gates).after (calls ++ later)) s' context' prepared payer' =
          .ok () ↔
      context.slot ≤ context'.slot ∧ payer' = payer ∧
        ∀ key ∈ [address, prepared.ammConfig, prepared.creatorFeeShare],
          SameVersion ((SubscriptionSystem.init gates).after calls) s context
            ((SubscriptionSystem.init gates).after (calls ++ later)) s' context' key) ∧
    (validateCpmmCreatorFeeCollection find
        ((SubscriptionSystem.init gates).after (calls ++ later)) s' context' prepared payer' =
          .ok () →
      ∃ current, prepareCpmmCreatorFeeCollection find
          ((SubscriptionSystem.init gates).after (calls ++ later)) s' context' address payer' =
            .ok current ∧ { current with snapshotSlot := context.slot } = prepared) ∧
    ∃ account pool, getAccount ((SubscriptionSystem.init gates).after calls) s context address =
        .ok account ∧ decodeCpmmCollectionPool account.data = .ok pool ∧
      prepared.creatorPayoutToken0 + prepared.protocolShareToken0 = pool.creatorFeesToken0 ∧
      prepared.creatorPayoutToken1 + prepared.protocolShareToken1 = pool.creatorFeesToken1 ∧
      0 ≤ prepared.creatorPayoutToken0 ∧ 0 ≤ prepared.protocolShareToken0 ∧
      0 ≤ prepared.creatorPayoutToken1 ∧ 0 ≤ prepared.protocolShareToken1 := by
  have hversioned := Versioned.after gates (calls ++ later)
  have hcoherent : Coherent s s' := by
    refine hversioned.coherent s ?_ s' hs'
    rw [SubscriptionSystem.after, Runs.run_append]
    exact mem_snapshots_after hs later
  refine ⟨validate_eq_ok hcoherent hprepared, fun hvalid => ?_, ?_⟩
  · obtain ⟨p, c, o, d, -, -, -, -, rfl⟩ := prepare_eq_ok.1 hprepared
    unfold validateCpmmCreatorFeeCollection at hvalid
    obtain ⟨_, -, hvalid⟩ := bind_eq_ok.1 hvalid
    obtain ⟨_, -, hvalid⟩ := bind_eq_ok.1 hvalid
    obtain ⟨_, -, hvalid⟩ := bind_eq_ok.1 hvalid
    obtain ⟨current, hcurrent, hvalid⟩ := bind_eq_ok.1 hvalid
    rw [require_eq_ok, not_not] at hvalid
    exact ⟨current, hcurrent, hvalid⟩
  · obtain ⟨p, c, o, d, hderive, hp, -, -, rfl⟩ := prepare_eq_ok.1 hprepared
    obtain ⟨hpool, -, ⟨hsum0, hpayout0, hshare0, -⟩, hsum1, hpayout1, hshare1, -⟩ :=
      derive_eq_ok hderive
    exact ⟨p, d.pool, hp, hpool, hsum0, hsum1, hpayout0, hshare0, hpayout1, hshare1⟩

section Sample

open Wire (littleEndian)
open Route (cpmmProgram tokenProgram)

/-- A pool in which the creator's fees of the first token are 2000001. -/
def sampleCollectionPool : List UInt8 :=
  let keys : List Pubkey := [.ofNat 41, .ofNat 42, .ofNat 43, .ofNat 44, .ofNat 45, .ofNat 46,
    .ofNat 47, tokenProgram, tokenProgram, .ofNat 48]
  poolDiscriminator ++ keys.flatMap (·.toList) ++ List.replicate 69 0 ++
    [2000001, 0].flatMap (littleEndian 8) ++ List.replicate 224 0

/-- The protocol has a tenth of the creator's fees. -/
def sampleCollectionConfig : List UInt8 :=
  configDiscriminator ++ List.replicate 108 0 ++ littleEndian 8 100000 ++ List.replicate 112 0

/-- The share has been closed. -/
def sampleCollectionCalls : List SystemCall :=
  [.updateMany [(.ofNat 40, ⟨cpmmProgram, sampleCollectionPool, 90, 1⟩),
    (.ofNat 41, ⟨cpmmProgram, sampleCollectionConfig, 90, 2⟩),
    (.ofNat 49, ⟨.default, [], 91, 3⟩)], .snapshot none]

/-- The vault of the pool changes, the pool itself does not. -/
def sampleLaterCalls : List SystemCall :=
  [.update (.ofNat 43) ⟨tokenProgram, [1], 92, 4⟩, .snapshot none]

def sampleGates : ℕ → SubscriptionReadiness := fun _ => ⟨∅, "", 0, .initializing, ∅, none⟩

def sampleEarlier : SubscriptionSystem :=
  (SubscriptionSystem.init sampleGates).after sampleCollectionCalls

def sampleLater : SubscriptionSystem :=
  (SubscriptionSystem.init sampleGates).after (sampleCollectionCalls ++ sampleLaterCalls)

def sampleShareFind : ProgramAddress := fun _ _ => (.ofNat 49, 250)

def earlierContext : CacheReadContext := ⟨91, 606, 149, by decide, by decide, by decide⟩

def laterContext : CacheReadContext := ⟨95, 606, 149, by decide, by decide, by decide⟩

/-- The snapshot that a run ends with. -/
def lastSnapshot (sys : SubscriptionSystem) : AccountCacheSnapshot :=
  ⟨sys.cache.accounts, some .noConflict, none⟩

/-- A collection for which the protocol has 200000 stays valid. -/
theorem validate_iff_same_versions_sample : ∃ prepared,
    prepareCpmmCreatorFeeCollection sampleShareFind sampleEarlier (lastSnapshot sampleEarlier)
      earlierContext (.ofNat 40) none = .ok prepared ∧
    (prepared.creatorPayoutToken0, prepared.protocolShareToken0) = (1800001, 200000) ∧
    validateCpmmCreatorFeeCollection sampleShareFind sampleLater (lastSnapshot sampleLater)
      laterContext prepared none = .ok () := by
  obtain ⟨prepared, hprepared, hparts⟩ : ∃ prepared,
      prepareCpmmCreatorFeeCollection sampleShareFind sampleEarlier (lastSnapshot sampleEarlier)
        earlierContext (.ofNat 40) none = .ok prepared ∧
      ((prepared.creatorPayoutToken0, prepared.protocolShareToken0), prepared.ammConfig,
        prepared.creatorFeeShare) = ((1800001, 200000), .ofNat 41, .ofNat 49) :=
    map_eq_ok.1 (by decide +kernel)
  simp only [Prod.mk.injEq] at hparts
  obtain ⟨⟨hpayout, hshare⟩, hconfig, hpda⟩ := hparts
  refine ⟨prepared, hprepared, by rw [hpayout, hshare], ?_⟩
  refine (validate_iff_same_versions sampleShareFind sampleGates sampleCollectionCalls
    sampleLaterCalls List.mem_cons_self List.mem_cons_self hprepared).1.2 ⟨by decide, rfl, ?_⟩
  rw [hconfig, hpda]
  have hread : ∀ key version, ((getObservation sampleEarlier (lastSnapshot sampleEarlier)
        earlierContext key).map fun a => (a.slot, a.writeVersion)) = .ok version →
      ((getObservation sampleLater (lastSnapshot sampleLater) laterContext key).map
        fun a => (a.slot, a.writeVersion)) = .ok version →
      SameVersion sampleEarlier (lastSnapshot sampleEarlier) earlierContext sampleLater
        (lastSnapshot sampleLater) laterContext key := by
    intro key version h h'
    obtain ⟨a, ha, hversion⟩ := map_eq_ok.1 h
    obtain ⟨b, hb, hversion'⟩ := map_eq_ok.1 h'
    exact ⟨a, b, ha, hb, hversion'.trans hversion.symm⟩
  intro key hkey
  simp only [List.mem_cons, List.not_mem_nil, or_false] at hkey
  rcases hkey with rfl | rfl | rfl
  · exact hread _ (90, 1) (by decide +kernel) (by decide +kernel)
  · exact hread _ (90, 2) (by decide +kernel) (by decide +kernel)
  · exact hread _ (91, 3) (by decide +kernel) (by decide +kernel)

end Sample

end SolTrade.Cpmm
