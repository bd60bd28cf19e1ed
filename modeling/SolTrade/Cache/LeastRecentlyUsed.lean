import SolTrade.Cache.LruSpec

/-!
What a run of the least-recently-used cache has stored, evicted and found.

A value is found as long as nothing that came after the set has ended it: another set,
a deletion, an eviction, or a call that has seen it expired.
-/

namespace SolTrade.Cache

open Library

variable {K V : Type} [DecidableEq K] {config : LRUConfig} {self : LRUCache K V}
  {m : RecencyMap K (CacheEntry V)} {call : CacheCall K V} {calls : List (CacheCall K V)}
  {key k : K} {value v : V} {now x : ℚ}

namespace LRUCache

def keys (self : LRUCache K V) : List K := self.cache.map Prod.fst

/-- The set throws the key out: it was stored, or it is the one that is set, and is not stored
afterwards. -/
def Evicts (config : LRUConfig) (self : LRUCache K V) (key : K) (value : V) (now : ℚ) (k : K) :
    Prop :=
  (k ∈ self.keys ∨ k = key) ∧ k ∉ (self.set config key value now).2.keys

/-- The call sets the key to a value that expires then, and the key is stored. -/
def Starts (config : LRUConfig) (self : LRUCache K V) (call : CacheCall K V) (k : K)
    (held : V × ℚ) : Prop :=
  ∃ now, call = .set k held.1 now ∧ deadline config.ttl now = held.2 ∧
    ¬ self.Evicts config k held.1 now k

/-- The call sets, deletes, clears or evicts the key, or sees that the time of its value is over. -/
def Ends (config : LRUConfig) (self : LRUCache K V) (k : K) (expiration : ℚ) :
    CacheCall K V → Prop
  | .get key now => key = k ∧ now > expiration
  | .set key value now => key = k ∨ self.Evicts config key value now k
  | .delete key => key = k
  | .clear => True
  | .cleanup now => now k > expiration

/-- The cache has this value for the key, with this expiration. -/
def Holds (self : LRUCache K V) (k : K) (held : V × ℚ) : Prop :=
  ∃ entry, (k, entry) ∈ self.cache ∧ entry.value = held.1 ∧ entry.expiration = held.2

end LRUCache

open LRUCache

/-! ### What one call leaves -/

theorem mem_of_mem_set (h : Simulates config self m)
    {e : K × CacheEntry V} (he : e ∈ (self.set config key value now).2.cache) :
    e ∈ withSet config self key value now := by
  rcases set_cases h.lists h.fits key value now with ⟨-, hcache⟩ | ⟨_, hwith, -⟩
  · rwa [← hcache]
  · rw [hwith]
    exact List.mem_cons_of_mem _ he

theorem mem_withSet {entry : CacheEntry V} : (k, entry) ∈ withSet config self key value now ↔
    k = key ∧ entry = renew (self.cache.get key) value (deadline config.ttl now) ∨
      (k, entry) ∈ self.cache ∧ k ≠ key := Entries.mem_moveToEnd

/-- What a set finds and does not evict is still there. -/
theorem mem_set_of_not_evicts (h : Simulates config self m) {entry : CacheEntry V}
    (he : (k, entry) ∈ withSet config self key value now)
    (hkept : ¬ self.Evicts config key value now k) :
    (k, entry) ∈ (self.set config key value now).2.cache := by
  have hkeys : k ∈ (self.set config key value now).2.keys := by
    by_contra hgone
    refine hkept ⟨?_, hgone⟩
    rcases mem_withSet.1 he with ⟨rfl, -⟩ | ⟨hmem, -⟩
    · exact .inr rfl
    · exact .inl (List.mem_map_of_mem hmem)
  obtain ⟨⟨_, entry'⟩, hmem, rfl⟩ := List.mem_map.1 hkeys
  have huse : (setIn config m key value now).Lists (withSet config self key value now) :=
    lists_withSet h.lists
  have hsame := (huse.find _ _).2 (mem_of_mem_set h hmem)
  rw [(huse.find _ _).2 he] at hsame
  rwa [Option.some.inj hsame]

theorem holds_set_iff (h : Simulates config self m) (held : V × ℚ) :
    (self.set config key value now).2.Holds k held ↔
      self.Starts config (.set key value now) k held ∨
        self.Holds k held ∧ ¬ self.Ends config k held.2 (.set key value now) := by
  constructor
  · rintro ⟨entry, hmem, hvalue, hexpiration⟩
    have hkept : ¬ self.Evicts config key value now k :=
      fun hevicts => hevicts.2 (List.mem_map_of_mem hmem)
    rcases mem_withSet.1 (mem_of_mem_set h hmem) with ⟨rfl, rfl⟩ | ⟨hold, hne⟩
    · obtain rfl : value = held.1 := hvalue
      exact .inl ⟨now, rfl, hexpiration, hkept⟩
    · refine .inr ⟨⟨entry, hold, hvalue, hexpiration⟩, ?_⟩
      rintro (rfl | hevicts)
      · exact hne rfl
      · exact hkept hevicts
  · rintro (⟨_, hcall, hexpiration, hkept⟩ | ⟨⟨entry, hold, hvalue, hexpiration⟩, hends⟩)
    · cases hcall
      refine ⟨_, mem_set_of_not_evicts h (mem_withSet.2 (.inl ⟨rfl, rfl⟩)) hkept, rfl, ?_⟩
      exact hexpiration
    · obtain ⟨hne, hkept⟩ := not_or.1 hends
      refine ⟨entry, mem_set_of_not_evicts h (mem_withSet.2 (.inr ⟨hold, ?_⟩)) hkept, hvalue,
        hexpiration⟩
      exact fun heq => hne heq.symm

theorem holds_del_iff {stats : CacheStats} {held : V × ℚ} :
    (LRUCache.mk (self.cache.del key) stats).Holds k held ↔ self.Holds k held ∧ key ≠ k := by
  constructor
  · rintro ⟨entry, hmem, hheld⟩
    obtain ⟨hmem, hne⟩ := Entries.mem_del.1 hmem
    exact ⟨⟨entry, hmem, hheld⟩, hne.symm⟩
  · rintro ⟨⟨entry, hmem, hheld⟩, hne⟩
    exact ⟨entry, Entries.mem_del.2 ⟨hmem, hne.symm⟩, hheld⟩

/-- A get ends the value of its key exactly when it finds it expired. -/
theorem holds_get_iff (h : Simulates config self m) (held : V × ℚ) :
    (self.get key now).2.Holds k held ↔ self.Holds k held ∧ ¬ (key = k ∧ now > held.2) := by
  have hkeyed : self.cache.Keyed := h.lists.nodup
  unfold LRUCache.get
  cases hget : self.cache.get key with
  | none =>
      refine (and_iff_left_of_imp ?_).symm
      rintro ⟨entry, hmem, -⟩ ⟨rfl, -⟩
      exact Entries.get_eq_none.1 hget (List.mem_map_of_mem hmem)
  | some entry =>
      have hentry := hkeyed.get_eq_some.1 hget
      -- the only entry of the key is the one that the get has found
      have honly : ∀ e, (key, e) ∈ self.cache → e = entry := fun e he =>
        Option.some.inj ((hkeyed.get_eq_some.2 he).symm.trans hget)
      dsimp only
      split
      · rename_i hexpired
        rw [holds_del_iff]
        refine and_congr_right fun ⟨e, he, hheld⟩ => not_congr ?_
        refine ⟨fun heq => ⟨heq, ?_⟩, And.left⟩
        subst heq
        rw [← hheld.2, honly e he]
        exact of_decide_eq_true hexpired
      · rename_i hlive
        have hkept : self.Holds k held → ¬ (key = k ∧ now > held.2) := by
          rintro ⟨e, he, hheld⟩ ⟨rfl, hlate⟩
          rw [← hheld.2, honly e he] at hlate
          exact hlive (decide_eq_true hlate)
        rw [and_iff_left_of_imp hkept]
        constructor
        · rintro ⟨e, hmem, hheld⟩
          rcases Entries.mem_moveToEnd.1 hmem with ⟨rfl, rfl⟩ | ⟨hmem, -⟩
          · exact ⟨entry, hentry, hheld⟩
          · exact ⟨e, hmem, hheld⟩
        · rintro ⟨e, hmem, hheld⟩
          by_cases hk : k = key
          · subst hk
            rw [honly e hmem] at hheld
            exact ⟨_, Entries.mem_moveToEnd.2 (.inl ⟨rfl, rfl⟩), hheld⟩
          · exact ⟨e, Entries.mem_moveToEnd.2 (.inr ⟨hmem, hk⟩), hheld⟩

theorem holds_delete_iff (held : V × ℚ) :
    (self.delete key).2.Holds k held ↔ self.Holds k held ∧ key ≠ k := by
  unfold LRUCache.delete
  cases hget : self.cache.get key with
  | none =>
      refine (and_iff_left_of_imp ?_).symm
      rintro ⟨entry, hmem, -⟩ rfl
      exact Entries.get_eq_none.1 hget (List.mem_map_of_mem hmem)
  | some entry => exact holds_del_iff

omit [DecidableEq K] in
theorem holds_cleanup_iff {now : K → ℚ} (held : V × ℚ) :
    (self.cleanup now).2.Holds k held ↔ self.Holds k held ∧ ¬ now k > held.2 := by
  have hlive : ∀ entry : CacheEntry V, entry.expiration = held.2 →
      (¬ entry.isExpired (now k) ↔ ¬ now k > held.2) := by
    intro entry h
    rw [CacheEntry.isExpired, decide_eq_true_eq, h]
  constructor
  · rintro ⟨entry, hmem, hheld⟩
    obtain ⟨hmem, hkept⟩ := Entries.mem_unexpired.1 hmem
    exact ⟨⟨entry, hmem, hheld⟩, (hlive entry hheld.2).1 hkept⟩
  · rintro ⟨⟨entry, hmem, hheld⟩, hkept⟩
    exact ⟨entry, Entries.mem_unexpired.2 ⟨hmem, (hlive entry hheld.2).2 hkept⟩, hheld⟩

/-- A call leaves the values that it starts, and those that it finds and does not end. -/
theorem holds_apply_iff (h : Simulates config self m) (call : CacheCall K V) (held : V × ℚ) :
    (self.apply config call).2.Holds k held ↔
      self.Starts config call k held ∨ self.Holds k held ∧ ¬ self.Ends config k held.2 call := by
  have hquiet : (∀ key value now, call ≠ .set key value now) →
      ¬ self.Starts config call k held := by
    rintro hne ⟨now, hcall, -⟩
    exact hne k held.1 now hcall
  cases call with
  | set key value now => exact holds_set_iff h held
  | get key now =>
      rw [or_iff_right (hquiet (by simp))]
      exact holds_get_iff h held
  | delete key =>
      rw [or_iff_right (hquiet (by simp))]
      exact holds_delete_iff held
  | clear =>
      rw [or_iff_right (hquiet (by simp))]
      refine iff_of_false ?_ fun hends => hends.2 trivial
      rintro ⟨entry, hmem, -⟩
      cases hmem
  | cleanup now =>
      rw [or_iff_right (hquiet (by simp))]
      exact holds_cleanup_iff held

/-! ### Runs -/

theorem get_eq_some_iff (h : Simulates config self m) :
    (self.get key now).1 = some v ↔ ∃ expiration, self.Holds key (v, expiration) ∧
      now ≤ expiration := by
  have hkeyed : self.cache.Keyed := h.lists.nodup
  unfold LRUCache.get
  cases hget : self.cache.get key with
  | none =>
      refine iff_of_false (by simp) ?_
      rintro ⟨_, ⟨entry, hmem, -⟩, -⟩
      exact Entries.get_eq_none.1 hget (List.mem_map_of_mem hmem)
  | some entry =>
      have hentry := hkeyed.get_eq_some.1 hget
      have honly : ∀ e, (key, e) ∈ self.cache → e = entry := fun e he =>
        Option.some.inj ((hkeyed.get_eq_some.2 he).symm.trans hget)
      dsimp only
      split
      · rename_i hexpired
        refine iff_of_false (by simp) ?_
        rintro ⟨_, ⟨e, hmem, -, rfl⟩, hle⟩
        rw [honly e hmem] at hle
        exact absurd (of_decide_eq_true hexpired) (not_lt.2 hle)
      · rename_i hlive
        rw [Option.some.injEq]
        constructor
        · rintro rfl
          refine ⟨_, ⟨entry, hentry, rfl, rfl⟩, ?_⟩
          exact not_lt.1 fun hlate => hlive (decide_eq_true hlate)
        · rintro ⟨_, ⟨e, hmem, hvalue, -⟩, -⟩
          rwa [honly e hmem] at hvalue

omit [DecidableEq K] in
theorem not_holds_new {held : V × ℚ} : ¬ ({} : LRUCache K V).Holds k held := by
  rintro ⟨_, hmem, -⟩
  exact List.not_mem_nil hmem

/-- A value is there after a run if and only if a set of the run has stored it and nothing later
has ended it. -/
theorem holds_after_iff (config : LRUConfig) (calls : List (CacheCall K V)) (held : V × ℚ) :
    (after config calls).Holds k held ↔ ∃ pre call post, calls = pre ++ call :: post ∧
      (after config pre).Starts config call k held ∧
        ∀ mid c later, post = mid ++ c :: later →
          ¬ (after config (pre ++ call :: mid)).Ends config k held.2 c :=
  Runs.holds_iff_since (I := LRUCache.Sound config)
    (fun self held => self.Holds k held) (fun self call held => self.Starts config call k held)
    (fun self call held => self.Ends config k held.2 call)
    sound_new (fun _ call h => h.apply call) not_holds_new
    fun _ call h => h.elim fun _ hsimulates => holds_apply_iff hsimulates call held

/-- Who is evicted makes room for a new key in a full cache, as the oldest key. -/
theorem oldest_of_evicts (h : Simulates config self m)
    (hevicts : self.Evicts config key value now k) :
    key ∉ m.stored ∧ config.maxSize ≤ m.stored.ncard ∧
      (setIn config m key value now).Oldest k := by
  have huse : (setIn config m key value now).Lists (withSet config self key value now) :=
    lists_withSet h.lists
  have hwas : k ∈ (withSet config self key value now).map Prod.fst := by
    by_cases hk : k = key
    · exact List.mem_map_of_mem (f := Prod.fst) (mem_withSet.2 (.inl ⟨hk, rfl⟩))
    · obtain ⟨⟨_, entry⟩, hmem, rfl⟩ := List.mem_map.1 (hevicts.1.resolve_right hk)
      exact List.mem_map_of_mem (f := Prod.fst) (mem_withSet.2 (.inr ⟨hmem, hk⟩))
  rcases set_cases h.lists h.fits key value now with
    ⟨-, hcache⟩ | ⟨e, hwith, -, hfull, hnew⟩
  · refine absurd ?_ hevicts.2
    rwa [keys, hcache]
  · rw [hwith] at huse hwas
    refine ⟨hnew, ?_, ?_⟩
    · rw [h.lists.ncard_stored, hfull]
      exact Int.self_le_toNat _
    · rcases List.mem_cons.1 hwas with rfl | hkept
      · exact huse.oldest
      · exact absurd hkept hevicts.2

/-- What a run of the cache leaves: a map of at most `maxSize` keys, in the order of their last
use; who is evicted is the oldest; and a value is found as long as nothing has ended it. -/
structure LeastRecentlyUsed (config : LRUConfig) (calls : List (CacheCall K V)) : Prop where
  bounded : ((after config calls).cache.length : ℤ) ≤ max config.maxSize 0
  refines : ∃ m, LruRun config calls (replies config calls) m ∧
    m.Lists (after config calls).cache ∧
    ∀ key value now k, (after config calls).Evicts config key value now k →
      key ∉ m.stored ∧ config.maxSize ≤ m.stored.ncard ∧ (setIn config m key value now).Oldest k
  found : ∀ k now v, ((after config calls).get k now).1 = some v ↔
    ∃ pre since post, calls = pre ++ .set k v since :: post ∧
      ¬ (after config pre).Evicts config k v since k ∧ now ≤ deadline config.ttl since ∧
      ∀ mid call later, post = mid ++ call :: later →
        ¬ (after config (pre ++ .set k v since :: mid)).Ends config k
          (deadline config.ttl since) call

theorem leastRecentlyUsed (config : LRUConfig) (calls : List (CacheCall K V)) :
    LeastRecentlyUsed config calls := by
  obtain ⟨m, hrun, hsim⟩ := simulates_after config calls
  constructor
  · have hfits := hsim.fits
    omega
  · refine ⟨m, hrun, hsim.lists, fun key value now k hevicts => ?_⟩
    exact oldest_of_evicts hsim hevicts
  · intro k now v
    rw [get_eq_some_iff hsim]
    constructor
    · rintro ⟨expiration, hholds, hlive⟩
      obtain ⟨pre, _, post, hsplit, ⟨since, rfl, hexpiration, hkept⟩, hnever⟩ :=
        (holds_after_iff config calls _).1 hholds
      obtain rfl : deadline config.ttl since = expiration := hexpiration
      exact ⟨pre, since, post, hsplit, hkept, hlive, hnever⟩
    · rintro ⟨pre, since, post, hsplit, hkept, hlive, hnever⟩
      refine ⟨_, (holds_after_iff config calls _).2 ?_, hlive⟩
      exact ⟨pre, _, post, hsplit, ⟨since, rfl, rfl, hkept⟩, hnever⟩

end SolTrade.Cache
