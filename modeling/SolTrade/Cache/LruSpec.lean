import SolTrade.Cache.LruCache
import SolTrade.Library.RecencyMap

/-!
The cache as a map that knows which key was used least recently.

A set and a hit use their key; what is deleted, cleared or found expired is dropped;
and a set that leaves more than `maxSize` keys drops the oldest one. The code simulates
every step with the order of its dictionary: it lists the entries of the map, the least
recently used first.
-/

namespace SolTrade.Cache

open Library

variable {K V : Type} [DecidableEq K]

/-- The entry that a set leaves: an old one keeps its count. -/
def renew (old : Option (CacheEntry V)) (value : V) (expiration : ℚ) : CacheEntry V :=
  { value, expiration, accessCount := (old.map CacheEntry.accessCount).getD 0 }

/-- What a set stores in the map. -/
def setIn (config : LRUConfig) (m : RecencyMap K (CacheEntry V)) (key : K) (value : V) (now : ℚ) :
    RecencyMap K (CacheEntry V) :=
  m.use key (renew (m.find key) value (deadline config.ttl now))

/-- One call of a least-recently-used cache. -/
inductive LruStep (config : LRUConfig) (m : RecencyMap K (CacheEntry V)) :
    CacheCall K V → CacheReply V → RecencyMap K (CacheEntry V) → Prop
  | miss {key now} (h : key ∉ m.stored) : LruStep config m (.get key now) (.got none) m
  | expired {key now entry} (h : m.find key = some entry) (hexpired : entry.isExpired now) :
      LruStep config m (.get key now) (.got none) (m.drop fun k _ => k = key)
  | hit {key now entry} (h : m.find key = some entry) (hlive : ¬ entry.isExpired now) :
      LruStep config m (.get key now) (.got (some entry.value))
        (m.use key { entry with accessCount := entry.accessCount + 1 })
  | set {key value now}
      (hroom : (setIn config m key value now).stored.ncard ≤ config.maxSize.toNat) :
      LruStep config m (.set key value now) (.set (.ok ())) (setIn config m key value now)
  | evict {key value now k}
      (hfull : config.maxSize.toNat < (setIn config m key value now).stored.ncard)
      (holdest : (setIn config m key value now).Oldest k) :
      LruStep config m (.set key value now)
        (.set (if config.maxSize < 0 then .error (.keyError "dictionary is empty") else .ok ()))
        ((setIn config m key value now).drop fun k' _ => k' = k)
  | deleted {key} (h : key ∈ m.stored) :
      LruStep config m (.delete key) (.deleted true) (m.drop fun k _ => k = key)
  | absent {key} (h : key ∉ m.stored) : LruStep config m (.delete key) (.deleted false) m
  | clear : LruStep config m .clear .cleared (m.drop fun _ _ => true)
  | cleanup {now removed}
      (h : m.stored.ncard = (m.drop fun k e => e.isExpired (now k)).stored.ncard + removed) :
      LruStep config m (.cleanup now) (.cleaned removed) (m.drop fun k e => e.isExpired (now k))

/-- The map after a run, with the replies to its calls. -/
inductive LruRun (config : LRUConfig) :
    List (CacheCall K V) → List (CacheReply V) → RecencyMap K (CacheEntry V) → Prop
  | nil : LruRun config [] [] .empty
  | step {calls replies m call reply m'} (hrun : LruRun config calls replies m)
      (hstep : LruStep config m call reply m') :
      LruRun config (calls ++ [call]) (replies ++ [reply]) m'

/-- The cache lists a map of a size that it may have. -/
structure Simulates (config : LRUConfig) (lru : LRUCache K V) (m : RecencyMap K (CacheEntry V)) :
    Prop where
  lists : m.Lists lru.cache
  fits : lru.cache.length ≤ config.maxSize.toNat

section Simulation

variable {config : LRUConfig} {self : LRUCache K V} {m : RecencyMap K (CacheEntry V)}
  {call : CacheCall K V} {key : K} {value : V} {entry : CacheEntry V} {now : ℚ}

theorem get_eq_find {entries : Entries K V} (h : m.Lists entries) :
    entries.get key = m.find key := by
  ext entry
  rw [Entries.Keyed.get_eq_some h.nodup, h.find]

theorem lists_del {entries : Entries K V} (h : m.Lists entries) :
    (m.drop fun k _ => k = key).Lists (entries.del key) := by
  have hdel : entries.del key = entries.filter fun e => !decide (e.1 = key) :=
    List.filter_congr fun e _ => decide_not
  rw [hdel]
  exact h.drop

/-- What a set stores, before anything is evicted. -/
def withSet (config : LRUConfig) (self : LRUCache K V) (key : K) (value : V) (now : ℚ) :
    Entries K V :=
  self.cache.moveToEnd key (renew (self.cache.get key) value (deadline config.ttl now))

theorem lists_withSet (h : m.Lists self.cache) :
    (setIn config m key value now).Lists (withSet config self key value now) := by
  rw [withSet, get_eq_find h]
  exact h.use

theorem length_withSet_le :
    (withSet config self key value now).length ≤ self.cache.length + 1 := by
  rw [withSet, Entries.moveToEnd, List.length_append, List.length_singleton]
  exact Nat.succ_le_succ (List.length_filter_le ..)

theorem withSet_of_stored (hkeyed : self.cache.Keyed) (hkey : self.cache.get key = some entry) :
    (withSet config self key value now).length = self.cache.length :=
  hkeyed.length_moveToEnd hkey

theorem withSet_of_absent (hkey : self.cache.get key = none) :
    withSet config self key value now =
      self.cache ++ [(key, { value, expiration := deadline config.ttl now })] := by
  rw [withSet, hkey, Entries.moveToEnd, Entries.del_of_absent hkey]
  rfl

/-- What a set leaves: the oldest entries go that do not fit. -/
theorem set_spec (hkeyed : self.cache.Keyed) (hfits : self.cache.length ≤ config.maxSize.toNat)
    (key : K) (value : V) (now : ℚ) :
    (self.set config key value now).1 =
        (if (withSet config self key value now).length ≤ config.maxSize.toNat then .ok ()
          else if config.maxSize < 0 then .error (.keyError "dictionary is empty") else .ok ()) ∧
      (self.set config key value now).2.cache =
        (withSet config self key value now).drop
          ((withSet config self key value now).length - config.maxSize.toNat) := by
  cases hget : self.cache.get key with
  | some old =>
      have hlength : (withSet config self key value now).length ≤ config.maxSize.toNat := by
        rwa [withSet_of_stored hkeyed hget]
      rw [if_pos hlength, Nat.sub_eq_zero_of_le hlength, List.drop_zero]
      unfold LRUCache.set withSet
      rw [hget]
      exact ⟨rfl, rfl⟩
  | none =>
      have hlength : (withSet config self key value now).length = self.cache.length + 1 := by
        rw [withSet_of_absent hget, List.length_append, List.length_singleton]
      unfold LRUCache.set
      rw [hget]
      dsimp only
      rw [← withSet_of_absent hget, evict_eq]
      by_cases hnegative : config.maxSize < 0
      · rw [if_pos hnegative, if_neg (by omega)]
        exact ⟨rfl, rfl⟩
      · rw [if_neg hnegative, ite_self]
        exact ⟨rfl, rfl⟩

/-- A set evicts nothing, or it evicts the oldest key to let a new one in. -/
theorem set_cases (h : m.Lists self.cache) (hfits : self.cache.length ≤ config.maxSize.toNat)
    (key : K) (value : V) (now : ℚ) :
    ((withSet config self key value now).length ≤ config.maxSize.toNat ∧
        (self.set config key value now).2.cache = withSet config self key value now) ∨
      ∃ e, withSet config self key value now = e :: (self.set config key value now).2.cache ∧
        (self.set config key value now).2.cache.length = config.maxSize.toNat ∧
        self.cache.length = config.maxSize.toNat ∧ key ∉ m.stored := by
  have hkeyed : self.cache.Keyed := h.nodup
  have hcache := (set_spec hkeyed hfits key value now).2
  by_cases hroom : (withSet config self key value now).length ≤ config.maxSize.toNat
  · rw [Nat.sub_eq_zero_of_le hroom, List.drop_zero] at hcache
    exact .inl ⟨hroom, hcache⟩
  · refine .inr ?_
    have hle : (withSet config self key value now).length ≤ self.cache.length + 1 :=
      length_withSet_le
    have hone : (withSet config self key value now).length - config.maxSize.toNat = 1 := by omega
    rw [hone] at hcache
    cases hwith : withSet config self key value now with
    | nil =>
        rw [hwith] at hroom
        exact absurd (Nat.zero_le _) hroom
    | cons e cache =>
        rw [hwith, List.drop_succ_cons, List.drop_zero] at hcache
        rw [hwith, List.length_cons] at hone hroom hle
        subst hcache
        refine ⟨e, rfl, by omega, by omega, fun hstored => ?_⟩
        obtain ⟨entry, hentry⟩ := hstored
        have hlength : (withSet config self key value now).length = self.cache.length :=
          withSet_of_stored hkeyed ((get_eq_find h).trans hentry)
        rw [hwith, List.length_cons] at hlength
        omega

theorem simulates_get (h : Simulates config self m) (key : K) (now : ℚ) :
    ∃ m', LruStep config m (.get key now) (.got (self.get key now).1) m' ∧
      Simulates config (self.get key now).2 m' := by
  have hkeyed : self.cache.Keyed := h.lists.nodup
  unfold LRUCache.get
  cases hget : self.cache.get key with
  | none =>
      refine ⟨m, .miss fun hstored => ?_, h.lists, h.fits⟩
      exact Entries.get_eq_none.1 hget (h.lists.mem_stored.1 hstored)
  | some entry =>
      have hfind : m.find key = some entry := (get_eq_find h.lists).symm.trans hget
      dsimp only
      split
      · rename_i hexpired
        refine ⟨_, .expired hfind hexpired, ?_, ?_⟩
        · exact lists_del h.lists
        · exact (List.length_filter_le ..).trans h.fits
      · rename_i hlive
        refine ⟨_, .hit hfind hlive, h.lists.use, ?_⟩
        exact (hkeyed.length_moveToEnd hget).le.trans h.fits

theorem simulates_set (h : Simulates config self m) (key : K) (value : V) (now : ℚ) :
    ∃ m', LruStep config m (.set key value now) (.set (self.set config key value now).1) m' ∧
      Simulates config (self.set config key value now).2 m' := by
  have hkeyed : self.cache.Keyed := h.lists.nodup
  have huse : (setIn config m key value now).Lists (withSet config self key value now) :=
    lists_withSet h.lists
  have hcard := huse.ncard_stored
  rw [(set_spec hkeyed h.fits key value now).1]
  rcases set_cases h.lists h.fits key value now with ⟨hroom, hcache⟩ | ⟨e, hwith, hlength, -, -⟩
  · rw [if_pos hroom]
    refine ⟨_, .set (hcard.trans_le hroom), ?_, ?_⟩
    · rwa [hcache]
    · rwa [hcache]
  · have hfull : config.maxSize.toNat < (withSet config self key value now).length := by
      rw [hwith, List.length_cons, hlength]
      exact Nat.lt_succ_self _
    rw [if_neg (not_le.2 hfull)]
    rw [hwith] at huse
    exact ⟨_, .evict (hfull.trans_eq hcard.symm) huse.oldest, huse.tail, hlength.le⟩

theorem simulates_delete (h : Simulates config self m) (key : K) :
    ∃ m', LruStep config m (.delete key) (.deleted (self.delete key).1) m' ∧
      Simulates config (self.delete key).2 m' := by
  unfold LRUCache.delete
  cases hget : self.cache.get key with
  | none =>
      refine ⟨m, .absent fun hstored => ?_, h.lists, h.fits⟩
      exact Entries.get_eq_none.1 hget (h.lists.mem_stored.1 hstored)
  | some entry =>
      have hfind : m.find key = some entry := (get_eq_find h.lists).symm.trans hget
      refine ⟨_, .deleted ⟨entry, hfind⟩, ?_, ?_⟩
      · exact lists_del h.lists
      · exact (List.length_filter_le ..).trans h.fits

/-- Every call of the cache is a step of the map. -/
theorem Simulates.apply (h : Simulates config self m) (call : CacheCall K V) :
    ∃ m', LruStep config m call (self.apply config call).1 m' ∧
      Simulates config (self.apply config call).2 m' := by
  cases call with
  | get key now => exact simulates_get h key now
  | set key value now => exact simulates_set h key value now
  | delete key => exact simulates_delete h key
  | clear =>
      refine ⟨_, .clear, ?_, Nat.zero_le _⟩
      have hdrop := h.lists.drop (p := fun _ _ => true)
      rwa [List.filter_eq_nil_iff.2 (by simp)] at hdrop
  | cleanup now =>
      have hdrop : (m.drop fun k e => e.isExpired (now k)).Lists (self.cache.unexpired now) :=
        h.lists.drop
      have hle : (self.cache.unexpired now).length ≤ self.cache.length := List.length_filter_le ..
      refine ⟨_, .cleanup ?_, hdrop, hle.trans h.fits⟩
      rw [h.lists.ncard_stored, hdrop.ncard_stored]
      exact (Nat.add_sub_cancel' hle).symm

/-- The cache simulates some map: what every run keeps. -/
def LRUCache.Sound (config : LRUConfig) (self : LRUCache K V) : Prop := ∃ m, Simulates config self m

omit [DecidableEq K] in
theorem sound_new : LRUCache.Sound config ({} : LRUCache K V) :=
  ⟨_, RecencyMap.lists_empty, Nat.zero_le _⟩

theorem LRUCache.Sound.apply (h : self.Sound config) (call : CacheCall K V) :
    (self.apply config call).2.Sound config := by
  obtain ⟨m, hsim⟩ := h
  obtain ⟨m', -, hsim'⟩ := hsim.apply call
  exact ⟨m', hsim'⟩

omit [DecidableEq K] in
theorem LRUCache.Sound.keyed (h : self.Sound config) : self.cache.Keyed := by
  obtain ⟨m, hsim⟩ := h
  exact hsim.lists.nodup

omit [DecidableEq K] in
theorem LRUCache.Sound.fits (h : self.Sound config) :
    self.cache.length ≤ config.maxSize.toNat := by
  obtain ⟨m, hsim⟩ := h
  exact hsim.fits

/-- The code simulates every run of the map. -/
theorem simulates_after (config : LRUConfig) (calls : List (CacheCall K V)) :
    ∃ m, LruRun config calls (LRUCache.replies config calls) m ∧
      Simulates config (LRUCache.after config calls) m := by
  induction calls using List.reverseRecOn with
  | nil => exact ⟨_, .nil, RecencyMap.lists_empty, Nat.zero_le _⟩
  | append_singleton calls call ih =>
      obtain ⟨m, hrun, hsim⟩ := ih
      obtain ⟨m', hstep, hsim'⟩ := hsim.apply call
      rw [LRUCache.replies_append_singleton, LRUCache.after_append_singleton]
      exact ⟨m', hrun.step hstep, hsim'⟩

end Simulation

end SolTrade.Cache
