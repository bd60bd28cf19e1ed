import Mathlib.Algebra.Order.BigOperators.Group.List
import Mathlib.Data.Int.Bitwise
import SolTrade.Cache.LruSpec

/-!
The reported size of the caches.

The size is written by every operation that changes the entries, but for a get that
takes an expired entry out. It never falls below the number of entries, so that the
sum over the shards is right exactly when every shard is.
-/

namespace SolTrade.Cache

open Library

variable {K V : Type} [DecidableEq K]

/-! ### The cache without a bound -/

structure TTLCache (K V : Type) where
  cache : Entries K V := []
  stats : CacheStats := {}

namespace TTLCache

def get (self : TTLCache K V) (key : K) (now : ℚ) : Option V × TTLCache K V :=
  match self.cache.get key with
  | none => (none, { self with stats := { self.stats with misses := self.stats.misses + 1 } })
  | some entry =>
      if entry.isExpired now then
        (none, { cache := self.cache.del key
                 stats := { self.stats with misses := self.stats.misses + 1 } })
      else
        (some entry.value, { self with stats := { self.stats with hits := self.stats.hits + 1 } })

def set (ttl : ℚ) (self : TTLCache K V) (key : K) (value : V) (now : ℚ) : TTLCache K V :=
  let cache := KeyedTable.put Prod.fst self.cache
    (key, { value, expiration := deadline ttl now })
  { cache, stats := { self.stats with size := cache.length } }

def delete (self : TTLCache K V) (key : K) : Bool × TTLCache K V :=
  match self.cache.get key with
  | some _ =>
      let cache := self.cache.del key
      (true, { cache, stats := { self.stats with size := cache.length } })
  | none => (false, self)

def cleanup (self : TTLCache K V) (now : K → ℚ) : ℕ × TTLCache K V :=
  let cache := self.cache.unexpired now
  (self.cache.length - cache.length,
    { cache, stats := { self.stats with size := cache.length } })

end TTLCache

inductive TTLCall (K V : Type) where
  | get (key : K) (now : ℚ)
  | set (key : K) (value : V) (now : ℚ)
  | delete (key : K)
  | cleanup (now : K → ℚ)

namespace TTLCache

def apply (ttl : ℚ) (self : TTLCache K V) : TTLCall K V → TTLCache K V
  | .get key now => (self.get key now).2
  | .set key value now => self.set ttl key value now
  | .delete key => (self.delete key).2
  | .cleanup now => (self.cleanup now).2

/-- The cache after a run. -/
def after (ttl : ℚ) (calls : List (TTLCall K V)) : TTLCache K V :=
  Runs.run (apply ttl) {} calls

end TTLCache

/-! ### The cache in shards -/

/-- `hash(str(key))` is a parameter. -/
structure ShardedConfig (K : Type) where
  hashOf : K → ℤ
  shards : ℤ := 16
  maxSizePerShard : ℤ := 1000
  ttl : ℚ := 300000

namespace ShardedConfig

def perShard (config : ShardedConfig K) : LRUConfig where
  maxSize := config.maxSizePerShard
  ttl := config.ttl

def shardMask (config : ShardedConfig K) : ℤ := config.shards - 1

/-- The index of the shard of a key. -/
def shardIndex (config : ShardedConfig K) (key : K) : ℕ :=
  (Int.land (config.hashOf key) config.shardMask).toNat

end ShardedConfig

structure ShardedCache (K V : Type) where
  shards : List (LRUCache K V)

inductive ShardedCall (K V : Type) where
  | get (key : K) (now : ℚ)
  | set (key : K) (value : V) (now : ℚ)
  | delete (key : K)
  | clear

namespace ShardedCache

def new (config : ShardedConfig K) : ShardedCache K V where
  shards := List.replicate config.shards.toNat {}

def getShard (config : ShardedConfig K) (self : ShardedCache K V) (key : K) :
    Option (LRUCache K V) := self.shards[config.shardIndex key]?

/-- An operation on the shard of a key. Without a shard it raises `IndexError`. -/
def onShard {α : Type} (config : ShardedConfig K) (self : ShardedCache K V) (key : K)
    (operation : LRUCache K V → α × LRUCache K V) : Option α × ShardedCache K V :=
  match self.getShard config key with
  | none => (none, self)
  | some shard =>
      (some (operation shard).1,
        { shards := self.shards.set (config.shardIndex key) (operation shard).2 })

def get (config : ShardedConfig K) (self : ShardedCache K V) (key : K) (now : ℚ) :
    Option (Option V) × ShardedCache K V := self.onShard config key (·.get key now)

def set (config : ShardedConfig K) (self : ShardedCache K V) (key : K) (value : V) (now : ℚ) :
    Option (Except CacheError Unit) × ShardedCache K V :=
  self.onShard config key (·.set config.perShard key value now)

def delete (config : ShardedConfig K) (self : ShardedCache K V) (key : K) :
    Option Bool × ShardedCache K V := self.onShard config key (·.delete key)

def clear (self : ShardedCache K V) : ShardedCache K V where
  shards := self.shards.map LRUCache.clear

/-- Aggregate statistics from all shards. -/
def stats (self : ShardedCache K V) : CacheStats :=
  self.shards.foldl (fun total shard =>
    { hits := total.hits + shard.stats.hits
      misses := total.misses + shard.stats.misses
      evictions := total.evictions + shard.stats.evictions
      size := total.size + shard.stats.size }) {}

/-- How many entries the shards have together. -/
def entryCount (self : ShardedCache K V) : ℕ :=
  (self.shards.map fun shard => shard.cache.length).sum

def apply (config : ShardedConfig K) (self : ShardedCache K V) :
    ShardedCall K V → ShardedCache K V
  | .get key now => (self.get config key now).2
  | .set key value now => (self.set config key value now).2
  | .delete key => (self.delete config key).2
  | .clear => self.clear

/-- The cache after a run. -/
def after (config : ShardedConfig K) (calls : List (ShardedCall K V)) : ShardedCache K V :=
  Runs.run (apply config) (new config) calls

end ShardedCache

/-! ### What the size misses -/

/-- A get at this time finds its key stored and expired. -/
def FindsExpired (entries : Entries K V) (key : K) (now : ℚ) : Prop :=
  ∃ entry, entries.get key = some entry ∧ entry.isExpired now

section Lru

variable {config : LRUConfig} {self : LRUCache K V}
  {entries : Entries K V} {entry : CacheEntry V} {key : K} {value : V} {now : ℚ}

theorem not_findsExpired_of_absent (h : entries.get key = none) :
    ¬ FindsExpired entries key now := by
  rintro ⟨entry, hentry, -⟩
  rw [h] at hentry
  cases hentry

theorem findsExpired_iff (h : entries.get key = some entry) :
    FindsExpired entries key now ↔ entry.isExpired now := by
  constructor
  · rintro ⟨e, he, hexpired⟩
    rw [h] at he
    obtain rfl := Option.some.inj he
    exact hexpired
  · exact fun hexpired => ⟨entry, h, hexpired⟩

theorem length_del_lt (h : entries.get key = some entry) :
    (entries.del key).length < entries.length := by
  obtain ⟨⟨_, e⟩, hfind, -⟩ := Option.map_eq_some_iff.1 h
  refine List.length_filter_lt_length_iff_exists.2
    ⟨_, KeyedTable.mem_of_lookup hfind, ?_⟩
  simpa using KeyedTable.key_of_lookup hfind

namespace LRUCache

/-- The reported size is the number of entries. -/
def Counted (self : LRUCache K V) : Prop := self.stats.size = self.cache.length

/-- The call is a get that finds its key expired. -/
def TakesExpired (self : LRUCache K V) (call : CacheCall K V) : Prop :=
  ∃ key now, call = .get key now ∧ FindsExpired self.cache key now

theorem size_set (h : self.Sound config) :
    (self.set config key value now).2.Counted ∨
      self.cache = [] ∧ (self.set config key value now).2.cache = [] ∧
        (self.set config key value now).2.stats.size = self.stats.size := by
  unfold LRUCache.set
  cases hget : self.cache.get key with
  | some entry => exact .inl rfl
  | none =>
      dsimp only
      rw [evict_eq]
      by_cases hnegative : config.maxSize < 0
      · -- without room for a single entry the set raises before it writes the size
        have hzero : config.maxSize.toNat = 0 := Int.toNat_of_nonpos hnegative.le
        have hempty : self.cache = [] :=
          List.eq_nil_of_length_eq_zero (Nat.le_zero.1 (h.fits.trans_eq hzero))
        rw [if_pos hnegative, hzero]
        exact .inr ⟨hempty, List.drop_eq_nil_of_le (Nat.sub_zero _).ge, rfl⟩
      · rw [if_neg hnegative]
        exact .inl rfl

theorem length_le_size_set (h : self.Sound config) :
    (self.set config key value now).2.cache.length ≤
      (self.set config key value now).2.stats.size := by
  rcases size_set h with hcounted | ⟨-, hempty, -⟩
  · exact (Eq.le hcounted.symm)
  · rw [hempty]
    exact Nat.zero_le _

theorem Counted.set (hcounted : self.Counted) (h : self.Sound config) :
    (self.set config key value now).2.Counted := by
  rcases size_set h with hset | ⟨hempty, hempty', hsize⟩
  · exact hset
  · rw [Counted, hsize, hcounted, hempty, hempty']

theorem length_le_size_get (hkeyed : self.cache.Keyed) (hle : self.cache.length ≤ self.stats.size) :
    (self.get key now).2.cache.length ≤ (self.get key now).2.stats.size := by
  unfold LRUCache.get
  cases hget : self.cache.get key with
  | none => exact hle
  | some entry =>
      dsimp only
      split
      · exact (length_del_lt hget).le.trans hle
      · exact (hkeyed.length_moveToEnd hget).trans_le hle

theorem counted_get_iff (hkeyed : self.cache.Keyed) (hcounted : self.Counted) :
    (self.get key now).2.Counted ↔ ¬ FindsExpired self.cache key now := by
  unfold LRUCache.get
  cases hget : self.cache.get key with
  | none => exact iff_of_true hcounted (not_findsExpired_of_absent hget)
  | some entry =>
      rw [findsExpired_iff hget]
      dsimp only
      split
      · rename_i hexpired
        refine iff_of_false (fun h => ?_) (not_not_intro hexpired)
        exact absurd (hcounted.symm.trans h) (length_del_lt hget).ne'
      · rename_i hlive
        exact iff_of_true (hcounted.trans (hkeyed.length_moveToEnd hget).symm) hlive

theorem counted_delete (hcounted : self.Counted) : (self.delete key).2.Counted := by
  unfold LRUCache.delete
  cases self.cache.get key with
  | none => exact hcounted
  | some entry => rfl

theorem length_le_size_delete (hle : self.cache.length ≤ self.stats.size) :
    (self.delete key).2.cache.length ≤ (self.delete key).2.stats.size := by
  unfold LRUCache.delete
  cases self.cache.get key with
  | none => exact hle
  | some entry => exact le_rfl

theorem length_le_size_apply (h : self.Sound config) (hle : self.cache.length ≤ self.stats.size)
    (call : CacheCall K V) :
    (self.apply config call).2.cache.length ≤ (self.apply config call).2.stats.size := by
  cases call with
  | get key now => exact length_le_size_get h.keyed hle
  | set key value now => exact length_le_size_set h
  | delete key => exact length_le_size_delete hle
  | clear => exact le_rfl
  | cleanup now => exact le_rfl

/-- A call keeps a right size unless it is a get that finds its key expired. -/
theorem counted_apply_iff (h : self.Sound config) (hcounted : self.Counted)
    (call : CacheCall K V) : (self.apply config call).2.Counted ↔ ¬ self.TakesExpired call := by
  have hquiet : (∀ key now, call ≠ .get key now) → ¬ self.TakesExpired call := by
    rintro hne ⟨key, now, hcall, -⟩
    exact hne key now hcall
  cases call with
  | get key now =>
      refine (counted_get_iff h.keyed hcounted).trans (not_congr ?_)
      refine ⟨fun hexpired => ⟨key, now, rfl, hexpired⟩, ?_⟩
      rintro ⟨_, _, hcall, hexpired⟩
      cases hcall
      exact hexpired
  | set key value now => exact iff_of_true (hcounted.set h) (hquiet (by simp))
  | delete key => exact iff_of_true (counted_delete hcounted) (hquiet (by simp))
  | clear => exact iff_of_true rfl (hquiet (by simp))
  | cleanup now => exact iff_of_true rfl (hquiet (by simp))

theorem counted_after_iff (config : LRUConfig) (calls : List (CacheCall K V)) :
    (∀ pre post, calls = pre ++ post → (after config pre).Counted) ↔
      ∀ pre call post, calls = pre ++ call :: post → ¬ (after config pre).TakesExpired call := by
  refine Runs.always_iff_of_invariant (J := LRUCache.Sound config)
    (I := LRUCache.Counted) (M := fun self call => ¬ self.TakesExpired call)
    sound_new (fun _ call h => h.apply call) rfl fun _ call h hcounted => ?_
  exact (counted_apply_iff h hcounted call).symm

end LRUCache

end Lru

/-! ### The cache without a bound -/

namespace TTLCache

variable {ttl : ℚ} {self : TTLCache K V} {key : K} {now : ℚ}

/-- The reported size is the number of entries. -/
def Counted (self : TTLCache K V) : Prop := self.stats.size = self.cache.length

/-- The call is a get that finds its key expired. -/
def TakesExpired (self : TTLCache K V) (call : TTLCall K V) : Prop :=
  ∃ key now, call = .get key now ∧ FindsExpired self.cache key now

theorem counted_get_iff (hcounted : self.Counted) :
    (self.get key now).2.Counted ↔ ¬ FindsExpired self.cache key now := by
  unfold TTLCache.get
  cases hget : self.cache.get key with
  | none => exact iff_of_true hcounted (not_findsExpired_of_absent hget)
  | some entry =>
      rw [findsExpired_iff hget]
      dsimp only
      split
      · rename_i hexpired
        refine iff_of_false (fun h => ?_) (not_not_intro hexpired)
        exact absurd (hcounted.symm.trans h) (length_del_lt hget).ne'
      · rename_i hlive
        exact iff_of_true hcounted hlive

theorem counted_delete (hcounted : self.Counted) : (self.delete key).2.Counted := by
  unfold TTLCache.delete
  cases self.cache.get key with
  | none => exact hcounted
  | some entry => rfl

/-- A call keeps a right size unless it is a get that finds its key expired. -/
theorem counted_apply_iff (hcounted : self.Counted) (call : TTLCall K V) :
    (self.apply ttl call).Counted ↔ ¬ self.TakesExpired call := by
  have hquiet : (∀ key now, call ≠ .get key now) → ¬ self.TakesExpired call := by
    rintro hne ⟨key, now, hcall, -⟩
    exact hne key now hcall
  cases call with
  | get key now =>
      refine (counted_get_iff hcounted).trans (not_congr ?_)
      refine ⟨fun hexpired => ⟨key, now, rfl, hexpired⟩, ?_⟩
      rintro ⟨_, _, hcall, hexpired⟩
      cases hcall
      exact hexpired
  | set key value now => exact iff_of_true rfl (hquiet (by simp))
  | delete key => exact iff_of_true (counted_delete hcounted) (hquiet (by simp))
  | cleanup now => exact iff_of_true rfl (hquiet (by simp))

theorem counted_after_iff (ttl : ℚ) (calls : List (TTLCall K V)) :
    (∀ pre post, calls = pre ++ post → (after ttl pre).Counted) ↔
      ∀ pre call post, calls = pre ++ call :: post → ¬ (after ttl pre).TakesExpired call := by
  refine Runs.always_iff (I := TTLCache.Counted)
    (M := fun self call => ¬ self.TakesExpired call) rfl fun _ call hcounted => ?_
  exact (counted_apply_iff hcounted call).symm

end TTLCache

/-! ### The cache in shards -/

namespace ShardedCache

variable {config : ShardedConfig K} {self : ShardedCache K V} {key : K} {now : ℚ}

/-- The aggregate size is the number of entries of all the shards. -/
def Counted (self : ShardedCache K V) : Prop := self.stats.size = self.entryCount

/-- The call is a get that finds its key expired in the shard of the key. -/
def TakesExpired (config : ShardedConfig K) (self : ShardedCache K V) (call : ShardedCall K V) :
    Prop :=
  ∃ key now, call = .get key now ∧
    ∃ shard, self.getShard config key = some shard ∧ FindsExpired shard.cache key now

/-- What every run keeps: a shard never reports less than it has. -/
def Covered (config : ShardedConfig K) (self : ShardedCache K V) : Prop :=
  ∀ shard ∈ self.shards, shard.Sound config.perShard ∧ shard.cache.length ≤ shard.stats.size

omit [DecidableEq K] in
theorem size_stats : self.stats.size = (self.shards.map fun shard => shard.stats.size).sum := by
  have hfold : ∀ (shards : List (LRUCache K V)) (total : CacheStats),
      (shards.foldl (fun total shard =>
        { hits := total.hits + shard.stats.hits
          misses := total.misses + shard.stats.misses
          evictions := total.evictions + shard.stats.evictions
          size := total.size + shard.stats.size : CacheStats }) total).size =
        total.size + (shards.map fun shard => shard.stats.size).sum := by
    intro shards
    induction shards with
    | nil => exact fun _ => rfl
    | cons shard shards ih =>
        intro total
        rw [List.foldl_cons, ih, List.map_cons, List.sum_cons, Nat.add_assoc]
  exact (hfold _ _).trans (Nat.zero_add _)

theorem sum_map_eq_iff {α : Type} {l : List α} {f g : α → ℕ} (h : ∀ a ∈ l, f a ≤ g a) :
    (l.map g).sum = (l.map f).sum ↔ ∀ a ∈ l, g a = f a := by
  induction l with
  | nil => simp
  | cons a l ih =>
      have hsum : (l.map f).sum ≤ (l.map g).sum :=
        List.sum_le_sum fun b hb => h b (List.mem_cons_of_mem _ hb)
      have ha := h a List.mem_cons_self
      rw [List.forall_mem_cons, ← ih fun b hb => h b (List.mem_cons_of_mem _ hb), List.map_cons,
        List.map_cons, List.sum_cons, List.sum_cons]
      omega

omit [DecidableEq K] in
/-- The aggregate is right exactly when every shard is. -/
theorem counted_iff (h : self.Covered config) :
    self.Counted ↔ ∀ shard ∈ self.shards, shard.Counted := by
  rw [Counted, size_stats]
  exact sum_map_eq_iff fun shard hshard => (h shard hshard).2

theorem mem_set_iff {α : Type} {p : α → Prop} {l : List α} {i : ℕ} {a b : α} (hi : l[i]? = some a)
    (h : ∀ c ∈ l, p c) : (∀ c ∈ l.set i b, p c) ↔ p b := by
  obtain ⟨hlt, -⟩ := List.getElem?_eq_some_iff.1 hi
  refine ⟨fun hset => hset b (List.mem_set hlt b), fun hb c hc => ?_⟩
  rcases List.mem_or_eq_of_mem_set hc with hc | rfl
  · exact h c hc
  · exact hb

omit [DecidableEq K] in
/-- An operation on a shard keeps what it keeps of the shard. -/
theorem forall_onShard_iff {α : Type} {p : LRUCache K V → Prop}
    {operation : LRUCache K V → α × LRUCache K V} (h : ∀ shard ∈ self.shards, p shard) :
    (∀ shard ∈ (self.onShard config key operation).2.shards, p shard) ↔
      ∀ shard, self.getShard config key = some shard → p (operation shard).2 := by
  unfold onShard
  cases hshard : self.getShard config key with
  | none => exact iff_of_true h fun shard hsome => by cases hsome
  | some shard =>
      refine (mem_set_iff hshard h).trans ⟨fun hop s hs => ?_, fun hop => hop shard rfl⟩
      obtain rfl := Option.some.inj hs
      exact hop

/-- The call of a shard that a call of the cache is. -/
theorem Covered.onShard {α : Type} (h : self.Covered config) (call : CacheCall K V)
    {operation : LRUCache K V → α × LRUCache K V}
    (hcall : ∀ shard, (operation shard).2 = (shard.apply config.perShard call).2) :
    (self.onShard config key operation).2.Covered config := by
  refine (forall_onShard_iff h).2 fun shard hshard => ?_
  obtain ⟨hsound, hle⟩ := h shard (List.mem_of_getElem? hshard)
  rw [hcall]
  exact ⟨hsound.apply call, LRUCache.length_le_size_apply hsound hle call⟩

theorem Covered.apply (h : self.Covered config) (call : ShardedCall K V) :
    (self.apply config call).Covered config := by
  cases call with
  | get key now => exact h.onShard (.get key now) fun _ => rfl
  | set key value now => exact h.onShard (.set key value now) fun _ => rfl
  | delete key => exact h.onShard (.delete key) fun _ => rfl
  | clear =>
      intro shard hshard
      obtain ⟨old, hold, rfl⟩ := List.mem_map.1 hshard
      exact ⟨(h old hold).1.apply .clear, le_rfl⟩

omit [DecidableEq K] in
theorem covered_new : (new config : ShardedCache K V).Covered config := by
  intro shard hshard
  rw [List.eq_of_mem_replicate hshard]
  exact ⟨sound_new, le_rfl⟩

/-- A call keeps a right aggregate unless it is a get that finds its key expired. -/
theorem counted_apply_iff (h : self.Covered config) (hcounted : self.Counted)
    (call : ShardedCall K V) :
    (self.apply config call).Counted ↔ ¬ self.TakesExpired config call := by
  have hshards := (counted_iff h).1 hcounted
  have hquiet : (∀ key now, call ≠ .get key now) → ¬ self.TakesExpired config call := by
    rintro hne ⟨key, now, hcall, -⟩
    exact hne key now hcall
  have honShard : ∀ {α : Type} {key : K} {operation : LRUCache K V → α × LRUCache K V},
      (∀ shard, shard.Sound config.perShard → shard.Counted → (operation shard).2.Counted) →
      ∀ shard ∈ (self.onShard config key operation).2.shards, shard.Counted := by
    intro α key operation hop
    refine (forall_onShard_iff hshards).2 fun shard hshard => ?_
    have hmem := List.mem_of_getElem? hshard
    exact hop shard (h shard hmem).1 (hshards shard hmem)
  rw [counted_iff (h.apply call)]
  cases call with
  | get key now =>
      have hiff : ∀ shard, self.getShard config key = some shard →
          ((shard.get key now).2.Counted ↔ ¬ FindsExpired shard.cache key now) := by
        intro shard hshard
        have hmem := List.mem_of_getElem? hshard
        exact LRUCache.counted_get_iff (h shard hmem).1.keyed (hshards shard hmem)
      refine (forall_onShard_iff hshards).trans ?_
      constructor
      · rintro hall ⟨_, _, hcall, shard, hshard, hexpired⟩
        cases hcall
        exact (hiff shard hshard).1 (hall shard hshard) hexpired
      · intro hnone shard hshard
        refine (hiff shard hshard).2 fun hexpired => ?_
        exact hnone ⟨key, now, rfl, shard, hshard, hexpired⟩
  | set key value now =>
      refine iff_of_true (honShard fun shard hsound hcounted => ?_) (hquiet (by simp))
      exact hcounted.set hsound
  | delete key =>
      refine iff_of_true (honShard fun shard _ hcounted => ?_) (hquiet (by simp))
      exact LRUCache.counted_delete hcounted
  | clear =>
      refine iff_of_true (fun shard hshard => ?_) (hquiet (by simp))
      obtain ⟨old, -, rfl⟩ := List.mem_map.1 hshard
      rfl

theorem counted_after_iff (config : ShardedConfig K) (calls : List (ShardedCall K V)) :
    (∀ pre post, calls = pre ++ post → (after config pre).Counted) ↔
      ∀ pre call post, calls = pre ++ call :: post →
        ¬ (after config pre).TakesExpired config call := by
  refine Runs.always_iff_of_invariant (J := Covered config) (I := ShardedCache.Counted)
    (M := fun self call => ¬ self.TakesExpired config call)
    covered_new (fun _ call h => h.apply call) ?_ fun _ call h hcounted => ?_
  · refine (counted_iff covered_new).2 fun shard hshard => ?_
    rw [List.eq_of_mem_replicate hshard]
    rfl
  · exact (counted_apply_iff h hcounted call).symm

end ShardedCache

/-- The reported sizes of the caches are right throughout their runs if and only if no get of a
run finds its key expired. -/
theorem size_right_iff (config : LRUConfig) (ttl : ℚ) (sharded : ShardedConfig K)
    (lruCalls : List (CacheCall K V)) (ttlCalls : List (TTLCall K V))
    (shardedCalls : List (ShardedCall K V)) :
    ((∀ pre post, lruCalls = pre ++ post → (LRUCache.after config pre).Counted) ↔
      ∀ pre call post, lruCalls = pre ++ call :: post →
        ¬ (LRUCache.after config pre).TakesExpired call) ∧
    ((∀ pre post, ttlCalls = pre ++ post → (TTLCache.after ttl pre).Counted) ↔
      ∀ pre call post, ttlCalls = pre ++ call :: post →
        ¬ (TTLCache.after ttl pre).TakesExpired call) ∧
    ((∀ pre post, shardedCalls = pre ++ post → (ShardedCache.after sharded pre).Counted) ↔
      ∀ pre call post, shardedCalls = pre ++ call :: post →
        ¬ (ShardedCache.after sharded pre).TakesExpired sharded call) :=
  ⟨LRUCache.counted_after_iff config lruCalls, TTLCache.counted_after_iff ttl ttlCalls,
    ShardedCache.counted_after_iff sharded shardedCalls⟩

/-- A key is set at time 0 to expire at 50 and read at 51: it is gone, and the size is still 1. -/
theorem size_after_expiry :
    ¬ (LRUCache.after { ttl := 50 } [.set 7 1 0, .get 7 51] : LRUCache ℕ ℕ).Counted ∧
    ¬ (TTLCache.after 50 [.set 7 1 0, .get 7 51] : TTLCache ℕ ℕ).Counted ∧
    ¬ (ShardedCache.after { hashOf := Nat.cast, ttl := 50 } [.set 7 1 0, .get 7 51] :
      ShardedCache ℕ ℕ).Counted := by
  refine ⟨?_, ?_, ?_⟩
  · show ¬ (_ : ℕ) = _
    decide +kernel
  · show ¬ (_ : ℕ) = _
    decide +kernel
  · show ¬ (_ : ℕ) = _
    decide +kernel

end SolTrade.Cache
