import SolTrade.Float
import SolTrade.Library.KeyedTable
import SolTrade.Library.Runs

/-!
The least-recently-used cache.

The entries stand in the order of the dictionary: the least recently used first.
A call reads the clock where the source calls `time`, once for each entry in
`cleanup`. What one operation leaves of the entries of a key is said once, by
`get_apply`.
-/

namespace SolTrade.Cache

open Library

variable {K V : Type} [DecidableEq K]

/-- `_ttl_seconds`: a TTL from 100 on is one of milliseconds. -/
def ttlSeconds (ttl : ℚ) : ℚ := if ttl ≥ 100 then toFloat (ttl / 1000) else ttl

/-- `time() + self._ttl`. -/
def deadline (ttl now : ℚ) : ℚ := toFloat (now + ttlSeconds ttl)

structure CacheStats where
  hits : ℕ := 0
  misses : ℕ := 0
  evictions : ℕ := 0
  size : ℕ := 0
deriving DecidableEq

structure CacheEntry (V : Type) where
  value : V
  expiration : ℚ
  accessCount : ℕ := 0
deriving DecidableEq

def CacheEntry.isExpired (entry : CacheEntry V) (now : ℚ) : Bool := now > entry.expiration

/-- A dictionary in its own order. -/
abbrev Entries (K V : Type) := List (K × CacheEntry V)

namespace Entries

def get (entries : Entries K V) (key : K) : Option (CacheEntry V) :=
  (KeyedTable.lookup Prod.fst entries key).map Prod.snd

/-- `del entries[key]`. -/
def del (entries : Entries K V) (key : K) : Entries K V := entries.filter fun e => e.1 ≠ key

/-- `entries.move_to_end(key)`, where the key is given the entry. -/
def moveToEnd (entries : Entries K V) (key : K) (entry : CacheEntry V) : Entries K V :=
  entries.del key ++ [(key, entry)]

/-- The entries that `cleanup` keeps. -/
def unexpired (entries : Entries K V) (now : K → ℚ) : Entries K V :=
  entries.filter fun e => !e.2.isExpired (now e.1)

end Entries

inductive CacheError where
  | keyError (message : String)
deriving DecidableEq

/-- `while len(cache) > max_size: cache.popitem(last=False)`, with the evictions counted. An empty
dictionary has no item to pop. -/
def evict (maxSize : ℤ) :
    Entries K V → CacheStats → Except CacheError Unit × Entries K V × CacheStats
  | [], stats =>
      if 0 > maxSize then (.error (.keyError "dictionary is empty"), [], stats)
      else (.ok (), [], stats)
  | e :: entries, stats =>
      if ((e :: entries).length : ℤ) > maxSize then
        evict maxSize entries { stats with evictions := stats.evictions + 1 }
      else (.ok (), e :: entries, stats)

structure LRUConfig where
  maxSize : ℤ := 1000
  ttl : ℚ := 300000

structure LRUCache (K V : Type) where
  cache : Entries K V := []
  stats : CacheStats := {}

namespace LRUCache

def get (self : LRUCache K V) (key : K) (now : ℚ) : Option V × LRUCache K V :=
  match self.cache.get key with
  | none => (none, { self with stats := { self.stats with misses := self.stats.misses + 1 } })
  | some entry =>
      if entry.isExpired now then
        (none, { cache := self.cache.del key
                 stats := { self.stats with misses := self.stats.misses + 1 } })
      else
        (some entry.value,
          { cache := self.cache.moveToEnd key { entry with accessCount := entry.accessCount + 1 }
            stats := { self.stats with hits := self.stats.hits + 1 } })

def set (config : LRUConfig) (self : LRUCache K V) (key : K) (value : V) (now : ℚ) :
    Except CacheError Unit × LRUCache K V :=
  let expiration := deadline config.ttl now
  match self.cache.get key with
  | some entry =>
      let cache := self.cache.moveToEnd key { entry with value, expiration }
      (.ok (), { cache, stats := { self.stats with size := cache.length } })
  | none =>
      match evict config.maxSize (self.cache ++ [(key, { value, expiration })]) self.stats with
      | (.error e, cache, stats) => (.error e, { cache, stats })
      | (.ok (), cache, stats) => (.ok (), { cache, stats := { stats with size := cache.length } })

def delete (self : LRUCache K V) (key : K) : Bool × LRUCache K V :=
  match self.cache.get key with
  | some _ =>
      let cache := self.cache.del key
      (true, { cache, stats := { self.stats with size := cache.length } })
  | none => (false, self)

def clear (self : LRUCache K V) : LRUCache K V where
  cache := []
  stats := { self.stats with size := 0 }

def cleanup (self : LRUCache K V) (now : K → ℚ) : ℕ × LRUCache K V :=
  let cache := self.cache.unexpired now
  let removed := self.cache.length - cache.length
  (removed,
    { cache
      stats := { self.stats with
        evictions := self.stats.evictions + removed
        size := cache.length } })

end LRUCache

/-! ### Runs -/

/-- A call with what it reads of the clock. -/
inductive CacheCall (K V : Type) where
  | get (key : K) (now : ℚ)
  | set (key : K) (value : V) (now : ℚ)
  | delete (key : K)
  | clear
  | cleanup (now : K → ℚ)

inductive CacheReply (V : Type) where
  | got (value : Option V)
  | set (outcome : Except CacheError Unit)
  | deleted (found : Bool)
  | cleared
  | cleaned (removed : ℕ)

namespace LRUCache

def apply (config : LRUConfig) (self : LRUCache K V) : CacheCall K V → CacheReply V × LRUCache K V
  | .get key now => ((self.get key now).map .got id)
  | .set key value now => ((self.set config key value now).map .set id)
  | .delete key => ((self.delete key).map .deleted id)
  | .clear => (.cleared, self.clear)
  | .cleanup now => ((self.cleanup now).map .cleaned id)

/-- The cache after a run. -/
def after (config : LRUConfig) (calls : List (CacheCall K V)) : LRUCache K V :=
  Runs.run (fun self call => (self.apply config call).2) {} calls

/-- The replies to the calls of a run. -/
def repliesFrom (config : LRUConfig) : LRUCache K V → List (CacheCall K V) → List (CacheReply V)
  | _, [] => []
  | self, call :: calls =>
      (self.apply config call).1 :: repliesFrom config (self.apply config call).2 calls

def replies (config : LRUConfig) (calls : List (CacheCall K V)) : List (CacheReply V) :=
  repliesFrom config {} calls

variable {config : LRUConfig} {calls : List (CacheCall K V)} {call : CacheCall K V}

@[simp] theorem after_append_singleton :
    after config (calls ++ [call]) = ((after config calls).apply config call).2 := Runs.run_append

theorem repliesFrom_append_singleton {self : LRUCache K V} :
    repliesFrom config self (calls ++ [call]) =
      repliesFrom config self calls ++
        [((Runs.run (fun self call => (self.apply config call).2) self calls).apply
          config call).1] := by
  induction calls generalizing self with
  | nil => rfl
  | cons c calls ih => exact congrArg _ ih

@[simp] theorem replies_append_singleton : replies config (calls ++ [call]) =
    replies config calls ++ [((after config calls).apply config call).1] :=
  repliesFrom_append_singleton

end LRUCache

/-! ### The entries of a dictionary -/

/-- Every key of the dictionary has one entry. -/
def Entries.Keyed (entries : Entries K V) : Prop := (entries.map Prod.fst).Nodup

section Entries

variable {entries : Entries K V} {key k : K} {entry e : CacheEntry V} {now : K → ℚ}

theorem Entries.Keyed.get_eq_some (h : entries.Keyed) :
    entries.get key = some entry ↔ (key, entry) ∈ entries := by
  unfold Entries.get
  rw [Option.map_eq_some_iff]
  constructor
  · rintro ⟨⟨k, e⟩, hfind, rfl⟩
    obtain ⟨hmem, rfl⟩ := (KeyedTable.lookup_eq_some h).1 hfind
    exact hmem
  · intro hmem
    exact ⟨(key, entry), (KeyedTable.lookup_eq_some h).2 ⟨hmem, rfl⟩, rfl⟩

theorem Entries.get_eq_none : entries.get key = none ↔ key ∉ entries.map Prod.fst := by
  unfold Entries.get KeyedTable.lookup
  rw [Option.map_eq_none_iff, List.find?_eq_none, List.mem_map]
  simp only [decide_eq_true_eq, not_exists, not_and]

theorem Entries.mem_del : (k, e) ∈ entries.del key ↔ (k, e) ∈ entries ∧ k ≠ key := by
  rw [Entries.del, List.mem_filter, decide_eq_true_eq]

theorem Entries.mem_moveToEnd : (k, e) ∈ entries.moveToEnd key entry ↔
    k = key ∧ e = entry ∨ (k, e) ∈ entries ∧ k ≠ key := by
  rw [Entries.moveToEnd, List.mem_append, Entries.mem_del, List.mem_singleton, Prod.mk.injEq,
    or_comm]

omit [DecidableEq K] in
theorem Entries.mem_unexpired :
    (k, e) ∈ entries.unexpired now ↔ (k, e) ∈ entries ∧ ¬ e.isExpired (now k) := by
  simp [Entries.unexpired]

theorem Entries.del_of_absent (h : entries.get key = none) : entries.del key = entries := by
  refine List.filter_eq_self.2 fun a ha => decide_eq_true fun heq => ?_
  exact Entries.get_eq_none.1 h (List.mem_map.2 ⟨a, ha, heq⟩)

theorem Entries.Keyed.length_moveToEnd (h : entries.Keyed) (hkey : entries.get key = some e) :
    (entries.moveToEnd key entry).length = entries.length := by
  have hmem : key ∈ entries.map Prod.fst :=
    List.mem_map_of_mem (f := Prod.fst) (h.get_eq_some.1 hkey)
  have hone : entries.countP (fun a => a.1 = key) = 1 := by
    have hcount := List.count_eq_one_of_mem h hmem
    rw [List.count, List.countP_map] at hcount
    rw [← hcount]
    exact List.countP_congr fun a _ => by simp
  have hsplit := List.length_eq_length_filter_add (l := entries) fun a => a.1 = key
  rw [← List.countP_eq_length_filter, hone] at hsplit
  rw [Entries.moveToEnd, List.length_append, List.length_singleton, hsplit, Nat.add_comm]
  congr 2
  exact List.filter_congr fun a _ => by simp

end Entries

/-! ### Eviction -/

section Evict

variable {maxSize : ℤ} {entries : Entries K V} {stats : CacheStats}

omit [DecidableEq K] in
/-- The oldest entries go until the others fit. -/
theorem evict_eq : evict maxSize entries stats =
    (if maxSize < 0 then .error (.keyError "dictionary is empty") else .ok (),
      entries.drop (entries.length - maxSize.toNat),
      { stats with evictions := stats.evictions + (entries.length - maxSize.toNat) }) := by
  induction entries generalizing stats with
  | nil =>
      unfold evict
      split <;> simp
  | cons e entries ih =>
      have hlength : (e :: entries).length = entries.length + 1 := List.length_cons
      unfold evict
      split
      · have hdrop : (e :: entries).length - maxSize.toNat =
            entries.length - maxSize.toNat + 1 := by omega
        rw [ih, hdrop, List.drop_succ_cons]
        simp only [Prod.mk.injEq, CacheStats.mk.injEq, true_and, and_true]
        omega
      · have hdrop : (e :: entries).length - maxSize.toNat = 0 := by omega
        rw [hdrop, List.drop_zero, if_neg (by omega), Nat.add_zero]

end Evict

end SolTrade.Cache
