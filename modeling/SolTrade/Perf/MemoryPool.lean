import SolTrade.Library.Checked
import SolTrade.Library.KeyedTable
import SolTrade.Library.Runs

/-!
The pool of fixed-size buffers.

A buffer is an identity; what it holds stands in the heap, where its holders write as
they like. The pool knows the buffers that it has warmed by their identity, so that a
foreign buffer, or one that is back already, never enters the queue.
-/

namespace SolTrade.Perf

open Library

/-! ### Buffers -/

/-- The identity of a buffer. -/
abbrev BufferId := ℕ

/-- What the buffers hold, by their identity. -/
abbrev Heap := List (List UInt8)

/-- The identity of the buffer that is allocated next. -/
def Heap.next (heap : Heap) : BufferId := heap.length

/-- `bytes(size)` and `bytearray(size)`. -/
def zeros (size : ℤ) : List UInt8 := List.replicate size.toNat 0

/-! ### The pool -/

inductive PoolError where
  | valueError (message : String)
deriving DecidableEq

/-- `_pool_capacity`. -/
def poolCapacity (bufferSize poolSize memoryBudgetBytes : ℤ) (clearOnRelease : Bool) :
    Except PoolError ℤ := do
  require (0 < bufferSize) (.valueError "buffer_size must be a positive integer")
  require (0 < poolSize) (.valueError "pool_size must be a positive integer")
  require (0 < memoryBudgetBytes) (.valueError "memory_budget_bytes must be a positive integer")
  let available := memoryBudgetBytes - if clearOnRelease then bufferSize else 0
  let capacity := min poolSize (available.fdiv bufferSize)
  require (1 ≤ capacity)
    (.valueError "Memory pool budget must fit a buffer and its zeroing template")
  pure capacity

/-- The constants of a pool, with the capacity that its budget has room for. -/
structure PoolSetup where
  bufferSize : ℤ
  requestedPoolSize : ℤ
  memoryBudgetBytes : ℤ
  clearOnRelease : Bool
  poolSize : ℤ
  fits : poolCapacity bufferSize requestedPoolSize memoryBudgetBytes clearOnRelease = .ok poolSize

/-- The capacity is positive and fits the request and, with the template, the budget. -/
theorem PoolSetup.spec (setup : PoolSetup) : 0 < setup.bufferSize ∧ 1 ≤ setup.poolSize ∧
    setup.poolSize ≤ setup.requestedPoolSize ∧
    setup.poolSize * setup.bufferSize + (if setup.clearOnRelease then setup.bufferSize else 0) ≤
      setup.memoryBudgetBytes := by
  obtain ⟨bufferSize, requested, budget, clear, poolSize, hfits⟩ := setup
  unfold poolCapacity at hfits
  simp only [bind_eq_ok, require_eq_ok, exists_const, pure_eq_ok] at hfits
  obtain ⟨hsize, -, -, hone, rfl⟩ := hfits
  refine ⟨hsize, hone, min_le_left _ _, ?_⟩
  have hfloor := Int.ediv_mul_le (budget - if clear then bufferSize else 0) hsize.ne'
  rw [← Int.fdiv_eq_ediv_of_nonneg _ hsize.le] at hfloor
  have hmul := Int.mul_le_mul_of_nonneg_right
    (min_le_right requested ((budget - if clear then bufferSize else 0).fdiv bufferSize)) hsize.le
  show min requested _ * bufferSize + (if clear then bufferSize else 0) ≤ budget
  omega

structure MemoryPool where
  pool : List BufferId := []
  allocated : ℤ := 0
  warmed : ℤ := 0
  /-- The warmed buffers, and whether they are leased. -/
  leased : List (BufferId × Bool) := []
  zeroBuffer : Option (List UInt8) := none

/-- A pool among the buffers of the program. -/
structure PoolState where
  heap : Heap
  pool : MemoryPool

namespace MemoryPool

/-- One round of the loop of `prewarm`. -/
def warmOne (setup : PoolSetup) (state : PoolState) : PoolState where
  heap := state.heap ++ [zeros setup.bufferSize]
  pool :=
    { state.pool with
      pool := state.pool.pool ++ [state.heap.next]
      leased := KeyedTable.put Prod.fst state.pool.leased (state.heap.next, false)
      warmed := state.pool.warmed + 1 }

/-- The zeroing template, when there is something to warm. -/
def makeTemplate (setup : PoolSetup) (target : ℤ) (pool : MemoryPool) : MemoryPool :=
  if target > pool.warmed ∧ setup.clearOnRelease ∧ pool.zeroBuffer = none then
    { pool with zeroBuffer := some (zeros setup.bufferSize) }
  else pool

def prewarm (setup : PoolSetup) (state : PoolState) (count : Option ℤ) :
    Except PoolError Unit × PoolState :=
  let target := count.getD setup.poolSize
  if 0 ≤ target ∧ target ≤ setup.poolSize then
    (.ok (), (warmOne setup)^[(target - state.pool.warmed).toNat]
      { state with pool := makeTemplate setup target state.pool })
  else (.error (.valueError "Prewarm count must be an integer within pool capacity"), state)

def acquire (state : PoolState) : Option BufferId × PoolState :=
  match state.pool.pool with
  | buffer :: pool =>
      (some buffer,
        { state with pool :=
          { state.pool with
            pool
            leased := KeyedTable.put Prod.fst state.pool.leased (buffer, true)
            allocated := state.pool.allocated + 1 } })
  | [] => (none, state)

def release (setup : PoolSetup) (state : PoolState) (buffer : BufferId) : PoolState :=
  match state.heap[buffer]? with
  | none => state
  | some bytes =>
      if (bytes.length : ℤ) ≠ setup.bufferSize then state
      else
        match KeyedTable.lookup Prod.fst state.pool.leased buffer with
        | some (_, true) =>
            { heap := state.heap.set buffer (state.pool.zeroBuffer.getD bytes)
              pool :=
                { state.pool with
                  leased := KeyedTable.put Prod.fst state.pool.leased (buffer, false)
                  allocated := state.pool.allocated - 1
                  pool := state.pool.pool ++ [buffer] } }
        | _ => state

end MemoryPool

/-- What happens to the pool and to the buffers of the program. -/
inductive PoolEvent where
  | prewarm (count : Option ℤ)
  | acquire
  | release (buffer : BufferId)
  /-- Another buffer is allocated. -/
  | allocate (bytes : List UInt8)
  /-- Somebody who has the buffer writes to it, or changes its length. -/
  | write (buffer : BufferId) (bytes : List UInt8)
deriving DecidableEq

namespace PoolState

def apply (setup : PoolSetup) (state : PoolState) : PoolEvent → PoolState
  | .prewarm count => (MemoryPool.prewarm setup state count).2
  | .acquire => (MemoryPool.acquire state).2
  | .release buffer => MemoryPool.release setup state buffer
  | .allocate bytes => { state with heap := state.heap ++ [bytes] }
  | .write buffer bytes => { state with heap := state.heap.set buffer bytes }

/-- The constructor, among the buffers that there are already. -/
def new (setup : PoolSetup) (heap : Heap) (prewarm : Bool) : PoolState :=
  if prewarm then (MemoryPool.prewarm setup ⟨heap, {}⟩ none).2 else ⟨heap, {}⟩

/-- The state after a run. -/
def after (setup : PoolSetup) (heap : Heap) (prewarm : Bool) (events : List PoolEvent) :
    PoolState :=
  Runs.run (apply setup) (new setup heap prewarm) events

/-- The bytes of the warmed buffers and of the template. -/
def payload (setup : PoolSetup) (state : PoolState) : ℤ :=
  state.pool.warmed * setup.bufferSize + (state.pool.zeroBuffer.map List.length).getD 0

end PoolState

/-- What holds of a pool in every state: a warmed buffer is free once or it is leased. -/
structure PoolState.Sound (setup : PoolSetup) (state : PoolState) : Prop where
  keyed : (state.pool.leased.map Prod.fst).Nodup
  once : state.pool.pool.Nodup
  free : ∀ buffer, buffer ∈ state.pool.pool ↔ (buffer, false) ∈ state.pool.leased
  allocated : state.pool.allocated = state.pool.leased.countP Prod.snd
  warmed : state.pool.warmed = state.pool.leased.length
  capacity : state.pool.warmed ≤ setup.poolSize
  alive : ∀ buffer ∈ state.pool.leased.map Prod.fst, buffer < state.heap.length
  template : state.pool.zeroBuffer = none ∧ (setup.clearOnRelease = true → state.pool.leased = []) ∨
    setup.clearOnRelease = true ∧ state.pool.zeroBuffer = some (zeros setup.bufferSize)

/-- The template is there if it is needed. -/
def MemoryPool.Ready (setup : PoolSetup) (pool : MemoryPool) : Prop :=
  setup.clearOnRelease = true → pool.zeroBuffer = some (zeros setup.bufferSize)

section Steps

variable {setup : PoolSetup} {state : PoolState} {buffer b : BufferId}
  {leased : List (BufferId × Bool)} {old mark flag : Bool}

/-! ### Marking a warmed buffer as leased or as free -/

theorem mem_mark : (b, flag) ∈ KeyedTable.put Prod.fst leased (buffer, mark) ↔
    b = buffer ∧ flag = mark ∨ (b, flag) ∈ leased ∧ b ≠ buffer := by
  rw [KeyedTable.mem_put, Prod.mk.injEq]

theorem keys_mark (mark : Bool) (hbuffer : (buffer, old) ∈ leased) :
    (KeyedTable.put Prod.fst leased (buffer, mark)).map Prod.fst = leased.map Prod.fst := by
  rw [KeyedTable.map_key_put]
  exact if_pos (List.mem_map_of_mem hbuffer)

theorem length_mark (hbuffer : (buffer, old) ∈ leased) :
    (KeyedTable.put Prod.fst leased (buffer, mark)).length = leased.length := by
  have hlength := congrArg List.length (keys_mark mark hbuffer)
  rwa [List.length_map, List.length_map] at hlength

theorem countP_mark (mark : Bool) (hkeyed : (leased.map Prod.fst).Nodup)
    (hbuffer : (buffer, old) ∈ leased) :
    (KeyedTable.put Prod.fst leased (buffer, mark)).countP Prod.snd + old.toNat =
      leased.countP Prod.snd + mark.toNat :=
  KeyedTable.countP_put Prod.snd hkeyed hbuffer rfl

namespace PoolState

theorem Sound.lt_length (h : state.Sound setup) (hbuffer : (b, flag) ∈ state.pool.leased) :
    b < state.heap.length := h.alive b (List.mem_map_of_mem hbuffer)

/-- A buffer is not free and leased. -/
theorem Sound.not_mem_pool (h : state.Sound setup) (hbuffer : (b, true) ∈ state.pool.leased) :
    b ∉ state.pool.pool := by
  intro hfree
  have hsame := List.inj_on_of_nodup_map h.keyed hbuffer ((h.free b).1 hfree) rfl
  cases hsame

theorem Sound.next_not_mem (h : state.Sound setup) :
    state.heap.next ∉ state.pool.leased.map Prod.fst :=
  fun hmem => lt_irrefl _ (h.alive _ hmem)

theorem Sound.ready_of_mem (h : state.Sound setup) (hbuffer : (b, flag) ∈ state.pool.leased) :
    state.pool.Ready setup := by
  intro hclear
  rcases h.template with ⟨-, hempty⟩ | ⟨-, htemplate⟩
  · rw [hempty hclear] at hbuffer
    cases hbuffer
  · exact htemplate

/-! ### Every event keeps the pool sound -/

theorem Sound.warmOne (h : state.Sound setup) (hready : state.pool.Ready setup)
    (hroom : state.pool.warmed < setup.poolSize) :
    (MemoryPool.warmOne setup state).Sound setup := by
  have hput : (MemoryPool.warmOne setup state).pool.leased =
      state.pool.leased ++ [(state.heap.next, false)] :=
    KeyedTable.put_of_absent h.next_not_mem
  have hnew : state.heap.next ∉ state.pool.pool := fun hmem =>
    h.next_not_mem (List.mem_map_of_mem ((h.free _).1 hmem))
  constructor
  · exact KeyedTable.nodup_put h.keyed
  · exact List.nodup_append'.2 ⟨h.once, List.nodup_singleton _, by simpa using hnew⟩
  · intro b
    rw [hput]
    show b ∈ state.pool.pool ++ [state.heap.next] ↔ _
    rw [List.mem_append, List.mem_append, h.free, List.mem_singleton, List.mem_singleton,
      Prod.mk.injEq, and_iff_left rfl]
  · rw [hput, List.countP_append]
    exact h.allocated
  · rw [hput, List.length_append, List.length_singleton]
    show state.pool.warmed + 1 = _
    rw [h.warmed]
    push_cast
    rfl
  · exact hroom
  · intro b hb
    show b < (state.heap ++ [zeros setup.bufferSize]).length
    rw [hput, List.map_append, List.mem_append] at hb
    rw [List.length_append, List.length_singleton]
    rcases hb with hb | hb
    · exact (h.alive b hb).trans (Nat.lt_succ_self _)
    · rw [List.mem_singleton.1 hb]
      exact Nat.lt_succ_self _
  · rcases h.template with ⟨hnone, -⟩ | htemplate
    · refine .inl ⟨hnone, fun hclear => ?_⟩
      exact absurd (hnone.symm.trans (hready hclear)) (by simp)
    · exact .inr htemplate

theorem Sound.warm (n : ℕ) (h : state.Sound setup) (hready : state.pool.Ready setup)
    (hroom : state.pool.warmed + n ≤ setup.poolSize) :
    ((MemoryPool.warmOne setup)^[n] state).Sound setup := by
  induction n generalizing state with
  | zero => exact h
  | succ n ih =>
      rw [Function.iterate_succ_apply]
      have hone : state.pool.warmed < setup.poolSize := by omega
      refine ih (h.warmOne hready hone) hready ?_
      show state.pool.warmed + 1 + n ≤ setup.poolSize
      omega

theorem Sound.makeTemplate (h : state.Sound setup) (target : ℤ) :
    (PoolState.mk state.heap (MemoryPool.makeTemplate setup target state.pool)).Sound setup := by
  unfold MemoryPool.makeTemplate
  split
  · rename_i hneeded
    exact ⟨h.keyed, h.once, h.free, h.allocated, h.warmed, h.capacity, h.alive,
      .inr ⟨hneeded.2.1, rfl⟩⟩
  · exact h

theorem Sound.ready_makeTemplate (h : state.Sound setup) {target : ℤ}
    (htarget : target > state.pool.warmed) :
    (MemoryPool.makeTemplate setup target state.pool).Ready setup := by
  intro hclear
  unfold MemoryPool.makeTemplate
  split
  · rfl
  · rename_i hneeded
    rcases h.template with ⟨hnone, -⟩ | ⟨-, htemplate⟩
    · exact absurd ⟨htarget, hclear, hnone⟩ hneeded
    · exact htemplate

@[simp] theorem warmed_makeTemplate {target : ℤ} {pool : MemoryPool} :
    (MemoryPool.makeTemplate setup target pool).warmed = pool.warmed := by
  unfold MemoryPool.makeTemplate
  split <;> rfl

theorem Sound.prewarm (h : state.Sound setup) (count : Option ℤ) :
    (MemoryPool.prewarm setup state count).2.Sound setup := by
  unfold MemoryPool.prewarm
  dsimp only
  split
  · rename_i hrange
    by_cases hmore : count.getD setup.poolSize > state.pool.warmed
    · refine (h.makeTemplate _).warm _ (h.ready_makeTemplate hmore) ?_
      show (MemoryPool.makeTemplate setup _ state.pool).warmed + _ ≤ _
      rw [warmed_makeTemplate]
      omega
    · rw [Int.toNat_of_nonpos (by omega)]
      exact h.makeTemplate _
  · exact h

theorem Sound.acquire (h : state.Sound setup) : (MemoryPool.acquire state).2.Sound setup := by
  unfold MemoryPool.acquire
  cases hpool : state.pool.pool with
  | nil => exact h
  | cons buffer pool =>
      have honce := h.once
      rw [hpool] at honce
      obtain ⟨hnew, hrest⟩ := List.nodup_cons.1 honce
      have hbuffer : (buffer, false) ∈ state.pool.leased := by
        rw [← h.free, hpool]
        exact List.mem_cons_self
      have hcount := countP_mark true h.keyed hbuffer
      constructor
      · exact KeyedTable.nodup_put h.keyed
      · exact hrest
      · intro b
        show b ∈ pool ↔ (b, false) ∈ KeyedTable.put Prod.fst state.pool.leased (buffer, true)
        rw [mem_mark, ← h.free, hpool, List.mem_cons]
        constructor
        · intro hb
          exact .inr ⟨.inr hb, fun heq => hnew (heq ▸ hb)⟩
        · rintro (⟨-, hflag⟩ | ⟨rfl | hb, hne⟩)
          · cases hflag
          · exact absurd rfl hne
          · exact hb
      · show state.pool.allocated + 1 = ((KeyedTable.put _ _ _).countP Prod.snd : ℕ)
        rw [h.allocated]
        simp only [Bool.toNat_false, Bool.toNat_true] at hcount
        omega
      · exact h.warmed.trans (by rw [length_mark hbuffer])
      · exact h.capacity
      · intro b hb
        rw [keys_mark _ hbuffer] at hb
        exact h.alive b hb
      · rcases h.template with ⟨hnone, hempty⟩ | htemplate
        · refine .inl ⟨hnone, fun hclear => ?_⟩
          rw [hempty hclear] at hbuffer
          cases hbuffer
        · exact .inr htemplate

/-- A release changes nothing, or it takes a leased buffer of the right length back. -/
theorem release_cases (setup : PoolSetup) (state : PoolState) (buffer : BufferId) :
    MemoryPool.release setup state buffer = state ∨
      ∃ bytes, state.heap[buffer]? = some bytes ∧ (buffer, true) ∈ state.pool.leased ∧
        MemoryPool.release setup state buffer =
          { heap := state.heap.set buffer (state.pool.zeroBuffer.getD bytes)
            pool :=
              { state.pool with
                leased := KeyedTable.put Prod.fst state.pool.leased (buffer, false)
                allocated := state.pool.allocated - 1
                pool := state.pool.pool ++ [buffer] } } := by
  unfold MemoryPool.release
  cases hbytes : state.heap[buffer]? with
  | none => exact .inl rfl
  | some bytes =>
      dsimp only
      by_cases hlength : (bytes.length : ℤ) ≠ setup.bufferSize
      · rw [if_pos hlength]
        exact .inl rfl
      · rw [if_neg hlength]
        cases hlookup : KeyedTable.lookup Prod.fst state.pool.leased buffer with
        | none => exact .inl rfl
        | some slot =>
            obtain ⟨b, flag⟩ := slot
            cases flag with
            | false => exact .inl rfl
            | true =>
                obtain rfl : b = buffer := KeyedTable.key_of_lookup hlookup
                exact .inr ⟨bytes, rfl, KeyedTable.mem_of_lookup hlookup, rfl⟩

theorem Sound.release (h : state.Sound setup) (buffer : BufferId) :
    (MemoryPool.release setup state buffer).Sound setup := by
  rcases release_cases setup state buffer with hsame | ⟨bytes, -, hbuffer, hnext⟩
  · rwa [hsame]
  · rw [hnext]
    have hnew := h.not_mem_pool hbuffer
    have hcount := countP_mark false h.keyed hbuffer
    constructor
    · exact KeyedTable.nodup_put h.keyed
    · exact List.nodup_append'.2 ⟨h.once, List.nodup_singleton _, by simpa using hnew⟩
    · intro b
      show b ∈ state.pool.pool ++ [buffer] ↔
        (b, false) ∈ KeyedTable.put Prod.fst state.pool.leased (buffer, false)
      rw [mem_mark, ← h.free, List.mem_append, List.mem_singleton]
      constructor
      · rintro (hb | rfl)
        · exact .inr ⟨hb, fun heq => hnew (heq ▸ hb)⟩
        · exact .inl ⟨rfl, rfl⟩
      · rintro (⟨rfl, -⟩ | ⟨hb, -⟩)
        · exact .inr rfl
        · exact .inl hb
    · show state.pool.allocated - 1 = ((KeyedTable.put _ _ _).countP Prod.snd : ℕ)
      rw [h.allocated]
      simp only [Bool.toNat_false, Bool.toNat_true] at hcount
      omega
    · exact h.warmed.trans (by rw [length_mark hbuffer])
    · exact h.capacity
    · intro b hb
      rw [keys_mark _ hbuffer] at hb
      exact (h.alive b hb).trans_eq List.length_set.symm
    · rcases h.template with ⟨hnone, hempty⟩ | htemplate
      · refine .inl ⟨hnone, fun hclear => ?_⟩
        rw [hempty hclear] at hbuffer
        cases hbuffer
      · exact .inr htemplate

/-- What happens to other buffers does not concern the pool. -/
theorem Sound.heap (h : state.Sound setup) {heap : Heap}
    (hlength : state.heap.length ≤ heap.length) : (PoolState.mk heap state.pool).Sound setup where
  keyed := h.keyed
  once := h.once
  free := h.free
  allocated := h.allocated
  warmed := h.warmed
  capacity := h.capacity
  alive b hb := (h.alive b hb).trans_le hlength
  template := h.template

theorem Sound.apply (h : state.Sound setup) (event : PoolEvent) :
    (state.apply setup event).Sound setup := by
  cases event with
  | prewarm count => exact h.prewarm count
  | acquire => exact h.acquire
  | release buffer => exact h.release buffer
  | allocate bytes => exact h.heap (by simp)
  | write buffer bytes => exact h.heap (by simp)

theorem sound_empty (setup : PoolSetup) (heap : Heap) : (PoolState.mk heap {}).Sound setup where
  keyed := .nil
  once := .nil
  free b := by simp
  allocated := rfl
  warmed := rfl
  capacity := Int.le_of_lt setup.spec.2.1
  alive b hb := by cases hb
  template := .inl ⟨rfl, fun _ => rfl⟩

theorem sound_new (setup : PoolSetup) (heap : Heap) (prewarm : Bool) :
    (new setup heap prewarm).Sound setup := by
  unfold new
  split
  · exact (sound_empty setup heap).prewarm none
  · exact sound_empty setup heap

theorem sound_after (setup : PoolSetup) (heap : Heap) (prewarm : Bool) (events : List PoolEvent) :
    (after setup heap prewarm events).Sound setup :=
  Runs.run_invariant (fun _ event h => Sound.apply h event) (sound_new setup heap prewarm)

end PoolState

end Steps

end SolTrade.Perf
