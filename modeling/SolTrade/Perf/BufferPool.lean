import Mathlib.Data.Set.Card
import SolTrade.Library.Runs
import SolTrade.Perf.MemoryPool

/-!
The pool of zero-copy buffers.

A buffer comes from the pool, or it is made when the pool is empty: to stay, while the
pool may grow, or for this one caller. All of them are released on the same path, but
only those that come from the pool are counted as allocated.
-/

namespace SolTrade.Perf

open Library

structure BufferPoolConfig where
  bufferSize : ℤ := 256 * 1024
  poolSize : ℤ := 10000
  enableAutoGrow : Bool := false
  maxPoolSize : ℤ := 50000

/-- The length of the bytes, which never changes, and the position. -/
structure ZeroCopyBuffer where
  size : ℤ
  position : ℤ := 0
deriving DecidableEq

def ZeroCopyBuffer.clear (buffer : ZeroCopyBuffer) : ZeroCopyBuffer := { buffer with position := 0 }

structure BufferPool where
  pool : List BufferId := []
  allocated : ℤ := 0
  totalAllocated : ℤ := 0
deriving DecidableEq

/-- A pool among the buffers of the program, and which of them callers hold. -/
structure BufferState where
  buffers : List ZeroCopyBuffer := []
  pool : BufferPool := {}
  held : List BufferId := []
deriving DecidableEq

namespace BufferState

variable (config : BufferPoolConfig)

/-- `ZeroCopyBuffer(size)`: a negative size raises. -/
def newBuffer (state : BufferState) : Except PoolError BufferId × BufferState :=
  if config.bufferSize < 0 then (.error (.valueError "negative count"), state)
  else (.ok state.buffers.length,
    { state with buffers := state.buffers ++ [{ size := config.bufferSize }] })

def createBuffer (state : BufferState) : Except PoolError BufferId × BufferState :=
  newBuffer config
    { state with pool := { state.pool with totalAllocated := state.pool.totalAllocated + 1 } }

/-- Pre-allocates buffers. -/
def prefill : ℕ → BufferState → Except PoolError BufferState
  | 0, state => .ok state
  | n + 1, state =>
      match createBuffer config state with
      | (.error e, _) => .error e
      | (.ok buffer, state) =>
          prefill n { state with pool := { state.pool with pool := state.pool.pool ++ [buffer] } }

/-- The constructor. -/
def new : Except PoolError BufferState := prefill config config.poolSize.toNat {}

def acquire (state : BufferState) : Except PoolError BufferId × BufferState :=
  match state.pool.pool with
  | buffer :: pool =>
      (.ok buffer,
        { state with pool := { state.pool with allocated := state.pool.allocated + 1, pool } })
  | [] =>
      if config.enableAutoGrow ∧ state.pool.totalAllocated < config.maxPoolSize then
        createBuffer config state
      else newBuffer config state

def release (state : BufferState) (id : BufferId) : BufferState :=
  match state.buffers[id]? with
  | none => state
  | some buffer =>
      { state with
        buffers := state.buffers.set id buffer.clear
        pool :=
          { state.pool with
            allocated := state.pool.allocated - 1
            pool := if buffer.clear.size = config.bufferSize then state.pool.pool ++ [id]
              else state.pool.pool } }

end BufferState

inductive BufferCall where
  | acquire
  | release (buffer : BufferId)
deriving DecidableEq

/-- A pool that its constructor has returned. -/
structure BufferSetup where
  config : BufferPoolConfig
  initial : BufferState
  created : BufferState.new config = .ok initial

namespace BufferState

/-- A caller holds the buffer that it acquires until it releases it. Nobody releases a buffer
that nobody holds. -/
def apply (config : BufferPoolConfig) (state : BufferState) : BufferCall → BufferState
  | .acquire =>
      match state.acquire config with
      | (.ok buffer, state) => { state with held := state.held ++ [buffer] }
      | (.error _, state) => state
  | .release buffer =>
      if buffer ∈ state.held then
        { state.release config buffer with held := state.held.erase buffer }
      else state

/-- The state after a run. -/
def after (setup : BufferSetup) (calls : List BufferCall) : BufferState :=
  Runs.run (apply setup.config) setup.initial calls

/-- The buffers that have been in the queue at some time of a run. -/
def retained (setup : BufferSetup) (calls : List BufferCall) : Set BufferId :=
  {b | ∃ pre post, calls = pre ++ post ∧ b ∈ (after setup pre).pool.pool}

/-- The statistic is the number of buffers that callers hold. -/
def Counted (state : BufferState) : Prop := state.pool.allocated = state.held.length

end BufferState

/-- How many buffers the pool may retain. -/
def BufferPoolConfig.limit (config : BufferPoolConfig) : ℤ :=
  max (if config.enableAutoGrow then config.maxPoolSize else config.poolSize) 0

open BufferState

/-- The accounts of a pool, in every state of a run. -/
structure BufferLaws (setup : BufferSetup) (calls : List BufferCall) : Prop where
  counted : ∀ pre post, calls = pre ++ post → (after setup pre).Counted
  retained : (retained setup calls).ncard ≤ setup.config.limit
  exclusive : ∀ pre post, calls = pre ++ post → (after setup pre).held.Nodup

namespace BufferState

section Steps

variable {setup : BufferSetup} {config : BufferPoolConfig} {state : BufferState}

/-- What holds in every state: a buffer is in the queue once, or one caller has it. -/
structure Sound (config : BufferPoolConfig) (state : BufferState) : Prop where
  once : (state.pool.pool ++ state.held).Nodup
  alive : ∀ b ∈ state.pool.pool ++ state.held,
    ∃ buffer, state.buffers[b]? = some buffer ∧ buffer.size = config.bufferSize

/-- What the constructor leaves. -/
theorem prefill_eq_ok {n : ℕ} {initial : BufferState} (h : prefill config n state = .ok initial) :
    initial.buffers = state.buffers ++ List.replicate n { size := config.bufferSize } ∧
      initial.pool.pool = state.pool.pool ++ List.range' state.buffers.length n ∧
      initial.pool.allocated = state.pool.allocated ∧ initial.held = state.held := by
  induction n generalizing state with
  | zero =>
      obtain rfl := Except.ok.inj h
      simp
  | succ n ih =>
      unfold prefill createBuffer newBuffer at h
      by_cases hsize : config.bufferSize < 0
      · rw [if_pos hsize] at h
        cases h
      · rw [if_neg hsize] at h
        obtain ⟨hbuffers, hpool, hallocated, hheld⟩ := ih h
        refine ⟨?_, ?_, hallocated, hheld⟩
        · simp [hbuffers, List.replicate_succ]
        · simp [hpool, List.range'_succ]

theorem initial_spec (setup : BufferSetup) :
    setup.initial.buffers =
        List.replicate setup.config.poolSize.toNat { size := setup.config.bufferSize } ∧
      setup.initial.pool.pool = List.range' 0 setup.config.poolSize.toNat ∧
      setup.initial.pool.allocated = 0 ∧ setup.initial.held = [] :=
  prefill_eq_ok setup.created

theorem sound_initial (setup : BufferSetup) : setup.initial.Sound setup.config := by
  obtain ⟨hbuffers, hpool, -, hheld⟩ := initial_spec setup
  constructor
  · rw [hpool, hheld, List.append_nil]
    exact List.nodup_range'
  · intro b hb
    rw [hpool, hheld, List.append_nil, List.mem_range'_1] at hb
    refine ⟨{ size := setup.config.bufferSize }, ?_, rfl⟩
    rw [hbuffers, List.getElem?_replicate, if_pos (by omega)]

/-- A new buffer is one that nobody has. -/
theorem Sound.length_not_mem (h : state.Sound config) :
    state.buffers.length ∉ state.pool.pool ++ state.held := by
  intro hmem
  obtain ⟨buffer, hbuffer, -⟩ := h.alive _ hmem
  exact absurd (List.getElem?_eq_some_iff.1 hbuffer).1 (lt_irrefl _)

/-- What an acquisition does: it takes from the queue, or it makes a buffer that it does not count,
or the buffer cannot be made. -/
theorem acquire_cases (config : BufferPoolConfig) (state : BufferState) :
    (∃ b pool, state.pool.pool = b :: pool ∧ state.apply config .acquire =
      { state with
        pool := { state.pool with allocated := state.pool.allocated + 1, pool }
        held := state.held ++ [b] }) ∨
    state.pool.pool = [] ∧ ∃ total,
      (config.bufferSize < 0 ∧ state.apply config .acquire =
        { state with pool := { state.pool with totalAllocated := total } } ∨
      0 ≤ config.bufferSize ∧ state.apply config .acquire =
        { buffers := state.buffers ++ [{ size := config.bufferSize }]
          pool := { state.pool with totalAllocated := total }
          held := state.held ++ [state.buffers.length] }) := by
  unfold apply acquire
  cases hpool : state.pool.pool with
  | cons b pool => exact .inl ⟨b, pool, rfl, rfl⟩
  | nil =>
      refine .inr ⟨rfl, ?_⟩
      dsimp only
      by_cases hgrow : config.enableAutoGrow ∧ state.pool.totalAllocated < config.maxPoolSize
      · rw [if_pos hgrow]
        unfold createBuffer newBuffer
        by_cases hsize : config.bufferSize < 0
        · rw [if_pos hsize]
          exact ⟨_, .inl ⟨hsize, rfl⟩⟩
        · rw [if_neg hsize]
          exact ⟨_, .inr ⟨not_lt.1 hsize, rfl⟩⟩
      · rw [if_neg hgrow]
        unfold newBuffer
        by_cases hsize : config.bufferSize < 0
        · rw [if_pos hsize]
          exact ⟨_, .inl ⟨hsize, rfl⟩⟩
        · rw [if_neg hsize]
          exact ⟨_, .inr ⟨not_lt.1 hsize, rfl⟩⟩

/-- What a release of a held buffer does: the buffer is at the end of the queue. -/
theorem release_of_held (h : state.Sound config) {b : BufferId} (hheld : b ∈ state.held) :
    ∃ buffer, state.buffers[b]? = some buffer ∧ state.apply config (.release b) =
      { buffers := state.buffers.set b buffer.clear
        pool :=
          { state.pool with
            allocated := state.pool.allocated - 1
            pool := state.pool.pool ++ [b] }
        held := state.held.erase b } := by
  obtain ⟨buffer, hbuffer, hsize⟩ := h.alive b (List.mem_append_right _ hheld)
  refine ⟨buffer, hbuffer, ?_⟩
  have hclear : buffer.clear.size = config.bufferSize := hsize
  have happly : state.apply config (.release b) =
      { state.release config b with held := state.held.erase b } := if_pos hheld
  rw [happly]
  unfold release
  rw [hbuffer]
  dsimp only
  rw [if_pos hclear]

theorem release_of_not_held {b : BufferId} (hheld : b ∉ state.held) :
    state.apply config (.release b) = state := if_neg hheld

/-- The buffers of the queue and those that are held stay the same ones, in any order, unless one
is made. -/
theorem perm_of_acquire {b : BufferId} {pool held : List BufferId} :
    (pool ++ (held ++ [b])).Perm (b :: pool ++ held) := by
  rw [← List.append_assoc]
  exact List.perm_append_singleton b (pool ++ held)

theorem perm_of_release {b : BufferId} {pool held : List BufferId} (hheld : b ∈ held) :
    (pool ++ [b] ++ held.erase b).Perm (pool ++ held) := by
  rw [List.append_assoc]
  exact (List.perm_cons_erase hheld).symm.append_left pool

theorem Sound.apply (h : state.Sound config) (call : BufferCall) :
    (state.apply config call).Sound config := by
  cases call with
  | acquire =>
      rcases acquire_cases config state with
        ⟨b, pool, hpool, hnext⟩ | ⟨hpool, total, ⟨-, hnext⟩ | ⟨-, hnext⟩⟩
      · rw [hnext]
        have hperm : (pool ++ (state.held ++ [b])).Perm (state.pool.pool ++ state.held) := by
          rw [hpool]
          exact perm_of_acquire
        exact ⟨hperm.nodup_iff.2 h.once, fun b' hb' => h.alive b' (hperm.mem_iff.1 hb')⟩
      · rw [hnext]
        exact ⟨h.once, h.alive⟩
      · rw [hnext]
        have hnew := h.length_not_mem
        constructor
        · show (state.pool.pool ++ (state.held ++ [state.buffers.length])).Nodup
          rw [← List.append_assoc, List.nodup_append']
          exact ⟨h.once, List.nodup_singleton _, by simpa using hnew⟩
        · intro b hb
          have hb : b ∈ state.pool.pool ++ (state.held ++ [state.buffers.length]) := hb
          rw [← List.append_assoc, List.mem_append, List.mem_singleton] at hb
          rcases hb with hb | rfl
          · obtain ⟨buffer, hbuffer, hsize⟩ := h.alive b hb
            refine ⟨buffer, ?_, hsize⟩
            rw [List.getElem?_append_left (List.getElem?_eq_some_iff.1 hbuffer).1]
            exact hbuffer
          · exact ⟨_, List.getElem?_concat_length, rfl⟩
  | release b =>
      by_cases hheld : b ∈ state.held
      · obtain ⟨buffer, hbuffer, hnext⟩ := release_of_held h hheld
        rw [hnext]
        have hperm : (state.pool.pool ++ [b] ++ state.held.erase b).Perm
          (state.pool.pool ++ state.held) := perm_of_release hheld
        refine ⟨hperm.nodup_iff.2 h.once, fun b' hb' => ?_⟩
        obtain ⟨buffer', hbuffer', hsize⟩ := h.alive b' (hperm.mem_iff.1 hb')
        by_cases heq : b = b'
        · subst heq
          rw [hbuffer] at hbuffer'
          obtain rfl := Option.some.inj hbuffer'
          refine ⟨buffer.clear, ?_, hsize⟩
          exact List.getElem?_set_self (List.getElem?_eq_some_iff.1 hbuffer).1
        · exact ⟨buffer', (List.getElem?_set_ne heq).trans hbuffer', hsize⟩
      · rwa [release_of_not_held hheld]

theorem sound_after (setup : BufferSetup) (calls : List BufferCall) :
    (after setup calls).Sound setup.config :=
  Runs.run_invariant (fun _ call h => Sound.apply h call) (sound_initial setup)

/-! ### The accounts -/

/-- The call needs no buffer that the queue does not have. -/
def Served (config : BufferPoolConfig) (state : BufferState) (call : BufferCall) : Prop :=
  call = .acquire → state.pool.pool = [] → config.bufferSize < 0

/-- A call keeps the statistic right if and only if it is served. -/
theorem counted_apply_iff (h : state.Sound config) (hcounted : state.Counted) (call : BufferCall) :
    state.Served config call ↔ (state.apply config call).Counted := by
  cases call with
  | acquire =>
      rcases acquire_cases config state with
        ⟨b, pool, hpool, hnext⟩ | ⟨hpool, total, ⟨hsize, hnext⟩ | ⟨hsize, hnext⟩⟩
      · refine iff_of_true (fun _ hempty => ?_) ?_
        · rw [hpool] at hempty
          cases hempty
        · rw [hnext]
          show state.pool.allocated + 1 = ((state.held ++ [b]).length : ℕ)
          rw [hcounted, List.length_append]
          rfl
      · rw [hnext]
        exact iff_of_true (fun _ _ => hsize) hcounted
      · refine iff_of_false (fun hserved => ?_) ?_
        · exact absurd (hserved rfl hpool) (not_lt.2 hsize)
        · rw [hnext]
          show ¬ state.pool.allocated = ((state.held ++ [_]).length : ℕ)
          rw [hcounted, List.length_append, List.length_singleton]
          omega
  | release b =>
      refine iff_of_true (fun hcall => by cases hcall) ?_
      by_cases hheld : b ∈ state.held
      · obtain ⟨buffer, -, hnext⟩ := release_of_held h hheld
        rw [hnext]
        have hlength := List.length_erase_add_one hheld
        show state.pool.allocated - 1 = ((state.held.erase b).length : ℕ)
        rw [hcounted]
        omega
      · rwa [release_of_not_held hheld]

/-- A served call makes no buffer. -/
theorem perm_apply (h : state.Sound config) {call : BufferCall}
    (hserved : state.Served config call) :
    ((state.apply config call).pool.pool ++ (state.apply config call).held).Perm
      (state.pool.pool ++ state.held) := by
  cases call with
  | acquire =>
      rcases acquire_cases config state with
        ⟨b, pool, hpool, hnext⟩ | ⟨hpool, total, ⟨-, hnext⟩ | ⟨hsize, -⟩⟩
      · rw [hnext, hpool]
        exact perm_of_acquire
      · rw [hnext]
      · exact absurd (hserved rfl hpool) (not_lt.2 hsize)
  | release b =>
      by_cases hheld : b ∈ state.held
      · obtain ⟨buffer, -, hnext⟩ := release_of_held h hheld
        rw [hnext]
        exact perm_of_release hheld
      · rw [release_of_not_held hheld]

end Steps

section Runs

variable {setup : BufferSetup} {calls : List BufferCall}

theorem counted_initial (setup : BufferSetup) : setup.initial.Counted := by
  obtain ⟨-, -, hallocated, hheld⟩ := initial_spec setup
  rw [Counted, hallocated, hheld]
  rfl

theorem counted_after_iff (setup : BufferSetup) (calls : List BufferCall) :
    (∀ pre post, calls = pre ++ post → (after setup pre).Counted) ↔
      ∀ pre call post, calls = pre ++ call :: post →
        (after setup pre).Served setup.config call :=
  Runs.always_iff_of_invariant (J := Sound setup.config) (I := Counted)
    (M := Served setup.config) (sound_initial setup) (fun _ call h => h.apply call)
    (counted_initial setup) fun _ call h hcounted => counted_apply_iff h hcounted call

/-- A run of served calls has the buffers that the constructor made. -/
theorem perm_after (hserved : ∀ pre call post, calls = pre ++ call :: post →
      (after setup pre).Served setup.config call) :
    ((after setup calls).pool.pool ++ (after setup calls).held).Perm setup.initial.pool.pool := by
  have hinitial := (initial_spec setup).2.2.2
  induction calls using List.reverseRecOn with
  | nil =>
      show (setup.initial.pool.pool ++ setup.initial.held).Perm _
      rw [hinitial, List.append_nil]
  | append_singleton calls call ih =>
      have hafter : after setup (calls ++ [call]) =
        (after setup calls).apply setup.config call := Runs.run_append
      have hlast := hserved calls call [] rfl
      rw [hafter]
      refine (perm_apply (sound_after setup calls) hlast).trans (ih fun pre c post hsplit => ?_)
      exact hserved pre c (post ++ [call]) (by simp [hsplit])

/-- What the pool retains over a run of served calls is what it was created with. -/
theorem ncard_retained (hserved : ∀ pre call post, calls = pre ++ call :: post →
      (after setup pre).Served setup.config call) :
    (retained setup calls).ncard = setup.config.poolSize.toNat := by
  obtain ⟨-, hpool, -, -⟩ := initial_spec setup
  have hretained : retained setup calls = (setup.initial.pool.pool.toFinset : Set BufferId) := by
    ext b
    rw [Finset.mem_coe, List.mem_toFinset]
    constructor
    · rintro ⟨pre, post, hsplit, hb⟩
      have hperm : ((after setup pre).pool.pool ++ (after setup pre).held).Perm
          setup.initial.pool.pool :=
        perm_after fun pre' c post' hpre => hserved pre' c (post' ++ post) (by simp [hsplit, hpre])
      exact hperm.mem_iff.1 (List.mem_append_left _ hb)
    · intro hb
      exact ⟨[], calls, rfl, hb⟩
  have hnodup : setup.initial.pool.pool.Nodup := hpool ▸ List.nodup_range'
  rw [hretained, Set.ncard_coe_finset, List.toFinset_card_of_nodup hnodup, hpool,
    List.length_range']

end Runs

end BufferState

/-- The accounts of a pool are right throughout a run if and only if it is not created with more
buffers than it may have, and no buffer is asked for when the queue is empty. -/
theorem bufferLaws_iff (setup : BufferSetup) (calls : List BufferCall) :
    BufferLaws setup calls ↔
      (setup.config.poolSize.toNat : ℤ) ≤ setup.config.limit ∧
        ∀ pre post, calls = pre ++ .acquire :: post →
          (after setup pre).pool.pool = [] → setup.config.bufferSize < 0 := by
  have hserved : (∀ pre post, calls = pre ++ .acquire :: post →
      (after setup pre).pool.pool = [] → setup.config.bufferSize < 0) ↔
      ∀ pre call post, calls = pre ++ call :: post →
        (after setup pre).Served setup.config call := by
    constructor
    · rintro h pre _ post hsplit rfl
      exact h pre post hsplit
    · intro h pre post hsplit
      exact h pre .acquire post hsplit rfl
  rw [hserved]
  constructor
  · intro h
    have hcalls := (counted_after_iff setup calls).1 h.counted
    have hretained := h.retained
    rw [ncard_retained hcalls] at hretained
    exact ⟨hretained, hcalls⟩
  · rintro ⟨hlimit, hcalls⟩
    refine ⟨(counted_after_iff setup calls).2 hcalls, ?_, fun pre post _ => ?_⟩
    · rwa [ncard_retained hcalls]
    · exact (List.nodup_append'.1 (sound_after setup pre).once).2.1

/-- A pool of one buffer: the second buffer that is acquired is not counted, and both are kept. -/
def poolOfOne : BufferSetup where
  config := { bufferSize := 8, poolSize := 1 }
  initial := { buffers := [{ size := 8 }], pool := { pool := [0], totalAllocated := 1 } }
  created := by rfl

theorem poolOfOne_exhausted :
    ¬ BufferLaws poolOfOne [.acquire, .acquire] := by
  intro h
  have hcounted := h.counted [.acquire, .acquire] [] rfl
  exact absurd hcounted (by unfold Counted; decide)

end SolTrade.Perf
