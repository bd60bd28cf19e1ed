import SolTrade.Perf.MemoryPool

/-!
What the buffers of the pool hold, and the laws of the pool.

With clearing on, a free buffer is dirty only if somebody has written to it since it
came back.
-/

namespace SolTrade.Perf

open Library

section Cleared

variable {setup : PoolSetup} {state : PoolState} {buffer b : BufferId}

namespace PoolState

/-- The buffer holds what a cleared buffer holds. -/
def Clean (setup : PoolSetup) (state : PoolState) (buffer : BufferId) : Prop :=
  state.heap[buffer]? = some (zeros setup.bufferSize)

/-- A free buffer of the state is clean, or it was free before and holds what it held. -/
def KeepsClean (setup : PoolSetup) (state state' : PoolState) : Prop :=
  ∀ b ∈ state'.pool.pool, state'.Clean setup b ∨
    b ∈ state.pool.pool ∧ state'.heap[b]? = state.heap[b]?

theorem keepsClean_warm (n : ℕ) (halive : ∀ b ∈ state.pool.pool, b < state.heap.length) :
    KeepsClean setup state ((MemoryPool.warmOne setup)^[n] state) := by
  induction n with
  | zero => exact fun b hb => .inr ⟨hb, rfl⟩
  | succ n ih =>
      rw [Function.iterate_succ_apply']
      generalize (MemoryPool.warmOne setup)^[n] state = warmed at ih
      intro b hb
      have hb : b ∈ warmed.pool.pool ++ [warmed.heap.next] := hb
      show (warmed.heap ++ [zeros setup.bufferSize])[b]? = _ ∨
        _ ∧ (warmed.heap ++ [zeros setup.bufferSize])[b]? = _
      rcases List.mem_append.1 hb with hb | hb
      · rcases ih b hb with hclean | ⟨hfree, hsame⟩
        · have hlt := (List.getElem?_eq_some_iff.1 hclean).1
          rw [List.getElem?_append_left hlt]
          exact .inl hclean
        · have hlt : b < warmed.heap.length := by
            have hsome := List.getElem?_eq_getElem (halive b hfree)
            rw [← hsame] at hsome
            exact (List.getElem?_eq_some_iff.1 hsome).1
          rw [List.getElem?_append_left hlt]
          exact .inr ⟨hfree, hsame⟩
      · rw [List.mem_singleton.1 hb]
        exact .inl List.getElem?_concat_length

theorem pool_makeTemplate {target : ℤ} {pool : MemoryPool} :
    (MemoryPool.makeTemplate setup target pool).pool = pool.pool := by
  unfold MemoryPool.makeTemplate
  split <;> rfl

theorem Sound.lt_of_free (h : state.Sound setup) (hb : b ∈ state.pool.pool) :
    b < state.heap.length := h.lt_length ((h.free b).1 hb)

theorem keepsClean_prewarm (h : state.Sound setup) (count : Option ℤ) :
    KeepsClean setup state (MemoryPool.prewarm setup state count).2 := by
  unfold MemoryPool.prewarm
  dsimp only
  split
  · let made : PoolState :=
      ⟨state.heap, MemoryPool.makeTemplate setup (count.getD setup.poolSize) state.pool⟩
    have hwarm : KeepsClean setup made _ := keepsClean_warm
      (count.getD setup.poolSize - state.pool.warmed).toNat
      (fun b hb => h.lt_of_free (pool_makeTemplate ▸ hb))
    intro b hb
    rcases hwarm b hb with hclean | ⟨hfree, hsame⟩
    · exact .inl hclean
    · exact .inr ⟨pool_makeTemplate ▸ hfree, hsame⟩
  · exact fun b hb => .inr ⟨hb, rfl⟩

theorem keepsClean_release (h : state.Sound setup) (hclear : setup.clearOnRelease = true)
    (buffer : BufferId) : KeepsClean setup state (MemoryPool.release setup state buffer) := by
  rcases release_cases setup state buffer with hsame | ⟨bytes, hbytes, hbuffer, hnext⟩
  · rw [hsame]
    exact fun b hb => .inr ⟨hb, rfl⟩
  · rw [hnext, h.ready_of_mem hbuffer hclear]
    intro b hb
    show (state.heap.set buffer (zeros setup.bufferSize))[b]? = _ ∨
      _ ∧ (state.heap.set buffer (zeros setup.bufferSize))[b]? = _
    by_cases hb' : buffer = b
    · subst hb'
      rw [List.getElem?_set_self (List.getElem?_eq_some_iff.1 hbytes).1]
      exact .inl rfl
    · rw [List.getElem?_set_ne hb']
      refine .inr ⟨?_, rfl⟩
      rcases List.mem_append.1 hb with hb | hb
      · exact hb
      · exact absurd (List.mem_singleton.1 hb).symm hb'

/-- With clearing, only a write makes a free buffer dirty. -/
theorem keepsClean_apply (h : state.Sound setup) (hclear : setup.clearOnRelease = true)
    {event : PoolEvent} (hb : b ∈ (state.apply setup event).pool.pool)
    (hevent : ∀ bytes, event ≠ .write b bytes) :
    (state.apply setup event).Clean setup b ∨
      b ∈ state.pool.pool ∧ (state.apply setup event).heap[b]? = state.heap[b]? := by
  cases event with
  | prewarm count => exact keepsClean_prewarm h count b hb
  | acquire =>
      have hb : b ∈ (MemoryPool.acquire state).2.pool.pool := hb
      show (MemoryPool.acquire state).2.Clean setup b ∨
        b ∈ state.pool.pool ∧ (MemoryPool.acquire state).2.heap[b]? = state.heap[b]?
      unfold MemoryPool.acquire at hb ⊢
      cases hpool : state.pool.pool with
      | nil =>
          rw [hpool] at hb
          dsimp only at hb
          rw [hpool] at hb
          cases hb
      | cons buffer pool =>
          rw [hpool] at hb
          exact .inr ⟨List.mem_cons_of_mem _ hb, rfl⟩
  | release buffer => exact keepsClean_release h hclear buffer b hb
  | allocate bytes =>
      exact .inr ⟨hb, List.getElem?_append_left (h.lt_of_free hb)⟩
  | write buffer bytes =>
      refine .inr ⟨hb, List.getElem?_set_ne fun heq => ?_⟩
      subst heq
      exact hevent bytes rfl

/-- A write at a time when the buffer is free, and it has been free since. -/
def WrittenSince (setup : PoolSetup) (heap : Heap) (prewarm : Bool) (events : List PoolEvent)
    (buffer : BufferId) : Prop :=
  ∃ pre bytes post, events = pre ++ .write buffer bytes :: post ∧
    buffer ∈ (after setup heap prewarm pre).pool.pool ∧
    ∀ mid later, post = mid ++ later →
      buffer ∈ (after setup heap prewarm (pre ++ .write buffer bytes :: mid)).pool.pool

theorem after_append_singleton {heap : Heap} {prewarm : Bool} {events : List PoolEvent}
    {event : PoolEvent} : after setup heap prewarm (events ++ [event]) =
      (after setup heap prewarm events).apply setup event := Runs.run_append

theorem WrittenSince.extend {heap : Heap} {prewarm : Bool} {events : List PoolEvent}
    {event : PoolEvent} (h : WrittenSince setup heap prewarm events b)
    (hfree : b ∈ (after setup heap prewarm (events ++ [event])).pool.pool) :
    WrittenSince setup heap prewarm (events ++ [event]) b := by
  obtain ⟨pre, bytes, post, rfl, hpre, hsince⟩ := h
  refine ⟨pre, bytes, post ++ [event], by simp, hpre, fun mid later hsplit => ?_⟩
  rcases List.prefix_concat_iff.1 ⟨later, hsplit.symm⟩ with rfl | ⟨rest, hrest⟩
  · simpa using hfree
  · exact hsince mid rest hrest.symm

/-- A free buffer is clean unless somebody has written to it since it came back. -/
theorem clean_or_writtenSince (hclear : setup.clearOnRelease = true) (heap : Heap) (prewarm : Bool)
    (events : List PoolEvent) (hb : b ∈ (after setup heap prewarm events).pool.pool) :
    (after setup heap prewarm events).Clean setup b ∨ WrittenSince setup heap prewarm events b := by
  induction events using List.reverseRecOn with
  | nil =>
      have hfresh : KeepsClean setup ⟨heap, {}⟩ (new setup heap prewarm) := by
        unfold new
        split
        · exact keepsClean_prewarm (sound_empty setup heap) none
        · exact fun b hb => .inr ⟨hb, rfl⟩
      rcases hfresh b hb with hclean | ⟨hfree, -⟩
      · exact .inl hclean
      · cases hfree
  | append_singleton events event ih =>
      have hsound := sound_after setup heap prewarm events
      have hnow := hb
      rw [after_append_singleton] at hb ⊢
      by_cases hwrite : ∃ bytes, event = .write b bytes
      · obtain ⟨bytes, rfl⟩ := hwrite
        refine .inr ⟨events, bytes, [], rfl, hb, fun mid later hsplit => ?_⟩
        obtain ⟨rfl, -⟩ := List.append_eq_nil_iff.1 hsplit.symm
        exact hnow
      · rcases keepsClean_apply hsound hclear hb fun bytes heq => hwrite ⟨bytes, heq⟩ with
          hclean | ⟨hfree, hsame⟩
        · exact .inl hclean
        · rcases ih hfree with hclean | hwritten
          · exact .inl (hsame.trans hclean)
          · exact .inr (hwritten.extend hnow)

theorem acquire_eq_some (h : (MemoryPool.acquire state).1 = some buffer) :
    buffer ∈ state.pool.pool ∧ (MemoryPool.acquire state).2.heap = state.heap := by
  unfold MemoryPool.acquire at h ⊢
  cases hpool : state.pool.pool with
  | nil =>
      rw [hpool] at h
      cases h
  | cons b pool =>
      rw [hpool] at h
      obtain rfl : b = buffer := Option.some.inj h
      exact ⟨List.mem_cons_self, rfl⟩

theorem acquire_eq_none (h : (MemoryPool.acquire state).1 = none) : state.pool.pool = [] := by
  unfold MemoryPool.acquire at h
  cases hpool : state.pool.pool with
  | nil => rfl
  | cons b pool =>
      rw [hpool] at h
      cases h

/-- The warmed buffers and the template fit the budget. -/
theorem Sound.payload_le (h : state.Sound setup) :
    state.payload setup ≤ setup.memoryBudgetBytes := by
  obtain ⟨hsize, -, -, hbudget⟩ := setup.spec
  have hbytes : state.pool.warmed * setup.bufferSize ≤ setup.poolSize * setup.bufferSize :=
    Int.mul_le_mul_of_nonneg_right h.capacity hsize.le
  unfold payload
  rcases h.template with ⟨hnone, -⟩ | ⟨hclear, htemplate⟩
  · rw [hnone]
    simp only [Option.map_none, Option.getD_none]
    split at hbudget <;> omega
  · rw [htemplate]
    rw [if_pos hclear] at hbudget
    simp only [Option.map_some, Option.getD_some, zeros, List.length_replicate]
    omega

end PoolState

end Cleared

open PoolState

/-- What holds of a pool after a run. -/
structure PoolLaws (setup : PoolSetup) (heap : Heap) (prewarm : Bool) (events : List PoolEvent) :
    Prop where
  /-- A warmed buffer has one slot: it is leased and not in the queue, or in the queue once. -/
  exclusive : ((after setup heap prewarm events).pool.leased.map Prod.fst).Nodup ∧
    ∀ b flag, (b, flag) ∈ (after setup heap prewarm events).pool.leased →
      (after setup heap prewarm events).pool.pool.count b = if flag then 0 else 1
  /-- Only warmed buffers are in the queue. -/
  native : ∀ b ∈ (after setup heap prewarm events).pool.pool,
    b ∈ (after setup heap prewarm events).pool.leased.map Prod.fst
  allocated : (after setup heap prewarm events).pool.allocated =
    (after setup heap prewarm events).pool.leased.countP Prod.snd
  capacity : (after setup heap prewarm events).pool.leased.length ≤ setup.poolSize
  budget : (after setup heap prewarm events).pool.leased.length * setup.bufferSize +
    ((after setup heap prewarm events).pool.zeroBuffer.map List.length).getD 0 ≤
      setup.memoryBudgetBytes
  exhausted : (MemoryPool.acquire (after setup heap prewarm events)).1 = none →
    ∀ slot ∈ (after setup heap prewarm events).pool.leased, slot.2 = true
  cleared : setup.clearOnRelease = true → ∀ buffer,
    (MemoryPool.acquire (after setup heap prewarm events)).1 = some buffer →
    ¬ WrittenSince setup heap prewarm events buffer →
    (MemoryPool.acquire (after setup heap prewarm events)).2.heap[buffer]? =
      some (List.replicate setup.bufferSize.toNat 0)

theorem poolLaws (setup : PoolSetup) (heap : Heap) (prewarm : Bool) (events : List PoolEvent) :
    PoolLaws setup heap prewarm events := by
  have h := sound_after setup heap prewarm events
  constructor
  · refine ⟨h.keyed, fun b flag hslot => ?_⟩
    cases flag with
    | true => exact List.count_eq_zero.2 (h.not_mem_pool hslot)
    | false => exact List.count_eq_one_of_mem h.once ((h.free b).2 hslot)
  · exact fun b hb => List.mem_map_of_mem (f := Prod.fst) ((h.free b).1 hb)
  · exact h.allocated
  · exact h.warmed.symm.trans_le h.capacity
  · rw [← h.warmed]
    exact h.payload_le
  · rintro hnone ⟨b, flag⟩ hslot
    cases flag with
    | true => rfl
    | false =>
        have hfree := (h.free b).2 hslot
        rw [acquire_eq_none hnone] at hfree
        cases hfree
  · intro hclear buffer hsome hquiet
    obtain ⟨hfree, hheap⟩ := acquire_eq_some hsome
    rw [hheap]
    exact (clean_or_writtenSince hclear heap prewarm events hfree).resolve_right hquiet

/-- A pool whose budget has room for the template and two buffers, of three that it is asked for. -/
def tightPool : PoolSetup where
  bufferSize := 4
  requestedPoolSize := 3
  memoryBudgetBytes := 12
  clearOnRelease := true
  poolSize := 2
  fits := by decide +kernel

/-- The buffer 0 is written to by its holder and returned twice, and the buffer 1 is handed out. -/
def returnedTwice : List PoolEvent :=
  [.acquire, .write 0 [1, 2, 3, 4], .release 0, .release 0, .acquire]

/-- The buffer that is handed out next is zero again. -/
theorem poolLaws_returnedTwice : PoolLaws tightPool [] true returnedTwice ∧
    (MemoryPool.acquire (after tightPool [] true returnedTwice)).2.heap[0]? =
      some [0, 0, 0, 0] := by
  have hlaws := poolLaws tightPool [] true returnedTwice
  refine ⟨hlaws, hlaws.cleared rfl 0 (by decide +kernel) ?_⟩
  rintro ⟨pre, bytes, post, hsplit, hfree, -⟩
  rw [returnedTwice] at hsplit
  rcases pre with _ | ⟨_, _ | ⟨_, _ | ⟨_, _ | ⟨_, _ | ⟨_, _ | ⟨_, pre⟩⟩⟩⟩⟩⟩ <;> cases hsplit
  exact absurd hfree (by decide +kernel)

end SolTrade.Perf
