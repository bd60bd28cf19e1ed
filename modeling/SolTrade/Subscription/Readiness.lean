import Mathlib.Data.Finset.Sort
import Mathlib.Data.String.Basic
import SolTrade.Library.Runs
import SolTrade.Numeric

/-!
The continuity gate of a subscription.

Every interruption, recovery and newly required account starts a generation, in
which all required accounts have to be validated anew. A guard is bound to the
generation in which it was issued.
-/

namespace SolTrade.Subscription

open Library

inductive ReadinessState where
  | initializing
  | recovering
  | ready
  | continuityBroken
  deriving DecidableEq, Repr

def ReadinessState.text : ReadinessState → String
  | initializing => "initializing"
  | recovering => "recovering"
  | ready => "ready"
  | continuityBroken => "continuity-broken"

structure SubscriptionReadiness where
  required : Finset String
  forkId : String
  generation : ℤ
  state : ReadinessState
  validated : Finset String
  reason : Option String
  deriving DecidableEq

structure ReadinessStatus where
  state : String
  generation : ℤ
  forkId : String
  missingAccounts : List String
  reason : Option String
  deriving DecidableEq

/-- What a guard raises; it carries the status of the gate. -/
structure CacheNotReadyError where
  status : ReadinessStatus
  deriving DecidableEq

/-- An empty reason counts as none. -/
def CacheNotReadyError.text (e : CacheNotReadyError) : String :=
  match e.status.reason with
  | none | some "" => "Cache is not ready or frozen continuity changed"
  | some reason => reason

/-- A new gate. The empty string identifies neither a fork nor an account. -/
def subscriptionReadiness (forkId : String) (requiredAccounts : List String) :
    Except ValueError SubscriptionReadiness :=
  if forkId = "" ∨ requiredAccounts.toFinset = ∅ ∨ "" ∈ requiredAccounts then
    .error .provideForkAndAccounts
  else
    .ok
      { required := requiredAccounts.toFinset
        forkId
        generation := 0
        state := .initializing
        validated := ∅
        reason := none }

namespace SubscriptionReadiness

variable (r : SubscriptionReadiness)

def status : ReadinessStatus :=
  { state := r.state.text
    generation := r.generation
    forkId := r.forkId
    missingAccounts := (r.required \ r.validated).sort (· ≤ ·)
    reason := r.reason }

def interrupt (reason : String) : SubscriptionReadiness :=
  { r with
    generation := r.generation + 1
    validated := ∅
    reason := some reason
    state := .continuityBroken }

def beginRecovery (forkId : String) : Except ValueError ℤ × SubscriptionReadiness :=
  if forkId = "" then (.error .selectForkExplicitly, r)
  else
    (.ok (r.generation + 1),
      { r with
        generation := r.generation + 1
        forkId
        validated := ∅
        reason := none
        state := .recovering })

def requireAccounts (keys : List String) : Except ValueError ℤ × SubscriptionReadiness :=
  if "" ∈ keys then (.error .missingRequiredAccount, r)
  else if keys.toFinset \ r.required ≠ ∅ then
    (.ok (r.generation + 1),
      { r with
        generation := r.generation + 1
        validated := ∅
        required := r.required ∪ keys.toFinset
        -- another dependency does not restore the continuity of the stream
        state := if r.state = .continuityBroken then r.state else .recovering })
  else (.ok r.generation, r)

def markValidated (keys : List String) (generation : ℤ) (forkId : String) :
    Bool × SubscriptionReadiness :=
  if generation ≠ r.generation ∨ forkId ≠ r.forkId ∨ r.state = .continuityBroken then (false, r)
  else
    let validated := r.validated ∪ (keys.toFinset ∩ r.required)
    let state := if validated = r.required then .ready else r.state
    (state = .ready, { r with validated, state })

end SubscriptionReadiness

/-- The check that `guard` returns. -/
structure ReadinessGuard where
  generation : ℤ
  deriving DecidableEq

def ReadinessGuard.check (g : ReadinessGuard) (r : SubscriptionReadiness) :
    Except CacheNotReadyError Unit :=
  if r.state = .ready ∧ r.generation = g.generation then .ok () else .error ⟨r.status⟩

def SubscriptionReadiness.guard (r : SubscriptionReadiness) :
    Except CacheNotReadyError ReadinessGuard := do
  let g : ReadinessGuard := ⟨r.generation⟩
  g.check r
  return g

/-! ### Runs -/

/-- An operation of the gate. -/
inductive ReadinessCall where
  | interrupt (reason : String)
  | beginRecovery (forkId : String)
  | requireAccounts (keys : List String)
  | markValidated (keys : List String) (generation : ℤ) (forkId : String)
  | guard
  deriving DecidableEq

/-- The gate after an operation. -/
def ReadinessCall.apply (r : SubscriptionReadiness) : ReadinessCall → SubscriptionReadiness
  | .interrupt reason => r.interrupt reason
  | .beginRecovery forkId => (r.beginRecovery forkId).2
  | .requireAccounts keys => (r.requireAccounts keys).2
  | .markValidated keys generation forkId => (r.markValidated keys generation forkId).2
  | .guard => r

/-- The gate after a run of operations. -/
def SubscriptionReadiness.after (r : SubscriptionReadiness) (calls : List ReadinessCall) :
    SubscriptionReadiness :=
  Runs.run ReadinessCall.apply r calls

/-- The operation interrupts, or begins a recovery, or requires a new account. A
call that raises does none of these. -/
def ReadinessCall.Disturbs (r : SubscriptionReadiness) : ReadinessCall → Prop
  | .interrupt _ => True
  | .beginRecovery forkId => ∃ generation, (r.beginRecovery forkId).1 = .ok generation
  | .requireAccounts keys =>
      (∃ generation, (r.requireAccounts keys).1 = .ok generation) ∧ ∃ key ∈ keys, key ∉ r.required
  | .markValidated .. => False
  | .guard => False

/-- The run has validated the key with the generation and the fork that are
current at its end, and in that generation. -/
def MarkedCurrent (r₀ : SubscriptionReadiness) (calls : List ReadinessCall) (key : String) : Prop :=
  ∃ pre keys post, calls = pre ++
      .markValidated keys (r₀.after calls).generation (r₀.after calls).forkId :: post ∧
    key ∈ keys ∧
    (r₀.after pre).generation = (r₀.after calls).generation ∧
    (r₀.after pre).forkId = (r₀.after calls).forkId

/-! ### What one operation can do -/

/-- An operation leaves the gate as it is, or starts a generation, or validates
accounts in the current one. -/
inductive ReadinessStep (r : SubscriptionReadiness) :
    ReadinessCall → SubscriptionReadiness → Prop
  | idle {call : ReadinessCall} (hquiet : ¬ call.Disturbs r) : ReadinessStep r call r
  | restart {call : ReadinessCall} {r' : SubscriptionReadiness} (hdisturbs : call.Disturbs r)
      (hgeneration : r'.generation = r.generation + 1) (hvalidated : r'.validated = ∅)
      (hrequired : r.required ⊆ r'.required) (hstate : r'.state ≠ .ready)
      (hbroken : r.state = .continuityBroken →
        r'.state = .continuityBroken ∨ ∃ forkId, call = .beginRecovery forkId) :
      ReadinessStep r call r'
  | mark (keys : List String) {r' : SubscriptionReadiness} (hopen : r.state ≠ .continuityBroken)
      (hr' : r' =
        { r with
          validated := r.validated ∪ (keys.toFinset ∩ r.required)
          state := if r.validated ∪ (keys.toFinset ∩ r.required) = r.required then .ready
            else r.state }) :
      ReadinessStep r (.markValidated keys r.generation r.forkId) r'

section Step

variable {r r' : SubscriptionReadiness} {call : ReadinessCall}

theorem requireAccounts_step (r : SubscriptionReadiness) (keys : List String) :
    ReadinessStep r (.requireAccounts keys) (r.requireAccounts keys).2 := by
  rw [SubscriptionReadiness.requireAccounts]
  split
  · rename_i hempty
    refine .idle ?_
    rintro ⟨⟨generation, hok⟩, -⟩
    rw [SubscriptionReadiness.requireAccounts, if_pos hempty] at hok
    cases hok
  · rename_i hkeys
    split
    · rename_i hnew
      obtain ⟨key, hkey⟩ := Finset.nonempty_iff_ne_empty.2 hnew
      rw [Finset.mem_sdiff, List.mem_toFinset] at hkey
      refine .restart ⟨⟨r.generation + 1, ?_⟩, key, hkey.1, hkey.2⟩ rfl rfl
        Finset.subset_union_left ?_ ?_
      · rw [SubscriptionReadiness.requireAccounts, if_neg hkeys, if_pos hnew]
      · dsimp only
        split
        · rename_i hb
          rw [hb]
          decide
        · decide
      · intro hb
        exact .inl (if_pos hb |>.trans hb)
    · rename_i hold
      refine .idle ?_
      rintro ⟨-, key, hmem, hnew⟩
      apply hold
      apply Finset.ne_empty_of_mem (a := key)
      rw [Finset.mem_sdiff, List.mem_toFinset]
      exact ⟨hmem, hnew⟩

theorem markValidated_step (r : SubscriptionReadiness) (keys : List String) (generation : ℤ)
    (forkId : String) :
    ReadinessStep r (.markValidated keys generation forkId)
      (r.markValidated keys generation forkId).2 := by
  rw [SubscriptionReadiness.markValidated]
  split
  · exact .idle id
  · rename_i hcurrent
    push Not at hcurrent
    obtain ⟨rfl, rfl, hopen⟩ := hcurrent
    exact .mark keys hopen rfl

theorem ReadinessCall.apply_step (r : SubscriptionReadiness) (call : ReadinessCall) :
    ReadinessStep r call (call.apply r) := by
  cases call with
  | interrupt reason =>
      exact .restart trivial rfl rfl (Finset.Subset.refl _) nofun fun _ => .inl rfl
  | beginRecovery forkId =>
      show ReadinessStep r _ (r.beginRecovery forkId).2
      rw [SubscriptionReadiness.beginRecovery]
      split
      · rename_i hempty
        refine .idle ?_
        rintro ⟨generation, hok⟩
        rw [SubscriptionReadiness.beginRecovery, if_pos hempty] at hok
        cases hok
      · rename_i hfork
        refine .restart ⟨r.generation + 1, ?_⟩ rfl rfl (Finset.Subset.refl _) nofun
          fun _ => .inr ⟨forkId, rfl⟩
        rw [SubscriptionReadiness.beginRecovery, if_neg hfork]
  | requireAccounts keys => exact requireAccounts_step r keys
  | markValidated keys generation forkId => exact markValidated_step r keys generation forkId
  | guard => exact .idle id

theorem ReadinessStep.generation_le (h : ReadinessStep r call r') :
    r.generation ≤ r'.generation := by
  cases h with
  | idle => exact le_rfl
  | restart _ hgeneration => omega
  | mark keys _ hr' => rw [hr']

end Step

/-! ### Invariants -/

structure ReadinessInvariant (r : SubscriptionReadiness) : Prop where
  required_nonempty : r.required ≠ ∅
  validated_subset : r.validated ⊆ r.required
  ready_iff : r.state = .ready ↔ r.validated = r.required

section Invariant

variable {r r' r₀ : SubscriptionReadiness} {call : ReadinessCall} {calls : List ReadinessCall}

theorem ReadinessInvariant.init {forkId : String} {accounts : List String}
    (h : subscriptionReadiness forkId accounts = .ok r) : ReadinessInvariant r := by
  rw [subscriptionReadiness] at h
  split at h
  · cases h
  · rename_i hvalid
    rw [not_or, not_or] at hvalid
    cases h
    exact
      { required_nonempty := hvalid.2.1
        validated_subset := Finset.empty_subset _
        ready_iff := iff_of_false nofun (Ne.symm hvalid.2.1) }

theorem ReadinessInvariant.step (hI : ReadinessInvariant r) (h : ReadinessStep r call r') :
    ReadinessInvariant r' := by
  cases h with
  | idle => exact hI
  | restart _ _ hvalidated hrequired hstate _ =>
      have hne : r'.required ≠ ∅ := fun hempty =>
        hI.required_nonempty (Finset.subset_empty.1 (hempty ▸ hrequired))
      exact
        { required_nonempty := hne
          validated_subset := hvalidated ▸ Finset.empty_subset _
          ready_iff := iff_of_false hstate (hvalidated ▸ hne.symm) }
  | mark keys _ hr' =>
      subst hr'
      refine ⟨hI.required_nonempty, ?_, ?_⟩
      · exact Finset.union_subset hI.validated_subset Finset.inter_subset_right
      · dsimp only
        split
        · rename_i hall
          exact iff_of_true rfl hall
        · rename_i hsome
          refine iff_of_false (fun hready => hsome ?_) hsome
          rw [hI.ready_iff.1 hready]
          exact Finset.union_eq_left.2 Finset.inter_subset_right

theorem ReadinessInvariant.after (hI : ReadinessInvariant r) (calls : List ReadinessCall) :
    ReadinessInvariant (r.after calls) :=
  Runs.run_invariant (fun s call hs => hs.step (call.apply_step s)) hI

theorem after_append (calls' : List ReadinessCall) :
    r.after (calls ++ calls') = (r.after calls).after calls' :=
  Runs.run_append

theorem after_generation_le (r : SubscriptionReadiness) (calls : List ReadinessCall) :
    r.generation ≤ (r.after calls).generation :=
  Runs.run_mono fun s call => (call.apply_step s).generation_le

/-! ### Guards -/

theorem guard_eq_ok {g : ReadinessGuard} :
    r.guard = .ok g ↔ r.state = .ready ∧ g = ⟨r.generation⟩ := by
  rw [SubscriptionReadiness.guard]
  simp only [ReadinessGuard.check, and_true]
  split
  · rename_i h
    simp [h, pure, Except.pure, eq_comm]
  · rename_i h
    simp [h, bind, Except.bind]

theorem check_eq_ok {g : ReadinessGuard} :
    g.check r = .ok () ↔ r.state = .ready ∧ r.generation = g.generation := by
  rw [ReadinessGuard.check]
  split <;> simp_all

/-- A disturbance ends the generation of every guard issued before it. -/
theorem generation_lt_of_disturbs (h : call.Disturbs r) (later : List ReadinessCall) :
    r.generation < ((call.apply r).after later).generation := by
  have hlater := after_generation_le (call.apply r) later
  have hstep := call.apply_step r
  generalize call.apply r = r' at hstep hlater ⊢
  cases hstep with
  | idle hquiet => exact absurd h hquiet
  | restart _ hgeneration => omega
  | mark => exact h.elim

/-- A guard passes as long as nothing disturbs the gate. -/
theorem check_after_iff {g : ReadinessGuard} (hg : r.guard = .ok g) (later : List ReadinessCall) :
    g.check (r.after later) = .ok () ↔
      ∀ pre call post, later = pre ++ call :: post → ¬ call.Disturbs (r.after pre) := by
  obtain ⟨hready, rfl⟩ := guard_eq_ok.1 hg
  rw [check_eq_ok]
  constructor
  · rintro ⟨-, hgeneration⟩ pre call post rfl hdisturbs
    have hpre := after_generation_le r pre
    have hlt := generation_lt_of_disturbs hdisturbs post
    rw [after_append] at hgeneration
    change ((call.apply (r.after pre)).after post).generation = r.generation at hgeneration
    omega
  · intro hquiet
    refine Runs.run_keeps
      (p := fun s : SubscriptionReadiness => s.state = .ready ∧ s.generation = r.generation)
      (fun s call hs (hgood : ¬ ReadinessCall.Disturbs s call) => ?_) ⟨hready, rfl⟩ hquiet
    have hstep := call.apply_step s
    generalize call.apply s = s' at hstep ⊢
    cases hstep with
    | idle => exact hs
    | restart hdisturbs => exact absurd hdisturbs hgood
    | mark keys _ hr' =>
        subst hr'
        refine ⟨?_, hs.2⟩
        dsimp only
        split
        · rfl
        · exact hs.1

/-! ### Where validations come from -/

/-- Only marks of the current generation and fork validate a key. -/
theorem markedCurrent_of_validated (h₀ : r₀.validated = ∅) {key : String}
    (hkey : key ∈ (r₀.after calls).validated) : MarkedCurrent r₀ calls key := by
  induction calls using List.reverseRecOn generalizing key with
  | nil =>
      change key ∈ r₀.validated at hkey
      rw [h₀] at hkey
      exact absurd hkey (Finset.notMem_empty _)
  | append_singleton calls call ih =>
      have hstep := call.apply_step (r₀.after calls)
      have happly : call.apply (r₀.after calls) = r₀.after (calls ++ [call]) :=
        (after_append [call]).symm
      -- an earlier mark still counts while generation and fork stay
      have hold : (r₀.after (calls ++ [call])).generation = (r₀.after calls).generation →
          (r₀.after (calls ++ [call])).forkId = (r₀.after calls).forkId →
          key ∈ (r₀.after calls).validated → MarkedCurrent r₀ (calls ++ [call]) key := by
        intro hgeneration hfork hmem
        obtain ⟨pre, keys, post, hsplit, hin, hpre, hprefork⟩ := ih hmem
        refine ⟨pre, keys, post ++ [call], ?_, hin, hpre.trans hgeneration.symm,
          hprefork.trans hfork.symm⟩
        rw [hgeneration, hfork, ← List.cons_append, ← List.append_assoc, ← hsplit]
      generalize call.apply (r₀.after calls) = r' at hstep happly
      rw [← happly] at hkey hold
      cases hstep with
      | idle => exact hold rfl rfl hkey
      | restart _ _ hvalidated =>
          rw [hvalidated] at hkey
          exact absurd hkey (Finset.notMem_empty _)
      | mark keys _ hr' =>
          rw [hr', Finset.mem_union, Finset.mem_inter, List.mem_toFinset] at hkey
          rcases hkey with hkey | ⟨hkey, -⟩
          · exact hold (by rw [hr']) (by rw [hr']) hkey
          · refine ⟨calls, keys, [], ?_, hkey, ?_, ?_⟩ <;> rw [← happly, hr']

theorem ReadinessStep.leaves_broken (h : ReadinessStep r call r')
    (hbroken : r.state = .continuityBroken) (hleft : r'.state ≠ .continuityBroken) :
    ∃ forkId, call = .beginRecovery forkId := by
  cases h with
  | idle => exact absurd hbroken hleft
  | restart _ _ _ _ _ hstay => exact (hstay hbroken).resolve_left hleft
  | mark _ hopen => exact absurd hbroken hopen

theorem ReadinessStep.reaches_ready (h : ReadinessStep r call r') (hwaiting : r.state ≠ .ready)
    (hready : r'.state = .ready) : ∃ keys, call = .markValidated keys r.generation r.forkId := by
  cases h with
  | idle => exact absurd hready hwaiting
  | restart _ _ _ _ hstate => exact absurd hready hstate
  | mark keys => exact ⟨keys, rfl⟩

theorem markValidated_stale {generation : ℤ} {forkId : String}
    (h : generation ≠ r.generation ∨ forkId ≠ r.forkId) (keys : List String) :
    r.markValidated keys generation forkId = (false, r) := by
  rw [SubscriptionReadiness.markValidated, if_pos]
  exact or_assoc.1 (.inl h)

end Invariant

/-- The gate over every run of operations. It is ready exactly while the validated
accounts are the required ones, and then each of them was marked in the current
generation on the current fork. A guard passes later exactly as long as nothing
disturbed the gate, and a broken gate waits for a recovery. -/
theorem subscriptionReadiness_runs {forkId : String} {accounts : List String}
    {r₀ : SubscriptionReadiness} (h : subscriptionReadiness forkId accounts = .ok r₀)
    (calls : List ReadinessCall) :
    (r₀.after calls).validated ⊆ (r₀.after calls).required ∧
    ((r₀.after calls).state = .ready ↔
      (r₀.after calls).validated = (r₀.after calls).required) ∧
    (∀ call, (r₀.after calls).generation ≤ (r₀.after (calls ++ [call])).generation) ∧
    (∀ g, (r₀.after calls).guard = .ok g → ∀ later,
      (g.check (r₀.after (calls ++ later)) = .ok () ↔
        ∀ pre call post, later = pre ++ call :: post →
          ¬ call.Disturbs (r₀.after (calls ++ pre)))) ∧
    ((r₀.after calls).state = .continuityBroken → ∀ call,
      (r₀.after (calls ++ [call])).state ≠ .continuityBroken →
        ∃ forkId, call = .beginRecovery forkId) ∧
    ((r₀.after calls).state = .ready →
      ∀ key ∈ (r₀.after calls).required, MarkedCurrent r₀ calls key) ∧
    ((r₀.after calls).state ≠ .ready → ∀ call, (r₀.after (calls ++ [call])).state = .ready →
      ∃ keys, call =
        .markValidated keys (r₀.after calls).generation (r₀.after calls).forkId) ∧
    (∀ keys generation forkId,
      generation ≠ (r₀.after calls).generation ∨ forkId ≠ (r₀.after calls).forkId →
        (r₀.after calls).markValidated keys generation forkId = (false, r₀.after calls)) := by
  have hI := (ReadinessInvariant.init h).after calls
  have hfresh : r₀.validated = ∅ := by
    rw [subscriptionReadiness] at h
    split at h
    · cases h
    · cases h
      rfl
  have hstep : ∀ call, ReadinessStep (r₀.after calls) call (r₀.after (calls ++ [call])) := by
    intro call
    rw [after_append]
    exact call.apply_step (r₀.after calls)
  refine ⟨hI.validated_subset, hI.ready_iff, fun call => (hstep call).generation_le,
    fun g hg later => ?_, fun hbroken call => (hstep call).leaves_broken hbroken,
    fun hready key hkey => ?_, fun hwaiting call => (hstep call).reaches_ready hwaiting,
    fun keys generation forkId hstale => markValidated_stale hstale keys⟩
  · rw [after_append, check_after_iff hg]
    simp only [after_append]
  · rw [← hI.ready_iff.1 hready] at hkey
    exact markedCurrent_of_validated hfresh hkey

/-- A gate that is interrupted after it was ready, and the guard issued before. -/
theorem subscriptionReadiness_runs_interrupted :
    ∃ r₀, subscriptionReadiness "fork" ["pool"] = .ok r₀ ∧
      (r₀.after [.markValidated ["pool"] 0 "fork"]).state = .ready ∧
      ∀ g, (r₀.after [.markValidated ["pool"] 0 "fork"]).guard = .ok g →
        g.check (r₀.after ([.markValidated ["pool"] 0 "fork"] ++ [.interrupt "gap"])) ≠ .ok () := by
  refine ⟨⟨{"pool"}, "fork", 0, .initializing, ∅, none⟩, by decide +kernel, by decide +kernel,
    fun g hg hpass => ?_⟩
  have hgate : subscriptionReadiness "fork" ["pool"] =
      .ok ⟨{"pool"}, "fork", 0, .initializing, ∅, none⟩ := by decide +kernel
  have hruns := subscriptionReadiness_runs hgate [.markValidated ["pool"] 0 "fork"]
  exact (hruns.2.2.2.1 g hg _).1 hpass [] (.interrupt "gap") [] rfl trivial

end SolTrade.Subscription
