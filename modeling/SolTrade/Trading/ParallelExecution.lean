import Mathlib.Data.List.Perm.Subperm
import SolTrade.Trading.Execution

/-!
Executions in parallel.

Every lane has the past of its own client, and what the execution has collected has not succeeded:
so it can give up only when all lanes have ended and none of them has succeeded.
-/

namespace SolTrade.Trading.Execution

/-- The lanes that the execution has been through: none of them has succeeded. -/
structure Collected (x : Execution) (seen : List ℕ) : Prop where
  count : seen.length = x.collected
  nodup : (seen ++ x.done).Nodup
  settled : ∀ i, i ∈ seen ++ x.done ↔ ∃ lane : Lane, x.lanes[i]? = some lane ∧ lane.Settled
  uncancelled : ∀ i ∈ seen, x.lanes[i]? ≠ some .cancelled
  unsuccessful : ∀ i ∈ seen, ∀ r, x.lanes[i]? = some (Lane.finished r) → r.success = false
  silent : x.acknowledged = none →
    ∀ i ∈ seen, ∀ r, x.lanes[i]? = some (Lane.finished r) → r.signature = ""
  acknowledged : ∀ r ∈ x.acknowledged, r.signature ≠ "" ∧
    ∃ i : ℕ, x.lanes[i]? = some (Lane.finished r)

/-- The lanes of a parallel execution, with what its clients have seen. -/
structure Lanes (x : Execution) (T : List Trace) : Prop where
  mode : x.options.parallelSubmit = true
  stage : x.stage = .limited ∨ x.stage = .parallel ∨ ∃ reason, x.stage = .cancelling reason
  limited : x.stage = .limited → T = [] ∧ x.futures = [] ∧ x.done = [] ∧ x.collected = 0 ∧
    x.acknowledged = none
  past : ∀ i (lane : Lane), x.lanes[i]? = some lane →
    lane.Past x.options i x.clients[i]? (T.filter fun t => t.client = i)
  bounded : ∀ t ∈ T, t.client < x.lanes.length
  collected : x.stage = .parallel → x.outcome = none → ∃ seen, x.Collected seen

section

variable {x y : Execution} {T new : List Trace} {record : Option Record} {lane lane' : Lane}
  {i : ℕ} {r : TradeResult} {future : Submission} {seen : List ℕ}

theorem lanes_setLane : (x.setLane i future lane).lanes = x.lanes.set i lane := by
  rw [lanes, setLane, List.map_set]
  rfl

theorem lanes_getElem? (h : x.futures[i]? = some future) : x.lanes[i]? = some future.lane := by
  rw [lanes, List.getElem?_map, h]
  rfl

/-- Distinct indices below a bound that are as many as the bound are all of them. -/
theorem mem_of_length_eq {indices : List ℕ} {n : ℕ} (hnodup : indices.Nodup)
    (hbound : ∀ i ∈ indices, i < n) (hlength : indices.length = n) {i : ℕ} (hi : i < n) :
    i ∈ indices := by
  have hsub : indices ⊆ List.range n := fun j hj => List.mem_range.2 (hbound j hj)
  have hperm := (List.subperm_of_subset hnodup hsub).perm_of_length_le (by simp [hlength])
  exact hperm.mem_iff.2 (List.mem_range.2 hi)

/-- A lane that moves on has not been collected. -/
theorem Collected.setLane (h : x.Collected seen) (hfuture : x.futures[i]? = some future)
    (hunsettled : ¬ future.lane.Settled) : (x.setLane i future lane).Collected seen := by
  have hold := lanes_getElem? hfuture
  have hi : i ∉ seen ++ x.done := by
    rw [h.settled]
    rintro ⟨lane, hlane, hsettled⟩
    obtain rfl := Option.some.inj (hold.symm.trans hlane)
    exact hunsettled hsettled
  have hlt : i < x.lanes.length := (List.getElem?_eq_some_iff.1 hold).1
  have hseen : ∀ j ∈ seen, (x.lanes.set i lane)[j]? = x.lanes[j]? := by
    intro j hj
    refine List.getElem?_set_ne ?_
    rintro rfl
    exact hi (List.mem_append_left _ hj)
  have hdone : (x.setLane i future lane).done = if lane.Settled then x.done ++ [i] else x.done :=
    rfl
  constructor
  · exact h.count
  · rw [hdone]
    split
    · rw [← List.append_assoc]
      exact List.nodup_append'.2 ⟨h.nodup, List.nodup_singleton i, by simpa using hi⟩
    · exact h.nodup
  · intro j
    rw [hdone, lanes_setLane]
    by_cases hj : j = i
    · subst hj
      rw [List.getElem?_set_self hlt]
      split <;> simp_all
    · have hmem : j ∈ seen ++ (if lane.Settled then x.done ++ [i] else x.done) ↔
          j ∈ seen ++ x.done := by
        split <;> simp [hj]
      rw [hmem, h.settled, List.getElem?_set_ne (Ne.symm hj)]
  · intro j hj
    rw [lanes_setLane, hseen j hj]
    exact h.uncancelled j hj
  · intro j hj r hr
    rw [lanes_setLane, hseen j hj] at hr
    exact h.unsuccessful j hj r hr
  · intro hnone j hj r hr
    rw [lanes_setLane, hseen j hj] at hr
    exact h.silent hnone j hj r hr
  · intro r hr
    obtain ⟨hsignature, j, hj⟩ := h.acknowledged r hr
    refine ⟨hsignature, j, ?_⟩
    rw [lanes_setLane, List.getElem?_set_ne, hj]
    rintro rfl
    rw [hold] at hj
    exact hunsettled (Option.some.inj hj ▸ trivial)

/-- What the clients have seen after a lane has moved on. -/
theorem Lanes.past_set {options : ExecuteOptions} {clients : List SwqosType} {lanes : List Lane}
    (h : ∀ j (lane : Lane), lanes[j]? = some lane →
      lane.Past options j clients[j]? (T.filter fun t => t.client = j))
    (hnew : ∀ t ∈ new, t.client = i)
    (hlane : lane.Past options i clients[i]? ((T.filter fun t => t.client = i) ++ new)) :
    ∀ j (lane' : Lane), (lanes.set i lane)[j]? = some lane' →
      lane'.Past options j clients[j]? ((T ++ new).filter fun t => t.client = j) := by
  intro j lane' hj
  rw [List.filter_append]
  by_cases hji : j = i
  · subst hji
    obtain ⟨hlt, heq⟩ := List.getElem?_eq_some_iff.1 hj
    rw [List.getElem_set_self] at heq
    rw [← heq, List.filter_eq_self.2 fun t ht => decide_eq_true (hnew t ht)]
    exact hlane
  · rw [List.getElem?_set_ne (Ne.symm hji)] at hj
    have hother : (new.filter fun t => t.client = j) = [] := by
      rw [List.filter_eq_nil_iff]
      intro t ht
      rw [decide_eq_true_eq, hnew t ht]
      exact Ne.symm hji
    rw [hother, List.append_nil]
    exact h j lane' hj

theorem Lanes.finished_success (h : x.Lanes T) (hlane : x.lanes[i]? = some (Lane.finished r))
    (hsuccess : r.success = true) (hsigned : Signed T) : Answer x.options x.clients T r := by
  have hpast := h.past i _ hlane
  obtain ⟨hack, hconfirmed⟩ := hpast.success hsuccess
  have hmem : .acknowledged i r.signature ∈ T := (List.mem_filter.1 hack).1
  refine ⟨fun _ => ⟨i, hmem, fun hwait => (List.mem_filter.1 (hconfirmed hwait)).1⟩, ?_,
    fun _ => ⟨i, hmem, hpast.1⟩, fun hempty => absurd hempty (hsigned i _ hmem)⟩
  rw [hsuccess]
  rintro ⟨⟩

/-- Once all lanes have been collected, the result is that of a client that has acknowledged the
transaction, if there is one. -/
theorem Lanes.collected_all (h : x.Lanes T) (hcollected : x.Collected seen)
    (hkept : x.KeptFailed) (hall : x.collected = x.futures.length) (hsigned : Signed T) :
    Answer x.options x.clients T (x.acknowledged.getD
        { signature := "", success := false, error := some x.lastError }) ∧
      ∀ lane ∈ x.lanes, lane.Settled := by
  have hseen : ∀ j < x.lanes.length, j ∈ seen := fun j hj => by
    refine mem_of_length_eq (List.nodup_append.1 hcollected.nodup).1 (fun k hk => ?_) ?_ hj
    · obtain ⟨lane, hlane, -⟩ := (hcollected.settled k).1 (List.mem_append_left _ hk)
      exact (List.getElem?_eq_some_iff.1 hlane).1
    · rw [hcollected.count, hall, lanes, List.length_map]
  refine ⟨?_, fun lane hlane => ?_⟩
  · cases hack : x.acknowledged with
    | some r =>
        obtain ⟨hne, i, hlane⟩ := hcollected.acknowledged r hack
        have hfailed := hkept r hack
        obtain ⟨herror, hmem, -⟩ := (h.past i _ hlane).failure hfailed
        rw [Option.getD_some]
        refine ⟨?_, fun _ => herror, fun _ => ?_, fun hempty => absurd hempty hne⟩
        · rw [hfailed]
          rintro ⟨⟩
        · exact ⟨i, (List.mem_filter.1 (hmem hne)).1, (h.past i _ hlane).1⟩
    | none =>
        rw [Option.getD_none]
        refine ⟨?_, fun _ => rfl, fun hne => absurd rfl hne, fun _ j signature hmem => ?_⟩
        · rintro ⟨⟩
        -- an acknowledgement would be that of a lane whose result has no signature
        have hj : j < x.lanes.length := h.bounded _ hmem
        have hlane : x.lanes[j]? = some x.lanes[j] := List.getElem?_eq_getElem hj
        have hpast := h.past j _ hlane
        have hfilter : .acknowledged j signature ∈ T.filter fun t => t.client = j :=
          List.mem_filter.2 ⟨hmem, decide_eq_true rfl⟩
        have hin := hseen j hj
        obtain ⟨lane, hlane', hsettled⟩ :=
          (hcollected.settled j).1 (List.mem_append_left _ hin)
        obtain rfl := Option.some.inj (hlane.symm.trans hlane')
        cases hcase : x.lanes[j] with
        | finished r =>
            rw [hcase] at hlane hpast
            obtain ⟨-, -, hsame⟩ := hpast.failure (hcollected.unsuccessful j hin r hlane)
            refine hsigned j signature hmem ?_
            rw [hsame signature hfilter]
            exact hcollected.silent hack j hin r hlane
        | raised error =>
            rw [hcase] at hpast
            rw [show T.filter _ = [] from hpast] at hfilter
            cases hfilter
        | cancelled =>
            rw [hcase] at hlane
            exact hcollected.uncancelled j hin hlane
        | ready | sending | confirming =>
            rw [hcase] at hsettled
            exact hsettled
  · obtain ⟨j, hj⟩ := List.mem_iff_getElem?.1 hlane
    obtain ⟨lane', hlane', hsettled⟩ := (hcollected.settled j).1
      (List.mem_append_left _ (hseen j (List.getElem?_eq_some_iff.1 hj).1))
    obtain rfl := Option.some.inj (hj.symm.trans hlane')
    exact hsettled

/-- A lane that has ended without success is collected. -/
theorem Collected.next {done : List ℕ} {acknowledged : Option TradeResult} {lastError : String}
    (h : x.Collected seen) (hdone : x.done = i :: done) (hlane : x.lanes[i]? = some lane)
    (huncancelled : lane ≠ .cancelled)
    (hunsuccessful : ∀ r, lane = .finished r → r.success = false)
    (hsilent : acknowledged = none → x.acknowledged = none ∧
      ∀ r, lane = .finished r → r.signature = "")
    (hack : ∀ r ∈ acknowledged, r ∈ x.acknowledged ∨ r.signature ≠ "" ∧ lane = .finished r) :
    Collected { x with done, collected := x.collected + 1, acknowledged, lastError }
      (seen ++ [i]) := by
  have hmerge : seen ++ [i] ++ done = seen ++ x.done := by
    rw [hdone, List.append_assoc, List.singleton_append]
  have hlast : ∀ {P : ℕ → Prop}, (∀ j ∈ seen, P j) → P i → ∀ j ∈ seen ++ [i], P j := by
    intro P hseen hi
    rw [List.forall_mem_append, List.forall_mem_singleton]
    exact ⟨hseen, hi⟩
  have hsame : ∀ {lane' : Lane}, x.lanes[i]? = some lane' → lane = lane' := fun h' =>
    Option.some.inj (hlane.symm.trans h')
  constructor
  · rw [List.length_append, h.count]
    rfl
  · rw [hmerge]
    exact h.nodup
  · intro j
    rw [hmerge]
    exact h.settled j
  · exact hlast h.uncancelled fun hcancelled => huncancelled (hsame hcancelled)
  · exact hlast h.unsuccessful fun r hr => hunsuccessful r (hsame hr)
  · intro hnone
    obtain ⟨hold, hnew⟩ := hsilent hnone
    exact hlast (h.silent hold) fun r hr => hnew r (hsame hr)
  · intro r hr
    rcases hack r hr with hold | ⟨hne, rfl⟩
    · exact h.acknowledged r hold
    · exact ⟨hne, i, hlane⟩

/-- What collecting a lane leads to: the execution goes on, or it returns. -/
structure Collects (x y : Execution) (T : List Trace) : Prop where
  stage : y.stage = .parallel ∨ y.stage = .cancelling .closed
  collected : y.stage = .parallel → y.outcome = none → ∃ seen, y.Collected seen
  answer : ∀ r, y.outcome = some (.returned r) → Signed T →
    Answer x.options x.clients T r ∧ (r.success = false → ∀ lane ∈ x.lanes, lane.Settled)

theorem Lanes.after_collect (h : x.Lanes T) (hstage : x.stage = .parallel)
    (houtcome : x.outcome = none) (hcollected : x.Collected seen) (hkept : x.KeptFailed) :
    x.Collects x.afterCollect.1 T := by
  unfold afterCollect
  split
  · rename_i hall
    refine ⟨.inl hstage, fun _ hnone => (by cases hnone), fun r hr hsigned => ?_⟩
    cases hr
    obtain ⟨hanswer, hsettled⟩ := h.collected_all hcollected hkept hall hsigned
    exact ⟨hanswer, fun _ => hsettled⟩
  · refine ⟨.inl hstage, fun _ _ => ⟨seen, hcollected⟩, fun r hr => ?_⟩
    rw [houtcome] at hr
    cases hr

theorem Lanes.collect {done : List ℕ} (h : x.Lanes T) (hkept : x.KeptFailed)
    (hstage : x.stage = .parallel) (houtcome : x.outcome = none) (hdone : x.done = i :: done)
    (hfuture : x.futures[i]? = some future) :
    x.Collects ({ x with done, collected := x.collected + 1 }.collectNext future.lane).1 T := by
  obtain ⟨seen, hcollected⟩ := h.collected hstage houtcome
  have hlane := lanes_getElem? hfuture
  have hgoes : ∀ {acknowledged : Option TradeResult} {lastError : String},
      Collected { x with done, collected := x.collected + 1, acknowledged, lastError }
        (seen ++ [i]) → (∀ r ∈ acknowledged, r.success = false) →
      x.Collects (afterCollect
        { x with done, collected := x.collected + 1, acknowledged, lastError }).1 T := by
    intro acknowledged lastError hnext hkept'
    have hlanes : Lanes { x with done, collected := x.collected + 1, acknowledged, lastError } T :=
      ⟨h.mode, h.stage, fun hlimited => absurd (hlimited.symm.trans hstage) Stage.noConfusion,
        h.past, h.bounded, fun _ _ => ⟨_, hnext⟩⟩
    obtain ⟨hstage', hcollected', hanswer⟩ :=
      hlanes.after_collect hstage houtcome hnext hkept'
    exact ⟨hstage', hcollected', hanswer⟩
  cases hcase : future.lane with
  | finished r =>
      rw [hcase] at hlane
      rw [collectNext]
      split
      · rename_i hsuccess
        refine ⟨.inl hstage, fun _ hnone => (by cases hnone), fun r' hr' hsigned => ?_⟩
        cases hr'
        refine ⟨h.finished_success hlane hsuccess hsigned, fun hfailed => ?_⟩
        rw [hsuccess] at hfailed
        cases hfailed
      · rename_i hfailure
        have hfailed : r.success = false := Bool.eq_false_iff.2 hfailure
        refine hgoes (hcollected.next hdone hlane (by simp) ?_ ?_ ?_) ?_
        · rintro _ ⟨⟩
          exact hfailed
        · intro hnone
          split at hnone
          · cases hnone
          · rename_i hempty
            refine ⟨hnone, ?_⟩
            rintro _ ⟨⟩
            exact not_not.1 hempty
        · intro r' hr'
          split at hr'
          · rename_i hne
            obtain rfl := Option.some.inj hr'
            exact .inr ⟨hne, rfl⟩
          · exact .inl hr'
        · intro r' hr'
          split at hr'
          · obtain rfl := Option.some.inj hr'
            exact hfailed
          · exact hkept r' hr'
  | raised error =>
      rw [hcase] at hlane
      refine hgoes (hcollected.next hdone hlane (by simp) (by simp) (fun hnone => ⟨hnone, by simp⟩)
        fun r hr => .inl hr) hkept
  | ready | sending | confirming | cancelled =>
      refine ⟨.inr rfl, fun hparallel => (by cases hparallel), fun r hr => ?_⟩
      rw [show _ = x.outcome from rfl, houtcome] at hr
      cases hr

/-- A lane moves on. -/
theorem Lanes.setLane {receipts : List TradeResult} (h : x.Lanes T)
    (hfuture : x.futures[i]? = some future) (hunsettled : ¬ future.lane.Settled)
    (hnew : ∀ t ∈ new, t.client = i)
    (hlane : lane.Past x.options i x.clients[i]? ((T.filter fun t => t.client = i) ++ new)) :
    Lanes { x.setLane i future lane with receipts } (T ++ new) := by
  have hold := lanes_getElem? hfuture
  have hlt : i < x.lanes.length := (List.getElem?_eq_some_iff.1 hold).1
  have hlanes : lanes { x.setLane i future lane with receipts } = x.lanes.set i lane :=
    lanes_setLane
  refine ⟨h.mode, h.stage, fun hlimited => ?_, ?_, ?_, fun hstage houtcome => ?_⟩
  · obtain ⟨-, hempty, -⟩ := h.limited hlimited
    rw [hempty] at hfuture
    cases hfuture
  · rw [hlanes]
    exact past_set h.past hnew hlane
  · rw [hlanes, List.length_set, List.forall_mem_append]
    refine ⟨h.bounded, fun t ht => ?_⟩
    rw [hnew t ht]
    exact hlt
  · obtain ⟨seen, hcollected⟩ := h.collected hstage houtcome
    have hset : (x.setLane i future lane).Collected seen := hcollected.setLane hfuture hunsettled
    obtain ⟨hcount, hnodup, hsettled, huncancelled, hunsuccessful, hsilent, hack⟩ := hset
    exact ⟨seen, hcount, hnodup, hsettled, huncancelled, hunsuccessful, hsilent, hack⟩

/-- The lanes are interrupted. -/
theorem Lanes.interrupt {reason : Interruption} (h : x.Lanes T) :
    Lanes ({ x with stage := .cancelling reason }.askAll) T := by
  have hlanes : ({ x with stage := .cancelling reason }.askAll).lanes = x.lanes := lanes_askAll
  refine ⟨h.mode, .inr (.inr ⟨reason, rfl⟩), fun hlimited => ?_, ?_, ?_, fun hparallel => ?_⟩
  · cases hlimited
  · rw [hlanes]
    exact h.past
  · rw [hlanes]
    exact h.bounded
  · cases hparallel

/-- A step of a parallel execution. -/
theorem Lanes.step (h : x.Lanes T) (hkept : x.KeptFailed)
    (hreceipts : x.receipts = T.filterMap (Trace.receipt x.clients))
    (hmoves : x.Moves new y record) :
    y.Lanes (T ++ new) ∧ (x.outcome = none → y.Returns (T ++ new)) := by
  cases hmoves with
  | stays =>
      rw [List.append_nil]
      exact ⟨h, .of_none⟩
  | starts houtcome hstage =>
      rw [List.append_nil]
      obtain ⟨rfl, -, hdone, hcollected, hack⟩ := h.limited hstage
      have hready : ∀ (i : ℕ) (lane : Lane),
          (lanes { x with stage := .parallel, futures := x.clients.map fun _ => {} })[i]? =
            some lane → lane = .ready := by
        intro i lane hlane
        obtain ⟨future, hfuture, rfl⟩ := List.mem_map.1 (List.mem_of_getElem? hlane)
        obtain ⟨_, -, rfl⟩ := List.mem_map.1 hfuture
        rfl
      refine ⟨⟨h.mode, .inr (.inl rfl), fun hlimited => ?_, fun i lane hlane => ?_, ?_,
        fun _ _ => ⟨[], ?_⟩⟩, fun _ => .of_none houtcome⟩
      · cases hlimited
      · rw [hready i lane hlane]
        rfl
      · exact fun t ht => absurd ht List.not_mem_nil
      · constructor
        · exact hcollected.symm
        · rw [hdone]
          exact List.nodup_nil
        · intro i
          rw [hdone]
          constructor
          · exact fun hi => absurd hi List.not_mem_nil
          · rintro ⟨lane, hlane, hsettled⟩
            rw [hready i lane hlane] at hsettled
            exact hsettled.elim
        · exact fun i hi => absurd hi List.not_mem_nil
        · exact fun i hi => absurd hi List.not_mem_nil
        · exact fun _ i hi => absurd hi List.not_mem_nil
        · rw [hack]
          exact fun r hr => absurd hr (Option.not_mem_none r)
  | begins _ _ hmode | refuses _ _ hmode =>
      rw [h.mode] at hmode
      cases hmode
  | lane i future swqosType event lane hfuture hclient hstep =>
      have hpast := h.past i _ (lanes_getElem? hfuture)
      rw [hclient] at hpast
      refine ⟨h.setLane hfuture (Lane.not_settled_of_step hstep) (fun t => Lane.traced_client) ?_,
        fun hnone => .of_none hnone⟩
      rw [hclient]
      exact hpast.step hstep
  | laneCancelled i future hfuture hunsettled =>
      refine ⟨h.setLane hfuture hunsettled (fun t ht => absurd ht List.not_mem_nil) ?_,
        fun hnone => .of_none hnone⟩
      rw [List.append_nil]
      exact (h.past i _ (lanes_getElem? hfuture)).cancel hunsettled
  | collects i done future houtcome hstage hdone hfuture =>
      rw [List.append_nil]
      obtain ⟨hstage', hcollected, hanswer⟩ := h.collect hkept hstage houtcome hdone hfuture
      obtain ⟨hoptions, hclients, -, hlanes⟩ := @collectNext_frame
        { x with done, collected := x.collected + 1 } future.lane
      have hlanes' : _ = x.lanes := hlanes
      refine ⟨⟨?_, .inr (hstage'.imp_right fun h => ⟨_, h⟩), fun hlimited => ?_, ?_, ?_,
        hcollected⟩, fun _ r hr hsigned => ?_⟩
      · rw [hoptions]
        exact h.mode
      · rw [hlimited] at hstage'
        rcases hstage' with hcase | hcase <;> cases hcase
      · rw [hlanes', hoptions, hclients]
        exact h.past
      · rw [hlanes']
        exact h.bounded
      · rw [hlanes', hoptions, hclients]
        exact hanswer r hr hsigned
  | gathers houtcome hstage hsettled =>
      rw [List.append_nil]
      refine ⟨⟨h.mode, h.stage, h.limited, h.past, h.bounded, fun hparallel => ?_⟩,
        fun _ r hr hsigned => ?_⟩
      · exact absurd (hparallel.symm.trans hstage) Stage.noConfusion
      · cases hr
        refine ⟨timedOut_answer hreceipts hsigned, fun _ lane hlane => ?_⟩
        obtain ⟨future, hfuture, rfl⟩ := List.mem_map.1 hlane
        exact hsettled future hfuture
  | attempts _ _ _ _ _ _ _ hstage | resumes _ _ hstage =>
      rcases h.stage with hcase | hcase | ⟨reason, hcase⟩ <;> rw [hcase] at hstage <;>
        cases hstage
  | interrupts reason houtcome =>
      rw [List.append_nil]
      exact ⟨h.interrupt, fun _ => .of_none houtcome⟩
  | expires houtcome hparallel hcancelling =>
      rw [List.append_nil]
      refine ⟨⟨h.mode, h.stage, h.limited, h.past, h.bounded,
        fun hstage => absurd hstage hparallel⟩, fun _ r hr hsigned => ?_⟩
      cases hr
      refine ⟨timedOut_answer hreceipts hsigned, fun _ lane hlane => ?_⟩
      have hlimited := h.stage.resolve_right
        (not_or.2 ⟨hparallel, not_exists.2 hcancelling⟩)
      obtain ⟨-, hempty, -⟩ := h.limited hlimited
      have hnone : (x.finish x.timedOut .failure).1.lanes = [] := congrArg (List.map _) hempty
      rw [hnone] at hlane
      cases hlane
  | abandons houtcome =>
      rw [List.append_nil]
      refine ⟨⟨h.mode, h.stage, h.limited, h.past, h.bounded, fun _ hnone => ?_⟩,
        fun _ r hr => ?_⟩
      · cases hnone
      · cases hr
  | closes =>
      rw [List.append_nil]
      refine ⟨⟨h.mode, h.stage, fun hlimited => ?_, ?_, ?_, fun hstage houtcome => ?_⟩,
        fun hnone => .of_none hnone⟩
      · obtain ⟨hT, hfutures, hrest⟩ := h.limited hlimited
        refine ⟨hT, ?_, hrest⟩
        rw [askAll, hfutures]
        rfl
      · rw [lanes_askAll]
        exact h.past
      · rw [lanes_askAll]
        exact h.bounded
      · obtain ⟨seen, hcount, hnodup, hsettled, huncancelled, hunsuccessful, hsilent, hack⟩ :=
          h.collected hstage houtcome
        refine ⟨seen, hcount, hnodup, ?_, ?_, ?_, ?_, ?_⟩ <;> rw [lanes_askAll] <;> assumption

end

end SolTrade.Trading.Execution
