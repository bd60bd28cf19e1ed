import SolTrade.Trading.Execution

/-!
Executions in sequence.

The attempts before the current one were sent, if at all, and no client has acknowledged them; so
the transaction goes out in rounds over the clients until one of them acknowledges it.
-/

namespace SolTrade.Trading.Execution

/-- The clients to which the transaction is sent before the attempt, if every one is tried. -/
def attemptsBefore (clients retry index : ℕ) : List ℕ :=
  (List.replicate retry (List.range clients)).flatten ++ List.range index

/-- The attempts before have been sent, at most, in their order. -/
def Earlier (clients retry index : ℕ) (T : List Trace) : Prop :=
  (∀ t ∈ T, ∃ client, t = .sent client) ∧
    (T.map Trace.client).Sublist (attemptsBefore clients retry index)

/-- The attempts of a sequential execution, with what its clients have seen. -/
structure Attempts (x : Execution) (T : List Trace) : Prop where
  mode : x.options.parallelSubmit = false
  futures : x.futures = []
  limited : x.outcome = none → x.stage = .limited → T = []
  current : ∀ retry index lane, x.outcome = none → x.stage = .attempt retry index lane →
    (retry : ℤ) < x.options.maxRetries ∧ ¬ lane.Settled ∧
      ∃ earlier now, T = earlier ++ now ∧ Earlier x.clients.length retry index earlier ∧
        lane.Past x.options index x.clients[index]? now
  pausing : ∀ retry, x.outcome = none → x.stage = .pausing retry →
    (retry : ℤ) + 1 < x.options.maxRetries ∧ Earlier x.clients.length (retry + 1) 0 T
  stage : x.stage ≠ .parallel ∧ ∀ reason, x.stage ≠ .cancelling reason

/-- The transaction is sent in rounds over the clients, and to none any more once one has
acknowledged it. -/
def InRounds (options : ExecuteOptions) (clients : List SwqosType) (T : List Trace) : Prop :=
  ∃ earlier now, T = earlier ++ now ∧ (∀ t ∈ earlier, ∃ client, t = .sent client) ∧
    (∃ client signature, now <+:
      [.sent client, .acknowledged client signature, .confirmed client signature]) ∧
    ((earlier ++ now.take 1).map Trace.client).Sublist
      (List.replicate options.maxRetries.toNat (List.range clients.length)).flatten

section

variable {x y : Execution} {T new earlier now : List Trace} {record : Option Record}
  {lane lane' : Lane} {retry index clients : ℕ} {r : TradeResult}

theorem attemptsBefore_succ :
    attemptsBefore clients retry (index + 1) = attemptsBefore clients retry index ++ [index] := by
  rw [attemptsBefore, List.range_succ, ← List.append_assoc]
  rfl

theorem attemptsBefore_round :
    attemptsBefore clients retry clients = attemptsBefore clients (retry + 1) 0 := by
  rw [attemptsBefore, attemptsBefore, List.replicate_succ', List.flatten_append,
    List.flatten_singleton, List.range_zero, List.append_nil]

theorem attemptsBefore_starts (hindex : index ≤ clients) {n : ℕ} (hretry : retry < n) :
    attemptsBefore clients retry index <+: (List.replicate n (List.range clients)).flatten := by
  have hrange : List.range index <+: List.range clients := by
    rw [List.prefix_iff_eq_take, List.length_range, List.take_range, min_eq_left hindex]
  obtain ⟨k, rfl⟩ := Nat.exists_eq_add_of_lt hretry
  have hsplit : (List.replicate (retry + k + 1) (List.range clients)).flatten =
      (List.replicate retry (List.range clients)).flatten ++
        (List.range clients ++ (List.replicate k (List.range clients)).flatten) := by
    rw [Nat.add_assoc, ← List.replicate_append_replicate, List.flatten_append, Nat.add_comm k 1,
      ← List.replicate_append_replicate, List.flatten_append, List.replicate_one,
      List.flatten_singleton]
  rw [hsplit, attemptsBefore, List.prefix_append_right_inj]
  exact hrange.trans (List.prefix_append _ _)

/-- An attempt without an acknowledgement is one of the earlier ones from then on. -/
theorem Earlier.next (h : Earlier clients retry index earlier)
    (hnow : now = [] ∨ now = [.sent index]) :
    Earlier clients retry (index + 1) (earlier ++ now) := by
  rw [Earlier, attemptsBefore_succ]
  rcases hnow with rfl | rfl
  · rw [List.append_nil]
    exact ⟨h.1, h.2.trans (List.sublist_append_left _ _)⟩
  · rw [List.forall_mem_append, List.map_append]
    refine ⟨⟨h.1, ?_⟩, h.2.append (List.Sublist.refl _)⟩
    rintro t ht
    exact ⟨index, List.mem_singleton.1 ht⟩

theorem InRounds.of_past {options : ExecuteOptions} {clients : List SwqosType}
    (h : Earlier clients.length retry index earlier) (hindex : index < clients.length)
    (hretry : (retry : ℤ) < options.maxRetries)
    (hpast : lane.Past options index clients[index]? now) :
    InRounds options clients (earlier ++ now) := by
  obtain ⟨signature, hprefix⟩ := hpast.ordered
  refine ⟨earlier, now, rfl, h.1, ⟨index, signature, hprefix⟩, ?_⟩
  have hlt : retry < options.maxRetries.toNat := by omega
  refine List.Sublist.trans ?_ (attemptsBefore_starts (Nat.succ_le_of_lt hindex) hlt).sublist
  rw [attemptsBefore_succ, List.map_append]
  obtain ⟨rest, hnow⟩ := hprefix
  refine h.2.append ?_
  cases now with
  | nil => exact List.nil_sublist _
  | cons t now =>
      obtain ⟨rfl, -⟩ := List.cons_eq_cons.1 hnow
      exact List.Sublist.refl [index]

theorem answer_of_sent {options : ExecuteOptions} {clients : List SwqosType} {error : String}
    {retries : ℤ} (hsent : ∀ t ∈ T, ∃ client, t = .sent client) :
    Answer options clients T
      { signature := "", success := false, error := some error, retries } := by
  refine ⟨?_, fun _ => rfl, fun hne => absurd rfl hne, fun _ i signature hmem => ?_⟩
  · rintro ⟨⟩
  · obtain ⟨client, hclient⟩ := hsent _ hmem
    cases hclient

/-- An execution that has no parallel lanes. -/
structure Alone (x : Execution) : Prop where
  mode : x.options.parallelSubmit = false
  futures : x.futures = []
  outcome : x.outcome = none
  stage : x.stage ≠ .parallel ∧ ∀ reason, x.stage ≠ .cancelling reason

theorem Alone.lanes (h : x.Alone) : x.lanes = [] := congrArg (List.map _) h.futures

/-- An execution that returns, with what its clients have seen. -/
theorem Alone.finish (h : x.Alone) (kind : Record)
    (hanswer : Signed T → Answer x.options x.clients T r) :
    (x.finish r kind).1.Attempts T ∧ (x.finish r kind).1.Returns T := by
  refine ⟨⟨h.mode, h.futures, fun hnone => ?_, fun _ _ _ hnone => ?_, fun _ hnone => ?_, h.stage⟩,
    fun r' hr' hsigned => ?_⟩
  · cases hnone
  · cases hnone
  · cases hnone
  · cases hr'
    refine ⟨hanswer hsigned, fun _ lane hlane => ?_⟩
    rw [show (x.finish r kind).1.lanes = [] from h.lanes] at hlane
    cases hlane

/-- After an attempt without an acknowledgement. -/
theorem Alone.nextAttempt (h : x.Alone) (hearlier : Earlier x.clients.length retry (index + 1) T)
    (hindex : index < x.clients.length) (hretry : (retry : ℤ) < x.options.maxRetries) :
    (x.nextAttempt retry index).1.Attempts T ∧ (x.nextAttempt retry index).1.Returns T := by
  unfold Execution.nextAttempt
  split
  · refine ⟨⟨h.mode, h.futures, fun _ hlimited => ?_, fun retry' index' lane _ hstage => ?_,
      fun _ _ hstage => ?_, ?_⟩, .of_none h.outcome⟩
    · cases hlimited
    · cases hstage
      refine ⟨hretry, id, T, [], (List.append_nil T).symm, hearlier, ?_⟩
      rfl
    · cases hstage
    · simp
  · rename_i hlast
    have hround : Earlier x.clients.length (retry + 1) 0 T := by
      rw [show index + 1 = x.clients.length by omega, Earlier, attemptsBefore_round] at hearlier
      exact hearlier
    split
    · rename_i hmore
      refine ⟨⟨h.mode, h.futures, fun _ hlimited => ?_, fun _ _ _ _ hstage => ?_,
        fun retry' _ hstage => ?_, ?_⟩, .of_none h.outcome⟩
      · cases hlimited
      · cases hstage
      · cases hstage
        exact ⟨hmore, hround⟩
      · simp
    · exact h.finish .failure fun _ => answer_of_sent hearlier.1

/-- After an attempt has moved on. -/
theorem Alone.afterAttempt (h : x.Alone) (hearlier : Earlier x.clients.length retry index earlier)
    (hindex : index < x.clients.length) (hretry : (retry : ℤ) < x.options.maxRetries)
    (hpast : lane.Past x.options index x.clients[index]? now) (huncancelled : lane ≠ .cancelled)
    (hsigned : Signed (earlier ++ now)) :
    (x.afterAttempt retry index lane).1.Attempts (earlier ++ now) ∧
      (x.afterAttempt retry index lane).1.Returns (earlier ++ now) := by
  have hgoes : ¬ lane.Settled →
      Attempts { x with stage := .attempt retry index lane } (earlier ++ now) ∧
        Returns { x with stage := .attempt retry index lane } (earlier ++ now) := by
    intro hunsettled
    refine ⟨⟨h.mode, h.futures, fun _ hlimited => ?_, fun retry' index' lane' _ hstage => ?_,
      fun _ _ hstage => ?_, ?_⟩, .of_none h.outcome⟩
    · cases hlimited
    · cases hstage
      exact ⟨hretry, hunsettled, earlier, now, rfl, hearlier, hpast⟩
    · cases hstage
    · simp
  cases lane with
  | finished r =>
      rw [Execution.afterAttempt]
      split
      · rename_i hfailure
        have hfailed : r.success = false := Bool.eq_false_iff.2 hfailure.2
        obtain ⟨herror, hack, -⟩ := hpast.failure hfailed
        refine h.finish .failure fun _ => ⟨?_, fun _ => herror, fun hne => ?_, fun hempty => ?_⟩
        · rw [hfailed]
          rintro ⟨⟩
        · exact ⟨index, List.mem_append_right _ (hack hne), hpast.1⟩
        · exact absurd hempty hfailure.1
      · split
        · rename_i hsuccess
          obtain ⟨hack, hconfirmed⟩ := hpast.success hsuccess
          have hmem : .acknowledged index r.signature ∈ earlier ++ now :=
            List.mem_append_right _ hack
          refine h.finish .success fun _ => ⟨fun _ => ⟨index, hmem, fun hwait => ?_⟩, ?_,
            fun _ => ⟨index, hmem, hpast.1⟩, fun hempty => absurd hempty (hsigned _ _ hmem)⟩
          · exact List.mem_append_right _ (hconfirmed hwait)
          · rw [hsuccess]
            rintro ⟨⟩
        · -- without a signature the transaction was sent at most
          rename_i hnone hfailure
          have hfailed : r.success = false := Bool.eq_false_iff.2 hfailure
          have hempty : r.signature = "" := by
            by_contra hne
            exact hnone ⟨hne, hfailure⟩
          obtain ⟨-, hpast⟩ := hpast
          rw [if_neg hfailure] at hpast
          refine h.nextAttempt (hearlier.next ?_) hindex hretry
          rcases hpast.2 with ⟨-, hnow⟩ | rfl
          · exact hnow
          · exact absurd hempty (hsigned index _ (List.mem_append_right _ (by simp)))
  | raised error =>
      obtain rfl : now = [] := hpast
      exact h.nextAttempt (hearlier.next (.inl rfl)) hindex hretry
  | cancelled => exact absurd rfl huncancelled
  | ready | sending | confirming => exact hgoes id

/-- A step of a sequential execution. -/
theorem Attempts.step (h : x.Attempts T)
    (hreceipts : x.receipts = T.filterMap (Trace.receipt x.clients)) (hsigned : Signed (T ++ new))
    (hmoves : x.Moves new y record) :
    y.Attempts (T ++ new) ∧ (x.outcome = none → y.Returns (T ++ new)) := by
  have halone : x.outcome = none → x.Alone := fun hnone => ⟨h.mode, h.futures, hnone, h.stage⟩
  cases hmoves with
  | stays =>
      rw [List.append_nil]
      exact ⟨h, .of_none⟩
  | starts _ _ hmode =>
      rw [h.mode] at hmode
      cases hmode
  | begins houtcome hstage _ hretries =>
      rw [List.append_nil]
      refine ⟨⟨h.mode, h.futures, fun _ hlimited => ?_, fun retry index lane _ hstage' => ?_,
        fun _ _ hstage' => ?_, ?_⟩, fun _ => .of_none houtcome⟩
      · cases hlimited
      · cases hstage'
        obtain rfl := h.limited houtcome hstage
        refine ⟨hretries, id, [], [], rfl, ⟨?_, List.nil_sublist _⟩, rfl⟩
        exact fun t ht => absurd ht List.not_mem_nil
      · cases hstage'
      · simp
  | refuses houtcome hstage =>
      rw [List.append_nil]
      obtain rfl := h.limited houtcome hstage
      obtain ⟨hattempts, hreturns⟩ := (halone houtcome).finish .failure fun _ =>
        answer_of_sent fun t ht => absurd ht List.not_mem_nil
      exact ⟨hattempts, fun _ => hreturns⟩
  | lane _ _ _ _ _ hfuture | laneCancelled _ _ hfuture | collects _ _ _ _ _ _ hfuture =>
      rw [h.futures] at hfuture
      cases hfuture
  | attempts retry index current swqosType event lane houtcome hstage hclient hstep =>
      obtain ⟨hretry, hunsettled, earlier, now, rfl, hearlier, hpast⟩ :=
        h.current retry index current houtcome hstage
      rw [hclient] at hpast
      rw [List.append_assoc] at hsigned ⊢
      have halone' : Alone { x with
          receipts := x.receipts ++ (Lane.receipt swqosType event).toList } :=
        ⟨h.mode, h.futures, houtcome, h.stage⟩
      obtain ⟨hindex, -⟩ := List.getElem?_eq_some_iff.1 hclient
      have hnow : lane.Past x.options index x.clients[index]?
          (now ++ current.traced index event) := by
        rw [hclient]
        exact hpast.step hstep
      obtain ⟨hattempts, hreturns⟩ :=
        halone'.afterAttempt hearlier hindex hretry hnow (Lane.ne_cancelled_of_step hstep) hsigned
      exact ⟨hattempts, fun _ => hreturns⟩
  | resumes retry houtcome hstage =>
      rw [List.append_nil]
      obtain ⟨hmore, hearlier⟩ := h.pausing retry houtcome hstage
      refine ⟨⟨h.mode, h.futures, fun _ hlimited => ?_, fun retry' index lane _ hstage' => ?_,
        fun _ _ hstage' => ?_, ?_⟩, fun _ => .of_none houtcome⟩
      · cases hlimited
      · cases hstage'
        refine ⟨by push_cast; exact hmore, id, T, [], (List.append_nil T).symm, hearlier, rfl⟩
      · cases hstage'
      · simp
  | gathers _ hstage => exact absurd hstage (h.stage.2 _)
  | interrupts _ _ hstage =>
      rcases hstage with hparallel | ⟨before, hcancelling⟩
      · exact absurd hparallel h.stage.1
      · exact absurd hcancelling (h.stage.2 before)
  | expires houtcome =>
      rw [List.append_nil]
      obtain ⟨hattempts, hreturns⟩ := (halone houtcome).finish .failure
        (timedOut_answer hreceipts)
      exact ⟨hattempts, fun _ => hreturns⟩
  | abandons houtcome =>
      rw [List.append_nil]
      refine ⟨⟨h.mode, h.futures, fun hnone => ?_, fun _ _ _ hnone => ?_, fun _ hnone => ?_,
        h.stage⟩, fun _ r hr => ?_⟩
      · cases hnone
      · cases hnone
      · cases hnone
      · cases hr
  | closes =>
      rw [List.append_nil]
      refine ⟨⟨h.mode, ?_, h.limited, h.current, h.pausing, h.stage⟩, fun hnone => .of_none hnone⟩
      rw [askAll, h.futures]
      rfl

end

end SolTrade.Trading.Execution
