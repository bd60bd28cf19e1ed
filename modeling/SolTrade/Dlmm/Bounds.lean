import Mathlib.Algebra.Order.BigOperators.Group.List
import SolTrade.Dlmm.Fill
import SolTrade.Dlmm.Walk

/-!
Bounds of a DLMM quote.

A quote pays what the visited bins pay, and each of them pays at most what its
tiers have. A larger input goes through the bins that a smaller one leaves behind
with the same result, and from the bin where the smaller one ends it only adds to
the output.
-/

namespace SolTrade.Dlmm

open Library BoundedLoop

/-! ### Visited bins -/

/-- The quote that a call returns, or that its error carries. -/
def Quoted (o : Except DlmmError DlmmQuote) (q : DlmmQuote) : Prop :=
  o = .ok q ∨ o = .error (.insufficientArrays q)

/-- The live reserve of a bin and its live orders. -/
def offered (swapForY supportOrders : Bool) (b : DlmmBin) : List ℤ :=
  [reserve swapForY b,
    if relevant swapForY supportOrders b then b.processedOrder else 0,
    if relevant swapForY supportOrders b then b.openOrder else 0]

/-- A bin in which the walk trades: what its tiers pay, and the input that is left
when the walk leaves it behind. -/
structure DlmmVisit where
  bin : DlmmBin
  paid : List ℤ
  carried : Option ℤ
  deriving DecidableEq, Repr

def visitOf (c : DlmmSwap) (s : DlmmState) (b : DlmmBin) : DlmmVisit :=
  { bin := b
    paid := binPayouts c s b
    carried :=
      match tradeBin c s b with
      | .ok (.next t) => some t.remaining
      | _ => none }

/-- The trade of an iteration, if it trades. -/
def visitAt (c : DlmmSwap) (s : DlmmState) : Option DlmmVisit :=
  if Walking s ∧ s.current / 70 ∈ c.loaded then
    (c.byId.find? (·.binId = s.current)).bind fun b =>
      if ∀ r ∈ tiers c b, r = 0 then none else some (visitOf c s b)
  else none

/-- The bins in which the walk trades, in order. -/
def walkVisits (advance : ℤ → ℤ) (c : DlmmSwap) : ℕ → DlmmState → List DlmmVisit
  | 0, _ => []
  | n + 1, s =>
      (visitAt c s).toList ++
        match dlmmIteration advance c s with
        | .ok (.next t) => walkVisits advance c n t
        | _ => []

def dlmmVisits (pool : DlmmPool) (bins : List DlmmBin) (loadedArrays : List ℤ)
    (amount timestamp : ℤ) (swapForY supportOrders strict exhaustive : Bool) : List DlmmVisit :=
  match dlmmPrepare pool bins loadedArrays amount timestamp swapForY supportOrders strict
    exhaustive with
  | .ok (c, s) => walkVisits (advanceEmpty c) c walkFuel s
  | .error _ => []

/-- What holds of the bins that a walk visits: each pays at most what its tiers have,
and input remains whenever one is left behind. -/
structure VisitBounds (swapForY supportOrders : Bool) (bins : List DlmmBin) (amount : ℤ)
    (visits : List DlmmVisit) : Prop where
  visited : ∀ v ∈ visits, v.bin ∈ bins
  once : (visits.map (·.bin.binId)).Nodup
  paid_le : ∀ v ∈ visits,
    List.Forall₂ (fun paid r => 0 ≤ paid ∧ paid ≤ r) v.paid (offered swapForY supportOrders v.bin)
  carried_pos : ∀ v ∈ visits, ∀ r, v.carried = some r → 0 < r ∧ r ≤ amount

/-- What holds of a quote. -/
structure QuoteBounds (swapForY supportOrders : Bool) (amount : ℤ) (visits : List DlmmVisit)
    (q : DlmmQuote) : Prop where
  remaining_nonneg : 0 ≤ q.remainingIn
  remaining_le : q.remainingIn ≤ amount
  out_nonneg : 0 ≤ q.amountOut
  out_le_paid : q.amountOut ≤ (visits.map (·.paid.sum)).sum
  out_le : q.amountOut ≤ (visits.map fun v => (offered swapForY supportOrders v.bin).sum).sum

/-! ### One iteration -/

section Iteration

variable {c : DlmmSwap} {s t : DlmmState} {b : DlmmBin} {advance : ℤ → ℤ}

/-- What an iteration that does not trade can do. -/
inductive Passes (s : DlmmState) : Except DlmmError (Flow DlmmState DlmmQuote) → Prop
  | move (i : ℤ) : Passes s (.ok (.next { s with current := i }))
  | stop : Passes s (.ok (.brk s))
  | ret (missing : Option ℤ) (complete : Bool) :
      Passes s (.ok (.ret ⟨s.total, s.remaining, s.crossed, complete, missing⟩))
  | fail (missing : Option ℤ) (complete : Bool) :
      Passes s (.error (.insufficientArrays ⟨s.total, s.remaining, s.crossed, complete, missing⟩))

theorem visitGap_passes (c : DlmmSwap) (s : DlmmState) : Passes s (visitGap c s) := by
  unfold visitGap
  split
  · split
    · exact .stop
    · exact .move _
  · dsimp only
    split
    · exact .fail _ _
    · exact .ret _ _

/-- An iteration passes on, or it trades in the bin that it is at. -/
theorem iteration_passes_or_trades (hc : c.Valid) (advance : ℤ → ℤ) (s : DlmmState) :
    visitAt c s = none ∧ Passes s (dlmmIteration advance c s) ∨
      ∃ b ∈ c.byId, b.binId = s.current ∧ Walking s ∧ s.current / 70 ∈ c.loaded ∧
        isLive c.swapForY c.supportOrders b = true ∧ visitAt c s = some (visitOf c s b) ∧
          dlmmIteration advance c s = tradeBin c s b := by
  by_cases hw : Walking s
  · by_cases hloaded : s.current / 70 ∈ c.loaded
    · by_cases hlive : LiveAt c s.current
      · obtain ⟨b, hmem, hid, hlive⟩ := hlive
        refine .inr ⟨b, hmem, hid, hw, hloaded, hlive, ?_, iteration_of_live hc hw hmem hid hlive⟩
        rw [visitAt, if_pos ⟨hw, hloaded⟩, hc.lookup_eq_some.2 ⟨hmem, hid⟩]
        exact if_neg (isLive_iff.1 hlive)
      · -- a bin without live tiers is looked up, and no trade is made
        rw [iteration_of_dead hc hw ⟨hloaded, hlive⟩]
        refine .inl ⟨?_, .move _⟩
        rw [visitAt, if_pos ⟨hw, hloaded⟩]
        cases hf : c.byId.find? (·.binId = s.current) with
        | none => rfl
        | some b =>
            obtain ⟨hmem, hid⟩ := hc.lookup_eq_some.1 hf
            refine if_pos ?_
            by_contra htiers
            exact hlive ⟨b, hmem, hid, isLive_iff.2 htiers⟩
    · rw [iteration_of_gap hw hloaded]
      exact .inl ⟨if_neg fun h => hloaded h.2, visitGap_passes c s⟩
  · rw [iteration_of_not_walking hw]
    exact .inl ⟨if_neg fun h => hw h.1, .stop⟩

/-- What a trade can do. -/
theorem tradeBin_cases (c : DlmmSwap) (s : DlmmState) (b : DlmmBin) :
    tradeBin c s b = .error .outputOverflows ∨
      (binFill c s b).left ≠ 0 ∧
        tradeBin c s b = .ok (.next
          { current := s.current + stepOf c.swapForY, remaining := tradeRemaining c s b
            total := tradeTotal c s b, crossed := s.crossed + 1 }) ∨
      (binFill c s b).left = 0 ∧
        tradeBin c s b = .ok (.ret
          { amountOut := tradeTotal c s b, remainingIn := 0, binsCrossed := s.crossed + 1
            complete := true }) := by
  by_cases hover : tradeTotal c s b ≥ 2 ^ 64
  · refine .inl ?_
    rw [tradeBin, require, if_neg (not_not.2 hover)]
    rfl
  · rw [tradeBin, require_of hover, ok_bind]
    by_cases hleft : (binFill c s b).left = 0
    · exact .inr (.inr ⟨hleft, if_neg (not_not.2 hleft)⟩)
    · exact .inr (.inl ⟨hleft, if_pos hleft⟩)

end Iteration

/-! ### A walk -/

@[simp] theorem quoted_ok {q q' : DlmmQuote} : Quoted (.ok q') q ↔ q' = q := by
  simp [Quoted]

@[simp] theorem quoted_error {e : DlmmError} {q : DlmmQuote} :
    Quoted (.error e) q ↔ e = .insufficientArrays q := by
  simp [Quoted]

section Walk

variable {c : DlmmSwap} {s t : DlmmState} {b : DlmmBin} {advance : ℤ → ℤ} {n : ℕ}
  {v : DlmmVisit} {q : DlmmQuote}

theorem walkVisits_next (h : dlmmIteration advance c s = .ok (.next t)) (n : ℕ) :
    walkVisits advance c (n + 1) s = (visitAt c s).toList ++ walkVisits advance c n t := by
  simp only [walkVisits, h]

/-- What an iteration that goes on does with the input and the output. -/
theorem iteration_next_bounds (hc : c.Valid) (hb : c.InBounds) (hr : 0 ≤ s.remaining)
    (h : dlmmIteration advance c s = .ok (.next t)) :
    0 ≤ t.remaining ∧ t.remaining ≤ s.remaining := by
  rcases iteration_passes_or_trades hc advance s with
    ⟨-, hpass⟩ | ⟨b, hmem, -, -, -, -, -, htrade⟩
  · rw [h] at hpass
    cases hpass
    exact ⟨hr, le_rfl⟩
  · rw [h] at htrade
    rcases tradeBin_cases c s b with herr | ⟨hleft, hnext⟩ | ⟨-, hret⟩
    · rw [herr] at htrade
      cases htrade
    · rw [hnext] at htrade
      cases htrade
      obtain ⟨hpos, hle⟩ := tradeRemaining_bounds hb hmem hr hleft
      exact ⟨hpos.le, hle⟩
    · rw [hret] at htrade
      cases htrade

/-- Every visit is the trade of a state that the walk reaches. -/
theorem exists_of_mem_walkVisits (hc : c.Valid) (h : v ∈ walkVisits advance c n s) :
    ∃ t b, Reaches (dlmmIteration advance c) s t ∧ b ∈ c.byId ∧ v = visitOf c t b := by
  induction n generalizing s with
  | zero => cases h
  | succ n ih =>
      rw [walkVisits, List.mem_append] at h
      rcases h with h | h
      · rcases iteration_passes_or_trades hc advance s with
          ⟨hnone, -⟩ | ⟨b, hmem, -, -, -, -, hsome, -⟩
        · rw [hnone] at h
          cases h
        · rw [hsome, Option.toList_some, List.mem_singleton] at h
          exact ⟨s, b, .refl s, hmem, h⟩
      · split at h
        · rename_i t hnext
          obtain ⟨u, b, ⟨k, hk⟩, hmem, hv⟩ := ih h
          exact ⟨u, b, ⟨k + 1, hk.cons hnext⟩, hmem, hv⟩
        · cases h

/-- The bins are visited in the order of their ids. -/
theorem walkVisits_ordered (hc : c.Valid) (hadv : Advances c advance) (n : ℕ) (s : DlmmState) :
    (walkVisits advance c n s).Pairwise
        (fun v w => StrictlyBeyond c.swapForY v.bin.binId w.bin.binId) ∧
      ∀ v ∈ walkVisits advance c n s, Beyond c.swapForY s.current v.bin.binId := by
  induction n generalizing s with
  | zero => simp [walkVisits]
  | succ n ih =>
      -- what comes after this iteration is strictly beyond its bin
      have htail : ∀ w ∈ (match dlmmIteration advance c s with
          | .ok (.next t) => walkVisits advance c n t
          | _ => []), StrictlyBeyond c.swapForY s.current w.bin.binId := by
        intro w hw
        split at hw
        · rename_i t hnext
          exact (iteration_next hadv hnext).2.trans_beyond ((ih t).2 w hw)
        · cases hw
      have hhead : ∀ w ∈ (visitAt c s).toList, w.bin.binId = s.current := by
        intro w hw
        rcases iteration_passes_or_trades hc advance s with
          ⟨hnone, -⟩ | ⟨b, -, hid, -, -, -, hsome, -⟩
        · rw [hnone] at hw
          cases hw
        · rw [hsome, Option.toList_some, List.mem_singleton] at hw
          rw [hw]
          exact hid
      rw [walkVisits, List.pairwise_append]
      refine ⟨⟨?_, ?_, ?_⟩, ?_⟩
      · cases visitAt c s <;> simp
      · split
        · exact (ih _).1
        · exact .nil
      · intro w hw w' hw'
        rw [hhead w hw]
        exact htail w' hw'
      · intro w hw
        rcases List.mem_append.1 hw with hw | hw
        · rw [hhead w hw]
          exact .refl _ _
        · exact (htail w hw).beyond

/-- A walk pays what it has paid and what the bins it visits pay. -/
theorem walk_bounds (hc : c.Valid) (hb : c.InBounds) (hr : 0 ≤ s.remaining)
    (h : Quoted (run (dlmmIteration advance c) dlmmFinish n s) q) :
    (0 ≤ q.remainingIn ∧ q.remainingIn ≤ s.remaining) ∧ s.total ≤ q.amountOut ∧
      q.amountOut ≤ s.total + ((walkVisits advance c n s).map (·.paid.sum)).sum := by
  induction n generalizing s with
  | zero =>
      obtain rfl := quoted_ok.1 h
      simpa [walkVisits] using hr
  | succ n ih =>
      -- an iteration that does not trade moves on or ends the walk, with the same total
      rcases iteration_passes_or_trades hc advance s with
        ⟨hnone, hpass⟩ | ⟨b, hmem, -, -, -, -, hsome, htrade⟩
      · generalize ho : dlmmIteration advance c s = o at hpass
        cases hpass with
        | move i =>
            rw [run_next ho] at h
            rw [walkVisits_next ho, hnone]
            exact ih (s := { s with current := i }) hr h
        | stop =>
            simp only [run, ho] at h
            obtain rfl := quoted_ok.1 h
            simpa [walkVisits, ho, hnone] using hr
        | ret missing complete =>
            simp only [run, ho] at h
            obtain rfl := quoted_ok.1 h
            simpa [walkVisits, ho, hnone] using hr
        | fail missing complete =>
            simp only [run, ho] at h
            obtain rfl := DlmmError.insufficientArrays.inj (quoted_error.1 h)
            simpa [walkVisits, ho, hnone] using hr
      · obtain ⟨hmore, hpaid⟩ := tradeTotal_bounds hb hmem hr
        have hvisits : (visitOf c s b).paid.sum = (binPayouts c s b).sum := rfl
        rcases tradeBin_cases c s b with herr | ⟨hleft, hnext⟩ | ⟨-, hret⟩
        · rw [herr] at htrade
          simp only [run, htrade, quoted_error] at h
          cases h
        · -- the bin is left behind: the rest of the walk starts from what it paid
          obtain ⟨hpos, hle⟩ := tradeRemaining_bounds hb hmem hr hleft
          rw [hnext] at htrade
          rw [run_next htrade] at h
          obtain ⟨⟨hrem, hrem'⟩, hlo, hhi⟩ :=
            ih (s := ⟨_, tradeRemaining c s b, tradeTotal c s b, _⟩) hpos.le h
          dsimp only at hrem' hlo hhi
          rw [walkVisits_next htrade, hsome, Option.toList_some, List.singleton_append,
            List.map_cons, List.sum_cons, hvisits]
          refine ⟨⟨hrem, by omega⟩, by omega, by omega⟩
        · rw [hret] at htrade
          simp only [run, htrade] at h
          obtain rfl := quoted_ok.1 h
          simp only [walkVisits, htrade, hsome, Option.toList_some, List.append_nil,
            List.map_cons, List.map_nil, List.sum_cons, List.sum_nil, hvisits]
          refine ⟨⟨le_rfl, hr⟩, by omega, by omega⟩

end Walk

/-! ### Two walks -/

/-- The same walk with at least as much input left. -/
structure DlmmState.Within (s t : DlmmState) : Prop where
  current_eq : s.current = t.current
  total_eq : s.total = t.total
  nonneg : 0 ≤ s.remaining
  le : s.remaining ≤ t.remaining

/-- The second outcome pays at least what the first pays, if both are quotes. -/
def PaysLess (o o' : Except DlmmError DlmmQuote) : Prop :=
  ∀ q q', Quoted o q → Quoted o' q' → q.amountOut ≤ q'.amountOut

section TwoWalks

variable {c : DlmmSwap} {s t : DlmmState} {b : DlmmBin} {advance : ℤ → ℤ} {n : ℕ} {q : DlmmQuote}

theorem DlmmState.Within.walking (h : s.Within t) (hw : Walking s) : Walking t := by
  obtain ⟨hr, hrange⟩ := hw
  have := h.nonneg
  have := h.le
  exact ⟨by omega, h.current_eq ▸ hrange⟩

/-- A walk that trades pays at least what it has after the trade. -/
theorem tradeTotal_le_amountOut (hc : c.Valid) (hb : c.InBounds) (hmem : b ∈ c.byId)
    (hr : 0 ≤ s.remaining) (htrade : dlmmIteration advance c s = tradeBin c s b)
    (h : Quoted (run (dlmmIteration advance c) dlmmFinish (n + 1) s) q) :
    tradeTotal c s b ≤ q.amountOut := by
  rcases tradeBin_cases c s b with herr | ⟨hleft, hnext⟩ | ⟨-, hret⟩
  · rw [herr] at htrade
    simp only [run, htrade, quoted_error] at h
    cases h
  · rw [hnext] at htrade
    rw [run_next htrade] at h
    exact (walk_bounds hc hb (tradeRemaining_bounds hb hmem hr hleft).1.le h).2.1
  · rw [hret] at htrade
    simp only [run, htrade] at h
    obtain rfl := quoted_ok.1 h
    exact le_rfl

/-- In a bin that the smaller input leaves behind, both inputs do the same; a
smaller input that ends in the bin is paid no more there. -/
theorem DlmmState.Within.trade (h : s.Within t) (hc : c.Valid) (hb : c.InBounds)
    (hmem : b ∈ c.byId) (hs : dlmmIteration advance c s = tradeBin c s b)
    (ht : dlmmIteration advance c t = tradeBin c t b) :
    (∃ s' t', dlmmIteration advance c s = .ok (.next s') ∧
        dlmmIteration advance c t = .ok (.next t') ∧ s'.Within t') ∨
      ∀ n, PaysLess (run (dlmmIteration advance c) dlmmFinish (n + 1) s)
        (run (dlmmIteration advance c) dlmmFinish (n + 1) t) := by
  have hr' : 0 ≤ t.remaining := h.nonneg.trans h.le
  obtain ⟨hout, hsame⟩ := binFill_within hb hmem h.current_eq h.nonneg h.le
  rcases tradeBin_cases c s b with herr | ⟨hleft, hnext⟩ | ⟨-, hret⟩
  · refine .inr fun n q q' hq _ => ?_
    rw [herr] at hs
    simp only [run, hs, quoted_error] at hq
    cases hq
  · -- the smaller input leaves the bin behind, and so does the larger one
    obtain ⟨hused, hout', hle⟩ := hsame hleft
    rcases tradeBin_cases c t b with herr' | ⟨-, hnext'⟩ | ⟨hleft', -⟩
    · refine .inr fun n q q' _ hq' => ?_
      rw [herr'] at ht
      simp only [run, ht, quoted_error] at hq'
      cases hq'
    · refine .inl ⟨_, _, hs.trans hnext, ht.trans hnext', ?_, ?_, ?_, ?_⟩
      · exact congrArg (· + stepOf c.swapForY) h.current_eq
      · simp only [tradeTotal_eq, h.current_eq, h.total_eq, hout']
      · exact (tradeRemaining_bounds hb hmem h.nonneg hleft).1.le
      · simp only [tradeRemaining, hused, h.current_eq]
        exact sub_le_sub_right h.le _
    · have := (binFill_spec hb hmem h.nonneg).1.left_nonneg
      omega
  · -- the smaller input ends here, and the larger one is only paid more from here on
    refine .inr fun n q q' hq hq' => ?_
    rw [hret] at hs
    simp only [run, hs] at hq
    obtain rfl := quoted_ok.1 hq
    calc
      tradeTotal c s b ≤ tradeTotal c t b := by
        rw [tradeTotal_eq, tradeTotal_eq, h.current_eq, h.total_eq]
        exact Int.add_le_add_left (netOut_mono hb hout) _
      _ ≤ q'.amountOut := tradeTotal_le_amountOut hc hb hmem hr' ht hq'

/-- At an array that is not loaded both walks pass or end. -/
theorem DlmmState.Within.gap (h : s.Within t) (hs : dlmmIteration advance c s = visitGap c s)
    (ht : dlmmIteration advance c t = visitGap c t) :
    (∃ s' t', dlmmIteration advance c s = .ok (.next s') ∧
        dlmmIteration advance c t = .ok (.next t') ∧ s'.Within t') ∨
      ∀ n, PaysLess (run (dlmmIteration advance c) dlmmFinish (n + 1) s)
        (run (dlmmIteration advance c) dlmmFinish (n + 1) t) := by
  unfold visitGap at hs ht
  rw [← h.current_eq] at ht
  -- which way a gap is taken does not depend on the input
  by_cases hx : c.exhaustive = true
  · rw [if_pos hx] at hs ht
    by_cases hspan : OutsideSpan c s.current
    · rw [if_pos hspan] at hs ht
      refine .inr fun n q q' hq hq' => ?_
      simp only [run, hs, ht] at hq hq'
      obtain rfl := quoted_ok.1 hq
      obtain rfl := quoted_ok.1 hq'
      exact h.total_eq.le
    · rw [if_neg hspan] at hs ht
      exact .inl ⟨_, _, hs, ht, rfl, h.total_eq, h.nonneg, h.le⟩
  · rw [if_neg hx] at hs ht
    refine .inr fun n q q' hq hq' => ?_
    by_cases hstrict : c.strict = true
    · rw [if_pos hstrict] at hs ht
      simp only [run, hs, ht] at hq hq'
      obtain rfl := DlmmError.insufficientArrays.inj (quoted_error.1 hq)
      obtain rfl := DlmmError.insufficientArrays.inj (quoted_error.1 hq')
      exact h.total_eq.le
    · rw [if_neg hstrict] at hs ht
      simp only [run, hs, ht] at hq hq'
      obtain rfl := quoted_ok.1 hq
      obtain rfl := quoted_ok.1 hq'
      exact h.total_eq.le

/-- More input pays at least as much. -/
theorem walk_mono (hc : c.Valid) (hb : c.InBounds) (h : s.Within t) (n : ℕ) :
    PaysLess (run (dlmmIteration advance c) dlmmFinish n s)
      (run (dlmmIteration advance c) dlmmFinish n t) := by
  refine run_compare (R := DlmmState.Within) ?_ ?_ n h
  · intro s t h
    by_cases hw : Walking s
    · have hw' := h.walking hw
      by_cases hloaded : s.current / 70 ∈ c.loaded
      · have hloaded' := h.current_eq ▸ hloaded
        by_cases hlive : LiveAt c s.current
        · obtain ⟨b, hmem, hid, hlive⟩ := hlive
          exact h.trade hc hb hmem (iteration_of_live hc hw hmem hid hlive)
            (iteration_of_live hc hw' hmem (hid.trans h.current_eq) hlive)
        · have hdead' : DeadAt c t.current := h.current_eq ▸ ⟨hloaded, hlive⟩
          refine .inl ⟨_, _, iteration_of_dead hc hw ⟨hloaded, hlive⟩,
            iteration_of_dead hc hw' hdead', ?_, h.total_eq, h.nonneg, h.le⟩
          exact congrArg advance h.current_eq
      · exact h.gap (iteration_of_gap hw hloaded) (iteration_of_gap hw' (h.current_eq ▸ hloaded))
    · -- nothing is left of the smaller input, or both have left the range
      refine .inr fun n q q' hq hq' => ?_
      simp only [run, iteration_of_not_walking hw] at hq
      obtain rfl := quoted_ok.1 hq
      exact h.total_eq.le.trans (walk_bounds hc hb (h.nonneg.trans h.le) hq').2.1
  · intro s t h q q' hq hq'
    obtain rfl := quoted_ok.1 hq
    obtain rfl := quoted_ok.1 hq'
    exact h.total_eq.le

end TwoWalks

/-! ### A call -/

section Call

variable {pool : DlmmPool} {bins : List DlmmBin} {loadedArrays : List ℤ} {amount timestamp : ℤ}
  {swapForY supportOrders strict exhaustive : Bool} {c : DlmmSwap} {s : DlmmState}
  {q partialQuote : DlmmQuote}

theorem uint_ne_insufficient (v : ℤ) (bits : ℕ) :
    uint v bits ≠ .error (.insufficientArrays partialQuote) :=
  require_ne_error nofun

theorem sint_ne_insufficient (v : ℤ) (bits : ℕ) :
    sint v bits ≠ .error (.insufficientArrays partialQuote) :=
  require_ne_error nofun

theorem checkPool_ne_insufficient :
    checkPool pool amount timestamp ≠ .error (.insufficientArrays partialQuote) := by
  unfold checkPool
  refine bind_ne_error (uint_ne_insufficient _ _) fun _ =>
    bind_ne_error (uint_ne_insufficient _ _) fun _ =>
    bind_ne_error (sint_ne_insufficient _ _) fun _ =>
    bind_ne_error (uint_ne_insufficient _ _) fun _ =>
    bind_ne_error (require_ne_error nofun) fun _ => ?_
  iterate 10 refine bind_ne_error (uint_ne_insufficient _ _) fun _ => ?_
  exact bind_ne_error (sint_ne_insufficient _ _) fun _ => require_ne_error nofun

theorem checkLoaded_ne_insufficient (seen arrays : List ℤ) :
    checkLoaded seen arrays ≠ .error (.insufficientArrays partialQuote) := by
  induction arrays generalizing seen with
  | nil => exact pure_ne_error
  | cons i rest ih =>
      exact bind_ne_error (sint_ne_insufficient _ _) fun _ =>
        bind_ne_error (require_ne_error nofun) fun _ => ih _

theorem checkBin_ne_insufficient (b : DlmmBin) :
    checkBin b ≠ .error (.insufficientArrays partialQuote) := by
  unfold checkBin
  iterate 6 refine bind_ne_error (uint_ne_insufficient _ _) fun _ => ?_
  exact require_ne_error nofun

theorem checkBins_ne_insufficient (loaded seen : List ℤ) (bins : List DlmmBin) :
    checkBins loaded seen bins ≠ .error (.insufficientArrays partialQuote) := by
  induction bins generalizing seen with
  | nil => exact pure_ne_error
  | cons b rest ih =>
      exact bind_ne_error (sint_ne_insufficient _ _) fun _ =>
        bind_ne_error (require_ne_error nofun) fun _ =>
        bind_ne_error (checkBin_ne_insufficient b) fun _ => ih _

/-- Only the walk raises the error that carries a quote. -/
theorem dlmmPrepare_ne_insufficient :
    dlmmPrepare pool bins loadedArrays amount timestamp swapForY supportOrders strict exhaustive ≠
      .error (.insufficientArrays partialQuote) :=
  bind_ne_error checkPool_ne_insufficient fun _ =>
    bind_ne_error (checkLoaded_ne_insufficient _ _) fun _ =>
    bind_ne_error (checkBins_ne_insufficient _ _ _) fun _ => pure_ne_error

/-- A quote comes from the walk. -/
theorem quoted_call
    (h : Quoted (dlmmSwapExactIn pool bins loadedArrays amount timestamp swapForY supportOrders
      strict exhaustive) q) :
    ∃ c s, dlmmPrepare pool bins loadedArrays amount timestamp swapForY supportOrders strict
        exhaustive = .ok (c, s) ∧ Quoted (dlmmWalk (advanceEmpty c) c s) q := by
  rcases h with h | h
  · obtain ⟨⟨c, s⟩, hprep, hwalk⟩ := bind_eq_ok.1 h
    exact ⟨c, s, hprep, .inl hwalk⟩
  · rcases bind_eq_error.1 h with h | ⟨⟨c, s⟩, hprep, hwalk⟩
    · exact absurd h dlmmPrepare_ne_insufficient
    · exact ⟨c, s, hprep, .inr hwalk⟩

theorem dlmmVisits_eq
    (h : dlmmPrepare pool bins loadedArrays amount timestamp swapForY supportOrders strict
      exhaustive = .ok (c, s)) :
    dlmmVisits pool bins loadedArrays amount timestamp swapForY supportOrders strict exhaustive =
      walkVisits (advanceEmpty c) c walkFuel s := by
  rw [dlmmVisits, h]

theorem offered_eq
    (h : dlmmPrepare pool bins loadedArrays amount timestamp swapForY supportOrders strict
      exhaustive = .ok (c, s)) (b : DlmmBin) : tiers c b = offered swapForY supportOrders b := by
  obtain ⟨-, -, -, rfl, -⟩ := dlmmPrepare_eq_ok.1 h
  rfl

/-- The amount of a call is checked. -/
theorem prepare_remaining
    (h : dlmmPrepare pool bins loadedArrays amount timestamp swapForY supportOrders strict
      exhaustive = .ok (c, s)) : s.remaining = amount ∧ s.total = 0 ∧ 0 ≤ s.remaining := by
  obtain ⟨hpool, -, -, -, rfl⟩ := dlmmPrepare_eq_ok.1 h
  simp only [checkPool, bind_eq_ok, uint_eq_ok] at hpool
  obtain ⟨_, ⟨hamount, -⟩, -⟩ := hpool
  exact ⟨rfl, rfl, hamount⟩

/-- Another amount changes nothing but the input of the walk. -/
theorem prepare_within {a a' : ℤ} {c' : DlmmSwap} {s' : DlmmState} (ha : a ≤ a')
    (h : dlmmPrepare pool bins loadedArrays a timestamp swapForY supportOrders strict exhaustive =
      .ok (c, s))
    (h' : dlmmPrepare pool bins loadedArrays a' timestamp swapForY supportOrders strict exhaustive =
      .ok (c', s')) : c' = c ∧ s.Within s' := by
  have hnonneg := (prepare_remaining h).2.2
  obtain ⟨-, -, -, rfl, rfl⟩ := dlmmPrepare_eq_ok.1 h
  obtain ⟨-, -, -, rfl, rfl⟩ := dlmmPrepare_eq_ok.1 h'
  exact ⟨rfl, rfl, rfl, hnonneg, ha⟩

/-- The bins of a call's walk. -/
theorem dlmmVisits_bounds
    (h : dlmmPrepare pool bins loadedArrays amount timestamp swapForY supportOrders strict
      exhaustive = .ok (c, s)) :
    VisitBounds swapForY supportOrders bins amount
      (dlmmVisits pool bins loadedArrays amount timestamp swapForY supportOrders strict
        exhaustive) := by
  have hc := DlmmSwap.Valid.of_prepare h
  have hb := DlmmSwap.InBounds.of_prepare h
  obtain ⟨hamount, -, hr⟩ := prepare_remaining h
  -- a visit is the trade of a state whose input is in bounds
  have hvisit : ∀ v ∈ walkVisits (advanceEmpty c) c walkFuel s, ∃ t b, b ∈ c.byId ∧
      (0 ≤ t.remaining ∧ t.remaining ≤ amount) ∧ v = visitOf c t b := by
    intro v hv
    obtain ⟨t, b, hreach, hmem, hv⟩ := exists_of_mem_walkVisits hc hv
    refine ⟨t, b, hmem, ?_, hv⟩
    refine hreach.invariant (I := fun u => 0 ≤ u.remaining ∧ u.remaining ≤ amount) ?_
      ⟨hr, hamount.le⟩
    intro u w hu hnext
    obtain ⟨hlo, hhi⟩ := iteration_next_bounds hc hb hu.1 hnext
    exact ⟨hlo, hhi.trans hu.2⟩
  rw [dlmmVisits_eq h]
  refine ⟨fun v hv => ?_, ?_, fun v hv => ?_, fun v hv r hr => ?_⟩
  · obtain ⟨t, b, hmem, -, rfl⟩ := hvisit v hv
    obtain ⟨-, -, -, rfl, -⟩ := dlmmPrepare_eq_ok.1 h
    exact List.mem_of_mem_filter hmem
  · rw [List.nodup_iff_pairwise_ne, List.pairwise_map]
    exact (walkVisits_ordered hc (advanceEmpty_advances hc) _ s).1.imp fun hlt => hlt.ne
  · obtain ⟨t, b, hmem, ⟨hlo, -⟩, rfl⟩ := hvisit v hv
    rw [← offered_eq h]
    exact (binFill_spec hb hmem hlo).2.2
  · obtain ⟨t, b, hmem, ⟨hlo, hhi⟩, rfl⟩ := hvisit v hv
    unfold visitOf at hr
    rcases tradeBin_cases c t b with herr | ⟨hleft, hnext⟩ | ⟨-, hret⟩
    · simp [herr] at hr
    · rw [hnext] at hr
      obtain ⟨hpos, hle⟩ := tradeRemaining_bounds hb hmem hlo hleft
      cases hr
      exact ⟨hpos, hle.trans hhi⟩
    · simp [hret] at hr

/-- The quote of a call, or the one that its error carries. -/
theorem quote_bounds
    (h : Quoted (dlmmSwapExactIn pool bins loadedArrays amount timestamp swapForY supportOrders
      strict exhaustive) q) :
    QuoteBounds swapForY supportOrders amount
      (dlmmVisits pool bins loadedArrays amount timestamp swapForY supportOrders strict exhaustive)
      q := by
  obtain ⟨c, s, hprep, hwalk⟩ := quoted_call h
  have hc := DlmmSwap.Valid.of_prepare hprep
  have hb := DlmmSwap.InBounds.of_prepare hprep
  obtain ⟨hamount, htotal, hr⟩ := prepare_remaining hprep
  obtain ⟨⟨hlo, hhi⟩, hout, hpaid⟩ := walk_bounds hc hb hr hwalk
  have hvisits := dlmmVisits_bounds hprep
  rw [dlmmVisits_eq hprep] at hvisits ⊢
  rw [htotal, zero_add] at hpaid
  have htiers : ∀ v ∈ walkVisits (advanceEmpty c) c walkFuel s,
      v.paid.sum ≤ (offered swapForY supportOrders v.bin).sum := fun v hv =>
    List.Forall₂.sum_le_sum ((hvisits.paid_le v hv).imp fun _ _ h => h.2)
  exact
    { remaining_nonneg := hlo
      remaining_le := hamount ▸ hhi
      out_nonneg := htotal ▸ hout
      out_le_paid := hpaid
      out_le := hpaid.trans (List.sum_le_sum htiers) }

/-- The bounds of a DLMM quote, returned or carried by the error, for all pools,
bins, modes and directions; and more input pays at least as much. -/
theorem dlmmSwapExactIn_bounds (pool : DlmmPool) (bins : List DlmmBin) (loadedArrays : List ℤ)
    (timestamp : ℤ) (swapForY supportOrders strict exhaustive : Bool) :
    (∀ amount,
        VisitBounds swapForY supportOrders bins amount
            (dlmmVisits pool bins loadedArrays amount timestamp swapForY supportOrders strict
              exhaustive) ∧
          ∀ q, Quoted (dlmmSwapExactIn pool bins loadedArrays amount timestamp swapForY
              supportOrders strict exhaustive) q →
            QuoteBounds swapForY supportOrders amount
              (dlmmVisits pool bins loadedArrays amount timestamp swapForY supportOrders strict
                exhaustive) q) ∧
      ∀ a b, a ≤ b →
        PaysLess
          (dlmmSwapExactIn pool bins loadedArrays a timestamp swapForY supportOrders strict
            exhaustive)
          (dlmmSwapExactIn pool bins loadedArrays b timestamp swapForY supportOrders strict
            exhaustive) := by
  refine ⟨fun amount => ⟨?_, fun q h => quote_bounds h⟩, fun a b hab q q' hq hq' => ?_⟩
  · cases hprep : dlmmPrepare pool bins loadedArrays amount timestamp swapForY supportOrders
        strict exhaustive with
    | error e =>
        rw [dlmmVisits, hprep]
        exact ⟨nofun, .nil, nofun, nofun⟩
    | ok p => exact dlmmVisits_bounds hprep
  · obtain ⟨c, s, hprep, hwalk⟩ := quoted_call hq
    obtain ⟨c', s', hprep', hwalk'⟩ := quoted_call hq'
    obtain ⟨rfl, hwithin⟩ := prepare_within hab hprep hprep'
    exact walk_mono (DlmmSwap.Valid.of_prepare hprep) (DlmmSwap.InBounds.of_prepare hprep) hwithin
      walkFuel q q' hwalk hwalk'

end Call

/-- Thirty units end in the first bin, and a hundred leave it behind. -/
theorem dlmmSwapExactIn_bounds_two_bins :
    QuoteBounds true false 100
        (dlmmVisits ⟨75, 25, 0, ⟨10, 0, 0, 0, 0, 0, 0⟩, ⟨0, 0, 75, 0⟩⟩
          [⟨75, 0, 40, q64, 0, 0, 0⟩, ⟨72, 0, 1000, q64, 0, 0, 0⟩] [1] 100 0 true false true false)
        ⟨98, 0, 2, true, none⟩ ∧
      (29 : ℤ) ≤ 98 := by
  have h : dlmmSwapExactIn ⟨75, 25, 0, ⟨10, 0, 0, 0, 0, 0, 0⟩, ⟨0, 0, 75, 0⟩⟩
      [⟨75, 0, 40, q64, 0, 0, 0⟩, ⟨72, 0, 1000, q64, 0, 0, 0⟩] [1] 30 0 true false true false =
        .ok ⟨29, 0, 1, true, none⟩ := by decide +kernel
  have h' : dlmmSwapExactIn ⟨75, 25, 0, ⟨10, 0, 0, 0, 0, 0, 0⟩, ⟨0, 0, 75, 0⟩⟩
      [⟨75, 0, 40, q64, 0, 0, 0⟩, ⟨72, 0, 1000, q64, 0, 0, 0⟩] [1] 100 0 true false true false =
        .ok ⟨98, 0, 2, true, none⟩ := by decide +kernel
  obtain ⟨hbounds, hmono⟩ := dlmmSwapExactIn_bounds ⟨75, 25, 0, ⟨10, 0, 0, 0, 0, 0, 0⟩, ⟨0, 0, 75, 0⟩⟩
    [⟨75, 0, 40, q64, 0, 0, 0⟩, ⟨72, 0, 1000, q64, 0, 0, 0⟩] [1] 0 true false true false
  exact ⟨(hbounds 100).2 _ (.inl h'), hmono 30 100 (by decide) _ _ (.inl h) (.inl h')⟩

end SolTrade.Dlmm
