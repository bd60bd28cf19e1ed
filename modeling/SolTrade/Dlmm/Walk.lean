import SolTrade.Dlmm.Iteration

/-!
The jump over dead bins changes nothing.

`plainAdvance` leaves an empty bin by one step. A walk that jumps and a walk that
does not settle on the same quote or the same error, because what lies between
the two ends of a jump are dead bins of one loaded array.
-/

namespace SolTrade.Dlmm

open Library BoundedLoop

/-- A bin of a loaded array in which the swap finds nothing. -/
def DeadAt (c : DlmmSwap) (current : ℤ) : Prop := current / 70 ∈ c.loaded ∧ ¬ LiveAt c current

/-! ### One iteration -/

section Step

variable {c : DlmmSwap} {s t : DlmmState} {b : DlmmBin} {advance advance' : ℤ → ℤ}

theorem iteration_of_not_walking (h : ¬ Walking s) :
    dlmmIteration advance c s = .ok (.brk s) := if_pos h

theorem iteration_of_loaded (hw : Walking s) (h : s.current / 70 ∈ c.loaded) :
    dlmmIteration advance c s = visitBin advance c s := by
  rw [dlmmIteration, if_neg (not_not.2 hw), if_neg (not_not.2 h)]

theorem iteration_of_gap (hw : Walking s) (h : s.current / 70 ∉ c.loaded) :
    dlmmIteration advance c s = visitGap c s := by
  rw [dlmmIteration, if_neg (not_not.2 hw), if_pos h]

theorem iteration_of_live (hc : c.Valid) (hw : Walking s) (hb : b ∈ c.byId)
    (hid : b.binId = s.current) (hlive : isLive c.swapForY c.supportOrders b = true) :
    dlmmIteration advance c s = tradeBin c s b := by
  rw [iteration_of_loaded hw (hid ▸ hc.bin_loaded b hb), visitBin,
    hc.lookup_eq_some.2 ⟨hb, hid⟩]
  exact if_neg (isLive_iff.1 hlive)

theorem iteration_of_dead (hc : c.Valid) (hw : Walking s) (hd : DeadAt c s.current) :
    dlmmIteration advance c s = .ok (.next { s with current := advance s.current }) := by
  rw [iteration_of_loaded hw hd.1, visitBin]
  split
  · rfl
  · rename_i b hb
    obtain ⟨hmem, hid⟩ := hc.lookup_eq_some.1 hb
    refine if_pos ?_
    by_contra hlive
    exact hd.2 ⟨b, hmem, hid, isLive_iff.2 hlive⟩

/-- The rule for empty bins matters in dead bins only. -/
theorem iteration_of_not_dead (hc : c.Valid) (hd : ¬ DeadAt c s.current) :
    dlmmIteration advance c s = dlmmIteration advance' c s := by
  by_cases hw : Walking s
  · by_cases hloaded : s.current / 70 ∈ c.loaded
    · obtain ⟨b, hb, hid, hlive⟩ : LiveAt c s.current := by
        by_contra hnot
        exact hd ⟨hloaded, hnot⟩
      rw [iteration_of_live hc hw hb hid hlive, iteration_of_live hc hw hb hid hlive]
    · rw [iteration_of_gap hw hloaded, iteration_of_gap hw hloaded]
  · rw [iteration_of_not_walking hw, iteration_of_not_walking hw]

theorem tradeBin_next (h : tradeBin c s b = .ok (.next t)) :
    t.current = s.current + stepOf c.swapForY ∧ t.crossed = s.crossed + 1 := by
  simp only [tradeBin, bind_eq_ok, require_eq_ok] at h
  obtain ⟨_, -, h⟩ := h
  split at h
  · cases h
    exact ⟨rfl, rfl⟩
  · cases h

theorem step_beyond (down : Bool) (i : ℤ) : StrictlyBeyond down i (i + stepOf down) := by
  cases down <;> simp [stepOf]

theorem exists_steps {down : Bool} {i j : ℤ} (h : Beyond down i j) :
    ∃ k : ℕ, j = i + k * stepOf down := by
  cases down with
  | true =>
      obtain ⟨k, hk⟩ := Int.eq_ofNat_of_zero_le (sub_nonneg.2 (beyond_true.1 h))
      exact ⟨k, by rw [← hk, stepOf, if_pos rfl]; ring⟩
  | false =>
      obtain ⟨k, hk⟩ := Int.eq_ofNat_of_zero_le (sub_nonneg.2 (beyond_false.1 h))
      exact ⟨k, by rw [← hk, stepOf, if_neg Bool.false_ne_true]; ring⟩

/-- A rule that never stays or turns back. -/
def Advances (c : DlmmSwap) (advance : ℤ → ℤ) : Prop :=
  ∀ i, StrictlyBeyond c.swapForY i (advance i)

theorem visitGap_next (h : visitGap c s = .ok (.next t)) :
    ¬ OutsideSpan c s.current ∧ t = { s with current := pastEdge c.swapForY (s.current / 70) } := by
  unfold visitGap at h
  split at h
  · split at h
    · cases h
    · rename_i hspan
      cases h
      exact ⟨hspan, rfl⟩
  · dsimp only at h
    split at h <;> cases h

theorem visitBin_next (hadv : Advances c advance) (h : visitBin advance c s = .ok (.next t)) :
    StrictlyBeyond c.swapForY s.current t.current := by
  unfold visitBin at h
  split at h
  · cases h
    exact hadv _
  · split at h
    · cases h
      exact hadv _
    · rw [(tradeBin_next h).1]
      exact step_beyond _ _

/-- Every iteration that goes on moves the bin id on. -/
theorem iteration_next (hadv : Advances c advance)
    (h : dlmmIteration advance c s = .ok (.next t)) :
    Walking s ∧ StrictlyBeyond c.swapForY s.current t.current := by
  by_cases hw : Walking s
  · refine ⟨hw, ?_⟩
    by_cases hloaded : s.current / 70 ∈ c.loaded
    · rw [iteration_of_loaded hw hloaded] at h
      exact visitBin_next hadv h
    · rw [iteration_of_gap hw hloaded] at h
      rw [(visitGap_next h).2]
      exact pastEdge_beyond _ _
  · rw [iteration_of_not_walking hw] at h
    cases h

/-- How many bin ids of the range are ahead. -/
def idsAhead (c : DlmmSwap) (s : DlmmState) : ℕ :=
  if c.swapForY then (s.current + 443637).toNat else (443637 - s.current).toNat

theorem idsAhead_lt (hw : Walking s) (h : StrictlyBeyond c.swapForY s.current t.current) :
    idsAhead c t < idsAhead c s := by
  obtain ⟨-, hlo, hhi⟩ := hw
  unfold idsAhead
  cases hd : c.swapForY <;> simp [hd] at h ⊢ <;> omega

/-- The walk comes to an end by itself. -/
theorem dlmmWalk_settles (hadv : Advances c advance) (hr : InRange s.current) :
    Settles (dlmmIteration advance c) dlmmFinish s (dlmmWalk advance c s) := by
  refine settles_of_variant (I := fun _ => True) (μ := idsAhead c) (fun u v _ hb => ?_) trivial ?_
  · obtain ⟨hw, hlt⟩ := iteration_next hadv hb
    exact ⟨trivial, idsAhead_lt hw hlt⟩
  · obtain ⟨hlo, hhi⟩ := hr
    unfold idsAhead walkFuel
    split <;> omega

end Step

/-! ### The plain walk -/

/-- Leaves an empty bin by one step. -/
def plainAdvance (c : DlmmSwap) (current : ℤ) : ℤ := current + stepOf c.swapForY

/-- The walk that visits every bin on its way. -/
def dlmmPlainSwapExactIn (pool : DlmmPool) (bins : List DlmmBin) (loadedArrays : List ℤ)
    (amount timestamp : ℤ) (swapForY supportOrders strict exhaustive : Bool) :
    Except DlmmError DlmmQuote := do
  let (c, s) ←
    dlmmPrepare pool bins loadedArrays amount timestamp swapForY supportOrders strict exhaustive
  dlmmWalk (plainAdvance c) c s

section Plain

variable {c : DlmmSwap} {s : DlmmState} {r : Except DlmmError DlmmQuote}

theorem plainAdvance_advances (c : DlmmSwap) : Advances c (plainAdvance c) :=
  fun i => step_beyond c.swapForY i

theorem advanceEmpty_advances (hc : c.Valid) : Advances c (advanceEmpty c) :=
  fun i => (advanceEmpty_spec hc i).1

/-- The bin id has not to enter the range yet. -/
def Entered (down : Bool) (current : ℤ) : Prop :=
  if down then current ≤ 443636 else -443636 ≤ current

theorem Entered.advance {down : Bool} {i j : ℤ} (h : Entered down i) (hij : Beyond down i j) :
    Entered down j := by
  cases down <;> simp [Entered] at h hij ⊢ <;> omega

/-- Once the range is left the walk stands still. -/
theorem settles_finish (hw : ¬ Walking s) {advance : ℤ → ℤ} :
    Settles (dlmmIteration advance c) dlmmFinish s (dlmmFinish s) :=
  settles_of_brk (iteration_of_not_walking hw)

theorem not_walking_beyond {i : ℤ} (he : Entered c.swapForY s.current)
    (hi : Beyond c.swapForY s.current i) (hw : ¬ Walking s) :
    ¬ Walking { s with current := i } := by
  rintro ⟨hr, hlo, hhi⟩
  refine hw ⟨hr, ?_⟩
  unfold InRange
  cases hd : c.swapForY <;> simp [Entered, hd] at he hi hlo hhi <;> omega

/-- The plain walk passes `k` dead bins without a trace. -/
theorem settles_of_dead (hc : c.Valid) (k : ℕ) (he : Entered c.swapForY s.current)
    (hdead : ∀ j : ℕ, j < k → Walking { s with current := s.current + j * stepOf c.swapForY } →
      DeadAt c (s.current + j * stepOf c.swapForY))
    (h : Settles (dlmmIteration (plainAdvance c) c) dlmmFinish
      { s with current := s.current + k * stepOf c.swapForY } r) :
    Settles (dlmmIteration (plainAdvance c) c) dlmmFinish s r := by
  induction k generalizing r with
  | zero => simpa using h
  | succ k ih =>
      refine ih (fun j hj => hdead j (by omega)) ?_
      set u : DlmmState := { s with current := s.current + k * stepOf c.swapForY } with hu
      have hsucc : u.current + stepOf c.swapForY =
          s.current + (k + 1 : ℕ) * stepOf c.swapForY := by
        rw [hu]
        push_cast
        ring
      by_cases hw : Walking u
      · refine (settles_of_next (iteration_of_dead hc hw (hdead k (by omega) hw))).2 ?_
        rw [plainAdvance, hsucc]
        exact h
      · have hbeyond : Beyond c.swapForY s.current u.current := by
          rw [hu]
          cases c.swapForY <;> simp [stepOf]
        have hstep : Beyond c.swapForY u.current (u.current + stepOf c.swapForY) :=
          (step_beyond _ _).beyond
        have hout := not_walking_beyond (he.advance hbeyond) hstep hw
        rw [hsucc] at hout
        rw [h.unique (settles_finish hout)]
        exact settles_finish hw

/-- A jump over dead bins is as many plain steps. -/
theorem settles_of_advanceEmpty (hc : c.Valid) (he : Entered c.swapForY s.current)
    (hd : DeadAt c s.current)
    (h : Settles (dlmmIteration (plainAdvance c) c) dlmmFinish
      { s with current := advanceEmpty c s.current } r) :
    Settles (dlmmIteration (plainAdvance c) c) dlmmFinish s r := by
  obtain ⟨hbeyond, hbetween⟩ := advanceEmpty_spec hc s.current
  obtain ⟨k, hk⟩ := exists_steps hbeyond.beyond
  rw [hk] at h
  refine settles_of_dead hc k he (fun j hj _ => ?_) h
  rcases j.eq_zero_or_pos with rfl | hpos
  · simpa using hd
  · obtain ⟨hdiv, hlive⟩ := hbetween (s.current + j * stepOf c.swapForY)
      (by cases c.swapForY <;> simp [stepOf] <;> omega)
      (by rw [hk]; cases c.swapForY <;> simp [stepOf] <;> omega)
    exact ⟨hdiv ▸ hd.1, hlive⟩

/-- The two walks settle alike. -/
theorem settles_plain (hc : c.Valid) (he : Entered c.swapForY s.current)
    (h : Settles (dlmmIteration (advanceEmpty c) c) dlmmFinish s r) :
    Settles (dlmmIteration (plainAdvance c) c) dlmmFinish s r := by
  induction hn : idsAhead c s using Nat.strong_induction_on generalizing s with
  | _ n ih =>
      subst hn
      by_cases hw : Walking s
      · by_cases hd : DeadAt c s.current
        · have hbeyond := (advanceEmpty_spec hc s.current).1
          rw [settles_of_next (iteration_of_dead hc hw hd)] at h
          refine settles_of_advanceEmpty hc he hd (ih _ ?_ ?_ h rfl)
          · exact idsAhead_lt hw hbeyond
          · exact he.advance hbeyond.beyond
        · have hsame : dlmmIteration (plainAdvance c) c s = dlmmIteration (advanceEmpty c) c s :=
            iteration_of_not_dead hc hd
          by_cases hnext : ∃ t, dlmmIteration (advanceEmpty c) c s = .ok (.next t)
          · obtain ⟨t, ht⟩ := hnext
            obtain ⟨-, hlt⟩ := iteration_next (advanceEmpty_advances hc) ht
            rw [settles_of_next ht] at h
            exact (settles_of_next (hsame.trans ht)).2
              (ih _ (idsAhead_lt hw hlt) (he.advance hlt.beyond) h rfl)
          · exact settles_of_same_end hsame (fun t ht => hnext ⟨t, ht⟩) h
      · rw [h.unique (settles_finish hw)]
        exact settles_finish hw

theorem InRange.entered {down : Bool} {i : ℤ} (h : InRange i) : Entered down i := by
  obtain ⟨hlo, hhi⟩ := h
  cases down <;> simpa [Entered]

/-- The walk that jumps gives what the plain walk gives. -/
theorem dlmmWalk_advanceEmpty (hc : c.Valid) (hr : InRange s.current) :
    dlmmWalk (advanceEmpty c) c s = dlmmWalk (plainAdvance c) c s :=
  (settles_plain hc hr.entered (dlmmWalk_settles (advanceEmpty_advances hc) hr)).unique
    (dlmmWalk_settles (plainAdvance_advances c) hr)

/-- The quote with the jump is the quote of the plain walk in every field, in every
mode, and so is the error with its partial quote. -/
theorem dlmmSwapExactIn_eq_plain (pool : DlmmPool) (bins : List DlmmBin) (loadedArrays : List ℤ)
    (amount timestamp : ℤ) (swapForY supportOrders strict exhaustive : Bool) :
    dlmmSwapExactIn pool bins loadedArrays amount timestamp swapForY supportOrders strict
        exhaustive =
      dlmmPlainSwapExactIn pool bins loadedArrays amount timestamp swapForY supportOrders strict
        exhaustive := by
  rw [dlmmSwapExactIn, dlmmPlainSwapExactIn]
  refine bind_congr_ok ?_
  rintro ⟨c, s⟩ hprep
  exact dlmmWalk_advanceEmpty (.of_prepare hprep) (inRange_of_prepare hprep)

end Plain

end SolTrade.Dlmm
