import SolTrade.Dlmm.Walk

/-!
Which arrays are loaded.

A strict quote looks at loaded arrays only, so more of them change nothing. An
exhaustive quote takes the arrays that are not loaded for empty ones, except
where the active bin is outside of the span of the loaded arrays and the swap
moves towards them.
-/

namespace SolTrade.Dlmm

open Library BoundedLoop

/-- The same swap with other arrays loaded. -/
def DlmmSwap.withArrays (c : DlmmSwap) (loaded : List ℤ) (byId : List DlmmBin) (liveIds : List ℤ) :
    DlmmSwap :=
  { c with loaded, byId, liveIds }

/-- More arrays, with the same bins in the old ones. -/
structure Extends (c : DlmmSwap) (loaded : List ℤ) (byId : List DlmmBin) (liveIds : List ℤ) :
    Prop where
  valid : c.Valid
  valid' : (c.withArrays loaded byId liveIds).Valid
  more : ∀ i ∈ c.loaded, i ∈ loaded
  same : ∀ b : DlmmBin, b.binId / 70 ∈ c.loaded → (b ∈ c.byId ↔ b ∈ byId)

/-! ### More arrays -/

section Extends

variable {c : DlmmSwap} {loaded : List ℤ} {byId : List DlmmBin} {liveIds : List ℤ}
  {s : DlmmState}

theorem Extends.lookup (he : Extends c loaded byId liveIds) (h : s.current / 70 ∈ c.loaded) :
    byId.find? (·.binId = s.current) = c.byId.find? (·.binId = s.current) := by
  ext b
  have hlookup : byId.find? (·.binId = s.current) = some b ↔ b ∈ byId ∧ b.binId = s.current :=
    he.valid'.lookup_eq_some
  rw [he.valid.lookup_eq_some]
  refine hlookup.trans ⟨?_, ?_⟩
  · rintro ⟨hb, hid⟩
    exact ⟨(he.same b (hid ▸ h)).2 hb, hid⟩
  · rintro ⟨hb, hid⟩
    exact ⟨(he.same b (hid ▸ h)).1 hb, hid⟩

/-- In a loaded array the walk does not see the others. -/
theorem Extends.visitBin (he : Extends c loaded byId liveIds) (h : s.current / 70 ∈ c.loaded)
    (advance : ℤ → ℤ) :
    visitBin advance (c.withArrays loaded byId liveIds) s = visitBin advance c s := by
  rw [Dlmm.visitBin, Dlmm.visitBin, ← he.lookup h]
  rfl

/-- A strict walk that does not fail is repeated. -/
theorem Extends.walk (he : Extends c loaded byId liveIds) (hx : c.exhaustive = false)
    (hstrict : c.strict = true) {q : DlmmQuote} (h : dlmmWalk (plainAdvance c) c s = .ok q) :
    dlmmWalk (plainAdvance c) (c.withArrays loaded byId liveIds) s = .ok q := by
  have hbody : ∀ u o, dlmmIteration (plainAdvance c) c u = .ok o →
      dlmmIteration (plainAdvance c) (c.withArrays loaded byId liveIds) u = .ok o := by
    intro u o hu
    by_cases hw : Walking u
    · by_cases hloaded : u.current / 70 ∈ c.loaded
      · rw [iteration_of_loaded hw hloaded] at hu
        rw [iteration_of_loaded hw (he.more _ hloaded), he.visitBin hloaded, hu]
      · rw [iteration_of_gap hw hloaded] at hu
        simp [visitGap, hx, hstrict] at hu
    · rw [iteration_of_not_walking hw] at hu ⊢
      exact hu
  refine run_simulation (R := fun u v => u = v) ?_ ?_ ?_ ?_ rfl h
  · rintro u _ u' n rfl hu -
    exact ⟨u', hbody u _ hu, rfl⟩
  · rintro u _ u' rfl hu hafter
    exact ⟨u', hbody u _ hu, hafter⟩
  · rintro u _ rfl hu
    exact hbody u _ hu
  · rintro u _ rfl hafter
    exact hafter

end Extends

section MoreArrays

variable {pool : DlmmPool} {bins bins' : List DlmmBin} {loadedArrays loadedArrays' : List ℤ}
  {amount timestamp : ℤ} {swapForY supportOrders strict exhaustive : Bool} {q : DlmmQuote}

/-- A strict quote does not depend on what else is loaded: it is the quote with
any further arrays that leave the bins of the loaded ones as they are. -/
theorem dlmmSwapExactIn_more_arrays
    (h : dlmmSwapExactIn pool bins loadedArrays amount timestamp swapForY supportOrders true false =
      .ok q)
    (hloaded : checkLoaded [] loadedArrays' = .ok ())
    (hbins : checkBins loadedArrays' [] bins' = .ok ())
    (hmore : ∀ i ∈ loadedArrays, i ∈ loadedArrays')
    (hsame : ∀ b : DlmmBin, b.binId / 70 ∈ loadedArrays → (b ∈ bins ↔ b ∈ bins')) :
    dlmmSwapExactIn pool bins' loadedArrays' amount timestamp swapForY supportOrders true false =
      .ok q := by
  obtain ⟨⟨c, s⟩, hprep, hwalk⟩ := bind_eq_ok.1 h
  obtain ⟨hpool, -, -, hc, hs⟩ := dlmmPrepare_eq_ok.1 hprep
  have hvalid := DlmmSwap.Valid.of_prepare hprep
  have hrange := inRange_of_prepare hprep
  have hprep' : dlmmPrepare pool bins' loadedArrays' amount timestamp swapForY supportOrders true
      false = .ok (c.withArrays loadedArrays' (bins'.filter (·.price ≠ 0))
        ((((bins'.filter (·.price ≠ 0)).filter (isLive swapForY supportOrders)).map
          (·.binId)).insertionSort (· ≤ ·)), s) := by
    refine dlmmPrepare_eq_ok.2 ⟨hpool, hloaded, hbins, ?_, hs⟩
    rw [hc]
    rfl
  have he : Extends c loadedArrays' (bins'.filter (·.price ≠ 0))
      ((((bins'.filter (·.price ≠ 0)).filter (isLive swapForY supportOrders)).map
        (·.binId)).insertionSort (· ≤ ·)) := by
    refine ⟨hvalid, DlmmSwap.Valid.of_prepare hprep', ?_, ?_⟩
    · rw [hc]
      exact hmore
    · intro b hb
      rw [hc] at hb ⊢
      simp only [List.mem_filter, hsame b hb]
  have hplain := he.walk (by rw [hc]) (by rw [hc])
    ((dlmmWalk_advanceEmpty hvalid hrange).symm.trans hwalk)
  rw [dlmmSwapExactIn, hprep', ok_bind]
  exact (dlmmWalk_advanceEmpty he.valid' hrange).trans hplain

end MoreArrays

/-- Further arrays before and behind the loaded one. -/
theorem dlmmSwapExactIn_more_arrays_around :
    dlmmSwapExactIn ⟨75, 25, 0, ⟨10, 0, 0, 0, 0, 0, 0⟩, ⟨0, 0, 75, 0⟩⟩
        [⟨-3, 0, 500, q64, 0, 0, 0⟩, ⟨72, 0, 1000, q64, 0, 0, 0⟩, ⟨150, 70, 0, q64, 0, 0, 0⟩]
        [-1, 1, 2] 100 0 true false true false = .ok ⟨99, 0, 1, true, none⟩ := by
  have h : dlmmSwapExactIn ⟨75, 25, 0, ⟨10, 0, 0, 0, 0, 0, 0⟩, ⟨0, 0, 75, 0⟩⟩
      [⟨72, 0, 1000, q64, 0, 0, 0⟩] [1] 100 0 true false true false =
        .ok ⟨99, 0, 1, true, none⟩ := by decide +kernel
  refine dlmmSwapExactIn_more_arrays h (by decide) (by decide) (by decide) fun b hb => ?_
  simp only [List.mem_cons, List.not_mem_nil, or_false] at hb ⊢
  refine ⟨fun h => .inr (.inl h), ?_⟩
  rintro (rfl | rfl | rfl)
  · exact absurd hb (by decide)
  · rfl
  · exact absurd hb (by decide)

/-! ### Exhaustive quotes -/

/-- Every array that holds bins of the range, once. -/
def AllArrays (arrays : List ℤ) : Prop := arrays.Nodup ∧ ∀ i, i ∈ arrays ↔ IsArray i

/-- The same swap with every array loaded, in any mode. -/
def DlmmSwap.withAll (c : DlmmSwap) (all : List ℤ) (strict exhaustive : Bool) : DlmmSwap :=
  { c with loaded := all, strict, exhaustive }

/-- The bin id is outside of the span, on the side from which the swap moves
towards it. -/
def Approaches (loaded : List ℤ) (down : Bool) (current : ℤ) : Prop :=
  if down then (loadedSpan loaded).2 < current else current < (loadedSpan loaded).1

instance (loaded : List ℤ) (down : Bool) (current : ℤ) :
    Decidable (Approaches loaded down current) :=
  inferInstanceAs (Decidable (if down then _ else _))

section Span

variable {c : DlmmSwap} {loaded : List ℤ} {i j current : ℤ} {down : Bool}

theorem isArray_of_inRange (h : InRange i) : IsArray (i / 70) := by
  unfold InRange at h
  unfold IsArray
  omega

theorem loadedSpan_spec (h : i / 70 ∈ loaded) :
    (loadedSpan loaded).1 ≤ i ∧ i ≤ (loadedSpan loaded).2 := by
  have hne : loaded ≠ [] := List.ne_nil_of_mem h
  obtain ⟨low, hlow⟩ := List.isSome_min?_of_ne_nil hne |> Option.isSome_iff_exists.1
  obtain ⟨high, hhigh⟩ := List.isSome_max?_of_ne_nil hne |> Option.isSome_iff_exists.1
  have h₁ := (List.min?_eq_some_iff.1 hlow).2 _ h
  have h₂ := (List.max?_eq_some_iff.1 hhigh).2 _ h
  simp only [loadedSpan, hlow, hhigh]
  omega

theorem Approaches.of_beyond (h : Approaches loaded down j) (hij : Beyond down i j) :
    Approaches loaded down i := by
  cases down <;> simp [Approaches] at h hij ⊢ <;> omega

theorem DlmmSwap.Valid.live_loaded (hc : c.Valid) (h : LiveAt c i) : i / 70 ∈ c.loaded := by
  obtain ⟨b, hb, rfl, -⟩ := h
  exact hc.bin_loaded b hb

theorem DlmmSwap.Valid.live_inRange (hc : c.Valid) (h : LiveAt c i) : InRange i := by
  obtain ⟨b, hb, rfl, -⟩ := h
  exact hc.bin_range b hb

/-- Outside of the span nothing is ahead, unless the swap moves towards it. -/
theorem not_live_ahead (hc : c.Valid) (hspan : OutsideSpan c current)
    (haway : ¬ Approaches c.loaded c.swapForY current) (hij : Beyond c.swapForY current i) :
    ¬ LiveAt c i := by
  intro hlive
  obtain ⟨h₁, h₂⟩ := loadedSpan_spec (hc.live_loaded hlive)
  unfold OutsideSpan at hspan
  cases hd : c.swapForY <;> simp [Approaches, hd] at haway hij <;> omega

theorem Approaches.outsideSpan (h : Approaches c.loaded down current) : OutsideSpan c current := by
  unfold OutsideSpan
  cases down <;> simp [Approaches] at h <;> omega

theorem Approaches.not_loaded (h : Approaches loaded down i) : i / 70 ∉ loaded := by
  intro hloaded
  obtain ⟨h₁, h₂⟩ := loadedSpan_spec hloaded
  cases down <;> simp [Approaches] at h <;> omega

/-- From outside of the span, the live bins are ahead of a swap that moves towards
it. -/
theorem Approaches.beyond (h : Approaches loaded down i) (hj : j / 70 ∈ loaded) :
    Beyond down i j := by
  obtain ⟨h₁, h₂⟩ := loadedSpan_spec hj
  cases down <;> simp [Approaches] at h ⊢ <;> omega

end Span

section Exhaustive

variable {c : DlmmSwap} {all : List ℤ} {strict exhaustive : Bool} {s t : DlmmState}
  {r : Except DlmmError DlmmQuote}

theorem DlmmSwap.Valid.withAll (hc : c.Valid) (hall : AllArrays all) (strict exhaustive : Bool) :
    (c.withAll all strict exhaustive).Valid :=
  { arrays := fun i hi => (hall.2 i).1 hi
    distinct := hc.distinct
    bin_range := hc.bin_range
    bin_loaded := fun b hb => (hall.2 _).2 (isArray_of_inRange (hc.bin_range b hb))
    liveIds_eq := hc.liveIds_eq }

/-- The plain walk with every array loaded. -/
abbrev fullIteration (c : DlmmSwap) (all : List ℤ) (strict exhaustive : Bool) :
    DlmmState → Except DlmmError (Flow DlmmState DlmmQuote) :=
  dlmmIteration (plainAdvance c) (c.withAll all strict exhaustive)

/-- Through bins without liquidity the full walk passes without a trace. -/
theorem full_of_dead (hc : c.Valid) (hall : AllArrays all) (k : ℕ)
    (he : Entered c.swapForY s.current)
    (hdead : ∀ j : ℕ, j < k → ¬ LiveAt c (s.current + j * stepOf c.swapForY))
    (h : Settles (fullIteration c all strict exhaustive) dlmmFinish
      { s with current := s.current + k * stepOf c.swapForY } r) :
    Settles (fullIteration c all strict exhaustive) dlmmFinish s r :=
  settles_of_dead (hc.withAll hall strict exhaustive) k he
    (fun j hj hw => ⟨(hall.2 _).2 (isArray_of_inRange hw.2), hdead j hj⟩) h

/-- With nothing ahead the full walk comes to the end of the range. -/
theorem full_of_none_ahead (hc : c.Valid) (hall : AllArrays all)
    (he : Entered c.swapForY s.current)
    (hnone : ∀ i, Beyond c.swapForY s.current i → ¬ LiveAt c i) :
    Settles (fullIteration c all strict exhaustive) dlmmFinish s (dlmmFinish s) := by
  refine full_of_dead hc hall (idsAhead c s) he (fun j _ => hnone _ ?_)
    (settles_finish (s := { s with current := s.current + idsAhead c s * stepOf c.swapForY }) ?_)
  · cases c.swapForY <;> simp [stepOf]
  · rintro ⟨-, hlo, hhi⟩
    unfold idsAhead stepOf at hlo hhi
    cases hd : c.swapForY <;> simp [hd] at hlo hhi <;> omega

/-- An exhaustive walk that does not move towards the loaded arrays from outside
of their span settles on what the full walk settles on. -/
theorem settles_full (hc : c.Valid) (hall : AllArrays all) (hx : c.exhaustive = true)
    (he : Entered c.swapForY s.current)
    (hnot : ¬ (Approaches c.loaded c.swapForY s.current ∧ ∃ i, LiveAt c i))
    (h : Settles (dlmmIteration (plainAdvance c) c) dlmmFinish s r) :
    Settles (fullIteration c all strict exhaustive) dlmmFinish s r := by
  induction hn : idsAhead c s using Nat.strong_induction_on generalizing s with
  | _ n ih =>
      subst hn
      have hrest : ∀ t, StrictlyBeyond c.swapForY s.current t.current → Walking s →
          Settles (dlmmIteration (plainAdvance c) c) dlmmFinish t r →
          Settles (fullIteration c all strict exhaustive) dlmmFinish t r := fun t hlt hw ht =>
        ih _ (idsAhead_lt hw hlt) (he.advance hlt.beyond)
          (fun h => hnot ⟨h.1.of_beyond hlt.beyond, h.2⟩) ht rfl
      by_cases hw : Walking s
      · have hmem : s.current / 70 ∈ all := (hall.2 _).2 (isArray_of_inRange hw.2)
        by_cases hloaded : s.current / 70 ∈ c.loaded
        · have hsame : fullIteration c all strict exhaustive s =
              dlmmIteration (plainAdvance c) c s := by
            rw [fullIteration, iteration_of_loaded hw hloaded]
            exact iteration_of_loaded hw hmem
          by_cases hnext : ∃ t, dlmmIteration (plainAdvance c) c s = .ok (.next t)
          · obtain ⟨t, ht⟩ := hnext
            obtain ⟨-, hlt⟩ := iteration_next (plainAdvance_advances c) ht
            exact (settles_of_next (hsame.trans ht)).2
              (hrest t hlt hw ((settles_of_next ht).1 h))
          · exact settles_of_same_end hsame (fun t ht => hnext ⟨t, ht⟩) h
        · have hgap : dlmmIteration (plainAdvance c) c s = visitGap c s :=
            iteration_of_gap hw hloaded
          rw [visitGap, if_pos hx] at hgap
          by_cases hspan : OutsideSpan c s.current
          · rw [if_pos hspan] at hgap
            rw [h.unique (settles_of_brk hgap)]
            refine full_of_none_ahead hc hall he fun i hi hlive => ?_
            exact not_live_ahead hc hspan (fun ha => hnot ⟨ha, i, hlive⟩) hi hlive
          · -- a gap is passed in one go, bin by bin in the full walk
            rw [if_neg hspan] at hgap
            have hbeyond := pastEdge_beyond c.swapForY s.current
            have hedge := hrest _ hbeyond hw ((settles_of_next hgap).1 h)
            obtain ⟨k, hk⟩ := exists_steps hbeyond.beyond
            rw [hk] at hedge
            refine full_of_dead hc hall k he (fun j hj hlive => hloaded ?_) hedge
            have hdiv : (s.current + j * stepOf c.swapForY) / 70 = s.current / 70 := by
              rcases j.eq_zero_or_pos with rfl | hpos
              · simp
              · have hlt : StrictlyBeyond c.swapForY s.current
                    (s.current + j * stepOf c.swapForY) := by
                  cases c.swapForY <;> simp [stepOf] <;> omega
                refine div_of_before_pastEdge hlt (hk ▸ ?_)
                cases c.swapForY <;> simp [stepOf] <;> omega
            exact hdiv ▸ hc.live_loaded hlive
      · rw [h.unique (settles_finish hw)]
        exact settles_finish hw

end Exhaustive

/-! ### Stranded swaps -/

section Stranded

variable {c : DlmmSwap} {all : List ℤ} {strict exhaustive : Bool} {s t : DlmmState} {b : DlmmBin}
  {q : DlmmQuote}

theorem tradeBin_ret (h : tradeBin c s b = .ok (.ret q)) :
    q.remainingIn = 0 ∧ q.binsCrossed = s.crossed + 1 := by
  simp only [tradeBin, bind_eq_ok, require_eq_ok] at h
  obtain ⟨_, -, h⟩ := h
  split at h
  · cases h
  · cases h
    exact ⟨rfl, rfl⟩

theorem tradeBin_brk : tradeBin c s b ≠ .ok (.brk t) := by
  intro h
  simp only [tradeBin, bind_eq_ok, require_eq_ok] at h
  obtain ⟨_, -, h⟩ := h
  split at h <;> cases h

/-- The bins crossed are counted up, and one more is reported. -/
theorem full_crossed (hall : AllArrays all) :
    (fullIteration c all strict exhaustive s = .ok (.next t) → s.crossed ≤ t.crossed) ∧
      (fullIteration c all strict exhaustive s = .ok (.ret q) → q.binsCrossed = s.crossed + 1) ∧
      (fullIteration c all strict exhaustive s = .ok (.brk t) → t = s) := by
  by_cases hw : Walking s
  · have hmem : s.current / 70 ∈ all := (hall.2 _).2 (isArray_of_inRange hw.2)
    rw [fullIteration, iteration_of_loaded hw hmem, visitBin]
    split
    · refine ⟨fun h => ?_, fun h => ?_, fun h => ?_⟩ <;> cases h
      exact le_rfl
    · split
      · refine ⟨fun h => ?_, fun h => ?_, fun h => ?_⟩ <;> cases h
        exact le_rfl
      · refine ⟨fun h => ?_, fun h => (tradeBin_ret h).2, fun h => absurd h tradeBin_brk⟩
        have := (tradeBin_next h).2
        omega
  · rw [fullIteration, iteration_of_not_walking hw]
    refine ⟨fun h => ?_, fun h => ?_, fun h => ?_⟩ <;> cases h
    rfl

/-- The quote of a full walk reports more bins than it started with. -/
theorem full_binsCrossed (hall : AllArrays all)
    (h : Settles (fullIteration c all strict exhaustive) dlmmFinish s (.ok q)) :
    s.crossed + 1 ≤ q.binsCrossed := by
  obtain ⟨n, hn⟩ := h
  obtain ⟨t, ht, hexit⟩ := run_ok (hn n le_rfl)
  have hle : s.crossed ≤ t.crossed := ht.invariant (I := fun u => s.crossed ≤ u.crossed)
    (fun u v hu hb => hu.trans ((full_crossed (q := q) hall).1 hb)) le_rfl
  have hfinish : ∀ u, dlmmFinish u = .ok q → q.binsCrossed = u.crossed + 1 := by
    intro u hu
    cases hu
    rfl
  rcases hexit with hret | ⟨u, hbrk, hu⟩ | ⟨-, ha⟩
  · have := (full_crossed (t := t) hall).2.1 hret
    omega
  · have := hfinish u hu
    rw [(full_crossed (q := q) hall).2.2 hbrk] at this
    omega
  · have := hfinish t ha
    omega

/-- What the claim about a quote compares. -/
def figures (q : DlmmQuote) : ℤ × ℤ × ℤ := (q.amountOut, q.remainingIn, q.binsCrossed)

/-- A full walk that comes to a live bin differs from one that ends before. -/
theorem full_ne_of_live (hc : c.Valid) (hall : AllArrays all) (hw : Walking s)
    (hlive : LiveAt c s.current) {r : Except DlmmError DlmmQuote}
    (h : Settles (fullIteration c all strict exhaustive) dlmmFinish s r) :
    r.map figures ≠ (dlmmFinish s).map figures := by
  obtain ⟨b, hb, hid, hlive⟩ := hlive
  have hbody : fullIteration c all strict exhaustive s =
      tradeBin (c.withAll all strict exhaustive) s b :=
    iteration_of_live (hc.withAll hall strict exhaustive) hw hb hid hlive
  intro heq
  cases r with
  | error e => cases heq
  | ok q =>
      have hfields : figures q = (s.total, s.remaining, s.crossed + 1) := by
        simpa [Except.map, dlmmFinish, figures] using heq
      simp only [figures, Prod.mk.injEq] at hfields
      obtain ⟨-, hremaining, hcrossed⟩ := hfields
      cases hout : tradeBin (c.withAll all strict exhaustive) s b with
      | error e =>
          obtain ⟨n, hn⟩ := h
          have := hn (n + 1) (by omega)
          simp [run, hbody, hout] at this
      | ok o =>
          rw [hout] at hbody
          cases o with
          | next t =>
              have hle := full_binsCrossed hall ((settles_of_next hbody).1 h)
              have := (tradeBin_next hout).2
              omega
          | brk t => exact tradeBin_brk hout
          | ret q' =>
              obtain ⟨n, hn⟩ := h
              have := hn (n + 1) (by omega)
              simp only [run, hbody, Except.ok.injEq] at this
              subst this
              exact hw.1 (hremaining.symm.trans (tradeBin_ret hout).1)

/-- A swap that starts outside of the span and moves towards a live bin differs
from the full walk. -/
theorem full_ne_of_stranded (hc : c.Valid) (hall : AllArrays all) (hw : Walking s)
    (happ : Approaches c.loaded c.swapForY s.current) (hlive : ∃ i, LiveAt c i)
    {r : Except DlmmError DlmmQuote}
    (h : Settles (fullIteration c all strict exhaustive) dlmmFinish s r) :
    r.map figures ≠ (dlmmFinish s).map figures := by
  classical
  obtain ⟨i, hi⟩ := hlive
  have hsome : ∃ k : ℕ, LiveAt c (s.current + k * stepOf c.swapForY) := by
    obtain ⟨k, hk⟩ := exists_steps (happ.beyond (hc.live_loaded hi))
    exact ⟨k, hk ▸ hi⟩
  -- the live bin met first
  obtain ⟨k, hk, hfirst⟩ : ∃ k : ℕ, LiveAt c (s.current + k * stepOf c.swapForY) ∧
      ∀ j : ℕ, j < k → ¬ LiveAt c (s.current + j * stepOf c.swapForY) :=
    ⟨Nat.find hsome, Nat.find_spec hsome, fun j hj => Nat.find_min hsome hj⟩
  have hrange := hc.live_inRange hk
  have hrest : Settles (fullIteration c all strict exhaustive) dlmmFinish
      { s with current := s.current + k * stepOf c.swapForY }
      (dlmmWalk (plainAdvance c) (c.withAll all strict exhaustive)
        { s with current := s.current + k * stepOf c.swapForY }) :=
    dlmmWalk_settles (plainAdvance_advances c) hrange
  have hsame := full_of_dead hc hall k hw.2.entered hfirst hrest
  rw [h.unique hsame]
  exact full_ne_of_live (s := { s with current := s.current + k * stepOf c.swapForY }) hc hall
    ⟨hw.1, hrange⟩ hk hrest

end Stranded

section ExhaustiveQuote

variable {pool : DlmmPool} {bins : List DlmmBin} {loadedArrays all : List ℤ}
  {amount timestamp : ℤ} {swapForY supportOrders strict strict' exhaustive' : Bool}
  {c : DlmmSwap} {s : DlmmState}

/-- The active bin is outside of the span of the loaded arrays, and the swap moves
towards a live bin. -/
def Stranded (pool : DlmmPool) (bins : List DlmmBin) (loadedArrays : List ℤ) (amount : ℤ)
    (swapForY supportOrders : Bool) : Prop :=
  amount ≠ 0 ∧ Approaches loadedArrays swapForY pool.activeId ∧
    ∃ b ∈ bins, isLive swapForY supportOrders b = true

/-- A bin without a price has nothing to take. -/
theorem price_ne_zero_of_isLive {b : DlmmBin} (hb : checkBin b = .ok ())
    (hlive : isLive swapForY supportOrders b = true) : b.price ≠ 0 := by
  intro hprice
  simp only [checkBin, bind_eq_ok, require_eq_ok] at hb
  obtain ⟨_, -, _, -, _, -, _, -, _, -, _, -, hzero⟩ := hb
  obtain ⟨hx, hy, hopen, hprocessed⟩ := hzero hprice
  cases swapForY <;> simp [isLive, reserve, hx, hy, hopen, hprocessed] at hlive

theorem stranded_iff
    (hprep : dlmmPrepare pool bins loadedArrays amount timestamp swapForY supportOrders strict
      true = .ok (c, s)) :
    Stranded pool bins loadedArrays amount swapForY supportOrders ↔
      Walking s ∧ Approaches c.loaded c.swapForY s.current ∧ ∃ i, LiveAt c i := by
  have hrange := inRange_of_prepare hprep
  obtain ⟨-, -, hbins, rfl, rfl⟩ := dlmmPrepare_eq_ok.1 hprep
  have hall := (checkBins_eq_ok.1 hbins).2
  constructor
  · rintro ⟨hamount, happ, b, hb, hlive⟩
    have hprice := price_ne_zero_of_isLive (hall b hb).2.2.2 hlive
    exact ⟨⟨hamount, hrange⟩, happ, b.binId, b, by simp [hb, hprice], rfl, hlive⟩
  · rintro ⟨⟨hamount, -⟩, happ, i, b, hb, -, hlive⟩
    exact ⟨hamount, happ, b, List.mem_of_mem_filter hb, hlive⟩

/-- The full walk is prepared where the exhaustive one is. -/
theorem dlmmPrepare_withAll (hall : AllArrays all)
    (hprep : dlmmPrepare pool bins loadedArrays amount timestamp swapForY supportOrders strict
      true = .ok (c, s)) :
    dlmmPrepare pool bins all amount timestamp swapForY supportOrders strict' exhaustive' =
      .ok (c.withAll all strict' exhaustive', s) := by
  obtain ⟨hpool, -, hbins, rfl, rfl⟩ := dlmmPrepare_eq_ok.1 hprep
  obtain ⟨hnodup, hbin⟩ := checkBins_eq_ok.1 hbins
  refine dlmmPrepare_eq_ok.2 ⟨hpool, ?_, ?_, rfl, rfl⟩
  · exact checkLoaded_eq_ok.2 ⟨hall.1, fun i hi => ⟨List.not_mem_nil, (hall.2 i).1 hi⟩⟩
  · refine checkBins_eq_ok.2 ⟨hnodup, fun b hb => ?_⟩
    obtain ⟨hseen, hrange, -, hcheck⟩ := hbin b hb
    exact ⟨hseen, hrange, (hall.2 _).2 (isArray_of_inRange hrange), hcheck⟩

/-- When the exhaustive quote is the quote with every other array loaded and empty:
exactly when the swap is not stranded. -/
theorem dlmmSwapExactIn_exhaustive (hall : AllArrays all)
    (hprep : dlmmPrepare pool bins loadedArrays amount timestamp swapForY supportOrders strict
      true = .ok (c, s)) :
    (dlmmSwapExactIn pool bins loadedArrays amount timestamp swapForY supportOrders strict
        true).map figures =
      (dlmmSwapExactIn pool bins all amount timestamp swapForY supportOrders strict'
        exhaustive').map figures ↔
    ¬ Stranded pool bins loadedArrays amount swapForY supportOrders := by
  have hc := DlmmSwap.Valid.of_prepare hprep
  have hrange := inRange_of_prepare hprep
  have hx : c.exhaustive = true := by
    obtain ⟨-, -, -, rfl, -⟩ := dlmmPrepare_eq_ok.1 hprep
    rfl
  have hfull : Settles (fullIteration c all strict' exhaustive') dlmmFinish s
      (dlmmWalk (plainAdvance c) (c.withAll all strict' exhaustive') s) :=
    dlmmWalk_settles (plainAdvance_advances c) hrange
  have hexhaustive := dlmmWalk_settles (plainAdvance_advances c) hrange
  have hplain : dlmmWalk (advanceEmpty (c.withAll all strict' exhaustive'))
      (c.withAll all strict' exhaustive') s =
        dlmmWalk (plainAdvance c) (c.withAll all strict' exhaustive') s :=
    dlmmWalk_advanceEmpty (hc.withAll hall _ _) hrange
  rw [stranded_iff hprep, dlmmSwapExactIn, hprep, ok_bind, dlmmSwapExactIn,
    dlmmPrepare_withAll hall hprep, ok_bind]
  change (dlmmWalk (advanceEmpty c) c s).map figures =
    (dlmmWalk (advanceEmpty (c.withAll all strict' exhaustive'))
      (c.withAll all strict' exhaustive') s).map figures ↔ _
  rw [dlmmWalk_advanceEmpty hc hrange, hplain]
  constructor
  · rintro heq ⟨hw, happ, hlive⟩
    have hbrk : dlmmIteration (plainAdvance c) c s = .ok (.brk s) := by
      rw [iteration_of_gap hw happ.not_loaded, visitGap, if_pos hx, if_pos happ.outsideSpan]
    rw [hexhaustive.unique (settles_of_brk hbrk)] at heq
    exact full_ne_of_stranded hc hall hw happ hlive hfull heq.symm
  · intro hnot
    by_cases hw : Walking s
    · have hsettles : Settles (fullIteration c all strict' exhaustive') dlmmFinish s
          (dlmmWalk (plainAdvance c) c s) :=
        settles_full hc hall hx hrange.entered (fun h => hnot ⟨hw, h.1, h.2⟩) hexhaustive
      exact congrArg _ (hsettles.unique hfull)
    · rw [hexhaustive.unique (settles_finish hw), hfull.unique (settles_finish hw)]

end ExhaustiveQuote

/-- The list of all arrays. -/
def everyArray : List ℤ := (List.range 12676).map fun n : ℕ => (n : ℤ) - 6338

theorem everyArray_all : AllArrays everyArray := by
  have hinj : Function.Injective fun n : ℕ => (n : ℤ) - 6338 := fun a b h => by
    have h : (a : ℤ) - 6338 = b - 6338 := h
    omega
  refine ⟨?_, fun i => ?_⟩
  · rw [everyArray]
    exact List.Nodup.map hinj List.nodup_range
  · simp only [everyArray, List.mem_map, List.mem_range, IsArray]
    constructor
    · rintro ⟨n, hn, rfl⟩
      omega
    · rintro ⟨h₁, h₂⟩
      exact ⟨(i + 6338).toNat, by omega, by omega⟩

/-- A pool with a step of a quarter of a percent and no fee. -/
def freePool (activeId : ℤ) : DlmmPool :=
  ⟨activeId, 25, 0, ⟨0, 0, 0, 0, 0, 0, 0⟩, ⟨0, 0, activeId, 0⟩⟩

/-- Inside of the span a gap is passed. -/
theorem dlmmSwapExactIn_exhaustive_gap :
    (dlmmSwapExactIn (freePool 145) [⟨5, 0, 1000, q64, 0, 0, 0⟩] [0, 2] 100 0 true false true
        true).map figures =
      (dlmmSwapExactIn (freePool 145) [⟨5, 0, 1000, q64, 0, 0, 0⟩] everyArray 100 0 true false true
        false).map figures := by
  obtain ⟨⟨c, s⟩, hprep⟩ : ∃ cs, dlmmPrepare (freePool 145) [⟨5, 0, 1000, q64, 0, 0, 0⟩] [0, 2]
      100 0 true false true true = .ok cs :=
    exists_of_isOk (by decide +kernel)
  exact (dlmmSwapExactIn_exhaustive everyArray_all hprep).2 fun h => absurd h.2.1 (by decide)

/-- The active bin is in the array above the loaded one, and the swap moves down:
the exhaustive quote finds nothing, while the liquidity is there. -/
theorem dlmmSwapExactIn_exhaustive_stranded :
    dlmmSwapExactIn (freePool 75) [⟨5, 0, 1000, q64, 0, 0, 0⟩] [0] 100 0 true false true true =
        .ok ⟨0, 100, 1, true, none⟩ ∧
      dlmmSwapExactIn (freePool 75) [⟨5, 0, 1000, q64, 0, 0, 0⟩] everyArray 100 0 true false true
        false = .ok ⟨100, 0, 1, true, none⟩ := by
  refine ⟨by decide +kernel, ?_⟩
  obtain ⟨⟨c, s⟩, hprep⟩ : ∃ cs, dlmmPrepare (freePool 75) [⟨5, 0, 1000, q64, 0, 0, 0⟩] [0]
      100 0 true false true true = .ok cs :=
    exists_of_isOk (by decide +kernel)
  rw [dlmmSwapExactIn, dlmmPrepare_withAll everyArray_all hprep, ok_bind]
  obtain ⟨-, -, -, rfl, rfl⟩ := dlmmPrepare_eq_ok.1 hprep
  decide +kernel

end SolTrade.Dlmm
