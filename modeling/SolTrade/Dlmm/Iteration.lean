import SolTrade.Dlmm.Swap
import SolTrade.Library.Direction

/-!
What one iteration of the DLMM walk can do.

An iteration either ends the walk, trades in a live bin, or passes over bins
without liquidity. The liveness test that collects the ids agrees with the tiers
that the walk looks at, so that the jump of `advanceEmpty` passes dead bins only.
-/

namespace SolTrade.Dlmm

open Library BoundedLoop

/-! ### The values fixed before the walk -/

/-- An array that holds bin ids of the range. -/
def IsArray (i : ℤ) : Prop := i * 70 ≤ 443636 ∧ -443636 < (i + 1) * 70

instance (i : ℤ) : Decidable (IsArray i) := inferInstanceAs (Decidable (_ ∧ _))

/-- What the checks before the walk establish. -/
structure DlmmSwap.Valid (c : DlmmSwap) : Prop where
  arrays : ∀ i ∈ c.loaded, IsArray i
  distinct : (c.byId.map (·.binId)).Nodup
  bin_range : ∀ b ∈ c.byId, InRange b.binId
  bin_loaded : ∀ b ∈ c.byId, b.binId / 70 ∈ c.loaded
  liveIds_eq : c.liveIds =
    ((c.byId.filter (isLive c.swapForY c.supportOrders)).map (·.binId)).insertionSort (· ≤ ·)

section Prepare

variable {pool : DlmmPool} {bins : List DlmmBin} {loadedArrays : List ℤ} {amount timestamp : ℤ}
  {swapForY supportOrders strict exhaustive : Bool} {c : DlmmSwap} {s : DlmmState}

theorem checkLoaded_eq_ok {seen arrays : List ℤ} {u : Unit} :
    checkLoaded seen arrays = .ok u ↔
      arrays.Nodup ∧ ∀ i ∈ arrays, i ∉ seen ∧ IsArray i := by
  induction arrays generalizing seen with
  | nil => simp [checkLoaded]
  | cons i rest ih =>
      have hsint : IsArray i → sint i 64 = .ok () := fun h => require_of (by
        unfold IsArray at h
        omega)
      simp only [checkLoaded, bind_eq_ok, require_eq_ok, ih, List.nodup_cons, List.mem_cons,
        forall_eq_or_imp, not_or]
      constructor
      · rintro ⟨_, -, _, ⟨hi, hhi, hlo⟩, hnodup, hrest⟩
        refine ⟨⟨fun hmem => (hrest i hmem).1.1 rfl, hnodup⟩,
          ⟨hi, by unfold IsArray; omega⟩, fun j hj => ⟨(hrest j hj).1.2, (hrest j hj).2⟩⟩
      · rintro ⟨⟨hi, hnodup⟩, ⟨hseen, harray⟩, hrest⟩
        refine ⟨(), hsint harray, (), ⟨hseen, ?_, ?_⟩, hnodup, fun j hj => ?_⟩
        · exact not_lt.2 harray.1
        · exact not_le.2 harray.2
        · exact ⟨⟨fun h => hi (h ▸ hj), (hrest j hj).1⟩, (hrest j hj).2⟩

theorem checkBins_eq_ok {loaded seen : List ℤ} {bins : List DlmmBin} {u : Unit} :
    checkBins loaded seen bins = .ok u ↔
      (bins.map (·.binId)).Nodup ∧ ∀ b ∈ bins, b.binId ∉ seen ∧ InRange b.binId ∧
        b.binId / 70 ∈ loaded ∧ checkBin b = .ok () := by
  induction bins generalizing seen with
  | nil => simp [checkBins]
  | cons b rest ih =>
      have hsint : InRange b.binId → sint b.binId 32 = .ok () := fun h => require_of (by
        unfold InRange at h
        omega)
      simp only [checkBins, bind_eq_ok, require_eq_ok, ih, List.map_cons, List.nodup_cons,
        List.mem_cons, forall_eq_or_imp, not_or, List.mem_map, not_exists, not_and]
      constructor
      · rintro ⟨_, -, _, ⟨hrange, hseen, hloaded⟩, _, hbin, hnodup, hrest⟩
        exact ⟨⟨fun d hd => (hrest d hd).1.1, hnodup⟩, ⟨hseen, hrange, hloaded, hbin⟩,
          fun d hd => ⟨(hrest d hd).1.2, (hrest d hd).2⟩⟩
      · rintro ⟨⟨hb, hnodup⟩, ⟨hseen, hrange, hloaded, hbin⟩, hrest⟩
        exact ⟨(), hsint hrange, (), ⟨hrange, hseen, hloaded⟩, (), hbin, hnodup,
          fun d hd => ⟨⟨hb d hd, (hrest d hd).1⟩, (hrest d hd).2⟩⟩

theorem dlmmPrepare_eq_ok :
    dlmmPrepare pool bins loadedArrays amount timestamp swapForY supportOrders strict exhaustive =
        .ok (c, s) ↔
      checkPool pool amount timestamp = .ok () ∧ checkLoaded [] loadedArrays = .ok () ∧
      checkBins loadedArrays [] bins = .ok () ∧
      c = { pool, loaded := loadedArrays, byId := bins.filter (·.price ≠ 0)
            liveIds := (((bins.filter (·.price ≠ 0)).filter
              (isLive swapForY supportOrders)).map (·.binId)).insertionSort (· ≤ ·)
            reference := (decayReference pool timestamp).1
            indexReference := (decayReference pool timestamp).2
            swapForY, supportOrders, strict, exhaustive } ∧
      s = { current := pool.activeId, remaining := amount, total := 0, crossed := 0 } := by
  simp only [dlmmPrepare, bind_eq_ok, pure_eq_ok]
  constructor
  · rintro ⟨_, hpool, _, hloaded, _, hbins, h⟩
    obtain ⟨rfl, rfl⟩ := Prod.mk.injEq .. ▸ h
    exact ⟨hpool, hloaded, hbins, rfl, rfl⟩
  · rintro ⟨hpool, hloaded, hbins, rfl, rfl⟩
    exact ⟨(), hpool, (), hloaded, (), hbins, rfl⟩

theorem DlmmSwap.Valid.of_prepare
    (h : dlmmPrepare pool bins loadedArrays amount timestamp swapForY supportOrders strict
      exhaustive = .ok (c, s)) : c.Valid := by
  obtain ⟨-, hloaded, hbins, rfl, -⟩ := dlmmPrepare_eq_ok.1 h
  obtain ⟨-, harrays⟩ := checkLoaded_eq_ok.1 hloaded
  obtain ⟨hnodup, hall⟩ := checkBins_eq_ok.1 hbins
  exact
    { arrays := fun i hi => (harrays i hi).2
      distinct := hnodup.sublist (List.filter_sublist.map _)
      bin_range := fun b hb => (hall b (List.mem_of_mem_filter hb)).2.1
      bin_loaded := fun b hb => (hall b (List.mem_of_mem_filter hb)).2.2.1
      liveIds_eq := rfl }

/-- The walk begins at a bin of the range. -/
theorem inRange_of_prepare
    (h : dlmmPrepare pool bins loadedArrays amount timestamp swapForY supportOrders strict
      exhaustive = .ok (c, s)) : InRange s.current := by
  obtain ⟨hpool, -, -, -, rfl⟩ := dlmmPrepare_eq_ok.1 h
  simp only [checkPool, bind_eq_ok, require_eq_ok] at hpool
  obtain ⟨_, -, _, -, _, -, _, -, _, ⟨hrange, -⟩, -⟩ := hpool
  exact hrange

end Prepare

/-! ### Live bins -/

section Live

variable {c : DlmmSwap} {b : DlmmBin} {current i : ℤ}

/-- The two expressions for liveness agree. -/
theorem isLive_iff : isLive c.swapForY c.supportOrders b = true ↔ ¬ ∀ r ∈ tiers c b, r = 0 := by
  simp only [isLive, tiers, Bool.or_eq_true, Bool.and_eq_true, bne_iff_ne, List.mem_cons,
    List.not_mem_nil, or_false, forall_eq_or_imp, forall_eq]
  by_cases hr : relevant c.swapForY c.supportOrders b <;> simp [hr]
  tauto

/-- The bin ids at which the swap finds liquidity. -/
def LiveAt (c : DlmmSwap) (current : ℤ) : Prop :=
  ∃ b ∈ c.byId, b.binId = current ∧ isLive c.swapForY c.supportOrders b = true

theorem DlmmSwap.Valid.mem_liveIds (hc : c.Valid) : i ∈ c.liveIds ↔ LiveAt c i := by
  rw [hc.liveIds_eq, List.mem_insertionSort]
  simp only [List.mem_map, List.mem_filter, LiveAt]
  constructor
  · rintro ⟨b, ⟨hb, hlive⟩, rfl⟩
    exact ⟨b, hb, rfl, hlive⟩
  · rintro ⟨b, hb, rfl, hlive⟩
    exact ⟨b, ⟨hb, hlive⟩, rfl⟩

theorem DlmmSwap.Valid.liveIds_sorted (hc : c.Valid) : c.liveIds.Pairwise (· ≤ ·) := by
  rw [hc.liveIds_eq]
  exact List.pairwise_insertionSort _ _

theorem DlmmSwap.Valid.lookup_eq_some (hc : c.Valid) :
    c.byId.find? (·.binId = current) = some b ↔ b ∈ c.byId ∧ b.binId = current := by
  constructor
  · intro h
    exact ⟨List.mem_of_find?_eq_some h, by simpa using List.find?_some h⟩
  · rintro ⟨hb, rfl⟩
    cases hf : c.byId.find? (·.binId = b.binId) with
    | none => exact absurd (List.find?_eq_none.1 hf b hb) (by simp)
    | some d =>
        have hd := List.mem_of_find?_eq_some hf
        have heq : d.binId = b.binId := by simpa using List.find?_some hf
        rw [List.inj_on_of_nodup_map hc.distinct hd hb heq]

/-! ### The jump -/

theorem nextLive_up (h : c.swapForY = false) :
    nextLive c current = c.liveIds[bisectRight c.liveIds current]? := by
  simp only [nextLive, h, Bool.false_eq_true, if_false, Int.toNat_natCast]
  split
  · rfl
  · rw [List.getElem?_eq_none (by omega)]

theorem nextLive_down_zero (h : c.swapForY = true) (hz : bisectLeft c.liveIds current = 0) :
    nextLive c current = none := by
  simp [nextLive, h, hz]

theorem nextLive_down_succ {n : ℕ} (h : c.swapForY = true)
    (hn : n + 1 = bisectLeft c.liveIds current) : nextLive c current = c.liveIds[n]? := by
  have hle := bisectLeft_le_length c.liveIds current
  have hpos : ((n + 1 : ℕ) : ℤ) - 1 = n := by omega
  simp only [nextLive, h, if_true, ← hn, hpos, Int.toNat_natCast]
  rw [if_pos (by omega)]

theorem nextLive_some (hc : c.Valid) (h : nextLive c current = some i) :
    StrictlyBeyond c.swapForY current i ∧
      ∀ j, LiveAt c j → StrictlyBeyond c.swapForY current j → Beyond c.swapForY i j := by
  cases hd : c.swapForY with
  | false =>
      rw [nextLive_up hd] at h
      obtain ⟨hlt, hfirst⟩ := first_after hc.liveIds_sorted h
      exact ⟨hlt, fun j hj => hfirst j (hc.mem_liveIds.2 hj)⟩
  | true =>
      cases hn : bisectLeft c.liveIds current with
      | zero => simp [nextLive_down_zero hd hn] at h
      | succ n =>
          rw [nextLive_down_succ hd hn.symm] at h
          obtain ⟨hlt, hlast⟩ := last_before hc.liveIds_sorted hn.symm h
          exact ⟨hlt, fun j hj => hlast j (hc.mem_liveIds.2 hj)⟩

theorem nextLive_none (hc : c.Valid) (h : nextLive c current = none) (hi : LiveAt c i) :
    ¬ StrictlyBeyond c.swapForY current i := by
  have hmem := hc.mem_liveIds.2 hi
  cases hd : c.swapForY with
  | false =>
      rw [nextLive_up hd] at h
      exact not_lt.2 (none_after hc.liveIds_sorted h hmem)
  | true =>
      cases hn : bisectLeft c.liveIds current with
      | zero => exact not_lt.2 (none_before hc.liveIds_sorted hn hmem)
      | succ n =>
          have hle := bisectLeft_le_length c.liveIds current
          rw [nextLive_down_succ hd hn.symm, List.getElem?_eq_none_iff] at h
          omega

/-- The edge of an array is past all of its bins, and nothing else is in between. -/
theorem pastEdge_beyond (down : Bool) (current : ℤ) :
    StrictlyBeyond down current (pastEdge down (current / 70)) := by
  cases down <;> simp [pastEdge] <;> omega

theorem div_of_before_pastEdge {down : Bool} (h : StrictlyBeyond down current i)
    (h' : StrictlyBeyond down i (pastEdge down (current / 70))) : i / 70 = current / 70 := by
  cases down <;> simp [pastEdge] at h h' <;> omega

/-- The jump moves on, and passes only dead bins of the array that it starts in. -/
theorem advanceEmpty_spec (hc : c.Valid) (current : ℤ) :
    StrictlyBeyond c.swapForY current (advanceEmpty c current) ∧
      ∀ i, StrictlyBeyond c.swapForY current i →
        StrictlyBeyond c.swapForY i (advanceEmpty c current) →
        i / 70 = current / 70 ∧ ¬ LiveAt c i := by
  have hedge : (∀ i, LiveAt c i → StrictlyBeyond c.swapForY current i → i / 70 ≠ current / 70) →
      ∀ i, StrictlyBeyond c.swapForY current i →
        StrictlyBeyond c.swapForY i (pastEdge c.swapForY (current / 70)) →
        i / 70 = current / 70 ∧ ¬ LiveAt c i := by
    intro hfar i hi hi'
    have hdiv := div_of_before_pastEdge hi hi'
    exact ⟨hdiv, fun hlive => hfar i hlive hi hdiv⟩
  simp only [advanceEmpty]
  cases hn : nextLive c current with
  | none =>
      refine ⟨pastEdge_beyond _ _, hedge fun i hlive hi => ?_⟩
      exact absurd hi (nextLive_none hc hn hlive)
  | some id =>
      obtain ⟨hid, hfirst⟩ := nextLive_some hc hn
      dsimp only
      split
      · rename_i hsame
        refine ⟨hid, fun i hi hi' => ⟨?_, fun hlive => ?_⟩⟩
        · cases hd : c.swapForY <;> simp [hd] at hi hi' <;> omega
        · exact hi'.not_beyond (hfirst i hlive hi)
      · rename_i hother
        refine ⟨pastEdge_beyond _ _, hedge fun i hlive hi hdiv => hother ?_⟩
        have hle := hfirst i hlive hi
        cases hd : c.swapForY <;> simp [hd] at hid hle <;> omega

end Live

end SolTrade.Dlmm
