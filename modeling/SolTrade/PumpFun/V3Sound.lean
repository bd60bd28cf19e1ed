import SolTrade.PumpFun.V3Quote

/-!
An exact-in purchase stays within its budget and can be made as an exact-out one.

The net amount of a budget is the largest whose gross amount the budget covers, so
both legs of a purchase are paid for. What a payment buys from the curve or the
pool costs at most the payment when it is priced as an output.
-/

namespace SolTrade.PumpFun

open Library ConstantProduct

/-! ### The parts of a quote -/

section Parts

variable {s : PumpV3QuoteState} {amount budget n : ℤ}

/-- The state passes the checks. -/
structure CurveValid (s : PumpV3QuoteState) : Prop where
  virtualBase_le : s.virtualBase ≤ u64
  remaining_nonneg : 0 ≤ s.remainingBase
  remaining_lt : s.remainingBase < s.virtualBase
  virtualQuote_pos : 0 < s.virtualQuote
  protocol_nonneg : 0 ≤ s.protocolBps
  creator_nonneg : 0 ≤ s.creatorBps

theorem CurveValid.of_validate (h : validate s amount = .ok ()) :
    CurveValid s ∧ 0 ≤ amount ∧ amount ≤ u64 := by
  simp only [validate, bind_eq_ok, require_eq_ok, List.forall_mem_cons, not_or, not_le] at h
  obtain ⟨_, ⟨hvb, hvq, hrem, -, -, -, hp, hc, hamount, -⟩, _, -, hremaining, hquote, -⟩ := h
  exact ⟨⟨hvb.2, hrem.1, hremaining, lt_of_le_of_ne hvq.1 (Ne.symm hquote), hp.1, hc.1⟩, hamount⟩

/-- The checks of the state do not depend on the amount. -/
theorem validate_of (h : validate s amount = .ok ()) (h₀ : 0 ≤ n) (h₁ : n ≤ u64) :
    validate s n = .ok () := by
  simp only [validate, bind_eq_ok, require_eq_ok, List.forall_mem_cons] at h ⊢
  obtain ⟨_, ⟨hvb, hvq, hrem, hreal, hbalance, hmigration, hp, hc, -, hnil⟩, hrest⟩ := h
  exact ⟨(), ⟨hvb, hvq, hrem, hreal, hbalance, hmigration, hp, hc, ⟨h₀, h₁⟩, hnil⟩, hrest⟩

/-- A payment with both fees on top. -/
def grossOf (s : PumpV3QuoteState) (n : ℤ) : ℤ :=
  SeparateFees.gross 10000 [s.protocolBps, s.creatorBps] n

theorem fee_eq (n bps : ℤ) : fee n bps = (n * bps + 10000 - 1) / 10000 := by
  rw [fee, show n * bps + 9999 = n * bps + 10000 - 1 by ring]

theorem grossOf_eq (s : PumpV3QuoteState) (n : ℤ) :
    n + fee n s.protocolBps + fee n s.creatorBps = grossOf s n := by
  simp [fee_eq, grossOf, SeparateFees.gross, add_assoc]

theorem net_eq (budget : ℤ) (s : PumpV3QuoteState) :
    net budget s = SeparateFees.net 10000 [s.protocolBps, s.creatorBps] budget := by
  have hshare : budget * 10000 / (10000 + s.protocolBps + s.creatorBps) =
      SeparateFees.share 10000 [s.protocolBps, s.creatorBps] budget := by
    rw [SeparateFees.share, List.sum_pair, add_assoc]
  simp only [net, grossOf_eq, hshare]
  rfl

theorem CurveValid.rates_nonneg (hs : CurveValid s) :
    ∀ r ∈ [s.protocolBps, s.creatorBps], 0 ≤ r := by
  simp [hs.protocol_nonneg, hs.creator_nonneg]

theorem le_net_iff (hs : CurveValid s) : n ≤ net budget s ↔ grossOf s n ≤ budget := by
  rw [net_eq]
  exact SeparateFees.le_net_iff (by norm_num) hs.rates_nonneg le_rfl

theorem grossOf_mono (hs : CurveValid s) {m : ℤ} (h : m ≤ n) : grossOf s m ≤ grossOf s n :=
  SeparateFees.gross_mono (by norm_num) hs.rates_nonneg h

theorem grossOf_zero (s : PumpV3QuoteState) : grossOf s 0 = 0 := by
  simp [grossOf, SeparateFees.gross]

theorem curveCost_zero (s : PumpV3QuoteState) : curveCost 0 s = 0 := if_pos rfl

/-- What a payment of `n - 1` buys from the curve costs at most `n`. -/
theorem curveCost_le (hs : CurveValid s) (hn : 1 ≤ n) {t : ℤ} (ht : t ≤ s.remainingBase)
    (hbought : t ≤ bought s.virtualBase s.virtualQuote (n - 1)) : curveCost t s ≤ n := by
  have hquote := hs.virtualQuote_pos
  have hbase : 0 < s.virtualBase - t := by
    have := hs.remaining_lt
    omega
  rw [curveCost]
  split
  · omega
  · have hpaid := (le_bought_iff (by omega)).1 hbought
    have hfloor : t * s.virtualQuote / (s.virtualBase - t) < n := by
      rw [Rounding.floor_lt_iff hbase]
      calc t * s.virtualQuote ≤ (n - 1) * (s.virtualBase - t) := hpaid
        _ < n * (s.virtualBase - t) := mul_lt_mul_of_pos_right (by omega) hbase
    omega

/-- The quote of a purchase, before its size is checked. -/
def quoteOf (cb cq pb pq : ℤ) (s : PumpV3QuoteState) : PumpV3Quote :=
  { curveBase := cb
    curveQuote := cq
    poolBase := pb
    poolQuote := pq
    protocolFee := fee cq s.protocolBps + fee pq s.protocolBps
    creatorFee := fee cq s.creatorBps + fee pq s.creatorBps }

theorem result_eq_ok {cb cq pb pq : ℤ} {q : PumpV3Quote} :
    result cb cq pb pq s = .ok q ↔
      (cb + pb ≤ u64 ∧ (quoteOf cb cq pb pq s).quoteIn ≤ u64) ∧ quoteOf cb cq pb pq s = q := by
  show (if cb + pb > u64 ∨ (quoteOf cb cq pb pq s).quoteIn > u64 then _ else _) = _ ↔ _
  split
  · rename_i hlarge
    refine iff_of_false nofun ?_
    rintro ⟨hsmall, -⟩
    omega
  · rename_i hsmall
    rw [Except.ok.injEq]
    exact (and_iff_right (by omega)).symm

/-- A purchase pays the gross amount of each leg. -/
theorem quoteIn_quoteOf (cb cq pb pq : ℤ) (s : PumpV3QuoteState) :
    (quoteOf cb cq pb pq s).quoteIn = grossOf s cq + grossOf s pq := by
  rw [← grossOf_eq, ← grossOf_eq]
  simp only [quoteOf, PumpV3Quote.quoteIn]
  ring

theorem pool_eq_ok {cq : ℤ} {reserves : ℤ × ℤ} (h : pool s cq = .ok reserves) :
    0 < reserves.1 ∧ 0 < reserves.2 := by
  rw [pool] at h
  split at h
  · cases h
  · cases h
    omega

end Parts

/-! ### What an exact-in purchase is -/

/-- What the net amount of a budget buys from a curve without limit. -/
def curveTokens (s : PumpV3QuoteState) (budget : ℤ) : ℤ :=
  bought s.virtualBase s.virtualQuote (net budget s - 1)

/-- A purchase buys nothing, or it ends on the curve, or it exhausts the curve and
goes on in the pool. Each leg's gross payment is within what is left of the budget. -/
inductive ExactInSpec (s : PumpV3QuoteState) (budget : ℤ) : PumpV3Quote → Prop
  | nothing (hnet : net budget s ≤ 1) : ExactInSpec s budget {}
  | curve {cb : ℤ} (hnet : 1 < net budget s)
      (htokens : cb = min (curveTokens s budget) s.remainingBase)
      (hcb : 0 ≤ cb ∧ cb ≤ s.remainingBase)
      (hpaid : grossOf s (curveCost cb s) ≤ budget)
      (hsize : (quoteOf cb (curveCost cb s) 0 0 s).quoteIn ≤ u64) :
      ExactInSpec s budget (quoteOf cb (curveCost cb s) 0 0 s)
  | pool {base quote leg pb : ℤ} (hnet : 1 < net budget s)
      (hexhausts : s.remainingBase < curveTokens s budget) (hmayhem : s.mayhem = false)
      (hpool : pool s (curveCost s.remainingBase s) = .ok (base, quote))
      (hpb : 0 < pb ∧ pb < base) (hbought : pb * quote ≤ (leg - 1) * (base - pb))
      (hpaid : grossOf s (curveCost s.remainingBase s) + grossOf s leg ≤ budget)
      (hsize : s.remainingBase + pb ≤ u64 ∧
        (quoteOf s.remainingBase (curveCost s.remainingBase s) pb leg s).quoteIn ≤ u64) :
      ExactInSpec s budget (quoteOf s.remainingBase (curveCost s.remainingBase s) pb leg s)

section ExactIn

variable {s : PumpV3QuoteState} {budget : ℤ} {q : PumpV3Quote}

theorem quotePumpBuyV3ExactIn_spec (h : quotePumpBuyV3ExactIn s budget = .ok q) :
    ExactInSpec s budget q := by
  rw [quotePumpBuyV3ExactIn] at h
  obtain ⟨_, hvalidate, h⟩ := bind_eq_ok.1 h
  obtain ⟨hs, -, -⟩ := CurveValid.of_validate hvalidate
  have hquote := hs.virtualQuote_pos
  have hremaining := hs.remaining_nonneg
  have hbasePos : 0 < s.virtualBase := lt_of_le_of_lt hremaining hs.remaining_lt
  dsimp only at h
  split at h
  · rename_i hnet
    cases h
    exact .nothing hnet
  · rename_i hnet
    rw [not_le] at hnet
    have htokens : (net budget s - 1) * s.virtualBase / (s.virtualQuote + net budget s - 1) =
        curveTokens s budget := by
      rw [curveTokens, bought, add_sub_assoc]
    rw [htokens] at h
    have hnonneg : 0 ≤ curveTokens s budget :=
      bought_nonneg (by omega) hbasePos.le (by omega)
    generalize hcb : min (curveTokens s budget) s.remainingBase = cb at h
    -- the curve leg is paid for by the net amount
    have hcurve : (0 ≤ cb ∧ cb ≤ s.remainingBase) ∧ grossOf s (curveCost cb s) ≤ budget := by
      refine ⟨by omega, (le_net_iff hs).1 (curveCost_le hs hnet.le (by omega) ?_)⟩
      show cb ≤ curveTokens s budget
      omega
    have hends : result cb (curveCost cb s) 0 0 s = .ok q → ExactInSpec s budget q := by
      intro hresult
      obtain ⟨⟨-, hsize⟩, rfl⟩ := result_eq_ok.1 hresult
      exact .curve hnet hcb.symm hcurve.1 hcurve.2 hsize
    split at h
    · exact hends h
    · rename_i hgoes
      rw [not_or, not_le, Bool.not_eq_true] at hgoes
      obtain rfl : s.remainingBase = cb := by omega
      split at h
      · exact hends h
      · rename_i hleft
        obtain ⟨⟨base, quote⟩, hpool, h⟩ := bind_eq_ok.1 h
        obtain ⟨hb, hq⟩ := pool_eq_ok hpool
        have hrest : budget - curveCost s.remainingBase s -
              fee (curveCost s.remainingBase s) s.protocolBps -
              fee (curveCost s.remainingBase s) s.creatorBps =
            budget - grossOf s (curveCost s.remainingBase s) := by
          rw [← grossOf_eq]
          ring
        rw [hrest] at h hleft
        dsimp only at h
        split at h
        · exact hends h
        · rename_i hdust
          generalize hleg : net (budget - grossOf s (curveCost s.remainingBase s)) s = leg
            at h hleft hdust
          rw [add_sub_assoc] at h hdust
          have hbought : bought base quote (leg - 1) = (leg - 1) * base / (quote + (leg - 1)) := rfl
          rw [← hbought] at h hdust
          have hpb : 0 ≤ bought base quote (leg - 1) := bought_nonneg (by omega) hb.le (by omega)
          have hpaid := (le_net_iff hs).1 hleg.ge
          obtain ⟨hsize, rfl⟩ := result_eq_ok.1 h
          exact .pool hnet hgoes.1 hgoes.2 hpool ⟨by omega, bought_lt (by omega) hb hq⟩
            ((le_bought_iff (by omega)).1 le_rfl) (by omega) hsize

end ExactIn

/-! ### Asking for the output -/

section ExactOut

variable {s : PumpV3QuoteState} {amount cb pb base quote : ℤ}

theorem quotePumpBuyV3ExactOut_curve (hvalidate : validate s amount = .ok ())
    (hcb : 0 ≤ cb ∧ cb ≤ s.remainingBase)
    (hsize : (quoteOf cb (curveCost cb s) 0 0 s).quoteIn ≤ u64) :
    quotePumpBuyV3ExactOut s cb = .ok (quoteOf cb (curveCost cb s) 0 0 s) := by
  obtain ⟨hs, -, -⟩ := CurveValid.of_validate hvalidate
  have hcap : cb ≤ u64 := by
    have := hs.remaining_lt
    have := hs.virtualBase_le
    omega
  rw [quotePumpBuyV3ExactOut, validate_of hvalidate hcb.1 hcap, ok_bind, if_pos hcb.2,
    min_eq_left hcb.2]
  exact result_eq_ok.2 ⟨⟨by omega, hsize⟩, rfl⟩

/-- Beyond the curve, an output that a payment buys from the pool is priced at no more
than the payment. -/
theorem quotePumpBuyV3ExactOut_pool (hvalidate : validate s amount = .ok ()) {leg : ℤ}
    (hmayhem : s.mayhem = false)
    (hpool : pool s (curveCost s.remainingBase s) = .ok (base, quote))
    (hpb : 0 < pb ∧ pb < base) (hbought : pb * quote ≤ (leg - 1) * (base - pb))
    (hsize : s.remainingBase + pb ≤ u64 ∧
      (quoteOf s.remainingBase (curveCost s.remainingBase s) pb leg s).quoteIn ≤ u64) :
    ∃ pq ≤ leg, quotePumpBuyV3ExactOut s (s.remainingBase + pb) =
      .ok (quoteOf s.remainingBase (curveCost s.remainingBase s) pb pq s) := by
  obtain ⟨hs, -, -⟩ := CurveValid.of_validate hvalidate
  have hremaining := hs.remaining_nonneg
  have hrest : 0 < base - pb := by omega
  have hprice : (quote * pb + base - pb - 1) / (base - pb) ≤ leg := by
    rw [show quote * pb + base - pb - 1 = pb * quote + (base - pb) - 1 by ring,
      Rounding.ceil_le_iff hrest]
    calc pb * quote ≤ (leg - 1) * (base - pb) := hbought
      _ ≤ leg * (base - pb) := mul_le_mul_of_nonneg_right (by omega) hrest.le
  have hpaid : (quoteOf s.remainingBase (curveCost s.remainingBase s) pb
      ((quote * pb + base - pb - 1) / (base - pb)) s).quoteIn ≤ u64 := by
    rw [quoteIn_quoteOf] at hsize ⊢
    have := grossOf_mono hs hprice
    omega
  refine ⟨_, hprice, ?_⟩
  rw [quotePumpBuyV3ExactOut, validate_of hvalidate (by omega) hsize.1, ok_bind,
    min_eq_right (by omega), if_neg (by omega), if_neg (by simp [hmayhem]), hpool, ok_bind]
  simp only [add_sub_cancel_left]
  rw [if_neg (by omega)]
  exact result_eq_ok.2 ⟨⟨hsize.1, hpaid⟩, rfl⟩

end ExactOut

/-- Every exact-in purchase stays within its budget, and asking for its output costs
at most as much. This covers mayhem curves and purchases that go on in the pool. -/
theorem quotePumpBuyV3ExactIn_sound {s : PumpV3QuoteState} {budget : ℤ} {q : PumpV3Quote}
    (h : quotePumpBuyV3ExactIn s budget = .ok q) :
    q.quoteIn ≤ budget ∧
      ∃ q', quotePumpBuyV3ExactOut s q.baseOut = .ok q' ∧ q'.baseOut = q.baseOut ∧
        q'.quoteIn ≤ q.quoteIn := by
  obtain ⟨_, hvalidate, -⟩ := bind_eq_ok.1 (quotePumpBuyV3ExactIn.eq_1 s budget ▸ h)
  obtain ⟨hs, hbudget, -⟩ := CurveValid.of_validate hvalidate
  cases quotePumpBuyV3ExactIn_spec h with
  | nothing _ =>
      have hfree : (quoteOf 0 (curveCost 0 s) 0 0 s).quoteIn = 0 := by
        rw [quoteIn_quoteOf, curveCost_zero, grossOf_zero]
        rfl
      have hsize : (quoteOf 0 (curveCost 0 s) 0 0 s).quoteIn ≤ u64 := by
        rw [hfree]
        decide
      exact ⟨hbudget, _, quotePumpBuyV3ExactOut_curve hvalidate ⟨le_rfl, hs.remaining_nonneg⟩ hsize,
        rfl, hfree.le⟩
  | @curve cb _ _ hcb hpaid hsize =>
      have hbase : (quoteOf cb (curveCost cb s) 0 0 s).baseOut = cb := add_zero cb
      refine ⟨?_, _, ?_, rfl, le_rfl⟩
      · rw [quoteIn_quoteOf, grossOf_zero, add_zero]
        exact hpaid
      · rw [hbase]
        exact quotePumpBuyV3ExactOut_curve hvalidate hcb hsize
  | pool _ _ hmayhem hpool hpb hbought hpaid hsize =>
      obtain ⟨pq, hpq, hout⟩ :=
        quotePumpBuyV3ExactOut_pool hvalidate hmayhem hpool hpb hbought hsize
      refine ⟨?_, _, hout, rfl, ?_⟩
      · rw [quoteIn_quoteOf]
        exact hpaid
      · rw [quoteIn_quoteOf, quoteIn_quoteOf]
        have := grossOf_mono hs hpq
        omega

/-- A purchase that exhausts the curve and goes on in the pool. -/
theorem quotePumpBuyV3ExactIn_sound_pool :
    ∃ q', quotePumpBuyV3ExactOut ⟨1100, 1000, 100, 500, 400, 10, 95, 30, false, false⟩ 279 = .ok q' ∧
      q'.baseOut = 279 ∧ q'.quoteIn ≤ 1000 := by
  have h : quotePumpBuyV3ExactIn ⟨1100, 1000, 100, 500, 400, 10, 95, 30, false, false⟩ 1000 =
      .ok ⟨100, 101, 179, 885, 10, 4⟩ := by decide +kernel
  obtain ⟨-, q', hout, hbase, hquote⟩ := quotePumpBuyV3ExactIn_sound h
  exact ⟨q', hout, hbase, hquote⟩

end SolTrade.PumpFun
