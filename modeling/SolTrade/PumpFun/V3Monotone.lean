import SolTrade.PumpFun.V3Sound

/-!
A larger budget never buys less.

What an exact-in purchase yields is read off its budget in closed form. The net amount grows with
the budget, so a larger budget buys at least as much from the curve; once the curve is sold out,
what is left of the budget and its net amount grow as well, and the pool is the same.
-/

namespace SolTrade.PumpFun

open Library ConstantProduct

variable {s : PumpV3QuoteState} {budget a b : ℤ} {q : PumpV3Quote}

/-- What is left of a budget once the curve is sold out. -/
def leftForPool (s : PumpV3QuoteState) (budget : ℤ) : ℤ :=
  budget - grossOf s (curveCost s.remainingBase s)

/-- What the net amount of a remainder buys from the pool. -/
def poolTokens (s : PumpV3QuoteState) (left : ℤ) : ℤ :=
  bought (s.curveBaseBalance - s.remainingBase)
    (s.realQuote + curveCost s.remainingBase s - s.migrationFee) (net left s - 1)

/-- The purchase goes on in the pool. -/
def ReachesPool (s : PumpV3QuoteState) (budget : ℤ) : Prop :=
  s.remainingBase < curveTokens s budget ∧ s.mayhem = false ∧ 0 < leftForPool s budget ∧
    1 < net (leftForPool s budget) s

/-- What a purchase yields: nothing, tokens of the curve alone, or tokens beyond the curve. -/
inductive BaseOutSpec (s : PumpV3QuoteState) (budget : ℤ) : ℤ → Prop
  | nothing (hnet : net budget s ≤ 1) : BaseOutSpec s budget 0
  | curve (hnet : 1 < net budget s) (hends : ¬ ReachesPool s budget) :
      BaseOutSpec s budget (min (curveTokens s budget) s.remainingBase)
  | pool (hnet : 1 < net budget s) (hreaches : ReachesPool s budget)
      (hbase : 0 < s.curveBaseBalance - s.remainingBase)
      (hquote : 0 < s.realQuote + curveCost s.remainingBase s - s.migrationFee) :
      BaseOutSpec s budget (s.remainingBase + poolTokens s (leftForPool s budget))

theorem pool_eq_ok_iff {cq : ℤ} {reserves : ℤ × ℤ} :
    pool s cq = .ok reserves ↔
      (0 < s.curveBaseBalance - s.remainingBase ∧ 0 < s.realQuote + cq - s.migrationFee) ∧
        reserves = (s.curveBaseBalance - s.remainingBase, s.realQuote + cq - s.migrationFee) := by
  simp only [pool]
  split
  · rename_i hempty
    apply iff_of_false (by simp)
    rintro ⟨hfull, -⟩
    omega
  · rename_i hfull
    rw [Except.ok.injEq, eq_comm]
    exact (and_iff_right (by omega)).symm

theorem quotePumpBuyV3ExactIn_baseOut (h : quotePumpBuyV3ExactIn s budget = .ok q) :
    BaseOutSpec s budget q.baseOut := by
  rw [quotePumpBuyV3ExactIn] at h
  obtain ⟨_, hvalidate, h⟩ := bind_eq_ok.1 h
  dsimp only at h
  split at h
  · rename_i hnet
    cases h
    exact .nothing hnet
  · rename_i hnet
    rw [not_le] at hnet
    -- the expressions of the source are folded into the names the specification uses
    have htokens : (net budget s - 1) * s.virtualBase / (s.virtualQuote + net budget s - 1) =
        curveTokens s budget := by
      rw [curveTokens, bought, add_sub_assoc]
    rw [htokens] at h
    have hends : ∀ cb cq, result cb cq 0 0 s = .ok q → q.baseOut = cb := by
      intro cb cq hresult
      obtain ⟨-, rfl⟩ := result_eq_ok.1 hresult
      exact add_zero cb
    split at h
    · -- the curve alone pays: it does not sell out, or it is a mayhem curve
      rename_i hcurve
      rw [hends _ _ h]
      refine .curve hnet fun hreaches => ?_
      rcases hcurve with hcurve | hcurve
      · exact absurd hreaches.1 (not_lt.2 hcurve)
      · rw [hreaches.2.1] at hcurve
        contradiction
    · rename_i hgoes
      rw [not_or, not_le, Bool.not_eq_true] at hgoes
      have hmin : min (curveTokens s budget) s.remainingBase = s.remainingBase :=
        min_eq_right hgoes.1.le
      have hrest : budget - curveCost s.remainingBase s -
            fee (curveCost s.remainingBase s) s.protocolBps -
            fee (curveCost s.remainingBase s) s.creatorBps = leftForPool s budget := by
        rw [leftForPool, ← grossOf_eq]
        ring
      rw [hmin, hrest] at h
      split at h
      · rename_i hleft
        rw [hends _ _ h, ← hmin]
        refine .curve hnet fun hreaches => ?_
        obtain ⟨-, -, hpos, hleg⟩ := hreaches
        omega
      · rename_i hleft
        rw [not_or, not_le, not_le] at hleft
        -- the curve sells out and what is left of the budget is netted again for the pool
        obtain ⟨⟨base, quote⟩, hpool, h⟩ := bind_eq_ok.1 h
        obtain ⟨⟨hbase, hquote⟩, hreserves⟩ := pool_eq_ok_iff.1 hpool
        obtain ⟨rfl, rfl⟩ := Prod.mk.inj hreserves
        have hleg : (net (leftForPool s budget) s - 1) * (s.curveBaseBalance - s.remainingBase) /
            (s.realQuote + curveCost s.remainingBase s - s.migrationFee +
              net (leftForPool s budget) s - 1) = poolTokens s (leftForPool s budget) := by
          rw [poolTokens, bought, add_sub_assoc]
        dsimp only at h
        rw [hleg] at h
        have hreaches : ReachesPool s budget := ⟨hgoes.1, hgoes.2, hleft.1, hleft.2⟩
        have hpooled := BaseOutSpec.pool hnet hreaches hbase hquote
        split at h
        · rename_i hdust
          rw [hends _ _ h]
          rwa [hdust, add_zero] at hpooled
        · obtain ⟨-, rfl⟩ := result_eq_ok.1 h
          exact hpooled

/-! ### Each part grows with the budget -/

theorem net_mono (hs : CurveValid s) (hab : a ≤ b) : net a s ≤ net b s :=
  (le_net_iff hs).2 (((le_net_iff hs).1 le_rfl).trans hab)

theorem curveTokens_nonneg (hs : CurveValid s) (hnet : 1 < net a s) : 0 ≤ curveTokens s a := by
  have := hs.remaining_nonneg
  have := hs.remaining_lt
  have := hs.virtualQuote_pos
  exact bought_nonneg (by omega) (by omega) (by omega)

theorem curveTokens_mono (hs : CurveValid s) (hnet : 1 < net a s) (hab : a ≤ b) :
    curveTokens s a ≤ curveTokens s b := by
  have hbase := hs.remaining_nonneg.trans_lt hs.remaining_lt
  have hnets := net_mono hs hab
  exact bought_mono (by omega) (by omega) hbase hs.virtualQuote_pos

theorem leftForPool_mono (hab : a ≤ b) : leftForPool s a ≤ leftForPool s b :=
  sub_le_sub_right hab _

/-- A larger budget goes on in the pool if a smaller one does. -/
theorem ReachesPool.mono (hs : CurveValid s) (hnet : 1 < net a s) (hab : a ≤ b)
    (h : ReachesPool s a) : ReachesPool s b := by
  obtain ⟨htokens, hmayhem, hleft, hleg⟩ := h
  have hrest := leftForPool_mono (s := s) hab
  exact ⟨htokens.trans_le (curveTokens_mono hs hnet hab), hmayhem, hleft.trans_le hrest,
    hleg.trans_le (net_mono hs hrest)⟩

theorem poolTokens_nonneg (hleg : 1 < net a s)
    (hbase : 0 < s.curveBaseBalance - s.remainingBase)
    (hquote : 0 < s.realQuote + curveCost s.remainingBase s - s.migrationFee) :
    0 ≤ poolTokens s a :=
  bought_nonneg (by omega) hbase.le (by omega)

theorem poolTokens_mono (hs : CurveValid s) (hleg : 1 < net a s) (hab : a ≤ b)
    (hbase : 0 < s.curveBaseBalance - s.remainingBase)
    (hquote : 0 < s.realQuote + curveCost s.remainingBase s - s.migrationFee) :
    poolTokens s a ≤ poolTokens s b := by
  have hnets := net_mono hs hab
  exact bought_mono (by omega) (by omega) hbase hquote

theorem BaseOutSpec.mono {x y : ℤ} (hs : CurveValid s) (hab : a ≤ b) (ha : BaseOutSpec s a x)
    (hb : BaseOutSpec s b y) : x ≤ y := by
  have hremaining := hs.remaining_nonneg
  have hnets := net_mono hs hab
  cases ha with
  | nothing hnet =>
      cases hb with
      | nothing _ => exact le_rfl
      | curve hnet' _ => exact le_min (curveTokens_nonneg hs hnet') hremaining
      | pool _ hreaches hbase hquote =>
          exact add_nonneg hremaining (poolTokens_nonneg hreaches.2.2.2 hbase hquote)
  | curve hnet _ =>
      cases hb with
      | nothing hnet' => omega
      | curve _ _ => exact min_le_min_right _ (curveTokens_mono hs hnet hab)
      | pool _ hreaches hbase hquote =>
          have := poolTokens_nonneg hreaches.2.2.2 hbase hquote
          omega
  | pool hnet hreaches hbase hquote =>
      cases hb with
      | nothing hnet' => omega
      | curve _ hends => exact absurd (hreaches.mono hs hnet hab) hends
      | pool _ _ _ _ =>
          have := poolTokens_mono hs hreaches.2.2.2 (leftForPool_mono hab) hbase hquote
          omega

/-- A larger budget buys at least as much: on the curve, on a mayhem curve that caps the purchase,
and beyond the curve. -/
theorem quotePumpBuyV3ExactIn_mono {qa qb : PumpV3Quote} (hab : a ≤ b)
    (ha : quotePumpBuyV3ExactIn s a = .ok qa) (hb : quotePumpBuyV3ExactIn s b = .ok qb) :
    qa.baseOut ≤ qb.baseOut := by
  obtain ⟨_, hvalidate, -⟩ := bind_eq_ok.1 (quotePumpBuyV3ExactIn.eq_1 s a ▸ ha)
  obtain ⟨hs, -, -⟩ := CurveValid.of_validate hvalidate
  exact (quotePumpBuyV3ExactIn_baseOut ha).mono hs hab (quotePumpBuyV3ExactIn_baseOut hb)

/-- A budget that ends on the curve and one that goes on in the pool. -/
theorem quotePumpBuyV3ExactIn_mono_graduating :
    (⟨88, 87, 0, 0, 1, 1⟩ : PumpV3Quote).baseOut ≤
      (⟨100, 101, 179, 885, 10, 4⟩ : PumpV3Quote).baseOut :=
  quotePumpBuyV3ExactIn_mono (s := ⟨1100, 1000, 100, 500, 400, 10, 95, 30, false, false⟩)
    (a := 90) (b := 1000) (by norm_num) (by decide +kernel) (by decide +kernel)

end SolTrade.PumpFun
