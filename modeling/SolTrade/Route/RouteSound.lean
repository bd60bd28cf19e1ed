import SolTrade.Route.NativeSol

/-!
Prepared routes are well formed, whatever protocols they mix.

Every quoter returns a protected output of at most its estimate, in the range of an
unsigned integer. The chain of the legs follows from that and from the check that a
leg uses no more than it may spend.
-/

namespace SolTrade.Route

open Library
open PumpFun (CachedPumpFunState CachedPumpFunQuote quoteCachedPumpfunExactIn)
open Subscription (CacheReadContext)

/-! ### Protected outputs -/

section Slippage

variable {out s : ℤ}

/-- What is left of an output after a slippage, if anything is. -/
theorem slippage_le (hs : 0 ≤ s) (hs' : s ≤ 10000) (h : 0 < out * (10000 - s) / 10000) :
    out * (10000 - s) / 10000 ≤ out := by
  have hout : 0 ≤ out := by
    by_contra hneg
    have hprod : out * (10000 - s) ≤ 0 :=
      mul_nonpos_of_nonpos_of_nonneg (not_le.1 hneg).le (by omega)
    omega
  have hpart : out * (10000 - s) ≤ out * 10000 := mul_le_mul_of_nonneg_left (by omega) hout
  omega

theorem slippage_pos (hout : 0 ≤ out) (hs' : s ≤ 10000) (h : out * (10000 - s) / 10000 ≠ 0) :
    0 < out * (10000 - s) / 10000 := by
  have hnonneg : 0 ≤ out * (10000 - s) / 10000 :=
    Rounding.floor_nonneg (by norm_num) (mul_nonneg hout (by omega))
  omega

end Slippage

/-- A protected output is in range and at most the estimate. -/
structure LegQuote.Protected (q : LegQuote) : Prop where
  minimum_pos : 0 < q.minimum
  minimum_le : q.minimum ≤ u64
  estimated_ge : q.minimum ≤ q.estimated

theorem LegQuote.Protected.of_slippage {q : LegQuote} {s : ℤ}
    (hminimum : q.minimum = q.estimated * (10000 - s) / 10000) (hs : 0 ≤ s ∧ s < 10000)
    (hpos : 0 < q.minimum) (hle : q.minimum ≤ u64) : q.Protected := by
  refine ⟨hpos, hle, ?_⟩
  rw [hminimum] at hpos ⊢
  exact slippage_le hs.1 hs.2.le hpos

/-- Likewise for an output that is known to be in range. -/
theorem LegQuote.Protected.of_estimate {q : LegQuote} {s : ℤ}
    (hminimum : q.minimum = q.estimated * (10000 - s) / 10000) (hs : 0 ≤ s ∧ s < 10000)
    (hne : q.minimum ≠ 0) (hestimated : 0 ≤ q.estimated ∧ q.estimated ≤ u64) : q.Protected := by
  have hpos : 0 < q.minimum := by
    rw [hminimum] at hne ⊢
    exact slippage_pos hestimated.1 hs.2.le hne
  have hle : q.minimum ≤ q.estimated := by
    rw [hminimum] at hpos ⊢
    exact slippage_le hs.1 hs.2.le hpos
  exact ⟨hpos, hle.trans hestimated.2, hle⟩

/-! ### The quotes -/

section Quotes

variable {spend slippageBps : ℤ}

theorem quoteCachedPumpfunExactIn_protected {state : CachedPumpFunState} {buy : Bool}
    {q : CachedPumpFunQuote} (h : quoteCachedPumpfunExactIn state spend buy slippageBps = .ok q) :
    (LegQuote.mk q.amountIn q.estimatedNetAmountOut q.minimumNetAmountOut).Protected := by
  simp only [quoteCachedPumpfunExactIn, bind_eq_ok, unsigned_eq_ok, require_eq_ok, pure_eq_ok] at h
  obtain ⟨_, -, _, hrequest, _, -, _, -, _, -, _, -, _, -, _, -, _, hpositive, _, ⟨hrange, -⟩,
    rfl⟩ := h
  rw [not_or, not_not] at hrequest
  rw [not_or, not_le, not_le] at hpositive
  exact .of_estimate rfl (s := slippageBps) (by omega) hpositive.2.ne' hrange

theorem quotePumpSwapState_protected {state : CachedPumpSwapState} {quoteIn : Bool}
    {q : PumpSwapQuote} (hs : 0 ≤ slippageBps ∧ slippageBps < 10000)
    (h : quotePumpSwapState state quoteIn spend slippageBps = .ok q) :
    (LegQuote.mk q.amountIn q.amountOut q.minimumAmountOut).Protected := by
  simp only [quotePumpSwapState, pumpswapMinimumOutput, mustU64, bind_eq_ok, require_eq_ok,
    pure_eq_ok] at h
  obtain ⟨_, -, _, -, _, -, out, -, minimum, ⟨_, hout, _, -, rfl⟩, _, hne, rfl⟩ := h
  have hcap : min slippageBps maxSlippageBasisPoints = slippageBps :=
    min_eq_left (show slippageBps ≤ 9999 by omega)
  rw [hcap] at hne
  refine .of_estimate (s := slippageBps) ?_ hs ?_ hout
  · rw [hcap]
  · rwa [hcap]

theorem quoteCachedAmmV4ExactIn_protected {state : CachedAmmV4State} {coinIn : Bool}
    {q : AmmV4Quote} (h : quoteCachedAmmV4ExactIn state spend coinIn slippageBps = .ok q)
    (hne : q.minimumAmountOut ≠ 0) :
    (LegQuote.mk q.amountIn q.amountOut q.minimumAmountOut).Protected := by
  simp only [quoteCachedAmmV4ExactIn, bind_eq_ok, unsigned_eq_ok, require_eq_ok, pure_eq_ok] at h
  obtain ⟨_, ⟨hamount, -⟩, _, hrequest, h⟩ := h
  generalize (if coinIn = true then (state.coinReserve, state.pcReserve) else
    (state.pcReserve, state.coinReserve)) = reserves at h
  obtain ⟨_, ⟨hi, -⟩, _, hi₀, _, ⟨ho, -⟩, _, -, _, ⟨hd, -⟩, _, hd₀, _, ⟨hn, -⟩, _, hrate, rfl⟩ := h
  have hnet : 0 ≤ spend - ceil (spend * state.swapFeeNumerator) state.swapFeeDenominator :=
    sub_nonneg.2 (Rounding.ceil_part_le (by omega) hamount.1 hrate.le)
  generalize spend - ceil (spend * state.swapFeeNumerator) state.swapFeeDenominator = net
    at hne hnet ⊢
  have hin : 0 < reserves.1 + net := by omega
  have hout : reserves.2 * net / (reserves.1 + net) ≤ reserves.2 := by
    apply Int.le_of_lt_add_one
    rw [Rounding.floor_lt_iff hin]
    nlinarith
  rw [not_or, not_not] at hrequest
  refine .of_estimate rfl (s := slippageBps) hrequest.2 hne ⟨?_, hout.trans ho.2⟩
  exact Rounding.floor_nonneg hin (mul_nonneg ho.1 hnet)

theorem quoteCachedCpmmExactIn_protected {p : CachedCpmmState} {baseIn : Bool} {q : CpmmQuote}
    (h : quoteCachedCpmmExactIn p spend baseIn slippageBps = .ok q)
    (hne : q.minimumAmountOut ≠ 0) :
    (LegQuote.mk q.amountIn q.amountOut q.minimumAmountOut).Protected := by
  simp only [quoteCachedCpmmExactIn, bind_eq_ok, unsigned_eq_ok, require_eq_ok, pure_eq_ok] at h
  obtain ⟨_, -, _, -, _, hs, _, -, _, -, _, -, _, -, _, -, _, -, _, -, _, -, _, -, _, -, _, -, _, -,
    _, -, _, ⟨hreceived, -⟩, rfl⟩ := h
  exact .of_estimate rfl (s := slippageBps) (by omega) hne hreceived

theorem launchLabReserves_slippage {p : LaunchLabQuoteState} {amount shareFeeRate : ℤ}
    {reserves : ℤ × ℤ × ℤ}
    (h : launchLabReserves p amount slippageBps shareFeeRate = .ok reserves) :
    0 ≤ slippageBps ∧ slippageBps ≤ 9999 := by
  simp only [launchLabReserves, bind_eq_ok, require_eq_ok, pure_eq_ok] at h
  obtain ⟨_, -, _, -, _, -, _, -, _, -, _, -, _, -, _, -, _, hs, -⟩ := h
  exact hs

/-- The reserves do not depend on the slippage. -/
theorem launchLabReserves_eq {p : LaunchLabQuoteState} {amount shareFeeRate s : ℤ}
    {reserves reserves' : ℤ × ℤ × ℤ}
    (h : launchLabReserves p amount slippageBps shareFeeRate = .ok reserves)
    (h' : launchLabReserves p amount s shareFeeRate = .ok reserves') : reserves' = reserves := by
  simp only [launchLabReserves, bind_eq_ok, unsigned_eq_ok, require_eq_ok, pure_eq_ok] at h h'
  obtain ⟨_, -, _, -, _, -, _, -, _, -, quote, ⟨-, rfl⟩, rates, hrates, _, -, _, -, rfl⟩ := h
  obtain ⟨_, -, _, -, _, -, _, -, _, -, quote', ⟨-, rfl⟩, rates', hrates', _, -, _, -, rfl⟩ := h'
  rw [hrates, Except.ok.injEq] at hrates'
  rw [hrates']

/-- The protected output at a slippage and at none. -/
theorem quoteLaunchlabExactIn_protected {p : LaunchLabQuoteState} {buy : Bool}
    {q estimate : LaunchLabQuote}
    (h : quoteLaunchlabExactIn p spend buy slippageBps = .ok q)
    (hestimate : quoteLaunchlabExactIn p spend buy 0 = .ok estimate)
    (hne : q.minimumAmountOut ≠ 0) :
    (LegQuote.mk q.amountIn estimate.minimumAmountOut q.minimumAmountOut).Protected := by
  simp only [quoteLaunchlabExactIn, bind_eq_ok, unsigned_eq_ok, pure_eq_ok] at h hestimate
  obtain ⟨reserves, hreserves, ⟨actual, received⟩, hfill, minimum, ⟨hrange, rfl⟩, rfl⟩ := h
  obtain ⟨reserves', hreserves', ⟨actual', received'⟩, hfill', _, ⟨hrange', rfl⟩, rfl⟩ := hestimate
  obtain rfl := launchLabReserves_eq hreserves hreserves'
  rw [hfill, Except.ok.injEq, Prod.mk.injEq] at hfill'
  obtain ⟨-, rfl⟩ := hfill'
  have hs := launchLabReserves_slippage hreserves
  have hpart : 0 ≤ received * slippageBps / 10000 :=
    Rounding.floor_nonneg (by norm_num) (mul_nonneg (by omega) hs.1)
  refine ⟨?_, hrange.2, ?_⟩
  · exact lt_of_le_of_ne hrange.1 (Ne.symm hne)
  · show received - received * slippageBps / 10000 ≤ received - received * 0 / 10000
    omega

theorem dataV2_range {args : SwapV2Args} {data : List UInt8} (h : dataV2 args = .ok data) :
    0 ≤ args.otherAmountThreshold ∧ args.otherAmountThreshold ≤ u64 := by
  simp only [dataV2, bind_eq_ok, require_eq_ok, List.forall_mem_cons] at h
  obtain ⟨_, ⟨-, hthreshold, -⟩, -⟩ := h
  exact ⟨hthreshold.1, Int.le_sub_one_of_lt hthreshold.2⟩

theorem ArrayRequest.check_slippage {r : ArrayRequest} {maximum : ℤ} {e : ValueError} {u : Unit}
    (h : r.check maximum e = .ok u) : 0 ≤ r.slippageBps ∧ r.slippageBps < 10000 := by
  simp only [ArrayRequest.check, bind_eq_ok, require_eq_ok] at h
  obtain ⟨_, -, _, -, hrequest⟩ := h
  omega

/-- A quote against loaded arrays, once its protected output is packed as unsigned. -/
theorem protectedQuote_protected {context : CacheReadContext} {r : ArrayRequest} {amountOut : ℤ}
    {feeOut : TokenTransferFee} {e : ValueError} {q : CachedArrayQuote}
    (hs : 0 ≤ r.slippageBps ∧ r.slippageBps < 10000)
    (h : protectedQuote context r amountOut feeOut e = .ok q)
    (hrange : 0 ≤ q.minimumAmountOut ∧ q.minimumAmountOut ≤ u64) : q.leg.Protected := by
  simp only [protectedQuote, bind_eq_ok, require_eq_ok, pure_eq_ok] at h
  obtain ⟨fee, -, _, hne, rfl⟩ := h
  exact .of_slippage rfl hs (lt_of_le_of_ne hrange.1 (Ne.symm hne)) hrange.2

end Quotes

/-! ### One leg -/

section Leg

variable {snapshot : RouteSnapshot} {r : RouteRequest} {hint : PoolTradeHint}
  {spend slippageBps : ℤ} {q : LegQuote} {ix : Instruction}

theorem preparePumpfunLeg_spec
    (h : preparePumpfunLeg snapshot r hint spend slippageBps = .ok (q, ix)) :
    q.Protected ∧ ix.programId = pumpFunProgram := by
  simp only [preparePumpfunLeg, bind_eq_ok, lift_eq_ok, pure_eq_ok, Prod.mk.injEq] at h
  obtain ⟨_, -, _, -, _, -, _, hquote, _, -, rfl, rfl⟩ := h
  exact ⟨quoteCachedPumpfunExactIn_protected hquote, rfl⟩

theorem preparePumpswap_spec
    (h : preparePumpswap snapshot r hint spend slippageBps = .ok (q, ix)) :
    q.Protected ∧ ix.programId = pumpSwapProgram := by
  simp only [preparePumpswap, checkPumpSwapRequest, bind_eq_ok, require_eq_ok, pure_eq_ok,
    Prod.mk.injEq] at h
  obtain ⟨_, ⟨_, -, hrequest⟩, _, -, _, hquote, _, -, _, -, _, -, rfl, rfl⟩ := h
  exact ⟨quotePumpSwapState_protected (by tauto) hquote, rfl⟩

theorem prepareClmm_spec (h : prepareClmm snapshot r hint spend slippageBps = .ok (q, ix)) :
    q.Protected ∧ ix.programId = clmmProgram := by
  simp only [prepareClmm, checkCachedClmm, calculateCachedClmm, buildRaydiumClmmSwapV2, bind_eq_ok,
    lift_eq_ok, pure_eq_ok, Prod.mk.injEq] at h
  obtain ⟨_, hcheck, _, -, _, ⟨_, -, _, -, _, hquote, rfl⟩, _, ⟨_, -, _, -, _, hdata, rfl⟩, rfl,
    rfl⟩ := h
  exact ⟨protectedQuote_protected (ArrayRequest.check_slippage hcheck) hquote (dataV2_range hdata),
    rfl⟩

theorem prepareWhirlpool_spec
    (h : prepareWhirlpool snapshot r hint spend slippageBps = .ok (q, ix)) :
    q.Protected ∧ ix.programId = whirlpoolProgram := by
  simp only [prepareWhirlpool, checkCachedWhirlpool, calculateCachedWhirlpool, buildWhirlpoolSwapV2,
    bind_eq_ok, lift_eq_ok, pure_eq_ok, Prod.mk.injEq] at h
  obtain ⟨_, hcheck, _, -, _, ⟨_, -, _, -, _, hquote, rfl⟩, _, ⟨_, -, _, -, _, hdata, rfl⟩, rfl,
    rfl⟩ := h
  exact ⟨protectedQuote_protected (ArrayRequest.check_slippage hcheck) hquote (dataV2_range hdata),
    rfl⟩

theorem prepareDlmm_spec (h : prepareDlmm snapshot r hint spend slippageBps = .ok (q, ix)) :
    q.Protected ∧ ix.programId = dlmmProgram := by
  simp only [prepareDlmm, checkCachedDlmm, calculateCachedDlmm, buildMeteoraDlmmSwap2, bind_eq_ok,
    lift_eq_ok, require_eq_ok, pure_eq_ok, List.forall_mem_cons, Prod.mk.injEq] at h
  obtain ⟨_, hcheck, _, -, _, ⟨_, -, _, -, _, hquote, rfl⟩, _, ⟨_, -, _, ⟨-, hmin, -⟩, _, -, rfl⟩,
    rfl, rfl⟩ := h
  exact ⟨protectedQuote_protected (ArrayRequest.check_slippage hcheck) hquote
    ⟨hmin.1, Int.le_sub_one_of_lt hmin.2⟩, rfl⟩

theorem prepareAmmV4_spec (h : prepareAmmV4 snapshot r hint spend slippageBps = .ok (q, ix)) :
    q.Protected ∧ ix.programId = ammV4Program := by
  simp only [prepareAmmV4, bind_eq_ok, lift_eq_ok, require_eq_ok, pure_eq_ok, Prod.mk.injEq] at h
  obtain ⟨_, -, _, hquote, _, hne, _, -, _, -, rfl, rfl⟩ := h
  exact ⟨quoteCachedAmmV4ExactIn_protected hquote hne, rfl⟩

theorem prepareCpmm_spec (h : prepareCpmm snapshot r hint spend slippageBps = .ok (q, ix)) :
    q.Protected ∧ ix.programId = cpmmProgram := by
  simp only [prepareCpmm, bind_eq_ok, lift_eq_ok, require_eq_ok, pure_eq_ok, Prod.mk.injEq] at h
  obtain ⟨_, -, _, hquote, _, hne, _, -, _, -, _, -, rfl, rfl⟩ := h
  exact ⟨quoteCachedCpmmExactIn_protected hquote hne, rfl⟩

/-- The caller checks that the protected output is not zero. -/
theorem prepareLaunchlab_spec (h : prepareLaunchlab snapshot r hint spend slippageBps = .ok (q, ix))
    (hne : q.minimum ≠ 0) : q.Protected ∧ ix.programId = launchLabProgram := by
  simp only [prepareLaunchlab, buildLaunchlabCurveExactIn, bind_eq_ok, lift_eq_ok, pure_eq_ok,
    Prod.mk.injEq] at h
  obtain ⟨_, -, _, hquote, _, ⟨_, -, _, -, _, -, _, -, rfl⟩, _, hestimate, rfl, rfl⟩ := h
  exact ⟨quoteLaunchlabExactIn_protected hquote hestimate hne, rfl⟩

/-- The programs that legs call. -/
def swapPrograms : List Pubkey :=
  [pumpFunProgram, pumpSwapProgram, clmmProgram, whirlpoolProgram, dlmmProgram, ammV4Program,
    cpmmProgram, launchLabProgram]

theorem quoteLeg_spec (h : quoteLeg snapshot r hint spend slippageBps = .ok (q, ix))
    (hne : q.minimum ≠ 0) : q.Protected ∧ ix.programId ∈ swapPrograms := by
  have hmem : ∀ program ∈ swapPrograms, q.Protected ∧ ix.programId = program →
      q.Protected ∧ ix.programId ∈ swapPrograms := by
    rintro _ hprogram ⟨hq, rfl⟩
    exact ⟨hq, hprogram⟩
  obtain ⟨program, -, h⟩ := bind_eq_ok.1 h
  split at h
  · exact hmem _ (by simp [swapPrograms]) (preparePumpfunLeg_spec h)
  split at h
  · exact hmem _ (by simp [swapPrograms]) (preparePumpswap_spec h)
  split at h
  · exact hmem _ (by simp [swapPrograms]) (prepareClmm_spec h)
  split at h
  · exact hmem _ (by simp [swapPrograms]) (prepareWhirlpool_spec h)
  split at h
  · exact hmem _ (by simp [swapPrograms]) (prepareDlmm_spec h)
  split at h
  · exact hmem _ (by simp [swapPrograms]) (prepareAmmV4_spec h)
  split at h
  · exact hmem _ (by simp [swapPrograms]) (prepareCpmm_spec h)
  split at h
  · exact hmem _ (by simp [swapPrograms]) (prepareLaunchlab_spec h hne)
  · cases h

/-- What a leg of a prepared route is, given what it may spend. -/
structure LegSpec (hint : PoolTradeHint) (spend : ℤ) (leg : CachedRouteLeg) : Prop where
  hint_eq : leg.hint = hint
  used_pos : 0 < leg.amountIn
  used_le : leg.amountIn ≤ spend
  minimum_pos : 0 < leg.minimumNetAmountOut
  minimum_le : leg.minimumNetAmountOut ≤ u64
  estimated : ∃ e, leg.estimatedNetAmountOut = some e ∧ leg.minimumNetAmountOut ≤ e
  program : leg.instruction.programId ∈ swapPrograms

theorem prepareLeg_spec {leg : CachedRouteLeg} (h : prepareLeg snapshot r hint spend = .ok leg) :
    LegSpec hint spend leg := by
  obtain ⟨⟨q, ix⟩, hquote, h⟩ := bind_eq_ok.1 h
  obtain ⟨_, hused, h⟩ := bind_eq_ok.1 h
  rw [require_eq_ok, not_or, not_not] at hused
  obtain ⟨hq, hprogram⟩ := quoteLeg_spec hquote hused.2
  have hleg : ⟨hint, q.used, some q.estimated, q.minimum, ix⟩ = leg := by
    dsimp only at h
    split at h
    · obtain ⟨_, -, h⟩ := bind_eq_ok.1 h
      exact pure_eq_ok.1 h
    · exact pure_eq_ok.1 h
  rw [← hleg]
  exact ⟨rfl, hused.1.1, hused.1.2, hq.minimum_pos, hq.minimum_le, ⟨_, rfl, hq.estimated_ge⟩,
    hprogram⟩

end Leg

/-! ### The chain of the legs -/

/-- Legs for the hints, where each spends at most what the one before protects. -/
inductive LegChain : ℤ → List PoolTradeHint → List CachedRouteLeg → ℤ → Prop
  | nil (spend : ℤ) : LegChain spend [] [] spend
  | cons {hint : PoolTradeHint} {spend final : ℤ} {leg : CachedRouteLeg}
      {hints : List PoolTradeHint} {legs : List CachedRouteLeg} (hleg : LegSpec hint spend leg)
      (hrest : LegChain leg.minimumNetAmountOut hints legs final) :
      LegChain spend (hint :: hints) (leg :: legs) final

section Chain

variable {snapshot : RouteSnapshot} {r : RouteRequest} {hints : List PoolTradeHint}
  {spend final : ℤ} {legs : List CachedRouteLeg}

theorem prepareLegs_chain (h : prepareLegs snapshot r hints spend = .ok (legs, final)) :
    LegChain spend hints legs final := by
  induction hints generalizing spend legs final with
  | nil =>
      rw [prepareLegs, pure_eq_ok, Prod.mk.injEq] at h
      obtain ⟨rfl, rfl⟩ := h
      exact .nil spend
  | cons hint hints ih =>
      rw [prepareLegs] at h
      obtain ⟨leg, hleg, h⟩ := bind_eq_ok.1 h
      obtain ⟨⟨rest, last⟩, hrest, h⟩ := bind_eq_ok.1 h
      rw [pure_eq_ok, Prod.mk.injEq] at h
      obtain ⟨rfl, rfl⟩ := h
      exact .cons (prepareLeg_spec hleg) (ih hrest)

namespace LegChain

theorem hints_eq (h : LegChain spend hints legs final) : legs.map (·.hint) = hints := by
  induction h with
  | nil => rfl
  | cons hleg _ ih => rw [List.map_cons, hleg.hint_eq, ih]

/-- Every leg has a leg specification of its own. -/
theorem leg_spec (h : LegChain spend hints legs final) :
    ∀ leg ∈ legs, ∃ hint spend, LegSpec hint spend leg := by
  induction h with
  | nil => exact fun leg hleg => absurd hleg List.not_mem_nil
  | cons hleg _ ih => exact List.forall_mem_cons.2 ⟨⟨_, _, hleg⟩, ih⟩

theorem first_le (h : LegChain spend hints legs final) :
    ∀ leg ∈ legs.head?, 0 < leg.amountIn ∧ leg.amountIn ≤ spend := by
  cases h with
  | nil => exact fun leg hleg => absurd hleg (by simp)
  | cons hleg _ =>
      rintro leg ⟨⟩
      exact ⟨hleg.used_pos, hleg.used_le⟩

/-- A later leg uses at most what the one before protects. -/
theorem isChain (h : LegChain spend hints legs final) :
    legs.IsChain fun previous current =>
      0 < current.amountIn ∧ current.amountIn ≤ previous.minimumNetAmountOut := by
  induction h with
  | nil => exact .nil
  | cons hleg hrest ih => exact List.isChain_cons.2 ⟨hrest.first_le, ih⟩

theorem last_eq (h : LegChain spend hints legs final) :
    ∀ leg ∈ legs.getLast?, final = leg.minimumNetAmountOut := by
  induction h with
  | nil => exact fun leg hleg => absurd hleg (by simp)
  | @cons _ _ _ leg _ legs _ hrest ih =>
      intro last hlast
      cases hrest with
      | nil =>
          obtain rfl : leg = last := by simpa using hlast
          rfl
      | cons hnext hlater =>
          rw [List.getLast?_cons_cons] at hlast
          exact ih last hlast

/-- No estimate falls short of what the next leg uses. -/
theorem residual_nonneg (h : LegChain spend hints legs final) :
    ∀ residual ∈ estimatedResiduals legs, 0 ≤ residual.2 := by
  induction h with
  | nil => simp [estimatedResiduals]
  | @cons _ _ _ leg _ legs hleg hrest ih =>
      cases hrest with
      | nil => simp [estimatedResiduals]
      | cons hnext hlater =>
          obtain ⟨e, he, hmin⟩ := hleg.estimated
          refine List.forall_mem_cons.2 ⟨?_, ih⟩
          have hused := hnext.used_le
          show 0 ≤ leg.estimatedNetAmountOut.getD 0 - _
          rw [he, Option.getD_some]
          omega

end LegChain

/-! ### The checks of the settlement -/

theorem checkNativeSolLeg_of {hint : PoolTradeHint} {leg : CachedRouteLeg}
    (hleg : LegSpec hint spend leg) (hspend : spend ≤ u64) :
    checkNativeSolLeg leg leg.instruction = .ok () := by
  have hused := hleg.used_pos
  have hle := hleg.used_le
  have hmin := hleg.minimum_pos
  simp only [checkNativeSolLeg, bind_eq_ok, require_eq_ok, unsigned_eq_ok]
  exact ⟨(), trivial, _, ⟨⟨by omega, by omega⟩, rfl⟩, _, ⟨⟨by omega, hleg.minimum_le⟩, rfl⟩,
    by omega⟩

/-- A connected chain of legs passes the checks, after any leg that it continues. -/
theorem checkNativeSolLegs_of (h : LegChain spend hints legs final) (hspend : spend ≤ u64)
    {previous : Option CachedRouteLeg}
    (hconnected : (previous.toList ++ legs).IsChain fun previous current =>
      previous.hint.outputMint = current.hint.inputMint)
    (hprevious : ∀ p ∈ previous, spend = p.minimumNetAmountOut) :
    checkNativeSolLegs previous (legs.zip (legs.map (·.instruction))) = .ok () := by
  induction h generalizing previous with
  | nil => rfl
  | @cons hint spend final leg hints legs hleg hrest ih =>
      rw [List.map_cons, List.zip_cons_cons, checkNativeSolLegs, checkNativeSolLeg_of hleg hspend,
        ok_bind]
      refine bind_eq_ok.2 ⟨(), require_of ?_, ih hleg.minimum_le ?_ ?_⟩
      · intro p hp
        obtain rfl : previous = some p := hp
        refine ⟨(List.isChain_cons_cons.1 hconnected).1, ?_⟩
        exact hprevious p rfl ▸ hleg.used_le
      · exact hconnected.right_of_append
      · rintro p ⟨⟩
        rfl

end Chain

/-! ### Prepared routes -/

/-- A route over the hints for the amount. -/
structure PreparedCachedRoute.WellFormed (route : PreparedCachedRoute)
    (hints : List PoolTradeHint) (amount : ℤ) : Prop where
  hints_eq : route.legs.map (·.hint) = hints
  connected : route.legs.IsChain fun previous current =>
    previous.hint.outputMint = current.hint.inputMint
  mints_nodup : (routeMints hints).Nodup
  pools_nodup : (hints.map (·.pool)).Nodup
  first_amount : ∃ first, route.legs.head? = some first ∧
    0 < first.amountIn ∧ first.amountIn ≤ amount
  later_amounts : route.legs.IsChain fun previous current =>
    0 < current.amountIn ∧ current.amountIn ≤ previous.minimumNetAmountOut
  residuals_nonneg : ∀ residual ∈ route.estimatedIntermediateResiduals, 0 ≤ residual.2
  minimum_eq : ∃ last, route.legs.getLast? = some last ∧
    route.minimumNetAmountOut = last.minimumNetAmountOut
  settles : ∃ ends, checkNativeSolRoute route = .ok ends

section Prepared

variable {snapshot : RouteSnapshot} {d : Derivation} {hints : List PoolTradeHint}
  {r : RouteRequest} {route : PreparedCachedRoute}

/-- What preparing a route does, beyond its checks. -/
theorem prepareCachedRoute_eq_ok (h : prepareCachedRoute snapshot d hints r = .ok route) :
    checkRouteRequest hints r = .ok () ∧
      LegChain r.amount hints route.legs route.minimumNetAmountOut ∧
      route.swapInstructions = route.legs.map (·.instruction) ∧
      route.estimatedIntermediateResiduals = estimatedResiduals route.legs ∧
      List.Forall₂ (fun mint ix => ∃ program, snapshot.owner mint = .ok program ∧
        createAssociatedTokenAccountIdempotent d r.payer r.payer mint program = ix)
        (routeMints hints) route.setupInstructions := by
  obtain ⟨_, hcheck, h⟩ := bind_eq_ok.1 h
  obtain ⟨⟨legs, final⟩, hlegs, h⟩ := bind_eq_ok.1 h
  obtain ⟨setup, hsetup, h⟩ := bind_eq_ok.1 h
  rw [mapM_eq_ok] at hsetup
  simp only [bind_eq_ok, pure_eq_ok] at hsetup
  obtain rfl := pure_eq_ok.1 h
  exact ⟨hcheck, prepareLegs_chain hlegs, rfl, rfl, hsetup⟩

theorem prepareCachedRoute_wellFormed
    (h : prepareCachedRoute snapshot d hints r = .ok route) : route.WellFormed hints r.amount := by
  obtain ⟨hcheck, hchain, hswaps, hresiduals, -⟩ := prepareCachedRoute_eq_ok h
  simp only [checkRouteRequest, bind_eq_ok, lift_eq_ok, unsigned_eq_ok, require_eq_ok] at hcheck
  obtain ⟨_, ⟨hamount, -⟩, _, -, _, hrequest, _, hpools, _, hmints, _, hconnected, -⟩ := hcheck
  have hhints := hchain.hints_eq
  have hlength : route.legs.length = hints.length := by rw [← hhints, List.length_map]
  have hcount : 1 ≤ route.legs.length ∧ route.legs.length ≤ 5 := by omega
  have hne : route.legs ≠ [] := List.ne_nil_of_length_pos (by omega)
  have hlegs : route.legs.IsChain fun previous current =>
      previous.hint.outputMint = current.hint.inputMint := by
    rw [← hhints, List.isChain_map] at hconnected
    exact hconnected
  have hsettles : checkNativeSolLegs none (route.legs.zip (route.legs.map (·.instruction))) =
      .ok () := checkNativeSolLegs_of hchain hamount.2 hlegs (by simp)
  obtain ⟨first, hfirst⟩ : ∃ first, route.legs.head? = some first :=
    ⟨_, List.head?_eq_some_head hne⟩
  obtain ⟨last, hlast⟩ : ∃ last, route.legs.getLast? = some last :=
    ⟨_, List.getLast?_eq_some_getLast hne⟩
  have hminimum := hchain.last_eq last hlast
  obtain ⟨_, _, hspec⟩ := hchain.leg_spec last (List.mem_of_getLast? hlast)
  refine ⟨hhints, hlegs, hmints, hpools, ⟨first, hfirst, hchain.first_le first hfirst⟩,
    hchain.isChain, ?_, ⟨last, hlast, hminimum⟩, (first, last), ?_⟩
  · rw [hresiduals]
    exact hchain.residual_nonneg
  · have hpos := hspec.minimum_pos
    have hle := hspec.minimum_le
    rw [checkNativeSolRoute, hswaps, require_of (by rw [List.length_map]; omega), ok_bind, hsettles,
      ok_bind, unsigned_of (by omega) (by omega), ok_bind, hfirst, hlast]
    exact bind_eq_ok.2 ⟨(), require_of hminimum, rfl⟩

end Prepared

/-! ### Two pools in a row -/

def sampleKey (n : UInt8) : Pubkey := Vector.replicate 32 n

/-- Wrapped SOL against a token in an AMM v4 pool, and that token against another in a
CPMM pool. -/
def twoPools (d : Derivation) (token : Pubkey) : RouteSnapshot where
  owner key :=
    .ok (if key = sampleKey 1 then ammV4Program
      else if key = sampleKey 2 then cpmmProgram
      else tokenProgram)
  cachedPumpfun _ := .error (.unreadable "Invalid PumpFun curve")
  cachedPumpswap _ := .error (.unreadable "Invalid PumpSwap pool layout")
  cachedClmm _ _ := .error (.unreadable "Invalid or disabled CLMM pool")
  cachedWhirlpool _ _ := .error (.unreadable "Invalid Whirlpool pool")
  cachedDlmm _ _ := .error (.unreadable "Disabled or invalid DLMM pool")
  cachedAmmV4 _ _ := .ok
    { state := ⟨sampleKey 1, wsolTokenAccount, 1000000, 2000000, 25, 10000⟩
      accounts := fun payer hint =>
        [⟨d.associatedTokenAddress payer hint.inputMint tokenProgram, false, true⟩,
          ⟨d.associatedTokenAddress payer hint.outputMint tokenProgram, false, true⟩,
          ⟨payer, true, false⟩] }
  cachedCpmm _ _ := .ok
    { state := ⟨token, 3000000, 1000000, 2500, 120000, 40000, 0, 0, false, {}, {}⟩
      accounts := fun payer _ => [⟨payer, true, true⟩] }
  launchlabCurve _ := .error (.unreadable "Invalid LaunchLab pool")

def twoHops (token output : Pubkey) : List PoolTradeHint :=
  [⟨sampleKey 1, wsolTokenAccount, token, none⟩, ⟨sampleKey 2, token, output, none⟩]

def sampleRequest : RouteRequest where
  context := ⟨1, 1, 0, by decide, by decide, by decide⟩
  unixTimestamp := 1
  payer := sampleKey 3
  amount := 10000

theorem prepareCachedRoute_wellFormed_twoPools :
    ∃ route, prepareCachedRoute (twoPools ⟨fun _ mint _ => mint, fun _ _ => sampleKey 4⟩ (sampleKey 5))
        ⟨fun _ mint _ => mint, fun _ _ => sampleKey 4⟩ (twoHops (sampleKey 5) (sampleKey 6))
        sampleRequest = .ok route ∧
      route.WellFormed (twoHops (sampleKey 5) (sampleKey 6)) sampleRequest.amount := by
  obtain ⟨route, h⟩ := exists_of_isOk (show (prepareCachedRoute
    (twoPools ⟨fun _ mint _ => mint, fun _ _ => sampleKey 4⟩ (sampleKey 5))
    ⟨fun _ mint _ => mint, fun _ _ => sampleKey 4⟩ (twoHops (sampleKey 5) (sampleKey 6))
    sampleRequest).isOk by decide +kernel)
  exact ⟨route, h, prepareCachedRoute_wellFormed h⟩

end SolTrade.Route
