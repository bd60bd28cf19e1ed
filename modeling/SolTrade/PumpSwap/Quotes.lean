import SolTrade.Library.ConstantProduct
import SolTrade.Library.SeparateFees
import SolTrade.Route.ReserveQuotes

/-!
The four quotes of a PumpSwap pool.

A purchase or a sale is quoted from the amount that goes in or from the amount that comes out. Each
of the three fees is rounded up on its own; how far the four quotes fit together is decided by what
these roundings add up to.
-/

namespace SolTrade.PumpSwap

open Library ConstantProduct
open Route (PumpSwapFeeBasisPoints RouteError BuyQuoteInputResult SellBaseInputResult mustU64
  pumpswapInputs pumpswapFee effectiveQuoteReserves calculateWithSlippageBuy pumpswapMinimumOutput
  maxSlippageBasisPoints buyQuoteInputInternalWithFees sellBaseInputInternalWithFees)

/-! ### Quotes from the amount that comes out -/

structure BuyBaseInputResult where
  internalQuoteAmount : ℤ
  uiQuote : ℤ
  maxQuote : ℤ
  deriving DecidableEq

def buyBaseInputInternalWithFees (base slippageBasisPoints baseReserve quoteReserve
    virtualQuoteReserves : ℤ) (fees : PumpSwapFeeBasisPoints) :
    Except RouteError BuyBaseInputResult := do
  pumpswapInputs base slippageBasisPoints baseReserve quoteReserve fees
  require (¬ (baseReserve = 0 ∨ quoteReserve = 0)) (.value .depletedPool)
  let effectiveQuoteReserve ← effectiveQuoteReserves quoteReserve virtualQuoteReserves
  require (effectiveQuoteReserve ≠ 0) (.value .depletedQuoteReserves)
  require (base ≤ baseReserve) (.value .depletedPool)
  let denominator := baseReserve - base
  require (denominator ≠ 0) (.value .depletedPool)
  let quoteAmountIn := ceil (effectiveQuoteReserve * base) denominator
  mustU64 quoteAmountIn "raw quote amount"
  let lpFee ← pumpswapFee quoteAmountIn fees.lpFeeBasisPoints
  let protocolFee ← pumpswapFee quoteAmountIn fees.protocolFeeBasisPoints
  let coinCreatorFee ← pumpswapFee quoteAmountIn fees.coinCreatorFeeBasisPoints
  let totalQuote := quoteAmountIn + lpFee + protocolFee + coinCreatorFee
  mustU64 totalQuote "total quote amount"
  let maxQuote ← calculateWithSlippageBuy totalQuote slippageBasisPoints
  return ⟨quoteAmountIn, totalQuote, maxQuote⟩

structure SellQuoteInputResult where
  internalRawQuote : ℤ
  base : ℤ
  minQuote : ℤ
  deriving DecidableEq

def sellQuoteInputInternalWithFees (quote slippageBasisPoints baseReserve quoteReserve
    virtualQuoteReserves : ℤ) (fees : PumpSwapFeeBasisPoints) :
    Except RouteError SellQuoteInputResult := do
  pumpswapInputs quote slippageBasisPoints baseReserve quoteReserve fees
  require (¬ (baseReserve = 0 ∨ quoteReserve = 0)) (.value .depletedPool)
  require (quote ≤ quoteReserve) (.value .depletedPool)
  let effectiveQuoteReserve ← effectiveQuoteReserves quoteReserve virtualQuoteReserves
  require (effectiveQuoteReserve ≠ 0) (.value .depletedQuoteReserves)
  let totalFeeBps := fees.lpFeeBasisPoints + fees.protocolFeeBasisPoints +
    fees.coinCreatorFeeBasisPoints
  let denominator := 10000 - totalFeeBps
  require (0 < denominator) (.value .totalFeeTooHigh)
  let rawQuote := ceil (quote * 10000) denominator
  mustU64 rawQuote "raw quote amount"
  let lpFee ← pumpswapFee rawQuote fees.lpFeeBasisPoints
  require (rawQuote - lpFee ≤ quoteReserve) (.value .insufficientRealQuote)
  require (rawQuote < effectiveQuoteReserve) (.value .depletedPool)
  let baseAmountIn := ceil (baseReserve * rawQuote) (effectiveQuoteReserve - rawQuote)
  mustU64 baseAmountIn "base amount"
  let minQuote ← pumpswapMinimumOutput quote slippageBasisPoints
  return ⟨rawQuote, baseAmountIn, minQuote⟩

/-! ### The checks -/

section Checks

variable {amount slippage baseReserve quoteReserve virtual effective : ℤ}
  {fees : PumpSwapFeeBasisPoints}

def rates (fees : PumpSwapFeeBasisPoints) : List ℤ :=
  [fees.lpFeeBasisPoints, fees.protocolFeeBasisPoints, fees.coinCreatorFeeBasisPoints]

theorem rates_ne_nil (fees : PumpSwapFeeBasisPoints) : rates fees ≠ [] := List.cons_ne_nil _ _

theorem sum_rates (fees : PumpSwapFeeBasisPoints) : (rates fees).sum =
    fees.lpFeeBasisPoints + fees.protocolFeeBasisPoints + fees.coinCreatorFeeBasisPoints := by
  simp [rates, add_assoc]

/-- The three fees on an amount. -/
theorem fees_rates (n : ℤ) : SeparateFees.fees 10000 (rates fees) n =
    ceil (n * fees.lpFeeBasisPoints) 10000 + ceil (n * fees.protocolFeeBasisPoints) 10000 +
      ceil (n * fees.coinCreatorFeeBasisPoints) 10000 := by
  simp [SeparateFees.fees, rates, ceil, add_assoc]

@[simp] theorem mustU64_eq_ok {value : ℤ} {name : String} {u : Unit} :
    mustU64 value name = .ok u ↔ 0 ≤ value ∧ value ≤ u64 :=
  require_eq_ok

@[simp] theorem pumpswapFee_eq_ok {rate fee : ℤ} : pumpswapFee amount rate = .ok fee ↔
    (0 ≤ ceil (amount * rate) 10000 ∧ ceil (amount * rate) 10000 ≤ u64) ∧
      ceil (amount * rate) 10000 = fee := by
  simp only [pumpswapFee, bind_eq_ok, mustU64_eq_ok, pure_eq_ok, exists_const]

theorem slippageBuy_of (hamount : 0 ≤ amount ∧ amount ≤ u64) (hs : 0 ≤ slippage ∧ slippage ≤ u64) :
    ∃ maxQuote, calculateWithSlippageBuy amount slippage = .ok maxQuote := by
  simp only [calculateWithSlippageBuy, bind_eq_ok, mustU64_eq_ok, pure_eq_ok, exists_const]
  exact ⟨_, hamount, hs, rfl⟩

theorem effectiveQuoteReserves_eq_ok
    (h : effectiveQuoteReserves quoteReserve virtual = .ok effective) :
    effective = quoteReserve + virtual := by
  simp only [effectiveQuoteReserves, bind_eq_ok, require_eq_ok, pure_eq_ok] at h
  obtain ⟨_, -, _, -, _, -, rfl⟩ := h
  rfl

/-- The inputs that pass the checks of all four quotes. -/
structure PoolInputs (amount slippage baseReserve quoteReserve virtual : ℤ)
    (fees : PumpSwapFeeBasisPoints) (effective : ℤ) : Prop where
  inputs : pumpswapInputs amount slippage baseReserve quoteReserve fees = .ok ()
  reserves : ¬ (baseReserve = 0 ∨ quoteReserve = 0)
  effective_ok : effectiveQuoteReserves quoteReserve virtual = .ok effective
  effective_ne : effective ≠ 0

theorem pumpswapInputs_eq_ok :
    pumpswapInputs amount slippage baseReserve quoteReserve fees = .ok () ↔
      (0 ≤ amount ∧ amount ≤ u64) ∧ (0 ≤ slippage ∧ slippage ≤ u64) ∧
        (0 ≤ baseReserve ∧ baseReserve ≤ u64) ∧ (0 ≤ quoteReserve ∧ quoteReserve ≤ u64) ∧
        ∀ r ∈ rates fees, 0 ≤ r ∧ r ≤ u64 := by
  simp only [pumpswapInputs, bind_eq_ok, mustU64_eq_ok, exists_const, rates,
    List.forall_mem_cons]
  simp

namespace PoolInputs

variable (h : PoolInputs amount slippage baseReserve quoteReserve virtual fees effective)

include h

theorem amount_range : 0 ≤ amount ∧ amount ≤ u64 := (pumpswapInputs_eq_ok.1 h.inputs).1

theorem slippage_range : 0 ≤ slippage ∧ slippage ≤ u64 := (pumpswapInputs_eq_ok.1 h.inputs).2.1

theorem rates_nonneg : ∀ r ∈ rates fees, 0 ≤ r :=
  fun r hr => ((pumpswapInputs_eq_ok.1 h.inputs).2.2.2.2 r hr).1

theorem baseReserve_pos : 0 < baseReserve := by
  have := (pumpswapInputs_eq_ok.1 h.inputs).2.2.1
  have := h.reserves
  omega

theorem effective_range : 0 < effective ∧ effective ≤ u64 := by
  have heffective := h.effective_ok
  have := h.effective_ne
  simp only [effectiveQuoteReserves, bind_eq_ok, require_eq_ok, pure_eq_ok] at heffective
  obtain ⟨_, -, _, -, _, hrange, rfl⟩ := heffective
  omega

/-- The checks of another amount on the same pool. -/
theorem of_amount {x : ℤ} (hx : 0 ≤ x ∧ x ≤ u64) :
    PoolInputs x slippage baseReserve quoteReserve virtual fees effective := by
  have hinputs := pumpswapInputs_eq_ok.1 h.inputs
  exact ⟨pumpswapInputs_eq_ok.2 ⟨hx, hinputs.2⟩, h.reserves, h.effective_ok, h.effective_ne⟩

end PoolInputs

end Checks

/-! ### What the quotes are -/

section Specs

variable {amount slippage baseReserve quoteReserve virtual effective : ℤ}
  {fees : PumpSwapFeeBasisPoints}

/-- The net amount of a budget buys from the reserves, less one unit. -/
theorem buyQuote_spec {q : BuyQuoteInputResult}
    (h : buyQuoteInputInternalWithFees amount slippage baseReserve quoteReserve virtual fees =
      .ok q) :
    ∃ effective, PoolInputs amount slippage baseReserve quoteReserve virtual fees effective ∧
      q.internalQuoteWithoutFees = SeparateFees.net 10000 (rates fees) amount ∧
      0 < q.internalQuoteWithoutFees ∧
      q.base = bought baseReserve effective (q.internalQuoteWithoutFees - 1) := by
  simp only [buyQuoteInputInternalWithFees, bind_eq_ok, require_eq_ok, mustU64_eq_ok,
    pumpswapFee_eq_ok, pure_eq_ok] at h
  obtain ⟨_, hinputs, _, hreserves, effective, heffective, _, hne, _, -, _, -, _, ⟨-, rfl⟩, _,
    ⟨-, rfl⟩, _, ⟨-, rfl⟩, _, hpos, _, -, _, -, rfl⟩ := h
  refine ⟨effective, ⟨hinputs, hreserves, heffective, hne⟩, ?_, hpos, ?_⟩
  · have hshare : amount * 10000 / (10000 + (fees.lpFeeBasisPoints +
        fees.protocolFeeBasisPoints + fees.coinCreatorFeeBasisPoints)) =
        SeparateFees.share 10000 (rates fees) amount := by
      rw [SeparateFees.share, sum_rates]
    have htotal : ∀ n : ℤ, n + ceil (n * fees.lpFeeBasisPoints) 10000 +
        ceil (n * fees.protocolFeeBasisPoints) 10000 +
        ceil (n * fees.coinCreatorFeeBasisPoints) 10000 =
        SeparateFees.gross 10000 (rates fees) n := by
      intro n
      rw [SeparateFees.gross, fees_rates]
      ring
    rw [hshare, htotal, SeparateFees.net]
    split_ifs with hover
    · rw [max_eq_right (by omega)]
    · rw [max_eq_left (by omega), sub_zero]
  · rw [bought, mul_comm]

/-- What a sale yields is net of the three fees. -/
theorem sellBase_spec {q : SellBaseInputResult}
    (h : sellBaseInputInternalWithFees amount slippage baseReserve quoteReserve virtual fees =
      .ok q) :
    ∃ effective, PoolInputs amount slippage baseReserve quoteReserve virtual fees effective ∧
      q.internalQuoteAmountOut = bought effective baseReserve amount ∧
      q.uiQuote = SeparateFees.rest 10000 (rates fees) q.internalQuoteAmountOut ∧
      0 ≤ q.uiQuote := by
  simp only [sellBaseInputInternalWithFees, bind_eq_ok, require_eq_ok, mustU64_eq_ok,
    pumpswapFee_eq_ok, pure_eq_ok] at h
  obtain ⟨_, hinputs, _, hreserves, effective, heffective, _, hne, _, -, _, ⟨-, rfl⟩, _,
    ⟨-, rfl⟩, _, ⟨-, rfl⟩, _, -, _, hfees, _, -, _, -, rfl⟩ := h
  refine ⟨effective, ⟨hinputs, hreserves, heffective, hne⟩, ?_, ?_, sub_nonneg.2 hfees⟩
  · rw [bought, mul_comm]
  · rw [SeparateFees.rest, fees_rates]

/-- What a sale of a net amount asks for. -/
theorem sellQuote_spec {q : SellQuoteInputResult}
    (h : sellQuoteInputInternalWithFees amount slippage baseReserve quoteReserve virtual fees =
      .ok q) :
    ∃ effective, PoolInputs amount slippage baseReserve quoteReserve virtual fees effective ∧
      (rates fees).sum < 10000 ∧
      q.internalRawQuote = ceil (amount * 10000) (10000 - (rates fees).sum) ∧
      q.internalRawQuote < effective ∧
      q.base = ceil (baseReserve * q.internalRawQuote) (effective - q.internalRawQuote) := by
  simp only [sellQuoteInputInternalWithFees, bind_eq_ok, require_eq_ok, mustU64_eq_ok,
    pumpswapFee_eq_ok, pure_eq_ok] at h
  obtain ⟨_, hinputs, _, hreserves, _, -, effective, heffective, _, hne, _, hrate, _, -, _,
    ⟨-, rfl⟩, _, -, _, hraw, _, -, _, -, rfl⟩ := h
  rw [← sum_rates] at hrate hraw ⊢
  exact ⟨effective, ⟨hinputs, hreserves, heffective, hne⟩, by omega, rfl, hraw, rfl⟩

/-- A purchase of less than the base reserve is quoted if its gross amount fits. -/
theorem buyBase_of (h : PoolInputs amount slippage baseReserve quoteReserve virtual fees effective)
    (hbase : amount < baseReserve)
    (hfits : SeparateFees.gross 10000 (rates fees)
      (ceil (effective * amount) (baseReserve - amount)) ≤ u64) :
    ∃ q, buyBaseInputInternalWithFees amount slippage baseReserve quoteReserve virtual fees =
        .ok q ∧
      q.uiQuote = SeparateFees.gross 10000 (rates fees)
        (ceil (effective * amount) (baseReserve - amount)) := by
  have hamount := h.amount_range
  have heffective := h.effective_range
  have hcost : 0 ≤ ceil (effective * amount) (baseReserve - amount) :=
    Rounding.ceil_nonneg (by omega) (mul_nonneg heffective.1.le hamount.1)
  have hfee : ∀ r, 0 ≤ r →
      0 ≤ ceil (ceil (effective * amount) (baseReserve - amount) * r) 10000 :=
    fun r hr => Rounding.ceil_nonneg (by norm_num) (mul_nonneg hcost hr)
  generalize hcost_eq : ceil (effective * amount) (baseReserve - amount) = cost at *
  have hrates := h.rates_nonneg
  simp only [rates, List.forall_mem_cons] at hrates
  obtain ⟨hlp, hprotocol, hcreator, -⟩ := hrates
  have hlp := hfee _ hlp
  have hprotocol := hfee _ hprotocol
  have hcreator := hfee _ hcreator
  have hgross : SeparateFees.gross 10000 (rates fees) cost = cost +
      ceil (cost * fees.lpFeeBasisPoints) 10000 + ceil (cost * fees.protocolFeeBasisPoints) 10000 +
      ceil (cost * fees.coinCreatorFeeBasisPoints) 10000 := by
    rw [SeparateFees.gross, fees_rates]
    ring
  rw [hgross] at hfits ⊢
  obtain ⟨maxQuote, hmax⟩ := slippageBuy_of ⟨by omega, hfits⟩ h.slippage_range
  subst hcost_eq
  refine ⟨⟨ceil (effective * amount) (baseReserve - amount), _, maxQuote⟩, ?_, rfl⟩
  simp only [buyBaseInputInternalWithFees, bind_eq_ok, require_eq_ok, mustU64_eq_ok,
    pumpswapFee_eq_ok, pure_eq_ok]
  exact ⟨(), h.inputs, (), h.reserves, effective, h.effective_ok, (), h.effective_ne, (), hbase.le,
    (), by omega, (), by omega, _, ⟨by omega, rfl⟩, _, ⟨by omega, rfl⟩, _, ⟨by omega, rfl⟩, (),
    by omega, maxQuote, hmax, rfl⟩

/-- A sale whose output the real reserve can pay is quoted if it pays its fees. -/
theorem sellBase_of (h : PoolInputs amount slippage baseReserve quoteReserve virtual fees effective)
    (hpays : 0 ≤ SeparateFees.rest 10000 (rates fees) (bought effective baseReserve amount))
    (hreal : bought effective baseReserve amount ≤ quoteReserve) :
    ∃ r, sellBaseInputInternalWithFees amount slippage baseReserve quoteReserve virtual fees =
        .ok r ∧
      r.uiQuote = SeparateFees.rest 10000 (rates fees) (bought effective baseReserve amount) := by
  have hamount := h.amount_range
  have hbase := h.baseReserve_pos
  have hreserve := (pumpswapInputs_eq_ok.1 h.inputs).2.2.2.1
  have hout : 0 ≤ bought effective baseReserve amount :=
    bought_nonneg hamount.1 h.effective_range.1.le (by omega)
  have hfee : ∀ r, 0 ≤ r → 0 ≤ ceil (bought effective baseReserve amount * r) 10000 :=
    fun r hr => Rounding.ceil_nonneg (by norm_num) (mul_nonneg hout hr)
  have hsold : effective * amount / (baseReserve + amount) =
      bought effective baseReserve amount := by
    rw [bought, mul_comm]
  have hrates := h.rates_nonneg
  simp only [rates, List.forall_mem_cons] at hrates
  obtain ⟨hlp, hprotocol, hcreator, -⟩ := hrates
  have hlp := hfee _ hlp
  have hprotocol := hfee _ hprotocol
  have hcreator := hfee _ hcreator
  rw [SeparateFees.rest, fees_rates] at hpays ⊢
  have hminimum : ∀ n, 0 ≤ n → n ≤ u64 → ∃ m, pumpswapMinimumOutput n slippage = .ok m := by
    intro n h₀ h₁
    simp only [pumpswapMinimumOutput, bind_eq_ok, mustU64_eq_ok, pure_eq_ok, exists_const]
    exact ⟨_, ⟨h₀, h₁⟩, h.slippage_range, rfl⟩
  obtain ⟨m, hm⟩ := hminimum _ hpays (by omega)
  simp only [sellBaseInputInternalWithFees, bind_eq_ok, require_eq_ok, mustU64_eq_ok,
    pumpswapFee_eq_ok, pure_eq_ok]
  refine ⟨⟨_, m, bought effective baseReserve amount⟩, ⟨(), h.inputs, (), h.reserves, effective,
    h.effective_ok, (), h.effective_ne, (), by omega, _, ⟨by rw [hsold]; omega, rfl⟩, _,
    ⟨by rw [hsold]; omega, rfl⟩, _, ⟨by rw [hsold]; omega, rfl⟩, (), by rw [hsold]; omega, (),
    by rw [hsold]; omega, (), by rw [hsold]; omega, m, by rw [hsold]; exact hm, ?_⟩, rfl⟩
  rw [hsold]

end Specs

/-! ### A purchase stays within its budget -/

section Quotes

variable {quote slippage baseReserve quoteReserve virtual : ℤ} {fees : PumpSwapFeeBasisPoints}

/-- The net amount of a purchase and its fees stay within the budget, and asking for what it buys
costs no more. -/
theorem buyQuote_within_budget {q : BuyQuoteInputResult}
    (h : buyQuoteInputInternalWithFees quote slippage baseReserve quoteReserve virtual fees =
      .ok q) :
    q.internalQuoteWithoutFees + ceil (q.internalQuoteWithoutFees * fees.lpFeeBasisPoints) 10000 +
        ceil (q.internalQuoteWithoutFees * fees.protocolFeeBasisPoints) 10000 +
        ceil (q.internalQuoteWithoutFees * fees.coinCreatorFeeBasisPoints) 10000 ≤ quote ∧
      ∃ q', buyBaseInputInternalWithFees q.base slippage baseReserve quoteReserve virtual fees =
        .ok q' ∧ q'.uiQuote ≤ quote := by
  obtain ⟨effective, hinputs, hnet, hpos, hbase⟩ := buyQuote_spec h
  have hamount := hinputs.amount_range
  have hbaseReserve := hinputs.baseReserve_pos
  have heffective := hinputs.effective_range
  have hwithin := SeparateFees.gross_net_le (by norm_num) hinputs.rates_nonneg quote (d := 10000)
  rw [← hnet] at hwithin
  have hbought : 0 ≤ q.base := hbase ▸ bought_nonneg (by omega) hbaseReserve.le (by omega)
  have hless : q.base < baseReserve := hbase ▸ bought_lt (by omega) hbaseReserve heffective.1
  -- the output costs at most the payment it was bought with
  have hcost : ceil (effective * q.base) (baseReserve - q.base) ≤ q.internalQuoteWithoutFees := by
    have hpaid := (le_bought_iff (by omega)).1 hbase.le
    rw [ceil, Rounding.ceil_le_iff (by omega)]
    calc effective * q.base = q.base * effective := mul_comm _ _
      _ ≤ (q.internalQuoteWithoutFees - 1) * (baseReserve - q.base) := hpaid
      _ ≤ q.internalQuoteWithoutFees * (baseReserve - q.base) :=
          mul_le_mul_of_nonneg_right (by omega) (by omega)
  have hgross := (SeparateFees.gross_mono (by norm_num) hinputs.rates_nonneg hcost).trans hwithin
  have hinputs' : PoolInputs q.base slippage baseReserve quoteReserve virtual fees effective := by
    have := (pumpswapInputs_eq_ok.1 hinputs.inputs).2.2.1
    exact hinputs.of_amount ⟨hbought, by omega⟩
  obtain ⟨q', hq', htotal⟩ := buyBase_of hinputs' hless (hgross.trans hamount.2)
  refine ⟨?_, q', hq', htotal.le.trans hgross⟩
  rw [SeparateFees.gross, fees_rates] at hwithin
  omega

/-- A purchase whose three fees are rounded up by almost a unit each. -/
theorem buyQuote_within_budget_rounded :
    (1999 : ℤ) + ceil (1999 * 25) 10000 + ceil (1999 * 5) 10000 + ceil (1999 * 5) 10000 ≤ 2009 ∧
      ∃ q', buyBaseInputInternalWithFees 1994015 0 1000000000 1000000 0 ⟨25, 5, 5⟩ = .ok q' ∧
        q'.uiQuote ≤ 2009 := by
  have h : buyQuoteInputInternalWithFees 2009 0 1000000000 1000000 0 ⟨25, 5, 5⟩ =
      .ok ⟨1994015, 1999, 2009⟩ := by decide
  exact buyQuote_within_budget h

/-! ### A sale of a net amount -/

/-- The sale of what a request asks for yields the request, short of at most one unit for each fee
that is charged after the first. -/
theorem sellQuote_short_by {q : SellQuoteInputResult} {r : SellBaseInputResult} {s : ℤ}
    (h : sellQuoteInputInternalWithFees quote slippage baseReserve quoteReserve virtual fees =
      .ok q)
    (hr : sellBaseInputInternalWithFees q.base s baseReserve quoteReserve virtual fees = .ok r) :
    quote ≤ r.uiQuote + ((rates fees).countP (· ≠ 0) - 1 : ℕ) := by
  obtain ⟨effective, hinputs, hrate, hraw, hless, hbase⟩ := sellQuote_spec h
  obtain ⟨effective', hinputs', hgross, hrest, -⟩ := sellBase_spec hr
  obtain rfl := effectiveQuoteReserves_eq_ok hinputs.effective_ok
  obtain rfl := effectiveQuoteReserves_eq_ok hinputs'.effective_ok
  have hbaseReserve := hinputs.baseReserve_pos
  have hsold := hinputs'.amount_range
  rw [hrest]
  apply SeparateFees.le_rest_add (by norm_num)
  -- the sale yields at least the request with the summed rates on top
  have hyields : q.internalRawQuote ≤ r.internalQuoteAmountOut := by
    rw [hgross, le_bought_iff (by omega), mul_comm]
    rw [hbase]
    exact Rounding.le_ceil_mul _ (by omega)
  calc quote * 10000 ≤ q.internalRawQuote * (10000 - (rates fees).sum) := by
        rw [hraw]
        exact Rounding.le_ceil_mul _ (by omega)
    _ ≤ r.internalQuoteAmountOut * (10000 - (rates fees).sum) :=
        mul_le_mul_of_nonneg_right hyields (by omega)

/-- A pool with one unit of base, in which the least sale yields one unit more than two multiples of
the denominator, so every fee that is charged is rounded up by almost a unit. -/
theorem sellQuote_short_pool (hrates : ∀ r ∈ rates fees, 0 ≤ r)
    (htotal : (rates fees).sum < 10000) :
    ∃ q r, sellQuoteInputInternalWithFees (2 * (10000 - (rates fees).sum)) 0 1 40002 0 fees =
        .ok q ∧
      sellBaseInputInternalWithFees q.base 0 1 40002 0 fees = .ok r ∧
      r.uiQuote + (rates fees).countP (· ≠ 0) = 2 * (10000 - (rates fees).sum) + 1 := by
  have hu64 : (40002 : ℤ) ≤ u64 := by decide
  have hless : ∀ r ∈ rates fees, 0 ≤ r ∧ r < 10000 := fun r hr =>
    ⟨hrates r hr, (List.single_le_sum hrates r hr).trans_lt htotal⟩
  have hcharged : (rates fees).countP (· ≠ 0) ≤ 3 := List.countP_le_length
  have hinputs : ∀ amount, 0 ≤ amount → amount ≤ 40002 →
      PoolInputs amount 0 1 40002 0 fees 40002 := by
    intro amount h₀ h₁
    refine ⟨pumpswapInputs_eq_ok.2 ⟨⟨h₀, h₁.trans hu64⟩, ⟨le_rfl, by omega⟩,
      ⟨by norm_num, by omega⟩, ⟨by norm_num, hu64⟩, fun r hr => ⟨hrates r hr, ?_⟩⟩, by decide,
      by decide, by decide⟩
    have := (hless r hr).2
    omega
  have hsum := List.sum_nonneg hrates
  refine ⟨⟨20000, 1, 2 * (10000 - (rates fees).sum)⟩, ?_⟩
  have hrest : SeparateFees.rest 10000 (rates fees) (bought 40002 1 1) =
      2 * (10000 - (rates fees).sum) + 1 - (rates fees).countP (· ≠ 0) := by
    rw [show bought 40002 1 1 = 2 * 10000 + 1 by decide, SeparateFees.rest,
      SeparateFees.fees_mul_add_one hless]
    ring
  obtain ⟨r, hr, hyields⟩ := sellBase_of (hinputs 1 (by norm_num) (by norm_num))
    (by rw [hrest]; omega) (by decide)
  refine ⟨r, ?_, hr, by omega⟩
  have hpool := hinputs (2 * (10000 - (rates fees).sum)) (by omega) (by omega)
  have hraw : ceil (2 * (10000 - (rates fees).sum) * 10000) (10000 - (rates fees).sum) = 20000 := by
    have hpos : 0 < 10000 - (rates fees).sum := by omega
    generalize 10000 - (rates fees).sum = denominator at hpos ⊢
    have hsplit : 2 * denominator * 10000 + denominator - 1 =
        (denominator - 1) + denominator * 20000 := by ring
    rw [ceil, hsplit, Int.add_mul_ediv_left _ _ hpos.ne',
      Int.ediv_eq_zero_of_lt (by omega) (by omega), zero_add]
  have hlp : ceil (20000 * fees.lpFeeBasisPoints) 10000 = 2 * fees.lpFeeBasisPoints := by
    rw [ceil]
    omega
  have hlpRange := hless fees.lpFeeBasisPoints List.mem_cons_self
  rw [sum_rates] at hraw htotal hsum hpool ⊢
  simp only [sellQuoteInputInternalWithFees, bind_eq_ok, require_eq_ok, mustU64_eq_ok,
    pumpswapFee_eq_ok, pure_eq_ok, hraw]
  refine ⟨(), hpool.inputs, (), hpool.reserves, (), by omega, 40002, hpool.effective_ok, (),
    hpool.effective_ne, (), by omega, (), by omega, _, ⟨by rw [hlp]; omega, rfl⟩, (),
    by rw [hlp]; omega, (), by norm_num, (), by decide, 2 * (10000 - (fees.lpFeeBasisPoints +
      fees.protocolFeeBasisPoints + fees.coinCreatorFeeBasisPoints)), ?_, rfl⟩
  simp only [pumpswapMinimumOutput, bind_eq_ok, mustU64_eq_ok, pure_eq_ok, exists_const]
  refine ⟨hpool.amount_range, hpool.slippage_range, ?_⟩
  rw [min_eq_left (by decide), sub_zero, Int.mul_ediv_cancel _ (by norm_num)]

/-- Selling the base that a request asks for yields the request, in every pool and for every
request, if and only if no more than one of the fees is charged (or the fees are refused). It is
never short by more than two units. -/
theorem sellQuote_sufficient_iff (fees : PumpSwapFeeBasisPoints) :
    ((∀ (quote slippage s baseReserve quoteReserve virtual : ℤ) (q : SellQuoteInputResult)
          (r : SellBaseInputResult),
        sellQuoteInputInternalWithFees quote slippage baseReserve quoteReserve virtual fees =
          .ok q →
        sellBaseInputInternalWithFees q.base s baseReserve quoteReserve virtual fees = .ok r →
        quote ≤ r.uiQuote) ↔
      ((∀ r ∈ rates fees, 0 ≤ r) → (rates fees).sum < 10000 →
        (rates fees).countP (· ≠ 0) ≤ 1)) ∧
    ∀ (quote slippage s baseReserve quoteReserve virtual : ℤ) (q : SellQuoteInputResult)
        (r : SellBaseInputResult),
      sellQuoteInputInternalWithFees quote slippage baseReserve quoteReserve virtual fees =
        .ok q →
      sellBaseInputInternalWithFees q.base s baseReserve quoteReserve virtual fees = .ok r →
      quote ≤ r.uiQuote + 2 := by
  refine ⟨⟨fun h hrates htotal => ?_, ?_⟩, ?_⟩
  · obtain ⟨q, r, hq, hr, hshort⟩ := sellQuote_short_pool hrates htotal
    have henough := h _ _ _ _ _ _ q r hq hr
    omega
  · intro hone quote slippage s baseReserve quoteReserve virtual q r hq hr
    obtain ⟨effective, hinputs, hrate, -⟩ := sellQuote_spec hq
    have hcharged := hone hinputs.rates_nonneg hrate
    have hshort := sellQuote_short_by hq hr
    omega
  · intro quote slippage s baseReserve quoteReserve virtual q r hq hr
    have hshort := sellQuote_short_by hq hr
    have hthree : (rates fees).countP (· ≠ 0) ≤ 3 := List.countP_le_length
    omega

/-- Ten units are asked for, and the sale yields eight: each of the three fees is rounded up to a
unit. -/
theorem sellQuote_short :
    sellQuoteInputInternalWithFees 10 0 1000000 1000000 0 ⟨25, 5, 5⟩ = .ok ⟨11, 12, 10⟩ ∧
      ∃ r, sellBaseInputInternalWithFees 12 0 1000000 1000000 0 ⟨25, 5, 5⟩ = .ok r ∧
        r.uiQuote = 8 ∧ ¬ 10 ≤ r.uiQuote :=
  ⟨by decide, ⟨8, 8, 11⟩, by decide, rfl, by decide⟩

/-! ### Larger amounts -/

/-- A larger payment buys at least as much, unless the roundings take a unit of its net amount. A
larger sale yields at most two units less. -/
theorem quotes_mono {a b : ℤ} (hab : a ≤ b) :
    (∀ qa qb,
      buyQuoteInputInternalWithFees a slippage baseReserve quoteReserve virtual fees = .ok qa →
      buyQuoteInputInternalWithFees b slippage baseReserve quoteReserve virtual fees = .ok qb →
      qa.base ≤ qb.base ∨
        b * 10000 / (10000 + (rates fees).sum) = a * 10000 / (10000 + (rates fees).sum) + 1 ∧
          qb.internalQuoteWithoutFees + 1 = qa.internalQuoteWithoutFees) ∧
    (∀ qa qb,
      sellBaseInputInternalWithFees a slippage baseReserve quoteReserve virtual fees = .ok qa →
      sellBaseInputInternalWithFees b slippage baseReserve quoteReserve virtual fees = .ok qb →
      qa.uiQuote ≤ qb.uiQuote + 2) := by
  constructor
  · intro qa qb ha hb
    obtain ⟨effective, hinputs, hneta, hposa, hbasea⟩ := buyQuote_spec ha
    obtain ⟨effective', hinputs', hnetb, -, hbaseb⟩ := buyQuote_spec hb
    obtain rfl := effectiveQuoteReserves_eq_ok hinputs.effective_ok
    obtain rfl := effectiveQuoteReserves_eq_ok hinputs'.effective_ok
    rcases le_or_gt qa.internalQuoteWithoutFees qb.internalQuoteWithoutFees with hle | hlt
    · left
      rw [hbasea, hbaseb]
      exact bought_mono (by omega) (by omega) hinputs.baseReserve_pos hinputs.effective_range.1
    · right
      have hshare := SeparateFees.share_mono (d := 10000) (by norm_num) hinputs.rates_nonneg hab
      have hfall := SeparateFees.net_fall (d := 10000) (by norm_num) hinputs.rates_nonneg
        (show 2 ≤ (rates fees).length by simp [rates]) hab
      rw [hneta, hnetb] at hlt ⊢
      have hlength : ((rates fees).length : ℤ) = 3 := rfl
      refine ⟨?_, by omega⟩
      show SeparateFees.share 10000 (rates fees) b = SeparateFees.share 10000 (rates fees) a + 1
      by_contra hne
      rcases hshare.eq_or_lt with heq | hgrows
      · exact absurd (SeparateFees.net_mono_of_share_eq hab heq) (not_le.2 hlt)
      · exact absurd (SeparateFees.net_mono_of_share_add_le (by norm_num) hinputs.rates_nonneg
          (rates_ne_nil fees) (by omega)) (not_le.2 hlt)
  · intro qa qb ha hb
    obtain ⟨effective, hinputs, hgrossa, hresta, -⟩ := sellBase_spec ha
    obtain ⟨effective', hinputs', hgrossb, hrestb, hnonneg⟩ := sellBase_spec hb
    have hamount := hinputs.amount_range.1
    obtain rfl := effectiveQuoteReserves_eq_ok hinputs.effective_ok
    obtain rfl := effectiveQuoteReserves_eq_ok hinputs'.effective_ok
    have hmono : qa.internalQuoteAmountOut ≤ qb.internalQuoteAmountOut := by
      rw [hgrossa, hgrossb]
      exact bought_mono hamount hab hinputs.effective_range.1 hinputs.baseReserve_pos
    rcases le_or_gt (rates fees).sum 10000 with hrate | hrate
    · have hfall := SeparateFees.rest_fall (d := 10000) (by norm_num) hrate (rates_ne_nil fees)
        hmono
      have hlength : ((rates fees).length : ℤ) = 3 := rfl
      rw [← hresta, ← hrestb] at hfall
      omega
    · -- such fees are more than the whole amount, so nothing is sold
      have hmul := SeparateFees.rest_mul (d := 10000) (by norm_num) (rates fees)
        qa.internalQuoteAmountOut
      have hresidues := SeparateFees.residues_nonneg (d := 10000) (by norm_num) (rates fees)
        qa.internalQuoteAmountOut
      have hsold : 0 ≤ qa.internalQuoteAmountOut := by
        have := hinputs.baseReserve_pos
        rw [hgrossa]
        exact bought_nonneg hamount hinputs.effective_range.1.le (by omega)
      have htaken : qa.internalQuoteAmountOut * (10000 - (rates fees).sum) ≤ 0 :=
        mul_nonpos_of_nonneg_of_nonpos hsold (by omega)
      rw [← hresta] at hmul
      omega

/-- At 2008 units the three fees are at the end of a step, at 2009 all of them have gone up. -/
theorem quotes_mono_at_step :
    (∀ qa qb,
      buyQuoteInputInternalWithFees 2008 0 1000000000 1000000 0 ⟨25, 5, 5⟩ = .ok qa →
      buyQuoteInputInternalWithFees 2009 0 1000000000 1000000 0 ⟨25, 5, 5⟩ = .ok qb →
      qa.base ≤ qb.base ∨
        (2009 : ℤ) * 10000 / (10000 + (rates ⟨25, 5, 5⟩).sum) =
            2008 * 10000 / (10000 + (rates ⟨25, 5, 5⟩).sum) + 1 ∧
          qb.internalQuoteWithoutFees + 1 = qa.internalQuoteWithoutFees) ∧
    (∀ qa qb,
      sellBaseInputInternalWithFees 2008 0 1000000000 1000000 0 ⟨25, 5, 5⟩ = .ok qa →
      sellBaseInputInternalWithFees 2009 0 1000000000 1000000 0 ⟨25, 5, 5⟩ = .ok qb →
      qa.uiQuote ≤ qb.uiQuote + 2) :=
  quotes_mono (by norm_num)

/-- One more unit buys less, and a larger sale yields less. -/
theorem quotes_not_mono :
    (∃ qa qb,
      buyQuoteInputInternalWithFees 2008 0 1000000000 1000000 0 ⟨25, 5, 5⟩ = .ok qa ∧
      buyQuoteInputInternalWithFees 2009 0 1000000000 1000000 0 ⟨25, 5, 5⟩ = .ok qb ∧
      ¬ qa.base ≤ qb.base) ∧
    (∃ qa qb,
      sellBaseInputInternalWithFees 2004009 0 1000000000 1000000 0 ⟨25, 5, 5⟩ = .ok qa ∧
      sellBaseInputInternalWithFees 2005050 0 1000000000 1000000 0 ⟨25, 5, 5⟩ = .ok qb ∧
      ¬ qa.uiQuote ≤ qb.uiQuote) :=
  ⟨⟨⟨1995011, 2000, 2008⟩, ⟨1994015, 1999, 2009⟩, by decide, by decide, by decide⟩,
    ⟨⟨1993, 1993, 2000⟩, ⟨1991, 1991, 2001⟩, by decide, by decide, by decide⟩⟩

end Quotes

end SolTrade.PumpSwap
