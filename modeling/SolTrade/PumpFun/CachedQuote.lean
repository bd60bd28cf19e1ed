import SolTrade.PumpFun.V3Sound
import SolTrade.Pubkey

/-!
The cached curve quote beside the V3 curve.

The cached quote takes both fees off in one division, of the amount less one unit; a
V3 purchase takes two fees off, each rounded up, and spends one unit less. The two
net amounts differ by at most one unit.
-/

namespace SolTrade.PumpFun

open Library ConstantProduct

structure PumpFunCurrentFees where
  protocolFeeBps : ℤ
  creatorFeeBps : ℤ
  deriving DecidableEq, Repr

structure BondingCurve where
  virtualTokenReserves : ℤ
  virtualSolReserves : ℤ
  realTokenReserves : ℤ
  realSolReserves : ℤ
  complete : Bool
  creator : Pubkey
  deriving DecidableEq

structure CachedPumpFunState where
  curve : BondingCurve
  buyFees : PumpFunCurrentFees
  sellFees : PumpFunCurrentFees
  deriving DecidableEq

structure CachedPumpFunQuote where
  amountIn : ℤ
  estimatedNetAmountOut : ℤ
  minimumNetAmountOut : ℤ
  fees : PumpFunCurrentFees
  deriving DecidableEq, Repr

/-- A curve without a creator charges no creator fee. -/
def creatorRate (c : BondingCurve) (f : PumpFunCurrentFees) : ℤ :=
  if c.creator = .default then 0 else f.creatorFeeBps

def quoteCachedPumpfunExactIn (state : CachedPumpFunState) (amount : ℤ) (buy : Bool)
    (slippageBps : ℤ := 0) : Except ValueError CachedPumpFunQuote := do
  let _ ← unsigned amount u64
  require (¬ (amount = 0 ∨ ¬ (0 ≤ slippageBps ∧ slippageBps ≤ 9999))) .invalidPumpFunRequest
  let c := state.curve
  let f := if buy then state.buyFees else state.sellFees
  let creator := creatorRate c f
  let _ ← unsigned c.virtualTokenReserves u64
  let _ ← unsigned c.virtualSolReserves u64
  let _ ← unsigned c.realTokenReserves u64
  let _ ← unsigned f.protocolFeeBps u64
  let _ ← unsigned f.creatorFeeBps u64
  require (¬ (c.complete = true ∨ c.virtualTokenReserves = 0 ∨ c.virtualSolReserves = 0 ∨
    f.protocolFeeBps + f.creatorFeeBps > 10000)) .invalidPumpFunQuoteState
  let estimated :=
    if buy then
      let net := (amount - 1) * 10000 / (10000 + f.protocolFeeBps + creator)
      min (net * c.virtualTokenReserves / (c.virtualSolReserves + net)) c.realTokenReserves
    else
      let gross := amount * c.virtualSolReserves / (c.virtualTokenReserves + amount)
      gross - (gross * f.protocolFeeBps + 9999) / 10000 - (gross * creator + 9999) / 10000
  let minimum := estimated * (10000 - slippageBps) / 10000
  require (¬ (estimated ≤ 0 ∨ minimum ≤ 0)) .pumpFunZeroOutput
  let _ ← unsigned estimated u64
  return ⟨amount, estimated, minimum, f⟩

/-- The V3 curve with the reserves and the buy rates of a cached one. -/
def CachedPumpFunState.v3 (state : CachedPumpFunState) (curveBaseBalance migrationFee : ℤ)
    (mayhem : Bool) : PumpV3QuoteState :=
  { virtualBase := state.curve.virtualTokenReserves
    virtualQuote := state.curve.virtualSolReserves
    remainingBase := state.curve.realTokenReserves
    realQuote := state.curve.realSolReserves
    curveBaseBalance
    migrationFee
    protocolBps := state.buyFees.protocolFeeBps
    creatorBps := creatorRate state.curve state.buyFees
    complete := state.curve.complete
    mayhem }

/-- The cached net amount of a purchase. -/
def cachedNet (state : CachedPumpFunState) (amount : ℤ) : ℤ :=
  (amount - 1) * 10000 /
    (10000 + state.buyFees.protocolFeeBps + creatorRate state.curve state.buyFees)

/-- The amount pays, with both fees rounded up, for one unit more than the cached net
amount; or the last unit of the cached net amount buys nothing that the real reserve
could pay out. -/
def Achievable (state : CachedPumpFunState) (amount : ℤ) : Prop :=
  SeparateFees.gross 10000 [state.buyFees.protocolFeeBps, creatorRate state.curve state.buyFees]
      (cachedNet state amount + 1) ≤ amount ∨
    min (bought state.curve.virtualTokenReserves state.curve.virtualSolReserves
        (cachedNet state amount)) state.curve.realTokenReserves ≤
      bought state.curve.virtualTokenReserves state.curve.virtualSolReserves
        (cachedNet state amount - 1)

instance (state : CachedPumpFunState) (amount : ℤ) : Decidable (Achievable state amount) :=
  inferInstanceAs (Decidable (_ ∨ _))

section Compare

variable {state : CachedPumpFunState} {amount slippageBps curveBaseBalance migrationFee : ℤ}
  {mayhem : Bool} {q : CachedPumpFunQuote} {q₃ : PumpV3Quote}

theorem quoteCachedPumpfunExactIn_buy
    (h : quoteCachedPumpfunExactIn state amount true slippageBps = .ok q) :
    0 < amount ∧
      q.estimatedNetAmountOut = min (bought state.curve.virtualTokenReserves
        state.curve.virtualSolReserves (cachedNet state amount)) state.curve.realTokenReserves ∧
      0 < q.estimatedNetAmountOut ∧
      q.minimumNetAmountOut = q.estimatedNetAmountOut * (10000 - slippageBps) / 10000 := by
  simp only [quoteCachedPumpfunExactIn, bind_eq_ok, unsigned_eq_ok, require_eq_ok, pure_eq_ok,
    if_true] at h
  obtain ⟨_, ⟨hamount, -⟩, _, hrequest, _, -, _, -, _, -, _, -, _, -, _, -, _, hpositive, _, -,
    rfl⟩ := h
  rw [not_or, not_le] at hpositive
  exact ⟨by omega, rfl, hpositive.1, rfl⟩

/-- The net amount of a V3 purchase covers the cached one. -/
theorem cachedNet_le (hs : CurveValid (state.v3 curveBaseBalance migrationFee mayhem)) :
    cachedNet state amount ≤ net amount (state.v3 curveBaseBalance migrationFee mayhem) := by
  rw [le_net_iff hs]
  have hprotocol : 0 ≤ state.buyFees.protocolFeeBps := hs.protocol_nonneg
  have hcreator : 0 ≤ creatorRate state.curve state.buyFees := hs.creator_nonneg
  have hfloor : cachedNet state amount * (10000 + state.buyFees.protocolFeeBps +
      creatorRate state.curve state.buyFees) ≤ (amount - 1) * 10000 :=
    Rounding.floor_mul_le _ (by omega)
  have hgross := SeparateFees.gross_mul (d := 10000) (by norm_num)
    [state.buyFees.protocolFeeBps, creatorRate state.curve state.buyFees] (cachedNet state amount)
  have hresidues := SeparateFees.residues_le (d := 10000) (by norm_num)
    [state.buyFees.protocolFeeBps, creatorRate state.curve state.buyFees] (cachedNet state amount)
  rw [List.sum_pair, ← add_assoc] at hgross
  rw [show List.length _ = 2 from rfl, Nat.cast_ofNat] at hresidues
  show SeparateFees.gross 10000 [state.buyFees.protocolFeeBps,
    creatorRate state.curve state.buyFees] (cachedNet state amount) ≤ amount
  omega

theorem bought_zero (base quote : ℤ) : bought base quote 0 = 0 := by
  rw [bought, zero_mul, Int.zero_ediv]

/-- A cached purchase that buys anything has a positive net amount. -/
theorem cachedNet_pos (hs : CurveValid (state.v3 curveBaseBalance migrationFee mayhem))
    (hamount : 0 < amount)
    (hpositive : 0 < min (bought state.curve.virtualTokenReserves state.curve.virtualSolReserves
      (cachedNet state amount)) state.curve.realTokenReserves) : 0 < cachedNet state amount := by
  have hprotocol : 0 ≤ state.buyFees.protocolFeeBps := hs.protocol_nonneg
  have hcreator : 0 ≤ creatorRate state.curve state.buyFees := hs.creator_nonneg
  have hnonneg : 0 ≤ cachedNet state amount := Rounding.floor_nonneg (by omega) (by omega)
  apply lt_of_le_of_ne hnonneg
  intro hzero
  rw [← hzero, bought_zero] at hpositive
  omega

/-- What a purchase is achievable means on the V3 curve: the net amount of the budget,
less the unit that is not spent, buys the output. -/
theorem achievable_iff (hs : CurveValid (state.v3 curveBaseBalance migrationFee mayhem))
    (hnet : 0 < cachedNet state amount) :
    Achievable state amount ↔
      min (bought state.curve.virtualTokenReserves state.curve.virtualSolReserves
        (cachedNet state amount)) state.curve.realTokenReserves ≤
      curveTokens (state.v3 curveBaseBalance migrationFee mayhem) amount := by
  have hle : cachedNet _ amount ≤ net amount _ := cachedNet_le hs
  have hcovers : SeparateFees.gross 10000 [state.buyFees.protocolFeeBps,
        creatorRate state.curve state.buyFees] (cachedNet state amount + 1) ≤ amount ↔
      cachedNet state amount + 1 ≤ net amount (state.v3 curveBaseBalance migrationFee mayhem) :=
    (le_net_iff hs).symm
  have hvirtual : 0 < state.curve.virtualTokenReserves :=
    lt_of_le_of_lt hs.remaining_nonneg hs.remaining_lt
  rw [Achievable, hcovers, curveTokens]
  rcases hle.lt_or_eq with hlt | heq
  · -- the V3 purchase spends at least the cached net amount
    refine iff_of_true (.inl hlt) ((min_le_left _ _).trans ?_)
    exact bought_mono hnet.le (by omega) hvirtual hs.virtualQuote_pos
  · -- the V3 purchase leaves the last unit of it unspent
    rw [← heq, or_iff_right (by omega)]
    rfl

/-- The cached quote pays out no more than the V3 purchase exactly when the purchase is
achievable, and at no slippage it protects what it estimates. -/
theorem estimated_le_baseOut_iff
    (h : quoteCachedPumpfunExactIn state amount true slippageBps = .ok q)
    (h₃ : quotePumpBuyV3ExactIn (state.v3 curveBaseBalance migrationFee mayhem) amount = .ok q₃) :
    (q.estimatedNetAmountOut ≤ q₃.baseOut ↔ Achievable state amount) ∧
      (slippageBps = 0 → q.minimumNetAmountOut = q.estimatedNetAmountOut) := by
  obtain ⟨hamount, hestimated, hpositive, hminimum⟩ := quoteCachedPumpfunExactIn_buy h
  refine ⟨?_, ?_⟩
  · obtain ⟨_, hvalidate, -⟩ := bind_eq_ok.1 h₃
    obtain ⟨hs, -, -⟩ := CurveValid.of_validate hvalidate
    have hcached := cachedNet_pos hs hamount (hestimated ▸ hpositive)
    have hle : cachedNet _ amount ≤ net amount _ := cachedNet_le hs
    have hreal : q.estimatedNetAmountOut ≤ state.curve.realTokenReserves :=
      hestimated ▸ min_le_right _ _
    rw [achievable_iff hs hcached, ← hestimated]
    cases quotePumpBuyV3ExactIn_spec h₃ with
    | nothing hnet =>
        have hunspent : net amount (state.v3 curveBaseBalance migrationFee mayhem) - 1 = 0 := by
          omega
        rw [curveTokens, hunspent, bought_zero]
        rfl
    | @curve cb hnet htokens _ _ _ =>
        have hbase : (quoteOf cb (curveCost cb (state.v3 curveBaseBalance migrationFee mayhem)) 0 0
            (state.v3 curveBaseBalance migrationFee mayhem)).baseOut = cb := add_zero cb
        rw [hbase, htokens, le_min_iff]
        exact and_iff_left hreal
    | @pool _ _ leg pb hnet hexhausts _ _ hpb _ _ _ =>
        refine iff_of_true ?_ (hreal.trans hexhausts.le)
        show q.estimatedNetAmountOut ≤ state.curve.realTokenReserves + pb
        omega
  · rintro rfl
    rw [hminimum, sub_zero, Int.mul_ediv_cancel _ (by norm_num)]

end Compare

/-! ### One lamport apart -/

/-- A fresh curve whose creator takes a fee. -/
def freshCurve : CachedPumpFunState where
  curve :=
    { virtualTokenReserves := 1073000000000000
      virtualSolReserves := 30000000000
      realTokenReserves := 793100000000000
      realSolReserves := 0
      complete := false
      creator := Vector.replicate 32 1 }
  buyFees := ⟨95, 30⟩
  sellFees := ⟨95, 30⟩

/-- One SOL: the cached quote protects more than the V3 purchase pays out. -/
theorem estimated_gt_baseOut :
    ∃ q q₃, quoteCachedPumpfunExactIn freshCurve 1000000000 true = .ok q ∧
      quotePumpBuyV3ExactIn (freshCurve.v3 1000000000000000 0 false) 1000000000 = .ok q₃ ∧
      q.minimumNetAmountOut = q.estimatedNetAmountOut ∧
      ¬ q.estimatedNetAmountOut ≤ q₃.baseOut :=
  ⟨⟨1000000000, 34199203154141, 34199203154141, ⟨95, 30⟩⟩,
    ⟨34199203120618, 987654319, 0, 0, 9382717, 2962963⟩, by decide +kernel, by decide +kernel, rfl,
    by decide⟩

/-- One unit more than a SOL is enough. -/
theorem estimated_le_baseOut_iff_achievable :
    ∃ q q₃, quoteCachedPumpfunExactIn freshCurve 1000000001 true = .ok q ∧
      quotePumpBuyV3ExactIn (freshCurve.v3 1000000000000000 0 false) 1000000001 = .ok q₃ ∧
      q.estimatedNetAmountOut ≤ q₃.baseOut := by
  obtain ⟨q, h⟩ := exists_of_isOk
    (show (quoteCachedPumpfunExactIn freshCurve 1000000001 true).isOk by decide +kernel)
  obtain ⟨q₃, h₃⟩ := exists_of_isOk (show (quotePumpBuyV3ExactIn
    (freshCurve.v3 1000000000000000 0 false) 1000000001).isOk by decide +kernel)
  exact ⟨q, q₃, h, h₃, (estimated_le_baseOut_iff h h₃).1.2 (by decide +kernel)⟩

end SolTrade.PumpFun
