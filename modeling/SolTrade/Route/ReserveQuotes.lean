import SolTrade.Route.Hint

/-!
The exact-in quotes of pools that trade against their reserves.
-/

namespace SolTrade.Route

open Library

/-! ### Fees of a mint -/

structure TokenTransferFee where
  basisPoints : ℤ := 0
  maximumFee : ℤ := 0
  deriving DecidableEq

/-- The fee of a transfer; `inverse` is the fee that leaves the amount over. -/
def TokenTransferFee.calculate (f : TokenTransferFee) (amount : ℤ) (inverse : Bool := false) :
    Except ValueError ℤ := do
  let _ ← unsigned amount u64
  let _ ← unsigned f.maximumFee u64
  require (0 ≤ f.basisPoints ∧ f.basisPoints ≤ 10000) .invalidTokenFeeBasisPoints
  if f.basisPoints = 0 ∨ amount = 0 then return 0
  let value :=
    if inverse then
      if f.basisPoints = 10000 then f.maximumFee
      else ceil (amount * f.basisPoints) (10000 - f.basisPoints)
    else ceil (amount * f.basisPoints) 10000
  return min value f.maximumFee

/-! ### AMM v4 -/

structure CachedAmmV4State where
  pool : Pubkey
  coinMint : Pubkey
  coinReserve : ℤ
  pcReserve : ℤ
  swapFeeNumerator : ℤ
  swapFeeDenominator : ℤ
  deriving DecidableEq

structure AmmV4Quote where
  amountIn : ℤ
  amountOut : ℤ
  minimumAmountOut : ℤ
  swapFee : ℤ
  deriving DecidableEq

def quoteCachedAmmV4ExactIn (state : CachedAmmV4State) (amount : ℤ) (coinIn : Bool)
    (slippageBps : ℤ := 0) : Except ValueError AmmV4Quote := do
  let _ ← unsigned amount u64
  require (¬ (amount = 0 ∨ ¬ (0 ≤ slippageBps ∧ slippageBps < 10000))) .invalidAmmV4Request
  let (i, o) :=
    if coinIn then (state.coinReserve, state.pcReserve) else (state.pcReserve, state.coinReserve)
  let _ ← unsigned i u64
  require (i ≠ 0) .invalidAmmV4State
  let _ ← unsigned o u64
  require (o ≠ 0) .invalidAmmV4State
  let _ ← unsigned state.swapFeeDenominator u64
  require (state.swapFeeDenominator ≠ 0) .invalidAmmV4State
  let _ ← unsigned state.swapFeeNumerator u64
  require (state.swapFeeNumerator < state.swapFeeDenominator) .invalidAmmV4State
  let fee := ceil (amount * state.swapFeeNumerator) state.swapFeeDenominator
  let net := amount - fee
  let out := o * net / (i + net)
  return ⟨amount, out, out * (10000 - slippageBps) / 10000, fee⟩

/-! ### CPMM -/

structure CachedCpmmState where
  baseMint : Pubkey
  baseReserve : ℤ
  quoteReserve : ℤ
  tradeFeeRate : ℤ
  protocolFeeRate : ℤ
  fundFeeRate : ℤ
  creatorFeeRate : ℤ
  creatorFeeOn : ℤ
  enableCreatorFee : Bool
  baseTransferFee : TokenTransferFee
  quoteTransferFee : TokenTransferFee
  deriving DecidableEq

structure CpmmQuote where
  amountIn : ℤ
  amountOut : ℤ
  minimumAmountOut : ℤ
  tradeFee : ℤ
  creatorFee : ℤ
  deriving DecidableEq

def quoteCachedCpmmExactIn (p : CachedCpmmState) (amount : ℤ) (baseIn : Bool)
    (slippageBps : ℤ := 0) : Except ValueError CpmmQuote := do
  let _ ← unsigned amount u64
  require (amount ≠ 0) .positiveAmountRequired
  require (0 ≤ slippageBps ∧ slippageBps ≤ 9999) .slippageOutsideRange
  let rawCreatorRate ← unsigned p.creatorFeeRate u64
  let creatorRate := if p.enableCreatorFee then rawCreatorRate else 0
  let tradeRate ← unsigned p.tradeFeeRate u64
  require (tradeRate + creatorRate < 1000000) .invalidCpmmFee
  let protocolRate ← unsigned p.protocolFeeRate u64
  let fundRate ← unsigned p.fundFeeRate u64
  require (protocolRate + fundRate ≤ 1000000) .invalidCpmmFee
  require (p.creatorFeeOn = 0 ∨ p.creatorFeeOn = 1 ∨ p.creatorFeeOn = 2) .invalidCpmmFee
  let (i, o, inputFee, outputFee) :=
    if baseIn then (p.baseReserve, p.quoteReserve, p.baseTransferFee, p.quoteTransferFee)
    else (p.quoteReserve, p.baseReserve, p.quoteTransferFee, p.baseTransferFee)
  let _ ← unsigned i u64
  require (i ≠ 0) .emptyCpmmReserves
  let _ ← unsigned o u64
  require (o ≠ 0) .emptyCpmmReserves
  let net := amount - (← inputFee.calculate amount)
  let onInput : Bool :=
    p.creatorFeeOn = 0 ∨ (p.creatorFeeOn = 1 ∧ baseIn = true) ∨
      (p.creatorFeeOn = 2 ∧ baseIn = false)
  let totalRate := tradeRate + (if onInput then creatorRate else 0)
  let fee := ceil (net * totalRate) 1000000
  let inputCreator := if onInput = true ∧ totalRate ≠ 0 then fee * creatorRate / totalRate else 0
  let trade := fee - inputCreator
  let swapped := o * (net - fee) / (i + net - fee)
  let creator := if onInput then inputCreator else ceil (swapped * creatorRate) 1000000
  let gross := swapped - (if onInput then 0 else creator)
  let received := gross - (← outputFee.calculate gross)
  let _ ← unsigned received u64
  return ⟨amount, received, received * (10000 - slippageBps) / 10000, trade, creator⟩

/-! ### PumpSwap -/

structure PumpSwapFeeBasisPoints where
  lpFeeBasisPoints : ℤ
  protocolFeeBasisPoints : ℤ
  coinCreatorFeeBasisPoints : ℤ
  deriving DecidableEq

def mustU64 (value : ℤ) (name : String) : Except RouteError Unit :=
  require (0 ≤ value ∧ value ≤ u64) (.mustFitU64 name)

def maxSlippageBasisPoints : ℤ := 9999

def calculateWithSlippageBuy (amount slippageBps : ℤ) : Except RouteError ℤ := do
  mustU64 amount "amount"
  mustU64 slippageBps "slippage_bps"
  return min u64 (amount + amount * min slippageBps maxSlippageBasisPoints / 10000)

def pumpswapMinimumOutput (amount slippageBps : ℤ) : Except RouteError ℤ := do
  mustU64 amount "amount"
  mustU64 slippageBps "slippage_bps"
  return amount * (10000 - min slippageBps maxSlippageBasisPoints) / 10000

def effectiveQuoteReserves (quoteVaultBalance virtualQuoteReserves : ℤ) : Except RouteError ℤ := do
  require (0 ≤ quoteVaultBalance ∧ quoteVaultBalance ≤ u64) (.invalidVaultBalance quoteVaultBalance)
  require (-(2 ^ 127) ≤ virtualQuoteReserves ∧ virtualQuoteReserves ≤ 2 ^ 127 - 1)
    (.invalidVirtualReserves virtualQuoteReserves)
  let effective := quoteVaultBalance + virtualQuoteReserves
  require (0 ≤ effective ∧ effective ≤ u64)
    (.invalidEffectiveReserves quoteVaultBalance virtualQuoteReserves)
  return effective

def pumpswapInputs (amount slippage baseReserve quoteReserve : ℤ) (fees : PumpSwapFeeBasisPoints) :
    Except RouteError Unit := do
  mustU64 amount "amount"
  mustU64 slippage "slippage"
  mustU64 baseReserve "base_reserve"
  mustU64 quoteReserve "quote_reserve"
  mustU64 fees.lpFeeBasisPoints "lp_fee"
  mustU64 fees.protocolFeeBasisPoints "protocol_fee"
  mustU64 fees.coinCreatorFeeBasisPoints "creator_fee"

def pumpswapFee (amount rate : ℤ) : Except RouteError ℤ := do
  let fee := ceil (amount * rate) 10000
  mustU64 fee "fee"
  return fee

structure BuyQuoteInputResult where
  base : ℤ
  internalQuoteWithoutFees : ℤ
  maxQuote : ℤ
  deriving DecidableEq

def buyQuoteInputInternalWithFees (quote slippageBasisPoints baseReserve quoteReserve
    virtualQuoteReserves : ℤ) (fees : PumpSwapFeeBasisPoints) :
    Except RouteError BuyQuoteInputResult := do
  pumpswapInputs quote slippageBasisPoints baseReserve quoteReserve fees
  require (¬ (baseReserve = 0 ∨ quoteReserve = 0)) (.value .depletedPool)
  let effectiveQuoteReserve ← effectiveQuoteReserves quoteReserve virtualQuoteReserves
  require (effectiveQuoteReserve ≠ 0) (.value .depletedQuoteReserves)
  let totalFeeBps := fees.lpFeeBasisPoints + fees.protocolFeeBasisPoints +
    fees.coinCreatorFeeBasisPoints
  mustU64 totalFeeBps "total fee basis points"
  let denominator := 10000 + totalFeeBps
  mustU64 denominator "fee denominator"
  let gross := quote * 10000 / denominator
  let lpFee ← pumpswapFee gross fees.lpFeeBasisPoints
  let protocolFee ← pumpswapFee gross fees.protocolFeeBasisPoints
  let coinCreatorFee ← pumpswapFee gross fees.coinCreatorFeeBasisPoints
  let totalWithFees := gross + lpFee + protocolFee + coinCreatorFee
  let effectiveQuote := if totalWithFees > quote then gross - (totalWithFees - quote) else gross
  require (0 < effectiveQuote) (.value .quoteInputTooSmall)
  let inputAmount := effectiveQuote - 1
  let denominatorEffective := effectiveQuoteReserve + inputAmount
  require (denominatorEffective ≠ 0) (.value .depletedPool)
  let maxQuote ← calculateWithSlippageBuy quote slippageBasisPoints
  return ⟨baseReserve * inputAmount / denominatorEffective, effectiveQuote, maxQuote⟩

structure SellBaseInputResult where
  uiQuote : ℤ
  minQuote : ℤ
  internalQuoteAmountOut : ℤ
  deriving DecidableEq

def sellBaseInputInternalWithFees (base slippageBasisPoints baseReserve quoteReserve
    virtualQuoteReserves : ℤ) (fees : PumpSwapFeeBasisPoints) :
    Except RouteError SellBaseInputResult := do
  pumpswapInputs base slippageBasisPoints baseReserve quoteReserve fees
  require (¬ (baseReserve = 0 ∨ quoteReserve = 0)) (.value .depletedPool)
  let effectiveQuoteReserve ← effectiveQuoteReserves quoteReserve virtualQuoteReserves
  require (effectiveQuoteReserve ≠ 0) (.value .depletedQuoteReserves)
  let denominator := baseReserve + base
  require (denominator ≠ 0) (.value .depletedPool)
  let quoteAmountOut := effectiveQuoteReserve * base / denominator
  let lpFee ← pumpswapFee quoteAmountOut fees.lpFeeBasisPoints
  let protocolFee ← pumpswapFee quoteAmountOut fees.protocolFeeBasisPoints
  let coinCreatorFee ← pumpswapFee quoteAmountOut fees.coinCreatorFeeBasisPoints
  let totalFees := lpFee + protocolFee + coinCreatorFee
  mustU64 totalFees "total fees"
  require (totalFees ≤ quoteAmountOut) (.value .depletedPool)
  require (quoteAmountOut - lpFee ≤ quoteReserve) (.value .insufficientRealQuote)
  let finalQuote := quoteAmountOut - totalFees
  let minQuote ← pumpswapMinimumOutput finalQuote slippageBasisPoints
  return ⟨finalQuote, minQuote, quoteAmountOut⟩

/-- A PumpSwap pool with its reserves. -/
structure CachedPumpSwapState where
  quoteMint : Pubkey
  coinCreator : Pubkey
  isCashbackCoin : Bool
  virtualQuoteReserves : ℤ
  baseReserve : ℤ
  quoteReserve : ℤ
  baseTransferFee : TokenTransferFee
  quoteTransferFee : TokenTransferFee
  feeBasisPoints : PumpSwapFeeBasisPoints
  disableFlags : ℕ
  deriving DecidableEq

structure PumpSwapQuote where
  amountIn : ℤ
  amountOut : ℤ
  minimumAmountOut : ℤ
  deriving DecidableEq

/-- The checks of a request, before the pool is read. -/
def checkPumpSwapRequest (payer : Pubkey) (amount slippageBps : ℤ) : Except RouteError Unit := do
  mustU64 amount "amount"
  require (¬ (amount = 0 ∨ ¬ (0 ≤ slippageBps ∧ slippageBps < 10000) ∨ payer = .default))
    (.value .invalidPumpSwapRequest)

/-- The rates of a pool; without a coin creator there is no creator fee. -/
def CachedPumpSwapState.fees (state : CachedPumpSwapState) : PumpSwapFeeBasisPoints :=
  { state.feeBasisPoints with
    coinCreatorFeeBasisPoints :=
      if state.coinCreator ≠ .default then state.feeBasisPoints.coinCreatorFeeBasisPoints else 0 }

def pumpSwapOut (state : CachedPumpSwapState) (quoteIn : Bool) (amount : ℤ) :
    Except RouteError ℤ :=
  if quoteIn then do
    let result ← buyQuoteInputInternalWithFees amount 0 state.baseReserve state.quoteReserve
      state.virtualQuoteReserves state.fees
    return result.base
  else do
    let result ← sellBaseInputInternalWithFees amount 0 state.baseReserve state.quoteReserve
      state.virtualQuoteReserves state.fees
    return result.uiQuote

def quotePumpSwapState (state : CachedPumpSwapState) (quoteIn : Bool) (amount slippageBps : ℤ) :
    Except RouteError PumpSwapQuote := do
  require (state.disableFlags &&& (if quoteIn then 8 else 16) = 0)
    (.value .pumpSwapDirectionDisabled)
  require (state.isCashbackCoin = false) (.value .pumpSwapCashback)
  require (∀ f ∈ [state.baseTransferFee, state.quoteTransferFee],
    ¬ (f.basisPoints ≠ 0 ∧ f.maximumFee ≠ 0)) (.value .pumpSwapTransferFee)
  let out ← pumpSwapOut state quoteIn amount
  let minimum ← pumpswapMinimumOutput out slippageBps
  require (minimum ≠ 0) (.value .pumpSwapZeroOutput)
  return ⟨amount, out, minimum⟩

/-! ### LaunchLab -/

structure LaunchLabQuoteState where
  virtualBase : ℤ
  virtualQuote : ℤ
  realBase : ℤ
  realQuote : ℤ
  totalBaseSell : ℤ
  curveType : ℤ
  tradeFeeRate : ℤ
  platformFeeRate : ℤ
  creatorFeeRate : ℤ
  baseTransferFee : TokenTransferFee := {}
  quoteTransferFee : TokenTransferFee := {}
  deriving DecidableEq

structure LaunchLabQuote where
  amountIn : ℤ
  minimumAmountOut : ℤ
  deriving DecidableEq

/-- The base and quote reserves and the fee rate of a curve that passes the checks. -/
def launchLabReserves (p : LaunchLabQuoteState) (amount slippageBps shareFeeRate : ℤ) :
    Except ValueError (ℤ × ℤ × ℤ) := do
  let _ ← unsigned amount u64
  require (amount ≠ 0) .amountIsZero
  require (p.curveType = 0) .unsupportedLaunchLabCurve
  for n in [p.virtualBase, p.virtualQuote, p.realBase, p.realQuote, p.totalBaseSell] do
    let _ ← unsigned n u128
  require (p.realBase ≤ p.virtualBase) .launchLabReserveUnderflow
  let quote ← unsigned (p.virtualQuote + p.realQuote) u128
  let rates ← [p.tradeFeeRate, p.platformFeeRate, p.creatorFeeRate, shareFeeRate].mapM
    (unsigned · u64)
  require (rates.sum ≤ 1000000) .launchLabFeeExceedsDenominator
  require (0 ≤ slippageBps ∧ slippageBps ≤ 9999) .slippageOutsideRange
  return (p.virtualBase - p.realBase, quote, rates.sum)

/-- A purchase that would sell more than the curve may sell: what the rest of it
costs, or the amount if that is less, and the rest. -/
def launchLabGraduate (p : LaunchLabQuoteState) (amount base quote rate out : ℤ) :
    Except ValueError (ℤ × ℤ) := do
  if p.totalBaseSell = 0 then return (amount, out)
  require (p.realBase ≤ p.totalBaseSell) .launchLabSoldExceedsCap
  let remaining := p.totalBaseSell - p.realBase
  if out ≤ remaining then return (amount, out)
  let after := base - remaining
  require (¬ (after ≤ 0 ∨ rate = 1000000)) .launchLabGraduationExhausts
  let product ← unsigned (quote * remaining) u128
  let required := ceil product after
  let scaled ← unsigned (required * 1000000) u128
  let requiredVault ← unsigned (ceil scaled (1000000 - rate)) u64
  let total ← unsigned (requiredVault + (← p.quoteTransferFee.calculate requiredVault true)) u64
  return (min total amount, remaining)

/-- What is spent and received. -/
def launchLabFill (p : LaunchLabQuoteState) (amount : ℤ) (buy : Bool) (base quote rate : ℤ) :
    Except ValueError (ℤ × ℤ) := do
  if buy then
    let vault := amount - (← p.quoteTransferFee.calculate amount)
    let net := vault - ceil (vault * rate) 1000000
    let denominator ← unsigned (quote + net) u128
    require (denominator ≠ 0) .emptyCurveReserves
    let product ← unsigned (net * base) u128
    let (actual, out) ← launchLabGraduate p amount base quote rate (product / denominator)
    let _ ← unsigned out u64
    return (actual, out - (← p.baseTransferFee.calculate out))
  else
    let net := amount - (← p.baseTransferFee.calculate amount)
    let denominator ← unsigned (base + net) u128
    require (denominator ≠ 0) .emptyCurveReserves
    let product ← unsigned (net * quote) u128
    let gross := product / denominator
    let vault ← unsigned (gross - ceil (gross * rate) 1000000) u64
    return (amount, vault - (← p.quoteTransferFee.calculate vault))

def quoteLaunchlabExactIn (p : LaunchLabQuoteState) (amount : ℤ) (buy : Bool)
    (slippageBps : ℤ := 0) (shareFeeRate : ℤ := 0) : Except ValueError LaunchLabQuote := do
  let (base, quote, rate) ← launchLabReserves p amount slippageBps shareFeeRate
  let (actual, received) ← launchLabFill p amount buy base quote rate
  let minimum ← unsigned (received - received * slippageBps / 10000) u64
  return ⟨actual, minimum⟩

end SolTrade.Route
