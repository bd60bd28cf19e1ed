import SolTrade.Library.Checked
import SolTrade.Library.Rounding

/-!
The integer helpers that every quote function shares, and the errors that the
modelled functions raise. Python integers are unbounded, so a value is an `ℤ` and the
range of a machine type is what `unsigned` checks.
-/

namespace SolTrade

open Library

/-- The `ValueError`s of the modelled functions. -/
inductive ValueError where
  | amountOutsideUnsignedRange
  | clmmTickOutsideRange
  | clmmPriceOutsideRange
  | clmmZeroSqrtPrice
  | invalidClmmStep
  | clmmLiquidityIsZero
  | invalidClmmPool
  | invalidClmmLimit
  | invalidClmmDynamicFeeBytes
  | invalidClmmDynamicFeeParams
  | duplicateClmmTick
  | invalidClmmTick
  | clmmZeroOrderPrice
  | clmmBudgetExhausted
  | whirlpoolTickOutsideRange
  | whirlpoolPriceOutsideRange
  | invalidWhirlpoolPoolInput
  | invalidWhirlpoolArraySequence
  | invalidWhirlpoolPriceLimit
  | invalidWhirlpoolTick
  | duplicateWhirlpoolTick
  | invalidWhirlpoolAdaptiveFee
  | whirlpoolTimestampPredatesReference
  | invalidWhirlpoolVolatilityReference
  | whirlpoolRequiresMoreTickArrays
  | whirlpoolBudgetExhausted
  | conflictingAccountVersion
  | conflictedAccountCache
  | provideForkAndAccounts
  | selectForkExplicitly
  | missingRequiredAccount
  | cachedAccountFutureOrStale
  | cachedAccountOwnerMismatch
  | cachedAccountClosed
  | v1TooManyInstructions
  | v1LimitExceeded
  | invalidBlockhash
  | v1ConfigOutsideRange
  | invalidV1HeapSize
  | v1FeePayerIsProgram
  | v1PayloadLimit
  | v1TransactionTooLarge
  | invalidV1SignerMetadata
  | expectedU64StateAndAmount
  | bondingCurveComplete
  | invalidCurveReserves
  | emptyPoolToBe
  | quoteExceedsU64
  | notEnoughTokensToBuy
  | invalidPumpFunRequest
  | invalidPumpFunQuoteState
  | pumpFunZeroOutput
  | amountIsZero
  | invalidTokenFeeBasisPoints
  | unsupportedLaunchLabCurve
  | launchLabReserveUnderflow
  | launchLabFeeExceedsDenominator
  | slippageOutsideRange
  | emptyCurveReserves
  | launchLabSoldExceedsCap
  | launchLabGraduationExhausts
  | positiveAmountRequired
  | invalidCpmmFee
  | emptyCpmmReserves
  | cpmmZeroOutput
  | invalidAmmV4Request
  | invalidAmmV4State
  | ammV4ZeroOutput
  | invalidPumpSwapRequest
  | pumpSwapDirectionDisabled
  | pumpSwapCashback
  | pumpSwapTransferFee
  | depletedPool
  | depletedQuoteReserves
  | quoteInputTooSmall
  | insufficientRealQuote
  | totalFeeTooHigh
  | pumpSwapZeroOutput
  | invalidCachedClmmRequest
  | clmmZeroInput
  | clmmArrayBudget
  | clmmZeroOutput
  | insufficientClmmLiquidity
  | clmmRequiresArray
  | invalidCachedWhirlpoolRequest
  | whirlpoolZeroInput
  | whirlpoolZeroOutput
  | whirlpoolArrayBudget
  | whirlpoolRequiresArrays
  | invalidCachedDlmmRequest
  | dlmmZeroInput
  | dlmmZeroOutput
  | dlmmArrayBudget
  | insufficientDlmmLiquidity
  | dlmmRequiresArray
  | swapAmountOutsideU64
  | sqrtPriceOutsideU128
  | missingPumpFunPayer
  | pumpFunNativeQuote
  | invalidCachedRouteRequest
  | routeReusesPool
  | routeAssetCycle
  | disconnectedRoute
  | invalidBridgeLimits
  | noNativeQuote
  | routeZeroOutput
  | bridgePriceImpact
  | missingHintIdentity
  | oneNativeEndpoint
  | invalidNativeSolRoute
  | nativeSolInstructionDiffers
  | invalidNativeSolAmount
  | nativeSolExceedsCredit
  | nativeSolProtectionDiffers
  | nativeSolEndpoint
  | invalidTemporarySeed
  | missingRent
  | temporaryCollides
  | nativeSolOtherWallet
  | nativeSolUnused
  | invalidPumpFunSettlement
  | pumpFunInstructionDiffers
  | pumpFunOtherWallet
  | invalidPumpFunAmount
  | pumpFunProtectionDiffers
  | pumpFunV1Mismatch
  | pumpFunV3Mismatch
  | pumpFunV2Mismatch
  | pumpFunMultiHopEndpoints
  | pumpFunOneCurve
  | pumpFunNativeAnchor
  | pumpFunExceedsCredit
  | pumpFunNativeCurve
  | invalidPumpFunEndpoint
  | missingPumpFunEstimate
  | pumpFunSeedAndRent
  | temporaryInputCollides
  | searchLimits
  | tokenIsAsset
  | tokenNotInPool
  | conversionReusesPool
  | searchBudgetExhausted
  | noConversionPath
  | invalidConversionPool
  | conflictingConversionMints
  | conflictingCandidateMints
  | candidatePoolBudget
  | invalidCandidateRequest
  | candidatePathBudget
  | candidateSearchBudget
  | noCandidateRoute
  deriving DecidableEq, Repr

/-- The text each error carries. -/
def ValueError.text : ValueError → String
  | amountOutsideUnsignedRange => "Amount outside unsigned integer range"
  | clmmTickOutsideRange => "CLMM tick outside range"
  | clmmPriceOutsideRange => "CLMM price outside range"
  | clmmZeroSqrtPrice => "CLMM zero sqrt price"
  | invalidClmmStep => "Invalid CLMM step"
  | clmmLiquidityIsZero => "CLMM liquidity is zero"
  | invalidClmmPool => "Invalid CLMM pool"
  | invalidClmmLimit => "Invalid CLMM limit"
  | invalidClmmDynamicFeeBytes => "Invalid CLMM dynamic fee bytes"
  | invalidClmmDynamicFeeParams => "Invalid CLMM dynamic fee params"
  | duplicateClmmTick => "Duplicate CLMM tick"
  | invalidClmmTick => "Invalid CLMM tick"
  | clmmZeroOrderPrice => "CLMM zero order price"
  | clmmBudgetExhausted => "CLMM quote iteration budget exhausted"
  | whirlpoolTickOutsideRange => "Whirlpool tick outside range"
  | whirlpoolPriceOutsideRange => "Whirlpool price outside range"
  | invalidWhirlpoolPoolInput => "Invalid Whirlpool pool/input"
  | invalidWhirlpoolArraySequence => "Invalid Whirlpool tick array sequence"
  | invalidWhirlpoolPriceLimit => "Invalid Whirlpool price limit"
  | invalidWhirlpoolTick => "Invalid Whirlpool tick"
  | duplicateWhirlpoolTick => "Duplicate Whirlpool tick"
  | invalidWhirlpoolAdaptiveFee => "Invalid Whirlpool adaptive fee"
  | whirlpoolTimestampPredatesReference => "Whirlpool timestamp predates adaptive reference"
  | invalidWhirlpoolVolatilityReference => "Invalid Whirlpool volatility reference"
  | whirlpoolRequiresMoreTickArrays => "Whirlpool quote requires more tick arrays"
  | whirlpoolBudgetExhausted => "Whirlpool quote iteration budget exhausted"
  | conflictingAccountVersion => "Conflicting cached account version; select a fork explicitly"
  | conflictedAccountCache =>
      "Conflicting cached account version; create a new cache for the explicitly selected fork"
  | provideForkAndAccounts => "Provide selected fork and required account identities"
  | selectForkExplicitly => "Select a fork explicitly"
  | missingRequiredAccount => "Missing required account identity"
  | cachedAccountFutureOrStale => "Cached account is future or stale"
  | cachedAccountOwnerMismatch => "Cached account owner mismatch"
  | cachedAccountClosed => "Cached account is closed"
  | v1TooManyInstructions => "V1 supports at most 64 instructions"
  | v1LimitExceeded => "V1 account/signature limit exceeded"
  | invalidBlockhash => "Invalid blockhash"
  | v1ConfigOutsideRange => "V1 config integer outside range"
  | invalidV1HeapSize => "Invalid V1 heap size"
  | v1FeePayerIsProgram => "V1 fee payer cannot be a program"
  | v1PayloadLimit => "V1 instruction payload limit"
  | v1TransactionTooLarge => "V1 transaction exceeds 4096 bytes"
  | invalidV1SignerMetadata => "Invalid compiled V1 signer metadata"
  | expectedU64StateAndAmount => "Expected u64 state and amount"
  | bondingCurveComplete => "BondingCurveComplete"
  | invalidCurveReserves => "Invalid curve reserves or fee rates"
  | emptyPoolToBe => "Empty pool-to-be; fetch actual curve base vault balance"
  | quoteExceedsU64 => "Quote exceeds u64"
  | notEnoughTokensToBuy => "NotEnoughTokensToBuy"
  | invalidPumpFunRequest => "Invalid PumpFun exact-in request"
  | invalidPumpFunQuoteState => "Invalid PumpFun quote state"
  | pumpFunZeroOutput => "PumpFun quote has zero protected output"
  | amountIsZero => "Amount cannot be zero"
  | invalidTokenFeeBasisPoints => "Invalid token fee basis points"
  | unsupportedLaunchLabCurve => "Unsupported LaunchLab curve type"
  | launchLabReserveUnderflow => "LaunchLab reserve underflow"
  | launchLabFeeExceedsDenominator => "LaunchLab fee exceeds denominator"
  | slippageOutsideRange => "Slippage must be 0..9999"
  | emptyCurveReserves => "Empty curve reserves"
  | launchLabSoldExceedsCap => "LaunchLab sold amount exceeds cap"
  | launchLabGraduationExhausts => "LaunchLab graduation exhausts reserves"
  | positiveAmountRequired => "Positive amount and boolean direction required"
  | invalidCpmmFee => "Invalid CPMM fee configuration"
  | emptyCpmmReserves => "Empty CPMM reserves"
  | cpmmZeroOutput => "CPMM quote has zero protected output"
  | invalidAmmV4Request => "Invalid AMM v4 quote request"
  | invalidAmmV4State => "Invalid AMM v4 reserves or fee"
  | ammV4ZeroOutput => "AMM v4 quote has zero protected output"
  | invalidPumpSwapRequest => "Invalid PumpSwap preparation request"
  | pumpSwapDirectionDisabled => "PumpSwap direction is disabled"
  | pumpSwapCashback => "PumpSwap cashback quote requires a verified current fee context"
  | pumpSwapTransferFee => "PumpSwap transfer-fee quote semantics are not yet verified"
  | depletedPool => "Invalid reserves, depleted pool, or insufficient amount after fees"
  | depletedQuoteReserves => "Invalid effective quote reserves: depleted pool"
  | quoteInputTooSmall => "Quote input is too small after fees"
  | insufficientRealQuote => "Insufficient real quote reserves to cover the sell output"
  | totalFeeTooHigh => "Total fee basis points must be less than 10,000"
  | pumpSwapZeroOutput => "PumpSwap quote has zero protected output"
  | invalidCachedClmmRequest => "Invalid cached CLMM request"
  | clmmZeroInput => "CLMM input is zero after transfer fee"
  | clmmArrayBudget => "CLMM quote exceeds array budget"
  | clmmZeroOutput => "CLMM quote has zero protected output"
  | insufficientClmmLiquidity => "Insufficient CLMM liquidity in supplied snapshot"
  | clmmRequiresArray => "CLMM requires at least one tick array"
  | invalidCachedWhirlpoolRequest => "Invalid cached Whirlpool request"
  | whirlpoolZeroInput => "Whirlpool input is zero after transfer fee"
  | whirlpoolZeroOutput => "Whirlpool quote has zero protected output"
  | whirlpoolArrayBudget => "Whirlpool quote exceeds loaded array budget"
  | whirlpoolRequiresArrays => "Whirlpool requires 3..6 tick arrays"
  | invalidCachedDlmmRequest => "Invalid cached DLMM request"
  | dlmmZeroInput => "Zero DLMM input after transfer fee"
  | dlmmZeroOutput => "Zero protected DLMM output"
  | dlmmArrayBudget => "DLMM quote exceeds array budget"
  | insufficientDlmmLiquidity => "Insufficient DLMM liquidity in supplied snapshot"
  | dlmmRequiresArray => "DLMM requires at least one bin array"
  | swapAmountOutsideU64 => "Swap amount outside u64"
  | sqrtPriceOutsideU128 => "Sqrt price outside u128"
  | missingPumpFunPayer => "Missing PumpFun payer"
  | pumpFunNativeQuote => "PumpFun native quote requires cached trade settlement"
  | invalidCachedRouteRequest => "Invalid cached route request"
  | routeReusesPool => "Route reuses a pool and would require changed-state quoting"
  | routeAssetCycle => "Route contains an asset cycle"
  | disconnectedRoute => "Disconnected route"
  | invalidBridgeLimits => "Invalid bridge limits"
  | noNativeQuote => "Pool protocol has no native cached quote implementation"
  | routeZeroOutput => "Route has zero output or overconsumes input"
  | bridgePriceImpact => "Bridge price impact exceeds limit or probe is unusable"
  | missingHintIdentity => "Missing or identical pool/mint identity"
  | oneNativeEndpoint => "Choose exactly one native SOL endpoint"
  | invalidNativeSolRoute => "Invalid native SOL route instructions"
  | nativeSolInstructionDiffers => "Native SOL instruction differs from quoted leg"
  | invalidNativeSolAmount => "Invalid native SOL amount or protection"
  | nativeSolExceedsCredit => "Native SOL route exceeds protected intermediate credit"
  | nativeSolProtectionDiffers => "Native SOL protection differs from quoted leg"
  | nativeSolEndpoint => "Native SOL endpoint must quote through WSOL"
  | invalidTemporarySeed => "Temporary WSOL seed must contain 1..32 UTF-8 bytes"
  | missingRent => "Supply current token-account rent from cold initialization"
  | temporaryCollides => "Temporary account collides with existing WSOL ATA"
  | nativeSolOtherWallet => "Native SOL route belongs to a different wallet"
  | nativeSolUnused => "Native SOL route does not use the wallet WSOL account"
  | invalidPumpFunSettlement => "Invalid PumpFun settlement instructions"
  | pumpFunInstructionDiffers => "PumpFun settlement instruction differs from quoted leg"
  | pumpFunOtherWallet => "PumpFun settlement belongs to a different wallet"
  | invalidPumpFunAmount => "Invalid PumpFun settlement amount or protection"
  | pumpFunProtectionDiffers => "PumpFun settlement protection differs from quoted leg"
  | pumpFunV1Mismatch => "PumpFun V1 settlement does not match quote"
  | pumpFunV3Mismatch => "PumpFun V3 settlement does not match quote"
  | pumpFunV2Mismatch =>
      "PumpFun native settlement requires matching exact-in V2 quote and accounts"
  | pumpFunMultiHopEndpoints => "Invalid PumpFun native-quote multi-hop endpoints"
  | pumpFunOneCurve => "PumpFun multi-hop requires one curve at the buy or sell anchor"
  | pumpFunNativeAnchor => "PumpFun multi-hop anchor must use native quote"
  | pumpFunExceedsCredit => "PumpFun multi-hop exceeds protected intermediate credit"
  | pumpFunNativeCurve => "PumpFun settlement requires one native-quote curve"
  | invalidPumpFunEndpoint => "Invalid PumpFun native endpoint"
  | missingPumpFunEstimate => "Missing PumpFun output estimate"
  | pumpFunSeedAndRent => "WSOL PumpFun input requires unique seed and current account rent"
  | temporaryInputCollides => "Temporary WSOL account collides with input ATA"
  | searchLimits =>
      "Invalid PumpSwap route search limits (128 candidates, 3 hops, 4096 nodes maximum)"
  | tokenIsAsset => "PumpSwap token and payment asset must differ"
  | tokenNotInPool => "Token does not belong to selected PumpSwap pool"
  | conversionReusesPool => "Conversion candidates must not reuse selected PumpSwap pool"
  | searchBudgetExhausted => "PumpSwap route search budget exhausted; incomplete search"
  | noConversionPath => "No conversion path within supplied candidates and hop limit"
  | invalidConversionPool => "Invalid conversion pool identity"
  | conflictingConversionMints => "Conflicting conversion mint pairs for pool"
  | conflictingCandidateMints => "Conflicting candidate pool mints"
  | candidatePoolBudget => "Candidate search budget: maximum 64 pools"
  | invalidCandidateRequest => "Invalid candidate route endpoints or hop limit"
  | candidatePathBudget => "Candidate search budget: maximum 64 paths"
  | candidateSearchBudget => "Candidate search budget exceeded"
  | noCandidateRoute => "No connected candidate route"

def u64 : ℤ := 2 ^ 64 - 1
def u128 : ℤ := 2 ^ 128 - 1
def q64 : ℤ := 2 ^ 64

def unsigned (v : ℤ) (maximum : ℤ) : Except ValueError ℤ :=
  if 0 ≤ v ∧ v ≤ maximum then .ok v else .error .amountOutsideUnsignedRange

def ceil (n d : ℤ) : ℤ := (n + d - 1) / d

@[simp] theorem unsigned_eq_ok {v maximum w : ℤ} :
    unsigned v maximum = .ok w ↔ (0 ≤ v ∧ v ≤ maximum) ∧ v = w := by
  unfold unsigned
  split <;> simp_all

theorem unsigned_of {v maximum : ℤ} (h₀ : 0 ≤ v) (h₁ : v ≤ maximum) :
    unsigned v maximum = .ok v := by
  simp [h₀, h₁]

theorem unsigned_eq_error {v maximum : ℤ} {e : ValueError} :
    unsigned v maximum = .error e ↔
      ¬ (0 ≤ v ∧ v ≤ maximum) ∧ e = .amountOutsideUnsignedRange := by
  unfold unsigned
  split <;> simp_all [eq_comm]

theorem unsigned_ne_error {v maximum : ℤ} {e : ValueError} (h : e ≠ .amountOutsideUnsignedRange) :
    unsigned v maximum ≠ .error e := by
  rw [ne_eq, unsigned_eq_error]
  exact fun hv => h hv.2

theorem q64_pos : 0 < q64 := by decide

end SolTrade
