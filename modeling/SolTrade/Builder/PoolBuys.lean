import SolTrade.Builder.Funding
import SolTrade.Float
import SolTrade.PumpSwap.FeeConfig

/-!
The instructions of a purchase in a Raydium CPMM or Meteora DAMM v2 pool.

Both trade against wrapped SOL or USDC, which is the input of a purchase, on either side of the
pool.
-/

namespace SolTrade

open Library Builder
open PumpSwap (usdcTokenAccount)
open Route (tokenProgram wsolTokenAccount cpmmProgram)

/-! ### Raydium CPMM -/

namespace RaydiumCpmm

def authority : Pubkey := .ofNat 0xeb00d9f5b292b4214ac7d037b4d6f06450b964600df373052bb5e84f2f8e9a67

example : base58Text authority = "GpMZbSM2GgvTKHJirzeGfMFoaZ8UR2X7F4v8vHTvxFbL" := by decide +kernel

def swapBaseInDiscriminator : List UInt8 := [143, 190, 90, 218, 196, 30, 51, 222]
def swapBaseOutDiscriminator : List UInt8 := [55, 217, 98, 86, 163, 74, 180, 173]

structure RaydiumCpmmParams where
  poolState : Option Pubkey := none
  ammConfig : Pubkey := .default
  baseMint : Pubkey := .default
  quoteMint : Pubkey := .default
  baseReserve : ℤ := 0
  quoteReserve : ℤ := 0
  baseVault : Option Pubkey := none
  quoteVault : Option Pubkey := none
  baseTokenProgram : Pubkey := tokenProgram
  quoteTokenProgram : Pubkey := tokenProgram
  observationState : Option Pubkey := none

def RaydiumCpmmParams.isWsol (params : RaydiumCpmmParams) : Bool :=
  params.baseMint = wsolTokenAccount ∨ params.quoteMint = wsolTokenAccount

def RaydiumCpmmParams.isUsdc (params : RaydiumCpmmParams) : Bool :=
  params.baseMint = usdcTokenAccount ∨ params.quoteMint = usdcTokenAccount

/-- `int(amount_in * (1 - fee_rate))`, in floats. -/
def amountInAfterFee (amountIn : ℤ) : Except BuildError ℤ := do
  let feeRate := toFloat (2500 / 1000000)
  require (|toFloat amountIn| < 2 ^ 1024) .floatRange
  return truncate (toFloat (toFloat amountIn * toFloat (1 - feeRate)))

def computeSwapAmount (baseReserve quoteReserve : ℤ) (isBaseIn : Bool) (amountIn slippageBps : ℤ) :
    Except BuildError (ℤ × ℤ) := do
  let net ← amountInAfterFee amountIn
  let (i, o) := if isBaseIn = true then (baseReserve, quoteReserve) else (quoteReserve, baseReserve)
  require (i + net ≠ 0) .zeroDivision
  let amountOut := (net * o).fdiv (i + net)
  return (amountOut, calculateWithSlippageSell amountOut slippageBps)

/-- The arguments of `build_buy_instructions`. -/
structure BuyRequest where
  payer : Pubkey
  outputMint : Pubkey
  inputAmount : ℤ
  params : RaydiumCpmmParams
  slippageBps : ℤ := 500
  createInputAta : Bool := true
  createOutputAta : Bool := true
  closeInputAta : Bool := false
  fixedOutputAmount : Option ℤ := none

namespace BuyRequest

variable (r : BuyRequest)

/-- The base is the input. -/
def isBaseIn : Bool :=
  r.params.baseMint = wsolTokenAccount ∨ r.params.baseMint = usdcTokenAccount

def inputMint : Pubkey := if r.isBaseIn = true then r.params.baseMint else r.params.quoteMint

def expectedOutputMint : Pubkey :=
  if r.isBaseIn = true then r.params.quoteMint else r.params.baseMint

def inputTokenProgram : Pubkey :=
  if r.isBaseIn = true then r.params.baseTokenProgram else r.params.quoteTokenProgram

def outputTokenProgram : Pubkey :=
  if r.isBaseIn = true then r.params.quoteTokenProgram else r.params.baseTokenProgram

end BuyRequest

section Build

variable (str : PubkeyText) (find : ProgramAddress)

def poolPda (ammConfig mint1 mint2 : Pubkey) : Pubkey :=
  (find [seed "pool", ammConfig.toList, mint1.toList, mint2.toList] cpmmProgram).1

def vaultPda (poolState mint : Pubkey) : Pubkey :=
  (find [seed "pool_vault", poolState.toList, mint.toList] cpmmProgram).1

def observationStatePda (poolState : Pubkey) : Pubkey :=
  (find [seed "observation", poolState.toList] cpmmProgram).1

def minimumAmountOut (r : BuyRequest) : Except BuildError ℤ :=
  match r.fixedOutputAmount with
  | some fixed => .ok fixed
  | none => do
      let amounts ← computeSwapAmount r.params.baseReserve r.params.quoteReserve r.isBaseIn
        r.inputAmount r.slippageBps
      return amounts.2

/-- The data of the swap. -/
def swapData (r : BuyRequest) (minimum : ℤ) : Except BuildError (List UInt8) :=
  match r.fixedOutputAmount with
  | some fixed => packSwap swapBaseOutDiscriminator r.inputAmount fixed []
  | none => packSwap swapBaseInDiscriminator r.inputAmount minimum []

def swapAccounts (r : BuyRequest) : List AccountMeta :=
  let params := r.params
  let poolState :=
    params.poolState.getD (poolPda find params.ammConfig params.baseMint params.quoteMint)
  let inputVault := (if r.isBaseIn = true then params.baseVault else params.quoteVault).getD
    (vaultPda find poolState r.inputMint)
  let outputVault := (if r.isBaseIn = true then params.quoteVault else params.baseVault).getD
    (vaultPda find poolState r.outputMint)
  let observationState := params.observationState.getD (observationStatePda find poolState)
  [⟨r.payer, true, true⟩, ⟨authority, false, false⟩, ⟨params.ammConfig, false, false⟩,
    ⟨poolState, false, true⟩,
    ⟨associatedTokenAddress find r.payer r.inputMint r.inputTokenProgram, false, true⟩,
    ⟨associatedTokenAddress find r.payer r.outputMint r.outputTokenProgram, false, true⟩,
    ⟨inputVault, false, true⟩, ⟨outputVault, false, true⟩, ⟨r.inputTokenProgram, false, false⟩,
    ⟨r.outputTokenProgram, false, false⟩, ⟨r.inputMint, false, false⟩,
    ⟨r.outputMint, false, false⟩, ⟨observationState, false, true⟩]

def buildBuyInstructions (r : BuyRequest) : Except BuildError (List Instruction) := do
  require (r.inputAmount ≠ 0) (.value "Amount cannot be zero")
  require (r.params.isWsol = true ∨ r.params.isUsdc = true)
    (.value "Pool must contain WSOL or USDC")
  require (r.outputMint = r.expectedOutputMint)
    (.value ("output_mint must match Raydium CPMM pool side " ++ str r.expectedOutputMint))
  let minimum ← minimumAmountOut r
  let funding ← fundInput find r.createInputAta r.payer r.inputMint r.inputTokenProgram
    r.inputAmount
  let opening := openOutput find r.createOutputAta r.payer r.outputMint r.outputTokenProgram
  let data ← swapData r minimum
  return funding ++ opening ++
    ⟨cpmmProgram, data, swapAccounts find r⟩ ::
      closeInput find r.closeInputAta r.payer r.inputMint

end Build

/-- Both swaps take up to their first number: one exactly this, the other what its output costs. -/
def maximumInput (data : List UInt8) : Option ℕ :=
  if data.take 8 = swapBaseInDiscriminator ∨ data.take 8 = swapBaseOutDiscriminator then
    some (argument data 0)
  else none

def swapProgram : SwapProgram where
  address := cpmmProgram
  maximumInput := maximumInput
  address_notMem := by decide +kernel

section Funding

variable {str : PubkeyText} {find : ProgramAddress} {r : BuyRequest} {data : List UInt8}
  {ixs : List Instruction}

theorem maximumInput_swapData {minimum : ℤ} (h : swapData r minimum = .ok data) :
    maximumInput data = some r.inputAmount.toNat := by
  rw [swapData] at h
  cases hfixed : r.fixedOutputAmount with
  | some fixed =>
      rw [hfixed] at h
      have hpacked : SwapData swapBaseOutDiscriminator _ _ _ data := packSwap_data rfl h
      rw [maximumInput, if_pos (.inr hpacked.name_eq), hpacked.first]
  | none =>
      rw [hfixed] at h
      have hpacked : SwapData swapBaseInDiscriminator _ _ _ data := packSwap_data rfl h
      rw [maximumInput, if_pos (.inl hpacked.name_eq), hpacked.first]

/-- The input is wrapped SOL, and its account is asked for. -/
def BuyRequest.WrapsInput (r : BuyRequest) : Prop :=
  r.createInputAta = true ∧ r.inputMint = wsolTokenAccount

instance : DecidablePred BuyRequest.WrapsInput :=
  fun _ => inferInstanceAs (Decidable (_ ∧ _))

theorem buildBuyInstructions_funds (h : buildBuyInstructions str find r = .ok ixs) :
    ∃ n, Funds find r.payer swapProgram r.WrapsInput n ixs := by
  obtain ⟨_, -, h⟩ := bind_eq_ok.1 h
  obtain ⟨_, -, h⟩ := bind_eq_ok.1 h
  obtain ⟨_, -, h⟩ := bind_eq_ok.1 h
  obtain ⟨minimum, -, h⟩ := bind_eq_ok.1 h
  obtain ⟨funding, hfunding, h⟩ := bind_eq_ok.1 h
  obtain ⟨data, hdata, h⟩ := bind_eq_ok.1 h
  obtain rfl := pure_eq_ok.1 h
  have hbefore := (wraps_fundInput hfunding).append
    (wraps_openOutput r.createOutputAta r.outputMint r.outputTokenProgram)
  rw [List.append_nil] at hbefore
  exact ⟨_, .of_swap hbefore rfl (maximumInput_swapData hdata) (wraps_closeInput _)⟩

end Funding

end RaydiumCpmm

/-! ### Meteora DAMM v2 -/

namespace MeteoraDammV2

def meteoraDammV2Program : Pubkey :=
  .ofNat 0x092d2135657a159c2b87d4b66a70db8e9752389ff76aaf206ced063a38f95aed
def authority : Pubkey := .ofNat 0xf2ccd535aca5f1736ac822dd0773e4d92fbd8a59b29403500295a9011c73a9e5
def sysvarInstructions : Pubkey :=
  .ofNat 0x06a7d517187bd16635dad40455fdc2c0c124c68f215675a5dbbacb5f08000000

example : [meteoraDammV2Program, authority, sysvarInstructions].map base58Text =
    ["cpamdpZCGKUy5JxQXB4dcpGPiikHawvSWAd6mEn1sGG",
      "HLnpSz9h2S4hiLQ43rnSD9XkcUThA7B8hQMKmDaiTLcC",
      "Sysvar1nstructions1111111111111111111111111"] := by
  decide +kernel

def swap2Discriminator : List UInt8 := [65, 75, 63, 76, 235, 91, 91, 136]

inductive SwapMode where
  | exactIn
  | partialFill
  | exactOut
  deriving DecidableEq

def SwapMode.byte : SwapMode → UInt8
  | exactIn => 0
  | partialFill => 1
  | exactOut => 2

structure MeteoraDammV2Params where
  pool : Pubkey := .default
  tokenAVault : Pubkey := .default
  tokenBVault : Pubkey := .default
  tokenAMint : Pubkey := .default
  tokenBMint : Pubkey := .default
  tokenAProgram : Pubkey := tokenProgram
  tokenBProgram : Pubkey := tokenProgram
  referralTokenAccount : Option Pubkey := none
  swapMode : ℤ := 1
  includeRateLimiterSysvar : Bool := false

def MeteoraDammV2Params.isWsol (params : MeteoraDammV2Params) : Bool :=
  params.tokenAMint = wsolTokenAccount ∨ params.tokenBMint = wsolTokenAccount

def MeteoraDammV2Params.isUsdc (params : MeteoraDammV2Params) : Bool :=
  params.tokenAMint = usdcTokenAccount ∨ params.tokenBMint = usdcTokenAccount

def resolveSwapMode (params : MeteoraDammV2Params) : Except BuildError SwapMode :=
  if params.swapMode = 0 then .ok .exactIn
  else if params.swapMode = 1 then .ok .partialFill
  else if params.swapMode = 2 then .ok .exactOut
  else .error (.value ("Unsupported MeteoraDammV2 swap_mode " ++ toString params.swapMode))

def resolveAmounts (swapMode : SwapMode) (amountIn fixedOutput : ℤ) : ℤ × ℤ :=
  if swapMode = .exactOut then (fixedOutput, amountIn) else (amountIn, fixedOutput)

def mintMatches (requested expected : Pubkey) : Bool :=
  requested = expected ∨ (expected = wsolTokenAccount ∧ requested = solTokenAccount)

def ensureExpectedMint (str : PubkeyText) (label : String) (requested expected : Pubkey) :
    Except BuildError Unit :=
  require (¬ (requested ≠ .default ∧ mintMatches requested expected = false))
    (.value (label ++ " must match the Meteora DAMM v2 pool side (" ++ str expected ++
      "), got " ++ str requested))

/-- The arguments of `build_buy_instructions`; the slippage is not read. -/
structure BuyRequest where
  payer : Pubkey
  outputMint : Pubkey
  inputAmount : ℤ
  params : MeteoraDammV2Params
  createInputAta : Bool := true
  createOutputAta : Bool := true
  closeInputAta : Bool := false
  fixedOutputAmount : Option ℤ := none
  inputMint : Option Pubkey := none

namespace BuyRequest

variable (r : BuyRequest)

/-- Token A is the input. -/
def isAIn : Bool := mintMatches r.outputMint r.params.tokenBMint

def expectedInputMint : Pubkey :=
  if r.isAIn = true then r.params.tokenAMint else r.params.tokenBMint

def expectedOutputMint : Pubkey :=
  if r.isAIn = true then r.params.tokenBMint else r.params.tokenAMint

def inputTokenProgram : Pubkey :=
  if r.isAIn = true then r.params.tokenAProgram else r.params.tokenBProgram

def outputTokenProgram : Pubkey :=
  if r.isAIn = true then r.params.tokenBProgram else r.params.tokenAProgram

end BuyRequest

section Build

variable (str : PubkeyText) (find : ProgramAddress)

def eventAuthorityPda : Pubkey := (find [seed "__event_authority"] meteoraDammV2Program).1

def buildAccountMetas (params : MeteoraDammV2Params)
    (payer inputTokenAccount outputTokenAccount eventAuthority : Pubkey) : List AccountMeta :=
  [⟨authority, false, false⟩, ⟨params.pool, false, true⟩, ⟨inputTokenAccount, false, true⟩,
    ⟨outputTokenAccount, false, true⟩, ⟨params.tokenAVault, false, true⟩,
    ⟨params.tokenBVault, false, true⟩, ⟨params.tokenAMint, false, false⟩,
    ⟨params.tokenBMint, false, false⟩, ⟨payer, true, false⟩, ⟨params.tokenAProgram, false, false⟩,
    ⟨params.tokenBProgram, false, false⟩] ++
  (match params.referralTokenAccount with
    | some referral => [⟨referral, false, true⟩]
    | none => [⟨meteoraDammV2Program, false, false⟩]) ++
  [⟨eventAuthority, false, false⟩, ⟨meteoraDammV2Program, false, false⟩] ++
  (if params.includeRateLimiterSysvar = true then [⟨sysvarInstructions, false, false⟩] else [])

def swapAccounts (r : BuyRequest) : List AccountMeta :=
  buildAccountMetas r.params r.payer
    (associatedTokenAddress find r.payer r.expectedInputMint r.inputTokenProgram)
    (associatedTokenAddress find r.payer r.expectedOutputMint r.outputTokenProgram)
    (eventAuthorityPda find)

/-- `fixed_output_amount`, which the pool requires. -/
def requireFixedOutput (r : BuyRequest) : Except BuildError ℤ :=
  match r.fixedOutputAmount with
  | some fixed => .ok fixed
  | none => .error (.value "fixed_output_amount must be set for MeteoraDammV2 swap")

def buildBuyInstructions (r : BuyRequest) : Except BuildError (List Instruction) := do
  require (r.inputAmount ≠ 0) (.value "Amount cannot be zero")
  require (r.params.isWsol = true ∨ r.params.isUsdc = true)
    (.value "Pool must contain WSOL or USDC")
  let fixedOutput ← requireFixedOutput r
  let swapMode ← resolveSwapMode r.params
  let amounts := resolveAmounts swapMode r.inputAmount fixedOutput
  r.inputMint.forM (ensureExpectedMint str "input_mint" · r.expectedInputMint)
  ensureExpectedMint str "output_mint" r.outputMint r.expectedOutputMint
  let funding ← fundInput find r.createInputAta r.payer r.expectedInputMint r.inputTokenProgram
    r.inputAmount
  let opening := openOutput find r.createOutputAta r.payer r.expectedOutputMint
    r.outputTokenProgram
  let data ← packSwap swap2Discriminator amounts.1 amounts.2 [swapMode.byte]
  return funding ++ opening ++
    ⟨meteoraDammV2Program, data, swapAccounts find r⟩ ::
      closeInput find r.closeInputAta r.payer r.expectedInputMint

end Build

/-- `swap2` takes up to its second number for an exact output, and its first otherwise. -/
def maximumInput (data : List UInt8) : Option ℕ :=
  if data.take 8 = swap2Discriminator then
    if data.drop 24 = [SwapMode.exactOut.byte] then some (argument data 1)
    else some (argument data 0)
  else none

def swapProgram : SwapProgram where
  address := meteoraDammV2Program
  maximumInput := maximumInput
  address_notMem := by decide +kernel

section Funding

variable {str : PubkeyText} {find : ProgramAddress} {r : BuyRequest} {data : List UInt8}
  {ixs : List Instruction}

theorem maximumInput_swap2 {swapMode : SwapMode} {amountIn fixedOutput : ℤ}
    (h : packSwap swap2Discriminator (resolveAmounts swapMode amountIn fixedOutput).1
      (resolveAmounts swapMode amountIn fixedOutput).2 [swapMode.byte] = .ok data) :
    maximumInput data = some amountIn.toNat := by
  have hpacked : SwapData swap2Discriminator _ _ _ data := packSwap_data rfl h
  rw [maximumInput, if_pos hpacked.name_eq, hpacked.rest_eq, hpacked.first, hpacked.second]
  cases swapMode with
  | exactIn => rfl
  | partialFill => rfl
  | exactOut => rfl

/-- The input is wrapped SOL, and its account is asked for. -/
def BuyRequest.WrapsInput (r : BuyRequest) : Prop :=
  r.createInputAta = true ∧ r.expectedInputMint = wsolTokenAccount

instance : DecidablePred BuyRequest.WrapsInput :=
  fun _ => inferInstanceAs (Decidable (_ ∧ _))

theorem buildBuyInstructions_funds (h : buildBuyInstructions str find r = .ok ixs) :
    ∃ n, Funds find r.payer swapProgram r.WrapsInput n ixs := by
  obtain ⟨_, -, h⟩ := bind_eq_ok.1 h
  obtain ⟨_, -, h⟩ := bind_eq_ok.1 h
  obtain ⟨fixedOutput, -, h⟩ := bind_eq_ok.1 h
  obtain ⟨swapMode, -, h⟩ := bind_eq_ok.1 h
  obtain ⟨_, -, h⟩ := bind_eq_ok.1 h
  obtain ⟨_, -, h⟩ := bind_eq_ok.1 h
  obtain ⟨funding, hfunding, h⟩ := bind_eq_ok.1 h
  obtain ⟨data, hdata, h⟩ := bind_eq_ok.1 h
  obtain rfl := pure_eq_ok.1 h
  have hbefore := (wraps_fundInput hfunding).append
    (wraps_openOutput r.createOutputAta r.expectedOutputMint r.outputTokenProgram)
  rw [List.append_nil] at hbefore
  exact ⟨_, .of_swap hbefore rfl (maximumInput_swap2 hdata) (wraps_closeInput _)⟩

end Funding

end MeteoraDammV2

end SolTrade
