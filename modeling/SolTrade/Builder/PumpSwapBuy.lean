import SolTrade.Builder.Funding
import SolTrade.PumpSwap.PoolParams

/-!
The instructions of a PumpSwap purchase.

The input is the quote or the base of the pool. A quote input is spent exactly, or bought with up
to a maximum, or spent for a fixed output; a base input is sold.
-/

namespace SolTrade.PumpSwap

open Library Builder
open Route (PumpSwapFeeBasisPoints pumpSwapProgram associatedTokenProgram systemProgram
  tokenProgram wsolTokenAccount syncNative buyQuoteInputInternalWithFees
  sellBaseInputInternalWithFees pumpswapMinimumOutput)
open Token (token2022Program)

def pumpswapGlobalAccount : Pubkey :=
  .ofNat 0x890ba644fe1f55aa19f11cd2d2ec14d3233b6e0a4beaeef72b69858e21e170d6
def pumpswapEventAuthority : Pubkey :=
  .ofNat 0xe54a709528839f61c0b9b86079891c139216e47a71b62fb73bec72169458745e
def globalVolumeAccumulator : Pubkey :=
  .ofNat 0xa3d7bb127e58adc12ca68f83437ec2e1c3f9820de93e58f9178a2918ddaaf7b4
def rent : Pubkey := .ofNat 0x06a7d517192c5c51218cc94c3d4af17f58daee089ba1fd44e3dbd98a00000000

example : [pumpswapGlobalAccount, pumpswapEventAuthority, globalVolumeAccumulator, rent].map
    base58Text =
    ["ADyA8hdefvWN2dbGGWFotbzWxrAvLW83WG6QCVXvJKqw",
      "GS4CU59F31iL7aR2Q8zVS8DRrcRnXX1yjQ66TqNVQnaR",
      "C2aFPdENg4A2HQsmrd5rTw5TaYBX5Ku887cWjbFKtZpw",
      "SysvarRent111111111111111111111111111111111"] := by
  decide +kernel

def buyDiscriminator : List UInt8 := [102, 6, 61, 18, 1, 218, 235, 234]
def buyExactQuoteInDiscriminator : List UInt8 := [198, 46, 21, 82, 180, 217, 232, 112]
def sellDiscriminator : List UInt8 := [51, 230, 133, 164, 1, 127, 131, 173]

/-! ### Parameters -/

/-- The parameters of a trade, with the fee recipients that the caller may choose. -/
structure TradeParams extends PumpSwapParams where
  protocolFeeRecipientOverride : Option Pubkey := none
  protocolExtraFeeRecipientOverride : Option Pubkey := none

structure BuildBuyParams where
  payer : Pubkey
  inputAmount : ℤ
  slippageBasisPoints : ℤ
  protocolParams : TradeParams
  createInputMintAta : Bool := true
  closeInputMintAta : Bool := false
  createOutputMintAta : Bool := true
  useExactQuoteAmount : Bool := true
  fixedOutputAmount : Option ℤ := none
  inputMint : Option Pubkey := none
  outputMint : Option Pubkey := none
  inputTokenProgram : Option Pubkey := none
  outputTokenProgram : Option Pubkey := none

/-- The accounts that a pool must come with, by name. -/
def TradeParams.named (pp : TradeParams) : List (String × Pubkey) :=
  [("pool", pp.pool), ("base_mint", pp.baseMint), ("quote_mint", pp.quoteMint),
    ("pool_base_token_account", pp.poolBaseTokenAccount),
    ("pool_quote_token_account", pp.poolQuoteTokenAccount),
    ("coin_creator_vault_authority", pp.coinCreatorVaultAuthority),
    ("coin_creator_vault_ata", pp.coinCreatorVaultAta)]

section Build

variable (find : ProgramAddress) (choice : List Pubkey → Pubkey)

def TradeParams.validateAccounts (pp : TradeParams) : Except BuildError Unit := do
  pp.named.forM fun field =>
    require (field.2 ≠ .default)
      (.value ("PumpSwap missing " ++ field.1 ++ "; load a complete pool snapshot"))
  require (pp.baseMint ≠ pp.quoteMint) (.value "PumpSwap pool mints must differ")
  require (pp.poolBaseTokenAccount ≠ pp.poolQuoteTokenAccount)
    (.value "PumpSwap pool token vaults must differ")
  require (pp.protocolFeeRecipientOverride ≠ some .default ∧
    pp.protocolExtraFeeRecipientOverride ≠ some .default)
    (.value "PumpSwap fee recipient override must not be zero")
  require (∀ program ∈ [pp.baseTokenProgram, pp.quoteTokenProgram],
    program ∈ [tokenProgram, token2022Program]) (.value "Unsupported PumpSwap token program")
  match pp.coinCreator with
  | none => .error (.value "PumpSwap requires coin_creator from a complete pool snapshot")
  | some coinCreator =>
      require (pp.coinCreatorVaultAuthority = coinCreatorVaultAuthority find coinCreator)
        (.value "PumpSwap creator vault authority mismatch")
      require (pp.coinCreatorVaultAta =
        coinCreatorVaultAta find coinCreator pp.quoteMint pp.quoteTokenProgram)
        (.value "PumpSwap creator vault ATA does not match quote mint/program")

/-! ### Accounts of the wallet -/

def poolV2Pda (baseMint : Pubkey) : Pubkey :=
  (find [seed "pool-v2", baseMint.toList] pumpSwapProgram).1

def userVolumeAccumulatorPda (user : Pubkey) : Pubkey :=
  (find [seed "user_volume_accumulator", user.toList] pumpSwapProgram).1

def userVolumeAccumulatorQuoteAta (user quoteMint quoteTokenProgram : Pubkey) : Pubkey :=
  associatedTokenAddress find (userVolumeAccumulatorPda find user) quoteMint quoteTokenProgram

def createAssociatedTokenAccountIdempotent (payer owner mint program : Pubkey) : Instruction :=
  ⟨associatedTokenProgram, [1],
    [⟨payer, true, true⟩, ⟨associatedTokenAddress find owner mint program, false, true⟩,
      ⟨owner, false, false⟩, ⟨mint, false, false⟩, ⟨systemProgram, false, false⟩,
      ⟨program, false, false⟩, ⟨associatedTokenProgram, false, false⟩, ⟨rent, false, false⟩]⟩

def handleWsol (owner : Pubkey) (amount : ℤ) : Except BuildError (List Instruction) := do
  let lamports ← packU64 amount
  return [createAssociatedTokenAccountIdempotent find owner owner wsolTokenAccount tokenProgram,
    ⟨systemProgram, Wire.littleEndian 4 2 ++ lamports,
      [⟨owner, true, true⟩, ⟨wsolAta find owner, false, true⟩]⟩,
    syncNative (wsolAta find owner)]

def handleWsolForMint (owner mint program : Pubkey) (amount : ℤ) :
    Except BuildError (List Instruction) :=
  if mint = wsolTokenAccount then handleWsol find owner amount
  else .ok [createAssociatedTokenAccountIdempotent find owner owner mint program]

/-! ### Building -/

/-- The mints of a trade, in its direction, and their programs. -/
structure Direction where
  inputMint : Pubkey
  outputMint : Pubkey
  inputTokenProgram : Pubkey
  outputTokenProgram : Pubkey

def resolveDirection (params : BuildBuyParams) (isBuy : Bool) : Except BuildError Direction := do
  let pp := params.protocolParams
  require (params.inputMint = none ↔ params.outputMint = none)
    (.value "Provide both PumpSwap endpoint mints")
  require (¬ (params.inputMint = none ∧
    (params.inputTokenProgram ≠ none ∨ params.outputTokenProgram ≠ none)))
    (.value "Token programs require PumpSwap endpoint mints")
  let stable : List Pubkey := [wsolTokenAccount, usdcTokenAccount]
  let quoteSide : Bool := pp.quoteMint ∈ stable ∨ pp.baseMint ∉ stable
  let defaultInput := if quoteSide = isBuy then pp.quoteMint else pp.baseMint
  let defaultOutput := if defaultInput = pp.baseMint then pp.quoteMint else pp.baseMint
  let wrapped (mint : Pubkey) := if mint = solTokenAccount then wsolTokenAccount else mint
  let source := wrapped (params.inputMint.getD defaultInput)
  let target := wrapped (params.outputMint.getD defaultOutput)
  require ((source = pp.baseMint ∧ target = pp.quoteMint) ∨
    (source = pp.quoteMint ∧ target = pp.baseMint))
    (.value "PumpSwap request mints do not match pool; an explicit conversion route is required")
  let programOf (mint : Pubkey) :=
    if mint = pp.baseMint then pp.baseTokenProgram else pp.quoteTokenProgram
  require ((∀ program ∈ params.inputTokenProgram, program = programOf source) ∧
    ∀ program ∈ params.outputTokenProgram, program = programOf target)
    (.value "PumpSwap requested token program does not match pool")
  return ⟨source, target, programOf source, programOf target⟩

def minimumOutputWithSlippage (amount basisPoints : ℤ) : Except BuildError ℤ :=
  (pumpswapMinimumOutput amount basisPoints).mapError .quote

/-- The amounts of a trade: `token_amount` and `sol_amount` of the source. -/
def tradeAmounts (params : BuildBuyParams) (quoteIsInput : Bool) : Except BuildError (ℤ × ℤ) :=
  let pp := params.protocolParams
  let fees := effectiveFeeBasisPoints pp.toPumpSwapParams
  match params.fixedOutputAmount with
  | some fixed => do
      require (quoteIsInput = true) (.value "PumpSwap exact-output buy requires a buy instruction")
      require (0 < fixed ∧ fixed < pp.poolBaseTokenReserves)
        (.value "Exact base output must be below the pool base reserve")
      return (fixed, params.inputAmount)
  | none =>
      if quoteIsInput = true then do
        let result ← buyQuoteInputInternalWithFees params.inputAmount params.slippageBasisPoints
          pp.poolBaseTokenReserves pp.poolQuoteTokenReserves pp.virtualQuoteReserves fees
        return (result.base, result.maxQuote)
      else do
        let result ← sellBaseInputInternalWithFees params.inputAmount params.slippageBasisPoints
          pp.poolBaseTokenReserves pp.poolQuoteTokenReserves pp.virtualQuoteReserves fees
        let minimum ← minimumOutputWithSlippage result.uiQuote params.slippageBasisPoints
        return (minimum, params.inputAmount)

/-- The data of the swap. -/
def swapData (params : BuildBuyParams) (quoteIsInput : Bool) (tokenAmount solAmount : ℤ) :
    Except BuildError (List UInt8) :=
  if params.fixedOutputAmount ≠ none then packSwap buyDiscriminator tokenAmount solAmount [1]
  else if quoteIsInput = true ∧ params.useExactQuoteAmount = true then do
    let minBaseAmountOut ← minimumOutputWithSlippage tokenAmount params.slippageBasisPoints
    packSwap buyExactQuoteInDiscriminator params.inputAmount minBaseAmountOut [1]
  else if quoteIsInput = true then packSwap buyDiscriminator tokenAmount solAmount [1]
  else packSwap sellDiscriminator solAmount tokenAmount []

def protocolFeeRecipient (pp : TradeParams) : Pubkey :=
  match pp.protocolFeeRecipientOverride with
  | some recipient => recipient
  | none => if pp.isMayhemMode = true then choice mayhemFeeRecipients else feeRecipient

def swapAccounts (payer : Pubkey) (pp : TradeParams) (quoteIsInput : Bool) : List AccountMeta :=
  let quoteAta (owner : Pubkey) :=
    associatedTokenAddress find owner pp.quoteMint pp.quoteTokenProgram
  let recipient := protocolFeeRecipient choice pp
  let accumulator := userVolumeAccumulatorPda find payer
  let protocolExtra := pp.protocolExtraFeeRecipientOverride.getD (choice protocolExtraFeeRecipients)
  [⟨pp.pool, false, true⟩, ⟨payer, true, true⟩, ⟨pumpswapGlobalAccount, false, false⟩,
    ⟨pp.baseMint, false, false⟩, ⟨pp.quoteMint, false, false⟩,
    ⟨associatedTokenAddress find payer pp.baseMint pp.baseTokenProgram, false, true⟩,
    ⟨quoteAta payer, false, true⟩, ⟨pp.poolBaseTokenAccount, false, true⟩,
    ⟨pp.poolQuoteTokenAccount, false, true⟩, ⟨recipient, false, false⟩,
    ⟨quoteAta recipient, false, true⟩, ⟨pp.baseTokenProgram, false, false⟩,
    ⟨pp.quoteTokenProgram, false, false⟩, ⟨systemProgram, false, false⟩,
    ⟨associatedTokenProgram, false, false⟩, ⟨pumpswapEventAuthority, false, false⟩,
    ⟨pumpSwapProgram, false, false⟩, ⟨pp.coinCreatorVaultAta, false, true⟩,
    ⟨pp.coinCreatorVaultAuthority, false, false⟩] ++
  (if quoteIsInput = true then
    [⟨globalVolumeAccumulator, false, false⟩, ⟨accumulator, false, true⟩] else []) ++
  [⟨feeConfigAddress, false, false⟩, ⟨feeProgram, false, false⟩] ++
  (if pp.isCashbackCoin = true then
    ⟨userVolumeAccumulatorQuoteAta find payer pp.quoteMint pp.quoteTokenProgram, false, true⟩ ::
      (if quoteIsInput = true then [] else [⟨accumulator, false, true⟩]) else []) ++
  (if pp.coinCreator = some .default then [] else [⟨poolV2Pda find pp.baseMint, false, false⟩]) ++
  [⟨protocolExtra, false, false⟩, ⟨quoteAta protocolExtra, false, true⟩]

/-- The account of the input, if it is asked for. -/
def fundInputMint (params : BuildBuyParams) (direction : Direction) (amount : ℤ) :
    Except BuildError (List Instruction) :=
  if params.createInputMintAta = true then
    handleWsolForMint find params.payer direction.inputMint direction.inputTokenProgram amount
  else .ok []

/-- The account of the output, if it is asked for. -/
def openOutputMint (params : BuildBuyParams) (direction : Direction) : List Instruction :=
  if params.createOutputMintAta = true then
    [createAssociatedTokenAccountIdempotent find params.payer params.payer direction.outputMint
      direction.outputTokenProgram]
  else []

def buildBuyInstructions (params : BuildBuyParams) : Except BuildError (List Instruction) := do
  require (params.inputAmount ≠ 0) (.value "Amount cannot be zero")
  let pp := params.protocolParams
  pp.validateAccounts find
  let direction ← resolveDirection params true
  let quoteIsInput : Bool := direction.inputMint = pp.quoteMint
  let (tokenAmount, solAmount) ← tradeAmounts params quoteIsInput
  let wrapAmount := if params.useExactQuoteAmount = true then params.inputAmount else solAmount
  let funding ← fundInputMint find params direction wrapAmount
  let data ← swapData params quoteIsInput tokenAmount solAmount
  return funding ++ openOutputMint find params direction ++
    ⟨pumpSwapProgram, data, swapAccounts find choice params.payer pp quoteIsInput⟩ ::
      closeInput find params.closeInputMintAta params.payer direction.inputMint

end Build

/-! ### What is wrapped and what is taken -/

/-- `buy` takes up to its second number, `buy_exact_quote_in` and `sell` take their first. -/
def maximumInput (data : List UInt8) : Option ℕ :=
  if data.take 8 = buyDiscriminator then some (argument data 1)
  else if data.take 8 = buyExactQuoteInDiscriminator ∨ data.take 8 = sellDiscriminator then
    some (argument data 0)
  else none

def swapProgram : SwapProgram where
  address := pumpSwapProgram
  maximumInput := maximumInput
  address_notMem := by decide +kernel

section Funding

variable {find : ProgramAddress} {choice : List Pubkey → Pubkey} {params : BuildBuyParams}
  {quoteIsInput : Bool} {tokenAmount solAmount a b : ℤ} {rest data : List UInt8}
  {ixs : List Instruction}

theorem maximumInput_buy (h : SwapData buyDiscriminator a b rest data) :
    maximumInput data = some b.toNat := by
  rw [maximumInput, if_pos h.name_eq, h.second]

theorem maximumInput_buyExactQuoteIn (h : SwapData buyExactQuoteInDiscriminator a b rest data) :
    maximumInput data = some a.toNat := by
  rw [maximumInput, h.name_eq, if_neg (by decide), if_pos (.inl rfl), h.first]

theorem maximumInput_sell (h : SwapData sellDiscriminator a b rest data) :
    maximumInput data = some a.toNat := by
  rw [maximumInput, h.name_eq, if_neg (by decide), if_pos (.inr rfl), h.first]

/-- A trade that is not bought up to a maximum takes its input amount. -/
theorem tradeAmounts_sol (h : tradeAmounts params quoteIsInput = .ok (tokenAmount, solAmount))
    (hexact : params.fixedOutputAmount ≠ none ∨ quoteIsInput = false) :
    solAmount = params.inputAmount := by
  rw [tradeAmounts] at h
  cases hfixed : params.fixedOutputAmount with
  | some fixed =>
      rw [hfixed] at h
      obtain ⟨_, -, h⟩ := bind_eq_ok.1 h
      obtain ⟨_, -, h⟩ := bind_eq_ok.1 h
      exact (congrArg Prod.snd (pure_eq_ok.1 h)).symm
  | none =>
      have hsell : quoteIsInput = false := hexact.resolve_left fun hne => hne hfixed
      rw [hfixed, hsell] at h
      obtain ⟨_, -, h⟩ := bind_eq_ok.1 h
      obtain ⟨_, -, h⟩ := bind_eq_ok.1 h
      exact (congrArg Prod.snd (pure_eq_ok.1 h)).symm

/-- The swap may take what is wrapped for it. -/
theorem maximumInput_swapData
    (hamounts : tradeAmounts params quoteIsInput = .ok (tokenAmount, solAmount))
    (hdata : swapData params quoteIsInput tokenAmount solAmount = .ok data) :
    maximumInput data = some
      (if params.useExactQuoteAmount = true then params.inputAmount else solAmount).toNat := by
  have hsol := tradeAmounts_sol hamounts
  rw [swapData] at hdata
  by_cases hfixed : params.fixedOutputAmount ≠ none
  · rw [if_pos hfixed] at hdata
    rw [maximumInput_buy (packSwap_data rfl hdata), hsol (.inl hfixed), ite_self]
  rw [if_neg hfixed] at hdata
  cases quoteIsInput with
  | true =>
      by_cases hexact : params.useExactQuoteAmount = true
      · rw [if_pos ⟨rfl, hexact⟩] at hdata
        obtain ⟨_, -, hdata⟩ := bind_eq_ok.1 hdata
        rw [maximumInput_buyExactQuoteIn (packSwap_data rfl hdata), if_pos hexact]
      · rw [if_neg fun hboth => hexact hboth.2, if_pos rfl] at hdata
        rw [maximumInput_buy (packSwap_data rfl hdata), if_neg hexact]
  | false =>
      rw [if_neg fun hboth => Bool.false_ne_true hboth.1, if_neg Bool.false_ne_true] at hdata
      rw [maximumInput_sell (packSwap_data rfl hdata), hsol (.inr rfl), ite_self]

theorem wraps_handleWsol {owner : Pubkey} {amount : ℤ}
    (h : handleWsol find owner amount = .ok ixs) : Wraps find owner [amount.toNat] ixs := by
  rw [handleWsol, bind_eq_ok] at h
  obtain ⟨lamports, hlamports, h⟩ := h
  obtain ⟨hrange, rfl⟩ := packU64_eq_ok.1 hlamports
  obtain rfl := pure_eq_ok.1 h
  exact .handleWsol rfl hrange

/-- The input is wrapped SOL, and its account is asked for. -/
def BuildBuyParams.WrapsInput (params : BuildBuyParams) : Prop :=
  params.createInputMintAta = true ∧
    (resolveDirection params true).map (·.inputMint) = .ok wsolTokenAccount

instance : DecidablePred BuildBuyParams.WrapsInput :=
  fun _ => inferInstanceAs (Decidable (_ ∧ _))

theorem wraps_fundInputMint {direction : Direction} {amount : ℤ}
    (hdirection : resolveDirection params true = .ok direction)
    (h : fundInputMint find params direction amount = .ok ixs) :
    Wraps find params.payer (if params.WrapsInput then [amount.toNat] else []) ixs := by
  have hwraps : params.WrapsInput ↔
      params.createInputMintAta = true ∧ direction.inputMint = wsolTokenAccount := by
    simp [BuildBuyParams.WrapsInput, hdirection, Except.map]
  simp only [hwraps]
  exact .of_requested (fun _ => wraps_handleWsol) rfl h

theorem wraps_openOutputMint (direction : Direction) :
    Wraps find params.payer [] (openOutputMint find params direction) :=
  .ite_nil (.associated rfl)

theorem buildBuyInstructions_funds (h : buildBuyInstructions find choice params = .ok ixs) :
    ∃ n, Funds find params.payer swapProgram params.WrapsInput n ixs := by
  obtain ⟨_, -, h⟩ := bind_eq_ok.1 h
  obtain ⟨_, -, h⟩ := bind_eq_ok.1 h
  obtain ⟨direction, hdirection, h⟩ := bind_eq_ok.1 h
  obtain ⟨⟨tokenAmount, solAmount⟩, hamounts, h⟩ := bind_eq_ok.1 h
  obtain ⟨funding, hfunding, h⟩ := bind_eq_ok.1 h
  obtain ⟨data, hdata, h⟩ := bind_eq_ok.1 h
  obtain rfl := pure_eq_ok.1 h
  have hbefore := (wraps_fundInputMint hdirection hfunding).append (wraps_openOutputMint direction)
  rw [List.append_nil] at hbefore
  exact ⟨_, .of_swap hbefore rfl (maximumInput_swapData hamounts hdata) (wraps_closeInput _)⟩

end Funding

end SolTrade.PumpSwap
