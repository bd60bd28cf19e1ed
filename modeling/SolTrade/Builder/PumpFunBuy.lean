import SolTrade.Builder.Funding
import SolTrade.PumpSwap.FeeConfig
import SolTrade.Token.MintState

/-!
The instructions of a PumpFun purchase in the V2 layout.

The quote of the curve is spent exactly, or bought with up to a maximum, or spent for a fixed
output. The other layouts settle native SOL and wrap nothing.
-/

namespace SolTrade.PumpFun

open Library Builder
open Route (pumpFunProgram associatedTokenProgram systemProgram tokenProgram wsolTokenAccount)
open Token (token2022Program)

def globalAccount : Pubkey :=
  .ofNat 0x3a865e69ee0f5480cabcf66357e4dc2f18d58d45c1ea7489fb3723d9793c72a6
def eventAuthority : Pubkey :=
  .ofNat 0xacf136eb01fc1c4e883d23c8b5844ab59a37f66add57c5e9ac3b53e059d35c64
def feeProgram : Pubkey := .ofNat 0x0c35ffa9055a8e568da8f7bc075615274cf1c92ca41f40009c516aa414c27c70
def globalVolumeAccumulator : Pubkey :=
  .ofNat 0xfa0911a54863412d631f4e078703296c035f0d1333a0d9c8838d73b710fe6e2d
def feeConfig : Pubkey := .ofNat 0x6f9ab4a4f1958dc0a9c94c3fb72c07995843eda485e3a24f10c69399f819940f
def phantomDefaultCreatorVault : Pubkey :=
  .ofNat 0x1209d8b9026cb30847a4c2573b2a84fa3a4c0dd5d925680e63a3ae0854dd1c35

def standardBondingFeeRecipients : List Pubkey := [feeRecipient,
  .ofNat 0x608ccc1dfce961b43b779c191505a6e2d3bf45d5a4db4618ad76c82d61754535,
  .ofNat 0x638373000ea22cb264d34aff64a04b5efabfbb74ddcd048997b1981547d7d110,
  .ofNat 0x838474292e675a94b436ecb0a9988942328a83ddc6233802961267c5cd6117cb,
  .ofNat 0x8d181a0c849fa937a6f34aded3081ef95700aacb0c9bb3d909a4b9147527a4eb,
  .ofNat 0xad11e6a4fc2944a4fa8251bef815426e1bfb28c6b6646677607c6ad9f566a646,
  .ofNat 0xd7aa8fb060d8291b4c4d475daff762c96bdc0daceb36c012ead12ed3a9484161,
  .ofNat 0xe004c87ceb98fa5ce47f803806fd2c7945d29524959aec00ded97814f38f7846]

example : (globalAccount :: eventAuthority :: feeProgram :: globalVolumeAccumulator :: feeConfig ::
    phantomDefaultCreatorVault :: standardBondingFeeRecipients).map base58Text =
    ["4wTV1YmiEkRvAtNtsSGPtUrqRYQMe5SKy2uB4Jjaxnjf",
      "Ce6TQqeHC9p8KetsN6JsjHK7UTZk7nasjjnr7XxXp9F1",
      "pfeeUxB6jkeY1Hxd7CsFCAjcbHA9rWtchMGdZ6VojVZ",
      "Hq2wp8uJ9jCPsYgNHex8RtqdvMPfVGoYwjvF1ATiwn2Y",
      "8Wf5TiAheLUqBrKXeYg2JtAFFMWtKdG2BSFgqUcPVwTt",
      "2DR3iqRPVThyRLVJnwjPW1qiGWrp8RUFfHVjMbZyhdNc",
      "62qc2CNXwrYqQScmEdiZFFAnJR262PxWEuNQtxfafNgV",
      "7VtfL8fvgNfhz17qKRMjzQEXgbdpnHHHQRh54R9jP2RJ",
      "7hTckgnGnLQR6sdH7YkqFTAA7VwTfYFaZ6EhEsU3saCX",
      "9rPYyANsfQZw3DnDmKE3YCQF5E8oD89UXoHn9JFEhJUz",
      "AVmoTthdrX6tKt4nDjco2D775W2YK3sDhxPcMmzUAmTY",
      "CebN5WGQ4jvEPvsVU4EoHEpgzq1VV7AbicfhtW4xC9iM",
      "FWsW1xNtWscwNmKv6wVsU1iTzRN6wmmk3MjxRP5tT7hz",
      "G5UZAVbAf46s7cKWoyKu8kYTip9DGTpbLZ2qa9Aq69dP"] := by
  decide +kernel

def buyV2Discriminator : List UInt8 := [184, 23, 238, 97, 103, 197, 211, 61]
def buyExactQuoteInV2Discriminator : List UInt8 := [194, 171, 28, 70, 104, 77, 91, 47]

/-! ### Parameters -/

structure PumpFunParams where
  bondingCurveAccount : Option Pubkey := none
  virtualTokenReserves : ℤ := 0
  virtualSolReserves : ℤ := 0
  realTokenReserves : ℤ := 0
  creator : Pubkey := .default
  isMayhemMode : Bool := false
  creatorVault : Pubkey := .default
  feeSharingCreatorVaultIfActive : Option Pubkey := none
  observedTradeCreator : Option Pubkey := none
  tokenProgram : Pubkey := token2022Program
  feeRecipient : Pubkey := .default
  quoteMint : Pubkey := .default
  curveQuoteMint : Pubkey := .default

def isUsablePubkey (value : Pubkey) : Bool :=
  value ≠ .default ∧ value ≠ phantomDefaultCreatorVault

def feeRecipientOkForBondingCurveMode (recipient : Pubkey) (mayhem : Bool) : Bool :=
  let reserved : Bool := recipient ∈ mayhemFeeRecipients
  let normal : Bool := recipient ∈ standardBondingFeeRecipients
  if mayhem = true then reserved || (!normal && recipient != .default)
  else normal || (!reserved && recipient != .default)

def isSolQuoteMint (mint : Pubkey) : Bool := mint = solTokenAccount ∨ mint = wsolTokenAccount

def validateV2BuyQuoteMint (str : PubkeyText) (inputMint quoteMint : Pubkey) :
    Except BuildError Unit :=
  require (if isSolQuoteMint quoteMint = true then inputMint ∈ [solTokenAccount, wsolTokenAccount]
      else inputMint = quoteMint)
    (.value ("PumpFun V2 buy input_mint " ++ str inputMint ++ " does not match quote_mint " ++
      str quoteMint ++ "; USDC quote pools must be bought with USDC, not SOL"))

namespace PumpFunParams

variable (params : PumpFunParams)

def effectiveCreatorForTrade : Pubkey :=
  match params.observedTradeCreator.filter isUsablePubkey with
  | some creator => creator
  | none => if isUsablePubkey params.creator = true then params.creator else .default

def effectivePumpMintTokenProgram (str : PubkeyText) (mint : Pubkey) : Pubkey :=
  if (str mint).endsWith "pump" = true then token2022Program
  else if isUsablePubkey params.tokenProgram = true then params.tokenProgram
  else token2022Program

def effectiveQuoteMint : Pubkey :=
  let quote := if isUsablePubkey params.quoteMint = true then params.quoteMint
    else params.curveQuoteMint
  if isUsablePubkey quote = false ∨ quote = solTokenAccount then wsolTokenAccount else quote

end PumpFunParams

def getBuyTokenAmountFromSolAmount (virtualTokenReserves virtualSolReserves realTokenReserves : ℤ)
    (creator : Pubkey) (solAmount : ℤ) : Except CurveError ℤ :=
  buyExact virtualTokenReserves virtualSolReserves realTokenReserves solAmount
    (95 + if isUsablePubkey creator = true then 30 else 0)

/-- The arguments of `build_buy_v2_instructions`. -/
structure BuyV2Request where
  payer : Pubkey
  outputMint : Pubkey
  inputMint : Pubkey
  inputAmount : ℤ
  params : PumpFunParams
  slippageBps : ℤ := 500
  createOutputAta : Bool := true
  createInputAta : Bool := false
  closeInputAta : Bool := false
  fixedOutputAmount : Option ℤ := none
  useExactSolAmount : Bool := true

/-! ### Building -/

section Build

variable (str : PubkeyText) (find : ProgramAddress) (choice : List Pubkey → Pubkey)

def bondingCurvePda (mint : Pubkey) : Pubkey :=
  (find [seed "bonding-curve", mint.toList] pumpFunProgram).1

def creatorVaultPda (creator : Pubkey) : Pubkey :=
  (find [seed "creator-vault", creator.toList] pumpFunProgram).1

def userVolumeAccumulatorPda (user : Pubkey) : Pubkey :=
  (find [seed "user_volume_accumulator", user.toList] pumpFunProgram).1

def feeSharingConfigPda (mint : Pubkey) : Pubkey :=
  (find [seed "sharing-config", mint.toList] feeProgram).1

def pumpFunFeeRecipient (params : PumpFunParams) : Pubkey :=
  if feeRecipientOkForBondingCurveMode params.feeRecipient params.isMayhemMode = true then
    params.feeRecipient
  else if params.isMayhemMode = true then choice mayhemFeeRecipients else Builder.feeRecipient

def resolveCreatorVaultForIx (params : PumpFunParams) (mint : Pubkey) : Except BuildError Pubkey :=
  if isUsablePubkey params.creatorVault = true then .ok params.creatorVault
  else
    match params.feeSharingCreatorVaultIfActive.filter isUsablePubkey with
    | some vault => .ok vault
    | none =>
        let creator := params.effectiveCreatorForTrade
        if isUsablePubkey creator = true then .ok (creatorVaultPda find creator)
        else .error (.value ("creator_vault PDA derivation failed for mint " ++ str mint))

def buyTokenAmount (r : BuyV2Request) : Except CurveError ℤ :=
  match r.fixedOutputAmount with
  | some fixed => .ok fixed
  | none => getBuyTokenAmountFromSolAmount r.params.virtualTokenReserves
      r.params.virtualSolReserves r.params.realTokenReserves r.params.effectiveCreatorForTrade
      r.inputAmount

/-- The data of the swap, and what is funded for it. -/
def swapDataV2 (r : BuyV2Request) (buyTokenAmount : ℤ) : Except BuildError (List UInt8 × ℤ) :=
  let maxSolCost := calculateWithSlippageBuy r.inputAmount r.slippageBps
  match r.fixedOutputAmount with
  | some fixed => do
      let data ← packSwap buyV2Discriminator fixed r.inputAmount []
      return (data, r.inputAmount)
  | none =>
      if r.useExactSolAmount = true then do
        let minTokensOut := calculateWithSlippageSell buyTokenAmount r.slippageBps
        let data ← packSwap buyExactQuoteInV2Discriminator r.inputAmount minTokensOut []
        return (data, r.inputAmount)
      else do
        let data ← packSwap buyV2Discriminator buyTokenAmount maxSolCost []
        return (data, maxSolCost)

def swapAccountsV2 (r : BuyV2Request) (bondingCurve creatorVault : Pubkey) : List AccountMeta :=
  let baseProgram := r.params.effectivePumpMintTokenProgram str r.outputMint
  let quoteMint := r.params.effectiveQuoteMint
  let baseAta (owner : Pubkey) := associatedTokenAddress find owner r.outputMint baseProgram
  let quoteAta (owner : Pubkey) := associatedTokenAddress find owner quoteMint tokenProgram
  let recipient := pumpFunFeeRecipient choice r.params
  let buyback := choice protocolExtraFeeRecipients
  let accumulator := userVolumeAccumulatorPda find r.payer
  [⟨globalAccount, false, false⟩, ⟨r.outputMint, false, false⟩, ⟨quoteMint, false, false⟩,
    ⟨baseProgram, false, false⟩, ⟨tokenProgram, false, false⟩,
    ⟨associatedTokenProgram, false, false⟩, ⟨recipient, false, true⟩,
    ⟨quoteAta recipient, false, true⟩, ⟨buyback, false, false⟩, ⟨quoteAta buyback, false, true⟩,
    ⟨bondingCurve, false, true⟩, ⟨baseAta bondingCurve, false, true⟩,
    ⟨quoteAta bondingCurve, false, true⟩, ⟨r.payer, true, true⟩, ⟨baseAta r.payer, false, true⟩,
    ⟨quoteAta r.payer, false, true⟩, ⟨creatorVault, false, true⟩,
    ⟨quoteAta creatorVault, false, true⟩, ⟨feeSharingConfigPda find r.outputMint, false, false⟩,
    ⟨globalVolumeAccumulator, false, true⟩, ⟨accumulator, false, true⟩,
    ⟨quoteAta accumulator, false, true⟩, ⟨feeConfig, false, false⟩, ⟨feeProgram, false, false⟩,
    ⟨systemProgram, false, false⟩, ⟨eventAuthority, false, false⟩, ⟨pumpFunProgram, false, false⟩]

def buildBuyV2Instructions (r : BuyV2Request) : Except BuildError (List Instruction) := do
  require (r.inputAmount ≠ 0) (.value "Amount cannot be zero")
  let bondingCurve := r.params.bondingCurveAccount.getD (bondingCurvePda find r.outputMint)
  let creatorVault ← resolveCreatorVaultForIx str find r.params r.outputMint
  let quoteMint := r.params.effectiveQuoteMint
  validateV2BuyQuoteMint str r.inputMint quoteMint
  let opening := openOutput find r.createOutputAta r.payer r.outputMint
    (r.params.effectivePumpMintTokenProgram str r.outputMint)
  let tokens ← buyTokenAmount r
  let (data, quoteAmountToFund) ← swapDataV2 r tokens
  let funding ← fundInput find r.createInputAta r.payer quoteMint tokenProgram quoteAmountToFund
  return opening ++ funding ++
    ⟨pumpFunProgram, data, swapAccountsV2 str find choice r bondingCurve creatorVault⟩ ::
      closeInput find r.closeInputAta r.payer quoteMint

end Build

/-! ### What is wrapped and what is taken -/

/-- `buy_v2` takes up to its second number, `buy_exact_quote_in_v2` takes its first. -/
def maximumInput (data : List UInt8) : Option ℕ :=
  if data.take 8 = buyV2Discriminator then some (argument data 1)
  else if data.take 8 = buyExactQuoteInV2Discriminator then some (argument data 0)
  else none

def swapProgram : SwapProgram where
  address := pumpFunProgram
  maximumInput := maximumInput
  address_notMem := by decide +kernel

section Funding

variable {str : PubkeyText} {find : ProgramAddress} {choice : List Pubkey → Pubkey}
  {r : BuyV2Request}
  {a b : ℤ} {rest data : List UInt8} {ixs : List Instruction}

theorem maximumInput_buyV2 (h : SwapData buyV2Discriminator a b rest data) :
    maximumInput data = some b.toNat := by
  rw [maximumInput, if_pos h.name_eq, h.second]

theorem maximumInput_buyExactQuoteInV2
    (h : SwapData buyExactQuoteInV2Discriminator a b rest data) :
    maximumInput data = some a.toNat := by
  rw [maximumInput, h.name_eq, if_neg (by decide), if_pos rfl, h.first]

/-- The swap may take what is funded for it. -/
theorem maximumInput_swapDataV2 {tokens fund : ℤ} (h : swapDataV2 r tokens = .ok (data, fund)) :
    maximumInput data = some fund.toNat := by
  rw [swapDataV2] at h
  cases hfixed : r.fixedOutputAmount with
  | some fixed =>
      rw [hfixed] at h
      obtain ⟨packed, hpacked, h⟩ := bind_eq_ok.1 h
      obtain ⟨rfl, rfl⟩ := Prod.mk.inj (pure_eq_ok.1 h)
      exact maximumInput_buyV2 (packSwap_data rfl hpacked)
  | none =>
      rw [hfixed] at h
      by_cases hexact : r.useExactSolAmount = true
      · simp only [if_pos hexact] at h
        obtain ⟨packed, hpacked, h⟩ := bind_eq_ok.1 h
        obtain ⟨rfl, rfl⟩ := Prod.mk.inj (pure_eq_ok.1 h)
        exact maximumInput_buyExactQuoteInV2 (packSwap_data rfl hpacked)
      · simp only [if_neg hexact] at h
        obtain ⟨packed, hpacked, h⟩ := bind_eq_ok.1 h
        obtain ⟨rfl, rfl⟩ := Prod.mk.inj (pure_eq_ok.1 h)
        exact maximumInput_buyV2 (packSwap_data rfl hpacked)

/-- The quote is wrapped SOL, and its account is asked for. -/
def BuyV2Request.WrapsInput (r : BuyV2Request) : Prop :=
  r.createInputAta = true ∧ r.params.effectiveQuoteMint = wsolTokenAccount

instance : DecidablePred BuyV2Request.WrapsInput :=
  fun _ => inferInstanceAs (Decidable (_ ∧ _))

theorem buildBuyV2Instructions_funds (h : buildBuyV2Instructions str find choice r = .ok ixs) :
    ∃ n, Funds find r.payer swapProgram r.WrapsInput n ixs := by
  obtain ⟨_, -, h⟩ := bind_eq_ok.1 h
  obtain ⟨creatorVault, -, h⟩ := bind_eq_ok.1 h
  obtain ⟨_, -, h⟩ := bind_eq_ok.1 h
  obtain ⟨tokens, -, h⟩ := bind_eq_ok.1 h
  obtain ⟨⟨data, fund⟩, hdata, h⟩ := bind_eq_ok.1 h
  obtain ⟨funding, hfunding, h⟩ := bind_eq_ok.1 h
  obtain rfl := pure_eq_ok.1 h
  have hbefore := (wraps_openOutput r.createOutputAta r.outputMint
    (r.params.effectivePumpMintTokenProgram str r.outputMint)).append (wraps_fundInput hfunding)
  rw [List.nil_append] at hbefore
  exact ⟨_, .of_swap hbefore rfl (maximumInput_swapDataV2 hdata) (wraps_closeInput _)⟩

end Funding

end SolTrade.PumpFun
