import SolTrade.Builder.PoolBuys
import SolTrade.Builder.PumpFunBuy
import SolTrade.Builder.PumpSwapBuy

/-!
The purchases that wrap SOL for their input.

Whatever the venue, the side of the pool and the way the amounts are given: what a purchase wraps
is what its swap may take.
-/

namespace SolTrade.Builder

open Library
open Route (tokenProgram wsolTokenAccount)

inductive BuyRequest where
  | pumpSwap (params : PumpSwap.BuildBuyParams)
  | pumpFun (r : PumpFun.BuyV2Request)
  | raydiumCpmm (r : RaydiumCpmm.BuyRequest)
  | meteoraDammV2 (r : MeteoraDammV2.BuyRequest)

namespace BuyRequest

def build (str : PubkeyText) (find : ProgramAddress) (choice : List Pubkey → Pubkey) :
    BuyRequest → Except BuildError (List Instruction)
  | pumpSwap params => PumpSwap.buildBuyInstructions find choice params
  | pumpFun r => PumpFun.buildBuyV2Instructions str find choice r
  | raydiumCpmm r => RaydiumCpmm.buildBuyInstructions str find r
  | meteoraDammV2 r => MeteoraDammV2.buildBuyInstructions str find r

def payer : BuyRequest → Pubkey
  | pumpSwap params => params.payer
  | pumpFun r => r.payer
  | raydiumCpmm r => r.payer
  | meteoraDammV2 r => r.payer

def program : BuyRequest → SwapProgram
  | pumpSwap _ => PumpSwap.swapProgram
  | pumpFun _ => PumpFun.swapProgram
  | raydiumCpmm _ => RaydiumCpmm.swapProgram
  | meteoraDammV2 _ => MeteoraDammV2.swapProgram

/-- The input is wrapped SOL, and its account is asked for. -/
def WrapsInput : BuyRequest → Prop
  | pumpSwap params => params.WrapsInput
  | pumpFun r => r.WrapsInput
  | raydiumCpmm r => r.WrapsInput
  | meteoraDammV2 r => r.WrapsInput

instance : DecidablePred WrapsInput
  | pumpSwap params => inferInstanceAs (Decidable params.WrapsInput)
  | pumpFun r => inferInstanceAs (Decidable r.WrapsInput)
  | raydiumCpmm r => inferInstanceAs (Decidable r.WrapsInput)
  | meteoraDammV2 r => inferInstanceAs (Decidable r.WrapsInput)

variable {str : PubkeyText} {find : ProgramAddress} {choice : List Pubkey → Pubkey}
  {r : BuyRequest} {ixs : List Instruction}

theorem build_funds (h : r.build str find choice = .ok ixs) :
    ∃ n, Funds find r.payer r.program r.WrapsInput n ixs := by
  cases r with
  | pumpSwap params => exact PumpSwap.buildBuyInstructions_funds h
  | pumpFun r => exact PumpFun.buildBuyV2Instructions_funds h
  | raydiumCpmm r => exact RaydiumCpmm.buildBuyInstructions_funds h
  | meteoraDammV2 r => exact MeteoraDammV2.buildBuyInstructions_funds h

/-- A purchase that is built holds one swap, which may take at most some number of lamports.
Exactly these are sent to the wrapped SOL account of the wallet if the input is wrapped SOL and
its account is asked for, and none otherwise. -/
theorem build_wraps_authorised (h : r.build str find choice = .ok ixs) :
    ∃ n, ixs.filterMap r.program.authorises = [n] ∧
      ixs.filterMap (wraps find r.payer) = if r.WrapsInput then [n] else [] := by
  obtain ⟨n, hfunds⟩ := build_funds h
  exact ⟨n, hfunds.authorised, hfunds.wrapped⟩

/-- An address for each program, whatever the seeds. -/
def sampleAddress : ProgramAddress := fun _ program => (program, 255)

/-- Up to a maximum of wrapped SOL, for the base of a PumpSwap pool. -/
def samplePurchase : BuyRequest := pumpSwap {
  payer := .ofNat 5
  inputAmount := 100000
  slippageBasisPoints := 500
  useExactQuoteAmount := false
  protocolParams := {
    pool := .ofNat 1
    baseMint := .ofNat 2
    quoteMint := wsolTokenAccount
    poolBaseTokenAccount := .ofNat 3
    poolQuoteTokenAccount := .ofNat 4
    poolBaseTokenReserves := 10000000
    poolQuoteTokenReserves := 5000000
    virtualQuoteReserves := 0
    coinCreatorVaultAta :=
      PumpSwap.coinCreatorVaultAta sampleAddress (.ofNat 8) wsolTokenAccount tokenProgram
    coinCreatorVaultAuthority := PumpSwap.coinCreatorVaultAuthority sampleAddress (.ofNat 8)
    coinCreator := some (.ofNat 8)
    baseTokenProgram := tokenProgram
    quoteTokenProgram := tokenProgram } }

theorem build_wraps_authorised_sample :
    ∃ ixs n, samplePurchase.build base58Text sampleAddress (·.headD .default) = .ok ixs ∧
      ixs.filterMap samplePurchase.program.authorises = [n] ∧
      ixs.filterMap (wraps sampleAddress samplePurchase.payer) = [n] := by
  obtain ⟨ixs, hbuild⟩ : ∃ ixs, samplePurchase.build base58Text sampleAddress (·.headD .default) = .ok ixs :=
    exists_of_isOk (by decide +kernel)
  obtain ⟨n, hauthorised, hwrapped⟩ := build_wraps_authorised hbuild
  rw [if_pos (by decide +kernel)] at hwrapped
  exact ⟨ixs, n, hbuild, hauthorised, hwrapped⟩

end BuyRequest

end SolTrade.Builder
