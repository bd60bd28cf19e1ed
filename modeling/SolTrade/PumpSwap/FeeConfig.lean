import SolTrade.Library.Schedule
import SolTrade.PumpSwap.Pool
import SolTrade.Route.ReserveQuotes

/-!
The fee schedule of PumpSwap, and the rates it selects for a pool.

A canonical pool pays by its market cap, on the tiers of its quote; any other pool pays
the flat rates.
-/

namespace SolTrade.PumpSwap

open Library
open Route (PumpSwapFeeBasisPoints wsolTokenAccount)

def native2022Mint : Pubkey :=
  .ofNat 0x830dfc9fde5fe6b8aa7c04a476e91e8ac6bb264aad90fa19c9df49d85c3e5b5e
def usdcTokenAccount : Pubkey :=
  .ofNat 0xc6fa7af3bedbad3a3d65f36aabc97431b1bbe4c2d2f6e0e47ca60203452f5d61

example : [native2022Mint, usdcTokenAccount].map base58Text =
    ["9pan9bMn5HatX4EJdBwg9VgCa7Uz5HL8N1m5D3NdXejP",
      "EPjFWdd5AufqSSqeM2qN1xzybapC8G4wEGGkZwyTDt1v"] := by
  decide +kernel

structure PumpSwapFeeTier where
  marketCapLamportsThreshold : ℤ
  fees : PumpSwapFeeBasisPoints
  deriving DecidableEq

structure PumpSwapFeeConfig where
  flatFees : PumpSwapFeeBasisPoints
  feeTiers : List PumpSwapFeeTier
  stableFeeTiers : List PumpSwapFeeTier
  exoticFlatFees : Option PumpSwapFeeBasisPoints := none
  deriving DecidableEq

def legacyFeeBasisPoints (hasCoinCreator : Bool) : PumpSwapFeeBasisPoints :=
  ⟨25, 5, if hasCoinCreator then 5 else 0⟩

/-! ### Decoding -/

def feeConfigDiscriminator : List UInt8 := [143, 52, 146, 187, 219, 123, 76, 155]

section Decode

variable (data : List UInt8)

def decodeMintSupply : Option ℕ := if data.length < 44 then none else some (unsignedAt data 36 8)

def decodeFees (offset : ℕ) : Option PumpSwapFeeBasisPoints :=
  if data.length < offset + 24 then none
  else some ⟨unsignedAt data offset 8, unsignedAt data (offset + 8) 8,
    unsignedAt data (offset + 16) 8⟩

/-- The loop over the tiers. -/
def decodeTiers : ℕ → ℕ → List PumpSwapFeeTier → Option (List PumpSwapFeeTier × ℕ)
  | 0, offset, tiers => some (tiers, offset)
  | left + 1, offset, tiers =>
      match decodeFees data (offset + 16) with
      | none => none
      | some fees => decodeTiers left (offset + 40) (tiers ++ [⟨unsignedAt data offset 16, fees⟩])

/-- The tiers at the offset, and the offset after them. -/
def decodeFeeTiers (offset : ℕ) : Option (List PumpSwapFeeTier × ℕ) :=
  if data.length < offset + 4 then none
  else
    let length := unsignedAt data offset 4
    if data.length < offset + 4 + length * 40 then none
    else decodeTiers data length (offset + 4) []

/-- The tiers of stable quotes have to be there; the rates of other quotes may be absent. -/
def decodeFeeConfig : Option PumpSwapFeeConfig :=
  if data.take 8 ≠ feeConfigDiscriminator then none
  else do
    let flat ← decodeFees data 41
    let (tiers, offset) ← decodeFeeTiers data 65
    let (stable, offset) ← decodeFeeTiers data offset
    let exotic ← if offset < data.length then decodeFees data offset else some ⟨0, 0, 0⟩
    return ⟨flat, tiers, stable, some exotic⟩

end Decode

/-! ### Selecting -/

def isNativeQuote (quote : Pubkey) : Bool :=
  quote ∈ [Pubkey.default, wsolTokenAccount, native2022Mint]

/-- The market cap of a pool with a base reserve. -/
def poolMarketCapLamports (baseMintSupply baseReserve quoteReserve : ℤ) : Option ℤ :=
  if baseReserve = 0 then none else some (quoteReserve * baseMintSupply / baseReserve)

def calculateFeeTier (feeTiers : List PumpSwapFeeTier) (marketCap : ℤ) :
    Option PumpSwapFeeBasisPoints :=
  match feeTiers with
  | [] => none
  | first :: rest =>
      if marketCap < first.marketCapLamportsThreshold then some first.fees
      else
        match (first :: rest).reverse.find? fun tier =>
            tier.marketCapLamportsThreshold ≤ marketCap with
        | some tier => some tier.fees
        | none => some first.fees

/-- The rates of quotes that are neither native nor stable. -/
def exoticOrFlatFees (config : PumpSwapFeeConfig) : PumpSwapFeeBasisPoints :=
  match config.exoticFlatFees with
  | none => config.flatFees
  | some exotic => if exotic ≠ ⟨0, 0, 0⟩ then exotic else config.flatFees

/-- The rates of a pool. `poolAuthority` derives the creator of the canonical pool from the
base mint. -/
def computePumpswapFeeBasisPoints (poolAuthority : Pubkey → Pubkey)
    (feeConfig : Option PumpSwapFeeConfig) (poolCreator baseMint : Pubkey)
    (baseMintSupply : Option ℤ) (baseReserve quoteReserve : ℤ)
    (quoteMint : Pubkey := wsolTokenAccount) : PumpSwapFeeBasisPoints :=
  match feeConfig with
  | none => legacyFeeBasisPoints true
  | some config =>
      if poolAuthority baseMint ≠ poolCreator then config.flatFees
      else
        match baseMintSupply with
        | none => legacyFeeBasisPoints true
        | some supply =>
            match poolMarketCapLamports supply baseReserve quoteReserve with
            | none => legacyFeeBasisPoints true
            | some marketCap =>
                let native := isNativeQuote quoteMint
                if native = false ∧ quoteMint ≠ usdcTokenAccount then exoticOrFlatFees config
                else
                  let tiers :=
                    if native = false ∧ config.stableFeeTiers ≠ [] then config.stableFeeTiers
                    else config.feeTiers
                  (calculateFeeTier tiers marketCap).getD config.flatFees

/-! ### The tier in force -/

section InForce

variable {tiers : List PumpSwapFeeTier} {marketCap : ℤ} {first : PumpSwapFeeTier}

def InForce (tiers : List PumpSwapFeeTier) (marketCap : ℤ) (tier : PumpSwapFeeTier) : Prop :=
  Schedule.InForce (·.marketCapLamportsThreshold) marketCap tiers tier

def Ordered (tiers : List PumpSwapFeeTier) : Prop :=
  Schedule.Ascending (·.marketCapLamportsThreshold) tiers

theorem calculateFeeTier_cons (h : Ordered (first :: tiers)) :
    calculateFeeTier (first :: tiers) marketCap = some ((Schedule.lastUpTo
      (·.marketCapLamportsThreshold) marketCap (first :: tiers)).getD first).fees := by
  rw [calculateFeeTier]
  split
  · rename_i hbelow
    -- below the first threshold no tier has been reached
    have hnone : Schedule.lastUpTo (·.marketCapLamportsThreshold) marketCap (first :: tiers) =
        none := by
      refine Schedule.lastUpTo_eq_none.2 fun b hb => ?_
      rcases List.mem_cons.1 hb with rfl | hmem
      · exact hbelow
      · exact hbelow.trans ((List.pairwise_cons.1 h).1 b hmem)
    rw [hnone]
    rfl
  · change (match Schedule.lastUpTo (·.marketCapLamportsThreshold) marketCap (first :: tiers) with
      | some tier => some tier.fees
      | none => some first.fees) = _
    cases Schedule.lastUpTo (·.marketCapLamportsThreshold) marketCap (first :: tiers) <;> rfl

/-- Ordered tiers charge the rates of the tier in force. -/
theorem calculateFeeTier_eq_some (h : Ordered tiers) (hne : tiers ≠ []) :
    ∃ tier, InForce tiers marketCap tier ∧ calculateFeeTier tiers marketCap = some tier.fees := by
  cases tiers with
  | nil => exact absurd rfl hne
  | cons first tiers =>
      exact ⟨_, Schedule.inForce_getD, calculateFeeTier_cons h⟩

end InForce

end SolTrade.PumpSwap
