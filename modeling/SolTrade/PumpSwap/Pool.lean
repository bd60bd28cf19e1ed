import SolTrade.Library.Wire
import SolTrade.Pubkey

/-!
PumpSwap pool accounts.
-/

namespace SolTrade.PumpSwap

open Library Wire

def poolSize : ℕ := 253
def legacyPoolSize : ℕ := 244
def poolDiscriminator : List UInt8 := [241, 154, 109, 4, 17, 177, 109, 188]

structure PumpSwapPool where
  poolBump : ℕ
  index : ℕ
  creator : Pubkey
  baseMint : Pubkey
  quoteMint : Pubkey
  lpMint : Pubkey
  poolBaseTokenAccount : Pubkey
  poolQuoteTokenAccount : Pubkey
  lpSupply : ℕ
  coinCreator : Pubkey
  isMayhemMode : Bool
  isCashbackCoin : Bool
  creatorFeeBps : ℕ := 0
  canEditCreatorFee : Bool := false
  isHolderReward : Bool := false
  protocolFees : ℕ := 0
  creatorFees : ℕ := 0
  virtualQuoteReserves : ℤ := 0
  deriving DecidableEq

section Fields

variable (data : List UInt8) (offset : ℕ)

def byteAt : ℕ := (data.getD offset 0).toNat

def keyAt : Pubkey := Vector.ofFn fun i : Fin 32 => data.getD (offset + i) 0

/-- `int.from_bytes(data[offset:offset + width], "little")`. -/
def unsignedAt (width : ℕ) : ℕ := littleEndianValue ((data.drop offset).take width)

/-- The sixteen bytes at the offset, with a sign. -/
def signedAt : ℤ :=
  if unsignedAt data offset 16 < 2 ^ 127 then unsignedAt data offset 16
  else unsignedAt data offset 16 - 2 ^ 128

end Fields

/-- The pool after the discriminator. A shorter account lacks the fields at its end. -/
def decodePool (data : List UInt8) : Option PumpSwapPool :=
  if data.length < 263 ∧ data.length ∉ [legacyPoolSize, poolSize, 262] then none
  else if 1 < byteAt data 235 ∨ 1 < byteAt data 236 ∨ (262 ≤ data.length ∧ 1 < byteAt data 261) ∨
      (263 ≤ data.length ∧ 1 < byteAt data 262) then none
  else
    some {
      poolBump := byteAt data 0
      index := unsignedAt data 1 2
      creator := keyAt data 3
      baseMint := keyAt data 35
      quoteMint := keyAt data 67
      lpMint := keyAt data 99
      poolBaseTokenAccount := keyAt data 131
      poolQuoteTokenAccount := keyAt data 163
      lpSupply := unsignedAt data 195 8
      coinCreator := keyAt data 203
      isMayhemMode := byteAt data 235 = 1
      isCashbackCoin := byteAt data 236 = 1
      creatorFeeBps := if 261 ≤ data.length then unsignedAt data 253 8 else 0
      canEditCreatorFee := 262 ≤ data.length ∧ byteAt data 261 = 1
      isHolderReward := 263 ≤ data.length ∧ byteAt data 262 = 1
      protocolFees := if 271 ≤ data.length then unsignedAt data 263 8 else 0
      creatorFees := if 279 ≤ data.length then unsignedAt data 271 8 else 0
      virtualQuoteReserves := if poolSize ≤ data.length then signedAt data 237 else 0 }

/-- The pool of a complete account. -/
def decodePoolAccount (data : List UInt8) : Option PumpSwapPool :=
  if data.take 8 ≠ poolDiscriminator then none else decodePool (data.drop 8)

end SolTrade.PumpSwap
