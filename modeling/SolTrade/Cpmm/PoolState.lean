import SolTrade.AccountReader
import SolTrade.Subscription.Snapshot

/-!
The decoders of a Raydium CPMM pool, of its configuration and of a creator's fee share.

One decoder reads the pool from front to back after the discriminator, the other one takes
the fields of a fee collection at fixed offsets of the full account.
-/

namespace SolTrade.Cpmm

open Library Wire AccountReader
open PumpSwap (byteAt keyAt unsignedAt)
open Subscription (SnapshotError)

def poolDiscriminator : List UInt8 := [247, 237, 227, 245, 215, 195, 222, 70]
def configDiscriminator : List UInt8 := [218, 244, 33, 104, 203, 203, 43, 111]
def shareDiscriminator : List UInt8 := [30, 235, 98, 252, 26, 197, 66, 86]

/-! ### From front to back -/

structure RaydiumCpmmPoolState where
  ammConfig : Pubkey
  poolCreator : Pubkey
  token0Vault : Pubkey
  token1Vault : Pubkey
  lpMint : Pubkey
  token0Mint : Pubkey
  token1Mint : Pubkey
  token0Program : Pubkey
  token1Program : Pubkey
  observationKey : Pubkey
  authBump : ℕ
  status : ℕ
  lpMintDecimals : ℕ
  mint0Decimals : ℕ
  mint1Decimals : ℕ
  lpSupply : ℕ
  protocolFeesToken0 : ℕ
  protocolFeesToken1 : ℕ
  fundFeesToken0 : ℕ
  fundFeesToken1 : ℕ
  openTime : ℕ
  recentEpoch : ℕ
  deriving DecidableEq

def readPoolState : Parser RaydiumCpmmPoolState := do
  let ammConfig ← pubkey
  let poolCreator ← pubkey
  let token0Vault ← pubkey
  let token1Vault ← pubkey
  let lpMint ← pubkey
  let token0Mint ← pubkey
  let token1Mint ← pubkey
  let token0Program ← pubkey
  let token1Program ← pubkey
  let observationKey ← pubkey
  let authBump ← unsignedInt 1
  let status ← unsignedInt 1
  let lpMintDecimals ← unsignedInt 1
  let mint0Decimals ← unsignedInt 1
  let mint1Decimals ← unsignedInt 1
  let lpSupply ← unsignedInt 8
  let protocolFeesToken0 ← unsignedInt 8
  let protocolFeesToken1 ← unsignedInt 8
  let fundFeesToken0 ← unsignedInt 8
  let fundFeesToken1 ← unsignedInt 8
  let openTime ← unsignedInt 8
  let recentEpoch ← unsignedInt 8
  return {
    ammConfig, poolCreator, token0Vault, token1Vault, lpMint, token0Mint, token1Mint,
    token0Program, token1Program, observationKey, authBump, status, lpMintDecimals,
    mint0Decimals, mint1Decimals, lpSupply, protocolFeesToken0, protocolFeesToken1,
    fundFeesToken0, fundFeesToken1, openTime, recentEpoch }

/-- The pool after its discriminator. -/
def decodeRaydiumCpmmPoolState (data : List UInt8) : Option RaydiumCpmmPoolState :=
  if data.length < 629 then none else (readPoolState.run data).map (·.1)

/-- The fields stand where the reader has come to. -/
theorem decodeRaydiumCpmmPoolState_eq_some {data : List UInt8} {state : RaydiumCpmmPoolState}
    (h : decodeRaydiumCpmmPoolState data = some state) :
    629 ≤ data.length ∧ state = {
      ammConfig := keyAt data 0
      poolCreator := keyAt data 32
      token0Vault := keyAt data 64
      token1Vault := keyAt data 96
      lpMint := keyAt data 128
      token0Mint := keyAt data 160
      token1Mint := keyAt data 192
      token0Program := keyAt data 224
      token1Program := keyAt data 256
      observationKey := keyAt data 288
      authBump := unsignedAt data 320 1
      status := unsignedAt data 321 1
      lpMintDecimals := unsignedAt data 322 1
      mint0Decimals := unsignedAt data 323 1
      mint1Decimals := unsignedAt data 324 1
      lpSupply := unsignedAt data 325 8
      protocolFeesToken0 := unsignedAt data 333 8
      protocolFeesToken1 := unsignedAt data 341 8
      fundFeesToken0 := unsignedAt data 349 8
      fundFeesToken1 := unsignedAt data 357 8
      openTime := unsignedAt data 365 8
      recentEpoch := unsignedAt data 373 8 } := by
  unfold decodeRaydiumCpmmPoolState at h
  split at h
  · contradiction
  · rename_i hshort
    have hsize : 629 ≤ data.length := not_lt.1 hshort
    have hread : (readPoolState.run (data.drop 0)).map (·.1) = some state := h
    unfold readPoolState at hread
    iterate 10 rw [bind_pubkey (by omega)] at hread
    iterate 12 rw [bind_unsignedInt (by omega)] at hread
    exact ⟨hsize, (Option.some_inj.1 hread).symm⟩

/-! ### At fixed offsets -/

/-- What collecting creator fees raises. -/
inductive CollectionError where
  | snapshot (e : SnapshotError)
  | invalidAccount
  | outsideU64
  | shareRateTooHigh
  | invalidConfigBool
  | invalidPoolBool
  | shareMismatch
  | unsupportedTokenProgram
  | invalidMintPair
  | noAccruedFees
  | contextMovedBackwards
  | precedesObservations
  | accountsChanged
  | preparationChanged
  deriving DecidableEq

def CollectionError.text (str : PubkeyText) : CollectionError → String
  | snapshot e => e.text str
  | invalidAccount => "Invalid CPMM account layout/discriminator"
  | outsideU64 => "Value outside u64"
  | shareRateTooHigh => "Creator fee share rate exceeds 1,000,000"
  | invalidConfigBool => "Invalid config bool"
  | invalidPoolBool => "Invalid pool bool"
  | shareMismatch => "CreatorFeeShare creator/config mismatch"
  | unsupportedTokenProgram => "Unsupported CPMM token program"
  | invalidMintPair => "Invalid mint pair"
  | noAccruedFees => "No accrued CPMM creator fees"
  | contextMovedBackwards => "Collection read context moved backwards"
  | precedesObservations => "Prepared snapshot precedes observations"
  | accountsChanged => "Creator-fee preparation changed; reprepare"
  | preparationChanged => "CPMM creator-fee preparation changed; reprepare"

section Decoders

variable (data : List UInt8)

/-- An account is long enough and has the discriminator of its kind. -/
def checkAccount (size : ℕ) (discriminator : List UInt8) : Except CollectionError Unit :=
  require (¬ (data.length < size ∨ data.take 8 ≠ discriminator)) .invalidAccount

structure CpmmAmmConfig where
  bump : ℕ
  disableCreatePool : Bool
  index : ℕ
  tradeFeeRate : ℕ
  protocolFeeRate : ℕ
  fundFeeRate : ℕ
  createPoolFee : ℕ
  protocolOwner : Pubkey
  fundOwner : Pubkey
  creatorFeeRate : ℕ
  creatorFeeShareRate : ℕ
  padding : List ℕ
  deriving DecidableEq

def decodeCpmmAmmConfig : Except CollectionError CpmmAmmConfig := do
  checkAccount data 236 configDiscriminator
  require (¬ 1 < byteAt data 9) .invalidConfigBool
  return {
    bump := byteAt data 8
    disableCreatePool := byteAt data 9 ≠ 0
    index := unsignedAt data 10 2
    tradeFeeRate := unsignedAt data 12 8
    protocolFeeRate := unsignedAt data 20 8
    fundFeeRate := unsignedAt data 28 8
    createPoolFee := unsignedAt data 36 8
    protocolOwner := keyAt data 44
    fundOwner := keyAt data 76
    creatorFeeRate := unsignedAt data 108 8
    creatorFeeShareRate := unsignedAt data 116 8
    padding := (List.range 14).map fun i => unsignedAt data (124 + i * 8) 8 }

structure CpmmCreatorFeeShare where
  bump : ℕ
  creator : Pubkey
  ammConfig : Pubkey
  shareRate : ℕ
  padding : List ℕ
  deriving DecidableEq

def decodeCpmmCreatorFeeShare : Except CollectionError CpmmCreatorFeeShare := do
  checkAccount data 145 shareDiscriminator
  return {
    bump := byteAt data 8
    creator := keyAt data 9
    ammConfig := keyAt data 41
    shareRate := unsignedAt data 73 8
    padding := (List.range 8).map fun i => unsignedAt data (81 + i * 8) 8 }

structure CpmmCollectionPool where
  ammConfig : Pubkey
  poolCreator : Pubkey
  token0Vault : Pubkey
  token1Vault : Pubkey
  token0Mint : Pubkey
  token1Mint : Pubkey
  token0Program : Pubkey
  token1Program : Pubkey
  creatorFeesToken0 : ℕ
  creatorFeesToken1 : ℕ
  protocolFeesToken0 : ℕ
  protocolFeesToken1 : ℕ
  deriving DecidableEq

def decodeCpmmCollectionPool : Except CollectionError CpmmCollectionPool := do
  checkAccount data 637 poolDiscriminator
  require (¬ 1 < byteAt data 390) .invalidPoolBool
  let key (i : ℕ) := keyAt data (8 + i * 32)
  return ⟨key 0, key 1, key 2, key 3, key 5, key 6, key 7, key 8, unsignedAt data 397 8,
    unsignedAt data 405 8, unsignedAt data 341 8, unsignedAt data 349 8⟩

end Decoders

end SolTrade.Cpmm
