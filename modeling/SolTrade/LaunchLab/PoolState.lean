import SolTrade.AccountReader
import SolTrade.ProgramAddress
import SolTrade.Route.ReserveQuotes

/-!
The decoders of a LaunchLab pool.

One reads the pool from front to back after the discriminator, the other one takes the
curve at fixed offsets of the full account, beside the configurations it names.
-/

namespace SolTrade.LaunchLab

open Library Wire AccountReader
open PumpSwap (byteAt keyAt unsignedAt)
open Route (LaunchLabQuoteState TokenTransferFee launchLabProgram)

def poolDiscriminator : List UInt8 := [0xf7, 0xed, 0xe3, 0xf5, 0xd7, 0xc3, 0xde, 0x46]
def globalDiscriminator : List UInt8 := [0x95, 0x08, 0x9c, 0xca, 0xa0, 0xfc, 0xb0, 0xd9]
def platformDiscriminator : List UInt8 := [0xa0, 0x4e, 0x80, 0x00, 0xf8, 0x53, 0xe6, 0xa0]

/-! ### From front to back -/

structure BonkVestingSchedule where
  totalLockedAmount : ℕ
  cliffPeriod : ℕ
  unlockPeriod : ℕ
  startTime : ℕ
  allocatedShareAmount : ℕ
  deriving DecidableEq

structure BonkPoolState where
  epoch : ℕ
  authBump : ℕ
  status : ℕ
  baseDecimals : ℕ
  quoteDecimals : ℕ
  migrateType : ℕ
  supply : ℕ
  totalBaseSell : ℕ
  virtualBase : ℕ
  virtualQuote : ℕ
  realBase : ℕ
  realQuote : ℕ
  totalQuoteFundRaising : ℕ
  quoteProtocolFee : ℕ
  platformFee : ℕ
  migrateFee : ℕ
  vestingSchedule : BonkVestingSchedule
  globalConfig : Pubkey
  platformConfig : Pubkey
  baseMint : Pubkey
  quoteMint : Pubkey
  baseVault : Pubkey
  quoteVault : Pubkey
  creator : Pubkey
  deriving DecidableEq

def readBonkPoolState : Parser BonkPoolState := do
  let epoch ← unsignedInt 8
  let authBump ← unsignedInt 1
  let status ← unsignedInt 1
  let baseDecimals ← unsignedInt 1
  let quoteDecimals ← unsignedInt 1
  let migrateType ← unsignedInt 1
  let supply ← unsignedInt 8
  let totalBaseSell ← unsignedInt 8
  let virtualBase ← unsignedInt 8
  let virtualQuote ← unsignedInt 8
  let realBase ← unsignedInt 8
  let realQuote ← unsignedInt 8
  let totalQuoteFundRaising ← unsignedInt 8
  let quoteProtocolFee ← unsignedInt 8
  let platformFee ← unsignedInt 8
  let migrateFee ← unsignedInt 8
  let totalLockedAmount ← unsignedInt 8
  let cliffPeriod ← unsignedInt 8
  let unlockPeriod ← unsignedInt 8
  let startTime ← unsignedInt 8
  let allocatedShareAmount ← unsignedInt 8
  let globalConfig ← pubkey
  let platformConfig ← pubkey
  let baseMint ← pubkey
  let quoteMint ← pubkey
  let baseVault ← pubkey
  let quoteVault ← pubkey
  let creator ← pubkey
  return {
    epoch, authBump, status, baseDecimals, quoteDecimals, migrateType, supply, totalBaseSell,
    virtualBase, virtualQuote, realBase, realQuote, totalQuoteFundRaising, quoteProtocolFee,
    platformFee, migrateFee,
    vestingSchedule :=
      { totalLockedAmount, cliffPeriod, unlockPeriod, startTime, allocatedShareAmount },
    globalConfig, platformConfig, baseMint, quoteMint, baseVault, quoteVault, creator }

/-- The pool after its discriminator. -/
def decodeBonkPoolState (data : List UInt8) : Option BonkPoolState :=
  if data.length < 421 then none else (readBonkPoolState.run data).map (·.1)

/-- The fields stand where the reader has come to. -/
theorem decodeBonkPoolState_eq_some {data : List UInt8} {state : BonkPoolState}
    (h : decodeBonkPoolState data = some state) :
    421 ≤ data.length ∧ state = {
      epoch := unsignedAt data 0 8
      authBump := unsignedAt data 8 1
      status := unsignedAt data 9 1
      baseDecimals := unsignedAt data 10 1
      quoteDecimals := unsignedAt data 11 1
      migrateType := unsignedAt data 12 1
      supply := unsignedAt data 13 8
      totalBaseSell := unsignedAt data 21 8
      virtualBase := unsignedAt data 29 8
      virtualQuote := unsignedAt data 37 8
      realBase := unsignedAt data 45 8
      realQuote := unsignedAt data 53 8
      totalQuoteFundRaising := unsignedAt data 61 8
      quoteProtocolFee := unsignedAt data 69 8
      platformFee := unsignedAt data 77 8
      migrateFee := unsignedAt data 85 8
      vestingSchedule := {
        totalLockedAmount := unsignedAt data 93 8
        cliffPeriod := unsignedAt data 101 8
        unlockPeriod := unsignedAt data 109 8
        startTime := unsignedAt data 117 8
        allocatedShareAmount := unsignedAt data 125 8 }
      globalConfig := keyAt data 133
      platformConfig := keyAt data 165
      baseMint := keyAt data 197
      quoteMint := keyAt data 229
      baseVault := keyAt data 261
      quoteVault := keyAt data 293
      creator := keyAt data 325 } := by
  unfold decodeBonkPoolState at h
  split at h
  · contradiction
  · rename_i hshort
    have hsize : 421 ≤ data.length := not_lt.1 hshort
    have hread : (readBonkPoolState.run (data.drop 0)).map (·.1) = some state := h
    unfold readBonkPoolState at hread
    iterate 21 rw [bind_unsignedInt (by omega)] at hread
    iterate 7 rw [bind_pubkey (by omega)] at hread
    exact ⟨hsize, (Option.some_inj.1 hread).symm⟩

/-! ### At fixed offsets -/

inductive CurveError where
  | unexpectedOwner
  | invalidBytes
  | configMismatch
  | notTrading
  deriving DecidableEq

def CurveError.text : CurveError → String
  | unexpectedOwner => "Unexpected LaunchLab account owner"
  | invalidBytes => "Invalid LaunchLab state bytes"
  | configMismatch => "LaunchLab config identity mismatch"
  | notTrading => "LaunchLab curve is not trading"

structure LaunchLabAccountBytes where
  pubkey : Pubkey
  owner : Pubkey
  data : List UInt8

structure StonkFunCurveAccounts where
  pool : Pubkey
  baseMint : Pubkey
  quoteMint : Pubkey
  baseVault : Pubkey
  quoteVault : Pubkey
  globalConfig : Pubkey
  platformConfig : Pubkey
  baseTokenProgram : Pubkey
  quoteTokenProgram : Pubkey
  platformAssociatedAccount : Pubkey
  creatorAssociatedAccount : Pubkey
  deriving DecidableEq

def decodeLaunchlabCurve (find : ProgramAddress)
    (pool globalConfig platform : LaunchLabAccountBytes)
    (baseTokenProgram quoteTokenProgram : Pubkey)
    (baseTransferFee quoteTransferFee : TokenTransferFee) :
    Except CurveError (StonkFunCurveAccounts × LaunchLabQuoteState) := do
  require (∀ a ∈ [pool, globalConfig, platform], a.owner = launchLabProgram) .unexpectedOwner
  let d := pool.data
  let g := globalConfig.data
  let p := platform.data
  require (¬ (d.length < 429 ∨ d.take 8 ≠ poolDiscriminator ∨ g.length < 35 ∨
    g.take 8 ≠ globalDiscriminator ∨ p.length < 728 ∨ p.take 8 ≠ platformDiscriminator))
    .invalidBytes
  require (¬ (keyAt d 141 ≠ globalConfig.pubkey ∨ keyAt d 173 ≠ platform.pubkey)) .configMismatch
  require (byteAt d 17 = 0) .notTrading
  let quote := keyAt d 237
  let creator := keyAt d 333
  let associated (key : Pubkey) := (find [key.toList, quote.toList] launchLabProgram).1
  return (
    { pool := pool.pubkey
      baseMint := keyAt d 205
      quoteMint := quote
      baseVault := keyAt d 269
      quoteVault := keyAt d 301
      globalConfig := globalConfig.pubkey
      platformConfig := platform.pubkey
      baseTokenProgram := baseTokenProgram
      quoteTokenProgram := quoteTokenProgram
      platformAssociatedAccount := associated platform.pubkey
      creatorAssociatedAccount := associated creator },
    { virtualBase := unsignedAt d 37 8
      virtualQuote := unsignedAt d 45 8
      realBase := unsignedAt d 53 8
      realQuote := unsignedAt d 61 8
      totalBaseSell := unsignedAt d 29 8
      curveType := byteAt g 16
      tradeFeeRate := unsignedAt g 27 8
      platformFeeRate := unsignedAt p 104 8
      creatorFeeRate := unsignedAt p 720 8
      baseTransferFee := baseTransferFee
      quoteTransferFee := quoteTransferFee })

end SolTrade.LaunchLab
