import SolTrade.Cpmm.PoolState
import SolTrade.Token.MintState

/-!
The cached view of a Raydium CPMM pool.

The reserves are the balances of the vaults less the fees that have accrued in them.
-/

namespace SolTrade.Cpmm

open Library
open PumpSwap (byteAt keyAt unsignedAt)
open Route (PoolTradeHint TokenTransferFee cpmmProgram)
open Subscription (SubscriptionSystem AccountCacheSnapshot CacheReadContext CachedAccount
  SnapshotError)
open Token (MintError tokenTransferFeeForEpoch)

def authority : Pubkey := .ofNat 0xeb00d9f5b292b4214ac7d037b4d6f06450b964600df373052bb5e84f2f8e9a67

example : base58Text authority = "GpMZbSM2GgvTKHJirzeGfMFoaZ8UR2X7F4v8vHTvxFbL" := by decide +kernel

/-! ### Errors -/

inductive CachedCpmmError where
  | value (e : ValueError)
  | snapshot (e : SnapshotError)
  | mint (e : MintError)
  | invalidPool
  | mintMismatch
  | notOpen
  | invalidConfig
  | invalidFees
  | invalidVault
  deriving DecidableEq

def CachedCpmmError.text (str : PubkeyText) : CachedCpmmError → String
  | value e => e.text
  | snapshot e => e.text str
  | mint e => e.text
  | invalidPool => "Invalid or disabled cached CPMM pool"
  | mintMismatch => "Route mint identity mismatch"
  | notOpen => "CPMM pool is not open"
  | invalidConfig => "Invalid cached CPMM config"
  | invalidFees => "Invalid CPMM fee configuration"
  | invalidVault => "Invalid cached CPMM vault"

/-! ### State -/

/-- The state: what a quote reads of it, and what an instruction needs besides. -/
structure CachedCpmm extends Route.CachedCpmmState where
  pool : Pubkey
  config : Pubkey
  quoteMint : Pubkey
  baseVault : Pubkey
  quoteVault : Pubkey
  baseTokenProgram : Pubkey
  quoteTokenProgram : Pubkey
  observation : Pubkey
  openTime : ℕ

section View

variable (sys : SubscriptionSystem) (snapshot : AccountCacheSnapshot) (context : CacheReadContext)

def readAccount (key : Pubkey) (owner : Option Pubkey) : Except CachedCpmmError CachedAccount :=
  (snapshot.get sys key context owner).mapError .snapshot

/-- The balance of a vault less the fees at three offsets of the pool. -/
def reserve (d : List UInt8) (vault mint program : Pubkey) (first second third : ℕ) :
    Except CachedCpmmError ℤ := do
  let v := (← readAccount sys snapshot context vault (some program)).data
  require (¬ (v.length < 165 ∨ v.take 32 ≠ mint.toList ∨ (v.drop 32).take 32 ≠ authority.toList ∨
    byteAt v 108 ≠ 1)) .invalidVault
  let fees : ℤ := unsignedAt d first 8 + unsignedAt d second 8 + unsignedAt d third 8
  (unsigned (unsignedAt v 64 8 - fees) u64).mapError .value

/-- The rates of the configuration: trade, protocol, fund and creator. -/
def feeRates (d config : List UInt8) : Except CachedCpmmError (ℕ × ℕ × ℕ × ℕ) := do
  require (¬ (config.length < 236 ∨ config.take 8 ≠ configDiscriminator)) .invalidConfig
  let trade := unsignedAt config 12 8
  let protocol := unsignedAt config 20 8
  let fund := unsignedAt config 28 8
  let creator := unsignedAt config 108 8
  require (¬ (1000000 ≤ trade + (if byteAt d 390 ≠ 0 then creator else 0) ∨
    1000000 < protocol + fund ∨ 2 < byteAt d 389)) .invalidFees
  return (trade, protocol, fund, creator)

def transferFee (mint : CachedAccount) : Except CachedCpmmError TokenTransferFee :=
  (tokenTransferFeeForEpoch mint.data mint.owner context.epoch).mapError .mint

/-- `AccountCacheSnapshot.cpmm`. -/
def cpmm (hint : PoolTradeHint) (unixTimestamp : ℤ) : Except CachedCpmmError CachedCpmm := do
  let _ ← (unsigned unixTimestamp u64).mapError .value
  let d := (← readAccount sys snapshot context hint.pool (some cpmmProgram)).data
  require (¬ (d.length < 637 ∨ d.take 8 ≠ poolDiscriminator ∨ byteAt d 329 &&& 4 ≠ 0 ∨
    byteAt d 390 ∉ [0, 1])) .invalidPool
  require (¬ (hint.mints ≠ {keyAt d 168, keyAt d 200} ∨ keyAt d 168 = keyAt d 200)) .mintMismatch
  let opened := unsignedAt d 373 8
  require (¬ unixTimestamp < opened) .notOpen
  let config := (← readAccount sys snapshot context (keyAt d 8) (some cpmmProgram)).data
  let (trade, protocol, fund, creator) ← feeRates d config
  let base ← readAccount sys snapshot context (keyAt d 168) (some (keyAt d 232))
  let quote ← readAccount sys snapshot context (keyAt d 200) (some (keyAt d 264))
  let baseReserve ← reserve sys snapshot context d (keyAt d 72) (keyAt d 168) (keyAt d 232)
    341 357 397
  let quoteReserve ← reserve sys snapshot context d (keyAt d 104) (keyAt d 200) (keyAt d 264)
    349 365 405
  let baseTransferFee ← transferFee context base
  let quoteTransferFee ← transferFee context quote
  return {
    baseMint := keyAt d 168
    baseReserve := baseReserve
    quoteReserve := quoteReserve
    tradeFeeRate := trade
    protocolFeeRate := protocol
    fundFeeRate := fund
    creatorFeeRate := creator
    creatorFeeOn := byteAt d 389
    enableCreatorFee := byteAt d 390 ≠ 0
    baseTransferFee := baseTransferFee
    quoteTransferFee := quoteTransferFee
    pool := hint.pool
    config := keyAt d 8
    quoteMint := keyAt d 200
    baseVault := keyAt d 72
    quoteVault := keyAt d 104
    baseTokenProgram := keyAt d 232
    quoteTokenProgram := keyAt d 264
    observation := keyAt d 296
    openTime := opened }

end View

end SolTrade.Cpmm
