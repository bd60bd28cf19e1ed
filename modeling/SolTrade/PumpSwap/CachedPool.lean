import SolTrade.PumpSwap.PoolParams
import SolTrade.Subscription.Snapshot

/-!
The state of a PumpSwap pool, read from cached accounts.

No node is asked, and an account that does not check out has no legacy rates to fall back
on.
-/

namespace SolTrade.PumpSwap

open Library
open Route (PumpSwapFeeBasisPoints RouteError PoolTradeHint TokenTransferFee
  effectiveQuoteReserves pumpSwapProgram)
open Token (MintError tokenTransferFeeForEpoch)
open Subscription (SubscriptionSystem AccountCacheSnapshot CacheReadContext CachedAccount
  SnapshotError)
open Wire (littleEndian)

def pumpSwapGlobalAccount : Pubkey :=
  .ofNat 0x890ba644fe1f55aa19f11cd2d2ec14d3233b6e0a4beaeef72b69858e21e170d6

example : base58Text pumpSwapGlobalAccount = "ADyA8hdefvWN2dbGGWFotbzWxrAvLW83WG6QCVXvJKqw" := by
  decide +kernel

def globalDiscriminator : List UInt8 := [149, 8, 156, 202, 160, 252, 176, 217]

/-! ### Errors -/

inductive CachedPoolError where
  | snapshot (e : SnapshotError)
  | mint (e : MintError)
  | route (e : RouteError)
  | invalidDiscriminator
  | invalidLayout
  | mintMismatch
  | pdaMismatch
  | vaultsCollide
  | invalidGlobalConfig
  | feeConfigBump
  | invalidFeeConfig
  | tiersNotOrdered
  | invalidVault
  | emptyReserves
  deriving DecidableEq

def CachedPoolError.text (str : PubkeyText) : CachedPoolError → String
  | snapshot e => e.text str
  | mint e => e.text
  | route e => e.text
  | invalidDiscriminator => "Invalid PumpSwap pool discriminator"
  | invalidLayout => "Invalid PumpSwap pool layout"
  | mintMismatch => "Route mint identity mismatch"
  | pdaMismatch => "PumpSwap pool PDA mismatch"
  | vaultsCollide => "PumpSwap vaults collide"
  | invalidGlobalConfig => "Invalid PumpSwap global config"
  | feeConfigBump => "PumpSwap fee config PDA bump mismatch"
  | invalidFeeConfig => "Invalid PumpSwap fee config"
  | tiersNotOrdered => "PumpSwap fee tiers are not strictly ordered"
  | invalidVault => "Invalid PumpSwap vault identity or state"
  | emptyReserves => "PumpSwap reserves are empty"

/-! ### State -/

/-- The state: what a quote reads of it, and what an instruction needs besides. -/
structure CachedPumpSwap extends Route.CachedPumpSwapState where
  poolAddress : Pubkey
  pool : PumpSwapPool
  baseMintSupply : ℤ
  baseTokenProgram : Pubkey
  quoteTokenProgram : Pubkey
  protocolFeeRecipients : List Pubkey
  reservedFeeRecipients : List Pubkey
  buybackFeeRecipients : List Pubkey
  mayhemEnabled : Bool
  cashbackEnabled : Bool

section Reads

variable (find : ProgramAddress)

def validatedFeeConfig (data : List UInt8) : Except CachedPoolError PumpSwapFeeConfig := do
  let (feeAddress, feeBump) := find [seed "fee_config", pumpSwapProgram.toList] feeProgram
  require (¬ (feeAddress ≠ feeConfigAddress ∨ data.length < 9 ∨ byteAt data 8 ≠ feeBump))
    .feeConfigBump
  match decodeFeeConfig data with
  | none => .error .invalidFeeConfig
  | some config => do
      require (∀ tiers ∈ [config.feeTiers, config.stableFeeTiers],
        ∀ pair ∈ tiers.zip tiers.tail,
          pair.1.marketCapLamportsThreshold < pair.2.marketCapLamportsThreshold) .tiersNotOrdered
      return config

/-- The pool has a creator fee of its own while the global configuration turns such fees on. -/
def creatorFeeOverride (pool : PumpSwapPool) (globalData : List UInt8) : Bool :=
  940 < globalData.length ∧ byteAt globalData 940 = 1 ∧ 0 < pool.creatorFeeBps

/-- The balance of a vault of the pool. -/
def vaultReserve (poolAddress mint : Pubkey) (data : List UInt8) : Except CachedPoolError ℤ := do
  require (¬ (data.length < 165 ∨ data.take 32 ≠ mint.toList ∨
    (data.drop 32).take 32 ≠ poolAddress.toList ∨ byteAt data 108 ≠ 1)) .invalidVault
  return unsignedAt data 64 8

variable (sys : SubscriptionSystem) (snapshot : AccountCacheSnapshot) (hint : PoolTradeHint)
  (context : CacheReadContext)

def readAccount (key : Pubkey) (owner : Option Pubkey) : Except CachedPoolError CachedAccount :=
  (snapshot.get sys key context owner).mapError .snapshot

/-- The pool of the hint, checked against its address. -/
def readPool : Except CachedPoolError PumpSwapPool := do
  let d := (← readAccount sys snapshot context hint.pool (some pumpSwapProgram)).data
  require (d.take 8 = poolDiscriminator) .invalidDiscriminator
  match decodePool (d.drop 8) with
  | none => .error .invalidLayout
  | some pool => do
      require (¬ (1 < byteAt d 243 ∨ 1 < byteAt d 244)) .invalidLayout
      require (¬ (hint.mints ≠ {pool.baseMint, pool.quoteMint} ∨ pool.baseMint = pool.quoteMint))
        .mintMismatch
      let (address, bump) := find [seed "pool", littleEndian 2 pool.index, pool.creator.toList,
        pool.baseMint.toList, pool.quoteMint.toList] pumpSwapProgram
      require (¬ (address ≠ hint.pool ∨ bump ≠ pool.poolBump)) .pdaMismatch
      require (pool.poolBaseTokenAccount ≠ pool.poolQuoteTokenAccount) .vaultsCollide
      return pool

def readGlobal : Except CachedPoolError (List UInt8) := do
  let globalData := (← readAccount sys snapshot context pumpSwapGlobalAccount
    (some pumpSwapProgram)).data
  require (¬ (globalData.length < 899 ∨ globalData.take 8 ≠ globalDiscriminator ∨
    1 < byteAt globalData 417 ∨ 1 < byteAt globalData 642)) .invalidGlobalConfig
  return globalData

/-- A mint of the pool, and the transfer fee it charges in the epoch. -/
def transferFee (mint : CachedAccount) : Except CachedPoolError TokenTransferFee :=
  (tokenTransferFeeForEpoch mint.data mint.owner context.epoch).mapError .mint

def readReserve (vault mint owner : Pubkey) : Except CachedPoolError ℤ := do
  let v := (← readAccount sys snapshot context vault (some owner)).data
  vaultReserve hint.pool mint v

/-- Public keys that follow each other. -/
def keysAt (data : List UInt8) (start n : ℕ) : List Pubkey :=
  (List.range n).map fun i => keyAt data (start + i * 32)

def cachedPumpswap : Except CachedPoolError CachedPumpSwap := do
  let pool ← readPool find sys snapshot hint context
  let globalData ← readGlobal sys snapshot context
  let feeData := (← readAccount sys snapshot context feeConfigAddress (some feeProgram)).data
  let config ← validatedFeeConfig find feeData
  let baseMint ← readAccount sys snapshot context pool.baseMint none
  let quoteMint ← readAccount sys snapshot context pool.quoteMint none
  let baseTransferFee ← transferFee context baseMint
  let quoteTransferFee ← transferFee context quoteMint
  let baseReserve ← readReserve sys snapshot hint context pool.poolBaseTokenAccount pool.baseMint
    baseMint.owner
  let quoteReserve ← readReserve sys snapshot hint context pool.poolQuoteTokenAccount
    pool.quoteMint quoteMint.owner
  require (baseReserve ≠ 0 ∧ quoteReserve ≠ 0) .emptyReserves
  let effectiveQuoteReserve ←
    (effectiveQuoteReserves quoteReserve pool.virtualQuoteReserves).mapError .route
  let supply : ℤ := unsignedAt baseMint.data 36 8
  let fee := computePumpswapFeeBasisPoints (pumpPoolAuthorityPda find) (some config) pool.creator
    pool.baseMint (some supply) baseReserve effectiveQuoteReserve pool.quoteMint
  let creatorFee : ℤ :=
    if creatorFeeOverride pool globalData then pool.creatorFeeBps
    else fee.coinCreatorFeeBasisPoints
  (snapshot.assertUsable sys).mapError .snapshot
  return {
    quoteMint := pool.quoteMint
    coinCreator := pool.coinCreator
    isCashbackCoin := pool.isCashbackCoin
    virtualQuoteReserves := pool.virtualQuoteReserves
    baseReserve := baseReserve
    quoteReserve := quoteReserve
    baseTransferFee := baseTransferFee
    quoteTransferFee := quoteTransferFee
    feeBasisPoints := { fee with coinCreatorFeeBasisPoints := creatorFee }
    disableFlags := byteAt globalData 56
    poolAddress := hint.pool
    pool := pool
    baseMintSupply := supply
    baseTokenProgram := baseMint.owner
    quoteTokenProgram := quoteMint.owner
    protocolFeeRecipients := keysAt globalData 57 8
    reservedFeeRecipients := keysAt globalData 385 1 ++ keysAt globalData 418 7
    buybackFeeRecipients := keysAt globalData 643 8
    mayhemEnabled := byteAt globalData 417 = 1
    cashbackEnabled := byteAt globalData 642 = 1 }

end Reads

end SolTrade.PumpSwap
