import SolTrade.Cpmm.CachedPool
import SolTrade.ProgramAddress

/-!
Collecting the creator's fees of a CPMM pool.

A collection is prepared from a snapshot and validated against a later one before it is
sent. It carries the versions of the three accounts that it was prepared from.
-/

namespace SolTrade.Cpmm

open Library
open Route (cpmmProgram systemProgram tokenProgram associatedTokenProgram)
open Token (token2022Program)
open Subscription (SubscriptionSystem AccountCacheSnapshot CacheReadContext CachedAccount)

/-! ### Rates -/

def u64Value (n : ℤ) : Except CollectionError Unit :=
  require (0 ≤ n ∧ n ≤ u64) .outsideU64

def rateValue (n : ℤ) : Except CollectionError Unit := do
  u64Value n
  require (n ≤ 1000000) .shareRateTooHigh

def getCreatorFeeSharePda (find : ProgramAddress) (creator config : Pubkey) : Pubkey :=
  (find [seed "creator_fee_share", creator.toList, config.toList] cpmmProgram).1

/-- The account of a share, as a node or a cache gives it. -/
structure FeeShareAccount where
  owner : Pubkey
  data : List UInt8
  lamports : ℤ

/-- The rate of an account that is open and belongs to the program, or else the one of the
configuration. -/
def shareRate (config : CpmmAmmConfig) (creator address : Pubkey) :
    Option FeeShareAccount → Except CollectionError ℤ
  | none => .ok config.creatorFeeShareRate
  | some share =>
      if share.lamports ≠ 0 ∧ share.owner = cpmmProgram ∧ share.data ≠ [] then do
        let s ← decodeCpmmCreatorFeeShare share.data
        require (¬ (s.creator ≠ creator ∨ s.ammConfig ≠ address)) .shareMismatch
        return s.shareRate
      else .ok config.creatorFeeShareRate

def resolveCreatorFeeShareRate (config : CpmmAmmConfig) (creator address : Pubkey)
    (share : Option FeeShareAccount) : Except CollectionError ℤ := do
  let n ← shareRate config creator address share
  rateValue n
  return n

/-- The payout and the share of the protocol. -/
def splitCreatorFee (gross rate : ℤ) : Except CollectionError (ℤ × ℤ) := do
  u64Value gross
  rateValue rate
  let protocol := gross * rate / 1000000
  return (gross - protocol, protocol)

/-! ### The instruction -/

def build (find : ProgramAddress) (address : Pubkey) (pool : CpmmCollectionPool)
    (payer : Option Pubkey) : Instruction :=
  let c := pool.poolCreator
  let readonly (key : Pubkey) : AccountMeta := ⟨key, false, false⟩
  let writable (key : Pubkey) : AccountMeta := ⟨key, false, true⟩
  let signer (key : Pubkey) : AccountMeta := ⟨key, true, true⟩
  let head := match payer with
    | some payer => [signer payer, readonly c, readonly authority, writable address]
    | none => [signer c, readonly authority, writable address, readonly pool.ammConfig]
  let shared := [writable pool.token0Vault, writable pool.token1Vault, readonly pool.token0Mint,
    readonly pool.token1Mint,
    writable (associatedTokenAddress find c pool.token0Mint pool.token0Program),
    writable (associatedTokenAddress find c pool.token1Mint pool.token1Program),
    readonly pool.token0Program, readonly pool.token1Program, readonly associatedTokenProgram,
    readonly systemProgram]
  let config := match payer with
    | some _ => [readonly pool.ammConfig]
    | none => []
  let discriminator : List UInt8 := match payer with
    | some _ => [202, 202, 34, 83, 226, 122, 145, 229]
    | none => [20, 22, 86, 123, 198, 28, 219, 132]
  { programId := cpmmProgram
    data := discriminator
    accounts := head ++ shared ++ config ++
      [readonly (getCreatorFeeSharePda find c pool.ammConfig)] }

/-- A collection names the one who pays for it. -/
theorem build_payer_inj {find : ProgramAddress} {address address' : Pubkey}
    {pool pool' : CpmmCollectionPool} {payer payer' : Option Pubkey}
    (h : build find address pool payer = build find address' pool' payer') : payer = payer' := by
  have hdata := congrArg Instruction.data h
  have haccounts := congrArg (fun i => i.accounts.head?) h
  cases payer with
  | none =>
      cases payer' with
      | none => rfl
      | some p' => simp [build] at hdata
  | some p =>
      cases payer' with
      | none => simp [build] at hdata
      | some p' => simpa [build] using haccounts

/-! ### Preparing -/

/-- An account's key, and the slot and the write version it was observed at. -/
abbrev AccountVersion := Pubkey × ℤ × ℤ

structure CreatorFeeCollection where
  pool : Pubkey
  creator : Pubkey
  ammConfig : Pubkey
  accountVersions : List AccountVersion
  instruction : Instruction
  snapshotSlot : ℤ
  creatorFeeShare : Pubkey
  shareRate : ℤ
  creatorPayoutToken0 : ℤ
  creatorPayoutToken1 : ℤ
  protocolShareToken0 : ℤ
  protocolShareToken1 : ℤ
  deriving DecidableEq

section Fence

variable (find : ProgramAddress) (sys : SubscriptionSystem) (snapshot : AccountCacheSnapshot)
  (context : CacheReadContext)

def getAccount (key : Pubkey) : Except CollectionError CachedAccount :=
  (snapshot.get sys key context (some cpmmProgram)).mapError .snapshot

def getObservation (key : Pubkey) : Except CollectionError CachedAccount :=
  (snapshot.getObservation sys key context).mapError .snapshot

/-- What the snapshot says of the version of a key. -/
def versionOf (key : Pubkey) : Except CollectionError AccountVersion := do
  let slot := (← getObservation sys snapshot context key).slot
  let writeVersion := (← getObservation sys snapshot context key).writeVersion
  return (key, slot, writeVersion)

def checkPool (pool : CpmmCollectionPool) : Except CollectionError Unit := do
  require (∀ p ∈ [pool.token0Program, pool.token1Program], p ∈ [tokenProgram, token2022Program])
    .unsupportedTokenProgram
  require (¬ (Pubkey.default ∈ [pool.token0Mint, pool.token1Mint] ∨
    pool.token0Mint = pool.token1Mint)) .invalidMintPair
  require (¬ (pool.creatorFeesToken0 = pool.creatorFeesToken1 ∧ pool.creatorFeesToken1 = 0))
    .noAccruedFees

def prepareCpmmCreatorFeeCollection (address : Pubkey) (payer : Option Pubkey) :
    Except CollectionError CreatorFeeCollection := do
  let pool ← decodeCpmmCollectionPool (← getAccount sys snapshot context address).data
  checkPool pool
  let config ← decodeCpmmAmmConfig (← getAccount sys snapshot context pool.ammConfig).data
  let sharePda := getCreatorFeeSharePda find pool.poolCreator pool.ammConfig
  let observation ← getObservation sys snapshot context sharePda
  let rate ← resolveCreatorFeeShareRate config pool.poolCreator pool.ammConfig
    (some ⟨observation.owner, observation.data, 1⟩)
  let (payout0, protocol0) ← splitCreatorFee pool.creatorFeesToken0 rate
  let (payout1, protocol1) ← splitCreatorFee pool.creatorFeesToken1 rate
  u64Value (pool.protocolFeesToken0 + protocol0)
  u64Value (pool.protocolFeesToken1 + protocol1)
  let versions ← [address, pool.ammConfig, sharePda].mapM (versionOf sys snapshot context)
  (snapshot.assertUsable sys).mapError .snapshot
  return {
    pool := address
    creator := pool.poolCreator
    ammConfig := pool.ammConfig
    accountVersions := versions
    instruction := build find address pool payer
    snapshotSlot := context.slot
    creatorFeeShare := sharePda
    shareRate := rate
    creatorPayoutToken0 := payout0
    creatorPayoutToken1 := payout1
    protocolShareToken0 := protocol0
    protocolShareToken1 := protocol1 }

/-! ### Validating -/

/-- An account still has the version that the collection was prepared from. -/
def checkVersion (snapshotSlot : ℤ) : AccountVersion → Except CollectionError Unit
  | (key, slot, version) => do
      require (¬ slot > snapshotSlot) .precedesObservations
      let a ← getObservation sys snapshot context key
      require (¬ (a.slot, a.writeVersion) ≠ (slot, version)) .accountsChanged

def validateCpmmCreatorFeeCollection (prepared : CreatorFeeCollection) (payer : Option Pubkey) :
    Except CollectionError Unit := do
  forM [prepared.snapshotSlot, prepared.shareRate, prepared.creatorPayoutToken0,
    prepared.creatorPayoutToken1, prepared.protocolShareToken0, prepared.protocolShareToken1]
    u64Value
  require (¬ context.slot < prepared.snapshotSlot) .contextMovedBackwards
  forM prepared.accountVersions (checkVersion sys snapshot context prepared.snapshotSlot)
  let current ← prepareCpmmCreatorFeeCollection find sys snapshot context prepared.pool payer
  require (¬ { current with snapshotSlot := prepared.snapshotSlot } ≠ prepared)
    .preparationChanged

end Fence

end SolTrade.Cpmm
