import SolTrade.Cpmm.CachedPool
import SolTrade.LaunchLab.PoolState

/-!
The decoders of one account agree.

A decoder that reads from front to back is given the account without its discriminator, so
a field at an offset of the account is at an offset eight lower for it.
-/

namespace SolTrade

open Library AccountReader
open PumpSwap (byteAt keyAt unsignedAt)
open Route (PoolTradeHint LaunchLabQuoteState)
open Subscription (SubscriptionSystem AccountCacheSnapshot CacheReadContext CachedAccount)
open Cpmm (RaydiumCpmmPoolState CachedCpmm CpmmCollectionPool decodeRaydiumCpmmPoolState
  decodeCpmmCollectionPool cpmm)
open LaunchLab (BonkPoolState StonkFunCurveAccounts decodeBonkPoolState decodeLaunchlabCurve)

/-! ### Raydium CPMM -/

/-- Three views of a CPMM pool: the full state, the cached one and that of a fee collection.
The cached view keeps the accrued fees only as the difference between a vault's balance and
the reserve. -/
structure CpmmViewsAgree (snapshot : AccountCacheSnapshot) (state : RaydiumCpmmPoolState)
    (cached : CachedCpmm) (pool : CpmmCollectionPool) : Prop where
  config : state.ammConfig = pool.ammConfig ∧ cached.config = pool.ammConfig
  vault0 : state.token0Vault = pool.token0Vault ∧ cached.baseVault = pool.token0Vault
  vault1 : state.token1Vault = pool.token1Vault ∧ cached.quoteVault = pool.token1Vault
  mint0 : state.token0Mint = pool.token0Mint ∧ cached.baseMint = pool.token0Mint
  mint1 : state.token1Mint = pool.token1Mint ∧ cached.quoteMint = pool.token1Mint
  program0 : state.token0Program = pool.token0Program ∧
    cached.baseTokenProgram = pool.token0Program
  program1 : state.token1Program = pool.token1Program ∧
    cached.quoteTokenProgram = pool.token1Program
  protocolFees : state.protocolFeesToken0 = pool.protocolFeesToken0 ∧
    state.protocolFeesToken1 = pool.protocolFeesToken1
  reserve0 : ∃ vault, snapshot.accounts pool.token0Vault = some vault ∧
    cached.baseReserve = unsignedAt vault.data 64 8 -
      (pool.protocolFeesToken0 + state.fundFeesToken0 + pool.creatorFeesToken0)
  reserve1 : ∃ vault, snapshot.accounts pool.token1Vault = some vault ∧
    cached.quoteReserve = unsignedAt vault.data 64 8 -
      (pool.protocolFeesToken1 + state.fundFeesToken1 + pool.creatorFeesToken1)

section Cpmm

variable {sys : SubscriptionSystem} {snapshot : AccountCacheSnapshot} {hint : PoolTradeHint}
  {context : CacheReadContext} {unixTimestamp : ℤ} {d : List UInt8} {key : Pubkey}
  {owner : Option Pubkey} {account : CachedAccount} {cached : CachedCpmm}

theorem accounts_of_readAccount
    (h : Cpmm.readAccount sys snapshot context key owner = .ok account) :
    snapshot.accounts key = some account :=
  (AccountCacheSnapshot.get_eq_ok.1 (mapError_eq_ok.1 h)).2.1

theorem reserve_eq_ok {vault mint program : Pubkey} {first second third : ℕ} {reserve : ℤ}
    (h : Cpmm.reserve sys snapshot context d vault mint program first second third =
      .ok reserve) :
    ∃ account, snapshot.accounts vault = some account ∧ reserve = unsignedAt account.data 64 8 -
      (unsignedAt d first 8 + unsignedAt d second 8 + unsignedAt d third 8) := by
  unfold Cpmm.reserve at h
  obtain ⟨account, haccount, h⟩ := bind_eq_ok.1 h
  obtain ⟨_, -, h⟩ := bind_eq_ok.1 h
  have hreserve := unsigned_eq_ok.1 (mapError_eq_ok.1 h)
  exact ⟨account, accounts_of_readAccount haccount, hreserve.2.symm⟩

/-- What the cached view takes from the bytes of the pool. -/
theorem cpmm_eq_ok (h : cpmm sys snapshot context hint unixTimestamp = .ok cached)
    (hdata : (snapshot.accounts hint.pool).map (·.data) = some d) :
    cached.config = keyAt d 8 ∧ cached.baseVault = keyAt d 72 ∧ cached.quoteVault = keyAt d 104 ∧
      cached.baseMint = keyAt d 168 ∧ cached.quoteMint = keyAt d 200 ∧
      cached.baseTokenProgram = keyAt d 232 ∧ cached.quoteTokenProgram = keyAt d 264 ∧
      (∃ account, snapshot.accounts (keyAt d 72) = some account ∧
        cached.baseReserve = unsignedAt account.data 64 8 -
          (unsignedAt d 341 8 + unsignedAt d 357 8 + unsignedAt d 397 8)) ∧
      ∃ account, snapshot.accounts (keyAt d 104) = some account ∧
        cached.quoteReserve = unsignedAt account.data 64 8 -
          (unsignedAt d 349 8 + unsignedAt d 365 8 + unsignedAt d 405 8) := by
  unfold cpmm at h
  obtain ⟨_, -, h⟩ := bind_eq_ok.1 h
  obtain ⟨account, haccount, h⟩ := bind_eq_ok.1 h
  have hpool : account.data = d := by
    rw [accounts_of_readAccount haccount] at hdata
    exact Option.some_inj.1 hdata
  rw [hpool] at h
  obtain ⟨_, -, h⟩ := bind_eq_ok.1 h
  obtain ⟨_, -, h⟩ := bind_eq_ok.1 h
  obtain ⟨_, -, h⟩ := bind_eq_ok.1 h
  obtain ⟨config, -, h⟩ := bind_eq_ok.1 h
  obtain ⟨rates, -, h⟩ := bind_eq_ok.1 h
  obtain ⟨base, -, h⟩ := bind_eq_ok.1 h
  obtain ⟨quote, -, h⟩ := bind_eq_ok.1 h
  obtain ⟨baseReserve, hbase, h⟩ := bind_eq_ok.1 h
  obtain ⟨quoteReserve, hquote, h⟩ := bind_eq_ok.1 h
  obtain ⟨baseFee, -, h⟩ := bind_eq_ok.1 h
  obtain ⟨quoteFee, -, h⟩ := bind_eq_ok.1 h
  obtain rfl := pure_eq_ok.1 h
  exact ⟨rfl, rfl, rfl, rfl, rfl, rfl, rfl, reserve_eq_ok hbase, reserve_eq_ok hquote⟩

theorem decodeCpmmCollectionPool_eq_ok {pool : CpmmCollectionPool}
    (h : decodeCpmmCollectionPool d = .ok pool) :
    pool = ⟨keyAt d 8, keyAt d 40, keyAt d 72, keyAt d 104, keyAt d 168, keyAt d 200, keyAt d 232,
      keyAt d 264, unsignedAt d 397 8, unsignedAt d 405 8, unsignedAt d 341 8,
      unsignedAt d 349 8⟩ := by
  unfold decodeCpmmCollectionPool at h
  obtain ⟨_, -, h⟩ := bind_eq_ok.1 h
  obtain ⟨_, -, h⟩ := bind_eq_ok.1 h
  exact (pure_eq_ok.1 h).symm

theorem cpmm_views_agree {state : RaydiumCpmmPoolState} {pool : CpmmCollectionPool}
    (hstate : decodeRaydiumCpmmPoolState (d.drop 8) = some state)
    (hcached : cpmm sys snapshot context hint unixTimestamp = .ok cached)
    (hdata : (snapshot.accounts hint.pool).map (·.data) = some d)
    (hpool : decodeCpmmCollectionPool d = .ok pool) :
    CpmmViewsAgree snapshot state cached pool := by
  obtain ⟨-, hstate⟩ := Cpmm.decodeRaydiumCpmmPoolState_eq_some hstate
  simp only [keyAt_drop, unsignedAt_drop] at hstate
  obtain ⟨hconfig, hvault0, hvault1, hmint0, hmint1, hprogram0, hprogram1, hreserve0, hreserve1⟩ :=
    cpmm_eq_ok hcached hdata
  have hpool := decodeCpmmCollectionPool_eq_ok hpool
  subst hstate hpool
  exact {
    config := ⟨rfl, hconfig⟩
    vault0 := ⟨rfl, hvault0⟩
    vault1 := ⟨rfl, hvault1⟩
    mint0 := ⟨rfl, hmint0⟩
    mint1 := ⟨rfl, hmint1⟩
    program0 := ⟨rfl, hprogram0⟩
    program1 := ⟨rfl, hprogram1⟩
    protocolFees := ⟨rfl, rfl⟩
    reserve0 := hreserve0
    reserve1 := hreserve1 }

end Cpmm

/-! ### LaunchLab -/

structure LaunchLabViewsAgree (state : BonkPoolState) (accounts : StonkFunCurveAccounts)
    (curve : LaunchLabQuoteState) : Prop where
  virtualBase : curve.virtualBase = state.virtualBase
  virtualQuote : curve.virtualQuote = state.virtualQuote
  realBase : curve.realBase = state.realBase
  realQuote : curve.realQuote = state.realQuote
  totalBaseSell : curve.totalBaseSell = state.totalBaseSell
  /-- The curve decoder takes pools that are trading only. -/
  status : state.status = 0
  baseMint : accounts.baseMint = state.baseMint
  quoteMint : accounts.quoteMint = state.quoteMint
  baseVault : accounts.baseVault = state.baseVault
  quoteVault : accounts.quoteVault = state.quoteVault

theorem launchlab_views_agree {find : ProgramAddress}
    {pool globalConfig platform : LaunchLab.LaunchLabAccountBytes}
    {baseTokenProgram quoteTokenProgram : Pubkey}
    {baseTransferFee quoteTransferFee : Route.TokenTransferFee} {accounts : StonkFunCurveAccounts}
    {curve : LaunchLabQuoteState} {state : BonkPoolState}
    (hcurve : decodeLaunchlabCurve find pool globalConfig platform baseTokenProgram
      quoteTokenProgram baseTransferFee quoteTransferFee = .ok (accounts, curve))
    (hstate : decodeBonkPoolState (pool.data.drop 8) = some state) :
    LaunchLabViewsAgree state accounts curve := by
  obtain ⟨hsize, hstate⟩ := LaunchLab.decodeBonkPoolState_eq_some hstate
  simp only [keyAt_drop, unsignedAt_drop] at hstate
  rw [List.length_drop] at hsize
  unfold decodeLaunchlabCurve at hcurve
  obtain ⟨_, -, hcurve⟩ := bind_eq_ok.1 hcurve
  obtain ⟨_, -, hcurve⟩ := bind_eq_ok.1 hcurve
  obtain ⟨_, -, hcurve⟩ := bind_eq_ok.1 hcurve
  obtain ⟨_, htrading, hcurve⟩ := bind_eq_ok.1 hcurve
  rw [require_eq_ok] at htrading
  have hstatus : unsignedAt pool.data 17 1 = 0 :=
    (unsignedAt_one (by omega)).trans htrading
  rw [pure_eq_ok, Prod.mk.injEq] at hcurve
  obtain ⟨rfl, rfl⟩ := hcurve
  subst hstate
  exact ⟨rfl, rfl, rfl, rfl, rfl, hstatus, rfl, rfl, rfl, rfl⟩

/-! ### Both -/

/-- The decoders of a CPMM pool agree on every account that all of them take, and so do those
of a LaunchLab pool. -/
theorem decoders_agree :
    (∀ {sys : SubscriptionSystem} {snapshot : AccountCacheSnapshot} {hint : PoolTradeHint}
      {context : CacheReadContext} {unixTimestamp : ℤ} {d : List UInt8}
      {state : RaydiumCpmmPoolState} {cached : CachedCpmm} {pool : CpmmCollectionPool},
      decodeRaydiumCpmmPoolState (d.drop 8) = some state →
      cpmm sys snapshot context hint unixTimestamp = .ok cached →
      (snapshot.accounts hint.pool).map (·.data) = some d →
      decodeCpmmCollectionPool d = .ok pool → CpmmViewsAgree snapshot state cached pool) ∧
    ∀ {find : ProgramAddress} {pool globalConfig platform : LaunchLab.LaunchLabAccountBytes}
      {baseTokenProgram quoteTokenProgram : Pubkey}
      {baseTransferFee quoteTransferFee : Route.TokenTransferFee}
      {accounts : StonkFunCurveAccounts} {curve : LaunchLabQuoteState} {state : BonkPoolState},
      decodeLaunchlabCurve find pool globalConfig platform baseTokenProgram quoteTokenProgram
        baseTransferFee quoteTransferFee = .ok (accounts, curve) →
      decodeBonkPoolState (pool.data.drop 8) = some state →
      LaunchLabViewsAgree state accounts curve :=
  ⟨cpmm_views_agree, launchlab_views_agree⟩

section Sample

open Wire (littleEndian)
open Route (cpmmProgram launchLabProgram tokenProgram)

def sampleCpmmPool : List UInt8 :=
  let keys : List Pubkey := [.ofNat 11, .ofNat 12, .ofNat 13, .ofNat 14, .ofNat 15, .ofNat 16,
    .ofNat 17, tokenProgram, tokenProgram, .ofNat 18]
  -- the fees of the protocol, of the fund and of the creator are 3, 5 and 7
  Cpmm.poolDiscriminator ++ keys.flatMap (·.toList) ++ [253, 0, 9, 6, 9] ++
    [40000, 3, 3, 5, 5, 1700000000, 810].flatMap (littleEndian 8) ++ [0, 1, 0, 0, 0, 0, 0, 0] ++
    [7, 7].flatMap (littleEndian 8) ++ List.replicate 224 0

def sampleCpmmConfig : List UInt8 :=
  Cpmm.configDiscriminator ++ [254, 0, 0, 0] ++
    [2500, 120000, 40000, 0].flatMap (littleEndian 8) ++ List.replicate 64 0 ++
    [500, 100000].flatMap (littleEndian 8) ++ List.replicate 112 0

def sampleMint : List UInt8 :=
  List.replicate 36 0 ++ littleEndian 8 5000000 ++ [6, 1] ++ List.replicate 36 0

def sampleVault (mint : Pubkey) (balance : ℕ) : List UInt8 :=
  mint.toList ++ Cpmm.authority.toList ++ littleEndian 8 balance ++ List.replicate 36 0 ++ [1] ++
    List.replicate 56 0

theorem sample_written : ((0 : ℤ) ≤ 81 ∧ (81 : ℤ) ≤ u64) ∧ (0 : ℤ) ≤ 5 ∧ (5 : ℤ) ≤ u64 := by
  decide

def sampleCpmmSnapshot : AccountCacheSnapshot where
  accounts key :=
    let held : List (Pubkey × Pubkey × List UInt8) :=
      [(.ofNat 10, cpmmProgram, sampleCpmmPool), (.ofNat 11, cpmmProgram, sampleCpmmConfig),
        (.ofNat 13, tokenProgram, sampleVault (.ofNat 16) 1015),
        (.ofNat 14, tokenProgram, sampleVault (.ofNat 17) 2015),
        (.ofNat 16, tokenProgram, sampleMint), (.ofNat 17, tokenProgram, sampleMint)]
    (held.lookup key).map fun (owner, data) =>
      ⟨⟨owner, data, 81, 5⟩, sample_written.1, sample_written.2⟩
  continuityGuard := none
  observedThrough := none

def sampleCpmmSystem : SubscriptionSystem :=
  .init fun _ => ⟨∅, "", 0, .initializing, ∅, none⟩

def sampleCpmmHint : PoolTradeHint := ⟨.ofNat 10, .ofNat 16, .ofNat 17, none⟩

def sampleCpmmContext : CacheReadContext := ⟨82, 810, 150, by decide, by decide, by decide⟩

def sampleLaunchLabPool : List UInt8 :=
  LaunchLab.poolDiscriminator ++ littleEndian 8 811 ++ [255, 0, 6, 9, 1] ++
    ((List.range 15).map (1000 + ·)).flatMap (littleEndian 8) ++
    ((List.range 7).map fun i => Pubkey.ofNat (20 + i)).flatMap (·.toList) ++ List.replicate 64 0

def sampleLaunchLabGlobal : List UInt8 := LaunchLab.globalDiscriminator ++ List.replicate 27 1

def sampleLaunchLabPlatform : List UInt8 :=
  LaunchLab.platformDiscriminator ++ List.replicate 720 2

theorem sample_cpmm : ∃ cached,
    cpmm sampleCpmmSystem sampleCpmmSnapshot sampleCpmmContext sampleCpmmHint 1700000000 =
      .ok cached ∧ (cached.baseReserve, cached.quoteReserve) = (1000, 2000) :=
  map_eq_ok.1 (by decide +kernel)

theorem sample_launchlab : ∃ curve,
    decodeLaunchlabCurve (fun _ _ => (.ofNat 30, 255))
        ⟨.ofNat 31, launchLabProgram, sampleLaunchLabPool⟩
        ⟨.ofNat 20, launchLabProgram, sampleLaunchLabGlobal⟩
        ⟨.ofNat 21, launchLabProgram, sampleLaunchLabPlatform⟩ tokenProgram tokenProgram {} {} =
      .ok curve ∧ (curve.2.virtualBase, curve.2.virtualQuote) = (1002, 1003) :=
  map_eq_ok.1 (by decide +kernel)

/-- Three views of one pool, and two of a curve. -/
theorem decoders_agree_sample :
    (∃ state cached pool, CpmmViewsAgree sampleCpmmSnapshot state cached pool ∧
      cached.baseReserve = 1000 ∧ pool.creatorFeesToken0 = 7) ∧
    ∃ state accounts curve, LaunchLabViewsAgree state accounts curve ∧
      curve.virtualBase = 1002 := by
  obtain ⟨state, hstate⟩ : ∃ state,
      decodeRaydiumCpmmPoolState (sampleCpmmPool.drop 8) = some state :=
    Option.isSome_iff_exists.1 (by decide +kernel)
  obtain ⟨pool, hpool, hfees⟩ : ∃ pool, decodeCpmmCollectionPool sampleCpmmPool = .ok pool ∧
      pool.creatorFeesToken0 = 7 := map_eq_ok.1 (by decide +kernel)
  obtain ⟨cached, hcached, hreserves⟩ := sample_cpmm
  have hheld : (sampleCpmmSnapshot.accounts sampleCpmmHint.pool).map (·.data) =
      some sampleCpmmPool := by decide +kernel
  obtain ⟨bonk, hbonk⟩ : ∃ state, decodeBonkPoolState (sampleLaunchLabPool.drop 8) = some state :=
    Option.isSome_iff_exists.1 (by decide +kernel)
  obtain ⟨⟨accounts, curve⟩, hcurve, hvirtual⟩ := sample_launchlab
  rw [Prod.mk.injEq] at hreserves hvirtual
  exact ⟨⟨state, cached, pool, decoders_agree.1 hstate hcached hheld hpool, hreserves.1, hfees⟩,
    bonk, accounts, curve, decoders_agree.2 hcurve hbonk, hvirtual.1⟩

end Sample

end SolTrade
