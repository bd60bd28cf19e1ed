import SolTrade.PumpSwap.CachedPool
import SolTrade.PumpSwap.Quotes

/-!
The rates of the two preparations of a PumpSwap trade.

The cached preparation asks the schedule for the quote of the pool and lets the pool's own
creator fee override the schedule; the other one asks for the native quote and knows no
override. They agree where this makes no difference.
-/

namespace SolTrade.PumpSwap

open Library
open Route (PumpSwapFeeBasisPoints PoolTradeHint wsolTokenAccount effectiveQuoteReserves)
open Subscription (SubscriptionSystem AccountCacheSnapshot CacheReadContext CachedAccount)

/-! ### What the schedule charges -/

/-- The tiers of a native or stable quote. -/
def quoteTiers (config : PumpSwapFeeConfig) (quote : Pubkey) : List PumpSwapFeeTier :=
  if isNativeQuote quote = false ∧ config.stableFeeTiers ≠ [] then config.stableFeeTiers
  else config.feeTiers

/-- The schedule charges a canonical pool these rates: those of the tier in force, the flat
ones if there is no tier, and those of other quotes. -/
inductive Charges (config : PumpSwapFeeConfig) (quote : Pubkey) (marketCap : ℤ) :
    PumpSwapFeeBasisPoints → Prop
  | tier {tier : PumpSwapFeeTier} (hquote : isNativeQuote quote = true ∨ quote = usdcTokenAccount)
      (hforce : InForce (quoteTiers config quote) marketCap tier) :
      Charges config quote marketCap tier.fees
  | flat (hquote : isNativeQuote quote = true ∨ quote = usdcTokenAccount)
      (hempty : quoteTiers config quote = []) : Charges config quote marketCap config.flatFees
  | other (hquote : ¬ (isNativeQuote quote = true ∨ quote = usdcTokenAccount)) :
      Charges config quote marketCap (exoticOrFlatFees config)

section Charges

variable {config : PumpSwapFeeConfig} {quote : Pubkey} {marketCap : ℤ}
  {f g : PumpSwapFeeBasisPoints}

theorem Charges.unique (h : Charges config quote marketCap f)
    (h' : Charges config quote marketCap g) : f = g := by
  cases h with
  | tier hquote hforce =>
      cases h' with
      | tier _ hforce' => rw [hforce.unique hforce']
      | flat _ hempty =>
          obtain ⟨before, after, hsplit, -⟩ := hforce
          rw [hempty] at hsplit
          simp at hsplit
      | other hother => exact absurd hquote hother
  | flat hquote hempty =>
      cases h' with
      | tier _ hforce =>
          obtain ⟨before, after, hsplit, -⟩ := hforce
          rw [hempty] at hsplit
          simp at hsplit
      | flat => rfl
      | other hother => exact absurd hquote hother
  | other hother =>
      cases h' with
      | tier hquote => exact absurd hquote hother
      | flat hquote => exact absurd hquote hother
      | other => rfl

/-- All native quotes are charged alike. -/
theorem Charges.of_native {quote' : Pubkey} (h : Charges config quote marketCap f)
    (hquote : isNativeQuote quote = true) (hquote' : isNativeQuote quote' = true) :
    Charges config quote' marketCap f := by
  have htiers : quoteTiers config quote = quoteTiers config quote' := by
    unfold quoteTiers
    rw [hquote, hquote']
  cases h with
  | tier _ hforce => exact .tier (.inl hquote') (htiers ▸ hforce)
  | flat _ hempty => exact .flat (.inl hquote') (htiers.symm.trans hempty)
  | other hother => exact absurd (.inl hquote) hother

theorem charges_compute {poolAuthority : Pubkey → Pubkey} {creator baseMint : Pubkey}
    {supply baseReserve quoteReserve : ℤ} (htiers : Ordered config.feeTiers)
    (hstable : Ordered config.stableFeeTiers) (hcanonical : poolAuthority baseMint = creator)
    (hcap : poolMarketCapLamports supply baseReserve quoteReserve = some marketCap) :
    Charges config quote marketCap (computePumpswapFeeBasisPoints poolAuthority (some config)
      creator baseMint (some supply) baseReserve quoteReserve quote) := by
  unfold computePumpswapFeeBasisPoints
  simp only [hcanonical, hcap, ne_eq, not_true_eq_false, if_false]
  by_cases hquote : isNativeQuote quote = true ∨ quote = usdcTokenAccount
  · rw [if_neg (by rcases hquote with hnative | husdc <;> simp_all)]
    change Charges config quote marketCap
      ((calculateFeeTier (quoteTiers config quote) marketCap).getD config.flatFees)
    by_cases hempty : quoteTiers config quote = []
    · rw [hempty]
      exact .flat hquote hempty
    · have hordered : Ordered (quoteTiers config quote) := by
        unfold quoteTiers
        split
        · exact hstable
        · exact htiers
      obtain ⟨tier, hforce, hfees⟩ := calculateFeeTier_eq_some hordered hempty
      rw [hfees]
      exact .tier hquote hforce
  · rw [if_pos (by rwa [not_or, Bool.not_eq_true] at hquote)]
    exact .other hquote

end Charges

/-! ### The accounts that both read -/

/-- The accounts of a pool, of which the pool and the schedule decode. -/
structure PumpSwapAccounts where
  poolData : List UInt8
  globalData : List UInt8
  feeData : List UInt8
  mintData : List UInt8
  baseVault : List UInt8
  quoteVault : List UInt8
  pool : PumpSwapPool
  config : PumpSwapFeeConfig
  pool_eq : decodePoolAccount poolData = some pool
  config_eq : decodeFeeConfig feeData = some config

namespace PumpSwapAccounts

variable (a : PumpSwapAccounts)

def baseReserve : ℤ := unsignedAt a.baseVault 64 8
def quoteReserve : ℤ := unsignedAt a.quoteVault 64 8
def supply : ℤ := unsignedAt a.mintData 36 8

def marketCap : ℤ := (a.quoteReserve + a.pool.virtualQuoteReserves) * a.supply / a.baseReserve

/-- The snapshot holds the accounts. -/
structure Held (snapshot : AccountCacheSnapshot) (poolAddress : Pubkey) : Prop where
  pool : (snapshot.accounts poolAddress).map (·.data) = some a.poolData
  globalConfig : (snapshot.accounts pumpSwapGlobalAccount).map (·.data) = some a.globalData
  feeConfig : (snapshot.accounts feeConfigAddress).map (·.data) = some a.feeData
  baseMint : (snapshot.accounts a.pool.baseMint).map (·.data) = some a.mintData
  baseVault : (snapshot.accounts a.pool.poolBaseTokenAccount).map (·.data) = some a.baseVault
  quoteVault : (snapshot.accounts a.pool.poolQuoteTokenAccount).map (·.data) = some a.quoteVault

/-- The node answers with the accounts, and with the balances in the vaults. -/
structure Served (fetcher : PoolFetcher) : Prop where
  feeConfig : fetcher.getAccountInfo feeConfigAddress = some a.feeData
  baseMint : fetcher.getAccountInfo a.pool.baseMint = some a.mintData
  baseVault : fetcher.getTokenAccountBalance a.pool.poolBaseTokenAccount = some a.baseReserve
  quoteVault : fetcher.getTokenAccountBalance a.pool.poolQuoteTokenAccount = some a.quoteReserve

variable (find : ProgramAddress)

def Canonical : Prop := pumpPoolAuthorityPda find a.pool.baseMint = a.pool.creator

/-- What the pool pays when the schedule is asked for the quote. -/
def Pays (quote : Pubkey) (rates : PumpSwapFeeBasisPoints) : Prop :=
  (a.Canonical find → Charges a.config quote a.marketCap rates) ∧
    (¬ a.Canonical find → rates = a.config.flatFees)

/-- Asked for the quote of the pool or for the native one, the schedule charges the same
to the liquidity providers and the protocol; and the pool has no creator to pay, or what
the native quote charges for the creator is what the pool pays him. -/
def NativeRatesApply : Prop :=
  ∃ own native, a.Pays find a.pool.quoteMint own ∧ a.Pays find wsolTokenAccount native ∧
    native.lpFeeBasisPoints = own.lpFeeBasisPoints ∧
    native.protocolFeeBasisPoints = own.protocolFeeBasisPoints ∧
    (a.pool.coinCreator = .default ∨ native.coinCreatorFeeBasisPoints =
      if creatorFeeOverride a.pool a.globalData then (a.pool.creatorFeeBps : ℤ)
      else own.coinCreatorFeeBasisPoints)

end PumpSwapAccounts

/-! ### The cached preparation -/

section Cached

variable {find : ProgramAddress} {sys : SubscriptionSystem} {snapshot : AccountCacheSnapshot}
  {hint : PoolTradeHint} {context : CacheReadContext} {a : PumpSwapAccounts}
  {config : PumpSwapFeeConfig} {pool : PumpSwapPool} {data : List UInt8} {key : Pubkey}
  {owner : Option Pubkey} {account : CachedAccount} {state : CachedPumpSwap}

/-- The rates that the schedule selects for a quote. -/
def scheduled (find : ProgramAddress) (a : PumpSwapAccounts) (quote : Pubkey) :
    PumpSwapFeeBasisPoints :=
  computePumpswapFeeBasisPoints (pumpPoolAuthorityPda find) (some a.config) a.pool.creator
    a.pool.baseMint (some a.supply) a.baseReserve (a.quoteReserve + a.pool.virtualQuoteReserves)
    quote

theorem pays_scheduled (htiers : Ordered a.config.feeTiers)
    (hstable : Ordered a.config.stableFeeTiers) (hbase : a.baseReserve ≠ 0) (quote : Pubkey) :
    a.Pays find quote (scheduled find a quote) := by
  constructor
  · intro hcanonical
    exact charges_compute htiers hstable hcanonical (if_neg hbase)
  · intro hother
    exact if_pos hother

theorem data_of_readAccount (h : readAccount sys snapshot context key owner = .ok account)
    (hheld : (snapshot.accounts key).map (·.data) = some data) : account.data = data := by
  obtain ⟨-, haccount, -⟩ := AccountCacheSnapshot.get_eq_ok.1 (mapError_eq_ok.1 h)
  rw [haccount] at hheld
  exact Option.some_inj.1 hheld

theorem readPool_eq_ok (h : readPool find sys snapshot hint context = .ok pool)
    (hheld : a.Held snapshot hint.pool) : pool = a.pool := by
  unfold readPool at h
  obtain ⟨account, haccount, h⟩ := bind_eq_ok.1 h
  obtain ⟨_, hdiscriminator, h⟩ := bind_eq_ok.1 h
  rw [require_eq_ok] at hdiscriminator
  rw [data_of_readAccount haccount hheld.pool] at h hdiscriminator
  have hpool : decodePool (a.poolData.drop 8) = some a.pool := by
    have hdecode := a.pool_eq
    unfold decodePoolAccount at hdecode
    rwa [if_neg (not_not.2 hdiscriminator)] at hdecode
  rw [hpool] at h
  obtain ⟨_, -, h⟩ := bind_eq_ok.1 h
  obtain ⟨_, -, h⟩ := bind_eq_ok.1 h
  obtain ⟨_, -, h⟩ := bind_eq_ok.1 h
  obtain ⟨_, -, h⟩ := bind_eq_ok.1 h
  exact (pure_eq_ok.1 h).symm

theorem readGlobal_eq_ok (h : readGlobal sys snapshot context = .ok data)
    (hheld : a.Held snapshot hint.pool) : data = a.globalData := by
  unfold readGlobal at h
  obtain ⟨account, haccount, h⟩ := bind_eq_ok.1 h
  obtain ⟨_, -, h⟩ := bind_eq_ok.1 h
  rw [pure_eq_ok] at h
  rw [← h]
  exact data_of_readAccount haccount hheld.globalConfig

theorem validatedFeeConfig_eq_ok (h : validatedFeeConfig find a.feeData = .ok config) :
    config = a.config ∧ Ordered config.feeTiers ∧ Ordered config.stableFeeTiers := by
  unfold validatedFeeConfig at h
  obtain ⟨_, -, h⟩ := bind_eq_ok.1 h
  rw [a.config_eq] at h
  obtain ⟨_, hordered, h⟩ := bind_eq_ok.1 h
  rw [require_eq_ok] at hordered
  obtain rfl := pure_eq_ok.1 h
  exact ⟨rfl, Schedule.ascending_of_neighbours (hordered _ (by simp)),
    Schedule.ascending_of_neighbours (hordered _ (by simp))⟩

theorem readReserve_eq_ok {vault mint program : Pubkey} {reserve : ℤ}
    (h : readReserve sys snapshot hint context vault mint program = .ok reserve)
    (hheld : (snapshot.accounts vault).map (·.data) = some data) :
    reserve = unsignedAt data 64 8 := by
  unfold readReserve at h
  obtain ⟨account, haccount, h⟩ := bind_eq_ok.1 h
  unfold vaultReserve at h
  obtain ⟨_, -, h⟩ := bind_eq_ok.1 h
  rw [data_of_readAccount haccount hheld] at h
  exact (pure_eq_ok.1 h).symm

/-- A mint with a transfer fee to read is long enough to have a supply. -/
theorem length_of_transferFee {fee : Route.TokenTransferFee}
    (h : transferFee context account = .ok fee) : 82 ≤ account.data.length := by
  have hfee := mapError_eq_ok.1 h
  unfold Token.tokenTransferFeeForEpoch at hfee
  obtain ⟨_, -, hfee⟩ := bind_eq_ok.1 hfee
  obtain ⟨_, -, hfee⟩ := bind_eq_ok.1 hfee
  obtain ⟨_, hmint, -⟩ := bind_eq_ok.1 hfee
  rw [require_eq_ok, not_or] at hmint
  omega

/-- The state that the cached preparation makes of the accounts. -/
structure CachedSpec (find : ProgramAddress) (a : PumpSwapAccounts) (state : CachedPumpSwap) :
    Prop where
  tiers : Ordered a.config.feeTiers
  stableTiers : Ordered a.config.stableFeeTiers
  baseReserve_ne : a.baseReserve ≠ 0
  supply_read : 82 ≤ a.mintData.length
  effective : effectiveQuoteReserves a.quoteReserve a.pool.virtualQuoteReserves =
    .ok (a.quoteReserve + a.pool.virtualQuoteReserves)
  coinCreator : state.coinCreator = a.pool.coinCreator
  virtualQuoteReserves : state.virtualQuoteReserves = a.pool.virtualQuoteReserves
  baseReserve : state.baseReserve = a.baseReserve
  quoteReserve : state.quoteReserve = a.quoteReserve
  fees : state.feeBasisPoints = { scheduled find a a.pool.quoteMint with
    coinCreatorFeeBasisPoints :=
      if creatorFeeOverride a.pool a.globalData then (a.pool.creatorFeeBps : ℤ)
      else (scheduled find a a.pool.quoteMint).coinCreatorFeeBasisPoints }

theorem cachedPumpswap_spec (h : cachedPumpswap find sys snapshot hint context = .ok state)
    (hheld : a.Held snapshot hint.pool) : CachedSpec find a state := by
  unfold cachedPumpswap at h
  obtain ⟨pool, hpool, h⟩ := bind_eq_ok.1 h
  obtain ⟨globalData, hglobal, h⟩ := bind_eq_ok.1 h
  obtain ⟨feeAccount, hfeeAccount, h⟩ := bind_eq_ok.1 h
  obtain ⟨config, hconfig, h⟩ := bind_eq_ok.1 h
  obtain ⟨baseMint, hbaseMint, h⟩ := bind_eq_ok.1 h
  obtain ⟨quoteMint, hquoteMint, h⟩ := bind_eq_ok.1 h
  obtain ⟨baseFee, hbaseFee, h⟩ := bind_eq_ok.1 h
  obtain ⟨quoteFee, hquoteFee, h⟩ := bind_eq_ok.1 h
  obtain ⟨baseReserve, hbase, h⟩ := bind_eq_ok.1 h
  obtain ⟨quoteReserve, hquote, h⟩ := bind_eq_ok.1 h
  obtain ⟨_, hreserves, h⟩ := bind_eq_ok.1 h
  obtain ⟨effective, heffective, h⟩ := bind_eq_ok.1 h
  obtain ⟨_, -, h⟩ := bind_eq_ok.1 h
  obtain rfl := readPool_eq_ok hpool hheld
  obtain rfl := readGlobal_eq_ok hglobal hheld
  rw [data_of_readAccount hfeeAccount hheld.feeConfig] at hconfig
  obtain ⟨rfl, htiers, hstable⟩ := validatedFeeConfig_eq_ok hconfig
  have hmint := data_of_readAccount hbaseMint hheld.baseMint
  have hbase : baseReserve = a.baseReserve := readReserve_eq_ok hbase hheld.baseVault
  have hquote : quoteReserve = a.quoteReserve := readReserve_eq_ok hquote hheld.quoteVault
  subst hbase hquote
  have heffective := mapError_eq_ok.1 heffective
  obtain rfl := effectiveQuoteReserves_eq_ok heffective
  rw [require_eq_ok] at hreserves
  have hlength := length_of_transferFee hbaseFee
  rw [hmint] at h hlength
  obtain rfl := pure_eq_ok.1 h
  exact {
    tiers := htiers
    stableTiers := hstable
    baseReserve_ne := hreserves.1
    supply_read := hlength
    effective := heffective
    coinCreator := rfl
    virtualQuoteReserves := rfl
    baseReserve := rfl
    quoteReserve := rfl
    fees := rfl }

end Cached

/-! ### The preparation from a node -/

section Params

variable {find : ProgramAddress} {fetcher : PoolFetcher} {poolAddress : Pubkey}
  {a : PumpSwapAccounts} {params : PumpSwapParams}

theorem selectedFees_served (hserved : a.Served fetcher) :
    selectedFees find fetcher a.pool none (some a.supply) a.baseReserve
        (a.quoteReserve + a.pool.virtualQuoteReserves) =
      { scheduled find a wsolTokenAccount with
        coinCreatorFeeBasisPoints :=
          if a.pool.coinCreator = .default then 0
          else (scheduled find a wsolTokenAccount).coinCreatorFeeBasisPoints } := by
  have hconfig : fetchFeeConfig fetcher = some a.config := by
    unfold fetchFeeConfig
    rw [hserved.feeConfig, Option.bind_some, a.config_eq]
  unfold selectedFees
  rw [hconfig]
  rfl

/-- The parameters that come of the accounts: the reserves, and the rates of the native
quote. -/
theorem paramsFromPoolData_spec
    (h : paramsFromPoolData find fetcher poolAddress a.pool = .ok params)
    (hserved : a.Served fetcher) (hsupply : 82 ≤ a.mintData.length) :
    params.poolBaseTokenReserves = a.baseReserve ∧
      params.poolQuoteTokenReserves = a.quoteReserve ∧
      params.virtualQuoteReserves = a.pool.virtualQuoteReserves ∧
      effectiveFeeBasisPoints params = { scheduled find a wsolTokenAccount with
        coinCreatorFeeBasisPoints :=
          if a.pool.coinCreator = .default then 0
          else (scheduled find a wsolTokenAccount).coinCreatorFeeBasisPoints } := by
  have hbalances : getTokenBalances fetcher a.pool = some (a.baseReserve, a.quoteReserve) := by
    unfold getTokenBalances
    rw [hserved.baseVault, hserved.quoteVault]
    rfl
  have hmint : ((fetcher.getAccountInfo a.pool.baseMint).bind decodeMintSupply).map
      (fun n : ℕ => (n : ℤ)) = some a.supply := by
    rw [hserved.baseMint, Option.bind_some, decodeMintSupply, if_neg (by omega)]
    rfl
  unfold paramsFromPoolData at h
  rw [hbalances] at h
  obtain ⟨effective, heffective, h⟩ := bind_eq_ok.1 h
  obtain rfl := effectiveQuoteReserves_eq_ok heffective
  dsimp only at h
  rw [hmint, selectedFees_served hserved] at h
  obtain rfl := pure_eq_ok.1 h
  refine ⟨rfl, rfl, rfl, ?_⟩
  unfold effectiveFeeBasisPoints
  by_cases hcreator : a.pool.coinCreator = .default
  · simp [hcreator]
  · simp [hcreator]

end Params

/-! ### Where they agree -/

section Agree

variable {find : ProgramAddress} {sys : SubscriptionSystem} {snapshot : AccountCacheSnapshot}
  {fetcher : PoolFetcher} {hint : PoolTradeHint} {context : CacheReadContext}
  {a : PumpSwapAccounts} {state : CachedPumpSwap} {params : PumpSwapParams}

theorem CachedSpec.pays (h : CachedSpec find a state) (quote : Pubkey)
    (rates : PumpSwapFeeBasisPoints) :
    a.Pays find quote rates ↔ rates = scheduled find a quote := by
  have hpays : a.Pays find quote (scheduled find a quote) :=
    pays_scheduled h.tiers h.stableTiers h.baseReserve_ne quote
  constructor
  · intro hrates
    by_cases hcanonical : a.Canonical find
    · exact (hrates.1 hcanonical).unique (hpays.1 hcanonical)
    · rw [hrates.2 hcanonical, hpays.2 hcanonical]
  · rintro rfl
    exact hpays

/-- On the same accounts, both preparations pay the same rates, and so quote the same
outputs, exactly where the rates of the native quote apply to the pool. -/
theorem preparations_agree_iff
    (hcached : cachedPumpswap find sys snapshot hint context = .ok state)
    (hparams : paramsFromPoolData find fetcher hint.pool a.pool = .ok params)
    (hheld : a.Held snapshot hint.pool) (hserved : a.Served fetcher) :
    (effectiveFeeBasisPoints params = state.fees ∧ ∀ quoteIn amount, paramsOut params quoteIn amount =
        Route.pumpSwapOut state.toCachedPumpSwapState quoteIn amount) ↔
      a.NativeRatesApply find := by
  have hspec := cachedPumpswap_spec hcached hheld
  obtain ⟨hbase, hquote, hvirtual, hfees⟩ :=
    paramsFromPoolData_spec hparams hserved hspec.supply_read
  have hrates : effectiveFeeBasisPoints params = state.fees ↔ a.NativeRatesApply find := by
    rw [hfees]
    unfold Route.CachedPumpSwapState.fees PumpSwapAccounts.NativeRatesApply
    rw [hspec.fees, hspec.coinCreator]
    simp only [hspec.pays, PumpSwapFeeBasisPoints.mk.injEq]
    by_cases hcreator : a.pool.coinCreator = .default
    · simp [hcreator]
    · simp [hcreator]
  rw [← hrates, and_iff_left_iff_imp]
  intro hsame quoteIn amount
  unfold paramsOut Route.pumpSwapOut
  rw [hsame, hbase, hquote, hvirtual, hspec.baseReserve, hspec.quoteReserve,
    hspec.virtualQuoteReserves]

/-- The rates of the native quote apply to a pool with a native quote and no creator fee of
its own, canonical or not. -/
theorem CachedSpec.nativeRatesApply (h : CachedSpec find a state)
    (hquote : isNativeQuote a.pool.quoteMint = true)
    (hoverride : creatorFeeOverride a.pool a.globalData = false) : a.NativeRatesApply find := by
  have hnative : isNativeQuote wsolTokenAccount = true := by decide +kernel
  obtain ⟨hcharges, hflat⟩ := (h.pays wsolTokenAccount _).2 rfl
  have hpays : a.Pays find a.pool.quoteMint (scheduled find a wsolTokenAccount) :=
    ⟨fun hcanonical => (hcharges hcanonical).of_native hnative hquote, hflat⟩
  refine ⟨_, _, hpays, (h.pays _ _).2 rfl, rfl, rfl, .inr ?_⟩
  simp [hoverride]

end Agree

/-! ### A stable quote -/

section Sample

open Wire (littleEndian)
open Route (pumpFunProgram pumpSwapProgram associatedTokenProgram tokenProgram)

def sampleMint : Pubkey := .ofNat 1
def sampleCreator : Pubkey := .ofNat 2
def sampleAuthority : Pubkey :=
  .ofNat 0xef7dbedc726d4d1e6b209e7a9ae03bc3a6062d5da1c41b87380ad09a96e8438b
def samplePoolAddress : Pubkey :=
  .ofNat 0x58327374be92fc26fc243cd78451b34e09e0d3ff844b3a9d0ac90f9c0abd6817
def sampleBaseVault : Pubkey :=
  .ofNat 0x63ff0a3d9f3fbe736ae0d6040c020b6465d2a4cbea19a471286b81f575b622d0
def sampleQuoteVault : Pubkey :=
  .ofNat 0x806828c319b4c8c5f3407a734398a6c773553af301c0bcb5408453617487029d
def sampleVaultAuthority : Pubkey :=
  .ofNat 0x9834a4ec9421504f0ff17d529b0110acf6376f1063297fb13ab072bb0b6f7462

/-- The addresses of the pool and of what belongs to it, with their bumps. -/
def sampleFind : ProgramAddress := fun seeds program =>
  let derived : List ((List (List UInt8) × Pubkey) × Pubkey × ℕ) :=
    [((([seed "fee_config", pumpSwapProgram.toList], feeProgram)), feeConfigAddress, 255),
      (([seed "pool-authority", sampleMint.toList], pumpFunProgram), sampleAuthority, 255),
      (([seed "pool", littleEndian 2 0, sampleAuthority.toList, sampleMint.toList,
        usdcTokenAccount.toList], pumpSwapProgram), samplePoolAddress, 254),
      (([samplePoolAddress.toList, tokenProgram.toList, sampleMint.toList],
        associatedTokenProgram), sampleBaseVault, 255),
      (([samplePoolAddress.toList, tokenProgram.toList, usdcTokenAccount.toList],
        associatedTokenProgram), sampleQuoteVault, 252),
      (([seed "creator_vault", sampleCreator.toList], pumpSwapProgram), sampleVaultAuthority, 255),
      (([sampleVaultAuthority.toList, tokenProgram.toList, usdcTokenAccount.toList],
        associatedTokenProgram),
        .ofNat 0xa0af5c4f2e8c8622a4b527e9599f14da97c2a9873dbf89b41a95551a39d5b60a, 254)]
  (derived.lookup (seeds, program)).getD (.default, 0)

def samplePoolData : List UInt8 :=
  poolDiscriminator ++ [254, 0, 0] ++ sampleAuthority.toList ++ sampleMint.toList ++
    usdcTokenAccount.toList ++ (Pubkey.ofNat 3).toList ++ sampleBaseVault.toList ++
    sampleQuoteVault.toList ++ littleEndian 8 1000000 ++ sampleCreator.toList ++
    List.replicate 18 0

def sampleGlobalData : List UInt8 := globalDiscriminator ++ List.replicate 891 0

/-- Native quotes pay 2, 93 and 30, stable ones 20, 5 and 60. -/
def sampleFeeData : List UInt8 :=
  let rates (lp protocol creator : ℕ) :=
    littleEndian 8 lp ++ littleEndian 8 protocol ++ littleEndian 8 creator
  feeConfigDiscriminator ++ [255] ++ List.replicate 32 0 ++ rates 25 5 0 ++
    littleEndian 4 1 ++ littleEndian 16 0 ++ rates 2 93 30 ++
    littleEndian 4 1 ++ littleEndian 16 0 ++ rates 20 5 60

def sampleMintData : List UInt8 :=
  List.replicate 36 0 ++ littleEndian 8 1000000000 ++ [6, 1] ++ List.replicate 36 0

def sampleVaultData (mint : Pubkey) (balance : ℕ) : List UInt8 :=
  mint.toList ++ samplePoolAddress.toList ++ littleEndian 8 balance ++ List.replicate 36 0 ++ [1] ++
    List.replicate 56 0

def sampleAccounts : PumpSwapAccounts where
  poolData := samplePoolData
  globalData := sampleGlobalData
  feeData := sampleFeeData
  mintData := sampleMintData
  baseVault := sampleVaultData sampleMint 500000000
  quoteVault := sampleVaultData usdcTokenAccount 20000000000
  pool := {
    poolBump := 254
    index := 0
    creator := sampleAuthority
    baseMint := sampleMint
    quoteMint := usdcTokenAccount
    lpMint := .ofNat 3
    poolBaseTokenAccount := sampleBaseVault
    poolQuoteTokenAccount := sampleQuoteVault
    lpSupply := 1000000
    coinCreator := sampleCreator
    isMayhemMode := false
    isCashbackCoin := false }
  config := ⟨⟨25, 5, 0⟩, [⟨0, ⟨2, 93, 30⟩⟩], [⟨0, ⟨20, 5, 60⟩⟩], some ⟨0, 0, 0⟩⟩
  pool_eq := by decide +kernel
  config_eq := by decide +kernel

theorem sample_slot_range : (0 : ℤ) ≤ 71 ∧ (71 : ℤ) ≤ u64 := by decide

theorem sample_version_range : (0 : ℤ) ≤ 4 ∧ (4 : ℤ) ≤ u64 := by decide

def sampleSnapshot : AccountCacheSnapshot where
  accounts key :=
    let held : List (Pubkey × Pubkey × List UInt8) :=
      [(samplePoolAddress, pumpSwapProgram, samplePoolData),
        (pumpSwapGlobalAccount, pumpSwapProgram, sampleGlobalData),
        (feeConfigAddress, feeProgram, sampleFeeData),
        (sampleMint, tokenProgram, sampleMintData),
        (usdcTokenAccount, tokenProgram, sampleMintData),
        (sampleBaseVault, tokenProgram, sampleVaultData sampleMint 500000000),
        (sampleQuoteVault, tokenProgram, sampleVaultData usdcTokenAccount 20000000000)]
    (held.lookup key).map fun (owner, data) =>
      ⟨⟨owner, data, 71, 4⟩, sample_slot_range, sample_version_range⟩
  continuityGuard := none
  observedThrough := none

def sampleFetcher : PoolFetcher where
  getAccountInfo key := (sampleSnapshot.accounts key).map (·.data)
  getTokenAccountBalance key :=
    (sampleSnapshot.accounts key).map fun account => (unsignedAt account.data 64 8 : ℤ)

def sampleHint : PoolTradeHint := ⟨samplePoolAddress, usdcTokenAccount, sampleMint, none⟩

theorem sample_age_range : (0 : ℤ) ≤ 150 ∧ (150 : ℤ) ≤ u64 := by decide

def sampleContext : CacheReadContext := ⟨72, 605, 150, by decide, by decide, sample_age_range⟩

def sampleSystem : SubscriptionSystem :=
  ⟨.empty, fun _ => ⟨∅, "", 0, .initializing, ∅, none⟩, []⟩

theorem sample_held : sampleAccounts.Held sampleSnapshot samplePoolAddress :=
  ⟨by decide +kernel, by decide +kernel, by decide +kernel, by decide +kernel, by decide +kernel,
    by decide +kernel⟩

theorem sample_served : sampleAccounts.Served sampleFetcher :=
  ⟨by decide +kernel, by decide +kernel, by decide +kernel, by decide +kernel⟩

theorem sample_cached : ∃ state,
    cachedPumpswap sampleFind sampleSystem sampleSnapshot sampleHint sampleContext = .ok state ∧
      (state.fees, Route.pumpSwapOut state.toCachedPumpSwapState true 1000000000) =
        (⟨20, 5, 60⟩, .ok 23618327) :=
  map_eq_ok.1 (by decide +kernel)

theorem sample_params : ∃ params,
    paramsFromPoolData sampleFind sampleFetcher sampleHint.pool sampleAccounts.pool = .ok params ∧
      (effectiveFeeBasisPoints params, paramsOut params true 1000000000) =
        (⟨2, 93, 30⟩, .ok 23529411) :=
  map_eq_ok.1 (by decide +kernel)

/-- For a pool with a stable quote the node's preparation pays what native quotes pay, and
quotes another output. -/
theorem preparations_differ :
    ∃ state params, cachedPumpswap sampleFind sampleSystem sampleSnapshot sampleHint
        sampleContext = .ok state ∧
      paramsFromPoolData sampleFind sampleFetcher sampleHint.pool sampleAccounts.pool =
        .ok params ∧
      sampleAccounts.Held sampleSnapshot sampleHint.pool ∧ sampleAccounts.Served sampleFetcher ∧
      state.fees = ⟨20, 5, 60⟩ ∧ effectiveFeeBasisPoints params = ⟨2, 93, 30⟩ ∧
      Route.pumpSwapOut state.toCachedPumpSwapState true 1000000000 = .ok 23618327 ∧
      paramsOut params true 1000000000 = .ok 23529411 := by
  obtain ⟨state, hstate, hquote⟩ := sample_cached
  obtain ⟨params, hparams, hquote'⟩ := sample_params
  rw [Prod.mk.injEq] at hquote hquote'
  exact ⟨state, params, hstate, hparams, sample_held, sample_served, hquote.1, hquote'.1,
    hquote.2, hquote'.2⟩

/-- There the rates of the native quote do not apply. -/
theorem preparations_agree_iff_sample :
    ∃ state params, cachedPumpswap sampleFind sampleSystem sampleSnapshot sampleHint
        sampleContext = .ok state ∧
      paramsFromPoolData sampleFind sampleFetcher sampleHint.pool sampleAccounts.pool =
        .ok params ∧
      ((effectiveFeeBasisPoints params = state.fees ∧ ∀ quoteIn amount,
        paramsOut params quoteIn amount =
          Route.pumpSwapOut state.toCachedPumpSwapState quoteIn amount) ↔
        sampleAccounts.NativeRatesApply sampleFind) ∧
      ¬ sampleAccounts.NativeRatesApply sampleFind := by
  obtain ⟨state, hstate, hquote⟩ := sample_cached
  obtain ⟨params, hparams, hquote'⟩ := sample_params
  rw [Prod.mk.injEq] at hquote hquote'
  have hiff := preparations_agree_iff hstate hparams sample_held sample_served
  refine ⟨state, params, hstate, hparams, hiff, fun happly => ?_⟩
  have hsame := (hiff.2 happly).1
  rw [hquote.1, hquote'.1] at hsame
  exact absurd hsame (by decide)

end Sample

end SolTrade.PumpSwap
