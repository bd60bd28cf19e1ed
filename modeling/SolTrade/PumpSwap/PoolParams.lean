import SolTrade.ProgramAddress
import SolTrade.PumpSwap.FeeConfig
import SolTrade.Token.MintState

/-!
The parameters of a PumpSwap trade, read from a node.

The pool is decoded already; its balances, the supply of its base mint and the fee
schedule are fetched.
-/

namespace SolTrade.PumpSwap

open Library
open Route (PumpSwapFeeBasisPoints RouteError effectiveQuoteReserves tokenProgram
  pumpFunProgram pumpSwapProgram buyQuoteInputInternalWithFees
  sellBaseInputInternalWithFees)
open Token (token2022Program)

def feeProgram : Pubkey := .ofNat 0x0c35ffa9055a8e568da8f7bc075615274cf1c92ca41f40009c516aa414c27c70
def feeConfigAddress : Pubkey :=
  .ofNat 0x41246ecc7d78fe81e41773a46965419937923a07644797df6f3eb514426010cb
def defaultCoinCreatorVaultAuthority : Pubkey :=
  .ofNat 0x6d659043baa52a181b5844239e8d542d1fdedcd681ce7e71d07529dac96e26ad

example : [feeProgram, feeConfigAddress, defaultCoinCreatorVaultAuthority].map base58Text =
    ["pfeeUxB6jkeY1Hxd7CsFCAjcbHA9rWtchMGdZ6VojVZ",
      "5PHirr8joyTMp9JMm6nW7hNDVyEYdkzDqazxPD7RaTjx",
      "8N3GDaZ2iwN65oxVatKTLPNooAVUJTbfiVJ1ahyqwjSk"] := by
  decide +kernel

/-! ### Derived addresses -/

section Addresses

variable (find : ProgramAddress)

def pumpPoolAuthorityPda (mint : Pubkey) : Pubkey :=
  (find [seed "pool-authority", mint.toList] pumpFunProgram).1

def coinCreatorVaultAuthority (coinCreator : Pubkey) : Pubkey :=
  (find [seed "creator_vault", coinCreator.toList] pumpSwapProgram).1

def coinCreatorVaultAta (coinCreator quoteMint quoteTokenProgram : Pubkey) : Pubkey :=
  associatedTokenAddress find (coinCreatorVaultAuthority find coinCreator) quoteMint
    quoteTokenProgram

end Addresses

/-! ### Parameters -/

structure PumpSwapParams where
  pool : Pubkey
  baseMint : Pubkey
  quoteMint : Pubkey
  poolBaseTokenAccount : Pubkey
  poolQuoteTokenAccount : Pubkey
  poolBaseTokenReserves : ℤ
  poolQuoteTokenReserves : ℤ
  virtualQuoteReserves : ℤ
  coinCreatorVaultAta : Pubkey
  coinCreatorVaultAuthority : Pubkey
  baseTokenProgram : Pubkey
  quoteTokenProgram : Pubkey
  isMayhemMode : Bool := false
  isCashbackCoin : Bool := false
  coinCreator : Option Pubkey := none
  cashbackFeeBasisPoints : ℤ := 0
  feeBasisPoints : Option PumpSwapFeeBasisPoints := none
  poolCreator : Option Pubkey := none
  baseMintSupply : Option ℤ := none
  deriving DecidableEq

/-- What a node answers: the bytes of an account, and the balance of a token account. -/
structure PoolFetcher where
  getAccountInfo : Pubkey → Option (List UInt8)
  getTokenAccountBalance : Pubkey → Option ℤ

section Params

variable (find : ProgramAddress) (fetcher : PoolFetcher)

def getTokenBalances (pool : PumpSwapPool) : Option (ℤ × ℤ) := do
  let base ← fetcher.getTokenAccountBalance pool.poolBaseTokenAccount
  let quote ← fetcher.getTokenAccountBalance pool.poolQuoteTokenAccount
  return (base, quote)

def fetchFeeConfig : Option PumpSwapFeeConfig :=
  (fetcher.getAccountInfo feeConfigAddress).bind decodeFeeConfig

/-- The rates of the parameters. The schedule is asked without the quote of the pool. -/
def selectedFees (pool : PumpSwapPool) (feeBasisPoints : Option PumpSwapFeeBasisPoints)
    (baseMintSupply : Option ℤ) (baseBalance effectiveQuoteBalance : ℤ) :
    PumpSwapFeeBasisPoints :=
  let effective :=
    match feeBasisPoints with
    | some fees => fees
    | none => computePumpswapFeeBasisPoints (pumpPoolAuthorityPda find) (fetchFeeConfig fetcher)
        pool.creator pool.baseMint baseMintSupply baseBalance effectiveQuoteBalance
  { effective with
    coinCreatorFeeBasisPoints :=
      if pool.coinCreator = .default then 0 else effective.coinCreatorFeeBasisPoints }

def paramsFromPoolData (poolAddress : Pubkey) (pool : PumpSwapPool)
    (feeBasisPoints : Option PumpSwapFeeBasisPoints := none) (cashbackFeeBasisPoints : ℤ := 0) :
    Except RouteError PumpSwapParams :=
  match getTokenBalances fetcher pool with
  | none => .error (.unreadable "Failed to read pool token balances")
  | some (baseBalance, quoteBalance) => do
      let effectiveQuoteBalance ← effectiveQuoteReserves quoteBalance pool.virtualQuoteReserves
      let programOf (account mint : Pubkey) :=
        if account = associatedTokenAddress find poolAddress mint tokenProgram then tokenProgram
        else token2022Program
      let quoteTokenProgram := programOf pool.poolQuoteTokenAccount pool.quoteMint
      let baseMintSupply : Option ℤ :=
        ((fetcher.getAccountInfo pool.baseMint).bind decodeMintSupply).map (↑)
      let fees := selectedFees find fetcher pool feeBasisPoints baseMintSupply baseBalance
        effectiveQuoteBalance
      return {
        pool := poolAddress
        baseMint := pool.baseMint
        quoteMint := pool.quoteMint
        poolBaseTokenAccount := pool.poolBaseTokenAccount
        poolQuoteTokenAccount := pool.poolQuoteTokenAccount
        poolBaseTokenReserves := baseBalance
        poolQuoteTokenReserves := quoteBalance
        virtualQuoteReserves := pool.virtualQuoteReserves
        coinCreatorVaultAta :=
          coinCreatorVaultAta find pool.coinCreator pool.quoteMint quoteTokenProgram
        coinCreatorVaultAuthority := coinCreatorVaultAuthority find pool.coinCreator
        baseTokenProgram := programOf pool.poolBaseTokenAccount pool.baseMint
        quoteTokenProgram := quoteTokenProgram
        isMayhemMode := pool.isMayhemMode
        isCashbackCoin := pool.isCashbackCoin
        coinCreator := some pool.coinCreator
        cashbackFeeBasisPoints := cashbackFeeBasisPoints
        feeBasisPoints := some fees
        poolCreator := some pool.creator
        baseMintSupply := baseMintSupply }

end Params

/-! ### Quoting -/

def effectiveFeeBasisPoints (pp : PumpSwapParams) : PumpSwapFeeBasisPoints :=
  let hasCoinCreator : Bool :=
    match pp.coinCreator with
    | some creator => creator ≠ .default
    | none => pp.coinCreatorVaultAuthority ≠ defaultCoinCreatorVaultAuthority
  let base := pp.feeBasisPoints.getD (legacyFeeBasisPoints hasCoinCreator)
  ⟨base.lpFeeBasisPoints, base.protocolFeeBasisPoints,
    (if hasCoinCreator then base.coinCreatorFeeBasisPoints else 0) + pp.cashbackFeeBasisPoints⟩

/-- What the builders quote from the parameters, before slippage. -/
def paramsOut (pp : PumpSwapParams) (quoteIn : Bool) (amount : ℤ) : Except RouteError ℤ :=
  if quoteIn then do
    let result ← buyQuoteInputInternalWithFees amount 0 pp.poolBaseTokenReserves
      pp.poolQuoteTokenReserves pp.virtualQuoteReserves (effectiveFeeBasisPoints pp)
    return result.base
  else do
    let result ← sellBaseInputInternalWithFees amount 0 pp.poolBaseTokenReserves
      pp.poolQuoteTokenReserves pp.virtualQuoteReserves (effectiveFeeBasisPoints pp)
    return result.uiQuote

end SolTrade.PumpSwap
