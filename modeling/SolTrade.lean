import SolTrade.AccountReader
import SolTrade.Builder.Funding
import SolTrade.Builder.PoolBuys
import SolTrade.Builder.PumpFunBuy
import SolTrade.Builder.PumpSwapBuy
import SolTrade.Builder.WrappedInput
import SolTrade.Cache.CacheSize
import SolTrade.Cache.LeastRecentlyUsed
import SolTrade.Cache.LruCache
import SolTrade.Cache.LruSpec
import SolTrade.Calc.LeastInput
import SolTrade.Client.ExecuteTransaction
import SolTrade.Client.LandsOnce
import SolTrade.Client.TradeResult
import SolTrade.Clmm.ExactAmounts
import SolTrade.Clmm.Iteration
import SolTrade.Clmm.Monotone
import SolTrade.Clmm.Progress
import SolTrade.Clmm.Soundness
import SolTrade.Clmm.Swap
import SolTrade.Clmm.SwapStep
import SolTrade.Clmm.TickMath
import SolTrade.Clmm.TwoSteps
import SolTrade.Clmm.Window
import SolTrade.Cpmm.CachedPool
import SolTrade.Cpmm.CollectionFence
import SolTrade.Cpmm.CreatorFee
import SolTrade.Cpmm.ExactIn
import SolTrade.Cpmm.PoolState
import SolTrade.DecoderAgreement
import SolTrade.Dlmm.Bounds
import SolTrade.Dlmm.Fill
import SolTrade.Dlmm.Iteration
import SolTrade.Dlmm.Loaded
import SolTrade.Dlmm.Swap
import SolTrade.Dlmm.Walk
import SolTrade.Float
import SolTrade.HotPath.AccountPrefetch
import SolTrade.Instruction
import SolTrade.LaunchLab.Graduation
import SolTrade.LaunchLab.PoolState
import SolTrade.LaunchLab.TransferFee
import SolTrade.Library.Base58
import SolTrade.Library.Bisection
import SolTrade.Library.BitScale
import SolTrade.Library.BoundedLoop
import SolTrade.Library.CappedFee
import SolTrade.Library.Checked
import SolTrade.Library.ConstantLiquidity
import SolTrade.Library.ConstantProduct
import SolTrade.Library.Direction
import SolTrade.Library.DurableNonce
import SolTrade.Library.FirstMentions
import SolTrade.Library.HeapOrder
import SolTrade.Library.Heapq
import SolTrade.Library.KeyedTable
import SolTrade.Library.LastWriter
import SolTrade.Library.Multigraph
import SolTrade.Library.PathSearch
import SolTrade.Library.PriceTable
import SolTrade.Library.Radix
import SolTrade.Library.RecencyMap
import SolTrade.Library.Rounding
import SolTrade.Library.Runs
import SolTrade.Library.Schedule
import SolTrade.Library.SeparateFees
import SolTrade.Library.SortedSearch
import SolTrade.Library.Tlv
import SolTrade.Library.TokenBucket
import SolTrade.Library.Wire
import SolTrade.Library.Yielding
import SolTrade.Numeric
import SolTrade.Perf.BufferPool
import SolTrade.Perf.ClearedBuffers
import SolTrade.Perf.LockFreeQueue
import SolTrade.Perf.MemoryPool
import SolTrade.Perf.TransactionBuilder
import SolTrade.Pool.ConnectionPool
import SolTrade.Pool.RateLimiter
import SolTrade.ProgramAddress
import SolTrade.Pubkey
import SolTrade.PumpFun.CachedQuote
import SolTrade.PumpFun.CurrentFees
import SolTrade.PumpFun.ExactCurve
import SolTrade.PumpFun.V3Monotone
import SolTrade.PumpFun.V3Quote
import SolTrade.PumpFun.V3Sound
import SolTrade.PumpSwap.CachedPool
import SolTrade.PumpSwap.FeeConfig
import SolTrade.PumpSwap.FeePaths
import SolTrade.PumpSwap.Pool
import SolTrade.PumpSwap.PoolParams
import SolTrade.PumpSwap.Quotes
import SolTrade.Route.ArrayQuotes
import SolTrade.Route.CachedRoute
import SolTrade.Route.CachedTrade
import SolTrade.Route.Execution
import SolTrade.Route.Hint
import SolTrade.Route.Ledger
import SolTrade.Route.NativeSol
import SolTrade.Route.NativeSolSolvency
import SolTrade.Route.NativeSolSound
import SolTrade.Route.PumpFunSettlement
import SolTrade.Route.PumpMultiHop
import SolTrade.Route.PumpRoute
import SolTrade.Route.ReserveQuotes
import SolTrade.Route.RouteSound
import SolTrade.Route.Solvency
import SolTrade.Search.BestTrade
import SolTrade.Search.CandidateRoutes
import SolTrade.Search.Candidates
import SolTrade.Search.ConversionPaths
import SolTrade.Search.Edges
import SolTrade.Search.Selection
import SolTrade.Serialization.Accounts
import SolTrade.Serialization.Base58
import SolTrade.Serialization.Roundtrip
import SolTrade.Serialization.V1
import SolTrade.Subscription.Cache
import SolTrade.Subscription.Closed
import SolTrade.Subscription.Conflict
import SolTrade.Subscription.Convergence
import SolTrade.Subscription.Delivery
import SolTrade.Subscription.Handle
import SolTrade.Subscription.Joined
import SolTrade.Subscription.Readiness
import SolTrade.Subscription.Snapshot
import SolTrade.Subscription.Versions
import SolTrade.Token.HookAccounts
import SolTrade.Token.HookAgreement
import SolTrade.Token.HookPrivileges
import SolTrade.Token.MintState
import SolTrade.Token.SplAccounts
import SolTrade.Trading.CircuitBreaker
import SolTrade.Trading.EndedTransactions
import SolTrade.Trading.Execution
import SolTrade.Trading.GasFeeStrategy
import SolTrade.Trading.HandOuts
import SolTrade.Trading.ParallelExecution
import SolTrade.Trading.PoolMetrics
import SolTrade.Trading.RetryHandler
import SolTrade.Trading.SequentialExecution
import SolTrade.Trading.TradeExecutor
import SolTrade.Trading.TransactionPool
import SolTrade.Trading.Types
import SolTrade.Whirlpool.AdaptiveFee
import SolTrade.Whirlpool.Iteration
import SolTrade.Whirlpool.Monotone
import SolTrade.Whirlpool.Soundness
import SolTrade.Whirlpool.Swap
import SolTrade.Whirlpool.TickArray
import SolTrade.Whirlpool.TickMath
import SolTrade.Whirlpool.Window
