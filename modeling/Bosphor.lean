import Bosphor.Codec.Agreement
import Bosphor.CrossChain.BlobIds
import Bosphor.CrossChain.Ids
import Bosphor.CrossChain.Refund
import Bosphor.CrossChain.Release
import Bosphor.CrossChain.SolanaLayouts
import Bosphor.Evm.BosphorAdapter
import Bosphor.Lib.Footprint
import Bosphor.Lib.NewestFirst
import Bosphor.Lib.RelativeError
import Bosphor.Lib.Retry
import Bosphor.Lib.SharedFlight
import Bosphor.Lib.Text
import Bosphor.Relayer.AppId
import Bosphor.Relayer.Attribution
import Bosphor.Relayer.CheckpointEvents
import Bosphor.Relayer.CommittedBytes
import Bosphor.Relayer.ConfirmQueue
import Bosphor.Relayer.CrashSafety
import Bosphor.Relayer.EpochRollover
import Bosphor.Relayer.FinalVerdict
import Bosphor.Relayer.FurthestHop
import Bosphor.Relayer.HonestPrices
import Bosphor.Relayer.IngestAnswers
import Bosphor.Relayer.IngestController
import Bosphor.Relayer.Kpi
import Bosphor.Relayer.LandedConfirmations
import Bosphor.Relayer.LedgerWriters
import Bosphor.Relayer.OverlappingTicks
import Bosphor.Relayer.PriceOracle
import Bosphor.Relayer.ProfitAndLoss
import Bosphor.Relayer.PublicFeed
import Bosphor.Relayer.QuoteCovers
import Bosphor.Relayer.RateLimit
import Bosphor.Relayer.RateLimitMiddleware
import Bosphor.Relayer.ReceivedNumbers
import Bosphor.Relayer.RecordHop
import Bosphor.Relayer.ReturnLimit
import Bosphor.Relayer.SingleWriter
import Bosphor.Relayer.SolanaLzFeeCache
import Bosphor.Relayer.StagingCap
import Bosphor.Relayer.StarvedTick
import Bosphor.Relayer.StoreDuration
import Bosphor.Relayer.TerminalRows
import Bosphor.Relayer.UploadGuard
import Bosphor.Relayer.WalCost
import Bosphor.Relayer.WalTopUp
import Bosphor.Scripts.ReturnPacket
import Bosphor.Scripts.ReturnReach
import Bosphor.Scripts.SolanaRpc
import Bosphor.Sdk.AwaitProof
import Bosphor.Sdk.PricedQuote
import Bosphor.Sdk.RelayerBlob
import Bosphor.Sdk.RelayerHttp
import Bosphor.Sdk.SolanaBackend
import Bosphor.Sdk.SolanaProgram
import Bosphor.Sdk.SolanaStored
import Bosphor.Sdk.StoreFlow
import Bosphor.Sdk.Upload
import Bosphor.Sdk.UploadStaged
import Bosphor.Solana.DeliveryPlan
import Bosphor.Sui.Execution
