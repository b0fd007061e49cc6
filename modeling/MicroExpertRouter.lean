import MicroExpertRouter.Arena.ModelPlanning
import MicroExpertRouter.Arena.PhysicalWrites
import MicroExpertRouter.Arena.Uploads
import MicroExpertRouter.Attention.Decode
import MicroExpertRouter.Attention.Zeroization
import MicroExpertRouter.Breakers.Protocol
import MicroExpertRouter.ColdStart.Offsets
import MicroExpertRouter.Converter.RoundTrip
import MicroExpertRouter.Dense.Soundness
import MicroExpertRouter.DenseTensor.Readers
import MicroExpertRouter.DenseTensor.Selection
import MicroExpertRouter.DenseWeights.Planning
import MicroExpertRouter.Experts.DirectExecution
import MicroExpertRouter.Fetch.Progress
import MicroExpertRouter.Gating.Selection
import MicroExpertRouter.Generation.Conversations
import MicroExpertRouter.Generation.Speculation
import MicroExpertRouter.Gguf.ShardSets
import MicroExpertRouter.Gguf.Sizes
import MicroExpertRouter.Gguf.Sources
import MicroExpertRouter.Gguf.Stream
import MicroExpertRouter.GpuCache.DemandTransactions
import MicroExpertRouter.GpuCache.Promotions
import MicroExpertRouter.IoUring.Guarantees
import MicroExpertRouter.Oracle.Belady
import MicroExpertRouter.Oracle.Reconciliation
import MicroExpertRouter.Oracle.RouteBytes
import MicroExpertRouter.Packed.Exactness
import MicroExpertRouter.Packed.Replacement
import MicroExpertRouter.Packed.Validation
import MicroExpertRouter.PagedKv.Isolation
import MicroExpertRouter.Parallel.RowChunks
import MicroExpertRouter.PhysicalRegistry.Accounting
import MicroExpertRouter.Predictor.Prediction
import MicroExpertRouter.Quant.Agreement
import MicroExpertRouter.RamCache.Interleavings
import MicroExpertRouter.RamCache.Sequential
import MicroExpertRouter.RateLimit.Budget
import MicroExpertRouter.Residency.OracleRuns
import MicroExpertRouter.Rope.Agreement
import MicroExpertRouter.Routing.Freshness
import MicroExpertRouter.Rpc.HalfFloat
import MicroExpertRouter.Rpc.Responses
import MicroExpertRouter.Scheduler.Requests
import MicroExpertRouter.Scheduler.Shares
import MicroExpertRouter.Session.Custody
import MicroExpertRouter.Storage.HeaderRoundTrips
import MicroExpertRouter.TokenLoop.Progress
import MicroExpertRouter.TokenLoop.Transparency
import MicroExpertRouter.Tokenizer.Streaming
