import WasmRuntime.ByteCodec
import WasmRuntime.Exec
import WasmRuntime.Crate
import WasmRuntime.Journal
import WasmRuntime.CheckpointMetadata
import WasmRuntime.CheckpointCodec
import WasmRuntime.CheckpointReader
import WasmRuntime.CheckpointSeal
import WasmRuntime.ByteSink
import WasmRuntime.StreamingSeal
import WasmRuntime.CheckpointLimits
import WasmRuntime.FileSystem
import WasmRuntime.DiskCache
import WasmRuntime.DiskCacheFaults
import WasmRuntime.DiskCachePublishers
import WasmRuntime.MemoryCache
import WasmRuntime.Prepare
import WasmRuntime.TierTransparency
import WasmRuntime.ConcurrentPrepare
import WasmRuntime.Monitor
import WasmRuntime.SortDedup
import WasmRuntime.ProfileDetection
import WasmRuntime.WorkerProtocol
import WasmRuntime.WorkerIsolation
import WasmRuntime.WorkerFrames
import WasmRuntime.WorkerTranscript
import WasmRuntime.WorkerDiagnostics
import WasmRuntime.WorkerParent
import WasmRuntime.ParentFailClosed
import WasmRuntime.WorkerChild
import WasmRuntime.Meeting
import WasmRuntime.SealedInput
import WasmRuntime.MemoryCacheRuns
import WasmRuntime.MemoryCacheLru
import WasmRuntime.WarmCover
import WasmRuntime.Tokens
import WasmRuntime.PauseTime
import WasmRuntime.Tasks
import WasmRuntime.TokenThreads
import WasmRuntime.TokenRuns
import WasmRuntime.Lifecycle
import WasmRuntime.Invoke
import WasmRuntime.Interruptions
import WasmRuntime.EvictionContainment
import WasmRuntime.Accounts
import WasmRuntime.Budget
import WasmRuntime.HttpBody
import WasmRuntime.HttpService
import WasmRuntime.Admission
import WasmRuntime.HttpWorkers
import WasmRuntime.ResponseBody
import WasmRuntime.BodyLimits
import WasmRuntime.ResponseRuns
import WasmRuntime.OutboundHttp
import WasmRuntime.MemoryCacheClock
import WasmRuntime.SingleFlight
import WasmRuntime.DiskCacheOrigin
import WasmRuntime.TagPreimage
import WasmRuntime.Environment
import WasmRuntime.Segments
import WasmRuntime.GuestPaths
import WasmRuntime.ManifestRoundTrip
import WasmRuntime.CaptureJournal
import WasmRuntime.SealedReads
import WasmRuntime.WorkerContainment
import WasmRuntime.WasixOutput
import WasmRuntime.ControlAgreement
import WasmRuntime.NameTree
import WasmRuntime.PinnedExecutable
import WasmRuntime.WorkerBirth
