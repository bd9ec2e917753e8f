import HermesPipeline.AllOrNothing
import HermesPipeline.ApprovalRows
import HermesPipeline.Authoring
import HermesPipeline.BridgeProcess
import HermesPipeline.BridgeRuns
import HermesPipeline.BridgeSession
import HermesPipeline.CalmRuns
import HermesPipeline.Capability
import HermesPipeline.CapabilityPaths
import HermesPipeline.ChildEnvironment
import HermesPipeline.CodexOutcome
import HermesPipeline.ConcurrentSubmit
import HermesPipeline.ConditionalContracts
import HermesPipeline.Contracts
import HermesPipeline.DateTimes
import HermesPipeline.DeliveredHead
import HermesPipeline.Delivery
import HermesPipeline.DeliveryKeys
import HermesPipeline.DeliveryRuns
import HermesPipeline.DerivedIds
import HermesPipeline.DescendantScan
import HermesPipeline.Descriptor
import HermesPipeline.DescriptorValidators
import HermesPipeline.Development
import HermesPipeline.Domain
import HermesPipeline.EventChain
import HermesPipeline.EventDecoding
import HermesPipeline.EventSourcing
import HermesPipeline.ExactlyOnce
import HermesPipeline.FailedStarts
import HermesPipeline.FirstSession
import HermesPipeline.GraphRun
import HermesPipeline.GraphSpike
import HermesPipeline.HostArguments
import HermesPipeline.HostAuthorization
import HermesPipeline.HostGates
import HermesPipeline.HostPublish
import HermesPipeline.ImportRules
import HermesPipeline.InlinedDefs
import HermesPipeline.IntakeRuns
import HermesPipeline.KernelBridge
import HermesPipeline.KernelBridgeEffects
import HermesPipeline.KernelController
import HermesPipeline.KernelDump
import HermesPipeline.KernelLease
import HermesPipeline.KernelMemory
import HermesPipeline.KernelMemoryEffects
import HermesPipeline.KernelMigrations
import HermesPipeline.KernelSession
import HermesPipeline.KernelSqlite
import HermesPipeline.KernelSqliteEffects
import HermesPipeline.KernelSubmit
import HermesPipeline.LeaseAtomicity
import HermesPipeline.LeaseFencing
import HermesPipeline.LeaseRelease
import HermesPipeline.Lib.AsciiText
import HermesPipeline.Lib.Chains
import HermesPipeline.Lib.Exclusive
import HermesPipeline.Lib.FileTree
import HermesPipeline.Lib.Framing
import HermesPipeline.Lib.Git
import HermesPipeline.Lib.HashChain
import HermesPipeline.Lib.Json
import HermesPipeline.Lib.JsonPointer
import HermesPipeline.Lib.JsonSchema
import HermesPipeline.Lib.JsonText
import HermesPipeline.Lib.Keyed
import HermesPipeline.Lib.Latest
import HermesPipeline.Lib.Lexical
import HermesPipeline.Lib.Lines
import HermesPipeline.Lib.Machine
import HermesPipeline.Lib.Marker
import HermesPipeline.Lib.Masking
import HermesPipeline.Lib.Monitor
import HermesPipeline.Lib.Pieces
import HermesPipeline.Lib.Pool
import HermesPipeline.Lib.Program
import HermesPipeline.Lib.PyInt
import HermesPipeline.Lib.PyText
import HermesPipeline.Lib.RawSchema
import HermesPipeline.Lib.Regex
import HermesPipeline.Lib.Strip
import HermesPipeline.Lib.Substitution
import HermesPipeline.Lib.Unwinding
import HermesPipeline.LocalCas
import HermesPipeline.LoopbackClient
import HermesPipeline.LoopbackProtocol
import HermesPipeline.McpFraming
import HermesPipeline.McpSession
import HermesPipeline.NetworkHosts
import HermesPipeline.NormalizedMeaning
import HermesPipeline.NormalizedSchema
import HermesPipeline.OneExecutor
import HermesPipeline.Operations
import HermesPipeline.OutboxLedger
import HermesPipeline.PointerResolution
import HermesPipeline.ProcessIdentity
import HermesPipeline.Prompts
import HermesPipeline.RateBound
import HermesPipeline.RawCommand
import HermesPipeline.ReceiptStore
import HermesPipeline.RecordLog
import HermesPipeline.Redaction
import HermesPipeline.ReferenceCodec
import HermesPipeline.RegistryRoundTrip
import HermesPipeline.RelativePaths
import HermesPipeline.RenderJson
import HermesPipeline.RenderedDiagnostics
import HermesPipeline.ReportedOutput
import HermesPipeline.Republication
import HermesPipeline.RequestRuns
import HermesPipeline.ResolvedPaths
import HermesPipeline.RetryAttempt
import HermesPipeline.RuntimeStart
import HermesPipeline.SavedFiles
import HermesPipeline.ScalarBoundaries
import HermesPipeline.SecondAttempts
import HermesPipeline.SessionMoves
import HermesPipeline.SpikeController
import HermesPipeline.SpikeLeases
import HermesPipeline.SpikeMemory
import HermesPipeline.SpikeSqlite
import HermesPipeline.StageLeases
import HermesPipeline.StageProjection
import HermesPipeline.StageRuns
import HermesPipeline.StageSchedule
import HermesPipeline.StageWorker
import HermesPipeline.StaleWorkers
import HermesPipeline.StateGuard
import HermesPipeline.StateLayout
import HermesPipeline.StationLog
import HermesPipeline.StationRecords
import HermesPipeline.StoreRefinement
import HermesPipeline.SubmitAnswers
import HermesPipeline.TransactionStore
import HermesPipeline.TreeFingerprints
import HermesPipeline.UnauthorisedRequests
import HermesPipeline.VerifyFlow
import HermesPipeline.WorkspaceIsolation
