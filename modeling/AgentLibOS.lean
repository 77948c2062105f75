import AgentLibOS.Capability.Conservation
import AgentLibOS.Capability.CoverageSoundness
import AgentLibOS.Capability.DelegatedApproval
import AgentLibOS.Capability.Finality
import AgentLibOS.Capability.Overlap
import AgentLibOS.Capability.AuthorityRuns
import AgentLibOS.Capability.ShellClassification
import AgentLibOS.DataFlow.Aggregators
import AgentLibOS.DataFlow.Clearance
import AgentLibOS.DataFlow.FileAccumulation
import AgentLibOS.DataFlow.SinkResolution
import AgentLibOS.DataFlow.TreeSnapshot
import AgentLibOS.Effects.Erasure
import AgentLibOS.Manifests.Chains
import AgentLibOS.Mcp.ContinuationRuns
import AgentLibOS.Mcp.OwnerLatch
import AgentLibOS.Mcp.SubscriptionDelivery
import AgentLibOS.Memory.Propagation
import AgentLibOS.Messages.Wakeup
import AgentLibOS.Processes.Fencing
import AgentLibOS.Processes.WaitCodec
import AgentLibOS.Resources.BudgetRuns
import AgentLibOS.Resources.Committed
import AgentLibOS.Resources.Remaining
import AgentLibOS.Resources.Settlement
import AgentLibOS.Semantic.ControlRuns
import AgentLibOS.Semantic.RolloutSoundness
import AgentLibOS.Semantic.RateBudgetRuns
import AgentLibOS.Storage.PayloadRuns
import AgentLibOS.TaskRuns.Idempotence
import AgentLibOS.Publications.DeliveryRuns
import AgentLibOS.Evidence.Lifecycle
import AgentLibOS.Semantic.FlowGraph
import AgentLibOS.Library.CycleCheck
import AgentLibOS.Semantic.FlowLabels
import AgentLibOS.Semantic.Lineage
import AgentLibOS.Semantic.LineageScan
import AgentLibOS.Semantic.LineageCoverage
import AgentLibOS.Snapshots.Rows
import AgentLibOS.Snapshots.ProcessState
import AgentLibOS.Snapshots.Remap
import AgentLibOS.Snapshots.Snapshot
import AgentLibOS.Snapshots.References
import AgentLibOS.Snapshots.Documents
import AgentLibOS.Snapshots.RowFrame
import AgentLibOS.Snapshots.SnapshotFrame
import AgentLibOS.Schemas.Tree
import AgentLibOS.Schemas.Narrowing
import AgentLibOS.Redaction.ProviderJson
import AgentLibOS.Library.Framing
import AgentLibOS.Identity.HostStream
import AgentLibOS.Responses.WireStability
import AgentLibOS.Library.Pairing
import AgentLibOS.Responses.ReplayClosure
import AgentLibOS.Library.JsonText
import AgentLibOS.Serde.NestingDepth
import AgentLibOS.Serde.BoundedJson
import AgentLibOS.Library.JsonWriter
import AgentLibOS.Library.JsonOrder
import AgentLibOS.Processes.StateCodec
import AgentLibOS.Processes.StateCodecExact
import AgentLibOS.Library.Base64
import AgentLibOS.Storage.HumanCursor
import AgentLibOS.Storage.HumanPages
import AgentLibOS.Storage.HumanPaging
import AgentLibOS.Library.Marks
import AgentLibOS.Redaction.OrderFree
import AgentLibOS.Library.Climb
import AgentLibOS.Library.JsonMeasure
import AgentLibOS.Llm.ContextText
import AgentLibOS.Llm.Compaction
import AgentLibOS.Llm.CompactionFit
import AgentLibOS.Library.KeyedDelta
import AgentLibOS.Llm.EventProjection
import AgentLibOS.Library.Counter
import AgentLibOS.Llm.EventAccounting
import AgentLibOS.Llm.PromptDeltas
import AgentLibOS.Llm.DeltaReplay
import AgentLibOS.Library.Assoc
import AgentLibOS.Llm.DeltaCoverage
import AgentLibOS.ObjectTasks.Recovery
