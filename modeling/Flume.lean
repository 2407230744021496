import Flume.Lib.Runs
import Flume.Lib.Fairness
import Flume.Lib.Segments
import Flume.Lib.AlignedMerge
import Flume.Lib.Channel
import Flume.Lib.Queue
import Flume.Lib.RoundRobin
import Flume.Lib.Packing
import Flume.Lib.Entries
import Flume.Lib.Fallible
import Flume.Lib.Framing
import Flume.Lib.GroupBy
import Flume.Lib.SortedMap
import Flume.Lib.SortedSet
import Flume.Lib.PairJoin
import Flume.Lib.Emitter
import Flume.Lib.Cuts
import Flume.Lib.Acyclic
import Flume.Lib.Cursor
import Flume.Lib.Utf8
import Flume.Lib.Lines
import Flume.Lib.SipHash
import Flume.Core.Record
import Flume.Core.Operator
import Flume.Core.Window
import Flume.Core.WindowSliding
import Flume.Core.WindowOperator
import Flume.Core.WindowHistory
import Flume.Core.Windowed
import Flume.Core.WindowTracking
import Flume.Core.WindowBatch
import Flume.Core.WindowJoin
import Flume.Core.WindowFiring
import Flume.Core.WindowPromise
import Flume.Core.WindowAgree
import Flume.Core.WindowArithmetic
import Flume.Core.WindowTrigger
import Flume.Core.IntervalJoin
import Flume.Core.IntervalMatches
import Flume.Core.Timer
import Flume.Core.Process
import Flume.Core.ProcessTurns
import Flume.Core.ProcessLog
import Flume.Core.ProcessTimers
import Flume.Core.ProcessBatch
import Flume.Core.CollectorCalls
import Flume.Core.JoinCalls
import Flume.Core.WindowCalls
import Flume.Network.Collector
import Flume.Network.Input
import Flume.Network.RoundTrip
import Flume.Network.Decoding
import Flume.Network.Exchange
import Flume.Network.ExchangeStart
import Flume.Network.CreditBalance
import Flume.Network.PartialBatch
import Flume.Network.Retry
import Flume.Network.ExchangeDelivery
import Flume.Network.SlotManager
import Flume.Network.SlotBookkeeping
import Flume.State.Memory
import Flume.State.ByteStates
import Flume.State.Handles
import Flume.State.Keyed
import Flume.State.Rollback
import Flume.State.FreshRestore
import Flume.State.Atomicity
import Flume.Runtime.Dag
import Flume.Runtime.TopologicalOrder
import Flume.Runtime.Physical
import Flume.Runtime.Placement
import Flume.Runtime.ScheduleOutcome
import Flume.Runtime.Spread
import Flume.Runtime.Pack
import Flume.Runtime.Partition
import Flume.Runtime.ScheduleSafety
import Flume.Runtime.Aligner
import Flume.Runtime.AlignerProgress
import Flume.Runtime.AlignerCut
import Flume.Runtime.AlignerLoss
import Flume.Runtime.AlignerOrder
import Flume.Runtime.Merge
import Flume.Runtime.MergeAlign
import Flume.Runtime.Watermark
import Flume.Runtime.MergeWatermark
import Flume.Runtime.MergeReach
import Flume.Runtime.MergeAligned
import Flume.Runtime.RingBuffer
import Flume.Runtime.RingWakeup
import Flume.Runtime.RingQueue
import Flume.Runtime.RingRefinement
import Flume.Runtime.RingReturns
import Flume.Runtime.Task
import Flume.Runtime.Store
import Flume.Runtime.Retention
import Flume.Runtime.Coordinator
import Flume.Runtime.CoordinatorCommit
import Flume.Runtime.Recovery
import Flume.Runtime.CoordinatorAcks
import Flume.Runtime.Newest
import Flume.Network.ResourceManager
import Flume.Network.SlotUsage
import Flume.Server.TaskManager
import Flume.Server.JobManager
import Flume.Server.Cluster
import Flume.Server.JobServer
import Flume.Server.JobReaper
import Flume.Server.ReaperAgree
import Flume.Server.JobLifecycle
import Flume.Api.Pipeline
import Flume.Api.PipelineInvariant
import Flume.Api.PipelineComplete
import Flume.Connector.LineSink
import Flume.Api.SinkFlush
import Flume.Api.Backpressure
import Flume.Api.StreamGraph
import Flume.Api.StreamGraphInvariant
import Flume.Api.StreamGraphComplete
import Flume.Api.StreamGraphProgress
import Flume.Api.StreamGraphTermination
import Flume.Api.StreamGraphSuccess
import Flume.Api.ConnectedJoins
import Flume.Api.KeyBy
import Flume.Api.KeyedChain
import Flume.Api.BarrierForwarding
import Flume.Api.StreamGraphCut
import Flume.Api.WindowedStream
import Flume.Connector.LineSource
import Flume.Connector.FileSource
import Flume.Connector.LineFraming
import Flume.Connector.Kafka
