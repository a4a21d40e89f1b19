import EbpfStudio.Protocol.RollingWindow
import EbpfStudio.Protocol.Latencies
import EbpfStudio.Protocol.QueueDepth
import EbpfStudio.Protocol.Gaps
import EbpfStudio.Protocol.PipelineView
import EbpfStudio.Protocol.OriginConfidence
import EbpfStudio.Protocol.InferredPaths
import EbpfStudio.Protocol.Explanations
import EbpfStudio.Protocol.Eviction
import EbpfStudio.Protocol.WindowedReplay
import EbpfStudio.Desktop.BusyIntervals
import EbpfStudio.Desktop.IssueDepth
import EbpfStudio.Desktop.Recognition
import EbpfStudio.Protocol.Cadence
import EbpfStudio.Kernel.FilterCapacity
import EbpfStudio.Kernel.Reissue
import EbpfStudio.Kernel.Fallback
import EbpfStudio.Kernel.FileOrigins
import EbpfStudio.Kernel.RawCompletion
import EbpfStudio.Desktop.LiveControl
import EbpfStudio.Agent.TriggerWindows
import EbpfStudio.Agent.Remapping
import EbpfStudio.Agent.ExtentExpiry
import EbpfStudio.Agent.PreWindow
import EbpfStudio.Agent.LiveRanking
import EbpfStudio.Agent.FileLayout
import EbpfStudio.Agent.ProbeHealth
import EbpfStudio.Desktop.Artifacts
import EbpfStudio.Protocol.ChunkedReading
import EbpfStudio.Desktop.SessionDamage
import EbpfStudio.Desktop.LiveStream
import EbpfStudio.Protocol.FilePathCoverage
import EbpfStudio.Protocol.Filtering
import EbpfStudio.Protocol.LivePercentiles
import EbpfStudio.Desktop.RootShell
import EbpfStudio.Desktop.LogBudget
import EbpfStudio.Desktop.Sampling
import EbpfStudio.Desktop.ActivitySeries
import EbpfStudio.Desktop.WireFields
import EbpfStudio.Desktop.LatencyRange
