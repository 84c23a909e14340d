import Mcoz.Lib.Machine
import Mcoz.Lib.Ledger
import Mcoz.Lib.Word
import Mcoz.Lib.Text
import Mcoz.Lib.Utf8
import Mcoz.Lib.Js
import Mcoz.Lib.JsArithmetic
import Mcoz.Lib.Separated
import Mcoz.Lib.Shell
import Mcoz.Lib.ShellQuote
import Mcoz.Lib.Threads
import Mcoz.Lib.Tally
import Mcoz.Lib.Attempt
import Mcoz.Lib.Walk
import Mcoz.Lib.KeyedMap
import Mcoz.Lib.Rotation
import Mcoz.Lib.Link
import Mcoz.Lib.Ranking
import Mcoz.Lib.SortUnique
import Mcoz.Lib.Stock
import Mcoz.Lib.Wildcards
import Mcoz.Lib.Dict
import Mcoz.Lib.Instants
import Mcoz.Lib.PairSums
import Mcoz.Lib.Components
import Mcoz.Lib.Ring
import Mcoz.Lib.LittleEndian
import Mcoz.Lib.Meter
import Mcoz.Lib.Expiring
import Mcoz.Lib.Best
import Mcoz.Engine.SlotTable
import Mcoz.Engine.WellFormed
import Mcoz.Engine.State
import Mcoz.Engine.Step
import Mcoz.Engine.Accounts
import Mcoz.Engine.Effect
import Mcoz.Engine.Invariant
import Mcoz.Engine.Conservation
import Mcoz.Engine.Drain
import Mcoz.Engine.Stale
import Mcoz.Engine.Fresh
import Mcoz.Engine.Processors
import Mcoz.Engine.RoundRobin
import Mcoz.Engine.Arming
import Mcoz.Engine.Histogram
import Mcoz.Engine.SyscallProfile
import Mcoz.Engine.Status
import Mcoz.Engine.Names
import Mcoz.Engine.Hooks
import Mcoz.Profiler.Delay
import Mcoz.Profiler.Block
import Mcoz.Profiler.StaticMap
import Mcoz.Profiler.ThreadTable
import Mcoz.Profiler.Probing
import Mcoz.Profiler.Samplable
import Mcoz.Profiler.Shutdown
import Mcoz.Profiler.Log
import Mcoz.Profiler.Samples
import Mcoz.Profiler.SignalMask
import Mcoz.Profiler.Runtime
import Mcoz.Profiler.Progress
import Mcoz.Profiler.Plan
import Mcoz.Profiler.Interpose
import Mcoz.Profiler.Launch
import Mcoz.Perf.RingBuffer
import Mcoz.Perf.SampleFields
import Mcoz.Sampler.OneShot
import Mcoz.Sampler.SkippedHit
import Mcoz.Sampler.Accounting
import Mcoz.Sampler.DelayNet
import Mcoz.PyGate.State
import Mcoz.PyGate.Program
import Mcoz.PyGate.Composition
import Mcoz.PyGate.Tokens
import Mcoz.PyGate.Credits
import Mcoz.PyGate.Triggers
import Mcoz.PyGate.Balance
import Mcoz.PyGate.RefillNeed
import Mcoz.GoGate.State
import Mcoz.GoGate.Program
import Mcoz.GoGate.Accounting
import Mcoz.GoGate.RefillCredits
import Mcoz.GoGate.Balance
import Mcoz.Daemon.Http
import Mcoz.Daemon.Arm
import Mcoz.Daemon.ArmCredits
import Mcoz.Daemon.BodyDelimiting
import Mcoz.Daemon.CommandLine
import Mcoz.Daemon.ContainerId
import Mcoz.Daemon.ContainerSelection
import Mcoz.Daemon.Finder
import Mcoz.Engine.Targets
import Mcoz.Control.LocalArm
import Mcoz.Control.Delivery
import Mcoz.Control.Decoding
import Mcoz.Control.Routing
import Mcoz.Control.Reading
import Mcoz.Transport.World
import Mcoz.Transport.Invariant
import Mcoz.Transport.Agreement
import Mcoz.Transport.Truncation
import Mcoz.Transport.Datagram
import Mcoz.Cluster.ConsumePolicy
import Mcoz.Cluster.Forwarding
import Mcoz.Cluster.GlobalDelay
import Mcoz.Inspect.Scope
import Mcoz.Inspect.Resolution
import Mcoz.Inspect.Ranges
import Mcoz.Inspect.Dies
import Mcoz.Inspect.LineMap
import Mcoz.Inspect.LineSequences
import Mcoz.Inspect.CallSites
import Mcoz.Inspect.Attribution
import Mcoz.Inspect.KeyOrder
import Mcoz.Inspect.Wildcard
import Mcoz.Thrift.Method
import Mcoz.Thrift.Framing
import Mcoz.Thrift.Replies
import Mcoz.Viewer.Profile
import Mcoz.Viewer.RoundTrip
import Mcoz.Viewer.Labels
import Mcoz.Viewer.Measurements
import Mcoz.Viewer.Aggregation
import Mcoz.Viewer.EndToEnd
import Mcoz.Viewer.Speedups
import Mcoz.Analyzer.Spans
import Mcoz.Analyzer.Merging
import Mcoz.Analyzer.Sweep
import Mcoz.Analyzer.Downstream
import Mcoz.Analyzer.Siblings
import Mcoz.Analyzer.Durations
import Mcoz.Analyzer.SiblingRelation
import Mcoz.Analyzer.OverlapRatio
import Mcoz.Analyzer.SiblingSets
import Mcoz.Analyzer.Trace
import Mcoz.Analyzer.Fanout
import Mcoz.Control.SiblingSet
import Mcoz.Control.SiblingIds
import Mcoz.Inspect.Build
import Mcoz.Cluster.OptimisticUpdate
import Mcoz.Daemon.OtherPods
import Mcoz.Daemon.VictimPids
