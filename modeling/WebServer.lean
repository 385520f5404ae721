import WebServer.Lib.WeakestPre
import WebServer.Lib.LiberalPre
import WebServer.Lib.Search
import WebServer.Lib.Lines
import WebServer.Lib.TableSum
import WebServer.Lib.Earliest
import WebServer.Lib.TokenBucket
import WebServer.Lib.Recency
import WebServer.Lib.Footprint
import WebServer.Lib.Checks
import WebServer.Lib.TimedSteps
import WebServer.Lib.Records
import WebServer.Lib.Descriptors
import WebServer.Net.Socket
import WebServer.Net.DynamicBuffer
import WebServer.Net.EpollPoller
import WebServer.Http.Request
import WebServer.Http.Parser
import WebServer.Http.Response
import WebServer.Http.Grammar
import WebServer.Http.Client
import WebServer.Core.State
import WebServer.Core.Connection
import WebServer.Core.Round
import WebServer.Core.Output
import WebServer.Core.Input
import WebServer.Core.Admission
import WebServer.Core.Arrivals
import WebServer.Core.EventLoop
import WebServer.Core.Runs
import WebServer.Core.MetricsLog
import WebServer.Core.Loop
import WebServer.Core.TimedRuns
import WebServer.Core.Startup
import WebServer.Checked.Arguments
import WebServer.Checked.Parser
import WebServer.Checked.Connection
import WebServer.Checked.Output
import WebServer.Checked.Input
import WebServer.Checked.Admission
import WebServer.Checked.EventLoop
import WebServer.Life.History
import WebServer.Life.Machine
import WebServer.Life.Body
import WebServer.Life.Framing
import WebServer.Life.HeaderLimit
import WebServer.Life.Boundary
import WebServer.Life.Timers
import WebServer.Life.Upload
import WebServer.Life.Responses
import WebServer.Life.Refusals
import WebServer.Life.Turns
import WebServer.Life.Watch
import WebServer.Life.Attention
import WebServer.Life.PromisedClose
import WebServer.Life.SlowHeader
import WebServer.Life.Path
import WebServer.Life.Passes
import WebServer.Life.Failures
import WebServer.Life.PendingRead
import WebServer.Life.BackPressure
import WebServer.Life.Credit
import WebServer.Refine.Invariant
import WebServer.Refine.Moves
import WebServer.Refine.Since
import WebServer.Refine.Output
import WebServer.Refine.Input
import WebServer.Refine.Admission
import WebServer.Refine.EventLoop
import WebServer.Refine.Expiry
import WebServer.Refine.Calls
import WebServer.Refine.Reachable
import WebServer.Refine.ReadyQueue
import WebServer.Refine.RateTable
import WebServer.Refine.TokenBuckets
import WebServer.Kernel.Descriptor
import WebServer.Kernel.Consistent
import WebServer.Kernel.Clocked
import WebServer.Kernel.Kept
import WebServer.Kernel.Handlers
import WebServer.Kernel.Runs
import WebServer.Kernel.Budgets
import WebServer.Kernel.Counters
import WebServer.Kernel.Counting
import WebServer.Kernel.Effects
import WebServer.Kernel.Locality
import WebServer.Kernel.Primitives
import WebServer.Kernel.Readings
import WebServer.Kernel.Evolution
import WebServer.Kernel.Deadlines
import WebServer.Kernel.Progress
import WebServer.Kernel.Enqueues
import WebServer.Kernel.MetricsLines
import WebServer.Kernel.Table
import WebServer.Kernel.Startup
import WebServer.Scripts.MetricsReader
import WebServer.Scripts.SmokeTest
import WebServer.Properties.Framing
import WebServer.Properties.HeaderLimit
import WebServer.Properties.Accounting
import WebServer.Properties.Responses
import WebServer.Properties.Timeouts
import WebServer.Properties.Waiting
import WebServer.Properties.ReadyQueue
import WebServer.Properties.BackPressure
import WebServer.Properties.PendingRead
import WebServer.Properties.RateLimit
import WebServer.Properties.Descriptors
import WebServer.Properties.Reuse
import WebServer.Properties.Decoding
import WebServer.Properties.RequestGrammar
import WebServer.Properties.BodyLength
import WebServer.Properties.KeepAlive
import WebServer.Properties.Uploads
import WebServer.Properties.OverLimit
import WebServer.Properties.Survival
import WebServer.Properties.Reconciliation
import WebServer.Properties.Independence
import WebServer.Properties.Fairness
import WebServer.Properties.Guards
import WebServer.Properties.Punctuality
import WebServer.Properties.MetricsLog
import WebServer.Properties.MetricsReaders
import WebServer.Properties.TimerHeap
import WebServer.Properties.Lifetime
import WebServer.Properties.Service
import WebServer.Properties.SmokeTest
import WebServer.Properties.ReadyTurns
