import LlmWakeProxy.Library.Transition
import LlmWakeProxy.Library.Progress
import LlmWakeProxy.Library.Population
import LlmWakeProxy.Library.Watch
import LlmWakeProxy.Library.SingleFlight
import LlmWakeProxy.Library.Semaphore
import LlmWakeProxy.Library.Notify
import LlmWakeProxy.Library.Utf8
import LlmWakeProxy.Library.Lines
import LlmWakeProxy.Library.KeyValue
import LlmWakeProxy.Library.FileName
import LlmWakeProxy.Library.Fragment
import LlmWakeProxy.Library.Shell
import LlmWakeProxy.Library.SortedMap
import LlmWakeProxy.Library.JsonText
import LlmWakeProxy.Library.JsonString
import LlmWakeProxy.Library.JsonTree
import LlmWakeProxy.Library.JsonParser
import LlmWakeProxy.Lifecycle.Types
import LlmWakeProxy.Lifecycle.Observe
import LlmWakeProxy.Lifecycle.Manager
import LlmWakeProxy.Lifecycle.Rules
import LlmWakeProxy.Lifecycle.Ownership
import LlmWakeProxy.Lifecycle.Wakes
import LlmWakeProxy.Lifecycle.Deadline
import LlmWakeProxy.Lifecycle.Coupling
import LlmWakeProxy.Lifecycle.Finish
import LlmWakeProxy.Lifecycle.Waiters
import LlmWakeProxy.Lifecycle.Updates
import LlmWakeProxy.Lifecycle.Polling
import LlmWakeProxy.Lifecycle.Timeouts
import LlmWakeProxy.Lifecycle.Requests
import LlmWakeProxy.Lifecycle.Completion
import LlmWakeProxy.Lifecycle.Evidence
import LlmWakeProxy.Forward.Rewrite
import LlmWakeProxy.Forward.Streaming
import LlmWakeProxy.Forward.Fragments
import LlmWakeProxy.Forward.Document
import LlmWakeProxy.Forward.NonStreaming
import LlmWakeProxy.Forward.Linewise
import LlmWakeProxy.Scheduler.Execute
import LlmWakeProxy.Scheduler.Rules
import LlmWakeProxy.Scheduler.Accounting
import LlmWakeProxy.Scheduler.Calls
import LlmWakeProxy.Scheduler.Admission
import LlmWakeProxy.Scheduler.Cancellation
import LlmWakeProxy.Scheduler.Fifo
import LlmWakeProxy.Scheduler.Resume
import LlmWakeProxy.Config.Env
import LlmWakeProxy.Config.Mac
import LlmWakeProxy.Config.Settings
import LlmWakeProxy.Lifecycle.Overflow
import LlmWakeProxy.Helper.EnsureStarted
import LlmWakeProxy.Helper.Rules
import LlmWakeProxy.Helper.Identity
import LlmWakeProxy.Helper.Command
import LlmWakeProxy.Helper.Calls
import LlmWakeProxy.Helper.Status
import LlmWakeProxy.Helper.Lease
import LlmWakeProxy.Helper.Systemd
import LlmWakeProxy.Helper.Subcommands
import LlmWakeProxy.Host.Rpc
import LlmWakeProxy.Host.Contract
import LlmWakeProxy.Host.ExitCode
import LlmWakeProxy.Host.RemoteCommand
import LlmWakeProxy.Host.Observe
import LlmWakeProxy.Host.Observation
import LlmWakeProxy.Host.Tunnel
import LlmWakeProxy.Host.TunnelOwnership
import LlmWakeProxy.Host.TunnelReady
import LlmWakeProxy.Forward.Exchange
import LlmWakeProxy.Forward.WholeBody
import LlmWakeProxy.App.Chat
import LlmWakeProxy.App.Endpoints
import LlmWakeProxy.App.Server
import LlmWakeProxy.App.EndToEnd
import LlmWakeProxy.Orchestrate.Execute
import LlmWakeProxy.Orchestrate.Rules
import LlmWakeProxy.Orchestrate.InFlight
import LlmWakeProxy.Orchestrate.Proxy
import LlmWakeProxy.Orchestrate.Stages
import LlmWakeProxy.Orchestrate.Links
import LlmWakeProxy.Orchestrate.ColdStart
import LlmWakeProxy.Orchestrate.Delivery
import LlmWakeProxy.Orchestrate.Embeddings
import LlmWakeProxy.Orchestrate.WakeCount
import LlmWakeProxy.Orchestrate.WakeBudget
import LlmWakeProxy.Orchestrate.Outcomes
import LlmWakeProxy.Orchestrate.TunnelDrops
import LlmWakeProxy.Orchestrate.Pairing
import LlmWakeProxy.Orchestrate.Attendance
import LlmWakeProxy.Orchestrate.Completion
import LlmWakeProxy.Orchestrate.Warrant
import LlmWakeProxy.Orchestrate.Production
import LlmWakeProxy.Orchestrate.Grounds
import LlmWakeProxy.Orchestrate.Tally
import LlmWakeProxy.Orchestrate.Course
import LlmWakeProxy.Orchestrate.Answers
