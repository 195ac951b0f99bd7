import GoQueue.Library.Transition
import GoQueue.Library.Keyspace
import GoQueue.Model.Job
import GoQueue.Model.Rfc3339
import GoQueue.Storage.Postgres
import GoQueue.Queue.Redis
import GoQueue.System.World
import GoQueue.Api.Handler
import GoQueue.Worker.Worker
import GoQueue.Scheduler.Scheduler
import GoQueue.System.State
import GoQueue.System.Soundness
import GoQueue.Cmd.Main
import GoQueue.Verified.RowShape
import GoQueue.Verified.Cancellation
import GoQueue.Verified.Delivery
import GoQueue.System.Solo
import GoQueue.Verified.Stranding
import GoQueue.Verified.Tokens
import GoQueue.Verified.Release
import GoQueue.Leader.Leader
import GoQueue.Verified.Conformance
import GoQueue.Verified.Leadership
import GoQueue.Verified.Requests
import GoQueue.Verified.Linearizability
import GoQueue.Verified.Progress
import GoQueue.Verified.DeadEnd
import GoQueue.Verified.QueueContents
import GoQueue.Verified.ReleaseCount
import GoQueue.Dashboard.Hub
import GoQueue.System.Sequential
import GoQueue.Verified.HubSafety
import GoQueue.Verified.Lifecycle
import GoQueue.Verified.RetryBudget
import GoQueue.Library.Smallest
import GoQueue.Verified.Recovery
import GoQueue.Verified.StaleCheck
import GoQueue.Worker.Pool
import GoQueue.Verified.Shutdown
import GoQueue.Verified.ElectionCycle
import GoQueue.Queue.Calls
import GoQueue.Verified.Fifo
import GoQueue.Verified.Agenda
import GoQueue.Library.Wrap
import GoQueue.Verified.Backoff
import GoQueue.Verified.Broadcast
import GoQueue.Storage.Query
import GoQueue.Verified.Streams
import GoQueue.Library.Float64
import GoQueue.Library.Paging
import GoQueue.Model.Strconv
import GoQueue.Storage.Answers
import GoQueue.Api.Queries
import GoQueue.Dashboard.Templates
import GoQueue.Verified.Paging
import GoQueue.Verified.Listing
import GoQueue.Verified.Statistics
import GoQueue.Library.Grouping
import GoQueue.Verified.Charts
import GoQueue.Leader.Shutdown
import GoQueue.Verified.ElectorStop
import GoQueue.Dashboard.Shutdown
import GoQueue.Verified.HubShutdown
import GoQueue.Scheduler.Loops
import GoQueue.Verified.SchedulerLoops
import GoQueue.System.Telemetry
import GoQueue.Verified.Telemetry
import GoQueue.Verified.Ledger
import GoQueue.Verified.Deletion
import GoQueue.Library.Json
import GoQueue.Model.Timestamp
import GoQueue.Dashboard.Wire
import GoQueue.Verified.Wire
import GoQueue.Verified.Resubmission
import GoQueue.Verified.Waiting
import GoQueue.Api.Router
import GoQueue.Verified.Access
