import GoQueue.System.State

/-! # Events and metrics

What the operations tell the outside: the events they hand to `PublishJobEvent` of
`internal/dashboard/event.go` and the counters of `internal/metrics/metrics.go` that the worker
updates.  No operation reads any of it back, so it is a log beside the state.

A counter with labels is known by the labels of its increments.  An event in the log was handed to
`PublishJobEvent`, which may fail to publish it; the error is written to the program's own log and
nothing else depends on it.  The counters of all instances are taken together.
-/

namespace GoQueue

structure JobEvent where
  type : String
  jobID : String
  queue : String
  status : String
  timestamp : Time
deriving DecidableEq

/-- `publishEvent` of the API, the worker pool and the scheduler.  `PublishJobEvent` fills in the
time, which they leave zero; the status is that of the row as it was read. -/
def publishEvent (cfg : Config) (now : Time) (eventType : String) (job : Job) : JobEvent where
  type := eventType
  jobID := cfg.uuid.string job.id
  queue := job.queue
  status := job.status.text
  timestamp := now

inductive Signal where
  /-- A call of `PublishJobEvent`, whatever becomes of it. -/
  | publish (event : JobEvent)
  /-- `ActiveWorkers.Inc()` -/
  | activeWorkersInc
  /-- `ActiveWorkers.Dec()` -/
  | activeWorkersDec
  /-- An observation of `JobDuration`. -/
  | jobDuration (type : String)
  | jobsProcessed (type status : String)
  | errorsTotal (type : String)
  | retriesTotal (type : String)
deriving DecidableEq

/-! ## What a step signals -/

def Api.CancelJob.signals (cfg : Config) (now : Time) : Api.CancelJob → Reply → List Signal
  | .checked _ job, .ok => [.publish (publishEvent cfg now "job.cancelled" job)]
  | _, _ => []

def Api.RetryJob.signals (cfg : Config) (now : Time) : Api.RetryJob → Reply → List Signal
  -- also if the push has failed
  | .updated _ job, _ => [.publish (publishEvent cfg now "job.retried" job)]
  | _, _ => []

def Worker.ProcessJob.signals (cfg : Config) (now : Time) :
    Worker.ProcessJob → Reply → List Signal
  | .fetched job, .ok => [.publish (publishEvent cfg now "job.running" job)]
  | .executing job, .returned (some _) =>
    [.jobDuration job.type, .jobsProcessed job.type "failed", .errorsTotal job.type]
  | .executing job, .returned none =>
    [.jobDuration job.type, .jobsProcessed job.type "success"]
  -- from here on whether or not the update has succeeded
  | .succeeded job, _ => [.publish (publishEvent cfg now "job.completed" job)]
  | .failing job _, _ =>
    if job.retryCount.val + 1 ≥ job.maxRetries.val then
      [.publish (publishEvent cfg now "job.dead" job)]
    else [.publish (publishEvent cfg now "job.retrying" job), .retriesTotal job.type]
  | _, _ => []

def Scheduler.ProcessScheduledJobs.signals (cfg : Config) (now : Time) :
    Scheduler.ProcessScheduledJobs → Reply → List Signal
  | .fetched job _ _, .ok =>
    -- a retried job is reported after its update
    if job.status = .retrying then [] else [.publish (publishEvent cfg now "job.enqueued" job)]
  | .pushed job _, _ => [.publish (publishEvent cfg now "job.enqueued" job)]
  | _, _ => []

def Scheduler.RecoverStaleJobs.signals (cfg : Config) (now : Time) :
    Scheduler.RecoverStaleJobs → Reply → List Signal
  | .failing (job :: _), _ => [.publish (publishEvent cfg now "job.stale_recovered" job)]
  | _, _ => []

def Op.signals (cfg : Config) (now : Time) : Op → Reply → List Signal
  | .cancelJob pc, reply => pc.signals cfg now reply
  | .retryJob pc, reply => pc.signals cfg now reply
  | .processJob pc, reply => pc.signals cfg now reply
  | .processScheduledJobs pc, reply => pc.signals cfg now reply
  | .recoverStaleJobs pc, reply => pc.signals cfg now reply
  | .createJob _, _ | .deleteJob _, _ | .recoverUnqueuedJobs _, _ => []

/-- The deferred `ActiveWorkers.Dec()`. -/
def Op.deferred : Op → List Signal
  | .processJob .returned => [.activeWorkersDec]
  | _ => []

/-! ## The log of a run -/

def signal (cfg : Config) (s : State) (a : Action) (log : List Signal) : List Signal :=
  match a with
  | .tick _ | .begin _ => log
  -- `processJob` is called with the identifier
  | .pop => log ++ [.activeWorkersInc]
  | .run i reply =>
    match s.ops[i]?.bind fun op => (op.step cfg s.world reply).map ((op, ·)) with
    | some (op, _, op') => log ++ (op.signals cfg s.world.now reply ++ op'.deferred)
    | none => log

/-- The system with its log. -/
def monitored (cfg : Config) : Transition.System (State × List Signal) Action :=
  (system cfg).withHistory [] fun s a _ log => signal cfg s a log

/-- The log grows by what the step of the operation signals. -/
theorem signal_run {cfg : Config} {s : State} {i : Nat} {op op' : Op} {reply : Reply} {e : Effect}
    (found : s.ops[i]? = some op) (moves : op.step cfg s.world reply = some (e, op'))
    (log : List Signal) : signal cfg s (.run i reply) log =
      log ++ (op.signals cfg s.world.now reply ++ op'.deferred) := by
  simp [signal, found, moves]

end GoQueue
