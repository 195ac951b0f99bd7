import GoQueue.System.World

/-! # The passes of the scheduler's three loops

`processScheduledJobs`, `recoverUnqueuedJobs` and `recoverStaleJobs` of
`internal/scheduler/scheduler.go`, each from its first call to its return.  A pass whose
batch is used up has returned.

The two queries that select rows do not look at `rows.Err`: a stream that breaks off gives
a shorter batch, which is the `truncated` reply.
-/

namespace GoQueue.Scheduler

/-! ## Releasing due jobs -/

inductive ProcessScheduledJobs where
  | starting
  /-- At the loop head with the identifiers not handled yet. -/
  | releasing (dueJobIDs : List String)
  /-- The row of the current identifier was read; it is not pushed yet. -/
  | fetched (job : Job) (jobIDStr : String) (rest : List String)
  /-- The current identifier is pushed; its row was `retrying` and is not updated yet. -/
  | pushed (job : Job) (rest : List String)
deriving DecidableEq

namespace ProcessScheduledJobs

def step (cfg : Config) (w : World) :
    ProcessScheduledJobs → Reply → Option (Effect × ProcessScheduledJobs)
  | .starting, .ok => some (.takeDue, .releasing (Queue.getDueJobs w.now w.redis).1)
  | .starting, .fail => some (.none, .releasing [])
  | .releasing (jobIDStr :: rest), reply =>
    match cfg.uuid.parse jobIDStr, reply with
    | none, .ok => some (.none, .releasing rest)
    | some id, .ok =>
      match Storage.getJob id w.jobs with
      | none => some (.none, .releasing rest)
      | some job => some (.none, .fetched job jobIDStr rest)
    | some _, .fail => some (.none, .releasing rest)
    | _, _ => none
  | .fetched job jobIDStr rest, .ok =>
    some (.push job.queue jobIDStr,
      if job.status = .retrying then .pushed job rest else .releasing rest)
  | .fetched _ _ rest, .fail => some (.none, .releasing rest)
  | .pushed job rest, .ok => some (.setStatus job.id .pending, .releasing rest)
  | .pushed _ rest, .fail => some (.none, .releasing rest)
  | _, _ => none

inductive Step (cfg : Config) (w : World) :
    ProcessScheduledJobs → Reply → Effect → ProcessScheduledJobs → Prop where
  | taken : Step cfg w .starting .ok .takeDue (.releasing (Queue.getDueJobs w.now w.redis).1)
  | untaken : Step cfg w .starting .fail .none (.releasing [])
  | invalid {jobIDStr rest} : cfg.uuid.parse jobIDStr = none →
      Step cfg w (.releasing (jobIDStr :: rest)) .ok .none (.releasing rest)
  | missing {jobIDStr rest id} : cfg.uuid.parse jobIDStr = some id → w.row id = none →
      Step cfg w (.releasing (jobIDStr :: rest)) .ok .none (.releasing rest)
  | unread {jobIDStr rest} :
      Step cfg w (.releasing (jobIDStr :: rest)) .fail .none (.releasing rest)
  | fetched {jobIDStr rest job} : cfg.uuid.parse jobIDStr = some job.id →
      w.row job.id = some job.toJobRow →
      Step cfg w (.releasing (jobIDStr :: rest)) .ok .none (.fetched job jobIDStr rest)
  | pushedRetrying {job jobIDStr rest} : job.status = .retrying →
      Step cfg w (.fetched job jobIDStr rest) .ok (.push job.queue jobIDStr) (.pushed job rest)
  | pushed {job jobIDStr rest} : job.status ≠ .retrying →
      Step cfg w (.fetched job jobIDStr rest) .ok (.push job.queue jobIDStr) (.releasing rest)
  | unpushed {job jobIDStr rest} :
      Step cfg w (.fetched job jobIDStr rest) .fail .none (.releasing rest)
  | released {job rest} :
      Step cfg w (.pushed job rest) .ok (.setStatus job.id .pending) (.releasing rest)
  | releasedLost {job rest} : Step cfg w (.pushed job rest) .fail .none (.releasing rest)

theorem step_cases {cfg : Config} {w : World} {pc pc' : ProcessScheduledJobs} {reply : Reply}
    {e : Effect} (taken : step cfg w pc reply = some (e, pc')) : Step cfg w pc reply e pc' := by
  cases pc with
  | starting =>
    cases reply with
    | ok => cases taken; exact .taken
    | fail => cases taken; exact .untaken
    | inserted _ | rows _ | truncated _ | returned _ => cases taken
  | releasing dueJobIDs =>
    cases dueJobIDs with
    | nil => cases reply <;> cases taken
    | cons jobIDStr rest =>
      simp only [step] at taken
      split at taken
      case h_1 unparsed => cases taken; exact .invalid unparsed
      case h_2 id parsed =>
        cases found : Storage.getJob id w.jobs with
        | none =>
          simp only [found, Option.some.injEq, Prod.mk.injEq] at taken
          obtain ⟨rfl, rfl⟩ := taken
          exact .missing parsed (World.getJob_eq_none.mp found)
        | some job =>
          obtain ⟨rfl, present⟩ := World.getJob_eq_some.mp found
          simp only [found, Option.some.injEq, Prod.mk.injEq] at taken
          obtain ⟨rfl, rfl⟩ := taken
          exact .fetched parsed present
      case h_3 => cases taken; exact .unread
      case h_4 => cases taken
  | fetched job jobIDStr rest =>
    cases reply with
    | ok =>
      simp only [step, Option.some.injEq, Prod.mk.injEq] at taken
      obtain ⟨rfl, rfl⟩ := taken
      split
      case isTrue retrying => exact .pushedRetrying retrying
      case isFalse other => exact .pushed other
    | fail => cases taken; exact .unpushed
    | inserted _ | rows _ | truncated _ | returned _ => cases taken
  | pushed job rest =>
    cases reply with
    | ok => cases taken; exact .released
    | fail => cases taken; exact .releasedLost
    | inserted _ | rows _ | truncated _ | returned _ => cases taken

end ProcessScheduledJobs

/-! ## Pushing pending jobs again -/

/-- The age from which a pending job counts as not queued. -/
def recoveryAge : Time := 5 * second

inductive RecoverUnqueuedJobs where
  | starting
  | pushing (jobs : List Job)
deriving DecidableEq

namespace RecoverUnqueuedJobs

def step (cfg : Config) (w : World) :
    RecoverUnqueuedJobs → Reply → Option (Effect × RecoverUnqueuedJobs)
  | .starting, .rows jobs =>
    if Storage.IsSelection (Storage.pendingUnqueued w.now recoveryAge) JobRow.createdAt 100 w.jobs
        jobs then
      some (.none, .pushing jobs)
    else none
  | .starting, .truncated jobs =>
    if Storage.IsPartialSelection (Storage.pendingUnqueued w.now recoveryAge) JobRow.createdAt 100
        w.jobs jobs then
      some (.none, .pushing jobs)
    else none
  | .starting, .fail => some (.none, .pushing [])
  | .pushing (job :: rest), .ok =>
    some (.push job.queue (cfg.uuid.string job.id), .pushing rest)
  | .pushing (_ :: rest), .fail => some (.none, .pushing rest)
  | _, _ => none

inductive Step (cfg : Config) (w : World) :
    RecoverUnqueuedJobs → Reply → Effect → RecoverUnqueuedJobs → Prop where
  | selected {jobs reply} : reply = .rows jobs ∨ reply = .truncated jobs →
      (∀ job ∈ jobs, w.row job.id = some job.toJobRow ∧ job.status = .pending ∧
        job.runAt = none) →
      Step cfg w .starting reply .none (.pushing jobs)
  | unselected : Step cfg w .starting .fail .none (.pushing [])
  | pushed {job rest} : Step cfg w (.pushing (job :: rest)) .ok
      (.push job.queue (cfg.uuid.string job.id)) (.pushing rest)
  | unpushed {job rest} : Step cfg w (.pushing (job :: rest)) .fail .none (.pushing rest)

theorem selected_row {w : World} {job : Job}
    (chosen : Storage.getJob job.id w.jobs = some job ∧
      Storage.pendingUnqueued w.now recoveryAge job.toJobRow = true) :
    w.row job.id = some job.toJobRow ∧ job.status = .pending ∧ job.runAt = none := by
  obtain ⟨found, matching⟩ := chosen
  simp only [Storage.pendingUnqueued, Bool.and_eq_true, decide_eq_true_eq,
    Option.isNone_iff_eq_none] at matching
  exact ⟨(World.getJob_eq_some.mp found).2, matching.1.1, matching.1.2⟩

theorem step_cases {cfg : Config} {w : World} {pc pc' : RecoverUnqueuedJobs} {reply : Reply}
    {e : Effect} (taken : step cfg w pc reply = some (e, pc')) : Step cfg w pc reply e pc' := by
  cases pc with
  | starting =>
    cases reply with
    | rows jobs =>
      simp only [step] at taken
      split at taken
      case isTrue selection =>
        cases taken
        exact .selected (.inl rfl) fun job member => selected_row (selection.1.2.1 job member)
      case isFalse => cases taken
    | truncated jobs =>
      simp only [step] at taken
      split at taken
      case isTrue selection =>
        cases taken
        exact .selected (.inr rfl) fun job member => selected_row (selection.2.1 job member)
      case isFalse => cases taken
    | fail => cases taken; exact .unselected
    | ok | inserted _ | returned _ => cases taken
  | pushing jobs =>
    cases jobs with
    | nil => cases reply <;> cases taken
    | cons job rest =>
      cases reply with
      | ok => cases taken; exact .pushed
      | fail => cases taken; exact .unpushed
      | inserted _ | rows _ | truncated _ | returned _ => cases taken

end RecoverUnqueuedJobs

/-! ## Failing stale jobs -/

inductive RecoverStaleJobs where
  | starting
  | failing (jobs : List Job)
deriving DecidableEq

namespace RecoverStaleJobs

def step (cfg : Config) (w : World) :
    RecoverStaleJobs → Reply → Option (Effect × RecoverStaleJobs)
  | .starting, .rows jobs =>
    if Storage.IsSelection (Storage.staleRunning w.now cfg.jobTimeout) Storage.startedKey 100 w.jobs
        jobs then
      some (.none, .failing jobs)
    else none
  | .starting, .truncated jobs =>
    if Storage.IsPartialSelection (Storage.staleRunning w.now cfg.jobTimeout) Storage.startedKey 100
        w.jobs jobs then
      some (.none, .failing jobs)
    else none
  | .starting, .fail => some (.none, .failing [])
  | .failing (job :: rest), .ok =>
    some (.setError job.id .failed job.retryCount "job timed out (stale)", .failing rest)
  | .failing (_ :: rest), .fail => some (.none, .failing rest)
  | _, _ => none

inductive Step (cfg : Config) (w : World) :
    RecoverStaleJobs → Reply → Effect → RecoverStaleJobs → Prop where
  | selected {jobs reply} : reply = .rows jobs ∨ reply = .truncated jobs →
      (∀ job ∈ jobs, w.row job.id = some job.toJobRow ∧ job.status = .running) →
      Step cfg w .starting reply .none (.failing jobs)
  | unselected : Step cfg w .starting .fail .none (.failing [])
  | failed {job rest} : Step cfg w (.failing (job :: rest)) .ok
      (.setError job.id .failed job.retryCount "job timed out (stale)") (.failing rest)
  | failedLost {job rest} : Step cfg w (.failing (job :: rest)) .fail .none (.failing rest)

theorem selected_row {cfg : Config} {w : World} {job : Job}
    (chosen : Storage.getJob job.id w.jobs = some job ∧
      Storage.staleRunning w.now cfg.jobTimeout job.toJobRow = true) :
    w.row job.id = some job.toJobRow ∧ job.status = .running := by
  obtain ⟨found, matching⟩ := chosen
  simp only [Storage.staleRunning, Bool.and_eq_true, decide_eq_true_eq] at matching
  exact ⟨(World.getJob_eq_some.mp found).2, matching.1⟩

theorem step_cases {cfg : Config} {w : World} {pc pc' : RecoverStaleJobs} {reply : Reply}
    {e : Effect} (taken : step cfg w pc reply = some (e, pc')) : Step cfg w pc reply e pc' := by
  cases pc with
  | starting =>
    cases reply with
    | rows jobs =>
      simp only [step] at taken
      split at taken
      case isTrue selection =>
        cases taken
        exact .selected (.inl rfl) fun job member => selected_row (selection.1.2.1 job member)
      case isFalse => cases taken
    | truncated jobs =>
      simp only [step] at taken
      split at taken
      case isTrue selection =>
        cases taken
        exact .selected (.inr rfl) fun job member => selected_row (selection.2.1 job member)
      case isFalse => cases taken
    | fail => cases taken; exact .unselected
    | ok | inserted _ | returned _ => cases taken
  | failing jobs =>
    cases jobs with
    | nil => cases reply <;> cases taken
    | cons job rest =>
      cases reply with
      | ok => cases taken; exact .failed
      | fail => cases taken; exact .failedLost
      | inserted _ | rows _ | truncated _ | returned _ => cases taken

end RecoverStaleJobs

end GoQueue.Scheduler
