import GoQueue.System.World

/-! # Processing one popped job

`processJob` and `handleFailure` of `internal/worker/worker.go`, from the identifier that
`Pop` returned to the end of the function.  As in the API modules, the values of
`ProcessJob` are the points between two calls, and `Step` names the ways a step can go.

Nothing here looks at the stored status: the worker runs what it popped.  The texts of the handlers'
errors are taken to be ones that a column of type `TEXT` accepts: valid UTF-8 without a NUL.
-/

namespace GoQueue.Worker

def int4? (n : Int) : Option Int4 :=
  if fits : -2 ^ 31 ≤ n ∧ n < 2 ^ 31 then some ⟨n, fits⟩ else none

theorem int4?_eq_some {n : Int} {m : Int4} (fits : int4? n = some m) : m.val = n := by
  unfold int4? at fits
  split at fits
  · cases fits; rfl
  · cases fits

inductive ProcessJob where
  | popped (jobIDStr : String)
  /-- The row was read; its type has no handler. -/
  | noHandler (job : Job)
  /-- The row was read and is about to be marked running. -/
  | fetched (job : Job)
  /-- The handler is running. -/
  | executing (job : Job)
  | succeeded (job : Job)
  /-- In `handleFailure`, before its update. -/
  | failing (job : Job) (jobErr : String)
  /-- In `handleFailure`, before its `Schedule` call. -/
  | rescheduling (job : Job) (newRetryCount : Int)
  | returned
deriving DecidableEq

namespace ProcessJob

def step (cfg : Config) (w : World) : ProcessJob → Reply → Option (Effect × ProcessJob)
  | .popped jobIDStr, reply =>
    match cfg.uuid.parse jobIDStr, reply with
    | none, .ok => some (.none, .returned)
    | some id, .ok =>
      match Storage.getJob id w.jobs with
      | none => some (.none, .returned)
      | some job =>
        if cfg.registered job.type then some (.none, .fetched job)
        else some (.none, .noHandler job)
    | some _, .fail => some (.none, .returned)
    | _, _ => none
  | .noHandler job, .ok =>
    some (.setError job.id .failed job.retryCount ("no handler for type: " ++ job.type), .returned)
  | .noHandler _, .fail => some (.none, .returned)
  | .fetched job, .ok => some (.setStatus job.id .running, .executing job)
  | .fetched _, .fail => some (.none, .returned)
  | .executing job, .returned err =>
    match err with
    | some jobErr => some (.record job.id err, .failing job jobErr)
    | none => some (.record job.id err, .succeeded job)
  | .succeeded job, .ok => some (.setStatus job.id .completed, .returned)
  | .succeeded _, .fail => some (.none, .returned)
  | .failing job jobErr, reply =>
    let newRetryCount : Int := job.retryCount + 1
    if newRetryCount ≥ job.maxRetries then
      match reply with
      | .ok => (int4? newRetryCount).map fun n => (.setError job.id .dead n jobErr, .returned)
      | .fail => some (.none, .returned)
      | _ => none
    else
      -- the update's error is ignored: the retry is scheduled either way
      match reply with
      | .ok => (int4? newRetryCount).map fun n =>
        (.setError job.id .retrying n jobErr, .rescheduling job newRetryCount)
      | .fail => some (.none, .rescheduling job newRetryCount)
      | _ => none
  | .rescheduling job newRetryCount, .ok =>
    some (.schedule (cfg.uuid.string job.id) (w.now + backoffDuration cfg.overflow newRetryCount),
      .returned)
  | .rescheduling _ _, .fail => some (.none, .returned)
  | _, _ => none

inductive Step (cfg : Config) (w : World) : ProcessJob → Reply → Effect → ProcessJob → Prop where
  | invalid {jobIDStr} : cfg.uuid.parse jobIDStr = none →
      Step cfg w (.popped jobIDStr) .ok .none .returned
  | missing {jobIDStr id} : cfg.uuid.parse jobIDStr = some id → w.row id = none →
      Step cfg w (.popped jobIDStr) .ok .none .returned
  | unread {jobIDStr} : Step cfg w (.popped jobIDStr) .fail .none .returned
  | fetched {jobIDStr job} : cfg.uuid.parse jobIDStr = some job.id →
      w.row job.id = some job.toJobRow → cfg.registered job.type = true →
      Step cfg w (.popped jobIDStr) .ok .none (.fetched job)
  | noHandler {jobIDStr job} : cfg.uuid.parse jobIDStr = some job.id →
      w.row job.id = some job.toJobRow → cfg.registered job.type = false →
      Step cfg w (.popped jobIDStr) .ok .none (.noHandler job)
  | unhandled {job} : Step cfg w (.noHandler job) .ok
      (.setError job.id .failed job.retryCount ("no handler for type: " ++ job.type)) .returned
  | unhandledLost {job} : Step cfg w (.noHandler job) .fail .none .returned
  | running {job} : Step cfg w (.fetched job) .ok (.setStatus job.id .running) (.executing job)
  | runningLost {job} : Step cfg w (.fetched job) .fail .none .returned
  | succeeded {job} : Step cfg w (.executing job) (.returned none) (.record job.id none)
      (.succeeded job)
  | failed {job jobErr} : Step cfg w (.executing job) (.returned (some jobErr))
      (.record job.id (some jobErr)) (.failing job jobErr)
  | completed {job} : Step cfg w (.succeeded job) .ok (.setStatus job.id .completed) .returned
  | completedLost {job} : Step cfg w (.succeeded job) .fail .none .returned
  | dead {job jobErr} {n : Int4} : job.maxRetries.val ≤ job.retryCount.val + 1 →
      n.val = job.retryCount.val + 1 →
      Step cfg w (.failing job jobErr) .ok (.setError job.id .dead n jobErr) .returned
  | deadLost {job jobErr} : job.maxRetries.val ≤ job.retryCount.val + 1 →
      Step cfg w (.failing job jobErr) .fail .none .returned
  | retrying {job jobErr} {n : Int4} : job.retryCount.val + 1 < job.maxRetries.val →
      n.val = job.retryCount.val + 1 →
      Step cfg w (.failing job jobErr) .ok (.setError job.id .retrying n jobErr)
        (.rescheduling job n.val)
  | retryingLost {job jobErr} : job.retryCount.val + 1 < job.maxRetries.val →
      Step cfg w (.failing job jobErr) .fail .none (.rescheduling job (job.retryCount.val + 1))
  | rescheduled {job newRetryCount} : Step cfg w (.rescheduling job newRetryCount) .ok
      (.schedule (cfg.uuid.string job.id)
        (w.now + backoffDuration cfg.overflow newRetryCount)) .returned
  | rescheduledLost {job newRetryCount} :
      Step cfg w (.rescheduling job newRetryCount) .fail .none .returned

theorem step_cases {cfg : Config} {w : World} {pc pc' : ProcessJob} {reply : Reply} {e : Effect}
    (taken : step cfg w pc reply = some (e, pc')) : Step cfg w pc reply e pc' := by
  cases pc with
  | popped jobIDStr =>
    simp only [step] at taken
    split at taken
    case h_1 unparsed => cases taken; exact .invalid unparsed
    case h_2 id parsed =>
      cases found : Storage.getJob id w.jobs with
      | none =>
        simp only [found, Option.some.injEq, Prod.mk.injEq] at taken
        obtain ⟨rfl, rfl⟩ := taken
        exact .missing parsed (World.getJob_eq_none.mp found)
      | some job =>
        obtain ⟨rfl, present⟩ := World.getJob_eq_some.mp found
        simp only [found] at taken
        split at taken
        case isTrue registered => cases taken; exact .fetched parsed present registered
        case isFalse unregistered =>
          cases taken
          exact .noHandler parsed present (by simpa using unregistered)
    case h_3 => cases taken; exact .unread
    case h_4 => cases taken
  | noHandler job =>
    cases reply with
    | ok => cases taken; exact .unhandled
    | fail => cases taken; exact .unhandledLost
    | inserted _ | rows _ | truncated _ | returned _ => cases taken
  | fetched job =>
    cases reply with
    | ok => cases taken; exact .running
    | fail => cases taken; exact .runningLost
    | inserted _ | rows _ | truncated _ | returned _ => cases taken
  | executing job =>
    cases reply with
    | returned err =>
      cases err with
      | none => cases taken; exact .succeeded
      | some jobErr => cases taken; exact .failed
    | ok | fail | inserted _ | rows _ | truncated _ => cases taken
  | succeeded job =>
    cases reply with
    | ok => cases taken; exact .completed
    | fail => cases taken; exact .completedLost
    | inserted _ | rows _ | truncated _ | returned _ => cases taken
  | failing job jobErr =>
    simp only [step] at taken
    split at taken
    case isTrue exhausted =>
      split at taken
      case h_1 =>
        obtain ⟨n, fits, equal⟩ := Option.map_eq_some_iff.mp taken
        cases equal
        exact .dead exhausted (int4?_eq_some fits)
      case h_2 => cases taken; exact .deadLost exhausted
      case h_3 => cases taken
    case isFalse left =>
      split at taken
      case h_1 =>
        obtain ⟨n, fits, equal⟩ := Option.map_eq_some_iff.mp taken
        cases equal
        rw [← int4?_eq_some fits]
        exact .retrying (not_le.mp left) (int4?_eq_some fits)
      case h_2 => cases taken; exact .retryingLost (not_le.mp left)
      case h_3 => cases taken
  | rescheduling job newRetryCount =>
    cases reply with
    | ok => cases taken; exact .rescheduled
    | fail => cases taken; exact .rescheduledLost
    | inserted _ | rows _ | truncated _ | returned _ => cases taken
  | returned => cases reply <;> cases taken

end ProcessJob

end GoQueue.Worker
