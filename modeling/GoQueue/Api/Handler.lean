import GoQueue.System.World
import GoQueue.Model.Rfc3339

/-! # The job requests of the HTTP API

`CreateJob`, `CancelJob`, `RetryJob` and `DeleteJob` of `internal/api/handler.go`.  The
values of each type are the points a request can stand at between two of its calls to the
stores; `step` makes the next call and everything the handler computes up to the one after
it.  The event published before a successful answer changes neither store;
`System/Telemetry.lean` adds it.

After each `step` stands the relation `Step` of the same name: one constructor for each way
the step can go, so that proofs split a step by name instead of unfolding it.
-/

namespace GoQueue.Api

inductive Body where
  | error (msg : String)
  | status (status : String)
  | job (job : Job)
deriving DecidableEq

structure Response where
  code : Nat
  body : Body
deriving DecidableEq

def writeError (code : Nat) (msg : String) : Response := ⟨code, .error msg⟩

def writeStatus (status : String) : Response := ⟨200, .status status⟩

/-! ## `POST /jobs` -/

structure CreateJobRequest where
  queue : String
  type : String
  payload : Option String
  maxRetries : Option Int
  runAt : Option String
deriving DecidableEq

/-- Validation and defaults; `none` is a body that does not decode. -/
def prepare : Option CreateJobRequest → Except Response Storage.NewJob
  | none => .error (writeError 400 "invalid request body")
  | some req =>
    if req.queue = "" ∨ req.type = "" then .error (writeError 400 "queue and type are required")
    else
      let job : Storage.NewJob := {
        queue := req.queue
        type := req.type
        payload := req.payload.getD "\x7b\x7d"
        status := .pending
        maxRetries := req.maxRetries.getD 3
        runAt := none }
      match req.runAt with
      | none => .ok job
      | some text =>
        match Rfc3339.parse text with
        | none => .error (writeError 400 "invalid run_at format, use RFC3339")
        | some t => .ok { job with runAt := some t, status := .scheduled }

/-- A job is `scheduled` from the start exactly when it has a time to run at. -/
theorem prepare_ok {body : Option CreateJobRequest} {job : Storage.NewJob}
    (prepared : prepare body = .ok job) :
    (job.runAt = none ∧ job.status = .pending) ∨
      (∃ t, job.runAt = some t ∧ job.status = .scheduled) := by
  cases body with
  | none => cases prepared
  | some req =>
    simp only [prepare] at prepared
    split at prepared
    · cases prepared
    · split at prepared
      · cases prepared
        exact .inl ⟨rfl, rfl⟩
      · split at prepared
        · cases prepared
        · cases prepared
          exact .inr ⟨_, rfl, rfl⟩

theorem prepare_queue {body : Option CreateJobRequest} {job : Storage.NewJob}
    (prepared : prepare body = .ok job) : ∃ req, body = some req ∧ job.queue = req.queue := by
  cases body with
  | none => cases prepared
  | some req =>
    refine ⟨req, rfl, ?_⟩
    simp only [prepare] at prepared
    split at prepared
    · cases prepared
    · split at prepared
      · cases prepared
        rfl
      · split at prepared <;> cases prepared
        rfl

inductive CreateJob where
  | received (body : Option CreateJobRequest)
  /-- The row is written; the identifier is not yet in Redis. -/
  | created (job : Storage.NewJob) (stored : Job)
  | responded (response : Response)
deriving DecidableEq

namespace CreateJob

def step (cfg : Config) (w : World) : CreateJob → Reply → Option (Effect × CreateJob)
  | .received body, reply =>
    match prepare body, reply with
    | .error response, .ok => some (.none, .responded response)
    | .ok job, .inserted id =>
      -- `gen_random_uuid` does not repeat an identifier
      if (w.origin id).isSome then none
      else (Storage.createJob w.now job).map fun row =>
        (.insert id row, .created job (Storage.scanJob id row))
    | .ok _, .fail => some (.none, .responded (writeError 500 "failed to create job"))
    | _, _ => none
  | .created job stored, .ok =>
    match job.runAt with
    | some runAt =>
      some (.schedule (cfg.uuid.string stored.id) runAt, .responded ⟨201, .job stored⟩)
    | none => some (.push job.queue (cfg.uuid.string stored.id), .responded ⟨201, .job stored⟩)
  | .created _ stored, .fail => some (.none, .responded ⟨201, .job stored⟩)
  | _, _ => none

inductive Step (cfg : Config) (w : World) : CreateJob → Reply → Effect → CreateJob → Prop where
  | rejected {body response} : prepare body = .error response →
      Step cfg w (.received body) .ok .none (.responded response)
  | refused {body} : Step cfg w (.received body) .fail .none
      (.responded (writeError 500 "failed to create job"))
  | inserted {body job id row} : prepare body = .ok job → w.origin id = none →
      Storage.createJob w.now job = some row →
      Step cfg w (.received body) (.inserted id) (.insert id row)
        (.created job (Storage.scanJob id row))
  | scheduled {job stored runAt} : job.runAt = some runAt →
      Step cfg w (.created job stored) .ok (.schedule (cfg.uuid.string stored.id) runAt)
        (.responded ⟨201, .job stored⟩)
  | pushed {job stored} : job.runAt = none →
      Step cfg w (.created job stored) .ok (.push job.queue (cfg.uuid.string stored.id))
        (.responded ⟨201, .job stored⟩)
  | unqueued {job stored} :
      Step cfg w (.created job stored) .fail .none (.responded ⟨201, .job stored⟩)

theorem step_cases {cfg : Config} {w : World} {pc pc' : CreateJob} {reply : Reply} {e : Effect}
    (taken : step cfg w pc reply = some (e, pc')) : Step cfg w pc reply e pc' := by
  cases pc with
  | received body =>
    simp only [step] at taken
    split at taken
    case h_1 response prepared => cases taken; exact .rejected prepared
    case h_2 job id prepared =>
      split at taken
      · cases taken
      · rename_i fresh
        obtain ⟨row, fits, equal⟩ := Option.map_eq_some_iff.mp taken
        cases equal
        exact .inserted prepared (by simpa using fresh) fits
    case h_3 => cases taken; exact .refused
    case h_4 => cases taken
  | created job stored =>
    cases reply with
    | ok =>
      simp only [step] at taken
      split at taken
      case h_1 runAt given => cases taken; exact .scheduled given
      case h_2 absent => cases taken; exact .pushed absent
    | fail => cases taken; exact .unqueued
    | inserted _ | rows _ | truncated _ | returned _ => cases taken
  | responded response => cases reply <;> cases taken

end CreateJob

/-! ## `POST /jobs/{id}/cancel` -/

inductive CancelJob where
  | received (idParam : String)
  /-- The row was read and may be cancelled. -/
  | checked (id : Uuid) (job : Job)
  | responded (response : Response)
deriving DecidableEq

namespace CancelJob

def step (cfg : Config) (w : World) : CancelJob → Reply → Option (Effect × CancelJob)
  | .received idParam, reply =>
    match cfg.uuid.parse idParam, reply with
    | none, .ok => some (.none, .responded (writeError 400 "invalid job ID"))
    | some id, .ok =>
      match Storage.getJob id w.jobs with
      | none => some (.none, .responded (writeError 404 "job not found"))
      | some job =>
        if job.status.canTransitionTo .cancelled then some (.none, .checked id job)
        else some (.none, .responded (writeError 409 "job cannot be cancelled in current state"))
    | some _, .fail => some (.none, .responded (writeError 404 "job not found"))
    | _, _ => none
  | .checked id _, .ok =>
    some (.setStatus id .cancelled, .responded (writeStatus "cancelled"))
  | .checked _ _, .fail => some (.none, .responded (writeError 500 "failed to cancel job"))
  | _, _ => none

inductive Step (cfg : Config) (w : World) : CancelJob → Reply → Effect → CancelJob → Prop where
  | invalid {idParam} : cfg.uuid.parse idParam = none →
      Step cfg w (.received idParam) .ok .none (.responded (writeError 400 "invalid job ID"))
  | missing {idParam id} : cfg.uuid.parse idParam = some id → w.row id = none →
      Step cfg w (.received idParam) .ok .none (.responded (writeError 404 "job not found"))
  | unread {idParam} :
      Step cfg w (.received idParam) .fail .none (.responded (writeError 404 "job not found"))
  | refused {idParam id row} : cfg.uuid.parse idParam = some id → w.row id = some row →
      row.status.canTransitionTo .cancelled = false →
      Step cfg w (.received idParam) .ok .none
        (.responded (writeError 409 "job cannot be cancelled in current state"))
  | checked {idParam job} : cfg.uuid.parse idParam = some job.id →
      w.row job.id = some job.toJobRow → job.status.canTransitionTo .cancelled = true →
      Step cfg w (.received idParam) .ok .none (.checked job.id job)
  | cancelled {id job} : Step cfg w (.checked id job) .ok (.setStatus id .cancelled)
      (.responded (writeStatus "cancelled"))
  | failed {id job} : Step cfg w (.checked id job) .fail .none
      (.responded (writeError 500 "failed to cancel job"))

theorem step_cases {cfg : Config} {w : World} {pc pc' : CancelJob} {reply : Reply} {e : Effect}
    (taken : step cfg w pc reply = some (e, pc')) : Step cfg w pc reply e pc' := by
  cases pc with
  | received idParam =>
    simp only [step] at taken
    split at taken
    case h_1 unparsed => cases taken; exact .invalid unparsed
    case h_2 id parsed =>
      split at taken
      case h_1 absent =>
        cases taken
        exact .missing parsed (World.getJob_eq_none.mp absent)
      case h_2 job found =>
        obtain ⟨rfl, present⟩ := World.getJob_eq_some.mp found
        split at taken
        case isTrue allowed => cases taken; exact .checked parsed present allowed
        case isFalse refused =>
          cases taken
          exact .refused parsed present (Bool.eq_false_iff.mpr refused)
    case h_3 => cases taken; exact .unread
    case h_4 => cases taken
  | checked id job =>
    cases reply with
    | ok => cases taken; exact .cancelled
    | fail => cases taken; exact .failed
    | inserted _ | rows _ | truncated _ | returned _ => cases taken
  | responded response => cases reply <;> cases taken

end CancelJob

/-! ## `POST /jobs/{id}/retry` -/

inductive RetryJob where
  | received (idParam : String)
  /-- The row was read and is dead. -/
  | checked (id : Uuid) (job : Job)
  /-- The row is reset; the identifier is not yet pushed. -/
  | updated (id : Uuid) (job : Job)
  | responded (response : Response)
deriving DecidableEq

namespace RetryJob

def step (cfg : Config) (w : World) : RetryJob → Reply → Option (Effect × RetryJob)
  | .received idParam, reply =>
    match cfg.uuid.parse idParam, reply with
    | none, .ok => some (.none, .responded (writeError 400 "invalid job ID"))
    | some id, .ok =>
      match Storage.getJob id w.jobs with
      | none => some (.none, .responded (writeError 404 "job not found"))
      | some job =>
        if job.status ≠ .dead then
          some (.none, .responded (writeError 409 "only dead jobs can be retried"))
        else some (.none, .checked id job)
    | some _, .fail => some (.none, .responded (writeError 404 "job not found"))
    | _, _ => none
  | .checked id job, .ok => some (.setError id .pending ⟨0, Int4.zero_fits⟩ "", .updated id job)
  | .checked _ _, .fail => some (.none, .responded (writeError 500 "failed to retry job"))
  | .updated id job, .ok =>
    some (.push job.queue (cfg.uuid.string id), .responded (writeStatus "retrying"))
  | .updated _ _, .fail => some (.none, .responded (writeStatus "retrying"))
  | _, _ => none

inductive Step (cfg : Config) (w : World) : RetryJob → Reply → Effect → RetryJob → Prop where
  | invalid {idParam} : cfg.uuid.parse idParam = none →
      Step cfg w (.received idParam) .ok .none (.responded (writeError 400 "invalid job ID"))
  | missing {idParam id} : cfg.uuid.parse idParam = some id → w.row id = none →
      Step cfg w (.received idParam) .ok .none (.responded (writeError 404 "job not found"))
  | unread {idParam} :
      Step cfg w (.received idParam) .fail .none (.responded (writeError 404 "job not found"))
  | refused {idParam id row} : cfg.uuid.parse idParam = some id → w.row id = some row →
      row.status ≠ .dead →
      Step cfg w (.received idParam) .ok .none
        (.responded (writeError 409 "only dead jobs can be retried"))
  | checked {idParam job} : cfg.uuid.parse idParam = some job.id →
      w.row job.id = some job.toJobRow → job.status = .dead →
      Step cfg w (.received idParam) .ok .none (.checked job.id job)
  | updated {id job} : Step cfg w (.checked id job) .ok (.setError id .pending ⟨0, Int4.zero_fits⟩ "")
      (.updated id job)
  | failed {id job} : Step cfg w (.checked id job) .fail .none
      (.responded (writeError 500 "failed to retry job"))
  | pushed {id job} : Step cfg w (.updated id job) .ok (.push job.queue (cfg.uuid.string id))
      (.responded (writeStatus "retrying"))
  | unqueued {id job} : Step cfg w (.updated id job) .fail .none
      (.responded (writeStatus "retrying"))

theorem step_cases {cfg : Config} {w : World} {pc pc' : RetryJob} {reply : Reply} {e : Effect}
    (taken : step cfg w pc reply = some (e, pc')) : Step cfg w pc reply e pc' := by
  cases pc with
  | received idParam =>
    simp only [step] at taken
    split at taken
    case h_1 unparsed => cases taken; exact .invalid unparsed
    case h_2 id parsed =>
      split at taken
      case h_1 absent =>
        cases taken
        exact .missing parsed (World.getJob_eq_none.mp absent)
      case h_2 job found =>
        obtain ⟨rfl, present⟩ := World.getJob_eq_some.mp found
        split at taken
        case isTrue other => cases taken; exact .refused parsed present other
        case isFalse dead => cases taken; exact .checked parsed present (not_not.mp dead)
    case h_3 => cases taken; exact .unread
    case h_4 => cases taken
  | checked id job =>
    cases reply with
    | ok => cases taken; exact .updated
    | fail => cases taken; exact .failed
    | inserted _ | rows _ | truncated _ | returned _ => cases taken
  | updated id job =>
    cases reply with
    | ok => cases taken; exact .pushed
    | fail => cases taken; exact .unqueued
    | inserted _ | rows _ | truncated _ | returned _ => cases taken
  | responded response => cases reply <;> cases taken

end RetryJob

/-! ## `DELETE /jobs/{id}` -/

inductive DeleteJob where
  | received (idParam : String)
  | responded (response : Response)
deriving DecidableEq

namespace DeleteJob

def step (cfg : Config) (w : World) : DeleteJob → Reply → Option (Effect × DeleteJob)
  | .received idParam, reply =>
    match cfg.uuid.parse idParam, reply with
    | none, .ok => some (.none, .responded (writeError 400 "invalid job ID"))
    | some id, .ok =>
      if Storage.deletable id w.jobs then some (.delete id, .responded (writeStatus "deleted"))
      else some (.none, .responded (writeError 409 "job not found or not in dead status"))
    -- followed by the driver's own text
    | some _, .fail => some (.none, .responded (writeError 409 "delete job: "))
    | _, _ => none
  | _, _ => none

inductive Step (cfg : Config) (w : World) : DeleteJob → Reply → Effect → DeleteJob → Prop where
  | invalid {idParam} : cfg.uuid.parse idParam = none →
      Step cfg w (.received idParam) .ok .none (.responded (writeError 400 "invalid job ID"))
  | refused {idParam id} : cfg.uuid.parse idParam = some id →
      (∀ row, w.row id = some row → row.status ≠ .dead) →
      Step cfg w (.received idParam) .ok .none
        (.responded (writeError 409 "job not found or not in dead status"))
  | unread {idParam} :
      Step cfg w (.received idParam) .fail .none (.responded (writeError 409 "delete job: "))
  | deleted {idParam id row} : cfg.uuid.parse idParam = some id → w.row id = some row →
      row.status = .dead →
      Step cfg w (.received idParam) .ok (.delete id) (.responded (writeStatus "deleted"))

theorem deletable_iff {id : Uuid} {w : World} :
    Storage.deletable id w.jobs = true ↔ ∃ row, w.row id = some row ∧ row.status = .dead := by
  unfold Storage.deletable World.row
  cases w.jobs.lookup id <;> simp

theorem step_cases {cfg : Config} {w : World} {pc pc' : DeleteJob} {reply : Reply} {e : Effect}
    (taken : step cfg w pc reply = some (e, pc')) : Step cfg w pc reply e pc' := by
  cases pc with
  | received idParam =>
    simp only [step] at taken
    split at taken
    case h_1 unparsed => cases taken; exact .invalid unparsed
    case h_2 id parsed =>
      split at taken
      case isTrue found =>
        cases taken
        obtain ⟨row, present, dead⟩ := deletable_iff.mp found
        exact .deleted parsed present dead
      case isFalse refused =>
        cases taken
        refine .refused parsed fun row present dead => ?_
        exact refused (deletable_iff.mpr ⟨row, present, dead⟩)
    case h_3 => cases taken; exact .unread
    case h_4 => cases taken
  | responded response => cases reply <;> cases taken

end DeleteJob

end GoQueue.Api
