import GoQueue.Model.Timestamp
import GoQueue.Verified.Ledger

/-! # Submitting a job again

A client that reads a job and posts its queue, type, payload, `max_retries` and `run_at` as they
were printed creates the same job once more: the validation of `CreateJob` and the columns of the
table take back whatever they have let through, and `run_at` does not move.
-/

namespace GoQueue.Verified

variable {cfg : Config}

/-- What every row has that was inserted through the API. -/
structure Accepted (row : JobRow) : Prop where
  queue : row.queue ≠ ""
  type : row.type ≠ ""
  runAt : row.runAt.map timestamptz = row.runAt

theorem timestamptz_idem (t : Time) : timestamptz (timestamptz t) = timestamptz t := by
  have whole : ∀ a : Int, a / 1000 * 1000 / 1000 * 1000 = a / 1000 * 1000 := by omega
  exact whole t

theorem Accepted.congr {old new : JobRow} (accepted : Accepted old)
    (same : Storage.SameJob old new) : Accepted new where
  queue := same.queue ▸ accepted.queue
  type := same.type ▸ accepted.type
  runAt := same.runAt ▸ accepted.runAt

theorem prepare_named {body : Option Api.CreateJobRequest} {job : Storage.NewJob}
    (prepared : Api.prepare body = .ok job) : job.queue ≠ "" ∧ job.type ≠ "" := by
  cases body with
  | none => cases prepared
  | some req =>
    simp only [Api.prepare] at prepared
    split at prepared
    · cases prepared
    case isFalse named =>
      rw [not_or] at named
      split at prepared
      · cases prepared
        exact named
      · split at prepared <;> cases prepared
        exact named

/-- A name that is cut fills its column. -/
theorem varchar_ne_empty {text stored : String} (named : text ≠ "")
    (kept : Storage.varchar 255 text = some stored) : stored ≠ "" := by
  rintro rfl
  exact named (Storage.eq_of_varchar kept (by decide))

theorem accepted_createJob {body : Option Api.CreateJobRequest} {job : Storage.NewJob} {now : Time}
    {row : JobRow} (prepared : Api.prepare body = .ok job)
    (stored : Storage.createJob now job = some row) : Accepted row := by
  have named := prepare_named prepared
  have created := Storage.created_of_createJob stored
  refine ⟨varchar_ne_empty named.1 created.queue, varchar_ne_empty named.2 created.type, ?_⟩
  rw [created.runAt]
  cases job.runAt <;> simp [timestamptz_idem]

theorem accepted_inserted {w : World} {op op' : Op} {reply : Reply} {id : Uuid} {row : JobRow}
    (step : Op.Step cfg w op reply (.insert id row) op') : Accepted row := by
  cases step with
  | createJob step =>
    cases step with
    | inserted prepared _ stored => exact accepted_createJob prepared stored
  | _ step => cases step

theorem reachable_accepted {s : State} (reachable : (system cfg).Reachable anyAction s) {id : Uuid}
    {row : JobRow} (present : s.world.row id = some row) : Accepted row := by
  have rows : ∀ id row, s.world.row id = some row → Accepted row := by
    refine reachable.invariant (P := fun s => ∀ id row, s.world.row id = some row → Accepted row)
      ?_ ?_
    · rintro s ⟨now, rfl⟩ id row present
      cases present
    · intro s a t _ _ taken accepted id row present
      cases State.step_cases taken with
      | tick | begin | popped _ => exact accepted id row present
      | run split inner =>
        cases written_of_row present with
        | inserted => exact accepted_inserted inner
        | status found => exact (accepted id _ found).congr (Storage.sameJob_setStatus _ _ _)
        | error found => exact (accepted id _ found).congr (Storage.sameJob_setError _ _ _ _ _)
        | kept found => exact accepted id row found
  exact rows id row present

/-- The `run_at` of a response, in the zone of the server; it is left out if there is none. -/
def printRunAt (offset : Int) : Option Time → Option (Option String)
  | none => some none
  | some t => (Rfc3339.format offset t).map fun text => some (.ofList text)

/-- The request with what the API prints for a row. -/
def request (offset : Int) (row : JobRow) : Option Api.CreateJobRequest :=
  (printRunAt offset row.runAt).map fun runAt =>
    ⟨row.queue, row.type, some row.payload, some row.maxRetries.val, runAt⟩

/-- The job that is made of it. -/
def copy (row : JobRow) : Storage.NewJob where
  queue := row.queue
  type := row.type
  payload := row.payload
  status := if row.runAt.isSome then .scheduled else .pending
  maxRetries := row.maxRetries.val
  runAt := row.runAt

theorem prepare_request {offset : Int} (whole : offset % 60 = 0) (day : offset.natAbs < 86400)
    {row : JobRow} (accepted : Accepted row) {req : Api.CreateJobRequest}
    (printed : request offset row = some req) :
    Api.prepare (some req) = .ok (copy row) := by
  obtain ⟨runAt, written, rfl⟩ := Option.map_eq_some_iff.mp printed
  have named : ¬ (row.queue = "" ∨ row.type = "") := not_or.mpr ⟨accepted.queue, accepted.type⟩
  cases due : row.runAt with
  | none =>
    rw [due] at written
    cases written
    simp [Api.prepare, copy, named, due]
  | some t =>
    rw [due] at written
    obtain ⟨text, formatted, rfl⟩ := Option.map_eq_some_iff.mp written
    simp [Api.prepare, copy, named, due, Rfc3339.parse_format whole day formatted]

theorem createJob_copy (now : Time) {row : JobRow} (accepted : Accepted row) :
    ∃ new, Storage.createJob now (copy row) = some new ∧
      Storage.SameJob row { new with createdAt := row.createdAt } ∧
      new.status = (copy row).status := by
  have queued := Storage.varchar_of_length_le row.named.1
  have typed := Storage.varchar_of_length_le row.named.2
  have fits : -2 ^ 31 ≤ (copy row).maxRetries ∧ (copy row).maxRetries < 2 ^ 31 :=
    row.maxRetries.property
  obtain ⟨new, stored⟩ := Storage.exists_createJob now fits queued typed
  have created := Storage.created_of_createJob stored
  refine ⟨new, stored, ⟨?_, ?_, created.payload.symm, ?_, ?_, rfl⟩, created.status⟩
  · exact Option.some.inj (queued.symm.trans created.queue)
  · exact Option.some.inj (typed.symm.trans created.type)
  · exact Subtype.ext created.maxRetries.symm
  · exact (created.runAt.trans accepted.runAt).symm

/-- The new row is stored, whatever has happened since, and is that of the same job. -/
theorem resubmission_accepted {offset : Int} (whole : offset % 60 = 0)
    (day : offset.natAbs < 86400) {s : State} (reachable : (system cfg).Reachable anyAction s)
    {id : Uuid} {row : JobRow} (present : s.world.row id = some row) {req : Api.CreateJobRequest}
    (printed : request offset row = some req) {w : World} {newID : Uuid}
    (fresh : w.origin newID = none) :
    ∃ job new, Api.CreateJob.step cfg w (.received (some req)) (.inserted newID) =
        some (.insert newID new, .created job (Storage.scanJob newID new)) ∧
      Storage.SameJob row { new with createdAt := row.createdAt } ∧
      new.status = if row.runAt.isSome then .scheduled else .pending := by
  have accepted := reachable_accepted reachable present
  have prepared := prepare_request whole day accepted printed
  obtain ⟨new, stored, same, status⟩ := createJob_copy w.now accepted
  exact ⟨copy row, new, by simp [Api.CreateJob.step, prepared, fresh, stored], same, status⟩

/-- A run time in another zone than the client's. -/
theorem resubmission_accepted_scheduled : ∃ s row req,
    (system Cmd.mainConfig).Reachable anyAction s ∧ s.world.row 1 = some row ∧
    request 32400 row = some req ∧ req.runAt = some "1970-01-01T09:00:05+09:00" ∧
    ∃ job new, Api.CreateJob.step Cmd.mainConfig s.world (.received (some req)) (.inserted 2) =
        some (.insert 2 new, .created job (Storage.scanJob 2 new)) ∧
      new.runAt = some (5 * second) := by
  have ⟨s, reachable, found, fresh⟩ : ∃ s, (system Cmd.mainConfig).Reachable anyAction s ∧
      (s.world.row 1).any (fun row => row.runAt = some (5 * second) ∧
        (request 32400 row).any fun req =>
          req.runAt = some "1970-01-01T09:00:05+09:00") = true ∧
      s.world.origin 2 = none :=
    Transition.System.exists_reachable_of_exec [.begin (.createJob (some { Cmd.request with
      runAt := some "1970-01-01T00:00:05Z" })), .run 0 (.inserted 1)] Cmd.initial_initialState
      (by decide +kernel)
  simp only [Option.any_eq_true, decide_eq_true_eq] at found
  obtain ⟨row, present, due, req, printed, text⟩ := found
  obtain ⟨job, new, taken, same, -⟩ := resubmission_accepted (show (32400 : Int) % 60 = 0 by decide)
    (by decide) reachable present printed fresh
  exact ⟨s, row, req, reachable, present, printed, text, job, new, taken, same.runAt.symm.trans due⟩

end GoQueue.Verified
