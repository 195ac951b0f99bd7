import GoQueue.Storage.Postgres
import GoQueue.Queue.Redis

/-! # The stores an operation works on

An operation of the program (an HTTP request, the processing of one popped job, one pass
of a scheduler loop) talks to Postgres and Redis one call at a time.  `World` holds both
stores, the clock, and two histories that no code reads: the handler calls that have
returned, and the rows of all jobs as they were inserted.

An operation's step asks for one `Effect`; `World.apply` carries it out.  The environment's
part of a step, whether the call goes through and what it answers where the stores leave a
choice, is the `Reply`.
-/

namespace GoQueue

/-- What a deployment fixes. -/
structure Config where
  uuid : UuidCodec
  /-- The job types with a handler in the worker's registry. -/
  registered : String → Bool
  /-- The queues the worker pools pop from. -/
  queues : List String
  /-- Their names do not fill the column, so that no longer name is cut to one of them. -/
  short : ∀ queue ∈ queues, queue.length < 255
  jobTimeout : Time
  /-- The platform's value for a float beyond the 64-bit integers. -/
  overflow : Int

structure World where
  now : Time
  jobs : Jobs
  redis : Redis
  /-- The handler calls that have returned: the job and the error, `none` for nil. -/
  calls : List (Uuid × Option String)
  /-- Every job ever inserted, with its row at that time. -/
  inserted : Jobs

def World.empty (now : Time) : World := ⟨now, ∅, ∅, [], ∅⟩

inductive Reply where
  /-- The call succeeds. -/
  | ok
  /-- The call fails and has no effect. -/
  | fail
  /-- The `INSERT` succeeds and the row gets this identifier. -/
  | inserted (id : Uuid)
  /-- The query succeeds with these rows. -/
  | rows (jobs : List Job)
  /-- The query's stream of rows breaks off after these. -/
  | truncated (jobs : List Job)
  /-- The job's handler returns. -/
  | returned (err : Option String)
deriving DecidableEq

inductive Effect where
  | none
  | insert (id : Uuid) (row : JobRow)
  | setStatus (id : Uuid) (status : JobStatus)
  | setError (id : Uuid) (status : JobStatus) (retryCount : Int4) (jobErr : String)
  | delete (id : Uuid)
  | push (queue jobID : String)
  | schedule (jobID : String) (runAt : Time)
  | takeDue
  | record (id : Uuid) (err : Option String)
deriving DecidableEq

namespace World

def apply (w : World) : Effect → World
  | .none => w
  | .insert id row => { w with jobs := w.jobs.insert id row, inserted := w.inserted.insert id row }
  | .setStatus id status => { w with jobs := Storage.updateJobStatus w.now id status w.jobs }
  | .setError id status retryCount jobErr =>
    { w with jobs := Storage.updateJobError w.now id status retryCount jobErr w.jobs }
  | .delete id => { w with jobs := w.jobs.erase id }
  | .push queue jobID => { w with redis := Queue.push queue jobID w.redis }
  | .schedule jobID runAt => { w with redis := Queue.schedule jobID runAt w.redis }
  | .takeDue => { w with redis := (Queue.getDueJobs w.now w.redis).2 }
  | .record id err => { w with calls := (id, err) :: w.calls }

/-- The row of a job, if it has one. -/
def row (w : World) (id : Uuid) : Option JobRow := w.jobs.lookup id

/-- The row a job was inserted with, also after it has been deleted. -/
def origin (w : World) (id : Uuid) : Option JobRow := w.inserted.lookup id

end World

namespace Effect

/-- What an effect makes of the row with a given key. -/
def onRow (now : Time) (id : Uuid) (row : Option JobRow) : Effect → Option JobRow
  | .insert id' row' => if id = id' then some row' else row
  | .setStatus id' status => if id = id' then row.map (Storage.setStatus now status) else row
  | .setError id' status retryCount jobErr =>
    if id = id' then row.map (Storage.setError now status retryCount jobErr) else row
  | .delete id' => if id = id' then Option.none else row
  | .none | .push _ _ | .schedule _ _ | .takeDue | .record _ _ => row

/-- The status an effect writes into the row with a given key. -/
def writes (id : Uuid) : Effect → Option JobStatus
  | .insert id' row => if id' = id then some row.status else Option.none
  | .setStatus id' status | .setError id' status _ _ =>
    if id' = id then some status else Option.none
  | .none | .delete _ | .push _ _ | .schedule _ _ | .takeDue | .record _ _ => Option.none

/-- The key of the row an effect writes to. -/
def target : Effect → Option Uuid
  | .insert id _ | .setStatus id _ | .setError id _ _ _ | .delete id => some id
  | .none | .push _ _ | .schedule _ _ | .takeDue | .record _ _ => Option.none

end Effect

namespace World

theorem row_apply (w : World) (e : Effect) (id : Uuid) :
    (w.apply e).row id = e.onRow w.now id (w.row id) := by
  cases e with
  | insert id' row' =>
    by_cases same : id = id'
    · subst same
      simp [apply, row, Effect.onRow]
    · simp [apply, row, Effect.onRow, same, AList.lookup_insert_ne]
  | setStatus id' status =>
    by_cases same : id = id'
    · subst same
      simp [apply, row, Effect.onRow, Storage.updateJobStatus, Storage.lookup_update]
    · simp [apply, row, Effect.onRow, Storage.updateJobStatus, Storage.lookup_update, same]
  | setError id' status retryCount jobErr =>
    by_cases same : id = id'
    · subst same
      simp [apply, row, Effect.onRow, Storage.updateJobError, Storage.lookup_update]
    · simp [apply, row, Effect.onRow, Storage.updateJobError, Storage.lookup_update, same]
  | delete id' =>
    by_cases same : id = id'
    · subst same
      simp [apply, row, Effect.onRow, AList.lookup_erase]
    · simp [apply, row, Effect.onRow, same, AList.lookup_erase_ne]
  | none | push _ _ | schedule _ _ | takeDue | record _ _ => rfl

/-- A row is as it was before an effect, or has the status the effect wrote. -/
theorem row_apply_cases {w : World} {e : Effect} {id : Uuid} {row : JobRow}
    (after : (w.apply e).row id = some row) :
    (e.writes id = none ∧ w.row id = some row) ∨ e.writes id = some row.status := by
  rw [row_apply] at after
  cases e with
  | insert id' new =>
    simp only [Effect.onRow] at after
    split at after
    case isTrue same =>
      cases after
      exact .inr (by simp [Effect.writes, same])
    case isFalse other => exact .inl ⟨by simp [Effect.writes, Ne.symm other], after⟩
  | setStatus id' status | setError id' status _ _ =>
    simp only [Effect.onRow] at after
    split at after
    case isTrue same =>
      obtain ⟨old, _, rfl⟩ := Option.map_eq_some_iff.mp after
      exact .inr (by simp [Effect.writes, same, Storage.setStatus, Storage.setError])
    case isFalse other => exact .inl ⟨by simp [Effect.writes, Ne.symm other], after⟩
  | delete id' =>
    simp only [Effect.onRow] at after
    split at after
    · cases after
    · exact .inl ⟨rfl, after⟩
  | none | push _ _ | schedule _ _ | takeDue | record _ _ => exact .inl ⟨rfl, after⟩

theorem row_apply_of_target_ne {w : World} {e : Effect} {id : Uuid} (other : e.target ≠ some id) :
    (w.apply e).row id = w.row id := by
  rw [row_apply]
  cases e <;> simp_all [Effect.onRow, Effect.target, eq_comm]

@[simp] theorem now_apply (w : World) (e : Effect) : (w.apply e).now = w.now := by
  cases e <;> rfl

theorem origin_apply (w : World) (e : Effect) (id : Uuid) :
    (w.apply e).origin id = match e with
      | .insert id' row => if id = id' then some row else w.origin id
      | _ => w.origin id := by
  cases e with
  | insert id' row =>
    by_cases same : id = id'
    · subst same
      simp [apply, origin]
    · simp [apply, origin, same, AList.lookup_insert_ne]
  | none | setStatus _ _ | setError _ _ _ _ | delete _ | push _ _ | schedule _ _ | takeDue
  | record _ _ => rfl

theorem calls_apply (w : World) (e : Effect) :
    (w.apply e).calls = match e with
      | .record id err => (id, err) :: w.calls
      | _ => w.calls := by
  cases e <;> rfl

theorem mem_calls_apply {w : World} {e : Effect} {call : Uuid × Option String}
    (made : call ∈ w.calls) : call ∈ (w.apply e).calls := by
  rw [calls_apply]
  cases e with
  | record id err => exact List.mem_cons_of_mem _ made
  | none | insert _ _ | setStatus _ _ | setError _ _ _ _ | delete _ | push _ _ | schedule _ _
  | takeDue => exact made

theorem redis_apply (w : World) (e : Effect) :
    (w.apply e).redis = match e with
      | .push queue jobID => Queue.push queue jobID w.redis
      | .schedule jobID runAt => Queue.schedule jobID runAt w.redis
      | .takeDue => (Queue.getDueJobs w.now w.redis).2
      | _ => w.redis := by
  cases e <;> rfl

/-- Only a push adds to a list, and no effect takes from one. -/
theorem mem_contents_apply {w : World} {e : Effect} {queue member : String} :
    member ∈ Queue.contents queue (w.apply e).redis ↔
      e = .push queue member ∨ member ∈ Queue.contents queue w.redis := by
  rw [redis_apply]
  cases e with
  | push queue' jobID =>
    by_cases same : queue = queue'
    · subst same
      simp [Queue.contents_push, eq_comm]
    · simp [Queue.contents_push, same, Ne.symm same]
  | takeDue => simp
  | none | insert _ _ | setStatus _ _ | setError _ _ _ _ | delete _ | schedule _ _ | record _ _ => simp

/-- Only a `Schedule` call adds to the schedule. -/
theorem mem_scheduled_of_apply {w : World} {e : Effect} {member : String}
    (held : member ∈ Queue.scheduled (w.apply e).redis) :
    (∃ runAt, e = .schedule member runAt) ∨ member ∈ Queue.scheduled w.redis := by
  rw [redis_apply] at held
  cases e with
  | schedule jobID runAt =>
    simp only [Queue.scheduled_schedule, SortedSet.mem_zadd] at held
    exact held.imp_left fun same => ⟨runAt, by rw [same]⟩
  | takeDue =>
    simp only [Queue.scheduled_getDueJobs] at held
    exact .inr (SortedSet.mem_rangeByScore_or_remove.mpr (.inr held))
  | none | insert _ _ | setStatus _ _ | setError _ _ _ _ | delete _ | push _ _ | record _ _ =>
    exact .inr held

theorem getJob_eq_some {w : World} {id : Uuid} {job : Job} :
    Storage.getJob id w.jobs = some job ↔ job.id = id ∧ w.row id = some job.toJobRow :=
  Storage.getJob_eq_some

theorem getJob_eq_none {w : World} {id : Uuid} :
    Storage.getJob id w.jobs = none ↔ w.row id = none := by
  simp [Storage.getJob, row]

end World

end GoQueue
