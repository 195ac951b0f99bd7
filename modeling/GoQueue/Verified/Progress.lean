import GoQueue.Verified.Conformance
import GoQueue.Verified.Delivery
import GoQueue.Verified.Service

/-! # What can still happen to a job

Whether the workers, the scheduler's passes and requests on a job can still bring its row to
another status, or remove it.  A pending, scheduled or running job can be cancelled and a
dead one deleted, whatever else is going on.  A retrying job, for which the API has no
request, has its identifier under way, and so may a failed one: it is followed here from
wherever it is into a list, through the pops of everything before it, to the worker that
writes the row.
-/

namespace GoQueue.Verified

variable {cfg : Config} {id : Uuid} {status : JobStatus} {row : JobRow} {s : State} {i : Nat}
  {P : State → Prop}

/-- The operation is a worker's or a pass of the scheduler, or it is a request on the job. -/
def serves (cfg : Config) (id : Uuid) : Op → Bool
  | .createJob (.created _ stored) => stored.id = id
  | .cancelJob (.received idParam) | .retryJob (.received idParam)
  | .deleteJob (.received idParam) => cfg.uuid.parse idParam = some id
  | .cancelJob (.checked id' _) | .retryJob (.checked id' _) | .retryJob (.updated id' _) => id' = id
  | .createJob (.received _) | .createJob (.responded _) | .cancelJob (.responded _)
  | .retryJob (.responded _) | .deleteJob (.responded _) => false
  | .processJob _ | .processScheduledJobs _ | .recoverUnqueuedJobs _ | .recoverStaleJobs _ => true

/-- A step of a worker, of the scheduler or of a request on the job, whose call succeeds. -/
def attends (cfg : Config) (id : Uuid) (s : State) : Action → Bool
  | .tick _ | .pop => true
  | .begin task => serves cfg id task.start
  | .run i reply => reply.succeeds && s.ops[i]?.any (serves cfg id)

/-- Runs made of such steps only. -/
def attended (cfg : Config) (id : Uuid) (s : State) (a : Action) : Prop := attends cfg id s a = true

instance (s : State) (a : Action) : Decidable (attended cfg id s a) :=
  inferInstanceAs (Decidable (_ = true))

theorem attended_faultFree {a : Action} (allowed : attended cfg id s a) : faultFree s a := by
  cases a with
  | run i reply =>
    simp only [attended, attends, Bool.and_eq_true] at allowed
    exact allowed.1
  | tick _ | begin _ | pop => rfl

/-- Some finite continuation made of such steps gives the state this property. -/
def Attainable (cfg : Config) (id : Uuid) (P : State → Prop) (s : State) : Prop :=
  (system cfg).CanReach (attended cfg id) P s

/-- The row has another status than this one, or is gone. -/
def Moved (id : Uuid) (status : JobStatus) (s : State) : Prop :=
  ∀ row, s.world.row id = some row → row.status ≠ status

/-- The row has come to what the state machine has after `failed`. -/
def Retried (id : Uuid) (s : State) : Prop :=
  ∃ row, s.world.row id = some row ∧ (row.status = .retrying ∨ row.status = .dead)

/-! ## Single steps -/

section Steps

variable {op op' : Op} {r : Reply} {e : Effect}

theorem Attainable.begin (task : Task) (own : serves cfg id task.start = true)
    (later : Attainable cfg id P ⟨s.world, s.ops ++ [task.start]⟩) : Attainable cfg id P s :=
  .after (a := .begin task) own rfl later

theorem Attainable.run (place : s.ops[i]? = some op)
    (moves : op.step cfg s.world r = some (e, op')) (succeeds : r.succeeds = true)
    (own : serves cfg id op = true)
    (later : Attainable cfg id P ⟨s.world.apply e, s.ops.set i op'⟩) : Attainable cfg id P s := by
  refine .after (a := .run i r) ?_ (State.step_run place moves) later
  simp [attended, attends, succeeds, place, own]

theorem Attainable.write {new : JobStatus} (place : s.ops[i]? = some op)
    (moves : op.step cfg s.world r = some (e, op')) (succeeds : r.succeeds = true)
    (own : serves cfg id op = true) (wrote : e.writes id = some new) (different : new ≠ status) :
    Attainable cfg id (Moved id status) s := by
  refine .run place moves succeeds own (.here ?_)
  intro row present
  obtain ⟨unwritten, _⟩ | written := World.row_apply_cases present
  · simp [wrote] at unwritten
  · rw [wrote, Option.some.injEq] at written
    exact written ▸ different

/-- The update of `handleFailure`, when the number of tries is one that PostgreSQL stores. -/
theorem step_failing (cfg : Config) (w : World) (job : Job) (jobErr : String) {n : Int4}
    (fits : Worker.int4? (job.retryCount.val + 1) = some n) :
    ∃ op', Op.step cfg w (.processJob (.failing job jobErr)) .ok = some (.setError job.id
      (if job.retryCount.val + 1 < job.maxRetries.val then .retrying else .dead) n jobErr, op') := by
  by_cases left : job.retryCount.val + 1 < job.maxRetries.val
  · exact ⟨.processJob (.rescheduling job (job.retryCount.val + 1)), by
      simp [Op.step, Worker.ProcessJob.step, left, not_le.mpr left, fits]⟩
  · exact ⟨.processJob .returned, by
      simp [Op.step, Worker.ProcessJob.step, left, not_lt.mp left, fits]⟩

end Steps

theorem getJob_row (present : s.world.row id = some row) :
    Storage.getJob id s.world.jobs = some (Storage.scanJob id row) :=
  World.getJob_eq_some.mpr ⟨rfl, present⟩

/-! ## Requests -/

theorem movable_of_cancellable (present : s.world.row id = some row)
    (cancellable : row.status.canTransitionTo .cancelled = true) :
    Attainable cfg id (Moved id row.status) s := by
  have named : serves cfg id (Task.start (.cancelJob (cfg.uuid.string id))) = true := by
    simp [serves, Task.start, cfg.uuid.parse_string]
  refine .begin (.cancelJob (cfg.uuid.string id)) named ?_
  have place : (s.ops ++ [Task.start (.cancelJob (cfg.uuid.string id))])[s.ops.length]? =
      some (.cancelJob (.received (cfg.uuid.string id))) := by simp [Task.start]
  have checked : Op.step cfg s.world (.cancelJob (.received (cfg.uuid.string id))) .ok =
      some (.none, .cancelJob (.checked id (Storage.scanJob id row))) := by
    simp [Op.step, Api.CancelJob.step, cfg.uuid.parse_string, getJob_row present,
      Storage.scanJob, cancellable]
  refine .run place checked rfl named ?_
  refine .write (r := .ok) (State.getElem?_set_place place _) rfl rfl (by simp [serves])
    (if_pos rfl) ?_
  intro same
  rw [← same] at cancellable
  cases cancellable

theorem movable_of_dead (present : s.world.row id = some row) (dead : row.status = .dead) :
    Attainable cfg id (Moved id row.status) s := by
  have named : serves cfg id (Task.start (.deleteJob (cfg.uuid.string id))) = true := by
    simp [serves, Task.start, cfg.uuid.parse_string]
  refine .begin (.deleteJob (cfg.uuid.string id)) named ?_
  have place : (s.ops ++ [Task.start (.deleteJob (cfg.uuid.string id))])[s.ops.length]? =
      some (.deleteJob (.received (cfg.uuid.string id))) := by simp [Task.start]
  have deletable : Storage.deletable id s.world.jobs = true :=
    Api.DeleteJob.deletable_iff.mpr ⟨row, present, dead⟩
  have deleted : Op.step cfg s.world (.deleteJob (.received (cfg.uuid.string id))) .ok =
      some (.delete id, .deleteJob (.responded (Api.writeStatus "deleted"))) := by
    simp [Op.step, Api.DeleteJob.step, cfg.uuid.parse_string, deletable]
  refine .run place deleted rfl named (.here ?_)
  intro row' after
  rw [World.row_apply] at after
  simp [Effect.onRow] at after

/-! ## The job that is followed -/

/-- A state of the system in which the job has a row, which may differ from `row` in what a
change of status changes. -/
structure Standing (cfg : Config) (id : Uuid) (row : JobRow) (s : State) : Prop where
  reachable : (system cfg).Reachable anyAction s
  present : ∃ current, s.world.row id = some current ∧ Storage.SameJob row current ∧
    current.retryCount = row.retryCount

namespace Standing

variable {op op' : Op} {r : Reply} {e : Effect}

theorem of_present (reachable : (system cfg).Reachable anyAction s)
    (present : s.world.row id = some row) : Standing cfg id row s :=
  ⟨reachable, row, present, .refl row, rfl⟩

theorem sound (standing : Standing cfg id row s) (place : s.ops[i]? = some op) :
    op.Sound cfg s.world :=
  (reachable_sound standing.reachable).ops op (List.mem_of_getElem? place)

theorem run (standing : Standing cfg id row s) (place : s.ops[i]? = some op)
    (moves : op.step cfg s.world r = some (e, op'))
    (kept : e.target ≠ some id ∨ ∃ status, e = .setStatus id status) :
    Standing cfg id row ⟨s.world.apply e, s.ops.set i op'⟩ := by
  refine ⟨standing.reachable.step (a := .run i r) trivial (State.step_run place moves), ?_⟩
  obtain ⟨current, present, same, count⟩ := standing.present
  cases kept with
  | inl aside => exact ⟨current, by rw [World.row_apply_of_target_ne aside, present], same, count⟩
  | inr updated =>
    obtain ⟨status, rfl⟩ := updated
    refine ⟨Storage.setStatus s.world.now status current, ?_,
      same.trans (Storage.sameJob_setStatus _ _ _), count⟩
    simp [World.row_apply, Effect.onRow, present]

/-- A snapshot of the job names its queue. -/
theorem queue_eq {row' : JobRow} (standing : Standing cfg id row s)
    (knows : s.world.Knows id row') : row'.queue = row.queue := by
  obtain ⟨current, present, same, _⟩ := standing.present
  have known := (reachable_sound standing.reachable).world.rows present
  exact (knows.sameJob known).queue.trans same.queue.symm

end Standing

/-! ## At a worker -/

theorem movable_of_popped (changes : firstWrite cfg row ≠ status) (standing : Standing cfg id row s)
    (place : s.ops[i]? = some (.processJob (.popped (cfg.uuid.string id)))) :
    Attainable cfg id (Moved id status) s := by
  obtain ⟨current, present, same, _⟩ := standing.present
  unfold firstWrite at changes
  rw [same.type] at changes
  split at changes
  case isTrue registered =>
    have fetched : Op.step cfg s.world (.processJob (.popped (cfg.uuid.string id))) .ok =
        some (.none, .processJob (.fetched (Storage.scanJob id current))) := by
      simp [Op.step, Worker.ProcessJob.step, cfg.uuid.parse_string, getJob_row present,
        Storage.scanJob, registered]
    refine .run place fetched rfl rfl ?_
    exact .write (r := .ok) (State.getElem?_set_place place _) rfl rfl rfl (if_pos rfl) changes
  case isFalse unregistered =>
    have noHandler : Op.step cfg s.world (.processJob (.popped (cfg.uuid.string id))) .ok =
        some (.none, .processJob (.noHandler (Storage.scanJob id current))) := by
      simp [Op.step, Worker.ProcessJob.step, cfg.uuid.parse_string, getJob_row present,
        Storage.scanJob, unregistered]
    refine .run place noHandler rfl rfl ?_
    exact .write (r := .ok) (State.getElem?_set_place place _) rfl rfl rfl (if_pos rfl) changes

theorem retried_of_failing {job : Job} {jobErr : String} (own : job.id = id)
    (fits : (Worker.int4? (job.retryCount.val + 1)).isSome = true) (standing : Standing cfg id row s)
    (place : s.ops[i]? = some (.processJob (.failing job jobErr))) :
    Attainable cfg id (Retried id) s := by
  obtain ⟨n, fits⟩ := Option.isSome_iff_exists.mp fits
  obtain ⟨op', failed⟩ := step_failing cfg s.world job jobErr fits
  obtain ⟨current, present, _⟩ := standing.present
  subst own
  refine .run place failed rfl rfl (.here ?_)
  have written := World.row_apply s.world (.setError job.id
    (if job.retryCount.val + 1 < job.maxRetries.val then .retrying else .dead) n jobErr) job.id
  simp only [Effect.onRow, present, if_true, Option.map_some] at written
  refine ⟨_, written, ?_⟩
  simp only [Storage.setError]
  split <;> simp

/-- The handler may return an error. -/
theorem retried_of_executing {job : Job} (own : job.id = id)
    (fits : (Worker.int4? (job.retryCount.val + 1)).isSome = true) (standing : Standing cfg id row s)
    (place : s.ops[i]? = some (.processJob (.executing job))) : Attainable cfg id (Retried id) s := by
  refine .run (r := .returned (some "")) place rfl rfl rfl ?_
  replace standing := standing.run (r := .returned (some "")) place rfl (.inl (by simp [Effect.target]))
  exact retried_of_failing own fits standing (State.getElem?_set_place place _)

theorem retried_of_fetched {job : Job} (own : job.id = id)
    (fits : (Worker.int4? (job.retryCount.val + 1)).isSome = true) (standing : Standing cfg id row s)
    (place : s.ops[i]? = some (.processJob (.fetched job))) : Attainable cfg id (Retried id) s := by
  refine .run (r := .ok) place rfl rfl rfl ?_
  replace standing := standing.run (r := .ok) place rfl (.inr ⟨.running, by rw [own]⟩)
  exact retried_of_executing own fits standing (State.getElem?_set_place place _)

theorem retried_of_popped (registered : cfg.registered row.type = true)
    (fits : (Worker.int4? (row.retryCount.val + 1)).isSome = true) (standing : Standing cfg id row s)
    (place : s.ops[i]? = some (.processJob (.popped (cfg.uuid.string id)))) :
    Attainable cfg id (Retried id) s := by
  obtain ⟨current, present, same, count⟩ := standing.present
  have fetched : Op.step cfg s.world (.processJob (.popped (cfg.uuid.string id))) .ok =
      some (.none, .processJob (.fetched (Storage.scanJob id current))) := by
    simp [Op.step, Worker.ProcessJob.step, cfg.uuid.parse_string, getJob_row present,
      Storage.scanJob, ← same.type, registered]
  refine .run place fetched rfl rfl ?_
  replace standing := standing.run place fetched (.inl (by simp [Effect.target]))
  rw [← count] at fits
  exact retried_of_fetched rfl fits standing (State.getElem?_set_place place _)

/-! ## From a list to a worker -/

/-- A worker pops from the queue of the job, and from there the property is attained. -/
structure Receptive (cfg : Config) (id : Uuid) (row : JobRow) (P : State → Prop) : Prop where
  served : Served cfg row
  delivered : ∀ (s : State) (i : Nat), Standing cfg id row s →
    s.ops[i]? = some (.processJob (.popped (cfg.uuid.string id))) → Attainable cfg id P s

/-- How many identifiers the workers have to pop at most. -/
def backlog (cfg : Config) (s : State) : Nat :=
  (cfg.queues.map fun queue => (Queue.contents queue s.world.redis).length).sum

theorem backlog_popped {queue jobIDStr : String} {redis : Redis} {ops : List Op}
    (popped : Queue.Popped s.world.redis cfg.queues queue jobIDStr redis) :
    backlog cfg ⟨{ s.world with redis := redis }, ops⟩ < backlog cfg s := by
  have shorter (queue' : String) : (Queue.contents queue' redis).length ≤
      (Queue.contents queue' s.world.redis).length := by
    by_cases same : queue' = queue
    · subst same
      simp [popped.last]
    · rw [popped.others queue' same]
  refine List.sum_lt_sum _ _ (fun queue' _ => shorter queue') ⟨queue, popped.asked, ?_⟩
  simp [popped.last]

/-- The workers pop everything before the job and then the job. -/
theorem attainable_of_queued (receptive : Receptive cfg id row P) (standing : Standing cfg id row s)
    (queued : cfg.uuid.string id ∈ Queue.contents row.queue s.world.redis) :
    Attainable cfg id P s := by
  refine Transition.System.CanReach.of_rank (backlog cfg)
    (I := fun s => Standing cfg id row s ∧
      cfg.uuid.string id ∈ Queue.contents row.queue s.world.redis) ?_ ⟨standing, queued⟩
  rintro s ⟨standing, queued⟩
  cases found : Queue.pop cfg.queues s.world.redis with
  | none =>
    rw [Queue.pop_eq_none.mp found row.queue receptive.served] at queued
    cases queued
  | some result =>
    obtain ⟨jobIDStr, redis⟩ := result
    obtain ⟨queue, popped⟩ := Queue.pop_popped found
    have taken : (system cfg).step s .pop = some ⟨{ s.world with redis := redis },
        s.ops ++ [.processJob (.popped jobIDStr)]⟩ := by
      simp [system, State.step, found]
    have after : Standing cfg id row ⟨{ s.world with redis := redis },
        s.ops ++ [.processJob (.popped jobIDStr)]⟩ :=
      ⟨standing.reachable.step trivial taken, standing.present⟩
    -- either the job itself was popped, or the backlog before it is shorter now
    by_cases own : jobIDStr = cfg.uuid.string id
    · subst own
      refine .inl (.after (a := .pop) rfl taken ?_)
      exact receptive.delivered _ s.ops.length after (by simp)
    · refine .inr ⟨.pop, _, rfl, taken, ⟨after, ?_⟩, backlog_popped popped⟩
      by_cases same : row.queue = queue
      · rw [same, popped.last] at queued
        simpa [same, Ne.symm own] using queued
      · rw [← popped.others row.queue same] at queued
        exact queued

/-! ## From a batch to a list -/

section Batches

variable {op op' : Op} {r : Reply}

theorem attainable_of_push {queue : String} (receptive : Receptive cfg id row P)
    (standing : Standing cfg id row s) (place : s.ops[i]? = some op)
    (moves : op.step cfg s.world r = some (.push queue (cfg.uuid.string id), op'))
    (succeeds : r.succeeds = true) (own : serves cfg id op = true) (same : queue = row.queue) :
    Attainable cfg id P s := by
  subst same
  refine .run place moves succeeds own ?_
  refine attainable_of_queued receptive (standing.run place moves (.inl (by simp [Effect.target]))) ?_
  simp [World.redis_apply, Queue.contents_push]

/-- What is known of the rest of a batch. -/
def Resumes (cfg : Config) (id : Uuid) (row : JobRow) (P : State → Prop) (i : Nat)
    (rest : List String) : Prop :=
  ∀ s, Standing cfg id row s → s.ops[i]? = some (.processScheduledJobs (.releasing rest)) →
    cfg.uuid.string id ∈ rest → Attainable cfg id P s

theorem attainable_of_pushedByPass {job : Job} {rest : List String}
    (resumes : Resumes cfg id row P i rest) (standing : Standing cfg id row s)
    (place : s.ops[i]? = some (.processScheduledJobs (.pushed job rest)))
    (held : cfg.uuid.string id ∈ rest) : Attainable cfg id P s := by
  refine .run (r := .ok) place rfl rfl rfl ?_
  refine resumes _ (standing.run (r := .ok) place rfl ?_) (State.getElem?_set_place place _) held
  by_cases own : job.id = id
  · exact .inr ⟨.pending, by rw [own]⟩
  · exact .inl (by simpa [Effect.target] using own)

theorem attainable_of_fetchedByPass {job : Job} {jobIDStr : String} {rest : List String}
    (receptive : Receptive cfg id row P) (resumes : Resumes cfg id row P i rest)
    (standing : Standing cfg id row s)
    (place : s.ops[i]? = some (.processScheduledJobs (.fetched job jobIDStr rest)))
    (held : cfg.uuid.string id ∈ jobIDStr :: rest) : Attainable cfg id P s := by
  obtain ⟨knows, rfl, _⟩ := standing.sound place
  by_cases own : job.id = id
  · subst own
    exact attainable_of_push (r := .ok) receptive standing place rfl rfl rfl (standing.queue_eq knows)
  · have held : cfg.uuid.string id ∈ rest := by simpa [Ne.symm own] using held
    refine .run (r := .ok) place rfl rfl rfl ?_
    have after := standing.run (r := .ok) place rfl (.inl (by simp [Effect.target]))
    have place' := State.getElem?_set_place place
      (.processScheduledJobs (if job.status = .retrying then .pushed job rest else .releasing rest))
    by_cases retrying : job.status = .retrying
    · simp only [retrying, if_true] at after place' ⊢
      exact attainable_of_pushedByPass resumes after place' held
    · simp only [retrying, if_false] at after place' ⊢
      exact resumes _ after place' held

/-- A pass that has the job in its batch pushes it in its turn. -/
theorem resumes (receptive : Receptive cfg id row P) (rest : List String) : Resumes cfg id row P i rest := by
  induction rest with
  | nil =>
    intro s standing place held
    cases held
  | cons jobIDStr rest inductionHypothesis =>
    intro s standing place held
    obtain ⟨id', _, rfl, _⟩ := standing.sound place jobIDStr List.mem_cons_self
    cases read : Storage.getJob id' s.world.jobs with
    | none =>
      -- the job is not the one we follow, which has a row
      have other : id ≠ id' := by
        rintro rfl
        obtain ⟨_, present, _⟩ := standing.present
        rw [getJob_row present] at read
        cases read
      have missing : Op.step cfg s.world
          (.processScheduledJobs (.releasing (cfg.uuid.string id' :: rest))) .ok =
          some (.none, .processScheduledJobs (.releasing rest)) := by
        simp [Op.step, Scheduler.ProcessScheduledJobs.step, cfg.uuid.parse_string, read]
      refine .run place missing rfl rfl ?_
      exact inductionHypothesis _ (standing.run place missing (.inl (by simp [Effect.target])))
        (State.getElem?_set_place place _) (by simpa [other] using held)
    | some job =>
      have fetched : Op.step cfg s.world
          (.processScheduledJobs (.releasing (cfg.uuid.string id' :: rest))) .ok =
          some (.none, .processScheduledJobs (.fetched job (cfg.uuid.string id') rest)) := by
        simp [Op.step, Scheduler.ProcessScheduledJobs.step, cfg.uuid.parse_string, read]
      refine .run place fetched rfl rfl ?_
      exact attainable_of_fetchedByPass receptive inductionHypothesis
        (standing.run place fetched (.inl (by simp [Effect.target]))) (State.getElem?_set_place place _) held

/-- A recovery pass that has selected the job pushes it in its turn. -/
theorem attainable_of_selected (receptive : Receptive cfg id row P) {jobs : List Job}
    (standing : Standing cfg id row s)
    (place : s.ops[i]? = some (.recoverUnqueuedJobs (.pushing jobs)))
    (held : ∃ job ∈ jobs, job.id = id) : Attainable cfg id P s := by
  induction jobs generalizing s with
  | nil =>
    obtain ⟨_, member, _⟩ := held
    cases member
  | cons job rest inductionHypothesis =>
    have knows := standing.sound place job List.mem_cons_self
    by_cases own : job.id = id
    · subst own
      exact attainable_of_push (r := .ok) receptive standing place rfl rfl rfl (standing.queue_eq knows)
    · refine .run (r := .ok) place rfl rfl rfl ?_
      refine inductionHypothesis (standing.run (r := .ok) place rfl (.inl (by simp [Effect.target])))
        (State.getElem?_set_place place _) ?_
      simpa [own] using held

/-- The schedule gives the job to a pass that begins when it is due. -/
theorem attainable_of_scheduled (receptive : Receptive cfg id row P) (standing : Standing cfg id row s)
    (held : cfg.uuid.string id ∈ Queue.scheduled s.world.redis) : Attainable cfg id P s := by
  obtain ⟨entry, there, text⟩ := SortedSet.mem_iff.mp held
  obtain ⟨elapsed, due⟩ : ∃ elapsed : Nat,
      SortedSet.score entry ≤ Time.unix (s.world.now + elapsed) := by
    refine ⟨(SortedSet.score entry * second - s.world.now).toNat, ?_⟩
    rw [Time.unix, Int.le_ediv_iff_mul_le (by decide)]
    exact sub_le_iff_le_add'.mp (Int.self_le_toNat _)
  let later : State := ⟨{ s.world with now := s.world.now + elapsed },
    s.ops ++ [.processScheduledJobs .starting]⟩
  have waited : (system cfg).Reachable anyAction
      ⟨{ s.world with now := s.world.now + elapsed }, s.ops⟩ :=
    standing.reachable.step (a := .tick elapsed) trivial rfl
  have begun : Standing cfg id row later :=
    ⟨waited.step (a := .begin .processScheduledJobs) trivial rfl, standing.present⟩
  have place : later.ops[s.ops.length]? = some (.processScheduledJobs .starting) := by simp [later]
  refine .after (a := .tick elapsed) rfl rfl (Attainable.begin .processScheduledJobs rfl ?_)
  refine .run (r := .ok) place rfl rfl rfl ?_
  refine resumes receptive _ _ (begun.run (r := .ok) place rfl (.inl (by simp [Effect.target])))
    (State.getElem?_set_place place _) ?_
  exact SortedSet.mem_rangeByScore.mpr ⟨_, due, text ▸ there⟩

theorem attainable_of_schedule {runAt : Time} (receptive : Receptive cfg id row P)
    (standing : Standing cfg id row s) (place : s.ops[i]? = some op)
    (moves : op.step cfg s.world r = some (.schedule (cfg.uuid.string id) runAt, op'))
    (succeeds : r.succeeds = true) (own : serves cfg id op = true) : Attainable cfg id P s := by
  refine .run place moves succeeds own ?_
  refine attainable_of_scheduled receptive (standing.run place moves (.inl (by simp [Effect.target]))) ?_
  simp [World.redis_apply]

end Batches

/-! ## Whatever is under way -/

/-- The operation has the job's identifier and puts it into Redis, or reads the row for a
worker. -/
def carries (cfg : Config) (id : Uuid) : Op → Bool
  | .createJob (.created _ stored) => stored.id = id
  | .retryJob (.updated id' _) => id' = id
  | .processJob (.popped jobIDStr) => jobIDStr = cfg.uuid.string id
  | .processJob (.rescheduling job _) => job.id = id
  | .processScheduledJobs (.releasing dueJobIDs) => cfg.uuid.string id ∈ dueJobIDs
  | .processScheduledJobs (.fetched _ jobIDStr rest) => cfg.uuid.string id ∈ jobIDStr :: rest
  | .processScheduledJobs (.pushed _ rest) => cfg.uuid.string id ∈ rest
  | .recoverUnqueuedJobs (.pushing jobs) => ∃ job ∈ jobs, job.id = id
  | _ => false

/-- The identifier can still come to a worker. -/
def Deliverable (cfg : Config) (id : Uuid) (queue : String) (s : State) : Prop :=
  cfg.uuid.string id ∈ Queue.scheduled s.world.redis ∨
  cfg.uuid.string id ∈ Queue.contents queue s.world.redis ∨
  ∃ op ∈ s.ops, carries cfg id op = true

theorem attainable_of_carries {op : Op} (receptive : Receptive cfg id row P)
    (standing : Standing cfg id row s) (place : s.ops[i]? = some op)
    (carried : carries cfg id op = true) : Attainable cfg id P s := by
  have sound := standing.sound place
  cases op with
  | createJob pc =>
    cases pc with
    | created job stored =>
      obtain rfl : stored.id = id := by simpa [carries] using carried
      obtain ⟨knows, queued, _⟩ := sound
      cases runAt : job.runAt with
      | none =>
        -- the name of a served queue is not one that was cut
        rw [standing.queue_eq knows] at queued
        have own := Storage.eq_of_varchar queued (cfg.short row.queue receptive.served)
        have pushed : Op.step cfg s.world (.createJob (.created job stored)) .ok =
            some (.push job.queue (cfg.uuid.string stored.id),
              .createJob (.responded ⟨201, .job stored⟩)) := by
          simp [Op.step, Api.CreateJob.step, runAt]
        exact attainable_of_push receptive standing place pushed rfl carried own
      | some time =>
        have scheduled : Op.step cfg s.world (.createJob (.created job stored)) .ok =
            some (.schedule (cfg.uuid.string stored.id) time,
              .createJob (.responded ⟨201, .job stored⟩)) := by
          simp [Op.step, Api.CreateJob.step, runAt]
        exact attainable_of_schedule receptive standing place scheduled rfl carried
    | received _ | responded _ => cases carried
  | retryJob pc =>
    cases pc with
    | updated id' job =>
      obtain rfl : id' = id := by simpa [carries] using carried
      exact attainable_of_push (r := .ok) receptive standing place rfl rfl carried
        (standing.queue_eq sound.2)
    | received _ | checked _ _ | responded _ => cases carried
  | processJob pc =>
    cases pc with
    | popped jobIDStr =>
      obtain rfl : jobIDStr = cfg.uuid.string id := by simpa [carries] using carried
      exact receptive.delivered s i standing place
    | rescheduling job newRetryCount =>
      obtain rfl : job.id = id := by simpa [carries] using carried
      exact attainable_of_schedule (r := .ok) receptive standing place rfl rfl rfl
    | noHandler _ | fetched _ | executing _ | succeeded _ | failing _ _ | returned => cases carried
  | processScheduledJobs pc =>
    cases pc with
    | starting => cases carried
    | releasing dueJobIDs =>
      exact resumes receptive dueJobIDs s standing place (by simpa [carries] using carried)
    | fetched job jobIDStr rest =>
      exact attainable_of_fetchedByPass receptive (resumes receptive rest) standing place
        (by simpa [carries] using carried)
    | pushed job rest =>
      exact attainable_of_pushedByPass (resumes receptive rest) standing place
        (by simpa [carries] using carried)
  | recoverUnqueuedJobs pc =>
    cases pc with
    | starting => cases carried
    | pushing jobs =>
      exact attainable_of_selected receptive standing place (by simpa [carries] using carried)
  | cancelJob _ | deleteJob _ | recoverStaleJobs _ => cases carried

theorem attainable_of_deliverable (receptive : Receptive cfg id row P) (standing : Standing cfg id row s)
    (deliverable : Deliverable cfg id row.queue s) : Attainable cfg id P s := by
  obtain scheduled | queued | ⟨op, running, carried⟩ := deliverable
  · exact attainable_of_scheduled receptive standing scheduled
  · exact attainable_of_queued receptive standing queued
  · obtain ⟨i, place⟩ := List.mem_iff_getElem?.mp running
    exact attainable_of_carries receptive standing place carried

/-- The update that the operation intends is one that PostgreSQL can make: the number of
tries does not leave the range of the column. -/
def countFits : Op → Bool
  | .processJob (.failing job _) => (Worker.int4? (job.retryCount.val + 1)).isSome
  | _ => true

/-- The operation is going to write a status other than `failed` to the row. -/
def rewrites (id : Uuid) (op : Op) : Bool :=
  countFits op && (intends id op).any (· ≠ .failed)

theorem movable_of_rewrites {op : Op} (place : s.ops[i]? = some op)
    (rewritten : rewrites id op = true) : Attainable cfg id (Moved id .failed) s := by
  simp only [rewrites, Bool.and_eq_true, Option.any_eq_true, decide_eq_true_eq] at rewritten
  obtain ⟨fits, new, intended, different⟩ := rewritten
  cases op with
  | cancelJob pc =>
    cases pc with
    | checked id' job =>
      simp only [intends, Option.ite_none_right_eq_some, Option.some.injEq] at intended
      obtain ⟨rfl, rfl⟩ := intended
      exact .write (r := .ok) place rfl rfl (by simp [serves]) (if_pos rfl) different
    | received _ | responded _ => cases intended
  | retryJob pc =>
    cases pc with
    | checked id' job =>
      simp only [intends, Option.ite_none_right_eq_some, Option.some.injEq] at intended
      obtain ⟨rfl, rfl⟩ := intended
      exact .write (r := .ok) place rfl rfl (by simp [serves]) (if_pos rfl) different
    | received _ | updated _ _ | responded _ => cases intended
  | processJob pc =>
    cases pc with
    | noHandler job =>
      simp only [intends, Option.ite_none_right_eq_some, Option.some.injEq] at intended
      exact absurd intended.2.symm different
    | fetched job | succeeded job =>
      simp only [intends, Option.ite_none_right_eq_some, Option.some.injEq] at intended
      obtain ⟨rfl, rfl⟩ := intended
      exact .write (r := .ok) place rfl rfl rfl (if_pos rfl) different
    | executing job =>
      -- the handler returns without an error
      simp only [intends, Option.ite_none_right_eq_some, Option.some.injEq] at intended
      obtain ⟨rfl, rfl⟩ := intended
      refine .run (r := .returned none) place rfl rfl rfl ?_
      exact .write (r := .ok) (State.getElem?_set_place place _) rfl rfl rfl (if_pos rfl) different
    | failing job jobErr =>
      simp only [intends, Option.ite_none_right_eq_some, Option.some.injEq] at intended
      obtain ⟨rfl, rfl⟩ := intended
      obtain ⟨n, count⟩ := Option.isSome_iff_exists.mp fits
      obtain ⟨op', failed⟩ := step_failing cfg s.world job jobErr count
      exact .write place failed rfl rfl (if_pos rfl) different
    | popped _ | rescheduling _ _ | returned => cases intended
  | processScheduledJobs pc =>
    cases pc with
    | fetched job jobIDStr rest =>
      simp only [intends, Option.ite_none_right_eq_some, Option.some.injEq] at intended
      obtain ⟨⟨retrying, rfl⟩, rfl⟩ := intended
      have pushed : Op.step cfg s.world (.processScheduledJobs (.fetched job jobIDStr rest)) .ok =
          some (.push job.queue jobIDStr, .processScheduledJobs (.pushed job rest)) := by
        simp [Op.step, Scheduler.ProcessScheduledJobs.step, retrying]
      refine .run place pushed rfl rfl ?_
      exact .write (r := .ok) (State.getElem?_set_place place _) rfl rfl rfl (if_pos rfl) different
    | pushed job rest =>
      simp only [intends, Option.ite_none_right_eq_some, Option.some.injEq] at intended
      obtain ⟨rfl, rfl⟩ := intended
      exact .write (r := .ok) place rfl rfl rfl (if_pos rfl) different
    | starting | releasing _ => cases intended
  | recoverStaleJobs pc =>
    cases pc with
    | failing jobs =>
      simp only [intends, Option.ite_none_right_eq_some, Option.some.injEq] at intended
      exact absurd intended.2.symm different
    | starting => cases intended
  | createJob _ | deleteJob _ | recoverUnqueuedJobs _ => cases intended

/-! ## Row by row -/

/-- A job that a worker has worked on is of a queue that is popped. -/
theorem served_of_touched (reachable : (system cfg).Reachable anyAction s)
    (present : s.world.row id = some row) (touched : ¬ Untouched row.status) : Served cfg row :=
  ((reachable_served reachable).rows id row present).resolve_left touched

/-- What a row waits for is under way as long as no call has failed. -/
theorem movable_of_retrying (reachable : (system cfg).Reachable faultFree s)
    (present : s.world.row id = some row) (retrying : row.status = .retrying) :
    Attainable cfg id (Moved id row.status) s := by
  have anyhow : (system cfg).Reachable anyAction s := reachable.mono fun _ _ _ => trivial
  have standing := Standing.of_present anyhow present
  have changes : firstWrite cfg row ≠ row.status := by
    unfold firstWrite
    split <;> simp [retrying]
  have receptive : Receptive cfg id row (Moved id row.status) :=
    ⟨served_of_touched anyhow present (by simp [Untouched, retrying]),
      fun _ _ => movable_of_popped changes⟩
  obtain scheduled | queued | ⟨op, running, holds⟩ :=
    reachable_noneLost reachable id row present (.inr retrying)
  · exact attainable_of_scheduled receptive standing scheduled
  · exact attainable_of_queued receptive standing queued
  · obtain ⟨i, place⟩ := List.mem_iff_getElem?.mp running
    cases holds with
    | fetched own | noHandler own =>
      exact .write (r := .ok) place rfl rfl rfl (if_pos own) (by simp [retrying])
    | created _ own | rescheduling own =>
      exact attainable_of_carries receptive standing place (by simp [carries, own])
    | releasing held | fetchedByPass held | pushed held =>
      exact attainable_of_carries receptive standing place (by simpa [carries] using held)
    | popped => exact attainable_of_carries receptive standing place (by simp [carries])

/-- A worker has the job and will count a try when the handler returns an error. -/
def counts (id : Uuid) : Op → Bool
  | .processJob (.fetched job) | .processJob (.executing job) | .processJob (.failing job _) =>
    job.id = id && (Worker.int4? (job.retryCount.val + 1)).isSome
  | _ => false

/-- A worker has the job, or will have it, and can count one more try. -/
def Retriable (cfg : Config) (id : Uuid) (row : JobRow) (s : State) : Prop :=
  (∃ op ∈ s.ops, counts id op = true) ∨
  cfg.registered row.type = true ∧ (Worker.int4? (row.retryCount.val + 1)).isSome = true ∧
    Deliverable cfg id row.queue s

theorem retried_of_counts {op : Op} (standing : Standing cfg id row s) (place : s.ops[i]? = some op)
    (counted : counts id op = true) : Attainable cfg id (Retried id) s := by
  cases op with
  | processJob pc =>
    cases pc with
    | fetched job =>
      simp only [counts, Bool.and_eq_true, decide_eq_true_eq] at counted
      exact retried_of_fetched counted.1 counted.2 standing place
    | executing job =>
      simp only [counts, Bool.and_eq_true, decide_eq_true_eq] at counted
      exact retried_of_executing counted.1 counted.2 standing place
    | failing job jobErr =>
      simp only [counts, Bool.and_eq_true, decide_eq_true_eq] at counted
      exact retried_of_failing counted.1 counted.2 standing place
    | popped _ | noHandler _ | succeeded _ | rescheduling _ _ | returned => cases counted
  | createJob _ | cancelJob _ | retryJob _ | deleteJob _ | processScheduledJobs _
  | recoverUnqueuedJobs _ | recoverStaleJobs _ => cases counted

section Failed

variable (reachable : (system cfg).Reachable anyAction s) (present : s.world.row id = some row)
  (failed : row.status = .failed)

include reachable present failed

theorem movable_of_failed (registered : cfg.registered row.type = true)
    (deliverable : Deliverable cfg id row.queue s) : Attainable cfg id (Moved id row.status) s := by
  have served := served_of_touched reachable present (by simp [Untouched, failed])
  refine attainable_of_deliverable ⟨served, fun _ _ => movable_of_popped ?_⟩
    (.of_present reachable present) deliverable
  simp [firstWrite, registered, failed]

theorem retried_of_failed (retriable : Retriable cfg id row s) : Attainable cfg id (Retried id) s := by
  have standing := Standing.of_present reachable present
  obtain ⟨op, running, counted⟩ | ⟨registered, fits, deliverable⟩ := retriable
  · obtain ⟨i, place⟩ := List.mem_iff_getElem?.mp running
    exact retried_of_counts standing place counted
  · have served := served_of_touched reachable present (by simp [Untouched, failed])
    exact attainable_of_deliverable ⟨served, fun _ _ => retried_of_popped registered fits⟩
      standing deliverable

end Failed

end GoQueue.Verified
