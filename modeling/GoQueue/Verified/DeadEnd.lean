import GoQueue.Verified.Progress
import GoQueue.Cmd.Main

/-! # Failed jobs

`failed` is written by the worker to a job whose type has no handler, and by the stale check.
Nothing takes a row from there: `CancelJob`, `RetryJob` and `DeleteJob` refuse it, and neither
recovery pass selects it.  What was under way when the row was written can still change it.
When nothing is, the row stays as it is for ever, and this is the only way in which a job that
is neither completed nor cancelled can come to a standstill.
-/

namespace GoQueue.Verified

variable {cfg : Config} {id : Uuid} {row : JobRow}

/-- A failed job for which nothing is under way: no operation is going to write another status
to the row, and if its type has a handler, the identifier does not come to a worker. -/
structure Abandoned (cfg : Config) (id : Uuid) (row : JobRow) (s : State) : Prop where
  failed : row.status = .failed
  unwritten : ∀ op ∈ s.ops, rewrites id op = false
  undelivered : cfg.registered row.type = true → ¬ Deliverable cfg id row.queue s

/-- The stores leave the row of the job as it is. -/
structure Resting (cfg : Config) (id : Uuid) (row : JobRow) (w : World) : Prop where
  known : w.Knows id row
  failed : ∃ current, w.row id = some current ∧ current.status = .failed
  unqueued : cfg.registered row.type = true →
    ¬ cfg.uuid.string id ∈ Queue.scheduled w.redis ∧
      ¬ cfg.uuid.string id ∈ Queue.contents row.queue w.redis

/-- The operation leaves the row of the job as it is. -/
structure Inert (cfg : Config) (id : Uuid) (row : JobRow) (op : Op) : Prop where
  unwritten : rewrites id op = false
  undelivered : cfg.registered row.type = true → carries cfg id op = false

/-! ## One call -/

section Step

variable {w : World} {op op' : Op} {reply : Reply} {e : Effect}

theorem rewrites_eq_false : rewrites id op = false ↔
    (countFits op = true → ∀ status, intends id op = some status → status = .failed) := by
  cases intended : intends id op <;> simp [rewrites, intended]

/-- An update that was made was one that could be made. -/
theorem countFits_of_step (step : Op.Step cfg w op reply e op') (succeeds : reply.succeeds = true) :
    countFits op = true := by
  cases step with
  | processJob step =>
    cases step with
    | @dead job _ n _ counted | @retrying job _ n _ counted =>
      simp only [countFits, Worker.int4?, ← counted, dif_pos n.property, Option.isSome_some]
    | deadLost _ | retryingLost _ => cases succeeds
    | _ => rfl
  | createJob _ | cancelJob _ | retryJob _ | deleteJob _ | processScheduledJobs _
  | recoverUnqueuedJobs _ | recoverStaleJobs _ => rfl

/-- The member that an effect puts into a list or into the schedule. -/
def enqueues : Effect → Option String
  | .push _ jobID | .schedule jobID _ => some jobID
  | _ => none

theorem carries_of_enqueues (step : Op.Step cfg w op reply e op')
    (queued : enqueues e = some (cfg.uuid.string id)) : carries cfg id op = true := by
  cases step with
  | createJob step => cases step <;> simp_all [enqueues, carries]
  | cancelJob step => cases step <;> cases queued
  | retryJob step => cases step <;> simp_all [enqueues, carries]
  | deleteJob step => cases step <;> cases queued
  | processJob step => cases step <;> simp_all [enqueues, carries]
  | processScheduledJobs step => cases step <;> simp_all [enqueues, carries]
  | recoverUnqueuedJobs step => cases step <;> simp_all [enqueues, carries]
  | recoverStaleJobs step => cases step <;> cases queued

theorem notMem_redis_apply {queue member : String} (aside : enqueues e ≠ some member)
    (absent : ¬ member ∈ Queue.scheduled w.redis ∧ ¬ member ∈ Queue.contents queue w.redis) :
    ¬ member ∈ Queue.scheduled (w.apply e).redis ∧
      ¬ member ∈ Queue.contents queue (w.apply e).redis := by
  constructor
  · intro held
    obtain ⟨runAt, rfl⟩ | before := World.mem_scheduled_of_apply held
    · exact aside rfl
    · exact absent.1 before
  · intro held
    obtain rfl | before := World.mem_contents_apply.mp held
    · exact aside rfl
    · exact absent.2 before

/-- Whoever has read the row in another status has read another one. -/
theorem Resting.other (resting : Resting cfg id row w) {job : Job}
    (present : w.row job.id = some job.toJobRow) (different : job.status ≠ .failed) :
    job.id ≠ id := by
  rintro rfl
  obtain ⟨current, there, failed⟩ := resting.failed
  rw [present] at there
  cases there
  exact different failed

/-- A status that the operation intends is intended for another row. -/
theorem Inert.elsewhere (inert : Inert cfg id row op) (fits : countFits op = true) (id' : Uuid)
    {status : JobStatus} (intended : intends id op = if id' = id then some status else none)
    (different : status ≠ .failed) : id' ≠ id := by
  rintro rfl
  rw [if_pos rfl] at intended
  exact different (rewrites_eq_false.mp inert.unwritten fits status intended)

variable (step : Op.Step cfg w op reply e op') (succeeds : reply.succeeds = true)
  (resting : Resting cfg id row w) (inert : Inert cfg id row op)

include step succeeds resting inert

/-- The only status that is written to the row is the one it has. -/
theorem Inert.writes {status : JobStatus} (wrote : e.writes id = some status) :
    status = .failed := by
  obtain ⟨unknown, _⟩ | ⟨_, _, intended⟩ := intends_of_writes step wrote
  · obtain ⟨origin, inserted, _⟩ := resting.known
    rw [unknown] at inserted
    cases inserted
  · exact rewrites_eq_false.mp inert.unwritten (countFits_of_step step succeeds) status intended

theorem Resting.apply (sound : op.Sound cfg w) : Resting cfg id row (w.apply e) := by
  refine ⟨resting.known.grow (World.grows_apply (step.effect_sound sound)), ?_, ?_⟩
  · obtain ⟨current, present, failed⟩ := resting.failed
    have written {status : JobStatus} (wrote : e.writes id = some status) : status = .failed :=
      inert.writes step succeeds resting wrote
    by_cases own : e.target = some id
    case neg => exact ⟨current, by rw [World.row_apply_of_target_ne own, present], failed⟩
    rw [World.row_apply]
    cases e with
    | insert id' new =>
      cases own
      exact ⟨new, if_pos rfl, written (if_pos rfl)⟩
    | setStatus id' status | setError id' status _ _ =>
      cases own
      refine ⟨_, by simp only [Effect.onRow, present, if_true, Option.map_some]; rfl, ?_⟩
      exact written (if_pos rfl)
    -- only a dead row is deleted, and this one has failed
    | delete id' =>
      cases own
      cases step with
      | deleteJob step =>
        cases step with
        | deleted _ there dead =>
          rw [present] at there
          cases there
          rw [dead] at failed
          cases failed
      | createJob step | cancelJob step | retryJob step | processJob step
      | processScheduledJobs step | recoverUnqueuedJobs step | recoverStaleJobs step => cases step
    | none | push _ _ | schedule _ _ | takeDue | record _ _ => cases own
  · intro registered
    refine notMem_redis_apply ?_ (resting.unqueued registered)
    intro queued
    have carried := carries_of_enqueues step queued
    rw [inert.undelivered registered] at carried
    cases carried

/-- An operation that left the row alone so far goes on to do so. -/
theorem Inert.rewrites_step (world : w.Sound cfg) (sound : op.Sound cfg w) : rewrites id op' = false := by
  have fits := countFits_of_step step succeeds
  cases step with
  | createJob step => cases step <;> rfl
  | cancelJob step =>
    cases step with
    | checked _ present cancellable =>
      have other := resting.other present (by rintro failed; rw [failed] at cancellable; cases cancellable)
      simp [rewrites, intends, other]
    | _ => rfl
  | retryJob step =>
    cases step with
    | checked _ present dead =>
      have other := resting.other present (by simp [dead])
      simp [rewrites, intends, other]
    | _ => rfl
  | deleteJob step => cases step <;> rfl
  | processJob step =>
    cases step with
    | @fetched jobIDStr job parsed present registered =>
      have other : job.id ≠ id := by
        rintro rfl
        -- a type with a handler: then nothing brings the identifier to a worker
        have same := resting.known.sameJob (world.rows present)
        have carried := inert.undelivered (same.type ▸ registered)
        simp [carries, World.Names.eq_string sound parsed] at carried
      simp [rewrites, intends, other]
    | noHandler _ _ _ =>
      simp only [rewrites, intends]
      split <;> simp
    | running =>
      have other := inert.elsewhere fits _ rfl (by decide)
      simp [rewrites, intends, other]
    | succeeded | failed =>
      have other := inert.elsewhere fits _ rfl (by decide)
      simp [rewrites, intends, other]
    | _ => rfl
  | processScheduledJobs step =>
    cases step with
    | fetched _ present =>
      have other := resting.other present
      simp only [rewrites, intends]
      split
      case isTrue own => exact absurd own.2 (other (by simp [own.1]))
      case isFalse => simp
    | @pushedRetrying job _ _ retrying =>
      have other := inert.elsewhere fits job.id (by simp [intends, retrying]; rfl) (by decide)
      simp [rewrites, intends, other]
    | _ => rfl
  | recoverUnqueuedJobs step => cases step <;> rfl
  | recoverStaleJobs step =>
    cases step <;> simp only [rewrites, intends] <;> split <;> simp

theorem Inert.carries_step (registered : cfg.registered row.type = true) :
    carries cfg id op' = false := by
  have fits := countFits_of_step step succeeds
  have before := inert.undelivered registered
  cases step with
  | createJob step =>
    cases step with
    | @inserted _ _ id' _ _ fresh _ =>
      have other : id' ≠ id := by
        rintro rfl
        obtain ⟨_, inserted, _⟩ := resting.known
        rw [fresh] at inserted
        cases inserted
      simp [carries, Storage.scanJob, other]
    | _ => rfl
  | cancelJob step => cases step <;> rfl
  | retryJob step =>
    cases step with
    -- the retry has reset another row, since it was not about to rewrite this one
    | updated =>
      have other := inert.elsewhere fits _ rfl (by decide)
      simp [carries, other]
    | _ => rfl
  | deleteJob step => cases step <;> rfl
  | processJob step =>
    cases step with
    | @retrying job _ _ left _ =>
      have other := inert.elsewhere fits job.id (by simp [intends, left]; rfl) (by decide)
      simp [carries, other]
    | retryingLost _ => cases succeeds
    | _ => rfl
  | processScheduledJobs step =>
    cases step with
    -- the schedule does not hold the identifier, so the batch does not either
    | taken =>
      simp only [carries, decide_eq_false_iff_not]
      intro taken
      exact (resting.unqueued registered).1 (SortedSet.mem_rangeByScore_or_remove.mpr (.inl taken))
    | untaken => rfl
    | _ => simp_all [carries]
  | recoverUnqueuedJobs step =>
    cases step with
    -- the recovery pass selects pending rows
    | selected _ matching =>
      simp only [carries, decide_eq_false_iff_not]
      rintro ⟨job, chosen, own⟩
      obtain ⟨present, pending, _⟩ := matching job chosen
      exact resting.other present (by simp [pending]) own
    | unselected => rfl
    | pushed | unpushed => simp_all [carries]
  | recoverStaleJobs step => cases step <;> rfl

end Step

/-! ## Whole runs -/

section Runs

variable {s t : State}

theorem Abandoned.resting (abandoned : Abandoned cfg id row s) (sound : s.Sound cfg)
    (present : s.world.row id = some row) : Resting cfg id row s.world where
  known := sound.world.rows present
  failed := ⟨row, present, abandoned.failed⟩
  unqueued registered := by
    have undelivered := abandoned.undelivered registered
    exact ⟨fun held => undelivered (.inl held), fun held => undelivered (.inr (.inl held))⟩

theorem Abandoned.inert (abandoned : Abandoned cfg id row s) {op : Op} (running : op ∈ s.ops) :
    Inert cfg id row op where
  unwritten := abandoned.unwritten op running
  undelivered registered := by
    have undelivered := abandoned.undelivered registered
    simp only [Deliverable, not_or, not_exists, not_and, Bool.not_eq_true] at undelivered
    exact undelivered.2.2 op running

theorem resting_step {a : Action} (step : State.Step cfg s a t) (allowed : a.faultFree = true)
    (sound : s.Sound cfg) (resting : Resting cfg id row s.world)
    (inert : ∀ op ∈ s.ops, Inert cfg id row op) :
    Resting cfg id row t.world ∧ ∀ op ∈ t.ops, Inert cfg id row op := by
  have indexed := step.pointwise (W := Resting cfg id row) (P := fun _ _ op => Inert cfg id row op)
    resting (fun i op found => inert op (List.mem_of_getElem? found)) ?tick ?begin ?pop ?run
  · refine ⟨indexed.1, fun op running => ?_⟩
    obtain ⟨i, found⟩ := List.mem_iff_getElem?.mp running
    exact indexed.2 i op found
  case tick => exact fun _ => ⟨⟨resting.known, resting.failed, resting.unqueued⟩, fun _ _ held => held⟩
  case begin =>
    intro task _
    cases task <;> exact ⟨rfl, fun _ => rfl⟩
  case pop =>
    intro queue jobIDStr redis popped
    have shorter {member : String} (held : member ∈ Queue.contents row.queue redis) :
        member ∈ Queue.contents row.queue s.world.redis := by
      by_cases same : row.queue = queue
      · rw [same, popped.last]
        exact List.mem_append_left _ (same ▸ held)
      · rwa [← popped.others row.queue same]
    have listed : jobIDStr ∈ Queue.contents queue s.world.redis := by
      rw [popped.last]
      exact List.mem_append_right _ List.mem_cons_self
    refine ⟨⟨resting.known, resting.failed, fun registered => ?_⟩, ⟨rfl, fun registered => ?_⟩,
      fun _ _ held => held⟩
    · obtain ⟨unscheduled, unlisted⟩ := resting.unqueued registered
      exact ⟨popped.scheduled ▸ unscheduled, fun held => unlisted (shorter held)⟩
    · -- the list of another queue does not hold this job
      simp only [carries, decide_eq_false_iff_not]
      rintro rfl
      rw [← (sound.world.contents listed).queue_eq resting.known (.inl popped.asked)] at listed
      exact (resting.unqueued registered).2 listed
  case run =>
    intro i op reply e op' moved found inner
    have running := List.mem_of_getElem? found
    have succeeds : reply.succeeds = true := by simpa [moved, Action.faultFree] using allowed
    have own := inert op running
    refine ⟨resting.apply inner succeeds own (sound.ops op running), ⟨?_, fun registered => ?_⟩,
      fun _ _ _ _ held => held⟩
    · exact own.rewrites_step inner succeeds resting sound.world (sound.ops op running)
    · exact own.carries_step inner succeeds resting registered

/-- A job that is abandoned stays failed, whatever the system does. -/
theorem stays_failed (reachable : (system cfg).Reachable anyAction s)
    (present : s.world.row id = some row) (abandoned : Abandoned cfg id row s)
    (reaches : (system cfg).Reaches faultFree s t) :
    ∃ current, t.world.row id = some current ∧ current.status = .failed := by
  have invariant := reaches.invariant (P := fun t => (system cfg).Reachable anyAction t ∧
    Resting cfg id row t.world ∧ ∀ op ∈ t.ops, Inert cfg id row op) ?_
    ⟨reachable, abandoned.resting (reachable_sound reachable) present, fun _ => abandoned.inert⟩
  · exact invariant.2.1.failed
  · intro s a t allowed taken held
    obtain ⟨reachable, resting, inert⟩ := held
    exact ⟨reachable.step trivial taken,
      resting_step (State.step_cases taken) allowed (reachable_sound reachable) resting inert⟩

theorem not_attainable_of_abandoned {P : State → Prop}
    (reachable : (system cfg).Reachable anyAction s) (present : s.world.row id = some row)
    (abandoned : Abandoned cfg id row s)
    (excluded : ∀ t current, t.world.row id = some current → current.status = .failed → ¬ P t) :
    ¬ Attainable cfg id P s := by
  rintro ⟨t, reaches, holds⟩
  obtain ⟨current, there, failed⟩ := stays_failed reachable present abandoned
    (reaches.mono fun _ _ => attended_faultFree)
  exact excluded t current there failed holds

/-- In every state of a fault-free run, a job that is neither completed nor cancelled can still
change its status or be deleted exactly if it is not abandoned.  A failed job that a worker has,
or that has a handler and still comes to one, can become `retrying` or `dead`. -/
theorem movable_iff_not_abandoned (reachable : (system cfg).Reachable faultFree s)
    (present : s.world.row id = some row)
    (unfinished : row.status ≠ .completed ∧ row.status ≠ .cancelled) :
    (Attainable cfg id (Moved id row.status) s ↔ ¬ Abandoned cfg id row s) ∧
    (row.status = .failed → Retriable cfg id row s → Attainable cfg id (Retried id) s) := by
  have anyhow : (system cfg).Reachable anyAction s := reachable.mono fun _ _ _ => trivial
  refine ⟨⟨fun movable abandoned => ?_, fun left => ?_⟩, retried_of_failed anyhow present⟩
  · refine not_attainable_of_abandoned anyhow present abandoned ?_ movable
    intro t current there failed moved
    exact moved current there (failed.trans abandoned.failed.symm)
  · cases status : row.status with
    | pending | scheduled | running =>
      exact status ▸ movable_of_cancellable present (by rw [status]; decide)
    | dead => exact status ▸ movable_of_dead present status
    | retrying => exact status ▸ movable_of_retrying reachable present status
    | completed => exact absurd status unfinished.1
    | cancelled => exact absurd status unfinished.2
    | failed =>
      -- a failed job moves on by an operation about to write its row, or by a delivery
      by_cases written : ∀ op ∈ s.ops, rewrites id op = false
      · have delivered : cfg.registered row.type = true ∧ Deliverable cfg id row.queue s := by
          by_contra undelivered
          exact left ⟨status, written, not_and.mp undelivered⟩
        exact status ▸ movable_of_failed anyhow present status delivered.1 delivered.2
      · simp only [not_forall] at written
        obtain ⟨op, running, rewritten⟩ := written
        obtain ⟨i, place⟩ := List.mem_iff_getElem?.mp running
        exact movable_of_rewrites place (by simpa using rewritten)

end Runs

/-- A job has failed once and waits in the schedule. -/
def waitingRun : List Action :=
  [.begin (.createJob (some Cmd.request)), .run 0 (.inserted 1), .run 0 .ok,
    .pop, .run 1 .ok, .run 1 .ok, .run 1 (.returned (some "boom")), .run 1 .ok, .run 1 .ok]

theorem waitingRun_movable : ∃ s row, (system Cmd.mainConfig).Reachable faultFree s ∧
    s.world.row 1 = some row ∧ row.status = .retrying ∧
    Attainable Cmd.mainConfig 1 (Moved 1 row.status) s := by
  have ⟨s, reachable, row, present, retrying⟩ :
      ∃ s, (system Cmd.mainConfig).Reachable faultFree s ∧ ∃ row ∈ s.world.row 1,
        row.status = .retrying :=
    Transition.System.exists_reachable_of_exec waitingRun Cmd.initial_initialState (by decide)
  have movable := movable_iff_not_abandoned reachable present (by simp [retrying])
  refine ⟨s, row, reachable, present, retrying, movable.1.mpr fun abandoned => ?_⟩
  exact absurd (retrying.symm.trans abandoned.failed) (by decide)

/-- A worker pops a job of a type that `main` does not register. -/
def unhandledRun : List Action :=
  [.begin (.createJob (some { Cmd.request with type := "resize" })), .run 0 (.inserted 1), .run 0 .ok,
    .pop, .run 1 .ok, .run 1 .ok]

/-- The job is failed then, and neither changes its status nor disappears any more. -/
theorem unhandled_job_stays_failed : ∃ s row, (system Cmd.mainConfig).Reachable faultFree s ∧
    s.world.row 1 = some row ∧ row.status = .failed ∧
    ¬ Attainable Cmd.mainConfig 1 (Moved 1 row.status) s ∧
    ¬ Attainable Cmd.mainConfig 1 (Retried 1) s := by
  have ⟨s, reachable, row, present, failed, type, idle⟩ :
      ∃ s, (system Cmd.mainConfig).Reachable faultFree s ∧ ∃ row ∈ s.world.row 1,
        row.status = .failed ∧ row.type = "resize" ∧ ∀ op ∈ s.ops, rewrites 1 op = false :=
    Transition.System.exists_reachable_of_exec unhandledRun Cmd.initial_initialState (by decide)
  have anyhow : (system Cmd.mainConfig).Reachable anyAction s := reachable.mono fun _ _ _ => trivial
  have abandoned : Abandoned Cmd.mainConfig 1 row s := by
    refine ⟨failed, idle, fun registered => ?_⟩
    rw [type] at registered
    exact absurd registered (by decide)
  refine ⟨s, row, reachable, present, failed, ?_, ?_⟩
  · refine not_attainable_of_abandoned anyhow present abandoned ?_
    intro t current there still moved
    exact moved current there (still.trans failed.symm)
  · refine not_attainable_of_abandoned anyhow present abandoned ?_
    rintro t current there still ⟨other, there', retried⟩
    rw [there] at there'
    cases there'
    simp [still] at retried

end GoQueue.Verified
