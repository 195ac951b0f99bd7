import GoQueue.System.Soundness
import GoQueue.Cmd.Main

/-! # Waiting jobs are not lost

A row that says `scheduled` or `retrying` waits for its identifier to come back to a worker.
The writer of the status puts the identifier into the schedule next; from there it moves into
a pass's batch, into the list of the job's queue and into a worker's hands.  As long as every
call succeeds, it is in one of these places for as long as the row waits.
-/

namespace GoQueue.Verified

/-- The row waits for its identifier to be delivered. -/
def Waiting (row : JobRow) : Prop :=
  row.status = .scheduled ∨ row.status = .retrying

/-- The operation has the job's identifier and will pass it on or write the job's next
status. -/
inductive Holds (cfg : Config) (id : Uuid) : Op → Prop where
  /-- Created with a time to run at, not scheduled yet. -/
  | created {job stored} : job.runAt.isSome = true → stored.id = id →
      Holds cfg id (.createJob (.created job stored))
  /-- In `handleFailure`, not scheduled yet. -/
  | rescheduling {job newRetryCount} : job.id = id →
      Holds cfg id (.processJob (.rescheduling job newRetryCount))
  /-- In the rest of a batch; a row that was read is pushed next. -/
  | releasing {dueJobIDs} : cfg.uuid.string id ∈ dueJobIDs →
      Holds cfg id (.processScheduledJobs (.releasing dueJobIDs))
  | fetchedByPass {job jobIDStr rest} : cfg.uuid.string id ∈ jobIDStr :: rest →
      Holds cfg id (.processScheduledJobs (.fetched job jobIDStr rest))
  | pushed {job rest} : cfg.uuid.string id ∈ rest →
      Holds cfg id (.processScheduledJobs (.pushed job rest))
  /-- Popped by a worker that has not written the next status. -/
  | popped : Holds cfg id (.processJob (.popped (cfg.uuid.string id)))
  | fetched {job} : job.id = id → Holds cfg id (.processJob (.fetched job))
  | noHandler {job} : job.id = id → Holds cfg id (.processJob (.noHandler job))

/-- The identifier of a job of this queue is in the schedule, in the queue's list, or with an
operation. -/
def Held (cfg : Config) (id : Uuid) (queue : String) (s : State) : Prop :=
  cfg.uuid.string id ∈ Queue.scheduled s.world.redis ∨
  cfg.uuid.string id ∈ Queue.contents queue s.world.redis ∨
  ∃ op ∈ s.ops, Holds cfg id op

/-! ## One call -/

section Step

variable {cfg : Config} {w : World} {op op' : Op} {reply : Reply} {e : Effect} {id : Uuid}
  {row : JobRow}

/-- An identifier leaves the schedule only into the batch of a pass. -/
theorem scheduled_or_taken (step : Op.Step cfg w op reply e op')
    (held : cfg.uuid.string id ∈ Queue.scheduled w.redis) :
    cfg.uuid.string id ∈ Queue.scheduled (w.apply e).redis ∨ Holds cfg id op' := by
  rw [World.redis_apply]
  cases e with
  | takeDue =>
    cases step with
    | processScheduledJobs step =>
      cases step with
      | taken =>
        cases SortedSet.mem_rangeByScore_or_remove.mp held with
        | inl due => exact .inr (.releasing due)
        | inr later =>
          refine .inl ?_
          simpa only [Queue.scheduled_getDueJobs] using later
    | createJob step | cancelJob step | retryJob step | deleteJob step | processJob step
    | recoverUnqueuedJobs step | recoverStaleJobs step => cases step
  | schedule jobID runAt =>
    refine .inl ?_
    rw [Queue.scheduled_schedule]
    exact SortedSet.mem_zadd.mpr (.inr held)
  | none | insert _ _ | setStatus _ _ | setError _ _ _ _ | delete _ | push _ _
  | record _ _ => exact .inl held

/-- Whoever makes a row wait has the identifier in hand. -/
theorem holds_of_writes (step : Op.Step cfg w op reply e op') {status : JobStatus}
    (wrote : e.writes id = some status) (waiting : status = .scheduled ∨ status = .retrying) :
    Holds cfg id op' := by
  cases step with
  | createJob step =>
    cases step with
    | inserted prepared _ stored =>
      simp only [Effect.writes, Option.ite_none_right_eq_some, Option.some.injEq] at wrote
      obtain ⟨same, rfl⟩ := wrote
      rw [(Storage.created_of_createJob stored).status] at waiting
      cases Api.prepare_ok prepared with
      | inl immediate => simp [immediate.2] at waiting
      | inr delayed =>
        obtain ⟨t, runAt, _⟩ := delayed
        exact .created (by rw [runAt]; rfl) same
    | _ => simp [Effect.writes] at wrote
  | cancelJob step => cases step <;> grind [Effect.writes]
  | retryJob step => cases step <;> grind [Effect.writes]
  | deleteJob step => cases step <;> grind [Effect.writes]
  | processJob step =>
    cases step with
    | retrying _ _ =>
      simp only [Effect.writes, Option.ite_none_right_eq_some] at wrote
      exact .rescheduling wrote.1
    | _ => grind [Effect.writes]
  | processScheduledJobs step => cases step <;> grind [Effect.writes]
  | recoverUnqueuedJobs step => cases step <;> grind [Effect.writes]
  | recoverStaleJobs step => cases step <;> grind [Effect.writes]

/-- The identifier is in the schedule, in the list of the queue, or with the operation. -/
def Onward (cfg : Config) (id : Uuid) (queue : String) (w : World) (op : Op) : Prop :=
  cfg.uuid.string id ∈ Queue.scheduled w.redis ∨ cfg.uuid.string id ∈ Queue.contents queue w.redis ∨
    Holds cfg id op

theorem onward_schedule {queue : String} {runAt : Time} :
    Onward cfg id queue (w.apply (.schedule (cfg.uuid.string id) runAt)) op := by
  refine .inl ?_
  rw [World.redis_apply, Queue.scheduled_schedule]
  exact SortedSet.mem_zadd.mpr (.inl rfl)

/-- An identifier that does not parse, or has no row, is not the one of a row. -/
theorem string_ne_of_skipped {member : String} (before : w.row id = some row)
    (skipped : ∀ other, cfg.uuid.parse member = some other → w.row other = none) :
    cfg.uuid.string id ≠ member := by
  rintro rfl
  have absent := skipped id (cfg.uuid.parse_string id)
  rw [before] at absent
  cases absent

/-- A pass drops no identifier of a row from its batch except into the row's queue. -/
theorem onward_of_pass {pc pc' : Scheduler.ProcessScheduledJobs}
    (step : Scheduler.ProcessScheduledJobs.Step cfg w pc reply e pc') (succeeds : reply.succeeds = true)
    (world : w.Sound cfg) (sound : (Op.processScheduledJobs pc).Sound cfg w)
    (holds : Holds cfg id (.processScheduledJobs pc)) (before : w.row id = some row) :
    Onward cfg id row.queue (w.apply e) (.processScheduledJobs pc') := by
  have rest {jobIDStr : String} {rest : List String}
      (listed : cfg.uuid.string id ∈ jobIDStr :: rest)
      (skipped : ∀ other, cfg.uuid.parse jobIDStr = some other → w.row other = none) :
      Onward cfg id row.queue (w.apply .none) (.processScheduledJobs (.releasing rest)) :=
    .inr (.inr (.releasing (List.mem_of_ne_of_mem (string_ne_of_skipped before skipped) listed)))
  cases holds with
  | releasing listed =>
    cases step with
    | invalid unparsed =>
      refine rest listed fun other parsed => ?_
      rw [unparsed] at parsed
      cases parsed
    | missing parsed absent =>
      refine rest listed fun other parsed' => ?_
      rw [parsed] at parsed'
      cases parsed'
      exact absent
    | unread => cases succeeds
    | fetched _ _ => exact .inr (.inr (.fetchedByPass listed))
  | @fetchedByPass job jobIDStr rest listed =>
    obtain ⟨knows, text, _⟩ := sound
    -- the pass pushes into the queue that its snapshot names, which is the row's
    cases List.mem_cons.mp listed with
    | inl own =>
      have same : job.id = id := cfg.uuid.string_injective (text.symm.trans own.symm)
      have queue : row.queue = job.queue := by
        rw [same] at knows
        exact ((world.rows before).sameJob knows).queue
      cases step with
      | pushedRetrying _ | pushed _ =>
        refine .inr (.inl ?_)
        rw [World.redis_apply, Queue.contents_push, if_pos queue, own]
        exact List.mem_cons_self
      | unpushed => cases succeeds
    | inr rest =>
      cases step with
      | pushedRetrying _ => exact .inr (.inr (.pushed rest))
      | pushed _ => exact .inr (.inr (.releasing rest))
      | unpushed => cases succeeds
  | pushed listed => cases step <;> exact .inr (.inr (.releasing listed))

/-- A worker keeps the identifier until it writes the row, and then until the retry is
scheduled. -/
theorem onward_of_delivery {pc pc' : Worker.ProcessJob}
    (step : Worker.ProcessJob.Step cfg w pc reply e pc') (succeeds : reply.succeeds = true)
    (holds : Holds cfg id (.processJob pc)) (before : w.row id = some row)
    (unwritten : e.writes id = none) :
    Onward cfg id row.queue (w.apply e) (.processJob pc') := by
  cases holds with
  | rescheduling own =>
    subst own
    cases step with
    | rescheduled => exact onward_schedule
    | rescheduledLost => cases succeeds
  | popped =>
    cases step with
    | invalid unparsed => simp [cfg.uuid.parse_string] at unparsed
    | missing parsed absent =>
      rw [cfg.uuid.parse_string] at parsed
      cases parsed
      rw [before] at absent
      cases absent
    | unread => cases succeeds
    | fetched parsed _ _ =>
      rw [cfg.uuid.parse_string] at parsed
      exact .inr (.inr (.fetched (Option.some.inj parsed).symm))
    | noHandler parsed _ _ =>
      rw [cfg.uuid.parse_string] at parsed
      exact .inr (.inr (.noHandler (Option.some.inj parsed).symm))
  | fetched own =>
    cases step with
    | running => simp [Effect.writes, own] at unwritten
    | runningLost => cases succeeds
  | noHandler own =>
    cases step with
    | unhandled => simp [Effect.writes, own] at unwritten
    | unhandledLost => cases succeeds

/-- An operation that has the identifier of a row that still waits after its step still has
it, or has put it into the schedule or the list of the job's queue. -/
theorem handedOn (step : Op.Step cfg w op reply e op') (succeeds : reply.succeeds = true)
    (world : w.Sound cfg) (sound : op.Sound cfg w) (holds : Holds cfg id op)
    (before : w.row id = some row) (unwritten : e.writes id = none) :
    Onward cfg id row.queue (w.apply e) op' := by
  cases step with
  | createJob step =>
    cases holds with
    | created delayed own =>
      subst own
      cases step with
      | scheduled _ => exact onward_schedule
      | pushed immediate => simp [immediate] at delayed
      | unqueued => cases succeeds
  | processJob step => exact onward_of_delivery step succeeds holds before unwritten
  | processScheduledJobs step => exact onward_of_pass step succeeds world sound holds before
  | cancelJob _ | retryJob _ | deleteJob _ | recoverUnqueuedJobs _ | recoverStaleJobs _ => cases holds

end Step

/-! ## Whole runs -/

/-- Every row that waits has its identifier somewhere on the way to a worker. -/
def NoneLost (cfg : Config) (s : State) : Prop :=
  ∀ id row, s.world.row id = some row → Waiting row → Held cfg id row.queue s

theorem NoneLost.step {cfg : Config} {s t : State} {a : Action} (step : State.Step cfg s a t)
    (allowed : a.faultFree = true) (sound : s.Sound cfg) (none_lost : NoneLost cfg s) :
    NoneLost cfg t := by
  intro id row present waiting
  cases step with
  | tick => exact none_lost id row present waiting
  | begin =>
    obtain scheduled | listed | ⟨op, running, holds⟩ := none_lost id row present waiting
    · exact .inl scheduled
    · exact .inr (.inl listed)
    · exact .inr (.inr ⟨op, List.mem_append_left _ running, holds⟩)
  | @popped queue jobIDStr redis popped =>
    obtain scheduled | listed | ⟨op, running, holds⟩ := none_lost id row present waiting
    · refine .inl ?_
      show cfg.uuid.string id ∈ Queue.scheduled redis
      rw [popped.scheduled]
      exact scheduled
    · by_cases same : row.queue = queue
      · rw [same, popped.last] at listed
        cases List.mem_append.mp listed with
        | inl left => exact .inr (.inl (by rw [same]; exact left))
        | inr taken =>
          -- the identifier is now in the hands of the worker that popped it
          have own : cfg.uuid.string id = jobIDStr := List.mem_singleton.mp taken
          refine .inr (.inr ⟨.processJob (.popped jobIDStr), ?_, own ▸ .popped⟩)
          exact List.mem_append_right _ List.mem_cons_self
      · refine .inr (.inl ?_)
        show cfg.uuid.string id ∈ Queue.contents row.queue redis
        rw [popped.others _ same]
        exact listed
    · exact .inr (.inr ⟨op, List.mem_append_left _ running, holds⟩)
  | @run before op after reply e op' split inner =>
    have running : op ∈ s.ops := by simp [split]
    have moved : op' ∈ before ++ op' :: after := by simp
    cases World.row_apply_cases present with
    | inr wrote => exact .inr (.inr ⟨op', moved, holds_of_writes inner wrote waiting⟩)
    | inl unchanged =>
      obtain ⟨unwritten, unchanged⟩ := unchanged
      obtain scheduled | listed | ⟨holder, held, holds⟩ := none_lost id row unchanged waiting
      · cases scheduled_or_taken inner scheduled with
        | inl still => exact .inl still
        | inr taken => exact .inr (.inr ⟨op', moved, taken⟩)
      · exact .inr (.inl (World.mem_contents_apply.mpr (.inr listed)))
      · rw [split] at held
        by_cases own : holder = op
        · subst own
          obtain scheduled | listed | keeps :=
            handedOn inner allowed sound.world (sound.ops _ running) holds unchanged unwritten
          · exact .inl scheduled
          · exact .inr (.inl listed)
          · exact .inr (.inr ⟨op', moved, keeps⟩)
        · refine .inr (.inr ⟨holder, ?_, holds⟩)
          simp only [List.mem_append, List.mem_cons, own, false_or] at held ⊢
          exact held.imp_right .inr

theorem reachable_noneLost {cfg : Config} {s : State}
    (reachable : (system cfg).Reachable faultFree s) : NoneLost cfg s := by
  refine reachable.invariant ?_ ?_
  · intro s start id row present
    obtain ⟨now, rfl⟩ := start
    cases present
  · intro s a t before allowed taken none_lost
    exact none_lost.step (State.step_cases taken) allowed (reachable_sound before)

/-- In every state of a run in which every call succeeds, a row that waits has its identifier
in the schedule, in the list of its queue, or with an operation that will pass it on. -/
theorem waiting_job_held {cfg : Config} {s : State}
    (reachable : (system cfg).Reachable faultFree s) {id : Uuid} {row : JobRow}
    (present : s.world.row id = some row)
    (waiting : row.status = .scheduled ∨ row.status = .retrying) :
    cfg.uuid.string id ∈ Queue.scheduled s.world.redis ∨
      cfg.uuid.string id ∈ Queue.contents row.queue s.world.redis ∨
      ∃ op ∈ s.ops, Holds cfg id op := by
  exact reachable_noneLost reachable id row present waiting

/-- A worker has just written `retrying` and not scheduled the job yet. -/
def retryingRun : List Action :=
  [.begin (.createJob (some Cmd.request)), .run 0 (.inserted 1), .run 0 .ok,
    .pop, .run 1 .ok, .run 1 .ok, .run 1 (.returned (some "boom")), .run 1 .ok]

theorem retryingRun_held : ∃ s row, (system Cmd.mainConfig).Reachable faultFree s ∧
    s.world.row 1 = some row ∧ row.status = .retrying ∧
    (Cmd.mainConfig.uuid.string 1 ∈ Queue.scheduled s.world.redis ∨
      Cmd.mainConfig.uuid.string 1 ∈ Queue.contents row.queue s.world.redis ∨
      ∃ op ∈ s.ops, Holds Cmd.mainConfig 1 op) := by
  have ⟨s, reachable, row, present, retrying⟩ :
      ∃ s, (system Cmd.mainConfig).Reachable faultFree s ∧
        ∃ row ∈ s.world.row 1, row.status = .retrying :=
    Transition.System.exists_reachable_of_exec retryingRun Cmd.initial_initialState (by decide)
  exact ⟨s, row, reachable, present, retrying, waiting_job_held reachable present (.inr retrying)⟩

end GoQueue.Verified
