import GoQueue.System.Sequential
import GoQueue.Verified.Tokens

/-! # A job from its first delivery to its last

One job is followed through runs that are made of whole deliveries and whole passes over the
schedule, of this and of all other jobs, in which every call succeeds.  The loop it goes through
is closed over two components and two stores: a worker pops the identifier, runs the handler and,
after a failure, puts the identifier into the schedule; a pass of the scheduler brings it back to
its list.

What the row says at any time depends on the results of the job's executions alone.  `Phase`
lists where the one delivery token can be, with what the row says there.
-/

namespace GoQueue.Verified

/-! ## The results of a job's executions -/

/-- What the job's handler has returned so far, the last result first. -/
def executions (id : Uuid) (w : World) : List (Option String) :=
  (w.calls.filter fun call => call.1 = id).map Prod.snd

def failures (results : List (Option String)) : Nat := results.countP Option.isSome

/-- The message of the latest failure. -/
def lastError : List (Option String) → String
  | [] => ""
  | some jobErr :: _ => jobErr
  | none :: results => lastError results

/-- After these results the job is to be executed again: all were failures, and there have not
been `m` of them.  The first execution takes place for every `m`. -/
def Live (m : Int) (results : List (Option String)) : Prop :=
  none ∉ results ∧ (results ≠ [] → results.length < m)

theorem failures_eq_length {results : List (Option String)} (failed : none ∉ results) :
    failures results = results.length := by
  refine List.countP_eq_length.mpr fun result returned => ?_
  cases result with
  | none => exact absurd returned failed
  | some jobErr => rfl

theorem Live.failures_eq {m : Int} {results : List (Option String)} (live : Live m results) :
    failures results = results.length := failures_eq_length live.1

theorem live_nil (m : Int) : Live m [] := ⟨List.not_mem_nil, fun some => absurd rfl some⟩

theorem Live.cons {m : Int} {results : List (Option String)} {jobErr : String}
    (live : Live m results) (left : (results.length + 1 : Int) < m) :
    Live m (some jobErr :: results) :=
  ⟨by simpa using live.1, fun _ => by simpa using left⟩

/-- One more execution than those after which the job is live. -/
theorem Live.length_le {m : Int} {results : List (Option String)} (live : Live m results) :
    (results.length + 1 : Int) ≤ max 1 m := by
  cases results with
  | nil => simp
  | cons result results =>
    have := live.2 (by simp)
    omega

theorem executions_apply (id : Uuid) (w : World) (e : Effect) :
    executions id (w.apply e) = match e with
      | .record id' err => if id' = id then err :: executions id w else executions id w
      | _ => executions id w := by
  cases e with
  | record id' err =>
    by_cases same : id' = id <;> simp [executions, World.calls_apply, same]
  | none | insert _ _ | setStatus _ _ | setError _ _ _ _ | delete _ | push _ _ | schedule _ _
  | takeDue => rfl

/-! ## The run -/

/-- Deliveries and passes over the schedule, in which every call succeeds. -/
def retryRun (_ : Turn) : Turn.Action → Prop
  | .wait _ | .pop => True
  | .begin task => task = .processScheduledJobs
  | .call reply => reply.succeeds = true

instance (t : Turn) : (a : Turn.Action) → Decidable (retryRun t a)
  | .wait _ | .pop => inferInstanceAs (Decidable True)
  | .begin _ | .call _ => inferInstanceAs (Decidable (_ = _))

/-! ## Where the token is -/

section Phases

variable (cfg : Config) (id : Uuid) (m : Int)

/-- The row of a job that workers execute, after these results. -/
structure Attempted (results : List (Option String)) (row : JobRow) : Prop where
  registered : cfg.registered row.type = true
  served : row.queue ∈ cfg.queues
  maxRetries : row.maxRetries.val = m
  retryCount : row.retryCount.val = failures results
  error : row.error = lastError results

/-- The row of the job has this status. -/
def Shows (results : List (Option String)) (status : JobStatus → Prop) (w : World) : Prop :=
  ∃ row, w.row id = some row ∧ Attempted cfg m results row ∧ status row.status

/-- The status of a job whose token is on its way to a worker. -/
def underWay (status : JobStatus) : Prop := status = .pending ∨ status = .retrying

/-- The status of a job after its last execution. -/
def concluded (results : List (Option String)) (status : JobStatus) : Prop :=
  (results.head? = some none ∧ status = .completed) ∨
    (results.head? ≠ some none ∧ status = .dead ∧ m ≤ failures results)

/-- The operation is a delivery or a pass over the schedule and has no token of the job. -/
def Aside : Op → Prop
  | .processJob pc => inHand cfg id (.processJob pc) = 0
  | .processScheduledJobs pc => inHand cfg id (.processScheduledJobs pc) = 0
  | _ => False

/-- The pass has pushed the job and is about to write its row. -/
def releasesNext : Op → Prop
  | .processScheduledJobs (.pushed job _) => job.id = id
  | _ => False

/-- Nothing is left that could change the row. -/
structure Gone (row : JobRow) (w : World) (op : Op) : Prop where
  present : w.row id = some row
  none : stored cfg w id = 0
  aside : Aside cfg id op
  idle : ¬ releasesNext id op

inductive Phase : List (Option String) → World → Op → Prop where
  /-- In a list or in the schedule. -/
  | queued {results w op} : Live m results → Shows cfg id m results underWay w →
      stored cfg w id = 1 → Aside cfg id op → Phase results w op
  /-- In the batch of a pass. -/
  | batched {results w pc} : Live m results → Shows cfg id m results underWay w →
      stored cfg w id = 0 → inHand cfg id (.processScheduledJobs pc) = 1 →
      Phase results w (.processScheduledJobs pc)
  | popped {results w} : Live m results → Shows cfg id m results underWay w →
      stored cfg w id = 0 → Phase results w (.processJob (.popped (cfg.uuid.string id)))
  | fetched {results w} {job : Job} : job.id = id → Live m results →
      Shows cfg id m results underWay w → Attempted cfg m results job.toJobRow →
      stored cfg w id = 0 → Phase results w (.processJob (.fetched job))
  | executing {results w} {job : Job} : job.id = id → Live m results →
      Shows cfg id m results (· = .running) w → Attempted cfg m results job.toJobRow →
      stored cfg w id = 0 → Phase results w (.processJob (.executing job))
  | succeeded {results w} {job : Job} : job.id = id → Live m results →
      Shows cfg id m results (· = .running) w → stored cfg w id = 0 →
      Phase (none :: results) w (.processJob (.succeeded job))
  | failing {results w jobErr} {job : Job} : job.id = id → Live m results →
      Shows cfg id m results (· = .running) w → Attempted cfg m results job.toJobRow →
      stored cfg w id = 0 → Phase (some jobErr :: results) w (.processJob (.failing job jobErr))
  | rescheduling {results w} {newRetryCount : Int} {job : Job} : job.id = id → Live m results →
      newRetryCount = failures results → Shows cfg id m results underWay w →
      stored cfg w id = 0 → results ≠ [] →
      Phase results w (.processJob (.rescheduling job newRetryCount))
  /-- The token is gone. -/
  | stopped {result results row w op} : Live m results →
      Attempted cfg m (result :: results) row → concluded m (result :: results) row.status →
      Gone cfg id row w op → Phase (result :: results) w op

end Phases

variable {cfg : Config} {id : Uuid} {m : Int} {results : List (Option String)} {w : World}
  {op op' : Op} {reply : Reply} {e : Effect} {status status' : JobStatus → Prop}

/-! ## The row -/

theorem Attempted.setStatus {row : JobRow} (attempted : Attempted cfg m results row) (now : Time)
    (status : JobStatus) : Attempted cfg m results (Storage.setStatus now status row) :=
  ⟨attempted.registered, attempted.served, attempted.maxRetries, attempted.retryCount,
    attempted.error⟩

theorem Shows.frame (shows : Shows cfg id m results status w) (other : e.target ≠ some id) :
    Shows cfg id m results status (w.apply e) := by
  obtain ⟨row, present, attempted, current⟩ := shows
  exact ⟨row, by rw [World.row_apply_of_target_ne other, present], attempted, current⟩

theorem Shows.setStatus (shows : Shows cfg id m results status w) {new : JobStatus}
    (good : status' new) : Shows cfg id m results status' (w.apply (.setStatus id new)) := by
  obtain ⟨row, present, attempted, _⟩ := shows
  refine ⟨Storage.setStatus w.now new row, ?_, attempted.setStatus w.now new, good⟩
  simp [World.row_apply, Effect.onRow, present]

theorem Shows.setError (shows : Shows cfg id m results status w) {new : JobStatus} {n : Int4}
    {jobErr : String} (counted : n.val = failures (some jobErr :: results)) (good : status' new) :
    Shows cfg id m (some jobErr :: results) status' (w.apply (.setError id new n jobErr)) := by
  obtain ⟨row, present, attempted, _⟩ := shows
  refine ⟨Storage.setError w.now new n jobErr row, ?_, ?_, good⟩
  · simp [World.row_apply, Effect.onRow, present]
  · exact ⟨attempted.registered, attempted.served, attempted.maxRetries, counted, rfl⟩

/-- A success adds nothing to the counter and leaves the message. -/
theorem Attempted.success {row : JobRow} (attempted : Attempted cfg m results row) :
    Attempted cfg m (none :: results) row :=
  { attempted with
    retryCount := by simpa [failures] using attempted.retryCount
    error := attempted.error }

/-! ## Redis -/

theorem stored_schedule_ne {id' : Uuid} (other : id' ≠ id) (runAt : Time) :
    stored cfg (w.apply (.schedule (cfg.uuid.string id') runAt)) id = stored cfg w id := by
  have lists : (Queue.schedule (cfg.uuid.string id') runAt w.redis).occurrences (cfg.uuid.string id) =
      w.redis.occurrences (cfg.uuid.string id) := rfl
  simp only [stored, World.redis_apply, Queue.scheduled_schedule, lists]
  rw [SortedSet.count_zadd_ne (by simpa using Ne.symm other)]

theorem stored_schedule_self (empty : stored cfg w id = 0) (runAt : Time) :
    stored cfg (w.apply (.schedule (cfg.uuid.string id) runAt)) id = 1 := by
  have lists : (Queue.schedule (cfg.uuid.string id) runAt w.redis).occurrences (cfg.uuid.string id) =
      w.redis.occurrences (cfg.uuid.string id) := rfl
  simp only [stored, World.redis_apply, Queue.scheduled_schedule, lists] at empty ⊢
  rw [SortedSet.count_zadd_self]
  omega

/-! ## Steps that concern other jobs -/

/-- The effect touches neither the row nor the tokens of the job, and no result of it. -/
structure Elsewhere (cfg : Config) (id : Uuid) (w : World) (e : Effect) : Prop where
  row : e.target ≠ some id
  tokens : stored cfg (w.apply e) id = stored cfg w id
  calls : executions id (w.apply e) = executions id w

theorem elsewhere_none : Elsewhere cfg id w .none := ⟨by simp [Effect.target], rfl, rfl⟩

theorem elsewhere_setStatus {id' : Uuid} (other : id' ≠ id) (status : JobStatus) :
    Elsewhere cfg id w (.setStatus id' status) := ⟨by simpa [Effect.target] using other, rfl, rfl⟩

theorem elsewhere_setError {id' : Uuid} (other : id' ≠ id) (status : JobStatus) (n : Int4)
    (jobErr : String) : Elsewhere cfg id w (.setError id' status n jobErr) :=
  ⟨by simpa [Effect.target] using other, rfl, rfl⟩

theorem elsewhere_record {id' : Uuid} (other : id' ≠ id) (err : Option String) :
    Elsewhere cfg id w (.record id' err) :=
  ⟨by simp [Effect.target], rfl, by simp [executions_apply, other]⟩

theorem elsewhere_schedule {id' : Uuid} (other : id' ≠ id) (runAt : Time) :
    Elsewhere cfg id w (.schedule (cfg.uuid.string id') runAt) :=
  ⟨by simp [Effect.target], stored_schedule_ne other runAt, rfl⟩

/-- A delivery of another job stays with it. -/
theorem delivery_elsewhere {pc pc' : Worker.ProcessJob}
    (step : Worker.ProcessJob.Step cfg w pc reply e pc')
    (sound : (Op.processJob pc).Sound cfg w) (aside : inHand cfg id (.processJob pc) = 0) :
    Elsewhere cfg id w e ∧ inHand cfg id (.processJob pc') = 0 := by
  have same {job : Job} (none : (if job.id = id then 1 else 0) = 0) : job.id ≠ id := by
    simpa using none
  -- the text that was popped is that of the job it parses to
  have read {jobIDStr : String} {job : Job} (names : w.Names cfg jobIDStr)
      (parsed : cfg.uuid.parse jobIDStr = some job.id)
      (none : (if jobIDStr = cfg.uuid.string id then 1 else 0) = 0) : job.id ≠ id := by
    rintro rfl
    simp [names.eq_string parsed] at none
  cases step with
  | invalid _ | missing _ _ | unread | unhandledLost | runningLost | completedLost | deadLost _
  | rescheduledLost => exact ⟨elsewhere_none, rfl⟩
  | fetched parsed _ _ => exact ⟨elsewhere_none, if_neg (read sound parsed aside)⟩
  | noHandler parsed _ _ => exact ⟨elsewhere_none, if_neg (read sound parsed aside)⟩
  | unhandled => exact ⟨elsewhere_setError (same aside) _ _ _, rfl⟩
  | running => exact ⟨elsewhere_setStatus (same aside) _, aside⟩
  | succeeded => exact ⟨elsewhere_record (same aside) _, aside⟩
  | failed => exact ⟨elsewhere_record (same aside) _, aside⟩
  | completed => exact ⟨elsewhere_setStatus (same aside) _, rfl⟩
  | dead _ _ => exact ⟨elsewhere_setError (same aside) _ _ _, rfl⟩
  | retrying _ _ => exact ⟨elsewhere_setError (same aside) _ _ _, aside⟩
  | retryingLost _ => exact ⟨elsewhere_none, aside⟩
  | rescheduled => exact ⟨elsewhere_schedule (same aside) _, rfl⟩

/-! ## Passes over the schedule -/

section Passes

variable {pc pc' : Scheduler.ProcessScheduledJobs}
  (step : Scheduler.ProcessScheduledJobs.Step cfg w pc reply e pc')

include step

variable (id) in
/-- A pass in which every call succeeds loses no token of a job that has a row. -/
theorem pass_conserves (succeeds : reply.succeeds = true)
    (sound : (Op.processScheduledJobs pc).Sound cfg w) (present : w.row id ≠ none) :
    stored cfg (w.apply e) id + inHand cfg id (.processScheduledJobs pc') =
      stored cfg w id + inHand cfg id (.processScheduledJobs pc) := by
  -- an identifier that is passed over is that of another job
  have skipped {jobIDStr : String} {rest : List String} (other : jobIDStr ≠ cfg.uuid.string id) :
      (jobIDStr :: rest).count (cfg.uuid.string id) = rest.count (cfg.uuid.string id) := by
    simp [other]
  have pushed {job : Job} {jobIDStr : String} {rest : List String}
      (text : jobIDStr = cfg.uuid.string job.id) :
      stored cfg (w.apply (.push job.queue jobIDStr)) id + rest.count (cfg.uuid.string id) =
        stored cfg w id + (jobIDStr :: rest).count (cfg.uuid.string id) := by
    subst text
    rw [stored_push, List.count_cons]
    by_cases same : job.id = id
    · simp only [same, if_true, beq_self_eq_true]
      omega
    · simp [same]
  cases step with
  | taken => exact stored_takeDue cfg w id
  | invalid unparsed =>
    simp only [inHand]
    rw [skipped fun same => by simp [same, cfg.uuid.parse_string] at unparsed]
    rfl
  | missing parsed absent =>
    simp only [inHand]
    rw [skipped fun same => by
      rw [same, cfg.uuid.parse_string, Option.some.injEq] at parsed
      exact present (parsed ▸ absent)]
    rfl
  | fetched _ _ => rfl
  | pushedRetrying _ => exact pushed sound.2.1
  | pushed _ => exact pushed sound.2.1
  | released => rfl
  | untaken | unread | unpushed | releasedLost => cases succeeds

variable (id) in
/-- A pass writes no row but that of the job it has pushed, which it makes pending. -/
theorem pass_writes :
    (e.target ≠ some id ∨
      (e = .setStatus id .pending ∧ releasesNext id (.processScheduledJobs pc))) ∧
      executions id (w.apply e) = executions id w := by
  cases step with
  | @released job _ =>
    refine ⟨?_, rfl⟩
    by_cases same : job.id = id
    · exact .inr ⟨by rw [same], same⟩
    · exact .inl (by simpa [Effect.target] using same)
  | taken | untaken | invalid _ | missing _ _ | unread | fetched _ _ | pushedRetrying _ | pushed _
  | unpushed | releasedLost => exact ⟨.inl (by simp [Effect.target]), rfl⟩

/-- A pass writes the row of a job only after it has held its identifier. -/
theorem not_releasesNext_of_pass (sound : (Op.processScheduledJobs pc).Sound cfg w)
    (aside : inHand cfg id (.processScheduledJobs pc) = 0) :
    ¬ releasesNext id (.processScheduledJobs pc') := by
  cases step with
  | @pushedRetrying job jobIDStr rest _ =>
    rintro rfl
    rw [sound.2.1] at aside
    simp [inHand] at aside
  | taken | untaken | invalid _ | missing _ _ | unread | fetched _ _ | pushed _ | unpushed | released
  | releasedLost => exact fun releases => releases

/-- The token is in Redis or in the batch before a pass makes a call, and so it is afterwards. -/
theorem Phase.pass (live : Live m results) (shows : Shows cfg id m results underWay w)
    (one : stored cfg w id + inHand cfg id (.processScheduledJobs pc) = 1)
    (succeeds : reply.succeeds = true) (sound : (Op.processScheduledJobs pc).Sound cfg w) :
    Phase cfg id m results (w.apply e) (.processScheduledJobs pc') := by
  have present : w.row id ≠ none := by
    obtain ⟨row, present, _⟩ := shows
    simp [present]
  have total := pass_conserves id step succeeds sound present
  have after : Shows cfg id m results underWay (w.apply e) := by
    obtain ⟨other | ⟨rfl, _⟩, _⟩ := pass_writes id step
    · exact shows.frame other
    · exact shows.setStatus (.inl rfl)
  by_cases inRedis : stored cfg (w.apply e) id = 1
  · exact .queued live after inRedis (by simp only [Aside]; omega)
  · exact .batched live after (by omega) (by omega)

end Passes

/-! ## After the last execution -/

theorem Gone.step {row : JobRow} (gone : Gone cfg id row w op) (step : Op.Step cfg w op reply e op')
    (succeeds : reply.succeeds = true) (sound : op.Sound cfg w) :
    Gone cfg id row (w.apply e) op' ∧ executions id (w.apply e) = executions id w := by
  have ⟨present, none, aside, idle⟩ := gone
  cases step with
  | processJob step =>
    obtain ⟨away, aside'⟩ := delivery_elsewhere step sound aside
    refine ⟨⟨?_, by rw [away.tokens, none], aside', nofun⟩, away.calls⟩
    rw [World.row_apply_of_target_ne away.row, present]
  | processScheduledJobs step =>
    simp only [Aside] at aside
    have total := pass_conserves id step succeeds sound (by simp [present])
    obtain ⟨writes, calls⟩ := pass_writes id step
    have other := writes.resolve_right fun next => idle next.2
    refine ⟨⟨?_, by omega, by simp only [Aside]; omega, not_releasesNext_of_pass step sound aside⟩, calls⟩
    rw [World.row_apply_of_target_ne other, present]
  | createJob _ | cancelJob _ | retryJob _ | deleteJob _ | recoverUnqueuedJobs _
  | recoverStaleJobs _ => exact aside.elim

/-! ## Deliveries -/

theorem Phase.of_concluded {result : Option String} (live : Live m results)
    (shows : Shows cfg id m (result :: results) (concluded m (result :: results)) w)
    (none : stored cfg w id = 0) (aside : Aside cfg id op) (idle : ¬ releasesNext id op) :
    Phase cfg id m (result :: results) w op := by
  obtain ⟨row, present, attempted, final⟩ := shows
  exact .stopped live attempted final ⟨present, none, aside, idle⟩

section Deliveries

variable {pc' : Worker.ProcessJob}

/-- The row is there and its type has a handler, so a delivery of the token reads it and goes on. -/
theorem Phase.reads (live : Live m results) (shows : Shows cfg id m results underWay w)
    (none : stored cfg w id = 0)
    (step : Worker.ProcessJob.Step cfg w (.popped (cfg.uuid.string id)) reply e pc')
    (succeeds : reply.succeeds = true) :
    executions id (w.apply e) = executions id w ∧
      Phase cfg id m results (w.apply e) (.processJob pc') := by
  have ⟨row, there, attempted, _⟩ := shows
  cases step with
  | invalid unparsed => simp [cfg.uuid.parse_string] at unparsed
  | missing parsed absent =>
    rw [cfg.uuid.parse_string, Option.some.injEq] at parsed
    simp [← parsed, there] at absent
  | unread => cases succeeds
  | fetched parsed present registered =>
    rw [cfg.uuid.parse_string, Option.some.injEq] at parsed
    rw [← parsed, there, Option.some.injEq] at present
    exact ⟨rfl, .fetched parsed.symm live shows (present ▸ attempted) none⟩
  | noHandler parsed present unregistered =>
    rw [cfg.uuid.parse_string, Option.some.injEq] at parsed
    rw [← parsed, there, Option.some.injEq] at present
    rw [← present, attempted.registered] at unregistered
    cases unregistered

/-- `handleFailure` counts the failure, and schedules the job again while a retry is left. -/
theorem Phase.fails {job : Job} {jobErr : String} (live : Live m results)
    (shows : Shows cfg job.id m results (· = .running) w)
    (snapshot : Attempted cfg m results job.toJobRow) (none : stored cfg w job.id = 0)
    (step : Worker.ProcessJob.Step cfg w (.failing job jobErr) reply e pc')
    (succeeds : reply.succeeds = true) :
    executions job.id (w.apply e) = executions job.id w ∧
      Phase cfg job.id m (some jobErr :: results) (w.apply e) (.processJob pc') := by
  have counted : failures (some jobErr :: results) = failures results + 1 := by simp [failures]
  cases step with
  | @dead _ _ n exhausted next =>
    rw [snapshot.retryCount] at next exhausted
    rw [snapshot.maxRetries] at exhausted
    refine ⟨rfl, .of_concluded live (shows.setError (by rw [next, counted]; rfl) ?_) none rfl
      fun releases => releases⟩
    exact .inr ⟨by simp, rfl, by rw [counted]; exact exhausted⟩
  | @retrying _ _ n left next =>
    rw [snapshot.retryCount] at next left
    rw [snapshot.maxRetries, live.failures_eq] at left
    have total : n.val = failures (some jobErr :: results) := by
      rw [next, counted]
      rfl
    exact ⟨rfl, .rescheduling rfl (live.cons left) total (shows.setError total (.inr rfl)) none
      (by simp)⟩
  | deadLost _ | retryingLost _ => cases succeeds

/-- What a delivery's call makes of the job, and the result it adds if it was the handler's. -/
theorem Phase.delivery {pc : Worker.ProcessJob}
    (phase : Phase cfg id m results w (.processJob pc))
    (step : Worker.ProcessJob.Step cfg w pc reply e pc') (succeeds : reply.succeeds = true)
    (sound : (Op.processJob pc).Sound cfg w) :
    ∃ added, executions id (w.apply e) = added ++ executions id w ∧
      Phase cfg id m (added ++ results) (w.apply e) (.processJob pc') := by
  cases phase with
  | queued live shows one aside =>
    obtain ⟨away, aside'⟩ := delivery_elsewhere step sound aside
    exact ⟨[], away.calls, .queued live (shows.frame away.row) (by rw [away.tokens, one]) aside'⟩
  | popped live shows none =>
    obtain ⟨calls, after⟩ := Phase.reads live shows none step succeeds
    exact ⟨[], calls, after⟩
  | fetched own live shows snapshot none =>
    subst own
    cases step with
    | running => exact ⟨[], rfl, .executing rfl live (shows.setStatus rfl) snapshot none⟩
    | runningLost => cases succeeds
  | executing own live shows snapshot none =>
    subst own
    cases step with
    -- the handler has returned: its result is added here, and nowhere else
    | succeeded =>
      refine ⟨[.none], by simp [executions_apply], .succeeded rfl live (shows.frame ?_) none⟩
      simp [Effect.target]
    | @failed _ jobErr =>
      refine ⟨[some jobErr], by simp [executions_apply], ?_⟩
      exact .failing rfl live (shows.frame (by simp [Effect.target])) snapshot none
  | succeeded own live shows none =>
    subst own
    cases step with
    | completed =>
      obtain ⟨row, present, attempted, running⟩ := shows
      have counted : Shows cfg _ m _ (· = .running) w := ⟨row, present, attempted.success, running⟩
      exact ⟨[], rfl, .of_concluded live (counted.setStatus (.inl ⟨rfl, rfl⟩)) none rfl
        fun releases => releases⟩
    | completedLost => cases succeeds
  | failing own live shows snapshot none =>
    subst own
    obtain ⟨calls, after⟩ := Phase.fails live shows snapshot none step succeeds
    exact ⟨[], calls, after⟩
  | rescheduling own live count shows none _ =>
    subst own
    cases step with
    | rescheduled =>
      exact ⟨[], rfl, .queued live (shows.frame (by simp [Effect.target]))
        (stored_schedule_self none _) rfl⟩
    | rescheduledLost => cases succeeds
  | stopped live attempted final gone =>
    obtain ⟨after, calls⟩ := gone.step (.processJob step) succeeds sound
    exact ⟨[], calls, .stopped live attempted final after⟩

end Deliveries

/-! ## Runs -/

/-- Between two operations the token is in Redis or gone. -/
def Kept (cfg : Config) (id : Uuid) (m : Int) (results : List (Option String)) (w : World) : Prop :=
  Live m results ∧ Shows cfg id m results underWay w ∧ stored cfg w id = 1

def Over (cfg : Config) (id : Uuid) (m : Int) (results : List (Option String)) (w : World) : Prop :=
  ∃ result prior, results = result :: prior ∧ Live m prior ∧
    Shows cfg id m results (concluded m results) w ∧ stored cfg w id = 0

theorem Phase.rest (phase : Phase cfg id m results w op) (done : op.ended = true) :
    Kept cfg id m results w ∨ Over cfg id m results w := by
  cases phase with
  | queued live shows one _ => exact .inl ⟨live, shows, one⟩
  | stopped live attempted final gone =>
    exact .inr ⟨_, _, rfl, live, ⟨_, gone.present, attempted, final⟩, gone.none⟩
  | @batched _ _ pc _ _ _ held =>
    -- a pass that has ended has used up its batch
    unfold Op.ended at done
    split at done <;> simp_all [inHand]
  | popped | fetched | executing | succeeded | failing | rescheduling => cases done

theorem Phase.wait (phase : Phase cfg id m results w op) (elapsed : Nat) :
    Phase cfg id m results { w with now := w.now + elapsed } op := by
  cases phase with
  | queued live shows one aside => exact .queued live shows one aside
  | batched live shows none held => exact .batched live shows none held
  | popped live shows none => exact .popped live shows none
  | fetched own live shows snapshot none => exact .fetched own live shows snapshot none
  | executing own live shows snapshot none => exact .executing own live shows snapshot none
  | succeeded own live shows none => exact .succeeded own live shows none
  | failing own live shows snapshot none => exact .failing own live shows snapshot none
  | rescheduling own live count shows none some =>
    exact .rescheduling own live count shows none some
  | stopped live attempted final gone =>
    exact .stopped live attempted final ⟨gone.present, gone.none, gone.aside, gone.idle⟩

variable (id) in
theorem stored_popped {queue jobIDStr : String} {redis : Redis}
    (popped : Queue.Popped w.redis cfg.queues queue jobIDStr redis) :
    stored cfg w id = stored cfg { w with redis := redis } id +
      if jobIDStr = cfg.uuid.string id then 1 else 0 := by
  have lists := popped.occurrences (cfg.uuid.string id)
  simp only [stored, popped.scheduled]
  omega

theorem Phase.pop {queue jobIDStr : String} {redis : Redis}
    (phase : Kept cfg id m results w ∨ Over cfg id m results w)
    (popped : Queue.Popped w.redis cfg.queues queue jobIDStr redis) :
    Phase cfg id m results { w with redis := redis } (.processJob (.popped jobIDStr)) := by
  have counted := stored_popped id popped
  by_cases own : jobIDStr = cfg.uuid.string id
  · subst own
    rw [if_pos rfl] at counted
    obtain ⟨live, shows, one⟩ | ⟨_, _, _, _, _, none⟩ := phase
    · exact .popped live shows (by omega)
    · omega
  · rw [if_neg own] at counted
    have aside : inHand cfg id (.processJob (.popped jobIDStr)) = 0 := if_neg own
    obtain ⟨live, shows, one⟩ | ⟨_, _, rfl, live, shows, none⟩ := phase
    · exact .queued live shows (by omega) aside
    · exact .of_concluded live shows (by omega) aside nofun

/-- Once the token is gone no run changes the row or executes the job. -/
theorem Gone.of_reaches {row : JobRow} {t u : Turn} (reachable : (sequence cfg).Reachable retryRun t)
    (gone : Gone cfg id row t.world t.op) (reaches : (sequence cfg).Reaches retryRun t u) :
    u.world.row id = some row ∧ executions id u.world = executions id t.world := by
  have both : (sequence cfg).Reachable retryRun u ∧ Gone cfg id row u.world u.op ∧
      executions id u.world = executions id t.world := by
    refine reaches.invariant (P := fun u => (sequence cfg).Reachable retryRun u ∧
      Gone cfg id row u.world u.op ∧ executions id u.world = executions id t.world) ?_
      ⟨reachable, gone, rfl⟩
    rintro u a v allowed taken ⟨reachable, gone, history⟩
    refine ⟨reachable.step allowed taken, ?_⟩
    cases Turn.step_cases taken with
    | waits => exact ⟨⟨gone.present, gone.none, gone.aside, gone.idle⟩, history⟩
    | begins done =>
      simp only [retryRun] at allowed
      subst allowed
      exact ⟨⟨gone.present, gone.none, rfl, nofun⟩, history⟩
    | @pops _ jobIDStr _ done popped =>
      have counted := stored_popped id popped
      rw [gone.none] at counted
      obtain ⟨empty, other⟩ := Nat.add_eq_zero_iff.mp counted.symm
      exact ⟨⟨gone.present, empty, other, nofun⟩, history⟩
    | calls step =>
      obtain ⟨after, calls⟩ := gone.step step allowed (Turn.sound_of_reachable reachable).2
      exact ⟨after, calls.trans history⟩
  exact ⟨both.2.1.present, both.2.2⟩

theorem Phase.begin (phase : Kept cfg id m results w ∨ Over cfg id m results w) :
    Phase cfg id m results w (.processScheduledJobs .starting) := by
  obtain ⟨live, shows, one⟩ | ⟨_, _, rfl, live, shows, none⟩ := phase
  · exact .queued live shows one rfl
  · exact .of_concluded live shows none rfl nofun

theorem Phase.step (phase : Phase cfg id m results w op) (step : Op.Step cfg w op reply e op')
    (succeeds : reply.succeeds = true) (sound : op.Sound cfg w) :
    ∃ added, executions id (w.apply e) = added ++ executions id w ∧
      Phase cfg id m (added ++ results) (w.apply e) op' := by
  cases step with
  | processJob step => exact phase.delivery step succeeds sound
  | processScheduledJobs step =>
    refine ⟨[], (pass_writes id step).2, ?_⟩
    cases phase with
    | queued live shows one aside => exact .pass step live shows (by rw [one, aside]) succeeds sound
    | batched live shows none held => exact .pass step live shows (by rw [none, held]) succeeds sound
    | stopped live attempted final gone =>
      exact .stopped live attempted final (gone.step (.processScheduledJobs step) succeeds sound).1
  | createJob _ | cancelJob _ | retryJob _ | deleteJob _ | recoverUnqueuedJobs _
  | recoverStaleJobs _ =>
    cases phase with
    | queued _ _ _ aside => exact aside.elim
    | stopped _ _ _ gone => exact gone.aside.elim

theorem Phase.turn {t u : Turn} {a : Turn.Action} (phase : Phase cfg id m results t.world t.op)
    (step : Turn.Step cfg t a u) (permitted : retryRun t a) (sound : t.op.Sound cfg t.world) :
    ∃ added, executions id u.world = added ++ executions id t.world ∧
      Phase cfg id m (added ++ results) u.world u.op := by
  cases step with
  | waits => exact ⟨[], rfl, phase.wait _⟩
  | begins done =>
    simp only [retryRun] at permitted
    subst permitted
    exact ⟨[], rfl, .begin (phase.rest done)⟩
  | pops done popped => exact ⟨[], rfl, .pop (phase.rest done) popped⟩
  | calls step => exact phase.step step permitted sound

/-- Wherever a run leads, the job is in one of its phases. -/
theorem Phase.of_reaches {t u : Turn} (reachable : (sequence cfg).Reachable retryRun t)
    (phase : Phase cfg id m results t.world t.op) (reaches : (sequence cfg).Reaches retryRun t u) :
    ∃ added, executions id u.world = added ++ executions id t.world ∧
      Phase cfg id m (added ++ results) u.world u.op := by
  have both : (sequence cfg).Reachable retryRun u ∧
      ∃ added, executions id u.world = added ++ executions id t.world ∧
        Phase cfg id m (added ++ results) u.world u.op := by
    refine reaches.invariant (P := fun u => (sequence cfg).Reachable retryRun u ∧ ∃ added,
      executions id u.world = added ++ executions id t.world ∧
        Phase cfg id m (added ++ results) u.world u.op) ?_ ⟨reachable, [], rfl, phase⟩
    rintro u a v allowed taken ⟨reachable, added, history, phase⟩
    obtain ⟨more, grown, after⟩ := phase.turn (Turn.step_cases taken) allowed
      (Turn.sound_of_reachable reachable).2
    refine ⟨reachable.step allowed taken, more ++ added, ?_, ?_⟩
    · rw [grown, history, List.append_assoc]
    · rw [List.append_assoc]
      exact after
  exact both.2

end GoQueue.Verified
