import GoQueue.System.Soundness
import GoQueue.Cmd.Main

/-! # Conformance to the state machine

`allowedTransitions` is consulted by `CancelJob` only.  Every other write goes out without a
look at the stored status, on the strength of an earlier read or of none.

An operation *intends* a status for a row from the moment it has decided on the write.  A
change of status follows the table when the row admits the intended status at that moment
(which the table itself excludes for a handler's error, and the code does not check for a
popped job), and when nobody writes another status to the row before the operation does.
-/

namespace GoQueue.Verified

variable {cfg : Config} {w : World} {id : Uuid}

/-- The status may be written: it is the present one, or the table has the edge. -/
def admits (s target : JobStatus) : Bool :=
  decide (s = target) || s.canTransitionTo target

theorem admits_self (s : JobStatus) : admits s s = true := by simp [admits]

/-- What the worker writes first after it has read a row. -/
def firstWrite (cfg : Config) (row : JobRow) : JobStatus :=
  if cfg.registered row.type then .running else .failed

/-- The status an operation is going to write to a row. -/
def intends (id : Uuid) : Op → Option JobStatus
  | .cancelJob (.checked id' _) => if id' = id then some .cancelled else none
  | .retryJob (.checked id' _) => if id' = id then some .pending else none
  | .processJob (.noHandler job) => if job.id = id then some .failed else none
  | .processJob (.fetched job) => if job.id = id then some .running else none
  | .processJob (.executing job) | .processJob (.succeeded job) =>
    if job.id = id then some .completed else none
  | .processJob (.failing job _) =>
    if job.id = id then
      some (if job.retryCount.val + 1 < job.maxRetries.val then .retrying else .dead)
    else none
  | .processScheduledJobs (.fetched job _ _) =>
    if job.status = .retrying ∧ job.id = id then some .pending else none
  | .processScheduledJobs (.pushed job _) => if job.id = id then some .pending else none
  | .recoverStaleJobs (.failing jobs) => if ∃ job ∈ jobs, job.id = id then some .failed else none
  | _ => none

/-- The row that an operation's next call writes. -/
def writesNext : Op → Option Uuid
  | .cancelJob (.checked id _) | .retryJob (.checked id _) => some id
  | .processJob (.noHandler job) | .processJob (.fetched job) | .processJob (.succeeded job)
  | .processJob (.failing job _) => some job.id
  | .processScheduledJobs (.pushed job _) => some job.id
  | .recoverStaleJobs (.failing (job :: _)) => some job.id
  | _ => none

/-! ## The steps that may break the table -/

/-- A handler returns an error. -/
def handlerFails : Action → Bool
  | .run _ (.returned (some _)) => true
  | _ => false

/-- A worker reads a row that does not admit its first write. -/
def misreads (cfg : Config) (s : State) : Action → Bool
  | .run i .ok => match s.ops[i]? with
    | some (.processJob (.popped jobIDStr)) =>
      (cfg.uuid.parse jobIDStr).any fun id => (s.world.row id).any fun row =>
        !admits row.status (firstWrite cfg row)
    | _ => false
  | _ => false

/-- An operation writes a row for which another one intends a different status. -/
def collides (s : State) : Action → Bool
  | .run i .ok => s.ops[i]?.any fun op => (writesNext op).any fun id =>
    (s.ops.eraseIdx i).any fun other =>
      (intends id other).any fun status => decide (intends id op ≠ some status)
  | _ => false

def conformingRun (cfg : Config) (s : State) (a : Action) : Prop :=
  handlerFails a = false ∧ misreads cfg s a = false ∧ collides s a = false

instance (s : State) (a : Action) : Decidable (conformingRun cfg s a) :=
  inferInstanceAs (Decidable (_ ∧ _ ∧ _))

/-! ## Writes are intended -/

theorem intends_of_writes {op op' : Op} {reply : Reply} {e : Effect} {status : JobStatus}
    (step : Op.Step cfg w op reply e op') (wrote : e.writes id = some status) :
    (w.origin id = none ∧ (status = .pending ∨ status = .scheduled)) ∨
      (reply = .ok ∧ writesNext op = some id ∧ intends id op = some status) := by
  -- an update writes what the operation intends for the row it names
  have updated {id' : Uuid} {status' : JobStatus}
      (wrote : (if id' = id then some status' else none) = some status) :
      id' = id ∧ status' = status := by simpa using wrote
  cases step with
  | createJob step =>
    cases step with
    | inserted prepared fresh created =>
      obtain ⟨rfl, same⟩ := updated wrote
      refine .inl ⟨fresh, ?_⟩
      rw [← same, (Storage.created_of_createJob created).status]
      cases Api.prepare_ok prepared with
      | inl immediate => exact .inl immediate.2
      | inr delayed =>
        obtain ⟨_, _, scheduled⟩ := delayed
        exact .inr scheduled
    | _ => simp [Effect.writes] at wrote
  | cancelJob step =>
    cases step with
    | cancelled =>
      obtain ⟨rfl, rfl⟩ := updated wrote
      exact .inr ⟨rfl, rfl, if_pos rfl⟩
    | _ => simp [Effect.writes] at wrote
  | retryJob step =>
    cases step with
    | updated =>
      obtain ⟨rfl, rfl⟩ := updated wrote
      exact .inr ⟨rfl, rfl, if_pos rfl⟩
    | _ => simp [Effect.writes] at wrote
  | deleteJob step => cases step <;> simp [Effect.writes] at wrote
  | processJob step =>
    cases step with
    | unhandled | running | completed =>
      obtain ⟨rfl, rfl⟩ := updated wrote
      exact .inr ⟨rfl, rfl, if_pos rfl⟩
    | dead exhausted _ =>
      obtain ⟨rfl, rfl⟩ := updated wrote
      exact .inr ⟨rfl, rfl, by simp [intends, not_lt.mpr exhausted]⟩
    | retrying left _ =>
      obtain ⟨rfl, rfl⟩ := updated wrote
      exact .inr ⟨rfl, rfl, by simp [intends, left]⟩
    | _ => simp [Effect.writes] at wrote
  | processScheduledJobs step =>
    cases step with
    | released =>
      obtain ⟨rfl, rfl⟩ := updated wrote
      exact .inr ⟨rfl, rfl, if_pos rfl⟩
    | _ => simp [Effect.writes] at wrote
  | recoverUnqueuedJobs step => cases step <;> simp [Effect.writes] at wrote
  | recoverStaleJobs step =>
    cases step with
    | failed =>
      obtain ⟨rfl, rfl⟩ := updated wrote
      exact .inr ⟨rfl, rfl, by simp [intends]⟩
    | _ => simp [Effect.writes] at wrote

theorem knows_of_intends {op : Op} {status : JobStatus} (sound : op.Sound cfg w)
    (intended : intends id op = some status) : ∃ row, w.Knows id row := by
  cases op with
  | cancelJob pc =>
    cases pc with
    | checked id' job =>
      simp only [intends, Option.ite_none_right_eq_some] at intended
      exact ⟨_, intended.1 ▸ sound.2⟩
    | received _ | responded _ => cases intended
  | retryJob pc =>
    cases pc with
    | checked id' job =>
      simp only [intends, Option.ite_none_right_eq_some] at intended
      exact ⟨_, intended.1 ▸ sound.2⟩
    | received _ | updated _ _ | responded _ => cases intended
  | processJob pc =>
    cases pc with
    | noHandler job | fetched job | executing job | succeeded job | failing job _ =>
      simp only [intends, Option.ite_none_right_eq_some] at intended
      obtain ⟨rfl, _⟩ := intended
      exact ⟨_, sound⟩
    | popped _ | rescheduling _ _ | returned => cases intended
  | processScheduledJobs pc =>
    cases pc with
    | fetched job jobIDStr rest =>
      simp only [intends, Option.ite_none_right_eq_some] at intended
      exact ⟨_, intended.1.2 ▸ sound.1⟩
    | pushed job rest =>
      simp only [intends, Option.ite_none_right_eq_some] at intended
      exact ⟨_, intended.1 ▸ sound.1⟩
    | starting | releasing _ => cases intended
  | recoverStaleJobs pc =>
    cases pc with
    | failing jobs =>
      simp only [intends, Option.ite_none_right_eq_some] at intended
      obtain ⟨⟨job, member, rfl⟩, _⟩ := intended
      exact ⟨_, sound job member⟩
    | starting => cases intended
  | createJob _ | deleteJob _ | recoverUnqueuedJobs _ => cases intended

/-! ## One step -/

/-- Every write the operation intends follows the table, and none comes from a handler's
error. -/
structure Conforms (w : World) (op : Op) : Prop where
  admitted : ∀ {id status}, intends id op = some status →
    ∀ {row}, w.row id = some row → admits row.status status = true
  unfailed : ∀ job jobErr, op ≠ .processJob (.failing job jobErr)

/-- Without errors no row is ever waiting for another try. -/
def NoneRetrying (w : World) : Prop :=
  ∀ {id row}, w.row id = some row → row.status ≠ .retrying

theorem retrying_intended {op : Op} (intended : intends id op = some .retrying) :
    ∃ job jobErr, op = .processJob (.failing job jobErr) := by
  cases op with
  | processJob pc =>
    cases pc with
    | failing job jobErr => exact ⟨job, jobErr, rfl⟩
    | _ => simp [intends] at intended
  | createJob pc | cancelJob pc | retryJob pc | deleteJob pc | processScheduledJobs pc
  | recoverUnqueuedJobs pc | recoverStaleJobs pc => cases pc <;> simp [intends] at intended

theorem NoneRetrying.apply {op op' : Op} {reply : Reply} {e : Effect}
    (none_retrying : NoneRetrying w) (conforms : Conforms w op)
    (step : Op.Step cfg w op reply e op') : NoneRetrying (w.apply e) := by
  intro id row present retrying
  cases World.row_apply_cases present with
  | inl unchanged => exact none_retrying unchanged.2 retrying
  | inr wrote =>
    rw [retrying] at wrote
    obtain ⟨_, new⟩ | ⟨_, _, intended⟩ := intends_of_writes step wrote
    · simp at new
    · obtain ⟨job, jobErr, failing⟩ := retrying_intended intended
      exact conforms.unfailed job jobErr failing

/-- An operation that intends no write. -/
theorem Conforms.idle {op : Op} (nothing : ∀ id, intends id op = none)
    (unfailed : ∀ job jobErr, op ≠ .processJob (.failing job jobErr)) : Conforms w op := by
  refine ⟨fun {id status} intended => ?_, unfailed⟩
  rw [nothing id] at intended
  cases intended

/-- An operation that has just read the row it is going to write. -/
theorem Conforms.of_read {op : Op} {job : Job} {target : JobStatus}
    (present : w.row job.id = some job.toJobRow) (fits : admits job.status target = true)
    (intention : ∀ id, intends id op = if job.id = id then some target else none)
    (unfailed : ∀ job jobErr, op ≠ .processJob (.failing job jobErr)) : Conforms w op := by
  refine ⟨fun {id status} intended {row} found => ?_, unfailed⟩
  rw [intention, Option.ite_none_right_eq_some, Option.some.injEq] at intended
  obtain ⟨rfl, rfl⟩ := intended
  rw [present] at found
  cases found
  exact fits

/-- A worker: what it has just decided on is admitted. -/
theorem Conforms.delivery {s : State} {i : Nat} {pc pc' : Worker.ProcessJob} {reply : Reply}
    {e : Effect} (allowed : conformingRun cfg s (.run i reply))
    (found : s.ops[i]? = some (.processJob pc))
    (step : Worker.ProcessJob.Step cfg s.world pc reply e pc')
    (conforms : Conforms s.world (.processJob pc)) : Conforms (s.world.apply e) (.processJob pc') := by
  obtain ⟨calm, read, _⟩ := allowed
  cases step with
  | @fetched jobIDStr job parsed present registered =>
    have fits : admits job.status (firstWrite cfg job.toJobRow) = true := by
      simpa [misreads, found, parsed, present] using read
    rw [firstWrite, if_pos registered] at fits
    exact .of_read present fits (fun _ => rfl) (by simp)
  | @noHandler jobIDStr job parsed present unregistered =>
    have fits : admits job.status (firstWrite cfg job.toJobRow) = true := by
      simpa [misreads, found, parsed, present] using read
    rw [firstWrite, if_neg (by simp [unregistered])] at fits
    exact .of_read present fits (fun _ => rfl) (by simp)
  | @running job =>
    -- the row is running now, and `completed` comes next
    refine ⟨fun {id status} intended {row} after => ?_, by simp⟩
    simp only [intends, Option.ite_none_right_eq_some, Option.some.injEq] at intended
    obtain ⟨rfl, rfl⟩ := intended
    obtain ⟨unwritten, _⟩ | wrote := World.row_apply_cases after
    · simp [Effect.writes] at unwritten
    · simp only [Effect.writes, if_true, Option.some.injEq] at wrote
      rw [← wrote]
      rfl
  | succeeded => exact ⟨conforms.admitted, by simp⟩
  | failed => cases calm
  | retrying _ _ | retryingLost _ => exact absurd rfl (conforms.unfailed _ _)
  | _ => exact .idle (fun _ => rfl) (by simp)

/-- A stale check: the rows it has selected are running, and the rest of its batch was intended
before. -/
theorem Conforms.staleCheck {pc pc' : Scheduler.RecoverStaleJobs} {reply : Reply} {e : Effect}
    (step : Scheduler.RecoverStaleJobs.Step cfg w pc reply e pc')
    (conforms : Conforms w (.recoverStaleJobs pc)) : Conforms (w.apply e) (.recoverStaleJobs pc') := by
  have still {job : Job} {rest : List Job} {id : Uuid} (job' : Job) (member : job' ∈ rest)
      (own : job'.id = id) :
      intends id (.recoverStaleJobs (.failing (job :: rest))) = some .failed :=
    if_pos ⟨job', List.mem_cons_of_mem _ member, own⟩
  cases step with
  | @selected jobs _ _ running =>
    refine ⟨fun {id status} intended {row} after => ?_, by simp⟩
    simp only [intends, Option.ite_none_right_eq_some, Option.some.injEq] at intended
    obtain ⟨⟨job, member, rfl⟩, rfl⟩ := intended
    rw [show w.apply .none = w from rfl, (running job member).1] at after
    cases after
    rw [(running job member).2]
    rfl
  | unselected => exact .idle (fun _ => by simp [intends]) (by simp)
  | @failed job rest =>
    refine ⟨fun {id status} intended {row} after => ?_, by simp⟩
    simp only [intends, Option.ite_none_right_eq_some, Option.some.injEq] at intended
    obtain ⟨⟨job', member, own⟩, rfl⟩ := intended
    obtain ⟨_, before⟩ | wrote := World.row_apply_cases after
    · exact conforms.admitted (still job' member own) before
    · simp only [Effect.writes, Option.ite_none_right_eq_some, Option.some.injEq] at wrote
      rw [← wrote.2]
      rfl
  | @failedLost job rest =>
    refine ⟨fun {id status} intended {row} after => ?_, by simp⟩
    simp only [intends, Option.ite_none_right_eq_some, Option.some.injEq] at intended
    obtain ⟨⟨job', member, own⟩, rfl⟩ := intended
    exact conforms.admitted (still job' member own) after

/-- The moving operation: what it has just decided on is admitted. -/
theorem Conforms.own {s : State} {i : Nat} {op op' : Op} {reply : Reply} {e : Effect}
    (allowed : conformingRun cfg s (.run i reply)) (found : s.ops[i]? = some op)
    (step : Op.Step cfg s.world op reply e op') (none_retrying : NoneRetrying s.world)
    (conforms : Conforms s.world op) : Conforms (s.world.apply e) op' := by
  cases step with
  | createJob step => exact .idle (fun _ => rfl) (by simp)
  | deleteJob step => exact .idle (fun _ => rfl) (by simp)
  | recoverUnqueuedJobs step => exact .idle (fun _ => rfl) (by simp)
  | cancelJob step =>
    cases step with
    | checked _ present cancellable =>
      exact .of_read present (by simp [admits, cancellable]) (fun _ => rfl) (by simp)
    | _ => exact .idle (fun _ => rfl) (by simp)
  | retryJob step =>
    cases step with
    | checked _ present dead => exact .of_read present (by rw [dead]; rfl) (fun _ => rfl) (by simp)
    | _ => exact .idle (fun _ => rfl) (by simp)
  | processJob step => exact conforms.delivery allowed found step
  | processScheduledJobs step =>
    cases step with
    | @fetched jobIDStr rest job parsed present =>
      refine ⟨fun {id status} intended {row} after => ?_, by simp⟩
      simp only [intends, Option.ite_none_right_eq_some] at intended
      exact absurd intended.1.1 (none_retrying present)
    | @pushedRetrying job jobIDStr rest retrying =>
      refine ⟨fun {id status} intended {row} after => ?_, by simp⟩
      simp only [intends, Option.ite_none_right_eq_some] at intended
      exact conforms.admitted (by simp [intends, retrying, intended]) after
    | _ => exact .idle (fun _ => rfl) (by simp)
  | recoverStaleJobs step => exact conforms.staleCheck step

/-- Another operation: whoever writes to its row writes the status that it intends too. -/
theorem Conforms.other {s : State} {i k : Nat} {op op' other : Op} {reply : Reply} {e : Effect}
    (allowed : conformingRun cfg s (.run i reply)) (found : s.ops[i]? = some op)
    (step : Op.Step cfg s.world op reply e op') (there : s.ops[k]? = some other) (different : k ≠ i)
    (sound : other.Sound cfg s.world) (conforms : Conforms s.world other) :
    Conforms (s.world.apply e) other := by
  refine ⟨fun {id status} intended {row} present => ?_, conforms.unfailed⟩
  obtain ⟨_, before⟩ | wrote := World.row_apply_cases present
  · exact conforms.admitted intended before
  · obtain ⟨unknown, _⟩ | ⟨rfl, writing, same⟩ := intends_of_writes step wrote
    · obtain ⟨_, _, inserted, _⟩ := knows_of_intends sound intended
      rw [unknown] at inserted
      cases inserted
    · have apart : other ∈ s.ops.eraseIdx i :=
        List.mem_eraseIdx_iff_getElem?.mpr ⟨k, different, there⟩
      have agreed : intends id op = some status := by
        have free := allowed.2.2
        simp only [collides, found, Option.any_some, writing, List.any_eq_false] at free
        simpa [intended] using free other apart
      rw [same] at agreed
      cases agreed
      exact admits_self _

/-! ## Whole runs -/

structure ConformingState (s : State) : Prop where
  none_retrying : NoneRetrying s.world
  ops : ∀ op ∈ s.ops, Conforms s.world op

theorem ConformingState.step {s t : State} {a : Action} (step : State.Step cfg s a t)
    (allowed : conformingRun cfg s a) (sound : s.Sound cfg) (conforming : ConformingState s) :
    ConformingState t := by
  have indexed := step.pointwise (W := NoneRetrying) (P := fun w _ op => Conforms w op)
    conforming.none_retrying (fun i op found => conforming.ops op (List.mem_of_getElem? found))
    ?tick ?begin ?pop ?run
  · refine ⟨indexed.1, fun op there => ?_⟩
    obtain ⟨i, found⟩ := List.mem_iff_getElem?.mp there
    exact indexed.2 i op found
  case tick =>
    exact fun _ => ⟨conforming.none_retrying, fun _ _ held => ⟨held.admitted, held.unfailed⟩⟩
  case begin => intro task _; cases task <;> exact ⟨nofun, by simp [Task.start]⟩
  case pop =>
    intro queue jobIDStr redis _
    exact ⟨conforming.none_retrying, ⟨nofun, by simp⟩,
      fun _ _ held => ⟨held.admitted, held.unfailed⟩⟩
  case run =>
    intro i op reply e op' moved found inner
    subst moved
    have mine := conforming.ops op (List.mem_of_getElem? found)
    refine ⟨NoneRetrying.apply conforming.none_retrying mine inner,
      mine.own allowed found inner conforming.none_retrying, ?_⟩
    intro k other different there held
    exact held.other allowed found inner there different (sound.ops _ (List.mem_of_getElem? there))

theorem reachable_conforming {s : State}
    (reachable : (system cfg).Reachable (conformingRun cfg) s) : ConformingState s := by
  refine reachable.invariant ?_ ?_
  · intro s start
    obtain ⟨now, rfl⟩ := start
    exact ⟨nofun, fun _ absent => nomatch absent⟩
  · intro s a t before allowed taken conforming
    exact conforming.step (State.step_cases taken) allowed (reachable_sound before)

/-- In every run without handler errors, in which a worker reads a row only when it admits the
worker's first write and no operation writes a row for which another one intends a different
status, every change of a row's status is an edge of the table. -/
theorem transitions_allowed {s t : State} {a : Action}
    (reachable : (system cfg).Reachable (conformingRun cfg) s) (allowed : conformingRun cfg s a)
    (taken : s.step cfg a = some t) {row row' : JobRow} (before : s.world.row id = some row)
    (after : t.world.row id = some row') (changed : row.status ≠ row'.status) :
    row.status.canTransitionTo row'.status = true := by
  have conforming := reachable_conforming reachable
  have unchanged (same : t.world.row id = s.world.row id) : False := by
    rw [same, before] at after
    cases after
    exact changed rfl
  cases State.step_cases taken with
  | tick => exact (unchanged rfl).elim
  | begin => exact (unchanged rfl).elim
  | popped _ => exact (unchanged rfl).elim
  | @run earlier op later reply e op' split inner =>
    have running : op ∈ s.ops := by simp [split]
    obtain ⟨_, same⟩ | wrote := World.row_apply_cases after
    · rw [before] at same
      cases same
      exact absurd rfl changed
    · obtain ⟨unknown, _⟩ | ⟨_, _, intended⟩ := intends_of_writes inner wrote
      · obtain ⟨_, inserted, _⟩ := (reachable_sound reachable).world.rows before
        rw [unknown] at inserted
        cases inserted
      · have admitted := (conforming.ops op running).admitted intended before
        simpa [admits, changed] using admitted

/-- A worker has read a pending job of a type with a handler. -/
def fetchedRun : List Action :=
  [.begin (.createJob (some Cmd.request)), .run 0 (.inserted 1), .run 0 .ok, .pop, .run 1 .ok]

theorem fetchedRun_allowed : ∃ s t row row',
    (system Cmd.mainConfig).Reachable (conformingRun Cmd.mainConfig) s ∧
    s.step Cmd.mainConfig (.run 1 .ok) = some t ∧
    s.world.row 1 = some row ∧ row.status = .pending ∧
    t.world.row 1 = some row' ∧ row'.status = .running ∧
    row.status.canTransitionTo row'.status = true := by
  have evaluated : ((system Cmd.mainConfig).exec (conformingRun Cmd.mainConfig) Cmd.initialState
      fetchedRun).any (fun s => decide (conformingRun Cmd.mainConfig s (.run 1 .ok)) &&
        (s.step Cmd.mainConfig (.run 1 .ok)).any fun t => (s.world.row 1).any fun row =>
          (t.world.row 1).any fun row' =>
            decide (row.status = .pending ∧ row'.status = .running)) = true := by decide
  simp only [Option.any_eq_true, Bool.and_eq_true, decide_eq_true_eq] at evaluated
  obtain ⟨s, executed, allowed, t, taken, row, before, row', after, pending, running⟩ := evaluated
  have reachable := Transition.System.reachable_of_exec Cmd.initial_initialState executed
  exact ⟨s, t, row, row', reachable, taken, before, pending, after, running,
    transitions_allowed reachable allowed taken before after (by simp [pending, running])⟩

/-- One worker, one job, every call succeeds: the handler returns an error, and `handleFailure`
takes the row from `running` to `retrying`. -/
theorem running_job_retrying : ∃ s t row row',
    (system Cmd.mainConfig).Reachable faultFree s ∧
    s.step Cmd.mainConfig (.run 1 .ok) = some t ∧
    s.world.row 1 = some row ∧ row.status = .running ∧
    t.world.row 1 = some row' ∧ row'.status = .retrying ∧
    row.status.canTransitionTo row'.status = false := by
  have evaluated : ((system Cmd.mainConfig).exec faultFree Cmd.initialState
      (fetchedRun ++ [.run 1 .ok, .run 1 (.returned (some "boom"))])).any (fun s =>
        (s.step Cmd.mainConfig (.run 1 .ok)).any fun t => (s.world.row 1).any fun row =>
          (t.world.row 1).any fun row' =>
            decide (row.status = .running ∧ row'.status = .retrying)) = true := by decide
  simp only [Option.any_eq_true, decide_eq_true_eq] at evaluated
  obtain ⟨s, executed, t, taken, row, before, row', after, running, retrying⟩ := evaluated
  exact ⟨s, t, row, row', Transition.System.reachable_of_exec Cmd.initial_initialState executed,
    taken, before, running, after, retrying, by rw [running, retrying]; rfl⟩

end GoQueue.Verified
