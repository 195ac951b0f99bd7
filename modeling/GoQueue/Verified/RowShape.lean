import GoQueue.System.Soundness
import GoQueue.Cmd.Main

/-! # The shape of the rows

What the columns of a row say about each other, in every state the system can reach.  No
statement looks at the row it updates, so the invariant cannot speak of rows alone: a worker
that is about to write `dead` must still have a handler call of its own to show for it, and
the row must have been started, however old the worker's snapshot is (`Op.Justified`).
-/

namespace GoQueue.Verified

/-- What the status of a row implies for its other columns and for the handler calls so far. -/
structure RowShape (w : World) (id : Uuid) (row : JobRow) : Prop where
  retryCount : 0 ≤ row.retryCount.val
  scheduled : row.status = .scheduled → row.runAt.isSome ∧ row.retryCount.val = 0 ∧
    row.error = "" ∧ row.startedAt = none ∧ row.completedAt = none
  running : row.status = .running → row.startedAt.isSome
  retrying : row.status = .retrying → 1 ≤ row.retryCount.val ∧
    row.retryCount.val < row.maxRetries.val ∧ row.startedAt.isSome
  dead : row.status = .dead → max 1 row.maxRetries.val ≤ row.retryCount.val ∧
    row.startedAt.isSome ∧ (id, some row.error) ∈ w.calls
  completed : row.status = .completed → (id, none) ∈ w.calls ∧
    ∃ startedAt completedAt, row.startedAt = some startedAt ∧ row.completedAt = some completedAt ∧
      startedAt ≤ completedAt

/-- The shape, and no start in the future. -/
structure Shaped (w : World) (id : Uuid) (row : JobRow) : Prop extends RowShape w id row where
  past : ∀ {startedAt}, row.startedAt = some startedAt → startedAt ≤ timestamptz w.now

/-- The job, if its row is still there, has been started. -/
def Started (w : World) (id : Uuid) : Prop :=
  ∀ row, w.row id = some row → row.startedAt.isSome

/-- What the operation's next write needs to be true of the past. -/
def Justified (w : World) : Op → Prop
  | .processJob (.noHandler job) | .processJob (.fetched job) => 0 ≤ job.retryCount.val
  | .processJob (.executing job) => 0 ≤ job.retryCount.val ∧ Started w job.id
  | .processJob (.succeeded job) => Started w job.id ∧ (job.id, none) ∈ w.calls
  | .processJob (.failing job jobErr) =>
    0 ≤ job.retryCount.val ∧ Started w job.id ∧ (job.id, some jobErr) ∈ w.calls
  | .recoverStaleJobs (.failing jobs) => ∀ job ∈ jobs, 0 ≤ job.retryCount.val
  | _ => True

/-- What an effect has to bring along for the rows to keep their shape. -/
def Admissible (w : World) : Effect → Prop
  | .insert id row => Shaped w id row
  | .setStatus id .completed => Started w id ∧ (id, none) ∈ w.calls
  | .setStatus _ status => status = .running ∨ status = .pending ∨ status = .cancelled
  | .setError id .retrying n _ => 1 ≤ n.val ∧ Started w id ∧
    ∀ row, w.row id = some row → n.val < row.maxRetries.val
  | .setError id .dead n jobErr => 1 ≤ n.val ∧ Started w id ∧ (id, some jobErr) ∈ w.calls ∧
    ∀ row, w.row id = some row → row.maxRetries.val ≤ n.val
  | .setError _ status n _ => 0 ≤ n.val ∧ (status = .failed ∨ status = .pending)
  | _ => True

/-! ## The stores -/

theorem Shaped.mono {w w' : World} {id : Uuid} {row : JobRow} (shaped : Shaped w id row)
    (calls : ∀ {call}, call ∈ w.calls → call ∈ w'.calls) (now : w.now ≤ w'.now) :
    Shaped w' id row where
  retryCount := shaped.retryCount
  scheduled := shaped.scheduled
  running := shaped.running
  retrying := shaped.retrying
  dead status := by
    obtain ⟨exhausted, started, called⟩ := shaped.dead status
    exact ⟨exhausted, started, calls called⟩
  completed status := by
    obtain ⟨called, times⟩ := shaped.completed status
    exact ⟨calls called, times⟩
  past started := (shaped.past started).trans (timestamptz_mono now)

theorem shaped_setStatus {w : World} {id : Uuid} {status : JobStatus} {row : JobRow}
    (shaped : Shaped w id row) (present : w.row id = some row)
    (admissible : Admissible w (.setStatus id status)) :
    Shaped w id (Storage.setStatus w.now status row) := by
  have past : ∀ {startedAt}, (Storage.setStatus w.now status row).startedAt = some startedAt →
      startedAt ≤ timestamptz w.now := by
    intro startedAt started
    simp only [Storage.setStatus] at started
    split at started
    · cases started
      exact le_refl _
    · exact shaped.past started
  cases status with
  | running =>
    refine ⟨⟨shaped.retryCount, ?_, fun _ => rfl, ?_, ?_, ?_⟩, past⟩ <;> intro status <;> cases status
  | completed =>
    obtain ⟨started, called⟩ := admissible
    obtain ⟨startedAt, set⟩ := Option.isSome_iff_exists.mp (started row present)
    have times := shaped.past set
    refine ⟨⟨shaped.retryCount, ?_, ?_, ?_, ?_,
      fun _ => ⟨called, startedAt, timestamptz w.now, set, rfl, times⟩⟩, past⟩ <;>
      intro status <;> cases status
  | pending | cancelled =>
    refine ⟨⟨shaped.retryCount, ?_, ?_, ?_, ?_, ?_⟩, past⟩ <;> intro status <;> cases status
  | scheduled | failed | retrying | dead => rcases admissible with wrong | wrong | wrong <;> cases wrong

theorem shaped_setError {w : World} {id : Uuid} {status : JobStatus} {n : Int4} {jobErr : String}
    {row : JobRow} (shaped : Shaped w id row) (present : w.row id = some row)
    (admissible : Admissible w (.setError id status n jobErr)) :
    Shaped w id (Storage.setError w.now status n jobErr row) := by
  cases status with
  | retrying =>
    obtain ⟨positive, started, bound⟩ := admissible
    have nonneg : 0 ≤ n.val := Int.le_trans (by decide) positive
    refine ⟨⟨nonneg, ?_, ?_, fun _ => ⟨positive, bound row present, started row present⟩, ?_, ?_⟩,
      shaped.past⟩ <;> intro status <;> cases status
  | dead =>
    obtain ⟨positive, started, called, bound⟩ := admissible
    have nonneg : 0 ≤ n.val := Int.le_trans (by decide) positive
    have exhausted : max 1 row.maxRetries.val ≤ n.val := max_le positive (bound row present)
    refine ⟨⟨nonneg, ?_, ?_, ?_, fun _ => ⟨exhausted, started row present, called⟩, ?_⟩,
      shaped.past⟩ <;> intro status <;> cases status
  | failed | pending =>
    refine ⟨⟨admissible.1, ?_, ?_, ?_, ?_, ?_⟩, shaped.past⟩ <;> intro status <;> cases status
  | scheduled | running | completed | cancelled => rcases admissible.2 with wrong | wrong <;> cases wrong

/-- An admissible effect keeps the shape of all rows. -/
theorem shaped_apply {w : World} {e : Effect} (admissible : Admissible w e)
    (shaped : ∀ {id row}, w.row id = some row → Shaped w id row) {id : Uuid} {row : JobRow}
    (present : (w.apply e).row id = some row) : Shaped (w.apply e) id row := by
  have keep : Shaped w id row → Shaped (w.apply e) id row :=
    fun before => before.mono World.mem_calls_apply (World.now_apply w e).ge
  apply keep
  rw [World.row_apply] at present
  cases e with
  | insert id' new =>
    simp only [Effect.onRow] at present
    split at present
    case isTrue same => subst same; cases present; exact admissible
    case isFalse => exact shaped present
  | setStatus id' status =>
    simp only [Effect.onRow] at present
    split at present
    case isTrue same =>
      subst same
      obtain ⟨old, found, rfl⟩ := Option.map_eq_some_iff.mp present
      exact shaped_setStatus (shaped found) found admissible
    case isFalse => exact shaped present
  | setError id' status n jobErr =>
    simp only [Effect.onRow] at present
    split at present
    case isTrue same =>
      subst same
      obtain ⟨old, found, rfl⟩ := Option.map_eq_some_iff.mp present
      exact shaped_setError (shaped found) found admissible
    case isFalse => exact shaped present
  | delete id' =>
    simp only [Effect.onRow] at present
    split at present
    · cases present
    · exact shaped present
  | none | push _ _ | schedule _ _ | takeDue | record _ _ => exact shaped present

/-- A job stays started: no statement clears `started_at`, and its key is not given away again. -/
theorem Started.apply {cfg : Config} {w : World} {e : Effect} {id : Uuid} {row : JobRow}
    (started : Started w id) (knows : w.Knows id row) (effect : e.Sound cfg w) :
    Started (w.apply e) id := by
  intro row' present
  rw [World.row_apply] at present
  cases e with
  | insert id' new =>
    simp only [Effect.onRow] at present
    split at present
    case isTrue same =>
      subst same
      obtain ⟨origin, inserted, _⟩ := knows
      rw [show w.origin id = none from effect] at inserted
      cases inserted
    case isFalse => exact started row' present
  | setStatus id' status =>
    simp only [Effect.onRow] at present
    split at present
    · obtain ⟨old, found, rfl⟩ := Option.map_eq_some_iff.mp present
      have before := started old found
      simp only [Storage.setStatus]
      split
      · rfl
      · simpa using before
    · exact started row' present
  | setError id' status n jobErr =>
    simp only [Effect.onRow] at present
    split at present
    · obtain ⟨old, found, rfl⟩ := Option.map_eq_some_iff.mp present
      exact started old found
    · exact started row' present
  | delete id' =>
    simp only [Effect.onRow] at present
    split at present
    · cases present
    · exact started row' present
  | none | push _ _ | schedule _ _ | takeDue | record _ _ => exact started row' present

theorem started_setStatus_running (w : World) (id : Uuid) :
    Started (w.apply (.setStatus id .running)) id := by
  intro row present
  rw [World.row_apply] at present
  simp only [Effect.onRow, ↓reduceIte] at present
  obtain ⟨old, _, rfl⟩ := Option.map_eq_some_iff.mp present
  rfl

/-! ## One step -/

theorem created_shaped {body : Option Api.CreateJobRequest} {job : Storage.NewJob} {w : World}
    {id : Uuid} {row : JobRow} (prepared : Api.prepare body = .ok job)
    (stored : Storage.createJob w.now job = some row) : Shaped w id row := by
  have created := Storage.created_of_createJob stored
  have unstarted : ∀ {startedAt}, row.startedAt = some startedAt → startedAt ≤ timestamptz w.now := by
    intro startedAt started
    rw [created.startedAt] at started
    cases started
  -- the row is pending or scheduled, so that the other statuses have nothing to show
  rcases Api.prepare_ok prepared with ⟨_, pending⟩ | ⟨t, given, scheduled⟩
  · refine ⟨⟨created.retryCount.ge, ?_, ?_, ?_, ?_, ?_⟩, unstarted⟩ <;> intro status <;>
      simp [created.status, pending] at status
  · have due : row.runAt.isSome := by simp [created.runAt, given]
    refine ⟨⟨created.retryCount.ge, fun _ => ⟨due, created.retryCount, created.error,
      created.startedAt, created.completedAt⟩, ?_, ?_, ?_, ?_⟩, unstarted⟩ <;> intro status <;>
      simp [created.status, scheduled] at status

/-- The operations only ask for admissible effects. -/
theorem admissible_of_step {cfg : Config} {w : World} {op op' : Op} {reply : Reply} {e : Effect}
    (step : Op.Step cfg w op reply e op') (world : w.Sound cfg) (sound : op.Sound cfg w)
    (justified : Justified w op) : Admissible w e := by
  cases step with
  | createJob step =>
    cases step with
    | inserted prepared _ stored => exact created_shaped prepared stored
    | _ => trivial
  | cancelJob step =>
    cases step with
    | cancelled => exact .inr (.inr rfl)
    | _ => trivial
  | retryJob step =>
    cases step with
    | updated => exact ⟨le_refl _, .inr rfl⟩
    | _ => trivial
  | deleteJob step => cases step <;> trivial
  | processJob step =>
    cases step with
    | unhandled => exact ⟨justified, .inl rfl⟩
    | running => exact .inl rfl
    | completed => exact justified
    | dead exhausted counted =>
      obtain ⟨nonneg, started, called⟩ := justified
      refine ⟨by omega, started, called, fun row present => ?_⟩
      rw [((world.rows present).sameJob sound).maxRetries]
      omega
    | retrying left counted =>
      obtain ⟨nonneg, started, _⟩ := justified
      refine ⟨by omega, started, fun row present => ?_⟩
      rw [((world.rows present).sameJob sound).maxRetries]
      omega
    | _ => trivial
  | processScheduledJobs step =>
    cases step with
    | released => exact .inr (.inl rfl)
    | _ => trivial
  | recoverUnqueuedJobs step => cases step <;> trivial
  | recoverStaleJobs step =>
    cases step with
    | failed => exact ⟨justified _ List.mem_cons_self, .inl rfl⟩
    | _ => trivial

/-- Other operations stay justified while one takes a step. -/
theorem Justified.apply {cfg : Config} {w : World} {op : Op} {e : Effect}
    (justified : Justified w op) (sound : op.Sound cfg w) (effect : e.Sound cfg w) :
    Justified (w.apply e) op := by
  cases op with
  | processJob pc =>
    cases pc with
    | executing job => exact ⟨justified.1, justified.2.apply sound effect⟩
    | succeeded job => exact ⟨justified.1.apply sound effect, World.mem_calls_apply justified.2⟩
    | failing job jobErr =>
      exact ⟨justified.1, justified.2.1.apply sound effect, World.mem_calls_apply justified.2.2⟩
    | popped _ | noHandler _ | fetched _ | rescheduling _ _ | returned => exact justified
  | recoverStaleJobs pc => cases pc <;> exact justified
  | createJob _ | cancelJob _ | retryJob _ | deleteJob _ | processScheduledJobs _
  | recoverUnqueuedJobs _ => trivial

/-- An operation is justified again after its own step. -/
theorem justified_of_step {cfg : Config} {w : World} {op op' : Op} {reply : Reply} {e : Effect}
    (step : Op.Step cfg w op reply e op') (sound : op.Sound cfg w)
    (shaped : ∀ {id row}, w.row id = some row → Shaped w id row) (justified : Justified w op) :
    Justified (w.apply e) op' := by
  have effect := step.effect_sound sound
  cases step with
  | processJob step =>
    cases step with
    | fetched _ present _ | noHandler _ present _ => exact (shaped present).retryCount
    | running => exact ⟨justified, started_setStatus_running w _⟩
    | succeeded => exact ⟨justified.2.apply sound effect, List.mem_cons_self⟩
    | failed => exact ⟨justified.1, justified.2.apply sound effect, List.mem_cons_self⟩
    | _ => trivial
  | recoverStaleJobs step =>
    cases step with
    | selected _ matching => exact fun job held => (shaped (matching job held).1).retryCount
    | unselected => intro job held; cases held
    | failed | failedLost => exact fun job held => justified job (List.mem_cons_of_mem _ held)
  | createJob _ | cancelJob _ | retryJob _ | deleteJob _ | processScheduledJobs _
  | recoverUnqueuedJobs _ => trivial

/-! ## Whole runs -/

structure ShapedState (s : State) : Prop where
  rows : ∀ {id row}, s.world.row id = some row → Shaped s.world id row
  ops : ∀ op ∈ s.ops, Justified s.world op

/-- Neither the clock nor Redis matters to what an operation has to show. -/
theorem Justified.congr {w w' : World} {op : Op} (justified : Justified w op)
    (jobs : w'.jobs = w.jobs) (calls : w'.calls = w.calls) : Justified w' op := by
  unfold Justified Started World.row at *
  rwa [jobs, calls]

theorem ShapedState.step {cfg : Config} {s t : State} {a : Action} (step : State.Step cfg s a t)
    (sound : s.Sound cfg) (shaped : ShapedState s) : ShapedState t := by
  refine (step.eachOp (W := fun w => ∀ id row, w.row id = some row → Shaped w id row)
    (P := Justified) (fun _ _ present => shaped.rows present) shaped.ops ?tick ?begin ?pop ?run).elim
    fun rows ops => ⟨fun present => rows _ _ present, ops⟩
  case tick =>
    intro elapsed
    refine ⟨fun key row present => (shaped.rows present).mono id (by simp), fun op held => ?_⟩
    exact held.congr rfl rfl
  case begin =>
    intro task
    cases task <;> trivial
  case pop =>
    intro queue jobIDStr redis popped
    refine ⟨fun key row present => (shaped.rows present).mono id (le_refl _), trivial, ?_⟩
    exact fun op held => held.congr rfl rfl
  case run =>
    intro op reply e op' running inner
    have effect := inner.effect_sound (sound.ops op running)
    have admissible := admissible_of_step inner sound.world (sound.ops op running)
      (shaped.ops op running)
    refine ⟨fun _ _ present => shaped_apply admissible shaped.rows present, ?_, ?_⟩
    · exact justified_of_step inner (sound.ops op running) shaped.rows (shaped.ops op running)
    · exact fun other known held => held.apply (sound.ops other known) effect

theorem reachable_shaped {cfg : Config} {permitted : State → Action → Prop} {s : State}
    (reachable : (system cfg).Reachable permitted s) : ShapedState s := by
  refine reachable.invariant ?_ ?_
  · rintro s ⟨now, rfl⟩
    refine ⟨?_, ?_⟩
    · intro id row present
      cases present
    · intro op running
      cases running
  · intro s a t before _ taken shaped
    exact shaped.step (State.step_cases taken) (reachable_sound before)

/-- In every state the system can reach, under any interleaving and with any calls failing,
every row has the shape its status promises. -/
theorem reachable_rowShape {cfg : Config} {s : State}
    (reachable : (system cfg).Reachable anyAction s) {id : Uuid} {row : JobRow}
    (present : s.world.row id = some row) : RowShape s.world id row :=
  ((reachable_shaped reachable).rows present).toRowShape

/-- The run of a job that fails once and is completed at the second attempt. -/
def retriedRun : List Action :=
  [.begin (.createJob (some Cmd.request)), .run 0 (.inserted 1), .run 0 .ok,
    .pop, .run 1 .ok, .run 1 .ok, .run 1 (.returned (some "boom")), .run 1 .ok, .run 1 .ok,
    .tick 2000000000, .begin .processScheduledJobs, .run 2 .ok, .run 2 .ok, .run 2 .ok, .run 2 .ok,
    .pop, .run 3 .ok, .run 3 .ok, .run 3 (.returned none), .run 3 .ok]

theorem retriedRun_rowShape : ∃ s row, (system Cmd.mainConfig).Reachable anyAction s ∧
    s.world.row 1 = some row ∧ row.status = .completed ∧ row.retryCount.val = 1 ∧
    RowShape s.world 1 row := by
  have ⟨s, reachable, row, present, completed, retried⟩ :
      ∃ s, (system Cmd.mainConfig).Reachable anyAction s ∧
        ∃ row ∈ s.world.row 1, row.status = .completed ∧ row.retryCount.val = 1 :=
    Transition.System.exists_reachable_of_exec retriedRun Cmd.initial_initialState (by decide)
  exact ⟨s, row, reachable, present, completed, retried, reachable_rowShape reachable present⟩

end GoQueue.Verified
