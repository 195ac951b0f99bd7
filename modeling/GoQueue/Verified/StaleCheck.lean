import GoQueue.System.Soundness
import GoQueue.Cmd.Main

/-! # What the stale check overwrites

`recoverStaleJobs` selects rows that have been `running` for longer than two job timeouts and
then updates them one by one.  The updates name a row by its key alone and carry the
`retry_count` that was selected, so what happens to a row in between is lost.

While nobody else writes to a row that a pass has selected and not updated yet, the row stays as
it was selected, and time only makes it staler.
-/

namespace GoQueue.Verified

variable {cfg : Config} {w w' : World}

/-- The rows that a stale check has selected and not updated yet. -/
def selectedBy : Op → List Uuid
  | .recoverStaleJobs (.failing jobs) => jobs.map Job.id
  | _ => []

/-- The row that the call of an action writes to. -/
def writtenBy (cfg : Config) (s : State) : Action → Option Uuid
  | .run i reply => do
    let op ← s.ops[i]?
    let (e, _) ← op.step cfg s.world reply
    e.target
  | .tick _ | .begin _ | .pop => none

/-- The operations that an action does not move. -/
def othersOf (s : State) : Action → List Op
  | .run i _ => s.ops.eraseIdx i
  | .tick _ | .begin _ | .pop => s.ops

/-- The action writes to no row that another operation, a stale check, has selected and not
updated yet. -/
def sparesSelected (cfg : Config) (s : State) (a : Action) : Prop :=
  ∀ op ∈ othersOf s a, ∀ id ∈ selectedBy op, writtenBy cfg s a ≠ some id

instance (s : State) (a : Action) : Decidable (sparesSelected cfg s a) :=
  have (op : Op) : Decidable (∀ id ∈ selectedBy op, writtenBy cfg s a ≠ some id) :=
    List.decidableBAll _ (selectedBy op)
  List.decidableBAll _ (othersOf s a)

/-- The update of a stale check finds a row that is `running` and was started longer than two
job timeouts ago, and does not lower its `retry_count`. -/
structure FailsOverdue (cfg : Config) (w w' : World) (id : Uuid) (row row' : JobRow) : Prop where
  before : w.row id = some row
  running : row.status = .running
  overdue : ∃ startedAt, row.startedAt = some startedAt ∧ startedAt < w.now - 2 * cfg.jobTimeout
  after : w'.row id = some row'
  failed : row'.status = .failed
  retryCount : row.retryCount.val ≤ row'.retryCount.val

/-! ## What a pass holds -/

/-- The rows not updated yet are as the pass selected them, and still stale. -/
structure SelectionHolds (cfg : Config) (w : World) (jobs : List Job) : Prop where
  distinct : (jobs.map Job.id).Nodup
  rows : ∀ job ∈ jobs, w.row job.id = some job.toJobRow
  stale : ∀ job ∈ jobs, Storage.staleRunning w.now cfg.jobTimeout job.toJobRow = true

def SelectionKept (cfg : Config) (w : World) : Op → Prop
  | .recoverStaleJobs (.failing jobs) => SelectionHolds cfg w jobs
  | _ => True

theorem timestamptz_le (t : Time) : timestamptz t ≤ t :=
  Int.ediv_mul_le t (by decide)

theorem staleRunning_mono {now later timeout : Time} {row : JobRow} (le : now ≤ later)
    (stale : Storage.staleRunning now timeout row = true) :
    Storage.staleRunning later timeout row = true := by
  simp only [Storage.staleRunning, Bool.and_eq_true, decide_eq_true_eq, Option.any_eq_true] at stale ⊢
  obtain ⟨running, startedAt, started, before⟩ := stale
  exact ⟨running, startedAt, started,
    Int.lt_of_lt_of_le before (timestamptz_mono (Int.sub_le_sub_right le _))⟩

theorem overdue_of_staleRunning {now timeout : Time} {row : JobRow}
    (stale : Storage.staleRunning now timeout row = true) :
    row.status = .running ∧
      ∃ startedAt, row.startedAt = some startedAt ∧ startedAt < now - 2 * timeout := by
  simp only [Storage.staleRunning, Bool.and_eq_true, decide_eq_true_eq, Option.any_eq_true] at stale
  obtain ⟨running, startedAt, started, before⟩ := stale
  exact ⟨running, startedAt, started, Int.lt_of_lt_of_le before (timestamptz_le _)⟩

/-- The answer to the query, whole or broken off, holds when it is given. -/
theorem SelectionHolds.of_answer {reply : Reply} {jobs : List Job} {e : Effect} {op' : Op}
    (moves : Op.step cfg w (.recoverStaleJobs .starting) reply = some (e, op'))
    (answer : reply = .rows jobs ∨ reply = .truncated jobs) : SelectionHolds cfg w jobs := by
  have partially : Storage.IsPartialSelection (Storage.staleRunning w.now cfg.jobTimeout)
      Storage.startedKey 100 w.jobs jobs := by
    obtain ⟨⟨_, pc'⟩, inner, _⟩ := Option.map_eq_some_iff.mp moves
    obtain rfl | rfl := answer
    · simp only [Scheduler.RecoverStaleJobs.step, Option.ite_none_right_eq_some] at inner
      exact inner.1.1
    · simp only [Scheduler.RecoverStaleJobs.step, Option.ite_none_right_eq_some] at inner
      exact inner.1
  obtain ⟨distinct, matching, _, _⟩ := partially
  exact {
    distinct := distinct
    rows := fun job chosen => (World.getJob_eq_some.mp (matching job chosen).1).2
    stale := fun job chosen => (matching job chosen).2 }

/-! ## One step -/

/-- Time may pass and other rows may change. -/
theorem SelectionKept.frame {op : Op} (holds : SelectionKept cfg w op)
    (later : w.now ≤ w'.now) (untouched : ∀ id ∈ selectedBy op, w'.row id = w.row id) :
    SelectionKept cfg w' op := by
  cases op with
  | recoverStaleJobs pc =>
    cases pc with
    | starting => trivial
    | failing jobs =>
      obtain ⟨distinct, rows, stale⟩ := holds
      refine ⟨distinct, fun job chosen => ?_, fun job chosen => staleRunning_mono later (stale job chosen)⟩
      rw [untouched job.id (List.mem_map_of_mem chosen)]
      exact rows job chosen
  | _ => trivial

/-- The pass updates one selected row after the other, each of them once. -/
theorem SelectionKept.own {op op' : Op} {reply : Reply} {e : Effect}
    (holds : SelectionKept cfg w op) (moves : op.step cfg w reply = some (e, op')) :
    SelectionKept cfg (w.apply e) op' := by
  cases Op.step_cases moves with
  | recoverStaleJobs step =>
    cases step with
    | selected answer _ => exact SelectionHolds.of_answer moves answer
    | unselected =>
      exact ⟨List.nodup_nil, fun _ chosen => absurd chosen List.not_mem_nil,
        fun _ chosen => absurd chosen List.not_mem_nil⟩
    | @failed job rest =>
      obtain ⟨distinct, rows, stale⟩ := holds
      obtain ⟨fresh, distinct⟩ := List.nodup_cons.mp distinct
      refine ⟨distinct, fun other chosen => ?_, fun other chosen => ?_⟩
      · have different : job.id ≠ other.id := by
          intro same
          exact fresh (same ▸ List.mem_map_of_mem chosen)
        rw [World.row_apply_of_target_ne (by simpa [Effect.target] using different)]
        exact rows other (.tail _ chosen)
      · rw [World.now_apply]
        exact stale other (.tail _ chosen)
    | failedLost =>
      obtain ⟨distinct, rows, stale⟩ := holds
      exact ⟨(List.nodup_cons.mp distinct).2, fun other chosen => rows other (.tail _ chosen),
        fun other chosen => stale other (.tail _ chosen)⟩
  | _ => trivial

theorem selectionKept_start (task : Task) : SelectionKept cfg w task.start := by
  cases task <;> trivial

theorem selectionKept_step {s t : State} {a : Action} (spares : sparesSelected cfg s a)
    (taken : s.step cfg a = some t)
    (holds : ∀ (k : Nat) op, s.ops[k]? = some op → SelectionKept cfg s.world op) :
    ∀ (k : Nat) op, t.ops[k]? = some op → SelectionKept cfg t.world op := by
  intro k op found
  cases a with
  | tick elapsed =>
    cases taken
    exact (holds k op found).frame (Int.le_add_of_nonneg_right (Int.natCast_nonneg elapsed))
      fun _ _ => rfl
  | begin task =>
    cases taken
    obtain ⟨_, rfl⟩ | before := List.getElem?_concat_cases found
    · exact selectionKept_start task
    · exact holds k op before
  | pop =>
    obtain ⟨_, _, rfl⟩ := Option.map_eq_some_iff.mp taken
    obtain ⟨_, rfl⟩ | before := List.getElem?_concat_cases found
    · trivial
    · exact (holds k op before).frame (Int.le_refl _) fun _ _ => rfl
  | run i reply =>
    simp only [State.step, Option.bind_eq_bind, Option.bind_eq_some_iff, Option.some.injEq,
      Prod.exists] at taken
    obtain ⟨mover, here, e, mover', moves, rfl⟩ := taken
    obtain ⟨rfl, rfl⟩ | ⟨different, before⟩ := List.getElem?_set_cases found
    · exact (holds k mover here).own moves
    · refine (holds k op before).frame (Int.le_of_eq (World.now_apply _ _).symm) fun id selected => ?_
      apply World.row_apply_of_target_ne
      -- the policy keeps the mover from the rows that the other checks have selected
      have other : op ∈ othersOf s (.run i reply) :=
        List.mem_eraseIdx_iff_getElem?.mpr ⟨k, different, before⟩
      have elsewhere := spares op other id selected
      simpa [writtenBy, here, moves] using elsewhere

theorem reachable_selectionKept {s : State}
    (reachable : (system cfg).Reachable (sparesSelected cfg) s) :
    ∀ (k : Nat) op, s.ops[k]? = some op → SelectionKept cfg s.world op := by
  refine reachable.invariant
    (P := fun s => ∀ (k : Nat) op, s.ops[k]? = some op → SelectionKept cfg s.world op) ?_ ?_
  · rintro _ ⟨_, rfl⟩ k op found
    cases found
  · intro s a t _ spares taken holds
    exact selectionKept_step spares taken holds

/-! ## The updates -/

/-- In a run in which nobody else writes to a row between its selection and its update, every
update of a stale check finds the row `running` and overdue and keeps its `retry_count`. -/
theorem stale_update_overdue {s t : State}
    (reachable : (system cfg).Reachable (sparesSelected cfg) s) {i : Nat} {job : Job}
    {rest : List Job} (failing : s.ops[i]? = some (.recoverStaleJobs (.failing (job :: rest))))
    (updates : s.step cfg (.run i .ok) = some t) :
    ∃ row row', FailsOverdue cfg s.world t.world job.id row row' := by
  obtain ⟨_, rows, stale⟩ := reachable_selectionKept reachable i _ failing
  have present := rows job List.mem_cons_self
  obtain ⟨running, overdue⟩ := overdue_of_staleRunning (stale job List.mem_cons_self)
  rw [State.step_run failing rfl, Option.some.injEq] at updates
  subst updates
  refine ⟨job.toJobRow, Storage.setError s.world.now .failed job.retryCount "job timed out (stale)"
    job.toJobRow, ?_⟩
  exact {
    before := present
    running := running
    overdue := overdue
    after := by rw [World.row_apply, present]; exact if_pos rfl
    failed := rfl
    retryCount := Int.le_refl _ }

/-- A job has been running for more than a minute when a stale check begins. -/
def overdueRun : List Action :=
  [.begin (.createJob (some Cmd.request)), .run 0 (.inserted 1), .run 0 .ok,
    .pop, .run 1 .ok, .run 1 .ok, .tick 61000000000, .begin .recoverStaleJobs]

theorem overdueRun_update : ∃ s t job rest row row',
    (system Cmd.mainConfig).Reachable (sparesSelected Cmd.mainConfig) s ∧
    s.ops[2]? = some (.recoverStaleJobs (.failing (job :: rest))) ∧
    s.step Cmd.mainConfig (.run 2 .ok) = some t ∧
    FailsOverdue Cmd.mainConfig s.world t.world job.id row row' := by
  have evaluated : ((system Cmd.mainConfig).exec (sparesSelected Cmd.mainConfig) Cmd.initialState
      overdueRun).any (fun begun => (begun.world.row 1).any fun read =>
        ((system Cmd.mainConfig).exec (sparesSelected Cmd.mainConfig) begun
          [.run 2 (.rows [Storage.scanJob 1 read])]).any fun s =>
          (s.step Cmd.mainConfig (.run 2 .ok)).any fun _ => decide (
            s.ops[2]? = some (.recoverStaleJobs (.failing [Storage.scanJob 1 read])))) = true := by
    decide
  simp only [Option.any_eq_true, decide_eq_true_eq] at evaluated
  obtain ⟨begun, executed, read, _, s, selected, t, updates, failing⟩ := evaluated
  have reachable := (Transition.System.reachable_of_exec Cmd.initial_initialState executed).extend
    (Transition.System.reaches_of_exec selected)
  obtain ⟨row, row', overdue⟩ := stale_update_overdue reachable failing updates
  exact ⟨s, t, _, _, row, row', reachable, failing, updates, overdue⟩

/-- The handler fails after the stale check has selected the row, and the worker writes
`retrying` with one failed attempt; then the stale check writes `failed` with none. -/
theorem retrying_job_failed : ∃ s t job rest row row',
    (system Cmd.mainConfig).Reachable faultFree s ∧
    s.ops[2]? = some (.recoverStaleJobs (.failing (job :: rest))) ∧
    s.step Cmd.mainConfig (.run 2 .ok) = some t ∧
    s.world.row job.id = some row ∧ row.status = .retrying ∧ row.retryCount.val = 1 ∧
    t.world.row job.id = some row' ∧ row'.status = .failed ∧ row'.retryCount.val = 0 := by
  have evaluated : ((system Cmd.mainConfig).exec faultFree Cmd.initialState overdueRun).any
      (fun begun => (begun.world.row 1).any fun read =>
        ((system Cmd.mainConfig).exec faultFree begun
          [.run 2 (.rows [Storage.scanJob 1 read]), .run 1 (.returned (some "boom")),
            .run 1 .ok]).any fun s =>
          (s.world.row 1).any fun row => (s.step Cmd.mainConfig (.run 2 .ok)).any fun t =>
            (t.world.row 1).any fun row' => decide (
              s.ops[2]? = some (.recoverStaleJobs (.failing [Storage.scanJob 1 read])) ∧
              (row.status = .retrying ∧ row.retryCount.val = 1) ∧
              row'.status = .failed ∧ row'.retryCount.val = 0)) = true := by decide
  simp only [Option.any_eq_true, decide_eq_true_eq] at evaluated
  obtain ⟨begun, executed, read, _, s, continued, row, present, t, updates, row', present', failing,
    ⟨retrying, one⟩, failed, none⟩ := evaluated
  have reachable := (Transition.System.reachable_of_exec Cmd.initial_initialState executed).extend
    (Transition.System.reaches_of_exec continued)
  exact ⟨s, t, _, _, row, row', reachable, failing, updates, present, retrying, one, present',
    failed, none⟩

end GoQueue.Verified
