import GoQueue.Verified.RowShape
import GoQueue.Verified.Telemetry

/-! # What a row records about the past

No statement compares what it writes with what is there, and the values come from snapshots of any
age.  Rows are nevertheless a record that can be trusted: the error text has a cause, the retry
count does not exceed the failures there have been, no timestamp precedes the creation or follows the
last update, and none goes back from one time to the next.  There is one clock, and a write and the
reading of the clock for it are one step.
-/

namespace GoQueue.Verified

variable {cfg : Config}

/-- Something has led to the error text in the row. -/
inductive Explained (cfg : Config) (w : World) (id : Uuid) (type : String) : String → Prop where
  | cleared : Explained cfg w id type ""
  | returned {jobErr} : (id, some jobErr) ∈ w.calls → Explained cfg w id type jobErr
  | unhandled : cfg.registered type = false →
      Explained cfg w id type ("no handler for type: " ++ type)
  | stale : Explained cfg w id type "job timed out (stale)"

structure Ledger (cfg : Config) (w : World) (id : Uuid) (row : JobRow) : Prop where
  error : Explained cfg w id row.type row.error
  retryCount : row.retryCount.val ≤ failedCalls id w
  created : row.createdAt ≤ row.updatedAt
  updated : row.updatedAt ≤ timestamptz w.now
  started : ∀ startedAt, row.startedAt = some startedAt →
    row.createdAt ≤ startedAt ∧ startedAt ≤ row.updatedAt
  completed : ∀ completedAt, row.completedAt = some completedAt →
    row.createdAt ≤ completedAt ∧ completedAt ≤ row.updatedAt ∧ (id, none) ∈ w.calls
  called : ∀ err, (id, err) ∈ w.calls → row.startedAt.isSome

/-- What an operation that is going to write a retry count holds. -/
def Tallied (cfg : Config) (w : World) : Op → Prop
  | .processJob (.noHandler job) =>
    job.retryCount.val ≤ failedCalls job.id w ∧ cfg.registered job.type = false
  | .processJob (.fetched job) | .processJob (.executing job) =>
    job.retryCount.val ≤ failedCalls job.id w
  | .processJob (.failing job _) => job.retryCount.val + 1 ≤ failedCalls job.id w
  | .recoverStaleJobs (.failing jobs) => ∀ job ∈ jobs, job.retryCount.val ≤ failedCalls job.id w
  | _ => True

/-! ## The stores -/

/-- Where a row comes from that is there after an effect. -/
inductive Written (w : World) (id : Uuid) : Effect → JobRow → Prop where
  | inserted {row} : Written w id (.insert id row) row
  | status {status old} : w.row id = some old →
      Written w id (.setStatus id status) (Storage.setStatus w.now status old)
  | error {status n jobErr old} : w.row id = some old →
      Written w id (.setError id status n jobErr) (Storage.setError w.now status n jobErr old)
  | kept {e row} : w.row id = some row → Written w id e row

theorem written_of_row {w : World} {e : Effect} {id : Uuid} {row : JobRow}
    (after : (w.apply e).row id = some row) : Written w id e row := by
  rw [World.row_apply] at after
  cases e with
  | insert id' new =>
    simp only [Effect.onRow] at after
    split at after
    case isTrue same => subst same; cases after; exact .inserted
    case isFalse => exact .kept after
  | setStatus id' status =>
    simp only [Effect.onRow] at after
    split at after
    case isTrue same =>
      subst same
      obtain ⟨old, found, rfl⟩ := Option.map_eq_some_iff.mp after
      exact .status found
    case isFalse => exact .kept after
  | setError id' status n jobErr =>
    simp only [Effect.onRow] at after
    split at after
    case isTrue same =>
      subst same
      obtain ⟨old, found, rfl⟩ := Option.map_eq_some_iff.mp after
      exact .error found
    case isFalse => exact .kept after
  | delete id' =>
    simp only [Effect.onRow] at after
    split at after
    · cases after
    · exact .kept after
  | none | push _ _ | schedule _ _ | takeDue | record _ _ => exact .kept after

theorem calls_sublist_apply (w : World) (e : Effect) :
    w.calls.Sublist (w.apply e).calls := by
  rw [World.calls_apply]
  cases e with
  | record id err => exact List.sublist_cons_self _ _
  | _ => exact .refl _

theorem failedCalls_record (w : World) (id : Uuid) (jobErr : String) :
    failedCalls id (w.apply (.record id (some jobErr))) = failedCalls id w + 1 := by
  simp [failedCalls, World.calls_apply]

theorem Explained.mono {w w' : World} {id : Uuid} {type jobErr : String}
    (explained : Explained cfg w id type jobErr)
    (calls : ∀ call, call ∈ w.calls → call ∈ w'.calls) : Explained cfg w' id type jobErr := by
  cases explained with
  | cleared => exact .cleared
  | returned called => exact .returned (calls _ called)
  | unhandled unregistered => exact .unhandled unregistered
  | stale => exact .stale

/-- What an effect brings along for the rows to stay a record. -/
def Recordable (cfg : Config) (w : World) : Effect → Prop
  | .insert id row => Ledger cfg w id row
  | .setStatus id status => status = .completed → (id, none) ∈ w.calls
  | .setError id _ n jobErr => n.val ≤ failedCalls id w ∧
    ∀ row, w.row id = some row → Explained cfg w id row.type jobErr
  | .record id _ => Started w id
  | _ => True

theorem failedCalls_mono {w w' : World} {id : Uuid} (calls : w.calls.Sublist w'.calls) :
    failedCalls id w ≤ failedCalls id w' := calls.countP_le

theorem Ledger.mono {w w' : World} {id : Uuid} {row : JobRow} (ledger : Ledger cfg w id row)
    (calls : w.calls.Sublist w'.calls) (now : w.now ≤ w'.now)
    (called : ∀ err, (id, err) ∈ w'.calls → row.startedAt.isSome) : Ledger cfg w' id row where
  error := ledger.error.mono fun _ => calls.mem
  retryCount := ledger.retryCount.trans (by exact_mod_cast failedCalls_mono calls)
  created := ledger.created
  updated := ledger.updated.trans (timestamptz_mono now)
  started := ledger.started
  completed completedAt set := by
    obtain ⟨after, before, returned⟩ := ledger.completed completedAt set
    exact ⟨after, before, calls.mem returned⟩
  called := called

theorem ledger_setStatus {w : World} {id : Uuid} {status : JobStatus} {row : JobRow}
    (ledger : Ledger cfg w id row) (completed : status = .completed → (id, none) ∈ w.calls) :
    Ledger cfg w id (Storage.setStatus w.now status row) := by
  have later : row.createdAt ≤ timestamptz w.now := ledger.created.trans ledger.updated
  refine ⟨ledger.error, ledger.retryCount, later, le_refl _, ?_, ?_, ?_⟩
  · intro startedAt set
    simp only [Storage.setStatus] at set ⊢
    split at set
    · cases set
      exact ⟨later, le_refl _⟩
    · obtain ⟨after, before⟩ := ledger.started startedAt set
      exact ⟨after, before.trans ledger.updated⟩
  · intro completedAt set
    simp only [Storage.setStatus] at set ⊢
    split at set
    case isTrue same =>
      cases set
      exact ⟨later, le_refl _, completed same⟩
    case isFalse =>
      obtain ⟨after, before, returned⟩ := ledger.completed completedAt set
      exact ⟨after, before.trans ledger.updated, returned⟩
  · intro err returned
    simp only [Storage.setStatus]
    split
    · rfl
    · exact ledger.called err returned

theorem ledger_setError {w : World} {id : Uuid} {status : JobStatus} {n : Int4} {jobErr : String}
    {row : JobRow} (ledger : Ledger cfg w id row) (counted : n.val ≤ failedCalls id w)
    (explained : Explained cfg w id row.type jobErr) :
    Ledger cfg w id (Storage.setError w.now status n jobErr row) := by
  refine ⟨explained, counted, ledger.created.trans ledger.updated, le_refl _, ?_, ?_, ledger.called⟩
  · intro startedAt set
    obtain ⟨after, before⟩ := ledger.started startedAt set
    exact ⟨after, before.trans ledger.updated⟩
  · intro completedAt set
    obtain ⟨after, before, returned⟩ := ledger.completed completedAt set
    exact ⟨after, before.trans ledger.updated, returned⟩

theorem ledger_apply {w : World} {e : Effect} {id : Uuid} {row : JobRow}
    (recordable : Recordable cfg w e)
    (ledger : ∀ {id row}, w.row id = some row → Ledger cfg w id row)
    (present : (w.apply e).row id = some row) : Ledger cfg (w.apply e) id row := by
  have now : w.now ≤ (w.apply e).now := (World.now_apply w e).ge
  -- a statement on the table leaves the calls alone
  have keep (calls : (w.apply e).calls = w.calls) (held : Ledger cfg w id row) :
      Ledger cfg (w.apply e) id row := held.mono (calls ▸ .refl _) now (calls ▸ held.called)
  cases written_of_row present with
  | inserted => exact keep rfl recordable
  | status found => exact keep rfl (ledger_setStatus (ledger found) recordable)
  | error found =>
    exact keep rfl (ledger_setError (ledger found) recordable.1 (recordable.2 _ found))
  | kept found =>
    cases e with
    | record id' err =>
      refine (ledger found).mono (List.sublist_cons_self _ _) now fun err' returned => ?_
      obtain ⟨rfl, rfl⟩ | before := List.mem_cons.mp returned
      · exact recordable row found
      · exact (ledger found).called err' before
    | _ => exact keep rfl (ledger found)

/-! ## One step -/

theorem ledger_created {job : Storage.NewJob} {w : World}
    {id : Uuid} {row : JobRow} (stored : Storage.createJob w.now job = some row)
    (uncalled : ∀ err, (id, err) ∉ w.calls) : Ledger cfg w id row := by
  have created := Storage.created_of_createJob stored
  refine ⟨created.error ▸ .cleared, ?_, ?_, created.updatedAt.le, ?_, ?_,
    fun err returned => absurd returned (uncalled err)⟩
  · rw [created.retryCount]
    exact Int.natCast_nonneg _
  · rw [created.createdAt, created.updatedAt]
  · intro startedAt set
    rw [created.startedAt] at set
    cases set
  · intro completedAt set
    rw [created.completedAt] at set
    cases set

theorem recordable_of_step {w : World} {op op' : Op} {reply : Reply} {e : Effect}
    (step : Op.Step cfg w op reply e op') (world : w.Sound cfg) (sound : op.Sound cfg w)
    (known : ∀ call ∈ w.calls, ∃ origin, w.origin call.1 = some origin)
    (justified : Justified w op) (tallied : Tallied cfg w op) : Recordable cfg w e := by
  cases step with
  | createJob step =>
    cases step with
    | inserted prepared fresh stored =>
      refine ledger_created stored fun err returned => ?_
      obtain ⟨origin, inserted⟩ := known _ returned
      rw [fresh] at inserted
      cases inserted
    | _ => trivial
  | cancelJob step =>
    cases step with
    | cancelled => exact nofun
    | _ => trivial
  | retryJob step =>
    cases step with
    | updated => exact ⟨Int.natCast_nonneg _, fun _ _ => .cleared⟩
    | _ => trivial
  | deleteJob step => cases step <;> trivial
  | processJob step =>
    cases step with
    | unhandled =>
      refine ⟨tallied.1, fun row present => ?_⟩
      rw [((world.rows present).sameJob sound).type]
      exact .unhandled tallied.2
    | running => exact nofun
    | completed => exact fun _ => justified.2
    | succeeded | failed => exact justified.2
    | dead _ counted | retrying _ counted =>
      exact ⟨counted ▸ tallied, fun _ _ => .returned justified.2.2⟩
    | _ => trivial
  | processScheduledJobs step =>
    cases step with
    | released => exact nofun
    | _ => trivial
  | recoverUnqueuedJobs step => cases step <;> trivial
  | recoverStaleJobs step =>
    cases step with
    | failed => exact ⟨tallied _ List.mem_cons_self, fun _ _ => .stale⟩
    | _ => trivial

theorem Tallied.mono {w w' : World} {op : Op} (tallied : Tallied cfg w op)
    (calls : w.calls.Sublist w'.calls) : Tallied cfg w' op := by
  have grown (id : Uuid) : (failedCalls id w : Int) ≤ failedCalls id w' := by
    exact_mod_cast failedCalls_mono calls
  cases op with
  | processJob pc =>
    cases pc with
    | noHandler job => exact ⟨tallied.1.trans (grown job.id), tallied.2⟩
    | fetched job | executing job | failing job _ => exact Int.le_trans tallied (grown job.id)
    | _ => trivial
  | recoverStaleJobs pc =>
    cases pc with
    | failing jobs => exact fun job held => (tallied job held).trans (grown job.id)
    | starting => trivial
  | _ => trivial

theorem tallied_of_step {w : World} {op op' : Op} {reply : Reply} {e : Effect}
    (step : Op.Step cfg w op reply e op')
    (ledger : ∀ {id row}, w.row id = some row → Ledger cfg w id row)
    (tallied : Tallied cfg w op) : Tallied cfg (w.apply e) op' := by
  cases step with
  | processJob step =>
    cases step with
    | fetched _ present _ => exact (ledger present).retryCount
    | noHandler _ present unregistered => exact ⟨(ledger present).retryCount, unregistered⟩
    | @running job =>
      have unrun : Tallied cfg w (.processJob (.executing job)) := tallied
      exact unrun.mono (calls_sublist_apply _ _)
    | failed =>
      have counted := Int.add_le_add_right tallied 1
      rw [Tallied, failedCalls_record]
      exact_mod_cast counted
    | _ => trivial
  | recoverStaleJobs step =>
    cases step with
    | selected _ matching => exact fun job held => (ledger (matching job held).1).retryCount
    | unselected =>
      intro job held
      cases held
    | failed | failedLost => exact fun job held => tallied job (List.mem_cons_of_mem _ held)
  | createJob _ | cancelJob _ | retryJob _ | deleteJob _ | processScheduledJobs _
  | recoverUnqueuedJobs _ => trivial

/-! ## Whole runs -/

structure LedgerState (cfg : Config) (s : State) : Prop where
  rows : ∀ {id row}, s.world.row id = some row → Ledger cfg s.world id row
  ops : ∀ op ∈ s.ops, Tallied cfg s.world op

theorem LedgerState.step {s t : State} {a : Action}
    (reachable : (system cfg).Reachable anyAction s) (step : State.Step cfg s a t)
    (ledger : LedgerState cfg s) : LedgerState cfg t := by
  have sound := reachable_sound reachable
  have shaped := reachable_shaped reachable
  refine (step.eachOp (W := fun w => ∀ id row, w.row id = some row → Ledger cfg w id row)
    (P := Tallied cfg) (fun _ _ present => ledger.rows present) ledger.ops ?tick ?begin ?pop
    ?run).elim fun rows ops => ⟨fun present => rows _ _ present, ops⟩
  case tick =>
    intro elapsed
    refine ⟨fun id row present => ?_, fun op held => held.mono (.refl _)⟩
    exact (ledger.rows present).mono (.refl _) (by simp) (ledger.rows present).called
  case begin =>
    intro task
    cases task <;> trivial
  case pop =>
    intro queue jobIDStr redis popped
    refine ⟨fun id row present => ?_, trivial, fun op held => held.mono (.refl _)⟩
    exact (ledger.rows present).mono (.refl _) (le_refl _) (ledger.rows present).called
  case run =>
    intro op reply e op' running inner
    have recordable := recordable_of_step inner sound.world (sound.ops op running)
      (calls_known reachable) (shaped.ops op running) (ledger.ops op running)
    refine ⟨fun _ _ present => ledger_apply recordable ledger.rows present, ?_, ?_⟩
    · exact tallied_of_step inner ledger.rows (ledger.ops op running)
    · exact fun other _ held => held.mono (calls_sublist_apply _ _)

theorem reachable_ledger {s : State} (reachable : (system cfg).Reachable anyAction s) :
    LedgerState cfg s := by
  refine reachable.invariant (P := LedgerState cfg) ?_ ?_
  · rintro s ⟨now, rfl⟩
    refine ⟨?_, ?_⟩
    · intro id row present
      cases present
    · intro op running
      cases running
  · intro s a t before _ taken ledger
    exact ledger.step before (State.step_cases taken)

/-- Whatever has happened, a row's error text has a cause, its retry count is covered by failures of
its handler, and its timestamps lie between its creation and its last update and say what has
happened.  A job that was retried may have been completed before it was last started. -/
theorem row_ledger {s : State} (reachable : (system cfg).Reachable anyAction s) {id : Uuid}
    {row : JobRow} (present : s.world.row id = some row) : Ledger cfg s.world id row :=
  (reachable_ledger reachable).rows present

theorem row_ledger_retried : ∃ s row, (system Cmd.mainConfig).Reachable anyAction s ∧
    s.world.row 1 = some row ∧ row.retryCount.val = 1 ∧ failedCalls 1 s.world = 1 ∧
    Explained Cmd.mainConfig s.world 1 row.type "boom" := by
  have ⟨s, reachable, row, present, retried, error, failures⟩ :
      ∃ s, (system Cmd.mainConfig).Reachable anyAction s ∧ ∃ row ∈ s.world.row 1,
        row.retryCount.val = 1 ∧ row.error = "boom" ∧ failedCalls 1 s.world = 1 :=
    Transition.System.exists_reachable_of_exec retriedRun Cmd.initial_initialState (by decide)
  exact ⟨s, row, reachable, present, retried, failures, error ▸ (row_ledger reachable present).error⟩

/-! ## From one time to the next -/

/-- A later state of the row. -/
structure Later (old new : JobRow) : Prop where
  same : Storage.SameJob old new
  updated : old.updatedAt ≤ new.updatedAt
  started : ∀ startedAt, old.startedAt = some startedAt →
    ∃ startedAt', new.startedAt = some startedAt' ∧ startedAt ≤ startedAt'
  completed : ∀ completedAt, old.completedAt = some completedAt →
    ∃ completedAt', new.completedAt = some completedAt' ∧ completedAt ≤ completedAt'

theorem Later.refl (row : JobRow) : Later row row :=
  ⟨.refl row, le_refl _, fun at' set => ⟨at', set, le_refl _⟩, fun at' set => ⟨at', set, le_refl _⟩⟩

theorem Later.trans {a b c : JobRow} (first : Later a b) (second : Later b c) : Later a c where
  same := first.same.trans second.same
  updated := first.updated.trans second.updated
  started startedAt set := by
    obtain ⟨between, set', le⟩ := first.started startedAt set
    obtain ⟨last, set'', le'⟩ := second.started between set'
    exact ⟨last, set'', le.trans le'⟩
  completed completedAt set := by
    obtain ⟨between, set', le⟩ := first.completed completedAt set
    obtain ⟨last, set'', le'⟩ := second.completed between set'
    exact ⟨last, set'', le.trans le'⟩

theorem later_setStatus {w : World} {id : Uuid} {row : JobRow} (ledger : Ledger cfg w id row)
    (status : JobStatus) : Later row (Storage.setStatus w.now status row) where
  same := Storage.sameJob_setStatus w.now status row
  updated := ledger.updated
  started startedAt set := by
    have past := (ledger.started startedAt set).2.trans ledger.updated
    simp only [Storage.setStatus]
    split
    · exact ⟨_, rfl, past⟩
    · exact ⟨startedAt, set, le_refl _⟩
  completed completedAt set := by
    have past := (ledger.completed completedAt set).2.1.trans ledger.updated
    simp only [Storage.setStatus]
    split
    · exact ⟨_, rfl, past⟩
    · exact ⟨completedAt, set, le_refl _⟩

theorem later_setError {w : World} {id : Uuid} {row : JobRow} (ledger : Ledger cfg w id row)
    (status : JobStatus) (n : Int4) (jobErr : String) :
    Later row (Storage.setError w.now status n jobErr row) :=
  ⟨Storage.sameJob_setError w.now status n jobErr row, ledger.updated, (Later.refl row).started,
    (Later.refl row).completed⟩

/-- A row of a known job that is there after a step was there before. -/
theorem later_of_step {s t : State} {a : Action} (reachable : (system cfg).Reachable anyAction s)
    (step : State.Step cfg s a t) {id : Uuid} {origin new : JobRow}
    (inserted : s.world.origin id = some origin) (present : t.world.row id = some new) :
    ∃ old, s.world.row id = some old ∧ Later old new := by
  cases step with
  | tick | begin | popped _ => exact ⟨new, present, .refl new⟩
  | @run before op after reply e op' split inner =>
    have ledger {row} (found : s.world.row id = some row) := (reachable_ledger reachable).rows found
    cases written_of_row present with
    | inserted =>
      -- its key is not given away again
      have sound := (reachable_sound reachable).ops op (by simp [split])
      have fresh : s.world.origin id = none := inner.effect_sound sound
      rw [fresh] at inserted
      cases inserted
    | status found => exact ⟨_, found, later_setStatus (ledger found) _⟩
    | error found => exact ⟨_, found, later_setError (ledger found) _ _ _⟩
    | kept found => exact ⟨new, found, .refl new⟩

/-- Once a job is inserted its row changes only in status, retry count, error and timestamps, of
which none goes back, and once it is deleted it never returns. -/
theorem row_history {s t : State} (reachable : (system cfg).Reachable anyAction s)
    (reaches : (system cfg).Reaches anyAction s t) {id : Uuid} {origin new : JobRow}
    (inserted : s.world.origin id = some origin) (present : t.world.row id = some new) :
    ∃ old, s.world.row id = some old ∧ Later old new := by
  have held : (system cfg).Reachable anyAction t ∧ t.world.origin id = some origin ∧
      ∀ new, t.world.row id = some new → ∃ old, s.world.row id = some old ∧ Later old new := by
    refine reaches.invariant (P := fun t => (system cfg).Reachable anyAction t ∧
      t.world.origin id = some origin ∧
      ∀ new, t.world.row id = some new → ∃ old, s.world.row id = some old ∧ Later old new)
      (fun {t a u} allowed taken held => ?_)
      ⟨reachable, inserted, fun new found => ⟨new, found, .refl new⟩⟩
    obtain ⟨reached, known, history⟩ := held
    have step := State.step_cases taken
    refine ⟨reached.step allowed taken, step.grows (reachable_sound reached) known,
      fun new found => ?_⟩
    obtain ⟨between, there, later⟩ := later_of_step reached step known found
    obtain ⟨old, before, earlier⟩ := history between there
    exact ⟨old, before, earlier.trans later⟩
  exact held.2.2 new present

theorem row_history_retried : ∃ s t old new, (system Cmd.mainConfig).Reaches anyAction s t ∧
    s.world.row 1 = some old ∧ old.startedAt = none ∧ t.world.row 1 = some new ∧
    new.startedAt = some (2 * second) ∧ Later old new := by
  have ⟨s, reachable, ⟨origin, inserted⟩, fresh, later⟩ :
      ∃ s, (system Cmd.mainConfig).Reachable anyAction s ∧ (∃ origin ∈ s.world.origin 1, True) ∧
        (s.world.row 1).any (fun old => old.startedAt = none) = true ∧
        (Cmd.runFrom s (retriedRun.drop 3)).any (fun t => (t.world.row 1).any fun new =>
          new.startedAt = some (2 * second)) = true :=
    Transition.System.exists_reachable_of_exec (retriedRun.take 3) Cmd.initial_initialState
      (by decide +kernel)
  simp only [Option.any_eq_true, decide_eq_true_eq] at fresh later
  obtain ⟨t, executed, new, present, started⟩ := later
  have reaches := Transition.System.reaches_of_exec executed
  obtain ⟨old, found, grown⟩ := row_history reachable reaches inserted.1 present
  obtain ⟨old', found', unstarted⟩ := fresh
  rw [found] at found'
  cases found'
  exact ⟨s, t, old, new, reaches, found, unstarted, present, started, grown⟩

end GoQueue.Verified
