import GoQueue.System.Soundness

/-! # Jobs of queues that nobody pops

The API takes any queue name, the worker pools pop from the queues they were given.  A job
of another queue can be created, scheduled, released and cancelled; nothing else ever
happens to it.
-/

namespace GoQueue.Verified

/-- The statuses of a job that no worker has worked on. -/
def Untouched (status : JobStatus) : Prop :=
  status = .pending ∨ status = .scheduled ∨ status = .cancelled

/-- A worker pops from the queue of this job. -/
def Served (cfg : Config) (row : JobRow) : Prop := row.queue ∈ cfg.queues

/-- What an operation holds of a job that has been worked on is from a served queue. -/
def HoldsServed (cfg : Config) (w : World) : Op → Prop
  | .retryJob (.checked _ job) | .retryJob (.updated _ job) => Served cfg job.toJobRow
  | .processJob (.popped jobIDStr) => ∃ queue ∈ cfg.queues, w.NamesUnder cfg queue jobIDStr
  | .processJob (.noHandler job) | .processJob (.fetched job) | .processJob (.executing job)
  | .processJob (.succeeded job) | .processJob (.failing job _)
  | .processJob (.rescheduling job _) => Served cfg job.toJobRow
  | .processScheduledJobs (.fetched job _ _) => job.status = .retrying → Served cfg job.toJobRow
  | .processScheduledJobs (.pushed job _) => Served cfg job.toJobRow
  | .recoverStaleJobs (.failing jobs) => ∀ job ∈ jobs, Served cfg job.toJobRow
  | _ => True

/-- The rows that have been worked on are of served queues. -/
def RowsServed (cfg : Config) (w : World) : Prop :=
  ∀ id row, w.row id = some row → Untouched row.status ∨ Served cfg row

/-- The effect leaves a status of an untouched job, or writes to a job of a served queue. -/
def WritesServed (cfg : Config) (w : World) : Effect → Prop
  | .insert _ row => Untouched row.status
  | .setStatus id status | .setError id status _ _ =>
    Untouched status ∨ ∀ row, w.row id = some row → Served cfg row
  | _ => True

/-! ## One step -/

theorem Served.congr {cfg : Config} {row row' : JobRow} (served : Served cfg row)
    (same : Storage.SameJob row row') : Served cfg row' := by
  unfold Served at *
  rwa [← same.queue]

/-- All versions of a job are of the queue that an operation's snapshot names. -/
theorem served_row {cfg : Config} {w : World} (world : w.Sound cfg) {id : Uuid} {row : JobRow}
    (knows : w.Knows id row) (served : Served cfg row) :
    ∀ row', w.row id = some row' → Served cfg row' := by
  intro row' present
  exact served.congr (knows.sameJob (world.rows present))

theorem HoldsServed.grow {cfg : Config} {w w' : World} {op : Op} (held : HoldsServed cfg w op)
    (grows : w.Grows w') : HoldsServed cfg w' op := by
  cases op with
  | processJob pc =>
    cases pc with
    | popped jobIDStr =>
      obtain ⟨queue, asked, named⟩ := held
      exact ⟨queue, asked, named.grow grows⟩
    | noHandler _ | fetched _ | executing _ | succeeded _ | failing _ _ | rescheduling _ _
    | returned => exact held
  | retryJob pc => cases pc <;> exact held
  | processScheduledJobs pc => cases pc <;> exact held
  | recoverStaleJobs pc => cases pc <;> exact held
  | createJob _ | cancelJob _ | deleteJob _ | recoverUnqueuedJobs _ => trivial

theorem RowsServed.apply {cfg : Config} {w : World} {e : Effect} (rows : RowsServed cfg w)
    (writes : WritesServed cfg w e) : RowsServed cfg (w.apply e) := by
  intro id row present
  rw [World.row_apply] at present
  cases e with
  | insert id' new =>
    simp only [Effect.onRow] at present
    split at present
    · cases present
      exact .inl writes
    · exact rows id row present
  | setStatus id' status =>
    simp only [Effect.onRow] at present
    split at present
    case isTrue same =>
      subst same
      obtain ⟨old, found, rfl⟩ := Option.map_eq_some_iff.mp present
      exact writes.imp_right fun served => served old found
    case isFalse => exact rows id row present
  | setError id' status n jobErr =>
    simp only [Effect.onRow] at present
    split at present
    case isTrue same =>
      subst same
      obtain ⟨old, found, rfl⟩ := Option.map_eq_some_iff.mp present
      exact writes.imp_right fun served => served old found
    case isFalse => exact rows id row present
  | delete id' =>
    simp only [Effect.onRow] at present
    split at present
    · cases present
    · exact rows id row present
  | none | push _ _ | schedule _ _ | takeDue | record _ _ => exact rows id row present

theorem writesServed_of_step {cfg : Config} {w : World} {op op' : Op} {reply : Reply} {e : Effect}
    (step : Op.Step cfg w op reply e op') (world : w.Sound cfg) (sound : op.Sound cfg w)
    (held : HoldsServed cfg w op) : WritesServed cfg w e := by
  cases step with
  | createJob step =>
    cases step with
    | inserted prepared _ stored =>
      -- the row is stored with the status the request was given
      have status := (Storage.created_of_createJob stored).status
      cases Api.prepare_ok prepared with
      | inl immediate => exact .inl (status.trans immediate.2)
      | inr delayed =>
        obtain ⟨_, _, scheduled⟩ := delayed
        exact .inr (.inl (status.trans scheduled))
    | _ => trivial
  | cancelJob step =>
    cases step with
    | cancelled => exact .inl (.inr (.inr rfl))
    | _ => trivial
  | retryJob step =>
    cases step with
    | updated => exact .inl (.inl rfl)
    | _ => trivial
  | deleteJob step => cases step <;> trivial
  | processJob step =>
    cases step with
    | unhandled | running | completed | dead _ _ | retrying _ _ =>
      exact .inr (served_row world sound held)
    | _ => trivial
  | processScheduledJobs step =>
    cases step with
    | released => exact .inl (.inl rfl)
    | _ => trivial
  | recoverUnqueuedJobs step => cases step <;> trivial
  | recoverStaleJobs step =>
    cases step with
    | failed =>
      exact .inr (served_row world (sound _ List.mem_cons_self) (held _ List.mem_cons_self))
    | _ => trivial

theorem holdsServed_of_step {cfg : Config} {w : World} {op op' : Op} {reply : Reply} {e : Effect}
    (step : Op.Step cfg w op reply e op') (world : w.Sound cfg) (rows : RowsServed cfg w)
    (held : HoldsServed cfg w op) : HoldsServed cfg (w.apply e) op' := by
  -- a row with a status no untouched job has is of a served queue
  have touched {id : Uuid} {row : JobRow} (present : w.row id = some row)
      (status : ¬ Untouched row.status) : Served cfg row :=
    (rows id row present).resolve_left status
  cases step with
  | retryJob step =>
    cases step with
    | checked _ present dead => exact touched present (by simp [Untouched, dead])
    | updated => exact held
    | _ => trivial
  | processJob step =>
    cases step with
    | fetched parsed present _ | noHandler parsed present _ =>
      obtain ⟨queue, asked, named⟩ := held
      rw [named.names.eq_string parsed] at named
      have own := named.queue_eq (world.rows present) (.inl asked)
      exact (congrArg (· ∈ cfg.queues) own).mpr asked
    | running | succeeded | failed | retrying _ _ | retryingLost _ => exact held
    | _ => trivial
  | processScheduledJobs step =>
    cases step with
    | fetched parsed present =>
      intro retrying
      exact touched present (by simp [Untouched, retrying])
    | pushedRetrying retrying => exact held retrying
    | _ => trivial
  | recoverStaleJobs step =>
    cases step with
    | selected _ matching =>
      intro job chosen
      obtain ⟨present, running⟩ := matching job chosen
      exact touched present (by simp [Untouched, running])
    | unselected =>
      intro job chosen
      cases chosen
    | failed | failedLost => exact fun job chosen => held job (List.mem_cons_of_mem _ chosen)
  | createJob step => cases step <;> trivial
  | cancelJob step => cases step <;> trivial
  | deleteJob step => cases step <;> trivial
  | recoverUnqueuedJobs step => cases step <;> trivial

/-! ## Whole runs -/

structure ServedState (cfg : Config) (s : State) : Prop where
  rows : RowsServed cfg s.world
  ops : ∀ op ∈ s.ops, HoldsServed cfg s.world op

theorem reachable_served {cfg : Config} {permitted : State → Action → Prop} {s : State}
    (reachable : (system cfg).Reachable permitted s) : ServedState cfg s := by
  refine reachable.invariant ?_ ?_
  · intro s start
    obtain ⟨now, rfl⟩ := start
    refine ⟨?_, ?_⟩
    · intro id row present
      cases present
    · intro op running
      cases running
  · intro s a t before _ taken invariant
    obtain ⟨rows, ops⟩ := invariant
    have sound := reachable_sound before
    refine ((State.step_cases taken).eachOp (P := HoldsServed cfg) rows ops ?tick ?begin ?pop
      ?run).elim fun rows ops => ⟨rows, ops⟩
    case tick =>
      exact fun elapsed => ⟨rows, fun op held => held.grow fun inserted => inserted⟩
    case begin =>
      intro task
      cases task <;> trivial
    case pop =>
      intro queue jobIDStr redis popped
      refine ⟨rows, ⟨queue, popped.asked, ?_⟩, fun op held => held.grow fun inserted => inserted⟩
      exact (sound.world.named_of_popped popped).grow fun inserted => inserted
    case run =>
      intro op reply e op' running inner
      have effect := inner.effect_sound (sound.ops op running)
      have writes := writesServed_of_step inner sound.world (sound.ops op running) (ops op running)
      refine ⟨rows.apply writes, holdsServed_of_step inner sound.world rows (ops op running), ?_⟩
      exact fun other _ held => held.grow (World.grows_apply effect)

end GoQueue.Verified
