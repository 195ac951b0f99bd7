import GoQueue.Verified.Ledger
import GoQueue.Verified.Tokens

/-! # What is left of a deleted job

`DeleteJob` removes the row and nothing else.  The identifier may still be in Redis, and operations
may hold the row as it was: a worker that has read it runs the job all the same, and a retry
request that has found it dead pushes it.  From then on this only becomes less.  An operation that
looks for the row does not find it, and drops the identifier it came with.
-/

namespace GoQueue.Verified

variable {cfg : Config}

/-- The operation is going to call the handler of the job, or is calling it. -/
def toCall (id : Uuid) : Op → Nat
  | .processJob (.fetched job) | .processJob (.executing job) => if job.id = id then 1 else 0
  | _ => 0

/-- The copies of the identifier that an operation may still put into Redis, if it does not find
the row. -/
def toStore (id : Uuid) : Op → Nat
  | .createJob (.created _ stored) => if stored.id = id then 1 else 0
  | .retryJob (.checked id' _) | .retryJob (.updated id' _) => if id' = id then 1 else 0
  | .processJob (.fetched job) | .processJob (.executing job) | .processJob (.failing job _)
  | .processJob (.rescheduling job _) => if job.id = id then 1 else 0
  | .processScheduledJobs (.fetched job _ _) => if job.id = id then 1 else 0
  | .recoverUnqueuedJobs (.pushing jobs) => jobs.countP fun job => job.id = id
  | _ => 0

/-- The calls of the handler that have returned and that may still be made. -/
def callsInAll (id : Uuid) (s : State) : Nat :=
  returnedCalls id s.world + (s.ops.map (toCall id)).sum

/-- The copies of the identifier in Redis and those that may still be put there. -/
def copiesInAll (cfg : Config) (id : Uuid) (s : State) : Nat :=
  stored cfg s.world id + (s.ops.map (toStore id)).sum

/-! ## One step -/

theorem calls_of_step {w : World} {op op' : Op} {reply : Reply} {e : Effect}
    (step : Op.Step cfg w op reply e op') {id : Uuid} (gone : w.row id = none) :
    returnedCalls id (w.apply e) + toCall id op' ≤ returnedCalls id w + toCall id op := by
  -- most steps neither return from a handler nor come nearer to calling it
  have same (calls : (w.apply e).calls = w.calls) (waits : toCall id op' ≤ toCall id op) :
      returnedCalls id (w.apply e) + toCall id op' ≤ returnedCalls id w + toCall id op := by
    rw [returnedCalls, calls]
    exact Nat.add_le_add_left waits _
  cases step with
  | processJob step =>
    cases step with
    | @fetched _ job _ present =>
      have other : job.id ≠ id := fun same => by rw [same, gone] at present; cases present
      exact same rfl (by simp [toCall, other])
    | running => exact same rfl (le_refl _)
    | @succeeded job | @failed job =>
      simp only [returnedCalls, World.calls_apply, List.countP_cons, toCall, decide_eq_true_eq]
      omega
    | _ => exact same rfl (Nat.zero_le _)
  | createJob step | cancelJob step | retryJob step | deleteJob step | processScheduledJobs step
  | recoverUnqueuedJobs step | recoverStaleJobs step => cases step <;> exact same rfl (le_refl _)

theorem copies_of_step {w : World} {op op' : Op} {reply : Reply} {e : Effect}
    (step : Op.Step cfg w op reply e op') (sound : op.Sound cfg w) {id : Uuid} {origin : JobRow}
    (inserted : w.origin id = some origin) (gone : w.row id = none) :
    stored cfg (w.apply e) id + toStore id op' ≤ stored cfg w id + toStore id op := by
  have same (aside : (w.apply e).redis = w.redis) (hands : toStore id op' ≤ toStore id op) :
      stored cfg (w.apply e) id + toStore id op' ≤ stored cfg w id + toStore id op := by
    simp only [stored, aside]
    omega
  have other {job : Job} (present : w.row job.id = some job.toJobRow) : job.id ≠ id :=
    fun same => by rw [same, gone] at present; cases present
  cases step with
  | createJob step =>
    cases step with
    | @inserted _ _ id' _ _ fresh _ =>
      have different : id' ≠ id := fun same => by rw [same, inserted] at fresh; cases fresh
      exact same rfl (by simp [toStore, Storage.scanJob, different])
    | @scheduled _ stored runAt _ =>
      have bound := stored_schedule cfg w id stored.id runAt
      simp only [toStore]
      omega
    | @pushed job stored _ =>
      have bound := stored_push cfg w id job.queue stored.id
      simp only [toStore]
      omega
    | rejected _ | refused | unqueued => exact same rfl (Nat.zero_le _)
  | cancelJob step => cases step <;> exact same rfl (le_refl _)
  | retryJob step =>
    cases step with
    | @checked _ job _ present _ => exact same rfl (by simp [toStore, other present])
    | updated => exact same rfl (le_refl _)
    | @pushed id' job =>
      have bound := stored_push cfg w id job.queue id'
      simp only [toStore]
      omega
    | _ => exact same rfl (Nat.zero_le _)
  | deleteJob step => cases step <;> exact same rfl (le_refl _)
  | processJob step =>
    cases step with
    | @fetched _ job _ present => exact same rfl (by simp [toStore, other present])
    | running | failed | retrying | retryingLost => exact same rfl (le_refl _)
    | @rescheduled job n =>
      have bound := stored_schedule cfg w id job.id (w.now + backoffDuration cfg.overflow n)
      simp only [toStore]
      omega
    | _ => exact same rfl (Nat.zero_le _)
  | processScheduledJobs step =>
    cases step with
    | taken =>
      have moved := stored_takeDue cfg w id
      simp only [toStore]
      omega
    | @fetched job _ _ _ present => exact same rfl (by simp [toStore, other present])
    | @pushedRetrying job _ rest _ | @pushed job _ rest _ =>
      obtain ⟨_, rfl, _⟩ := sound
      have bound := stored_push cfg w id job.queue job.id
      simp only [toStore]
      omega
    | _ => exact same rfl (Nat.zero_le _)
  | recoverUnqueuedJobs step =>
    cases step with
    | selected _ matching =>
      refine same rfl (le_of_eq (List.countP_eq_zero.mpr fun job held => ?_))
      simpa using other (matching job held).1
    | unselected => exact same rfl (le_refl _)
    | @pushed job rest =>
      have bound := stored_push cfg w id job.queue job.id
      simp only [toStore, List.countP_cons, decide_eq_true_eq]
      omega
    | unpushed =>
      refine same rfl ?_
      simp only [toStore, List.countP_cons]
      omega
  | recoverStaleJobs step => cases step <;> exact same rfl (le_refl _)

/-! ## Whole runs -/

/-- What has come of an amount and what the operations hold for it only becomes less, if that is so
for each of them. -/
theorem wanes (amount : World → Nat) (weight : Op → Nat) {s t : State} {a : Action}
    (step : State.Step cfg s a t)
    (tick : ∀ elapsed : Nat,
      amount { s.world with now := s.world.now + elapsed } = amount s.world)
    (begin : ∀ task : Task, weight task.start = 0)
    (pop : ∀ {queue jobIDStr redis}, Queue.Popped s.world.redis cfg.queues queue jobIDStr redis →
      amount { s.world with redis := redis } + weight (.processJob (.popped jobIDStr)) ≤
        amount s.world)
    (run : ∀ {op reply e op'}, op ∈ s.ops → Op.Step cfg s.world op reply e op' →
      amount (s.world.apply e) + weight op' ≤ amount s.world + weight op) :
    amount t.world + (t.ops.map weight).sum ≤ amount s.world + (s.ops.map weight).sum := by
  cases step with
  | @tick elapsed => exact Nat.add_le_add_right (tick elapsed).le _
  | @begin task => simp [begin task]
  | popped popped =>
    have moved := pop popped
    dsimp only at moved
    simp only [List.map_append, List.sum_append, List.map_cons, List.map_nil, List.sum_cons,
      List.sum_nil]
    omega
  | @run before op after reply e op' split inner =>
    have moved := run (by simp [split]) inner
    simp only [split, List.map_append, List.sum_append, List.map_cons, List.sum_cons]
    omega

theorem callsInAll_step {s t : State} {a : Action} (step : State.Step cfg s a t) {id : Uuid}
    (gone : s.world.row id = none) : callsInAll id t ≤ callsInAll id s :=
  wanes (returnedCalls id) (toCall id) step (fun _ => rfl) (fun task => by cases task <;> rfl)
    (fun _ => le_refl _)
    fun _ inner => calls_of_step inner gone

theorem copiesInAll_step {s t : State} {a : Action} (step : State.Step cfg s a t)
    (sound : s.Sound cfg) {id : Uuid} {origin : JobRow} (inserted : s.world.origin id = some origin)
    (gone : s.world.row id = none) : copiesInAll cfg id t ≤ copiesInAll cfg id s := by
  refine wanes (fun w => stored cfg w id) (toStore id) step (fun _ => rfl)
    (fun task => by cases task <;> rfl) (fun popped => ?_)
    fun running inner => copies_of_step inner (sound.ops _ running) inserted gone
  have lists := popped.occurrences (cfg.uuid.string id)
  simp only [stored, popped.scheduled, toStore]
  omega

/-- The step in which a `DeleteJob` request for the job answers 200. -/
def DeleteAnswers (cfg : Config) (id : Uuid) (s t : State) : Prop :=
  ∃ i idParam, s.ops[i]? = some (.deleteJob (.received idParam)) ∧
    cfg.uuid.parse idParam = some id ∧ s.step cfg (.run i .ok) = some t ∧
    t.ops[i]? = some (.deleteJob (.responded (Api.writeStatus "deleted")))

theorem DeleteAnswers.gone {id : Uuid} {s t : State} (answers : DeleteAnswers cfg id s t)
    (sound : s.Sound cfg) : t.world.row id = none ∧ ∃ origin, t.world.origin id = some origin := by
  obtain ⟨i, idParam, received, parsed, taken, answered⟩ := answers
  obtain ⟨op, e, op', found, inner, rfl⟩ := State.run_cases taken
  rw [received] at found
  cases found
  rw [State.getElem?_set_place received] at answered
  cases answered
  cases inner with
  | deleteJob step =>
    cases step with
    | deleted parsed' present dead =>
      rw [parsed] at parsed'
      cases parsed'
      obtain ⟨origin, known, _⟩ := sound.world.rows present
      exact ⟨by simp [World.row_apply, Effect.onRow], origin, known⟩

/-- Once `DeleteJob` has answered 200 the row never comes back.  The handler is called at most once
for each worker that had read the row before and not yet called it, and the identifier is put into
Redis at most once for each operation that held it. -/
theorem deletion_winds_down {id : Uuid} {s t u : State}
    (reachable : (system cfg).Reachable anyAction s) (answers : DeleteAnswers cfg id s t)
    (continues : (system cfg).Reaches anyAction t u) :
    u.world.row id = none ∧ callsInAll id u ≤ callsInAll id t ∧
      copiesInAll cfg id u ≤ copiesInAll cfg id t := by
  have answered : (system cfg).Reachable anyAction t := by
    obtain ⟨_, _, _, _, taken, _⟩ := answers
    exact reachable.step (a := .run _ .ok) trivial taken
  obtain ⟨gone, origin, known⟩ := answers.gone (reachable_sound reachable)
  have invariant := continues.invariant (P := fun u => (system cfg).Reachable anyAction u ∧
      u.world.origin id = some origin ∧ u.world.row id = none ∧ callsInAll id u ≤ callsInAll id t ∧
        copiesInAll cfg id u ≤ copiesInAll cfg id t)
    (fun {u a v} allowed taken held => ?_) ⟨answered, known, gone, le_refl _, le_refl _⟩
  · exact invariant.2.2
  · obtain ⟨reached, known, gone, calls, copies⟩ := held
    have step := State.step_cases taken
    have sound := reachable_sound reached
    refine ⟨reached.step allowed taken, step.grows sound known, ?_,
      (callsInAll_step step gone).trans calls, (copiesInAll_step step sound known gone).trans copies⟩
    by_contra present
    obtain ⟨row, there⟩ := Option.ne_none_iff_exists'.mp present
    obtain ⟨old, found, _⟩ := later_of_step reached step known there
    rw [gone] at found
    cases found

/-- A job is dead; a request to retry it has found it so, and a request to delete it has arrived. -/
def deleteRun : List Action :=
  [.begin (.createJob (some { Cmd.request with maxRetries := some 1 })), .run 0 (.inserted 1),
    .run 0 .ok, .pop, .run 1 .ok, .run 1 .ok, .run 1 (.returned (some "boom")), .run 1 .ok,
    .begin (.retryJob (Cmd.mainConfig.uuid.string 1)), .run 2 .ok,
    .begin (.deleteJob (Cmd.mainConfig.uuid.string 1))]

theorem deletion_winds_down_retried : ∃ s t u, (system Cmd.mainConfig).Reachable anyAction s ∧
    DeleteAnswers Cmd.mainConfig 1 s t ∧ (system Cmd.mainConfig).Reaches anyAction t u ∧
    stored Cmd.mainConfig u.world 1 = 1 ∧ u.world.row 1 = none ∧
    copiesInAll Cmd.mainConfig 1 u ≤ copiesInAll Cmd.mainConfig 1 t := by
  have ⟨s, reachable, received, answered⟩ : ∃ s, (system Cmd.mainConfig).Reachable anyAction s ∧
      s.ops[3]? = some (.deleteJob (.received (Cmd.mainConfig.uuid.string 1))) ∧
      (s.step Cmd.mainConfig (.run 3 .ok)).any (fun t =>
        t.ops[3]? = some (.deleteJob (.responded (Api.writeStatus "deleted"))) &&
        (Cmd.runFrom t [.run 2 .ok, .run 2 .ok]).any fun u =>
          stored Cmd.mainConfig u.world 1 = 1) = true :=
    Transition.System.exists_reachable_of_exec deleteRun Cmd.initial_initialState (by decide +kernel)
  simp only [Option.any_eq_true, Bool.and_eq_true, decide_eq_true_eq] at answered
  obtain ⟨t, taken, deleted, u, executed, left⟩ := answered
  have answers : DeleteAnswers Cmd.mainConfig 1 s t :=
    ⟨3, _, received, Cmd.mainConfig.uuid.parse_string 1, taken, deleted⟩
  have reaches := Transition.System.reaches_of_exec executed
  obtain ⟨gone, _, copies⟩ := deletion_winds_down reachable answers reaches
  exact ⟨s, t, u, reachable, answers, reaches, left, gone, copies⟩

end GoQueue.Verified
