import GoQueue.Verified.Service
import GoQueue.Cmd.Main

/-! # What a cancellation stops

`CancelJob` writes `cancelled` into the row and leaves the identifier where it is: in a list,
in the schedule, in a batch of a scheduler pass or in a worker's hands.  The worker does not
look at the status it reads, so a cancelled job that is delivered afterwards is run.

The answer is final when nothing is left that can still deliver the job.  `Harmless` says
which operations under way are no danger, `Bystander` what operations begun after the answer
are like from then on.
-/

namespace GoQueue.Verified

/-- The operation has nothing to do with the job, except that a request may be about to
cancel it. -/
def Bystander (cfg : Config) (id : Uuid) : Op → Prop
  | .createJob (.created _ stored) => stored.id ≠ id
  | .retryJob (.checked id' _) | .retryJob (.updated id' _) => id' ≠ id
  | .processJob (.popped jobIDStr) => jobIDStr ≠ cfg.uuid.string id
  | .processJob (.noHandler job) | .processJob (.fetched job) | .processJob (.executing job)
  | .processJob (.succeeded job) | .processJob (.failing job _)
  | .processJob (.rescheduling job _) => job.id ≠ id
  | .processScheduledJobs (.releasing dueJobIDs) => cfg.uuid.string id ∉ dueJobIDs
  | .processScheduledJobs (.fetched job _ rest) | .processScheduledJobs (.pushed job rest) =>
    job.id ≠ id ∧ cfg.uuid.string id ∉ rest
  | .recoverUnqueuedJobs (.pushing jobs) | .recoverStaleJobs (.failing jobs) =>
    ∀ job ∈ jobs, job.id ≠ id
  | _ => True

/-- The operation will not deliver the job, or lead to its delivery.  It may still write the
row: the outcome of a handler that has succeeded, `failed` for a type without a handler or a
run that went stale, or `pending` in a row that the recovery pass passes over. -/
inductive Harmless (cfg : Config) (id : Uuid) (origin : JobRow) : Op → Prop where
  | bystander {op} : Bystander cfg id op → Harmless cfg id origin op
  | unregistered {jobIDStr} : cfg.registered origin.type = false →
      Harmless cfg id origin (.processJob (.popped jobIDStr))
  | noHandler {job} : Harmless cfg id origin (.processJob (.noHandler job))
  | succeeded {job} : Harmless cfg id origin (.processJob (.succeeded job))
  | stale {pc} : Harmless cfg id origin (.recoverStaleJobs pc)
  | released {job rest} : origin.runAt.isSome = true → cfg.uuid.string id ∉ rest →
      Harmless cfg id origin (.processScheduledJobs (.pushed job rest))

/-- Nothing is left that can deliver the job. -/
structure Quiet (cfg : Config) (id : Uuid) (origin : JobRow) (s : State) : Prop where
  lists : s.world.redis.occurrences (cfg.uuid.string id) = 0
  schedule : ¬ cfg.uuid.string id ∈ Queue.scheduled s.world.redis
  ops : ∀ op ∈ s.ops, Harmless cfg id origin op

/-- The job's row is gone, its queue has no workers, or nothing can deliver it any more. -/
def Undeliverable (cfg : Config) (id : Uuid) (s : State) : Prop :=
  s.world.row id = none ∨
    ∀ origin, s.world.origin id = some origin → ¬ Served cfg origin ∨ Quiet cfg id origin s

/-- No operation from place `n` on runs the job's handler or takes the row out of `cancelled`. -/
structure Final (cfg : Config) (id : Uuid) (n : Nat) (s : State) : Prop where
  handler : ∀ k ≥ n, ∀ job, s.ops[k]? = some (.processJob (.executing job)) → job.id ≠ id
  status : ∀ k ≥ n, ∀ reply t row, s.step cfg (.run k reply) = some t →
    s.world.row id = some row → row.status = .cancelled →
    ∃ row', t.world.row id = some row' ∧ row'.status = .cancelled

/-! ## The one write that keeps a row cancelled -/

/-- A step that writes nothing but `cancelled` to a row leaves it cancelled. -/
theorem stays_cancelled {w : World} {e : Effect} {id : Uuid} {row : JobRow}
    (present : w.row id = some row) (cancelled : row.status = .cancelled)
    (writes : e.target = some id → e = .setStatus id .cancelled) :
    ∃ row', (w.apply e).row id = some row' ∧ row'.status = .cancelled := by
  by_cases hit : e.target = some id
  · rw [writes hit, World.row_apply]
    simp [Effect.onRow, present, Storage.setStatus]
  · exact ⟨row, by rw [World.row_apply_of_target_ne hit, present], cancelled⟩

/-- A job that was inserted is not inserted again. -/
theorem fresh_ne {w : World} {id id' : Uuid} {origin : JobRow} (known : w.origin id = some origin)
    (fresh : w.origin id' = none) : id' ≠ id := by
  intro same
  rw [same, known] at fresh
  cases fresh

/-- `DeleteJob` does not touch a cancelled row. -/
theorem not_deleted {w : World} {id id' : Uuid} {row row' : JobRow} (present : w.row id = some row)
    (cancelled : row.status = .cancelled) (present' : w.row id' = some row')
    (dead : row'.status = .dead) : id' ≠ id := by
  intro same
  subst same
  rw [present] at present'
  cases present'
  rw [cancelled] at dead
  cases dead

/-! ## A job that nothing can deliver -/

/-- The statuses of a row that no operation turns into a delivery. -/
def Settled (origin row : JobRow) : Prop :=
  row.status = .cancelled ∨ row.status = .completed ∨ row.status = .failed ∨
    (row.status = .pending ∧ origin.runAt.isSome = true)

/-- The effect does not put the job into Redis and leaves its row settled. -/
def Spares (cfg : Config) (id : Uuid) (origin : JobRow) : Effect → Prop
  | .insert id' _ => id' ≠ id
  | .setStatus id' status | .setError id' status _ _ => id' = id →
    status = .cancelled ∨ status = .completed ∨ status = .failed ∨
      (status = .pending ∧ origin.runAt.isSome = true)
  | .push _ jobID | .schedule jobID _ => jobID ≠ cfg.uuid.string id
  | _ => True

section Step

variable {cfg : Config} {w : World} {id : Uuid} {origin : JobRow} {op op' : Op} {reply : Reply}
  {e : Effect}

theorem string_ne {a b : Uuid} (different : a ≠ b) : cfg.uuid.string a ≠ cfg.uuid.string b :=
  fun equal => different (cfg.uuid.string_injective equal)

/-- An identifier that is read from Redis leads to the row of no other job. -/
theorem fetched_ne {jobIDStr : String} {id' : Uuid} (named : w.Names cfg jobIDStr)
    (parsed : cfg.uuid.parse jobIDStr = some id') (other : jobIDStr ≠ cfg.uuid.string id) :
    id' ≠ id := by
  intro same
  subst same
  exact other (named.eq_string parsed)

/-- The row of a job that was inserted is a version of what was inserted. -/
theorem sameJob_origin (world : w.Sound cfg) (known : w.origin id = some origin) {row : JobRow}
    (present : w.row id = some row) : Storage.SameJob origin row := by
  obtain ⟨origin', inserted, same⟩ := world.rows present
  rw [known] at inserted
  cases inserted
  exact same

theorem bystander_of_step (step : Op.Step cfg w op reply e op') (world : w.Sound cfg)
    (sound : op.Sound cfg w) (known : w.origin id = some origin)
    (settled : ∀ row, w.row id = some row → Settled origin row)
    (schedule : ¬ cfg.uuid.string id ∈ Queue.scheduled w.redis)
    (bystander : Bystander cfg id op) : Bystander cfg id op' := by
  -- a row that is read with a status that is not settled is another job's
  have other {id' : Uuid} {row : JobRow} (present : w.row id' = some row)
      (unsettled : ¬ Settled origin row) : id' ≠ id := by
    intro same
    subst same
    exact unsettled (settled row present)
  cases step with
  | createJob step =>
    cases step with
    | inserted _ fresh _ => exact fresh_ne known fresh
    | _ => trivial
  | cancelJob step => cases step <;> trivial
  | retryJob step =>
    cases step with
    | checked _ present dead => exact other present (by simp [Settled, dead])
    | updated => exact bystander
    | _ => trivial
  | deleteJob step => cases step <;> trivial
  | processJob step =>
    cases step with
    | fetched parsed _ _ | noHandler parsed _ _ => exact fetched_ne sound parsed bystander
    | running | succeeded | failed | retrying _ _ | retryingLost _ => exact bystander
    | _ => trivial
  | processScheduledJobs step =>
    cases step with
    | taken =>
      intro due
      exact schedule (SortedSet.mem_rangeByScore_or_remove.mpr (.inl due))
    | untaken => exact List.not_mem_nil
    | invalid _ | missing _ _ | unread =>
      exact fun held => bystander (List.mem_cons_of_mem _ held)
    | fetched parsed _ =>
      refine ⟨fetched_ne (sound _ List.mem_cons_self) parsed ?_, ?_⟩
      · intro same
        exact bystander (same ▸ List.mem_cons_self)
      · exact fun held => bystander (List.mem_cons_of_mem _ held)
    | pushedRetrying _ => exact bystander
    | pushed _ | unpushed | released | releasedLost => exact bystander.2
  | recoverUnqueuedJobs step =>
    cases step with
    | selected _ matching =>
      intro job chosen
      obtain ⟨present, pending, immediate⟩ := matching job chosen
      intro same
      -- a pending row of the job itself would have a time to run at
      rw [same] at present
      have run := (sameJob_origin world known present).runAt
      have := settled _ present
      simp_all [Settled]
    | unselected =>
      intro job chosen
      cases chosen
    | pushed | unpushed => exact fun job held => bystander job (List.mem_cons_of_mem _ held)
  | recoverStaleJobs step =>
    cases step with
    | selected _ matching =>
      intro job chosen
      obtain ⟨present, running⟩ := matching job chosen
      exact other present (by simp [Settled, running])
    | unselected =>
      intro job chosen
      cases chosen
    | failed | failedLost => exact fun job held => bystander job (List.mem_cons_of_mem _ held)

theorem harmless_of_step (step : Op.Step cfg w op reply e op') (world : w.Sound cfg)
    (sound : op.Sound cfg w) (known : w.origin id = some origin)
    (settled : ∀ row, w.row id = some row → Settled origin row)
    (schedule : ¬ cfg.uuid.string id ∈ Queue.scheduled w.redis)
    (harmless : Harmless cfg id origin op) : Harmless cfg id origin op' := by
  cases harmless with
  | bystander bystander =>
    exact .bystander (bystander_of_step step world sound known settled schedule bystander)
  | unregistered unregistered =>
    cases step with
    | processJob step =>
      cases step with
      -- a job whose type has no handler is not fetched for execution
      | fetched _ present registered =>
        refine .bystander fun same => ?_
        rw [same] at present
        rw [← (sameJob_origin world known present).type, unregistered] at registered
        cases registered
      | noHandler _ _ _ => exact .noHandler
      | invalid _ | missing _ _ | unread => exact .bystander trivial
  | noHandler =>
    cases step with
    | processJob step => cases step <;> exact .bystander trivial
  | succeeded =>
    cases step with
    | processJob step => cases step <;> exact .bystander trivial
  | stale =>
    cases step with
    | recoverStaleJobs step => exact .stale
  | released _ absent =>
    cases step with
    | processScheduledJobs step => cases step <;> exact .bystander absent

theorem spares_of_step (step : Op.Step cfg w op reply e op') (sound : op.Sound cfg w)
    (known : w.origin id = some origin) (harmless : Harmless cfg id origin op) :
    Spares cfg id origin e := by
  cases step with
  | createJob step =>
    cases harmless with
    | bystander bystander =>
      cases step with
      | inserted _ fresh _ => exact fresh_ne known fresh
      | scheduled _ | pushed _ => exact string_ne bystander
      | _ => trivial
  | cancelJob step =>
    cases step with
    | cancelled => exact fun _ => .inl rfl
    | _ => trivial
  | retryJob step =>
    cases harmless with
    | bystander bystander =>
      cases step with
      | updated => exact fun same => absurd same bystander
      | pushed => exact string_ne bystander
      | _ => trivial
  | deleteJob step => cases step <;> trivial
  | processJob step =>
    cases step with
    -- these writes make a row completed or failed, whoever it belongs to
    | unhandled => exact fun _ => .inr (.inr (.inl rfl))
    | completed => exact fun _ => .inr (.inl rfl)
    | running | dead _ _ | retrying _ _ =>
      cases harmless with
      | bystander bystander => exact fun same => absurd same bystander
    | rescheduled =>
      cases harmless with
      | bystander bystander => exact string_ne bystander
    | _ => trivial
  | processScheduledJobs step =>
    cases step with
    | pushedRetrying _ | pushed _ =>
      cases harmless with
      | bystander bystander =>
        obtain ⟨_, text, _⟩ := sound
        subst text
        exact string_ne bystander.1
    | released =>
      cases harmless with
      | bystander bystander => exact fun same => absurd same bystander.1
      | released delayed _ => exact fun _ => .inr (.inr (.inr ⟨rfl, delayed⟩))
    | _ => trivial
  | recoverUnqueuedJobs step =>
    cases step with
    | pushed =>
      cases harmless with
      | bystander bystander => exact string_ne (bystander _ List.mem_cons_self)
    | _ => trivial
  | recoverStaleJobs step =>
    cases step with
    | failed => exact fun _ => .inr (.inr (.inl rfl))
    | _ => trivial

/-- The only write a bystander makes to a cancelled row is `cancelled` again. -/
theorem bystander_writes (step : Op.Step cfg w op reply e op') (world : w.Sound cfg)
    {row : JobRow} (present : w.row id = some row) (cancelled : row.status = .cancelled)
    (bystander : Bystander cfg id op) (hit : e.target = some id) : e = .setStatus id .cancelled := by
  obtain ⟨origin, known, _⟩ := world.rows present
  cases step with
  | createJob step =>
    cases step with
    | inserted _ fresh _ =>
      cases hit
      exact absurd rfl (fresh_ne known fresh)
    | _ => cases hit
  | cancelJob step =>
    cases step with
    | cancelled => cases hit; rfl
    | _ => cases hit
  | retryJob step =>
    cases step with
    | updated => cases hit; exact absurd rfl bystander
    | _ => cases hit
  | deleteJob step =>
    cases step with
    -- `DELETE` asks for a dead row, and this one is cancelled
    | deleted _ present' dead =>
      cases hit
      exact absurd rfl (not_deleted present cancelled present' dead)
    | _ => cases hit
  | processJob step =>
    cases step with
    | unhandled | running | completed | dead _ _ | retrying _ _ =>
      cases hit
      exact absurd rfl bystander
    | _ => cases hit
  | processScheduledJobs step =>
    cases step with
    | released => cases hit; exact absurd rfl bystander.1
    | _ => cases hit
  | recoverUnqueuedJobs step => cases step <;> cases hit
  | recoverStaleJobs step =>
    cases step with
    | failed => cases hit; exact absurd rfl (bystander _ List.mem_cons_self)
    | _ => cases hit

end Step

/-- What holds in the stores from the answer on. -/
structure QuietStores (cfg : Config) (id : Uuid) (origin : JobRow) (w : World) : Prop where
  known : w.origin id = some origin
  rows : ∀ row, w.row id = some row → Settled origin row
  lists : ∀ queue, cfg.uuid.string id ∉ Queue.contents queue w.redis
  schedule : ¬ cfg.uuid.string id ∈ Queue.scheduled w.redis

theorem QuietStores.apply {cfg : Config} {id : Uuid} {origin : JobRow} {w : World} {e : Effect}
    (quiet : QuietStores cfg id origin w) (effect : e.Sound cfg w)
    (spares : Spares cfg id origin e) : QuietStores cfg id origin (w.apply e) := by
  refine ⟨World.grows_apply effect quiet.known, ?_, ?_, ?_⟩
  · intro row present
    rw [World.row_apply] at present
    cases e with
    | insert id' new =>
      rw [Effect.onRow, if_neg (Ne.symm spares)] at present
      exact quiet.rows row present
    -- an update of this row is one of those that `Spares` admits
    | setStatus id' status | setError id' status _ _ =>
      simp only [Effect.onRow] at present
      split at present
      case isTrue same =>
        obtain ⟨old, _, rfl⟩ := Option.map_eq_some_iff.mp present
        exact spares same.symm
      case isFalse => exact quiet.rows row present
    | delete id' =>
      simp only [Effect.onRow] at present
      split at present
      · cases present
      · exact quiet.rows row present
    | none | push _ _ | schedule _ _ | takeDue | record _ _ => exact quiet.rows row present
  · intro queue held
    obtain rfl | before := World.mem_contents_apply.mp held
    · exact spares rfl
    · exact quiet.lists queue before
  · intro held
    obtain ⟨runAt, rfl⟩ | before := World.mem_scheduled_of_apply held
    · exact spares rfl
    · exact quiet.schedule before

/-- What holds from the answer on, with `n` operations begun by then. -/
structure QuietSince (cfg : Config) (id : Uuid) (origin : JobRow) (n : Nat) (s : State) : Prop where
  stores : QuietStores cfg id origin s.world
  ops : ∀ i op, s.ops[i]? = some op → Harmless cfg id origin op ∧ (n ≤ i → Bystander cfg id op)

theorem QuietSince.step {cfg : Config} {id : Uuid} {origin : JobRow} {n : Nat} {s t : State}
    {a : Action} (quiet : QuietSince cfg id origin n s) (sound : s.Sound cfg)
    (step : State.Step cfg s a t) : QuietSince cfg id origin n t := by
  refine (step.pointwise (W := QuietStores cfg id origin)
    (P := fun _ i op => Harmless cfg id origin op ∧ (n ≤ i → Bystander cfg id op))
    quiet.stores quiet.ops ?tick ?begin ?pop ?run).elim fun stores ops => ⟨stores, ops⟩
  case tick =>
    refine fun elapsed => ⟨?_, fun _ _ held => held⟩
    exact ⟨quiet.stores.known, quiet.stores.rows, quiet.stores.lists, quiet.stores.schedule⟩
  case begin =>
    intro task _
    have bystander : Bystander cfg id task.start := by cases task <;> trivial
    exact ⟨.bystander bystander, fun _ => bystander⟩
  case pop =>
    intro queue jobIDStr redis popped
    -- the identifier is in no list, so a pop brings another job
    have bystander : Bystander cfg id (.processJob (.popped jobIDStr)) := by
      intro same
      apply quiet.stores.lists queue
      rw [popped.last, same]
      exact List.mem_append_right _ List.mem_cons_self
    refine ⟨⟨quiet.stores.known, quiet.stores.rows, ?_, ?_⟩,
      ⟨.bystander bystander, fun _ => bystander⟩, fun _ _ held => held⟩
    · intro queue' held
      apply quiet.stores.lists queue'
      by_cases same : queue' = queue
      · rw [same, popped.last]
        exact List.mem_append_left _ (same ▸ held)
      · rw [← popped.others queue' same]
        exact held
    · rw [popped.scheduled]
      exact quiet.stores.schedule
  case run =>
    intro i op reply e op' _ found inner
    have running := sound.ops op (List.mem_of_getElem? found)
    obtain ⟨harmless, bystander⟩ := quiet.ops i op found
    have spares := spares_of_step inner running quiet.stores.known harmless
    refine ⟨quiet.stores.apply (inner.effect_sound running) spares, ⟨?_, ?_⟩,
      fun _ _ _ _ held => held⟩
    · exact harmless_of_step inner sound.world running quiet.stores.known quiet.stores.rows
        quiet.stores.schedule harmless
    · intro later
      exact bystander_of_step inner sound.world running quiet.stores.known quiet.stores.rows
        quiet.stores.schedule (bystander later)

/-! ## Three ways for an answer to be final -/

/-- The status is kept by operations whose only write to the cancelled row is `cancelled`. -/
theorem final_of_writes {cfg : Config} {id : Uuid} {n : Nat} {s : State}
    (handler : ∀ k ≥ n, ∀ job, s.ops[k]? = some (.processJob (.executing job)) → job.id ≠ id)
    (writes : ∀ k ≥ n, ∀ op reply e op' row, s.ops[k]? = some op →
      Op.Step cfg s.world op reply e op' → s.world.row id = some row → row.status = .cancelled →
      e.target = some id → e = .setStatus id .cancelled) :
    Final cfg id n s := by
  refine ⟨handler, ?_⟩
  intro k later reply t row taken present cancelled
  obtain ⟨op, e, op', found, inner, rfl⟩ := State.run_cases taken
  exact stays_cancelled present cancelled (writes k later op reply e op' row found inner present
    cancelled)

theorem QuietSince.final {cfg : Config} {id : Uuid} {origin : JobRow} {n : Nat} {s : State}
    (quiet : QuietSince cfg id origin n s) (sound : s.Sound cfg) : Final cfg id n s := by
  apply final_of_writes
  · intro k later job found
    exact (quiet.ops k _ found).2 later
  · intro k later op reply e op' row found inner present cancelled
    exact bystander_writes inner sound.world present cancelled ((quiet.ops k op found).2 later)

/-- Nobody works on a job of a queue that is not served, and nothing but a cancellation writes
to its cancelled row. -/
theorem final_of_unserved {cfg : Config} {id : Uuid} {origin : JobRow} {s : State} (n : Nat)
    (sound : s.Sound cfg) (served : ServedState cfg s) (known : s.world.origin id = some origin)
    (unserved : ¬ Served cfg origin) : Final cfg id n s := by
  -- a snapshot of the job would put its queue among the served ones
  have other {job : Job} (knows : s.world.Knows job.id job.toJobRow)
      (held : Served cfg job.toJobRow) : job.id ≠ id := by
    intro same
    rw [same] at knows
    exact unserved (held.congr (knows.sameJob ⟨origin, known, .refl origin⟩))
  apply final_of_writes
  · intro k _ job found
    have running := List.mem_of_getElem? found
    exact other (sound.ops _ running) (served.ops _ running)
  · intro k _ op reply e op' row found inner present cancelled hit
    have running := List.mem_of_getElem? found
    have held := served.ops op running
    have data := sound.ops op running
    cases inner with
    | createJob step =>
      cases step with
      | inserted _ fresh _ =>
        cases hit
        exact absurd rfl (fresh_ne known fresh)
      | _ => cases hit
    | cancelJob step =>
      cases step with
      | cancelled => cases hit; rfl
      | _ => cases hit
    | retryJob step =>
      cases step with
      | updated =>
        cases hit
        obtain ⟨rfl, knows⟩ := data
        exact absurd rfl (other knows held)
      | _ => cases hit
    | deleteJob step =>
      cases step with
      | deleted _ present' dead =>
        cases hit
        exact absurd rfl (not_deleted present cancelled present' dead)
      | _ => cases hit
    | processJob step =>
      cases step with
      | unhandled | running | completed | dead _ _ | retrying _ _ =>
        cases hit
        exact absurd rfl (other data held)
      | _ => cases hit
    | processScheduledJobs step =>
      cases step with
      | released =>
        cases hit
        exact absurd rfl (other data.1 held)
      | _ => cases hit
    | recoverUnqueuedJobs step => cases step <;> cases hit
    | recoverStaleJobs step =>
      cases step with
      | failed =>
        cases hit
        exact absurd rfl (other (data _ List.mem_cons_self) (held _ List.mem_cons_self))
      | _ => cases hit

/-- The job's row is gone, and no operation from place `n` on has seen it. -/
structure GoneSince (id : Uuid) (origin : JobRow) (n : Nat) (s : State) : Prop where
  known : s.world.origin id = some origin
  row : s.world.row id = none
  ops : ∀ i op, s.ops[i]? = some op → n ≤ i → ∀ job,
    op = .processJob (.fetched job) ∨ op = .processJob (.executing job) → job.id ≠ id

theorem GoneSince.step {cfg : Config} {id : Uuid} {origin : JobRow} {n : Nat} {s t : State}
    {a : Action} (gone : GoneSince id origin n s) (sound : s.Sound cfg)
    (step : State.Step cfg s a t) : GoneSince id origin n t := by
  refine (step.pointwise (W := fun w => w.origin id = some origin ∧ w.row id = none)
    (P := fun _ i op => n ≤ i → ∀ job,
      op = .processJob (.fetched job) ∨ op = .processJob (.executing job) → job.id ≠ id)
    ⟨gone.known, gone.row⟩ gone.ops ?tick ?begin ?pop ?run).elim
    fun stores ops => ⟨stores.1, stores.2, ops⟩
  case tick => exact fun _ => ⟨⟨gone.known, gone.row⟩, fun _ _ held => held⟩
  case begin =>
    intro task _ _ job seen
    cases task <;> simp [Task.start] at seen
  case pop =>
    intro queue jobIDStr redis _
    refine ⟨⟨gone.known, gone.row⟩, ?_, fun _ _ held => held⟩
    intro _ job seen
    simp at seen
  case run =>
    intro i op reply e op' _ found inner
    have effect := inner.effect_sound (sound.ops op (List.mem_of_getElem? found))
    refine ⟨⟨World.grows_apply effect gone.known, ?_⟩, ?_, fun _ _ _ _ held => held⟩
    · -- only an insertion makes a row, and this identifier is taken
      cases present : (s.world.apply e).row id with
      | none => rfl
      | some row =>
        rw [World.row_apply, gone.row] at present
        cases Effect.onRow_sameJob present with
        | inl version =>
          obtain ⟨_, absent, _⟩ := version
          cases absent
        | inr inserted =>
          subst inserted
          exact absurd rfl (fresh_ne gone.known effect)
    · intro later job seen
      cases seen with
      | inl fetched =>
        subst fetched
        cases inner with
        | processJob step =>
          cases step with
          -- a worker fetches a row that is there
          | fetched _ present _ =>
            intro same
            rw [same, gone.row] at present
            cases present
      | inr executing =>
        subst executing
        cases inner with
        | processJob step =>
          cases step with
          | running => exact gone.ops i _ found later job (.inl rfl)

theorem GoneSince.final {cfg : Config} {id : Uuid} {origin : JobRow} {n : Nat} {s : State}
    (gone : GoneSince id origin n s) : Final cfg id n s := by
  apply final_of_writes
  · intro k later job found
    exact gone.ops k _ found later job (.inr rfl)
  · intro k _ op reply e op' row _ _ present
    rw [gone.row] at present
    cases present

/-! ## The answer -/

/-- The step in which a `CancelJob` request for the job makes its update and answers 200. -/
def CancelAnswers (cfg : Config) (id : Uuid) (s t : State) : Prop :=
  ∃ i job, s.ops[i]? = some (.cancelJob (.checked id job)) ∧
    s.step cfg (.run i .ok) = some t ∧
    t.ops[i]? = some (.cancelJob (.responded (Api.writeStatus "cancelled")))

/-- What the answering step does. -/
theorem CancelAnswers.cases {cfg : Config} {id : Uuid} {s t : State}
    (answers : CancelAnswers cfg id s t) (sound : s.Sound cfg) :
    ∃ i origin, s.world.origin id = some origin ∧
      t = { world := s.world.apply (.setStatus id .cancelled),
            ops := s.ops.set i (.cancelJob (.responded (Api.writeStatus "cancelled"))) } := by
  obtain ⟨i, job, checked, taken, _⟩ := answers
  obtain ⟨op, e, op', found, inner, rfl⟩ := State.run_cases taken
  rw [checked] at found
  cases found
  obtain ⟨_, origin, known, _⟩ := sound.ops _ (List.mem_of_getElem? checked)
  cases inner with
  | cancelJob step =>
    cases step with
    | cancelled => exact ⟨i, origin, known, rfl⟩

theorem quietSince_answer {cfg : Config} {id : Uuid} {origin : JobRow} {s : State} {i : Nat}
    {response : Api.Response} (known : s.world.origin id = some origin)
    (quiet : Quiet cfg id origin s) :
    QuietSince cfg id origin s.ops.length
      { world := s.world.apply (.setStatus id .cancelled),
        ops := s.ops.set i (.cancelJob (.responded response)) } := by
  refine ⟨⟨known, ?_, ?_, quiet.schedule⟩, ?_⟩
  · intro row present
    simp only [World.row_apply, Effect.onRow, if_true] at present
    obtain ⟨old, _, rfl⟩ := Option.map_eq_some_iff.mp present
    exact .inl rfl
  · intro queue held
    have counted : 0 < (Queue.contents queue s.world.redis).count (cfg.uuid.string id) :=
      List.count_pos_iff.mpr held
    have bound := s.world.redis.count_list_le_occurrences (Queue.queueKey queue)
      (cfg.uuid.string id)
    rw [quiet.lists] at bound
    exact Nat.not_lt.mpr bound counted
  · intro k op found
    refine ⟨?_, fun later => ?_⟩
    · cases List.mem_or_eq_of_mem_set (List.mem_of_getElem? found) with
      | inl before => exact quiet.ops op before
      | inr own => exact .bystander (own ▸ trivial)
    · have bound := (List.getElem?_eq_some_iff.mp found).1
      simp only [List.length_set] at bound
      omega

theorem goneSince_answer {id : Uuid} {origin : JobRow} {s : State} {i : Nat}
    {response : Api.Response} (known : s.world.origin id = some origin)
    (gone : s.world.row id = none) :
    GoneSince id origin s.ops.length
      { world := s.world.apply (.setStatus id .cancelled),
        ops := s.ops.set i (.cancelJob (.responded response)) } := by
  refine ⟨known, ?_, ?_⟩
  · simp [World.row_apply, Effect.onRow, gone]
  · intro k op found later
    have bound := (List.getElem?_eq_some_iff.mp found).1
    simp only [List.length_set] at bound
    omega

/-- In every run, once `CancelJob` has answered 200 in a state in which nothing could deliver
the job any more, no operation begun later runs its handler or changes the cancelled row. -/
theorem cancellation_final {cfg : Config} {id : Uuid} {s t u : State}
    (reachable : (system cfg).Reachable anyAction s) (answers : CancelAnswers cfg id s t)
    (undeliverable : Undeliverable cfg id s) (continues : (system cfg).Reaches anyAction t u) :
    Final cfg id t.ops.length u := by
  have answered : (system cfg).Reachable anyAction t := by
    obtain ⟨_, _, _, taken, _⟩ := answers
    exact reachable.step (a := .run _ .ok) trivial taken
  have final := answered.extend continues
  obtain ⟨i, origin, known, rfl⟩ := answers.cases (reachable_sound reachable)
  simp only [List.length_set]
  -- one invariant for each way the job can be out of reach: no row, no worker for it, no token
  cases undeliverable with
  | inl gone =>
    have invariant := continues.invariant (P := fun u => u.Sound cfg ∧
        GoneSince id origin s.ops.length u)
      (fun _ taken held => ⟨(State.step_cases taken).sound held.1,
        held.2.step held.1 (State.step_cases taken)⟩)
      ⟨reachable_sound answered, goneSince_answer known gone⟩
    exact invariant.2.final
  | inr left =>
    cases left origin known with
    | inl unserved =>
      refine final_of_unserved _ (reachable_sound final) (reachable_served final) ?_ unserved
      have invariant := continues.invariant (P := fun u => u.Sound cfg ∧
          u.world.origin id = some origin)
        (fun _ taken held => ⟨(State.step_cases taken).sound held.1,
          (State.step_cases taken).grows held.1 held.2⟩)
        ⟨reachable_sound answered, known⟩
      exact invariant.2
    | inr quiet =>
      have invariant := continues.invariant (P := fun u => u.Sound cfg ∧
          QuietSince cfg id origin s.ops.length u)
        (fun _ taken held => ⟨(State.step_cases taken).sound held.1,
          held.2.step held.1 (State.step_cases taken)⟩)
        ⟨reachable_sound answered, quietSince_answer known quiet⟩
      exact invariant.2.final (reachable_sound final)

/-- A worker's handler has succeeded when the request for its job is checked. -/
def lateCancel : List Action :=
  [.begin (.createJob (some Cmd.request)), .run 0 (.inserted 1), .run 0 .ok,
    .pop, .run 1 .ok, .run 1 .ok, .run 1 (.returned none),
    .begin (.cancelJob (Cmd.mainConfig.uuid.string 1)), .run 2 .ok]

theorem lateCancel_final : ∃ s t, (system Cmd.mainConfig).Reachable anyAction s ∧
    CancelAnswers Cmd.mainConfig 1 s t ∧ Undeliverable Cmd.mainConfig 1 s ∧
    ∀ u, (system Cmd.mainConfig).Reaches anyAction t u → Final Cmd.mainConfig 1 t.ops.length u := by
  have evaluated : (Cmd.runFrom Cmd.initialState lateCancel).any (fun s =>
      (s.step Cmd.mainConfig (.run 2 .ok)).any fun t =>
      (s.world.row 1).any fun row => (s.world.origin 1).any fun origin => decide (
        s.ops = [.createJob (.responded ⟨201, .job (Storage.scanJob 1 origin)⟩),
          .processJob (.succeeded (Storage.scanJob 1 origin)),
          .cancelJob (.checked 1 (Storage.scanJob 1 row))] ∧
        t.ops[2]? = some (.cancelJob (.responded (Api.writeStatus "cancelled"))) ∧
        s.world.redis.occurrences (Cmd.mainConfig.uuid.string 1) = 0 ∧
        ¬ Cmd.mainConfig.uuid.string 1 ∈ Queue.scheduled s.world.redis)) = true := by decide +kernel
  simp only [Option.any_eq_true, decide_eq_true_eq] at evaluated
  obtain ⟨s, executed, t, taken, row, _, origin, _, ops, answered, lists, schedule⟩ := evaluated
  have reachable := Transition.System.reachable_of_exec Cmd.initial_initialState executed
  have answers : CancelAnswers Cmd.mainConfig 1 s t := ⟨2, _, by rw [ops]; rfl, taken, answered⟩
  have undeliverable : Undeliverable Cmd.mainConfig 1 s := by
    refine .inr fun origin' _ => .inr ⟨lists, schedule, fun op running => ?_⟩
    rw [ops] at running
    simp only [List.mem_cons, List.not_mem_nil, or_false] at running
    obtain rfl | rfl | rfl := running
    · exact .bystander trivial
    · exact .succeeded
    · exact .bystander trivial
  exact ⟨s, t, reachable, answers, undeliverable,
    fun u continues => cancellation_final reachable answers undeliverable continues⟩

/-- A job is cancelled while its identifier waits in the list of its queue. -/
def cancelQueued : List Action :=
  [.begin (.createJob (some Cmd.request)), .run 0 (.inserted 1), .run 0 .ok,
    .begin (.cancelJob (Cmd.mainConfig.uuid.string 1)), .run 1 .ok]

/-- After the answer a worker pops the job, reads the cancelled row and runs the handler; the
row is `running` again. -/
theorem cancelled_job_is_run : ∃ s t u row, (system Cmd.mainConfig).Reachable anyAction s ∧
    CancelAnswers Cmd.mainConfig 1 s t ∧ t.ops.length = 2 ∧
    t.world.row 1 = some row ∧ row.status = .cancelled ∧
    (system Cmd.mainConfig).Reaches anyAction t u ∧
    u.ops[2]? = some (.processJob (.executing (Storage.scanJob 1 row))) ∧
    (u.world.row 1).map JobRow.status = some .running ∧
    ¬ Final Cmd.mainConfig 1 t.ops.length u := by
  have evaluated : (Cmd.runFrom Cmd.initialState cancelQueued).any (fun s =>
      (s.step Cmd.mainConfig (.run 1 .ok)).any fun t =>
      (Cmd.runFrom t [.pop, .run 2 .ok, .run 2 .ok]).any fun u =>
      (t.world.row 1).any fun row =>
      (s.world.row 1).any fun before => decide (
        s.ops[1]? = some (.cancelJob (.checked 1 (Storage.scanJob 1 before))) ∧
        t.ops[1]? = some (.cancelJob (.responded (Api.writeStatus "cancelled"))) ∧
        t.ops.length = 2 ∧ row.status = .cancelled ∧
        u.ops[2]? = some (.processJob (.executing (Storage.scanJob 1 row))) ∧
        (u.world.row 1).map JobRow.status = some .running)) = true := by decide +kernel
  simp only [Option.any_eq_true, decide_eq_true_eq] at evaluated
  obtain ⟨s, executed, t, taken, u, continued, row, present, before, _, checked, answered, length,
    cancelled, executing, running⟩ := evaluated
  refine ⟨s, t, u, row, Transition.System.reachable_of_exec Cmd.initial_initialState executed,
    ⟨1, _, checked, taken, answered⟩, length, present, cancelled,
    Transition.System.reaches_of_exec continued, executing, running, fun final => ?_⟩
  exact final.handler 2 length.le _ executing rfl

end GoQueue.Verified
