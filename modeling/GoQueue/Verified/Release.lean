import GoQueue.Verified.Tokens

/-! # Releasing a retry

`processScheduledJobs` reads a row, pushes its identifier, and only then writes `pending` over
a row that it read as `retrying`.  The update names the row by its key alone, so whoever wrote
the row in between is overwritten.

Between the push and the write the delivery token is on its way to a worker.  A worker's first
write is the one place where a job changes hands; while no worker and no cancellation makes its
write under a pass that has yet to release the row, only one party at a time may write it.
`custody` counts these parties: the token's holder, except that a worker gets custody with its
first write and a pass keeps it until the release.
-/

namespace GoQueue.Verified

variable {cfg : Config} {w : World} {id : Uuid}

/-- The pass has read the row as `retrying` and has not written it yet. -/
def owesRelease (id : Uuid) : Op → Bool
  | .processScheduledJobs (.fetched job _ _) => decide (job.status = .retrying ∧ job.id = id)
  | .processScheduledJobs (.pushed job _) => decide (job.id = id)
  | _ => false

/-- The job whose row the operation writes next: a worker's first write, or a cancellation. -/
def takesOver : Op → Option Uuid
  | .processJob (.noHandler job) | .processJob (.fetched job) => some job.id
  | .cancelJob (.checked id _) => some id
  | _ => none

/-- The operation is not a retry request, a recovery pass or a stale check. -/
def ordinary : Op → Bool
  | .retryJob _ | .recoverUnqueuedJobs _ | .recoverStaleJobs _ => false
  | .createJob _ | .cancelJob _ | .deleteJob _ | .processJob _ | .processScheduledJobs _ => true

/-- Runs of ordinary operations only. -/
def ordinaryRun (s : State) : Action → Bool
  | .begin task => ordinary task.start
  | .run i _ => s.ops[i]?.all ordinary
  | .tick _ | .pop => true

/-- The action is the first write of a worker, or the write of a cancellation, to a row that a
pass has yet to release. -/
def disturbs (s : State) : Action → Bool
  | .run i _ => (s.ops[i]?.bind takesOver).any fun id => s.ops.any (owesRelease id)
  | .tick _ | .begin _ | .pop => false

/-- The share of an operation in the right to write the row. -/
def custody (cfg : Config) (id : Uuid) : Op → Nat
  -- the worker has not written yet
  | .processJob (.popped _) | .processJob (.noHandler _) | .processJob (.fetched _) => 0
  -- the identifier is pushed, the write is still to come
  | .processScheduledJobs (.pushed job rest) =>
    (if job.id = id then 1 else 0) + rest.count (cfg.uuid.string id)
  | op => inHand cfg id op

/-- All custody of the row; a scheduled job will be in the custody of the pass that takes it. -/
def custodies (cfg : Config) (s : State) (id : Uuid) : Nat :=
  due cfg s.world id + (s.ops.map (custody cfg id)).sum

/-! ## One call -/

/-- Custody passes from hand to hand; it is new only for a row that is new. -/
theorem custody_step {op op' : Op} {reply : Reply} {e : Effect} (step : Op.Step cfg w op reply e op')
    (id : Uuid) (sound : op.Sound cfg w) (plain : ordinary op = true)
    (started : ∀ job, op = .processJob (.fetched job) → job.id ≠ id) :
    due cfg (w.apply e) id + custody cfg id op' ≤ due cfg w id + custody cfg id op + minted id e := by
  have same (aside : (w.apply e).redis = w.redis)
      (hands : custody cfg id op' ≤ custody cfg id op + minted id e) :
      due cfg (w.apply e) id + custody cfg id op' ≤
        due cfg w id + custody cfg id op + minted id e := by
    simp only [due, aside]
    omega
  cases step with
  | createJob step =>
    cases step with
    | inserted _ _ _ => exact same rfl (by grind [custody, inHand, minted, Storage.scanJob])
    | @scheduled _ stored runAt _ =>
      have bound := due_schedule cfg w id stored.id runAt
      simp only [custody, inHand]
      omega
    | pushed _ =>
      show due cfg w id + 0 ≤ _
      omega
    | rejected _ | refused | unqueued => exact same rfl (by simp [custody, inHand])
  | retryJob step | recoverUnqueuedJobs step | recoverStaleJobs step => cases plain
  | cancelJob step | deleteJob step => cases step <;> exact same rfl (by simp [custody, inHand])
  | processJob step =>
    cases step with
    | running =>
      exact same rfl (by simp [custody, inHand, started _ rfl])
    | @rescheduled job n =>
      have bound := due_schedule cfg w id job.id (w.now + backoffDuration cfg.overflow n)
      simp only [custody, inHand]
      omega
    | _ => exact same rfl (by simp [custody, inHand])
  | processScheduledJobs step =>
    cases step with
    | taken =>
      have moved := due_takeDue cfg w id
      simp only [custody, inHand]
      omega
    | untaken => exact same rfl (by simp [custody, inHand])
    | invalid _ | missing _ _ | unread | unpushed =>
      refine same rfl ?_
      simp only [custody, inHand, List.count_cons]
      omega
    | fetched _ _ => exact same rfl (by simp [custody, inHand])
    | @pushedRetrying job _ rest _ | @pushed job _ rest _ =>
      -- the push leaves the schedule alone, and custody stays with a pass that will write
      obtain ⟨_, text, _⟩ := sound
      subst text
      show due cfg w id + _ ≤ _
      simp only [custody, inHand, List.count_cons, beq_iff_eq, UuidCodec.string_inj]
      omega
    | released | releasedLost =>
      refine same rfl ?_
      simp only [custody, inHand]
      omega

/-- Who writes a row has custody, takes it over, or has just made the row. -/
theorem writer_cases {op op' : Op} {reply : Reply} {e : Effect} {status : JobStatus}
    (step : Op.Step cfg w op reply e op') (plain : ordinary op = true)
    (wrote : e.writes id = some status) (other : status ≠ .retrying) :
    w.origin id = none ∨ takesOver op = some id ∨ 0 < custody cfg id op := by
  cases step with
  | createJob step =>
    cases step with
    | inserted _ fresh _ =>
      simp only [Effect.writes, Option.ite_none_right_eq_some] at wrote
      exact .inl (wrote.1 ▸ fresh)
    | _ => simp [Effect.writes] at wrote
  | cancelJob step =>
    cases step with
    | cancelled =>
      simp only [Effect.writes, Option.ite_none_right_eq_some] at wrote
      exact .inr (.inl (congrArg some wrote.1))
    | _ => simp [Effect.writes] at wrote
  | retryJob step | recoverUnqueuedJobs step | recoverStaleJobs step => cases plain
  | deleteJob step => cases step <;> simp [Effect.writes] at wrote
  | processJob step =>
    cases step with
    | unhandled | running =>
      simp only [Effect.writes, Option.ite_none_right_eq_some] at wrote
      exact .inr (.inl (congrArg some wrote.1))
    | completed | dead _ _ =>
      simp only [Effect.writes, Option.ite_none_right_eq_some] at wrote
      exact .inr (.inr (by simp [custody, inHand, wrote.1]))
    -- the update of `handleFailure` writes `retrying`, and the status is another one
    | retrying _ _ =>
      simp only [Effect.writes, Option.ite_none_right_eq_some, Option.some.injEq] at wrote
      exact absurd wrote.2.symm other
    | _ => simp [Effect.writes] at wrote
  | processScheduledJobs step =>
    cases step with
    | released =>
      simp only [Effect.writes, Option.ite_none_right_eq_some] at wrote
      refine .inr (.inr ?_)
      simp only [custody, if_pos wrote.1]
      omega
    | _ => simp [Effect.writes] at wrote

/-! ## Custody in a state -/

theorem custody_le_inHand {op : Op} (free : owesRelease id op = false) :
    custody cfg id op ≤ inHand cfg id op := by
  cases op with
  | processJob pc => cases pc <;> simp [custody, inHand]
  | processScheduledJobs pc =>
    cases pc with
    | pushed job rest =>
      have other : job.id ≠ id := by simpa [owesRelease] using free
      simp [custody, inHand, other]
    | starting | releasing _ | fetched _ _ _ => exact Nat.le_refl _
  | createJob _ | cancelJob _ | retryJob _ | deleteJob _ | recoverUnqueuedJobs _
  | recoverStaleJobs _ => exact Nat.le_refl _

theorem custody_of_owesRelease {op : Op} (sound : op.Sound cfg w) (releasing : owesRelease id op = true) :
    0 < custody cfg id op := by
  cases op with
  | processScheduledJobs pc =>
    cases pc with
    | fetched job jobIDStr rest =>
      obtain ⟨_, text, _⟩ := sound
      have own : job.id = id := by simp_all [owesRelease]
      simp [custody, inHand, text, own]
    | pushed job rest =>
      have own : job.id = id := by simpa [owesRelease] using releasing
      simp only [custody, own, if_true]
      omega
    | starting | releasing _ => cases releasing
  | createJob _ | cancelJob _ | retryJob _ | deleteJob _ | processJob _ | recoverUnqueuedJobs _
  | recoverStaleJobs _ => cases releasing

theorem knows_of_owesRelease {op : Op} (sound : op.Sound cfg w) (releasing : owesRelease id op = true) :
    ∃ row, w.Knows id row := by
  cases op with
  | processScheduledJobs pc =>
    cases pc with
    | fetched job jobIDStr rest =>
      have own : job.id = id := by simp_all [owesRelease]
      exact ⟨_, own ▸ sound.1⟩
    | pushed job rest =>
      have own : job.id = id := by simpa [owesRelease] using releasing
      exact ⟨_, own ▸ sound.1⟩
    | starting | releasing _ => cases releasing
  | createJob _ | cancelJob _ | retryJob _ | deleteJob _ | processJob _ | recoverUnqueuedJobs _
  | recoverStaleJobs _ => cases releasing

/-- Where no pass has a release to make, custody comes with a token. -/
theorem custodies_le_tokens (cfg : Config) (s : State) (id : Uuid)
    (free : ∀ op ∈ s.ops, owesRelease id op = false) :
    custodies cfg s id ≤ tokens cfg s id := by
  have hands : (s.ops.map (custody cfg id)).sum ≤ (s.ops.map (inHand cfg id)).sum :=
    List.sum_le_sum fun op running => custody_le_inHand (free op running)
  simp only [custodies, tokens, stored, due]
  omega

/-- One action leaves a job in at most one custody. -/
theorem custodies_run {before after : List Op} {op op' : Op} {reply : Reply} {e : Effect}
    (one : custodies cfg ⟨w, before ++ op :: after⟩ id ≤ 1)
    (single : tokens cfg ⟨w, before ++ op :: after⟩ id ≤ 1)
    (sound : State.Sound cfg ⟨w, before ++ op :: after⟩) (plain : ordinary op = true)
    (undisturbed : takesOver op = some id → ∀ other ∈ before ++ op :: after, owesRelease id other = false)
    (step : Op.Step cfg w op reply e op') :
    custodies cfg ⟨w.apply e, before ++ op' :: after⟩ id ≤ 1 := by
  by_cases started : ∃ job, op = .processJob (.fetched job) ∧ job.id = id
  · -- the worker has the only token, and nobody else has custody without one
    obtain ⟨job, rfl, own⟩ := started
    have free := undisturbed (congrArg some own)
    have others := custodies_le_tokens cfg ⟨w, before ++ after⟩ id
      fun other there => free other (by
        simp only [List.mem_append, List.mem_cons] at there ⊢
        exact there.imp_right .inr)
    have mine : custody cfg id op' ≤ 1 ∧ due cfg (w.apply e) id = due cfg w id := by
      cases step with
      | processJob step =>
        cases step <;> exact ⟨by simp [custody, inHand, own], rfl⟩
    have token : inHand cfg id (.processJob (.fetched job)) = 1 := if_pos own
    simp only [custodies, tokens, List.map_append, List.map_cons, List.sum_append,
      List.sum_cons] at others single ⊢
    omega
  · have bound := custody_step step id (sound.ops op (by simp)) plain
      fun job at_write own => started ⟨job, at_write, own⟩
    obtain free | ⟨new, ⟨_, unknown⟩ | ⟨_, job, rfl⟩⟩ := minted_cases step id
    · simp only [custodies, List.map_append, List.map_cons, List.sum_append, List.sum_cons] at one ⊢
      omega
    -- a new job: nobody can have had custody of it before
    · have none : custodies cfg ⟨w, before ++ op :: after⟩ id = 0 := by
        have free : ∀ other ∈ before ++ op :: after, owesRelease id other = false := by
          intro other there
          by_contra releasing
          obtain ⟨_, _, inserted, _⟩ :=
            knows_of_owesRelease (sound.ops other there) (by simpa using releasing)
          rw [unknown] at inserted
          cases inserted
        have at_most := custodies_le_tokens cfg ⟨w, before ++ op :: after⟩ id free
        have no_token := tokens_eq_zero sound unknown
        omega
      simp only [custodies, List.map_append, List.map_cons, List.sum_append, List.sum_cons] at none ⊢
      omega
    · cases plain

/-! ## Whole runs -/

theorem singleSource_of_ordinaryRun {s : State} {a : Action} (plain : ordinaryRun s a = true) :
    singleSource cfg s a := by
  cases a with
  | tick elapsed | pop => exact ⟨rfl, rfl⟩
  | begin task =>
    cases task with
    | retryJob idParam => cases plain
    | createJob _ | cancelJob _ | deleteJob _ | processScheduledJobs | recoverUnqueuedJobs
    | recoverStaleJobs => exact ⟨rfl, rfl⟩
  | run i reply =>
    refine ⟨?_, rfl⟩
    cases found : s.ops[i]? with
    | none => simp [recovers, found]
    | some op =>
      have kept : ordinary op = true := by simpa [ordinaryRun, found] using plain
      cases op <;> simp_all [recovers, takesToken, ordinary]

/-- Runs without retry requests, recovery passes and stale checks in which nobody writes a row
under a pass that has yet to release it. -/
def undisturbedRun (s : State) (a : Action) : Prop :=
  ordinaryRun s a = true ∧ disturbs s a = false

instance (s : State) (a : Action) : Decidable (undisturbedRun s a) :=
  inferInstanceAs (Decidable (_ ∧ _))

/-- An operation that runs undisturbed takes over no row with a release to come. -/
theorem owesRelease_eq_false {s : State} {i : Nat} {reply : Reply} {op : Op}
    (undisturbed : disturbs s (.run i reply) = false) (found : s.ops[i]? = some op)
    (takes : takesOver op = some id) : ∀ other ∈ s.ops, owesRelease id other = false := by
  simpa [disturbs, found, takes] using undisturbed

theorem custodies_step {s t : State} {a : Action} (step : State.Step cfg s a t)
    (allowed : undisturbedRun s a) (sound : s.Sound cfg) (single : tokens cfg s id ≤ 1)
    (one : custodies cfg s id ≤ 1) : custodies cfg t id ≤ 1 := by
  cases step with
  | tick => exact one
  | @begin task =>
    have nothing : custody cfg id task.start = 0 := by cases task <;> rfl
    simpa [custodies, nothing] using one
  | popped popped => simpa [custodies, due, popped.scheduled, custody] using one
  | @run before op after reply e op' split inner =>
    have found : s.ops[before.length]? = some op := by simp [split]
    have plain : ordinary op = true := by simpa [ordinaryRun, found] using allowed.1
    have free : takesOver op = some id → _ := owesRelease_eq_false allowed.2 found
    obtain ⟨w, ops⟩ := s
    subst split
    exact custodies_run one single sound plain free inner

/-- Nobody changes a row while a pass has yet to release it. -/
def Retained (id : Uuid) (w : World) (op : Op) : Prop :=
  owesRelease id op = true → ∀ row, w.row id = some row → row.status = .retrying

/-- The moving operation keeps what it has read itself. -/
theorem Retained.own {op op' : Op} {reply : Reply} {e : Effect} (step : Op.Step cfg w op reply e op')
    (retained : Retained id w op) : Retained id (w.apply e) op' := by
  intro owes row present
  cases step with
  | processScheduledJobs step =>
    cases step with
    | fetched parsed found =>
      -- this is the read: the row is what the pass holds
      simp only [owesRelease, decide_eq_true_eq] at owes
      obtain ⟨retrying, rfl⟩ := owes
      rw [show (w.apply .none).row _ = w.row _ from rfl, found] at present
      cases present
      exact retrying
    | pushedRetrying retrying =>
      simp only [owesRelease, decide_eq_true_eq] at owes
      exact retained (by simp [owesRelease, retrying, owes]) row present
    | _ => cases owes
  | createJob _ | cancelJob _ | retryJob _ | deleteJob _ | processJob _ | recoverUnqueuedJobs _
  | recoverStaleJobs _ => cases owes

theorem Retained.step {s t : State} {a : Action} (step : State.Step cfg s a t)
    (allowed : undisturbedRun s a) (sound : s.Sound cfg) (one : custodies cfg s id ≤ 1)
    (retained : ∀ op ∈ s.ops, Retained id s.world op) :
    ∀ op ∈ t.ops, Retained id t.world op := by
  have bound : (s.ops.map (custody cfg id)).sum ≤ 1 := by
    unfold custodies at one
    omega
  have indexed := step.pointwise (W := fun _ => True) (P := fun w _ op => Retained id w op) trivial
    (fun i op found => retained op (List.mem_of_getElem? found)) ?tick ?begin ?pop ?run
  · intro op there
    obtain ⟨i, found⟩ := List.mem_iff_getElem?.mp there
    exact indexed.2 i op found
  case tick => exact fun _ => ⟨trivial, fun _ _ held => held⟩
  case begin =>
    intro task _ owes
    cases task <;> cases owes
  case pop =>
    refine fun popped => ⟨trivial, ?_, fun _ _ held => held⟩
    intro owes
    cases owes
  case run =>
    intro i op reply e op' moved found inner
    subst moved
    refine ⟨trivial, (retained op (List.mem_of_getElem? found)).own inner, ?_⟩
    intro k other different there held owes row present
    have plain : ordinary op = true := by simpa [ordinaryRun, found] using allowed.1
    have running := List.mem_of_getElem? there
    -- another operation writes the row only with custody, or where no release is owed
    cases World.row_apply_cases present with
    | inl unchanged => exact held owes row unchanged.2
    | inr wrote =>
      by_contra changed
      obtain unknown | takes | has := writer_cases inner plain wrote changed
      · obtain ⟨_, _, inserted, _⟩ := knows_of_owesRelease (sound.ops other running) owes
        rw [unknown] at inserted
        cases inserted
      · rw [owesRelease_eq_false allowed.2 found takes other running] at owes
        cases owes
      · -- the writer and the pass would both have custody
        exact different (List.unique_index_of_sum_le_one bound there found
          (custody_of_owesRelease (sound.ops other running) owes) has)

theorem reachable_retained {s : State} (reachable : (system cfg).Reachable undisturbedRun s)
    (id : Uuid) : custodies cfg s id ≤ 1 ∧ ∀ op ∈ s.ops, Retained id s.world op := by
  refine reachable.invariant
    (P := fun s => custodies cfg s id ≤ 1 ∧ ∀ op ∈ s.ops, Retained id s.world op) ?_ ?_
  · intro s start
    obtain ⟨now, rfl⟩ := start
    exact ⟨Nat.zero_le _, fun _ absent => nomatch absent⟩
  · intro s a t before allowed taken held
    have sound := reachable_sound before
    have single := reachable_singleToken (fun _ _ allowed => singleSource_of_ordinaryRun allowed.1)
      before id
    have step := State.step_cases taken
    exact ⟨custodies_step step allowed sound single.one held.1,
      Retained.step step allowed sound held.1 held.2⟩

/-- In every run in which nobody writes under a pass that has yet to release a row, whichever
calls fail, the pass finds the row still `retrying` when it writes `pending`. -/
theorem release_finds_retrying {s : State} (reachable : (system cfg).Reachable undisturbedRun s)
    {i : Nat} {job : Job} {rest : List String}
    (releasing : s.ops[i]? = some (.processScheduledJobs (.pushed job rest))) {row : JobRow}
    (present : s.world.row job.id = some row) : row.status = .retrying := by
  have retained := (reachable_retained reachable job.id).2 _ (List.mem_of_getElem? releasing)
  exact retained (by simp [owesRelease]) row present

/-- A job has failed once and is due again; a pass has pushed it. -/
def pushedRun : List Action :=
  [.begin (.createJob (some Cmd.request)), .run 0 (.inserted 1), .run 0 .ok,
    .pop, .run 1 .ok, .run 1 .ok, .run 1 (.returned (some "boom")), .run 1 .ok, .run 1 .ok,
    .tick 4000000000, .begin .processScheduledJobs, .run 2 .ok, .run 2 .ok, .run 2 .ok]

theorem pushedRun_retrying : ∃ s job rest row,
    (system Cmd.mainConfig).Reachable undisturbedRun s ∧
    s.ops[2]? = some (.processScheduledJobs (.pushed job rest)) ∧
    s.world.row job.id = some row ∧ row.status = .retrying := by
  have ⟨s, reachable, row, present, releasing⟩ :
      ∃ s, (system Cmd.mainConfig).Reachable undisturbedRun s ∧ ∃ row ∈ s.world.row 1,
        s.ops[2]? = some (.processScheduledJobs (.pushed (Storage.scanJob 1 row) [])) :=
    Transition.System.exists_reachable_of_exec pushedRun Cmd.initial_initialState (by decide +kernel)
  exact ⟨s, _, _, row, reachable, releasing, present,
    release_finds_retrying reachable releasing present⟩

/-- Fault-free runs without retry requests, recovery passes and stale checks. -/
def ordinaryFaultFree (s : State) (a : Action) : Prop :=
  a.faultFree = true ∧ ordinaryRun s a = true

instance (s : State) (a : Action) : Decidable (ordinaryFaultFree s a) :=
  inferInstanceAs (Decidable (_ ∧ _))

/-- After the pass has pushed the job a worker pops it, runs it and writes `completed`; then the
pass makes its write and the finished job is `pending` again. -/
theorem completed_job_released : ∃ s t job rest row row',
    (system Cmd.mainConfig).Reachable ordinaryFaultFree s ∧
    s.ops[2]? = some (.processScheduledJobs (.pushed job rest)) ∧
    s.world.row job.id = some row ∧ row.status = .completed ∧
    s.step Cmd.mainConfig (.run 2 .ok) = some t ∧
    t.world.row job.id = some row' ∧ row'.status = .pending := by
  have evaluated : ((system Cmd.mainConfig).exec ordinaryFaultFree Cmd.initialState pushedRun).any
      (fun pushed => (pushed.world.row 1).any fun read =>
        ((system Cmd.mainConfig).exec ordinaryFaultFree pushed
          [.pop, .run 3 .ok, .run 3 .ok, .run 3 (.returned none), .run 3 .ok]).any fun s =>
          (s.world.row 1).any fun row => (s.step Cmd.mainConfig (.run 2 .ok)).any fun t =>
            (t.world.row 1).any fun row' => decide (
              s.ops[2]? = some (.processScheduledJobs (.pushed (Storage.scanJob 1 read) [])) ∧
              row.status = .completed ∧ row'.status = .pending)) = true := by decide +kernel
  simp only [Option.any_eq_true, decide_eq_true_eq] at evaluated
  obtain ⟨pushed, executed, read, _, s, continued, row, present, t, released, row', present',
    releasing, completed, pending⟩ := evaluated
  have reachable := (Transition.System.reachable_of_exec Cmd.initial_initialState executed).extend
    (Transition.System.reaches_of_exec continued)
  exact ⟨s, t, _, _, row, row', reachable, releasing, present, completed, released, present', pending⟩

end GoQueue.Verified
