import GoQueue.System.Solo
import GoQueue.Cmd.Main

/-! # What failing calls leave behind

Every operation makes two to four calls to two stores with no transaction around them.  When
a call fails, the operation logs and goes on or returns.  A job is stranded when its row asks
for a delivery that will not come: its identifier is neither in the list of its queue nor in
the schedule, and the recovery loop, which only looks for pending rows without `run_at`, does
not select it.

For each operation, `Survives` is the exact condition on the state it starts in and on the
calls that fail under which it strands nothing.
-/

namespace GoQueue.Verified

/-- The row asks to be delivered to a worker. -/
def AwaitsDelivery (row : JobRow) : Prop :=
  row.status = .pending ∨ row.status = .scheduled ∨ row.status = .retrying

/-- The identifier is in the list of the queue or in the schedule. -/
def InRedis (cfg : Config) (w : World) (id : Uuid) (queue : String) : Prop :=
  cfg.uuid.string id ∈ Queue.contents queue w.redis ∨ cfg.uuid.string id ∈ Queue.scheduled w.redis

/-- The recovery loop's query selects the row at some time. -/
def Recoverable (row : JobRow) : Prop :=
  ∃ now, Storage.pendingUnqueued now Scheduler.recoveryAge row = true

/-- A row that asks to be delivered will be. -/
def Safe (cfg : Config) (w : World) (id : Uuid) : Prop :=
  ∀ row, w.row id = some row → AwaitsDelivery row → InRedis cfg w id row.queue ∨ Recoverable row

/-- The operation wrote the job's row, or took its identifier out of Redis. -/
def Touched (cfg : Config) (w : World) (op : Op) (effects : List Effect) (id : Uuid) : Prop :=
  (∃ e ∈ effects, e.target = some id) ∨
  op = .processJob (.popped (cfg.uuid.string id)) ∨
  (.takeDue ∈ effects ∧ cfg.uuid.string id ∈ (Queue.getDueJobs w.now w.redis).1)

/-- The operation, run from `w` to `w'`, strands no job. -/
def Unstranded (cfg : Config) (w : World) (op : Op) (effects : List Effect) (w' : World) : Prop :=
  ∀ id, Touched cfg w op effects id → Safe cfg w' id

/-- Where the five operations begin. -/
inductive Entry : Op → Prop where
  | createJob {body} : Entry (.createJob (.received body))
  | retryJob {idParam} : Entry (.retryJob (.received idParam))
  | processJob {jobIDStr} : Entry (.processJob (.popped jobIDStr))
  | handleFailure {job jobErr} : Entry (.processJob (.failing job jobErr))
  | processScheduledJobs : Entry (.processScheduledJobs .starting)

/-- The worker returns before it has written a status. -/
def returnsEarly (cfg : Config) (o : Outcome) (jobIDStr : String) (id : Uuid) (row : JobRow) : Bool :=
  o.fails (.getJob jobIDStr) ||
    if cfg.registered row.type then o.fails (.update id .running) else o.fails (.update id .failed)

/-- After the handler's error a retry is due and its `Schedule` call is lost. -/
def losesRetry (cfg : Config) (o : Outcome) (id : Uuid) (row : JobRow) : Bool :=
  row.retryCount.val + 1 < row.maxRetries.val && !o.fails (.update id .retrying) &&
    o.fails (.schedule (cfg.uuid.string id))

/-- The condition under which an operation strands no job. -/
def Survives (cfg : Config) (o : Outcome) (w : World) : Op → Prop
  | .createJob (.received body) =>
    ∀ job, Api.prepare body = .ok job → o.fails .createJob = true ∨ job.runAt = none ∨
      o.fails (.schedule (cfg.uuid.string o.newID)) = false
  | .retryJob (.received idParam) =>
    ∀ id, cfg.uuid.parse idParam = some id → ∀ row, w.row id = some row → row.status = .dead →
      o.fails (.getJob idParam) = true ∨ o.fails (.update id .pending) = true ∨
        o.fails (.push (cfg.uuid.string id)) = false ∨ row.runAt = none ∨
        InRedis cfg w id row.queue
  | .processJob (.popped jobIDStr) =>
    ∀ id, cfg.uuid.parse jobIDStr = some id → ∀ row, w.row id = some row →
      if returnsEarly cfg o jobIDStr id row then
        AwaitsDelivery row → InRedis cfg w id row.queue ∨ Recoverable row
      else cfg.registered row.type = true → o.handlerErr.isSome = true →
        losesRetry cfg o id row = true → InRedis cfg w id row.queue
  | .processJob (.failing job _) =>
    ∀ row, w.row job.id = some row → losesRetry cfg o job.id job.toJobRow = true →
      InRedis cfg w job.id row.queue
  | .processScheduledJobs .starting =>
    o.fails .getDueJobs = true ∨
    ∀ id row, cfg.uuid.string id ∈ (Queue.getDueJobs w.now w.redis).1 → w.row id = some row →
      AwaitsDelivery row →
      (o.fails (.getJob (cfg.uuid.string id)) = false ∧
        o.fails (.push (cfg.uuid.string id)) = false) ∨
      cfg.uuid.string id ∈ Queue.contents row.queue w.redis ∨ Recoverable row
  | _ => True

/-! ## Rows and the two ways to a worker -/

/-- The recovery loop finds, sooner or later, the pending rows without `run_at`. -/
theorem recoverable_iff {row : JobRow} :
    Recoverable row ↔ row.status = .pending ∧ row.runAt = none := by
  unfold Recoverable Storage.pendingUnqueued
  constructor
  · intro found
    obtain ⟨now, selected⟩ := found
    simp only [Bool.and_eq_true, decide_eq_true_eq, Option.isNone_iff_eq_none] at selected
    exact selected.1
  · intro shape
    refine ⟨row.createdAt + Scheduler.recoveryAge + 1000, ?_⟩
    simp only [Bool.and_eq_true, decide_eq_true_eq, Option.isNone_iff_eq_none]
    have later (t age : Int) : t < (t + age + 1000 - age) / 1000 * 1000 := by omega
    exact ⟨shape, later row.createdAt Scheduler.recoveryAge⟩

variable {cfg : Config} {o : Outcome} {w w' : World} {effects : List Effect} {id : Uuid}

/-- An identifier that was never handed out is not in Redis. -/
theorem not_inRedis_of_fresh (world : w.Sound cfg) (fresh : w.origin id = none) (queue : String) :
    ¬ InRedis cfg w id queue := by
  -- whatever is in Redis names a job that was inserted
  have unnamed : ¬ w.Names cfg (cfg.uuid.string id) := World.not_names fresh
  intro held
  cases held with
  | inl listed => exact unnamed (world.contents listed).names
  | inr scheduled => exact unnamed (world.scheduled scheduled)

theorem safe_of_inRedis (row : JobRow) (present : w.row id = some row)
    (held : InRedis cfg w id row.queue) : Safe cfg w id := by
  intro row' present' _
  rw [present] at present'
  cases present'
  exact .inl held

theorem safe_of_absent (absent : w.row id = none) : Safe cfg w id := by
  intro row present
  rw [absent] at present
  cases present

/-- For a row that is there, safety is about that row. -/
theorem safe_iff {row : JobRow} (present : w.row id = some row) :
    Safe cfg w id ↔ (AwaitsDelivery row → InRedis cfg w id row.queue ∨ Recoverable row) := by
  constructor
  · exact fun safe => safe row present
  · intro delivered row' present' awaits
    rw [present] at present'
    cases present'
    exact delivered awaits

/-- Effects that write no row and take nothing out of Redis touch no job, unless one was
popped. -/
theorem not_touched {op : Op} (request : ∀ jobIDStr, op ≠ .processJob (.popped jobIDStr))
    (aside : ∀ e ∈ effects, e.target = none ∧ e ≠ .takeDue) : ¬ Touched cfg w op effects id := by
  intro touched
  obtain ⟨e, occurs, hit⟩ | popped | ⟨taken, _⟩ := touched
  · rw [(aside e occurs).1] at hit
    cases hit
  · exact request _ popped
  · exact (aside _ taken).2 rfl

/-- With one write among its effects, a request touches the job written to. -/
theorem touched_iff {op : Op} {e : Effect} {id' : Uuid}
    (request : ∀ jobIDStr, op ≠ .processJob (.popped jobIDStr)) (hit : e.target = some id')
    (occurs : e ∈ effects) (aside : ∀ e' ∈ effects, e' = e ∨ (e'.target = none ∧ e' ≠ .takeDue)) :
    Touched cfg w op effects id ↔ id = id' := by
  constructor
  · intro touched
    obtain ⟨e', occurs', hit'⟩ | popped | ⟨taken, _⟩ := touched
    · obtain rfl | ⟨spared, _⟩ := aside e' occurs'
      · rw [hit] at hit'
        exact (Option.some.inj hit').symm
      · rw [spared] at hit'
        cases hit'
    · exact absurd popped (request _)
    · obtain rfl | ⟨_, other⟩ := aside _ taken
      · cases hit
      · exact absurd rfl other
  · intro same
    exact .inl ⟨e, occurs, by rw [hit, same]⟩

/-! ## The two requests -/

/-- The end of `CreateJob`, with the row written and the identifier not in Redis yet. -/
theorem created_safe {job : Storage.NewJob} {stored : Job} {row : JobRow}
    (present : w.row stored.id = some row)
    (shape : (job.runAt = none ∧ Recoverable row) ∨ (job.runAt.isSome ∧ row.status = .scheduled))
    (absent : ¬ InRedis cfg w stored.id row.queue)
    (ran : Solo cfg o w (.createJob (.created job stored)) effects w') :
    (∀ e ∈ effects, e.target = none ∧ e ≠ .takeDue) ∧
      (Safe cfg w' stored.id ↔
        job.runAt = none ∨ o.fails (.schedule (cfg.uuid.string stored.id)) = false) := by
  obtain ⟨e, op', rest, reply, rfl, replied, step, ran⟩ := ran.cases_of_not_ended rfl
  cases step with
  | createJob step =>
    cases step with
    | scheduled given =>
      obtain ⟨rfl, rfl⟩ := ran.of_ended rfl
      refine ⟨by simp [Effect.target], iff_of_true ?_ (.inr ?_)⟩
      · refine safe_of_inRedis row present (.inr ?_)
        rw [World.redis_apply, Queue.scheduled_schedule]
        exact SortedSet.mem_zadd.mpr (.inl rfl)
      · simpa [Outcome.reply, given] using replied
    | pushed immediate =>
      obtain ⟨rfl, rfl⟩ := ran.of_ended rfl
      refine ⟨by simp [Effect.target], iff_of_true ?_ (.inl immediate)⟩
      -- wherever the identifier was pushed to, the recovery loop finds the row
      have still : (w.apply (.push job.queue (cfg.uuid.string stored.id))).row stored.id = some row :=
        present
      refine (safe_iff still).mpr fun _ => .inr ?_
      exact (shape.resolve_right fun delayed => by simp [immediate] at delayed).2
    | unqueued =>
      obtain ⟨rfl, rfl⟩ := ran.of_ended rfl
      refine ⟨by simp [Effect.target], ?_⟩
      rw [safe_iff present]
      cases shape with
      | inl immediate => exact iff_of_true (fun _ => .inr immediate.2) (.inl immediate.1)
      | inr delayed =>
        obtain ⟨given, scheduled⟩ := delayed
        -- the lost call was the `Schedule` call, and nothing else will deliver the job
        have lost : o.fails (.schedule (cfg.uuid.string stored.id)) = true := by
          simpa [Outcome.reply, given] using replied
        refine iff_of_false ?_ ?_
        · intro delivered
          cases delivered (.inr (.inl scheduled)) with
          | inl held => exact absent held
          | inr recoverable => simp [recoverable_iff, scheduled] at recoverable
        · simp [lost, Option.isSome_iff_ne_none.mp given]

theorem createJob_unstranded {body : Option Api.CreateJobRequest} (world : w.Sound cfg)
    (ran : Solo cfg o w (.createJob (.received body)) effects w') :
    Unstranded cfg w (.createJob (.received body)) effects w' ↔
      Survives cfg o w (.createJob (.received body)) := by
  obtain ⟨e, op', rest, reply, rfl, replied, step, ran⟩ := ran.cases_of_not_ended rfl
  cases step with
  | createJob step =>
    cases step with
    | rejected prepared =>
      obtain ⟨rfl, rfl⟩ := ran.of_ended rfl
      refine iff_of_true ?_ ?_
      · intro id touched
        exact absurd touched (not_touched (by simp) (by simp [Effect.target]))
      · intro job accepted
        rw [prepared] at accepted
        cases accepted
    | refused =>
      obtain ⟨rfl, rfl⟩ := ran.of_ended rfl
      refine iff_of_true ?_ ?_
      · intro id touched
        exact absurd touched (not_touched (by simp) (by simp [Effect.target]))
      · intro job accepted
        simp only [Outcome.reply, accepted] at replied
        split at replied
        case isTrue failed => exact .inl failed
        case isFalse => cases replied
    | @inserted _ job id row prepared fresh stored =>
      simp only [Outcome.reply, prepared] at replied
      split at replied
      case isTrue => cases replied
      case isFalse created =>
        cases replied
        have status := (Storage.created_of_createJob stored).status
        have runAt := (Storage.created_of_createJob stored).runAt
        have present : (w.apply (.insert o.newID row)).row o.newID = some row := by
          simp [World.row_apply, Effect.onRow]
        -- an immediate job is pending, which recovery looks for; a delayed one is not
        have shape : (job.runAt = none ∧ Recoverable row) ∨
            (job.runAt.isSome ∧ row.status = .scheduled) := by
          cases Api.prepare_ok prepared with
          | inl immediate =>
            refine .inl ⟨immediate.1, recoverable_iff.mpr ⟨status.trans immediate.2, ?_⟩⟩
            rw [runAt, immediate.1]
            rfl
          | inr delayed =>
            obtain ⟨t, given, scheduled⟩ := delayed
            exact .inr ⟨by rw [given]; rfl, status.trans scheduled⟩
        have absent : ¬ InRedis cfg (w.apply (.insert o.newID row)) o.newID row.queue :=
          not_inRedis_of_fresh world fresh _
        obtain ⟨aside, safe⟩ := created_safe present shape absent ran
        have touched (id : Uuid) : Touched cfg w (.createJob (.received body))
            (.insert o.newID row :: rest) id ↔ id = o.newID := by
          refine touched_iff (by simp) rfl List.mem_cons_self ?_
          exact List.forall_mem_cons.mpr ⟨.inl rfl, fun e later => .inr (aside e later)⟩
        simp only [Unstranded, Survives, touched, forall_eq, prepared, Except.ok.injEq,
          forall_eq', Bool.eq_false_iff.mpr created, Bool.false_eq_true, false_or]
        exact safe

/-- The end of `RetryJob`, with the row reset and the identifier not pushed yet. -/
theorem updated_safe {job : Job} {row : JobRow} (present : w.row id = some row)
    (queue : row.queue = job.queue) (pending : row.status = .pending)
    (ran : Solo cfg o w (.retryJob (.updated id job)) effects w') :
    (∀ e ∈ effects, e.target = none ∧ e ≠ .takeDue) ∧
      (Safe cfg w' id ↔ o.fails (.push (cfg.uuid.string id)) = false ∨ row.runAt = none ∨
        InRedis cfg w id row.queue) := by
  obtain ⟨e, op', rest, reply, rfl, replied, step, ran⟩ := ran.cases_of_not_ended rfl
  cases step with
  | retryJob step =>
    cases step with
    | pushed =>
      obtain ⟨rfl, rfl⟩ := ran.of_ended rfl
      refine ⟨by simp [Effect.target], iff_of_true ?_ (.inl ?_)⟩
      · refine safe_of_inRedis row present (.inl ?_)
        rw [World.redis_apply, Queue.contents_push, if_pos queue]
        exact List.mem_cons_self
      · simpa [Outcome.reply] using replied
    | unqueued =>
      obtain ⟨rfl, rfl⟩ := ran.of_ended rfl
      have lost : o.fails (.push (cfg.uuid.string id)) = true := by
        simpa [Outcome.reply] using replied
      refine ⟨by simp [Effect.target], ?_⟩
      rw [safe_iff present, recoverable_iff]
      simp only [AwaitsDelivery, pending, true_or, forall_const, true_and, lost, Bool.true_eq_false,
        false_or]
      exact or_comm

/-- The two calls that follow the check: the row is reset, then its identifier is pushed. -/
theorem checkedRetry_unstranded {idParam : String} {job : Job}
    (present : w.row job.id = some job.toJobRow)
    (ran : Solo cfg o w (.retryJob (.checked job.id job)) effects w') :
    Unstranded cfg w (.retryJob (.received idParam)) (.none :: effects) w' ↔
      o.fails (.update job.id .pending) = true ∨
        o.fails (.push (cfg.uuid.string job.id)) = false ∨ job.runAt = none ∨
        InRedis cfg w job.id job.queue := by
  obtain ⟨e, op', rest, reply, rfl, replied, step, ran⟩ := ran.cases_of_not_ended rfl
  cases step with
  | retryJob step =>
    cases step with
    | failed =>
      obtain ⟨rfl, _⟩ := ran.of_ended rfl
      refine iff_of_true (fun id touched => ?_) (.inl ?_)
      · exact absurd touched (not_touched (by simp) (by simp [Effect.target]))
      · simpa [Outcome.reply] using replied
    | updated =>
      have written : o.fails (.update job.id .pending) = false := by
        simpa [Outcome.reply] using replied
      have reset : (w.apply (.setError job.id .pending ⟨0, Int4.zero_fits⟩ "")).row job.id =
          some (Storage.setError w.now .pending ⟨0, Int4.zero_fits⟩ "" job.toJobRow) := by
        simp [World.row_apply, Effect.onRow, present]
      -- from here on the job is pending and needs the push, or recovery
      obtain ⟨aside, safe⟩ := updated_safe reset rfl rfl ran
      have touched (id : Uuid) : Touched cfg w (.retryJob (.received idParam))
          (.none :: .setError job.id .pending ⟨0, Int4.zero_fits⟩ "" :: rest) id ↔ id = job.id := by
        refine touched_iff (by simp) rfl (List.mem_cons_of_mem _ List.mem_cons_self) ?_
        refine List.forall_mem_cons.mpr ⟨.inr (by simp [Effect.target]), ?_⟩
        exact List.forall_mem_cons.mpr ⟨.inl rfl, fun e later => .inr (aside e later)⟩
      simp only [Unstranded, touched, forall_eq, written, Bool.false_eq_true, false_or]
      exact safe

/-- A retry request touches the row when it resets it; the push is then its last call. -/
theorem retryJob_unstranded {idParam : String}
    (ran : Solo cfg o w (.retryJob (.received idParam)) effects w') :
    Unstranded cfg w (.retryJob (.received idParam)) effects w' ↔
      Survives cfg o w (.retryJob (.received idParam)) := by
  -- where the row is not written, nothing is touched
  have spared (aside : ∀ e ∈ effects, e.target = none ∧ e ≠ .takeDue) :
      Unstranded cfg w (.retryJob (.received idParam)) effects w' := by
    intro id touched
    exact absurd touched (not_touched (by simp) aside)
  obtain ⟨e, op', rest, reply, rfl, replied, step, ran⟩ := ran.cases_of_not_ended rfl
  cases step with
  | retryJob step =>
    cases step with
    | invalid unparsed =>
      obtain ⟨rfl, _⟩ := ran.of_ended rfl
      refine iff_of_true (spared (by simp [Effect.target])) ?_
      intro id parsed
      rw [unparsed] at parsed
      cases parsed
    | missing parsed absent =>
      obtain ⟨rfl, _⟩ := ran.of_ended rfl
      refine iff_of_true (spared (by simp [Effect.target])) ?_
      intro id parsed' row present
      rw [parsed] at parsed'
      cases parsed'
      rw [absent] at present
      cases present
    | unread =>
      obtain ⟨rfl, _⟩ := ran.of_ended rfl
      refine iff_of_true (spared (by simp [Effect.target])) ?_
      intro id _ row _ _
      exact .inl (Outcome.fails_of_answerGetJob_fail replied)
    | refused parsed present alive =>
      obtain ⟨rfl, _⟩ := ran.of_ended rfl
      refine iff_of_true (spared (by simp [Effect.target])) ?_
      intro id parsed' row present' dead
      rw [parsed] at parsed'
      cases parsed'
      rw [present] at present'
      cases present'
      exact absurd dead alive
    | @checked _ job parsed present dead =>
      have read := Outcome.fails_of_answerGetJob_ok replied parsed
      have survives : Survives cfg o w (.retryJob (.received idParam)) ↔
          o.fails (.update job.id .pending) = true ∨
            o.fails (.push (cfg.uuid.string job.id)) = false ∨ job.runAt = none ∨
            InRedis cfg w job.id job.queue := by
        simp only [Survives, parsed, Option.some.injEq, read, Bool.false_eq_true, false_or,
          forall_eq', present, dead, forall_const]
      rw [survives]
      exact checkedRetry_unstranded present ran

/-! ## The worker -/

/-- What `handleFailure` has done at its end. -/
inductive FailureHandled (cfg : Config) (o : Outcome) (job : Job) (jobErr : String) :
    List Effect → Prop where
  | dead {n} : job.maxRetries.val ≤ job.retryCount.val + 1 →
      FailureHandled cfg o job jobErr [.setError job.id .dead n jobErr]
  | deadLost : job.maxRetries.val ≤ job.retryCount.val + 1 →
      FailureHandled cfg o job jobErr [.none]
  | retrying {n e} : job.retryCount.val + 1 < job.maxRetries.val →
      o.fails (.update job.id .retrying) = false →
      (o.fails (.schedule (cfg.uuid.string job.id)) = true ∧ e = .none) ∨
        (o.fails (.schedule (cfg.uuid.string job.id)) = false ∧
          ∃ runAt, e = .schedule (cfg.uuid.string job.id) runAt) →
      FailureHandled cfg o job jobErr [.setError job.id .retrying n jobErr, e]
  | retryingLost {e} : job.retryCount.val + 1 < job.maxRetries.val →
      o.fails (.update job.id .retrying) = true →
      e = .none ∨ (∃ runAt, e = .schedule (cfg.uuid.string job.id) runAt) →
      FailureHandled cfg o job jobErr [.none, e]

/-- The effects of an operation are carried out one after the other. -/
theorem solo_world {op : Op} (ran : Solo cfg o w op effects w') : w' = effects.foldl World.apply w := by
  induction ran with
  | ended _ => rfl
  | call _ _ inductionHypothesis => exact inductionHypothesis

/-- The end of `handleFailure`, at its `Schedule` call. -/
theorem rescheduling_effects {job : Job} {n : Int}
    (ran : Solo cfg o w (.processJob (.rescheduling job n)) effects w') :
    ∃ e, effects = [e] ∧
      ((o.fails (.schedule (cfg.uuid.string job.id)) = true ∧ e = .none) ∨
        (o.fails (.schedule (cfg.uuid.string job.id)) = false ∧
          ∃ runAt, e = .schedule (cfg.uuid.string job.id) runAt)) := by
  obtain ⟨e, op', rest, reply, rfl, replied, step, ran⟩ := ran.cases_of_not_ended rfl
  cases step with
  | processJob step =>
    cases step with
    | rescheduled =>
      obtain ⟨rfl, _⟩ := ran.of_ended rfl
      exact ⟨_, rfl, .inr ⟨by simpa [Outcome.reply] using replied, _, rfl⟩⟩
    | rescheduledLost =>
      obtain ⟨rfl, _⟩ := ran.of_ended rfl
      exact ⟨_, rfl, .inl ⟨by simpa [Outcome.reply] using replied, rfl⟩⟩

theorem handleFailure_effects {job : Job} {jobErr : String}
    (ran : Solo cfg o w (.processJob (.failing job jobErr)) effects w') :
    FailureHandled cfg o job jobErr effects := by
  obtain ⟨e, op', rest, reply, rfl, replied, step, ran⟩ := ran.cases_of_not_ended rfl
  cases step with
  | processJob step =>
    cases step with
    | dead exhausted _ =>
      obtain ⟨rfl, _⟩ := ran.of_ended rfl
      exact .dead exhausted
    | deadLost exhausted =>
      obtain ⟨rfl, _⟩ := ran.of_ended rfl
      exact .deadLost exhausted
    | retrying left _ =>
      obtain ⟨e, rfl, scheduled⟩ := rescheduling_effects ran
      refine .retrying left ?_ scheduled
      simpa [Outcome.reply, not_le.mpr left] using replied
    | retryingLost left =>
      obtain ⟨e, rfl, scheduled⟩ := rescheduling_effects ran
      refine .retryingLost left ?_ ?_
      · simpa [Outcome.reply, not_le.mpr left] using replied
      · exact scheduled.imp And.right And.right

/-- A row that was just written with a status that asks for no delivery. -/
theorem safe_setError {status : JobStatus} {n : Int4} {jobErr : String}
    (settled : status ≠ .pending ∧ status ≠ .scheduled ∧ status ≠ .retrying) :
    Safe cfg (w.apply (.setError id status n jobErr)) id := by
  intro row present awaits
  rw [World.row_apply, Effect.onRow, if_pos rfl] at present
  obtain ⟨old, _, rfl⟩ := Option.map_eq_some_iff.mp present
  simp only [AwaitsDelivery, Storage.setError, settled, or_self] at awaits

theorem safe_setStatus {status : JobStatus}
    (settled : status ≠ .pending ∧ status ≠ .scheduled ∧ status ≠ .retrying) :
    Safe cfg (w.apply (.setStatus id status)) id := by
  intro row present awaits
  rw [World.row_apply, Effect.onRow, if_pos rfl] at present
  obtain ⟨old, _, rfl⟩ := Option.map_eq_some_iff.mp present
  simp only [AwaitsDelivery, Storage.setStatus, settled, or_self] at awaits

/-- A row that was just written `retrying` depends on what is in Redis. -/
theorem safe_retrying_iff {n : Int4} {jobErr : String} :
    Safe cfg (w.apply (.setError id .retrying n jobErr)) id ↔
      ∀ row, w.row id = some row → InRedis cfg w id row.queue := by
  have written (row : JobRow) (present : w.row id = some row) :
      (w.apply (.setError id .retrying n jobErr)).row id =
        some (Storage.setError w.now .retrying n jobErr row) := by
    simp [World.row_apply, Effect.onRow, present]
  constructor
  · intro safe row present
    cases safe _ (written row present) (.inr (.inr rfl)) with
    | inl held => exact held
    | inr recoverable => simp [recoverable_iff, Storage.setError] at recoverable
  · intro held row' present' _
    rw [World.row_apply, Effect.onRow, if_pos rfl] at present'
    obtain ⟨row, present, rfl⟩ := Option.map_eq_some_iff.mp present'
    exact .inl (held row present)

/-- An identifier that was just scheduled is safe. -/
theorem safe_schedule {runAt : Time} :
    Safe cfg (w.apply (.schedule (cfg.uuid.string id) runAt)) id := by
  intro row _ _
  refine .inl (.inr ?_)
  rw [World.redis_apply, Queue.scheduled_schedule]
  exact SortedSet.mem_zadd.mpr (.inl rfl)

theorem losesRetry_of_exhausted {row : JobRow}
    (exhausted : row.maxRetries.val ≤ row.retryCount.val + 1) :
    losesRetry cfg o id row = false := by
  simp [losesRetry, not_lt.mpr exhausted]

theorem losesRetry_of_unwritten {row : JobRow} (unwritten : o.fails (.update id .retrying) = true) :
    losesRetry cfg o id row = false := by
  simp [losesRetry, unwritten]

/-- With `retrying` written, the job is safe unless the `Schedule` call is lost. -/
theorem safe_after_retrying {job : Job} {jobErr : String} {n : Int4} {e : Effect}
    (left : job.retryCount.val + 1 < job.maxRetries.val)
    (written : o.fails (.update job.id .retrying) = false)
    (scheduled : (o.fails (.schedule (cfg.uuid.string job.id)) = true ∧ e = .none) ∨
      (o.fails (.schedule (cfg.uuid.string job.id)) = false ∧
        ∃ runAt, e = .schedule (cfg.uuid.string job.id) runAt)) :
    Safe cfg ((w.apply (.setError job.id .retrying n jobErr)).apply e) job.id ↔
      ∀ row, w.row job.id = some row → losesRetry cfg o job.id job.toJobRow = true →
        InRedis cfg w job.id row.queue := by
  obtain ⟨lost, rfl⟩ | ⟨kept, runAt, rfl⟩ := scheduled
  · have loses : losesRetry cfg o job.id job.toJobRow = true := by
      simp [losesRetry, left, written, lost]
    simp only [loses, forall_const]
    exact safe_retrying_iff
  · refine iff_of_true safe_schedule fun row _ lost => ?_
    simp [losesRetry, kept] at lost

/-- `handleFailure` by itself touches the row when its update succeeds. -/
theorem handleFailure_unstranded {job : Job} {jobErr : String}
    (ran : Solo cfg o w (.processJob (.failing job jobErr)) effects w') :
    Unstranded cfg w (.processJob (.failing job jobErr)) effects w' ↔
      Survives cfg o w (.processJob (.failing job jobErr)) := by
  have spared (aside : ∀ e ∈ effects, e.target = none ∧ e ≠ .takeDue) :
      Unstranded cfg w (.processJob (.failing job jobErr)) effects w' := by
    intro id touched
    exact absurd touched (not_touched (by simp) aside)
  have last := solo_world ran
  cases handleFailure_effects ran with
  | dead exhausted =>
    refine iff_of_true ?_ (by simp [Survives, losesRetry_of_exhausted exhausted])
    intro id touched
    have own : id = job.id := (touched_iff (by simp) rfl List.mem_cons_self (by simp)).mp touched
    rw [own, last]
    exact safe_setError (by decide)
  | deadLost exhausted =>
    refine iff_of_true (spared (by simp [Effect.target])) ?_
    simp [Survives, losesRetry_of_exhausted exhausted]
  -- the row waits for the schedule, so a failed `Schedule` call can strand it
  | @retrying n e left written scheduled =>
    have touched (id : Uuid) : Touched cfg w (.processJob (.failing job jobErr))
        [.setError job.id .retrying n jobErr, e] id ↔ id = job.id := by
      refine touched_iff (by simp) rfl List.mem_cons_self ?_
      obtain ⟨_, rfl⟩ | ⟨_, runAt, rfl⟩ := scheduled <;> simp [Effect.target]
    simp only [Unstranded, touched, forall_eq, last, Survives]
    exact safe_after_retrying left written scheduled
  | retryingLost left unwritten scheduled =>
    refine iff_of_true (spared ?_) (by simp [Survives, losesRetry_of_unwritten unwritten])
    obtain rfl | ⟨runAt, rfl⟩ := scheduled <;> simp [Effect.target]

/-- A worker that wrote `running` and calls `handleFailure` touches no other job. -/
theorem failing_safe {job : Job} {jobErr : String}
    (running : ∀ row, w.row job.id = some row → ¬ AwaitsDelivery row)
    (ran : Solo cfg o w (.processJob (.failing job jobErr)) effects w') :
    (∀ e ∈ effects, e ≠ .takeDue ∧ ∀ id, e.target = some id → id = job.id) ∧
      (Safe cfg w' job.id ↔ ∀ row, w.row job.id = some row →
        losesRetry cfg o job.id job.toJobRow = true → InRedis cfg w job.id row.queue) := by
  have unchanged : Safe cfg w job.id := fun row present awaits => absurd awaits (running row present)
  have last := solo_world ran
  cases handleFailure_effects ran with
  | dead exhausted =>
    refine ⟨by simp [Effect.target, eq_comm], ?_⟩
    rw [last]
    exact iff_of_true (safe_setError (by decide)) (by simp [losesRetry_of_exhausted exhausted])
  | deadLost exhausted =>
    refine ⟨by simp [Effect.target], ?_⟩
    rw [last]
    exact iff_of_true unchanged (by simp [losesRetry_of_exhausted exhausted])
  | retrying left written scheduled =>
    refine ⟨?_, ?_⟩
    · obtain ⟨_, rfl⟩ | ⟨_, runAt, rfl⟩ := scheduled <;> simp [Effect.target, eq_comm]
    · rw [last]
      exact safe_after_retrying left written scheduled
  | retryingLost left unwritten scheduled =>
    rw [last]
    obtain rfl | ⟨runAt, rfl⟩ := scheduled
    · refine ⟨by simp [Effect.target], iff_of_true unchanged ?_⟩
      simp [losesRetry_of_unwritten unwritten]
    · refine ⟨by simp [Effect.target], iff_of_true safe_schedule ?_⟩
      simp [losesRetry_of_unwritten unwritten]

/-- A worker whose handler runs, from a row it has written `running`. -/
theorem executing_safe {job : Job}
    (running : ∀ row, w.row job.id = some row → ¬ AwaitsDelivery row)
    (ran : Solo cfg o w (.processJob (.executing job)) effects w') :
    (∀ e ∈ effects, e ≠ .takeDue ∧ ∀ id, e.target = some id → id = job.id) ∧
      (Safe cfg w' job.id ↔ ∀ row, w.row job.id = some row → o.handlerErr.isSome = true →
        losesRetry cfg o job.id job.toJobRow = true → InRedis cfg w job.id row.queue) := by
  obtain ⟨e, op', rest, reply, rfl, replied, step, ran⟩ := ran.cases_of_not_ended rfl
  cases step with
  | processJob step =>
    cases step with
    | failed =>
      obtain ⟨aside, safe⟩ := failing_safe (w := w.apply (.record job.id _)) running ran
      have err : o.handlerErr.isSome = true := by
        rw [Reply.returned.inj replied]
        rfl
      refine ⟨List.forall_mem_cons.mpr ⟨by simp [Effect.target], aside⟩, ?_⟩
      simp only [err, forall_const]
      exact safe
    | succeeded =>
      have clean : o.handlerErr = none := Reply.returned.inj replied
      simp only [clean, Option.isSome_none, Bool.false_eq_true, false_implies, implies_true,
        iff_true]
      -- one call is left, the update to `completed`
      obtain ⟨e, op', rest, reply, rfl, _, step, ran⟩ := ran.cases_of_not_ended rfl
      have last := solo_world ran
      cases step with
      | processJob step =>
        cases step with
        | completed =>
          obtain ⟨rfl, _⟩ := ran.of_ended rfl
          refine ⟨by simp [Effect.target, eq_comm], ?_⟩
          rw [last]
          exact safe_setStatus (by decide)
        | completedLost =>
          obtain ⟨rfl, _⟩ := ran.of_ended rfl
          refine ⟨by simp [Effect.target], ?_⟩
          rw [last]
          exact fun row present awaits => absurd awaits (running row present)

/-- A worker that writes to one row only touches the job it popped. -/
theorem touched_popped {id' : Uuid}
    (aside : ∀ e ∈ effects, e ≠ .takeDue ∧ ∀ id, e.target = some id → id = id') :
    Touched cfg w (.processJob (.popped (cfg.uuid.string id'))) effects id ↔ id = id' := by
  constructor
  · intro touched
    obtain ⟨e, occurs, hit⟩ | popped | ⟨taken, _⟩ := touched
    · exact (aside e occurs).2 id hit
    · simp only [Op.processJob.injEq, Worker.ProcessJob.popped.injEq] at popped
      exact (cfg.uuid.string_injective popped).symm
    · exact absurd rfl (aside _ taken).1
  · intro same
    exact .inr (.inl (by rw [same]))

/-- A worker that has read the row of a job with a handler. -/
theorem fetched_safe {job : Job} (present : w.row job.id = some job.toJobRow)
    (ran : Solo cfg o w (.processJob (.fetched job)) effects w') :
    (∀ e ∈ effects, e ≠ .takeDue ∧ ∀ id, e.target = some id → id = job.id) ∧
      (Safe cfg w' job.id ↔ if o.fails (.update job.id .running) then
        AwaitsDelivery job.toJobRow → InRedis cfg w job.id job.queue ∨ Recoverable job.toJobRow
      else o.handlerErr.isSome = true → losesRetry cfg o job.id job.toJobRow = true →
        InRedis cfg w job.id job.queue) := by
  obtain ⟨e, op', rest, reply, rfl, replied, step, ran⟩ := ran.cases_of_not_ended rfl
  cases step with
  | processJob step =>
    cases step with
    | running =>
      have written : o.fails (.update job.id .running) = false := by
        simpa [Outcome.reply] using replied
      have row : (w.apply (.setStatus job.id .running)).row job.id =
          some (Storage.setStatus w.now .running job.toJobRow) := by
        simp [World.row_apply, Effect.onRow, present]
      -- a running row awaits no delivery
      have settled : ∀ row, (w.apply (.setStatus job.id .running)).row job.id = some row →
          ¬ AwaitsDelivery row := by
        simp [row, AwaitsDelivery, Storage.setStatus]
      obtain ⟨aside, safe⟩ := executing_safe settled ran
      refine ⟨List.forall_mem_cons.mpr ⟨by simp [Effect.target, eq_comm], aside⟩, ?_⟩
      rw [safe]
      simp only [row, Option.some.injEq, forall_eq', written, Bool.false_eq_true, if_false]
      exact Iff.rfl
    | runningLost =>
      have lost : o.fails (.update job.id .running) = true := by
        simpa [Outcome.reply] using replied
      obtain ⟨rfl, rfl⟩ := ran.of_ended rfl
      refine ⟨by simp [Effect.target], ?_⟩
      simp only [lost, if_true]
      exact safe_iff present

/-- A worker that has read the row of a job without a handler. -/
theorem noHandler_safe {job : Job} (present : w.row job.id = some job.toJobRow)
    (ran : Solo cfg o w (.processJob (.noHandler job)) effects w') :
    (∀ e ∈ effects, e ≠ .takeDue ∧ ∀ id, e.target = some id → id = job.id) ∧
      (Safe cfg w' job.id ↔ if o.fails (.update job.id .failed) then
        AwaitsDelivery job.toJobRow → InRedis cfg w job.id job.queue ∨ Recoverable job.toJobRow
      else True) := by
  obtain ⟨e, op', rest, reply, rfl, replied, step, ran⟩ := ran.cases_of_not_ended rfl
  cases step with
  | processJob step =>
    cases step with
    | unhandled =>
      have written : o.fails (.update job.id .failed) = false := by
        simpa [Outcome.reply] using replied
      obtain ⟨rfl, rfl⟩ := ran.of_ended rfl
      refine ⟨by simp [Effect.target, eq_comm], ?_⟩
      simp only [written, Bool.false_eq_true, if_false, iff_true]
      exact safe_setError (by decide)
    | unhandledLost =>
      have lost : o.fails (.update job.id .failed) = true := by
        simpa [Outcome.reply] using replied
      obtain ⟨rfl, rfl⟩ := ran.of_ended rfl
      refine ⟨by simp [Effect.target], ?_⟩
      simp only [lost, if_true]
      exact safe_iff present

/-- The outcome of `processJob` for the job it popped. -/
theorem popped_safe (ran : Solo cfg o w (.processJob (.popped (cfg.uuid.string id))) effects w') :
    (∀ e ∈ effects, e ≠ .takeDue ∧ ∀ id', e.target = some id' → id' = id) ∧
      (Safe cfg w' id ↔ Survives cfg o w (.processJob (.popped (cfg.uuid.string id)))) := by
  simp only [Survives, cfg.uuid.parse_string, Option.some.injEq, forall_eq']
  obtain ⟨e, op', rest, reply, rfl, replied, step, next⟩ := ran.cases_of_not_ended rfl
  cases step with
  | processJob step =>
    cases step with
    | invalid unparsed =>
      rw [cfg.uuid.parse_string] at unparsed
      cases unparsed
    | missing parsed absent =>
      obtain ⟨rfl, rfl⟩ := next.of_ended rfl
      rw [cfg.uuid.parse_string] at parsed
      cases parsed
      refine ⟨by simp [Effect.target], iff_of_true (safe_of_absent absent) ?_⟩
      intro row present
      rw [absent] at present
      cases present
    -- the token is lost with the row as it was
    | unread =>
      obtain ⟨rfl, rfl⟩ := next.of_ended rfl
      have early (row : JobRow) : returnsEarly cfg o (cfg.uuid.string id) id row = true := by
        simp [returnsEarly, Outcome.fails_of_answerGetJob_fail replied]
      refine ⟨by simp [Effect.target], ?_⟩
      simp only [early, if_true]
      exact Iff.rfl
    | @fetched _ job parsed present registered =>
      have read := Outcome.fails_of_answerGetJob_ok replied parsed
      rw [cfg.uuid.parse_string] at parsed
      cases parsed
      obtain ⟨aside, safe⟩ := fetched_safe (w := w.apply .none) present next
      refine ⟨List.forall_mem_cons.mpr ⟨by simp [Effect.target], aside⟩, ?_⟩
      simp only [present, Option.some.injEq, forall_eq', returnsEarly, read, Bool.false_or,
        registered, if_true, forall_const]
      exact safe
    | @noHandler _ job parsed present unregistered =>
      have read := Outcome.fails_of_answerGetJob_ok replied parsed
      rw [cfg.uuid.parse_string] at parsed
      cases parsed
      obtain ⟨aside, safe⟩ := noHandler_safe (w := w.apply .none) present next
      refine ⟨List.forall_mem_cons.mpr ⟨by simp [Effect.target], aside⟩, ?_⟩
      simp only [present, Option.some.injEq, forall_eq', returnsEarly, read, Bool.false_or,
        unregistered, Bool.false_eq_true, if_false, false_implies]
      exact safe

theorem processJob_unstranded {jobIDStr : String} (named : w.Names cfg jobIDStr)
    (ran : Solo cfg o w (.processJob (.popped jobIDStr)) effects w') :
    Unstranded cfg w (.processJob (.popped jobIDStr)) effects w' ↔
      Survives cfg o w (.processJob (.popped jobIDStr)) := by
  obtain ⟨id, _, rfl, _⟩ := named
  obtain ⟨aside, safe⟩ := popped_safe ran
  simp only [Unstranded, touched_popped aside, forall_eq]
  exact safe

/-! ## The scheduler pass -/

/-- Both calls that release this job succeed. -/
def releases (cfg : Config) (o : Outcome) (id : Uuid) : Prop :=
  o.fails (.getJob (cfg.uuid.string id)) = false ∧ o.fails (.push (cfg.uuid.string id)) = false

/-- What a pass that works through these identifiers does to the stores. -/
structure Released (cfg : Config) (o : Outcome) (ids : List String) (effects : List Effect)
    (w w' : World) : Prop where
  aside : ∀ e ∈ effects, e ≠ .takeDue ∧ ∀ id, e.target = some id → cfg.uuid.string id ∈ ids
  schedule : Queue.scheduled w'.redis = Queue.scheduled w.redis
  grows : ∀ {queue member}, member ∈ Queue.contents queue w.redis →
    member ∈ Queue.contents queue w'.redis
  rows : ∀ {id row'}, w'.row id = some row' → ∃ row, w.row id = some row ∧ row.queue = row'.queue
  delivered : ∀ {id row}, cfg.uuid.string id ∈ ids → releases cfg o id → w.row id = some row →
    cfg.uuid.string id ∈ Queue.contents row.queue w'.redis
  others : ∀ {id}, ¬ (cfg.uuid.string id ∈ ids ∧ releases cfg o id) → w'.row id = w.row id ∧
    ∀ queue, cfg.uuid.string id ∈ Queue.contents queue w'.redis ↔
      cfg.uuid.string id ∈ Queue.contents queue w.redis

namespace Released

variable {ids : List String} {effects' : List Effect} {w'' : World}

theorem nil : Released cfg o [] [] w w where
  aside := by simp
  schedule := rfl
  grows := id
  rows := fun present => ⟨_, present, rfl⟩
  delivered := by simp
  others := fun _ => ⟨rfl, fun _ => Iff.rfl⟩

/-- An identifier that changes nothing: its job is not there, or one of its calls fails. -/
theorem skipped (kept : releases cfg o id → w.row id = none)
    (aside : ∀ e ∈ effects, e ≠ .takeDue ∧ e.target = none) :
    Released cfg o [cfg.uuid.string id] effects w w where
  aside := fun e occurs => ⟨(aside e occurs).1, by simp [(aside e occurs).2]⟩
  schedule := rfl
  grows := fun held => held
  rows := fun present => ⟨_, present, rfl⟩
  delivered := by
    intro id' row own released present
    have same := cfg.uuid.string_injective (List.mem_singleton.mp own)
    subst same
    rw [kept released] at present
    cases present
  others := fun _ => ⟨rfl, fun _ => Iff.rfl⟩

/-- An identifier that is pushed, possibly followed by an update of its row. -/
theorem pushed {job : Job} {update : Effect} (present : w.row job.id = some job.toJobRow)
    (released : releases cfg o job.id)
    (update_cases : update = .none ∨ update = .setStatus job.id .pending)
    (aside : ∀ e ∈ effects, e ≠ .takeDue ∧ (e.target = none ∨ e.target = some job.id)) :
    Released cfg o [cfg.uuid.string job.id] effects w
      ((w.apply (.push job.queue (cfg.uuid.string job.id))).apply update) := by
  have redis : ((w.apply (.push job.queue (cfg.uuid.string job.id))).apply update).redis =
      Queue.push job.queue (cfg.uuid.string job.id) w.redis := by
    obtain rfl | rfl := update_cases <;> rfl
  have other_rows {id : Uuid} (other : id ≠ job.id) :
      ((w.apply (.push job.queue (cfg.uuid.string job.id))).apply update).row id = w.row id := by
    obtain rfl | rfl := update_cases
    · rfl
    · rw [World.row_apply_of_target_ne (by simp [Effect.target, Ne.symm other])]
      rfl
  refine ⟨?_, ?_, ?_, ?_, ?_, ?_⟩
  · intro e occurs
    refine ⟨(aside e occurs).1, fun id hit => ?_⟩
    cases (aside e occurs).2 with
    | inl spared =>
      rw [spared] at hit
      cases hit
    | inr own =>
      rw [own] at hit
      cases hit
      exact List.mem_singleton.mpr rfl
  · rw [redis, Queue.scheduled_push]
  · intro queue member held
    rw [redis, Queue.contents_push]
    split
    case isTrue same => exact List.mem_cons_of_mem _ (same ▸ held)
    case isFalse => exact held
  · intro id row' present'
    obtain rfl | rfl := update_cases
    · exact ⟨row', present', rfl⟩
    · rw [World.row_apply] at present'
      cases Effect.onRow_sameJob present' with
      | inl version =>
        obtain ⟨old, found, same⟩ := version
        exact ⟨old, found, same.queue⟩
      | inr inserted => cases inserted
  · intro id row own _ found
    have same := cfg.uuid.string_injective (List.mem_singleton.mp own)
    subst same
    rw [present] at found
    cases found
    rw [redis, Queue.contents_push, if_pos rfl]
    exact List.mem_cons_self
  · intro id other
    have different : id ≠ job.id := by
      intro same
      subst same
      exact other ⟨List.mem_singleton.mpr rfl, released⟩
    refine ⟨other_rows different, fun queue => ?_⟩
    rw [redis, Queue.contents_push]
    split
    case isTrue same =>
      subst same
      have text : cfg.uuid.string id ≠ cfg.uuid.string job.id :=
        fun equal => different (cfg.uuid.string_injective equal)
      simp [text]
    case isFalse => exact Iff.rfl

/-- One identifier after the other, each once. -/
theorem cons {jobIDStr : String} (first : Released cfg o [jobIDStr] effects w w')
    (rest : Released cfg o ids effects' w' w'') (once : jobIDStr ∉ ids) :
    Released cfg o (jobIDStr :: ids) (effects ++ effects') w w'' := by
  refine ⟨?_, rest.schedule.trans first.schedule, fun held => rest.grows (first.grows held), ?_,
    ?_, ?_⟩
  · intro e occurs
    cases List.mem_append.mp occurs with
    | inl early =>
      refine ⟨(first.aside e early).1, fun id hit => ?_⟩
      rw [List.mem_singleton.mp ((first.aside e early).2 id hit)]
      exact List.mem_cons_self
    | inr late =>
      exact ⟨(rest.aside e late).1, fun id hit => List.mem_cons_of_mem _ ((rest.aside e late).2 id hit)⟩
  · intro id row'' present''
    obtain ⟨row', present', queue'⟩ := rest.rows present''
    obtain ⟨row, present, queue⟩ := first.rows present'
    exact ⟨row, present, queue.trans queue'⟩
  · intro id row listed released present
    cases List.mem_cons.mp listed with
    | inl own => exact rest.grows (first.delivered (List.mem_singleton.mpr own) released present)
    | inr later =>
      have other : ¬ (cfg.uuid.string id ∈ [jobIDStr] ∧ releases cfg o id) := by
        intro own
        exact once (List.mem_singleton.mp own.1 ▸ later)
      exact rest.delivered later released ((first.others other).1.trans present)
  -- an identifier that neither part released is where it was
  · intro id unreleased
    have earlier : ¬ (cfg.uuid.string id ∈ [jobIDStr] ∧ releases cfg o id) := fun own =>
      unreleased ⟨List.mem_cons.mpr (.inl (List.mem_singleton.mp own.1)), own.2⟩
    have later : ¬ (cfg.uuid.string id ∈ ids ∧ releases cfg o id) := fun own =>
      unreleased ⟨List.mem_cons_of_mem _ own.1, own.2⟩
    refine ⟨(rest.others later).1.trans (first.others earlier).1, fun queue => ?_⟩
    exact ((rest.others later).2 queue).trans ((first.others earlier).2 queue)

end Released

/-- The pass handles the identifier at the head of its batch and goes on with the rest. -/
theorem release_head {rest : List String}
    (ran : Solo cfg o w (.processScheduledJobs (.releasing (cfg.uuid.string id :: rest))) effects w') :
    ∃ first later middle, effects = first ++ later ∧
      Released cfg o [cfg.uuid.string id] first w middle ∧
      Solo cfg o middle (.processScheduledJobs (.releasing rest)) later w' := by
  obtain ⟨e, op', later, reply, rfl, replied, step, next⟩ := ran.cases_of_not_ended rfl
  cases step with
  | processScheduledJobs step =>
    cases step with
    | invalid unparsed =>
      rw [cfg.uuid.parse_string] at unparsed
      cases unparsed
    | missing parsed absent =>
      rw [cfg.uuid.parse_string] at parsed
      cases parsed
      exact ⟨[.none], later, w, rfl, .skipped (fun _ => absent) (by simp [Effect.target]), next⟩
    | unread =>
      have lost := Outcome.fails_of_answerGetJob_fail replied
      refine ⟨[.none], later, w, rfl, .skipped ?_ (by simp [Effect.target]), next⟩
      simp [releases, lost]
    | @fetched _ _ job parsed present =>
      have read := Outcome.fails_of_answerGetJob_ok replied parsed
      rw [cfg.uuid.parse_string] at parsed
      cases parsed
      obtain ⟨e, op', later, reply, rfl, replied, step, next⟩ := next.cases_of_not_ended rfl
      cases step with
      | processScheduledJobs step =>
        cases step with
        | unpushed =>
          have lost : o.fails (.push (cfg.uuid.string job.id)) = true := by
            simpa [Outcome.reply] using replied
          refine ⟨[.none, .none], later, w, rfl, .skipped ?_ (by simp [Effect.target]), next⟩
          simp [releases, lost]
        | pushed other =>
          have queued : o.fails (.push (cfg.uuid.string job.id)) = false := by
            simpa [Outcome.reply] using replied
          refine ⟨[.none, .push job.queue (cfg.uuid.string job.id)], later, _, rfl, ?_, next⟩
          exact .pushed present ⟨read, queued⟩ (.inl rfl) (by simp [Effect.target])
        | pushedRetrying retrying =>
          have queued : o.fails (.push (cfg.uuid.string job.id)) = false := by
            simpa [Outcome.reply] using replied
          -- whether or not the last update succeeds, the identifier is in its list
          obtain ⟨e, op', later, reply, rfl, _, step, next⟩ := next.cases_of_not_ended rfl
          refine ⟨[.none, .push job.queue (cfg.uuid.string job.id), e], later,
            (w.apply (.push job.queue (cfg.uuid.string job.id))).apply e, rfl, ?_⟩
          cases step with
          | processScheduledJobs step =>
            cases step with
            | released =>
              exact ⟨.pushed present ⟨read, queued⟩ (.inr rfl) (by simp [Effect.target]), next⟩
            | releasedLost =>
              exact ⟨.pushed present ⟨read, queued⟩ (.inl rfl) (by simp [Effect.target]), next⟩

/-- The whole batch, by induction on what is left of it. -/
theorem release_batch {ids : List String} (named : ∀ member ∈ ids, ∃ id, member = cfg.uuid.string id)
    (once : ids.Nodup)
    (ran : Solo cfg o w (.processScheduledJobs (.releasing ids)) effects w') :
    Released cfg o ids effects w w' := by
  induction ids generalizing w effects with
  | nil =>
    obtain ⟨rfl, rfl⟩ := ran.of_ended rfl
    exact .nil
  | cons jobIDStr rest inductionHypothesis =>
    obtain ⟨id, rfl⟩ := named jobIDStr List.mem_cons_self
    obtain ⟨absent, once⟩ := List.nodup_cons.mp once
    obtain ⟨first, later, middle, rfl, head, ran⟩ := release_head ran
    have tail := inductionHypothesis (fun member held => named member (List.mem_cons_of_mem _ held))
      once ran
    exact head.cons tail absent

theorem processScheduledJobs_unstranded (world : w.Sound cfg)
    (ran : Solo cfg o w (.processScheduledJobs .starting) effects w') :
    Unstranded cfg w (.processScheduledJobs .starting) effects w' ↔
      Survives cfg o w (.processScheduledJobs .starting) := by
  obtain ⟨e, op', later, reply, rfl, replied, step, next⟩ := ran.cases_of_not_ended rfl
  cases step with
  | processScheduledJobs step =>
    cases step with
    | untaken =>
      obtain ⟨rfl, _⟩ := next.of_ended rfl
      refine iff_of_true ?_ (.inl (by simpa [Outcome.reply] using replied))
      intro id touched
      exact absurd touched (not_touched (by simp) (by simp [Effect.target]))
    | taken =>
      have answered : o.fails .getDueJobs = false := by simpa [Outcome.reply] using replied
      -- the schedule is a set, so the batch has no identifier twice
      have released := release_batch (fun member due => by
          obtain ⟨id, _, text, _⟩ := world.scheduled
            (SortedSet.mem_rangeByScore_or_remove.mpr (.inl due))
          exact ⟨id, text⟩)
        (SortedSet.nodup_rangeByScore _ _) next
      have touched (id : Uuid) : Touched cfg w (.processScheduledJobs .starting) (.takeDue :: later) id ↔
          cfg.uuid.string id ∈ (Queue.getDueJobs w.now w.redis).1 := by
        constructor
        · intro touched
          obtain ⟨e, occurs, hit⟩ | popped | ⟨_, due⟩ := touched
          · cases List.mem_cons.mp occurs with
            | inl first =>
              rw [first] at hit
              cases hit
            | inr rest => exact (released.aside e rest).2 id hit
          · cases popped
          · exact due
        · exact fun due => .inr (.inr ⟨List.mem_cons_self, due⟩)
      simp only [Unstranded, touched, Survives, answered, Bool.false_eq_true, false_or]
      constructor
      · intro safe id row due present awaits
        by_cases pushed : releases cfg o id
        · exact .inl pushed
        · -- the row is as it was, and the identifier is not in the schedule any more
          obtain ⟨row_eq, listed⟩ := released.others (fun own => pushed own.2)
          simp only [World.redis_apply, Queue.contents_getDueJobs] at listed
          have gone : ¬ cfg.uuid.string id ∈ Queue.scheduled w'.redis := by
            rw [released.schedule, World.redis_apply, Queue.scheduled_getDueJobs]
            exact SortedSet.notMem_removeRangeByScore due
          cases safe id due row (row_eq.trans present) awaits with
          | inl held => exact .inr (.inl ((listed row.queue).mp (held.resolve_right gone)))
          | inr recoverable => exact .inr (.inr recoverable)
      · intro survives id due row' present' awaits
        by_cases pushed : releases cfg o id
        · obtain ⟨row, present, queue⟩ := released.rows present'
          exact .inl (.inl (queue ▸ released.delivered due pushed present))
        · obtain ⟨row_eq, listed⟩ := released.others (fun own => pushed own.2)
          simp only [World.redis_apply, Queue.contents_getDueJobs] at listed
          have present : w.row id = some row' := row_eq.symm.trans present'
          obtain both | before | recoverable := survives id row' due present awaits
          · exact absurd both pushed
          · exact .inl (.inl ((listed row'.queue).mpr before))
          · exact .inr recoverable

/-! ## All five -/

/-- Whatever state an operation starts in and whichever of its calls fail, it strands no job
exactly under its condition. -/
theorem unstranded_iff {op : Op} (world : w.Sound cfg) (sound : op.Sound cfg w) (entry : Entry op)
    (ran : Solo cfg o w op effects w') :
    Unstranded cfg w op effects w' ↔ Survives cfg o w op := by
  cases entry with
  | createJob => exact createJob_unstranded world ran
  | retryJob => exact retryJob_unstranded ran
  | processJob => exact processJob_unstranded sound ran
  | handleFailure => exact handleFailure_unstranded ran
  | processScheduledJobs => exact processScheduledJobs_unstranded world ran

/-- A request for a job to be run later. -/
def delayedRequest : Api.CreateJobRequest :=
  { Cmd.request with runAt := some "2026-01-01T00:00:00Z" }

/-- Identifier 1 is handed out, and no `Push` of it succeeds. -/
def pushFault : Outcome :=
  ⟨fun call => decide (call = .push (Cmd.mainConfig.uuid.string 1)), 1, none⟩

/-- The `Push` of a request fails.  The new row stays `pending` with nothing in Redis, and no job
is stranded, since the recovery loop looks for such a row. -/
theorem unpushed_job_survives : ∃ row effects w',
    Solo Cmd.mainConfig pushFault (.empty 0) (.createJob (.received (some Cmd.request))) effects w' ∧
    w'.row 1 = some row ∧ row.status = .pending ∧ ¬ InRedis Cmd.mainConfig w' 1 row.queue ∧
    Unstranded Cmd.mainConfig (.empty 0) (.createJob (.received (some Cmd.request))) effects w' := by
  have evaluated : (Op.finish Cmd.mainConfig pushFault 2 (.empty 0)
      (.createJob (.received (some Cmd.request)))).any (fun finished =>
        (finished.2.row 1).any fun row => decide (row.status = .pending ∧
          Cmd.mainConfig.uuid.string 1 ∉ Queue.contents row.queue finished.2.redis ∧
          ¬ Cmd.mainConfig.uuid.string 1 ∈ Queue.scheduled finished.2.redis)) = true := by decide
  simp only [Option.any_eq_true, decide_eq_true_eq] at evaluated
  obtain ⟨⟨effects, w'⟩, finished, row, present, pending, unlisted, unscheduled⟩ := evaluated
  have ran := Solo.of_finish finished
  refine ⟨row, effects, w', ran, present, pending, fun held => held.elim unlisted unscheduled, ?_⟩
  have sound : Op.Sound Cmd.mainConfig (.empty 0) (.createJob (.received (some Cmd.request))) := trivial
  refine (unstranded_iff (World.sound_empty 0) sound .createJob ran).mpr ?_
  intro job prepared
  exact .inr (.inl (by cases prepared; rfl))

/-- The pass takes the due job out of the schedule, its `Push` fails, and the row stays
`scheduled` with nothing in Redis and no recovery that looks for it. -/
theorem due_job_stranded : ∃ s row effects w', (system Cmd.mainConfig).Reachable anyAction s ∧
    Solo Cmd.mainConfig pushFault s.world (.processScheduledJobs .starting) effects w' ∧
    Touched Cmd.mainConfig s.world (.processScheduledJobs .starting) effects 1 ∧
    w'.row 1 = some row ∧ row.status = .scheduled ∧ ¬ Recoverable row ∧
    ¬ InRedis Cmd.mainConfig w' 1 row.queue ∧
    ¬ Unstranded Cmd.mainConfig s.world (.processScheduledJobs .starting) effects w' := by
  have evaluated : (Cmd.runFrom Cmd.initialState [.begin (.createJob (some delayedRequest)),
      .run 0 (.inserted 1), .run 0 .ok, .tick 2000000000000000000]).any (fun s =>
      (Op.finish Cmd.mainConfig pushFault 4 s.world (.processScheduledJobs .starting)).any
        fun finished => (finished.2.row 1).any fun row => decide (
          (.takeDue ∈ finished.1 ∧
            Cmd.mainConfig.uuid.string 1 ∈ (Queue.getDueJobs s.world.now s.world.redis).1) ∧
          row.status = .scheduled ∧
          Cmd.mainConfig.uuid.string 1 ∉ Queue.contents row.queue finished.2.redis ∧
          ¬ Cmd.mainConfig.uuid.string 1 ∈ Queue.scheduled finished.2.redis)) = true := by decide
  simp only [Option.any_eq_true, decide_eq_true_eq] at evaluated
  obtain ⟨s, executed, ⟨effects, w'⟩, finished, row, present, taken, scheduled, unlisted, gone⟩ :=
    evaluated
  have unrecovered : ¬ Recoverable row := by simp [recoverable_iff, scheduled]
  have lost : ¬ InRedis Cmd.mainConfig w' 1 row.queue := fun held => held.elim unlisted gone
  refine ⟨s, row, effects, w', Transition.System.reachable_of_exec Cmd.initial_initialState executed,
    Solo.of_finish finished, .inr (.inr taken), present, scheduled, unrecovered, lost, ?_⟩
  intro unstranded
  exact (unstranded 1 (.inr (.inr taken)) row present (.inr (.inl scheduled))).elim lost unrecovered

end GoQueue.Verified
