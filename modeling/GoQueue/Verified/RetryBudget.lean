import GoQueue.Verified.Lifecycle
import GoQueue.Verified.Progress

/-! # How often a job is executed

The phases of a job say what can go wrong nowhere; here it is shown that the run also goes on:
from any state between two operations, in which the job's token is in Redis, deliveries and
passes lead to the job's next execution, with whatever result.  Other jobs that are popped or
due before it get their turn; for the run that is built here their handlers succeed.

The number of executions follows: it is at most `max 1 m` for a job with `max_retries` `m`, and
exactly that if every execution fails.
-/

namespace GoQueue.Verified

variable {cfg : Config} {id : Uuid} {m : Int} {results : List (Option String)} {w : World}
  {op o : Op} {r : Reply} {e : Effect} {P : Turn → Prop} {t : Turn}

/-- Some run of deliveries and passes leads to a state with the property. -/
def Leads (cfg : Config) (P : Turn → Prop) (t : Turn) : Prop :=
  (sequence cfg).CanReach retryRun P t

theorem Leads.call (moves : op.step cfg w r = some (e, o)) (succeeds : r.succeeds = true)
    (later : Leads cfg P ⟨w.apply e, o⟩) : Leads cfg P ⟨w, op⟩ := by
  refine .after (a := .call r) succeeds ?_ later
  simp [sequence, Turn.step, moves]

/-! ## Deliveries of other jobs -/

/-- The operation has ended, with Redis and the job's results as they were. -/
def Settles (id : Uuid) (w : World) (t : Turn) : Prop :=
  t.op.ended = true ∧ t.world.redis = w.redis ∧ executions id t.world = executions id w

/-- A delivery of another job can come to its end. -/
theorem leads_settles {jobIDStr : String} (names : w.Names cfg jobIDStr)
    (other : jobIDStr ≠ cfg.uuid.string id) :
    Leads cfg (Settles id w) ⟨w, .processJob (.popped jobIDStr)⟩ := by
  obtain ⟨id', _, rfl, _⟩ := names
  have different : id' ≠ id := fun same => other (by rw [same])
  have parsed := cfg.uuid.parse_string id'
  cases found : Storage.getJob id' w.jobs with
  | none =>
    refine .call (r := .ok) (e := .none) (o := .processJob .returned) ?_ rfl (.here ⟨rfl, rfl, rfl⟩)
    simp [Op.step, Worker.ProcessJob.step, parsed, found]
  | some job =>
    have own : job.id ≠ id := (World.getJob_eq_some.mp found).1 ▸ different
    by_cases registered : cfg.registered job.type = true
    · refine .call (r := .ok) (e := .none) (o := .processJob (.fetched job)) ?_ rfl ?_
      · simp [Op.step, Worker.ProcessJob.step, parsed, found, registered]
      refine .call (r := .ok) (o := .processJob (.executing job)) rfl rfl ?_
      refine .call (r := .returned none) (o := .processJob (.succeeded job)) rfl rfl ?_
      refine .call (r := .ok) (o := .processJob .returned) rfl rfl (.here ⟨rfl, rfl, ?_⟩)
      simp [executions_apply, own]
    · refine .call (r := .ok) (e := .none) (o := .processJob (.noHandler job)) ?_ rfl ?_
      · simp [Op.step, Worker.ProcessJob.step, parsed, found, registered]
      exact .call (r := .ok) (o := .processJob .returned) rfl rfl (.here ⟨rfl, rfl, rfl⟩)

/-! ## The passes -/

/-- The operation has ended, with the schedule and the job's results as they were. -/
def Releases (id : Uuid) (w : World) (t : Turn) : Prop :=
  t.op.ended = true ∧ Queue.scheduled t.world.redis = Queue.scheduled w.redis ∧
    executions id t.world = executions id w

/-- A pass can work through its batch. -/
theorem leads_releases (dueJobIDs : List String) :
    Leads cfg (Releases id w) ⟨w, .processScheduledJobs (.releasing dueJobIDs)⟩ := by
  induction dueJobIDs generalizing w with
  | nil => exact .here ⟨rfl, rfl, rfl⟩
  | cons jobIDStr rest inductionHypothesis =>
    -- whatever the pass did with the first identifier, it can go on with the rest
    have go {w' : World} (schedule : Queue.scheduled w'.redis = Queue.scheduled w.redis)
        (history : executions id w' = executions id w) :
        Leads cfg (Releases id w) ⟨w', .processScheduledJobs (.releasing rest)⟩ := by
      obtain ⟨u, reaches, done, kept, same⟩ := inductionHypothesis (w := w')
      exact ⟨u, reaches, done, kept.trans schedule, same.trans history⟩
    have skip (moves : Op.step cfg w (.processScheduledJobs (.releasing (jobIDStr :: rest))) .ok =
        some (.none, .processScheduledJobs (.releasing rest))) := Leads.call moves rfl (go rfl rfl)
    cases parsed : cfg.uuid.parse jobIDStr with
    | none => exact skip (by simp [Op.step, Scheduler.ProcessScheduledJobs.step, parsed])
    | some id' =>
      cases found : Storage.getJob id' w.jobs with
      | none => exact skip (by simp [Op.step, Scheduler.ProcessScheduledJobs.step, parsed, found])
      | some job =>
        refine .call (r := .ok) (e := .none)
          (o := .processScheduledJobs (.fetched job jobIDStr rest)) ?_ rfl ?_
        · simp [Op.step, Scheduler.ProcessScheduledJobs.step, parsed, found]
        by_cases retrying : job.status = .retrying
        · refine .call (r := .ok) (e := .push job.queue jobIDStr)
            (o := .processScheduledJobs (.pushed job rest)) ?_ rfl ?_
          · simp [Op.step, Scheduler.ProcessScheduledJobs.step, retrying]
          exact .call (r := .ok) (o := .processScheduledJobs (.releasing rest)) rfl rfl (go rfl rfl)
        · refine .call (r := .ok) (e := .push job.queue jobIDStr)
            (o := .processScheduledJobs (.releasing rest)) ?_ rfl (go rfl rfl)
          simp [Op.step, Scheduler.ProcessScheduledJobs.step, retrying]

/-! ## The job's own delivery -/

/-- The operation has ended and the job was executed once more, with this result. -/
def Executes (id : Uuid) (err : Option String) (w : World) (t : Turn) : Prop :=
  t.op.ended = true ∧ executions id t.world = err :: executions id w

/-- The counter of a live job is within the range of its column after one more failure. -/
theorem fits_of_live {row : JobRow} (live : Live m results) (attempted : Attempted cfg m results row) :
    ∃ n : Int4, Worker.int4? (row.retryCount.val + 1) = some n := by
  have bound := live.length_le
  have maximum := row.maxRetries.property
  rw [attempted.maxRetries] at maximum
  rw [attempted.retryCount, live.failures_eq]
  have fits : -2 ^ 31 ≤ (results.length + 1 : Int) ∧ (results.length + 1 : Int) < 2 ^ 31 := by omega
  exact ⟨⟨_, fits⟩, by simp only [Worker.int4?, dif_pos fits]⟩

/-- A delivery comes to the handler. -/
theorem Leads.execute {row : JobRow} (present : w.row id = some row)
    (registered : cfg.registered row.type = true)
    (later : Leads cfg P ⟨w.apply (.setStatus id .running),
      .processJob (.executing (Storage.scanJob id row))⟩) :
    Leads cfg P ⟨w, .processJob (.popped (cfg.uuid.string id))⟩ := by
  have found : Storage.getJob id w.jobs = some (Storage.scanJob id row) :=
    World.getJob_eq_some.mpr ⟨rfl, present⟩
  refine .call (r := .ok) (e := .none) (o := .processJob (.fetched (Storage.scanJob id row))) ?_ rfl ?_
  · simp [Op.step, Worker.ProcessJob.step, cfg.uuid.parse_string, found, Storage.scanJob, registered]
  exact .call (r := .ok) (o := .processJob (.executing (Storage.scanJob id row))) rfl rfl later

/-- The handler fails and a retry is left, so `handleFailure` comes to its `Schedule` call. -/
theorem Leads.reschedule {row : JobRow} {n : Int4} (jobErr : String)
    (fits : Worker.int4? (row.retryCount.val + 1) = some n)
    (left : row.retryCount.val + 1 < row.maxRetries.val)
    (later : Leads cfg P ⟨(w.apply (.record id (some jobErr))).apply (.setError id .retrying n jobErr),
      .processJob (.rescheduling (Storage.scanJob id row) (row.retryCount.val + 1))⟩) :
    Leads cfg P ⟨w, .processJob (.executing (Storage.scanJob id row))⟩ := by
  refine .call (r := .returned (some jobErr))
    (o := .processJob (.failing (Storage.scanJob id row) jobErr)) rfl rfl ?_
  refine .call (r := .ok) (e := .setError id .retrying n jobErr)
    (o := .processJob (.rescheduling (Storage.scanJob id row) (row.retryCount.val + 1))) ?_ rfl later
  simp [Op.step, Worker.ProcessJob.step, Storage.scanJob, left, fits]

theorem leads_executes (live : Live m results) (shows : Shows cfg id m results underWay w)
    (err : Option String) :
    Leads cfg (Executes id err w) ⟨w, .processJob (.popped (cfg.uuid.string id))⟩ := by
  obtain ⟨row, present, attempted, _⟩ := shows
  refine .execute present attempted.registered ?_
  have recorded (w' : World) (calls : w'.calls = (id, err) :: w.calls) :
      executions id w' = err :: executions id w := by
    simp [executions, calls]
  cases err with
  | none =>
    refine .call (r := .returned none) (o := .processJob (.succeeded (Storage.scanJob id row)))
      rfl rfl ?_
    exact .call (r := .ok) (o := .processJob .returned) rfl rfl (.here ⟨rfl, recorded _ rfl⟩)
  | some jobErr =>
    obtain ⟨n, fits⟩ := fits_of_live live attempted
    -- `handleFailure` makes one more call if a retry is left
    by_cases left : row.retryCount.val + 1 < row.maxRetries.val
    · refine .reschedule jobErr fits left ?_
      exact .call (r := .ok) (o := .processJob .returned) rfl rfl (.here ⟨rfl, recorded _ rfl⟩)
    · refine .call (r := .returned (some jobErr))
        (o := .processJob (.failing (Storage.scanJob id row) jobErr)) rfl rfl ?_
      refine .call (r := .ok) (e := .setError id .dead n jobErr) (o := .processJob .returned) ?_ rfl
        (.here ⟨rfl, recorded _ rfl⟩)
      simp [Op.step, Worker.ProcessJob.step, Storage.scanJob, not_lt.mp left, fits]

/-! ## The next execution -/

theorem not_over_of_live (live : Live m results) : ¬ Over cfg id m results w := by
  rintro ⟨result, prior, rfl, _, ⟨row, _, _, final⟩, _⟩
  obtain ⟨succeeded, _⟩ | ⟨_, _, exhausted⟩ := final
  · rw [List.head?_cons, Option.some.injEq] at succeeded
    exact live.1 (by simp [succeeded])
  · rw [live.failures_eq] at exhausted
    have := live.2 (by simp)
    omega

/-- A state between two operations with the token in Redis. -/
structure Paused (cfg : Config) (id : Uuid) (m : Int) (results : List (Option String)) (t : Turn) :
    Prop where
  reachable : (sequence cfg).Reachable retryRun t
  done : t.op.ended = true
  phase : Phase cfg id m results t.world t.op
  kept : Kept cfg id m results t.world

/-- The token stays in Redis while the job is not executed. -/
theorem Paused.of_reaches {u : Turn} (paused : Paused cfg id m results t)
    (reaches : (sequence cfg).Reaches retryRun t u) (done : u.op.ended = true)
    (same : executions id u.world = executions id t.world) : Paused cfg id m results u := by
  obtain ⟨added, history, after⟩ := paused.phase.of_reaches paused.reachable reaches
  obtain rfl : added = [] := by
    rw [same] at history
    exact List.self_eq_append_left.mp history
  exact ⟨paused.reachable.extend reaches, done, after,
    (after.rest done).resolve_right (not_over_of_live paused.kept.1)⟩

/-- The identifier is in some list. -/
def Listed (cfg : Config) (id : Uuid) (w : World) : Prop :=
  0 < w.redis.occurrences (cfg.uuid.string id)

/-- A worker has popped the job, which was not executed since. -/
def Delivers (cfg : Config) (id : Uuid) (m : Int) (results : List (Option String)) (w : World)
    (t : Turn) : Prop :=
  t.op = .processJob (.popped (cfg.uuid.string id)) ∧ Shows cfg id m results underWay t.world ∧
    executions id t.world = executions id w

theorem Paused.leads_of_listed (paused : Paused cfg id m results t)
    (listed : Listed cfg id t.world) : Leads cfg (Delivers cfg id m results t.world) t := by
  -- everything before the job in the lists is delivered first
  induction bound : backlog cfg ⟨t.world, []⟩ using Nat.strongRecOn generalizing t with
  | _ n inductionHypothesis =>
    obtain ⟨live, shows, one⟩ := paused.kept
    have ⟨row, present, attempted, _⟩ := shows
    obtain ⟨ops, reached, _⟩ := Turn.exists_state paused.reachable
    have member := mem_contents_of_occurrences reached present attempted.served listed
    cases found : Queue.pop cfg.queues t.world.redis with
    | none =>
      rw [Queue.pop_eq_none.mp found row.queue attempted.served] at member
      cases member
    | some result =>
      obtain ⟨jobIDStr, redis⟩ := result
      obtain ⟨queue, popped⟩ := Queue.pop_popped found
      have taken : (sequence cfg).step t .pop =
          some ⟨{ t.world with redis := redis }, .processJob (.popped jobIDStr)⟩ := by
        simp [sequence, Turn.step, paused.done, found]
      by_cases own : jobIDStr = cfg.uuid.string id
      · subst own
        exact .after (a := .pop) trivial taken (.here ⟨rfl, shows, rfl⟩)
      · have names : t.world.Names cfg jobIDStr := by
          have held : jobIDStr ∈ Queue.contents queue t.world.redis := by simp [popped.last]
          exact ((reachable_sound reached).world.contents held).names
        refine .after (a := .pop) trivial taken ?_
        refine .bind (leads_settles (w := { t.world with redis := redis }) names own) ?_
        rintro u reaches ⟨done, unchanged, history⟩
        have onward : (sequence cfg).Reaches retryRun t u :=
          ((Transition.System.Reaches.refl t).step (a := .pop) trivial taken).trans reaches
        have rest := paused.of_reaches onward done history
        have fewer : backlog cfg ⟨u.world, []⟩ < n := by
          rw [← bound]
          have lower : backlog cfg ⟨{ t.world with redis := redis }, []⟩ < backlog cfg ⟨t.world, []⟩ :=
            backlog_popped popped
          simpa only [backlog, unchanged] using lower
        have still : Listed cfg id u.world := by
          have counted := popped.occurrences (cfg.uuid.string id)
          rw [if_neg own] at counted
          simp only [Listed, unchanged] at listed ⊢
          omega
        obtain ⟨v, further, popped, shows, total⟩ := inductionHypothesis _ fewer rest still rfl
        exact ⟨v, further, popped, shows, by rw [total, history]; rfl⟩

/-- A pass after the job has become due brings it to a list. -/
theorem Paused.leads_listed (paused : Paused cfg id m results t)
    (unlisted : ¬ Listed cfg id t.world) :
    Leads cfg (fun u => u.op.ended = true ∧ executions id u.world = executions id t.world ∧
      Listed cfg id u.world) t := by
  have one := paused.kept.2.2
  rw [stored_eq] at one
  have scheduled : due cfg t.world id = 1 := by
    simp only [Listed] at unlisted
    omega
  have member : cfg.uuid.string id ∈ Queue.scheduled t.world.redis :=
    List.count_pos_iff.mp (by unfold due at scheduled; omega)
  obtain ⟨entry, held, named⟩ := SortedSet.mem_iff.mp member
  -- wait for the second of its score
  let elapsed : Nat := (SortedSet.score entry * second - t.world.now).toNat
  let w : World := { t.world with now := t.world.now + elapsed }
  have isDue : SortedSet.score entry ≤ w.now.unix := by
    have later : SortedSet.score entry * second ≤ w.now :=
      Int.le_add_of_sub_left_le (Int.self_le_toNat _)
    exact (Int.le_ediv_iff_mul_le (by decide)).mpr later
  have started : (sequence cfg).Reaches retryRun t
      ⟨w.apply .takeDue, .processScheduledJobs (.releasing (Queue.getDueJobs w.now w.redis).1)⟩ := by
    refine (((Transition.System.Reaches.refl t).step (a := .wait elapsed) (u := ⟨w, t.op⟩) trivial
      rfl).step (a := .begin .processScheduledJobs) (u := ⟨w, Task.start .processScheduledJobs⟩) rfl
      ?_).step (a := .call .ok) rfl rfl
    simp [sequence, Turn.step, paused.done]
  have finished : Leads cfg (Releases id (w.apply .takeDue)) _ :=
    leads_releases (Queue.getDueJobs w.now w.redis).1
  obtain ⟨u, reaches, done, schedule, history⟩ := finished
  refine ⟨u, started.trans reaches, done, history, ?_⟩
  -- it has left the schedule, so it is in a list
  have kept := (paused.of_reaches (started.trans reaches) done history).kept.2.2
  have taken : cfg.uuid.string id ∈ (Queue.getDueJobs w.now w.redis).1 :=
    SortedSet.mem_rangeByScore.mpr ⟨SortedSet.score entry, isDue, by rw [← named]; exact held⟩
  have moved := due_takeDue cfg w id
  have counted := List.count_pos_iff.mpr taken
  rw [stored_eq] at kept
  have gone : due cfg u.world id = due cfg (w.apply .takeDue) id := by simp only [due, schedule]
  have before : due cfg w id = 1 := scheduled
  simp only [Listed]
  omega

/-- Whenever no operation is under way and the token is in Redis, a worker can pop the job next. -/
theorem Paused.leads_delivers (paused : Paused cfg id m results t) :
    Leads cfg (Delivers cfg id m results t.world) t := by
  by_cases listed : Listed cfg id t.world
  · exact paused.leads_of_listed listed
  · refine .bind (paused.leads_listed listed) ?_
    rintro u reaches ⟨done, history, listed⟩
    have paused := paused.of_reaches reaches done history
    obtain ⟨v, further, popped, shows, same⟩ := paused.leads_of_listed listed
    exact ⟨v, further, popped, shows, by rw [same, history]⟩

/-- Whenever no operation is under way and the token is in Redis, the job can be executed next,
with any result. -/
theorem Paused.leads (paused : Paused cfg id m results t) (err : Option String) :
    Leads cfg (Executes id err t.world) t := by
  refine .bind paused.leads_delivers ?_
  rintro ⟨w, op⟩ _ ⟨rfl, shows, history⟩
  obtain ⟨v, further, finished, executed⟩ := leads_executes paused.kept.1 shows err
  exact ⟨v, further, finished, by rw [executed, history]⟩

/-! ## The whole lifecycle -/

/-- A job that has not been executed since it was created, or since `RetryJob` has reset it, with
one token in Redis. -/
structure Fresh (cfg : Config) (id : Uuid) (row : JobRow) (w : World) : Prop where
  present : w.row id = some row
  pending : row.status = .pending
  untried : row.retryCount.val = 0
  unfailed : row.error = ""
  registered : cfg.registered row.type = true
  served : row.queue ∈ cfg.queues
  token : stored cfg w id = 1

theorem Fresh.paused {row : JobRow} {s : State} (reachable : (system cfg).Reachable anyAction s)
    (fresh : Fresh cfg id row s.world) : Paused cfg id row.maxRetries.val [] (.idle s.world) := by
  have shows : Shows cfg id row.maxRetries.val [] underWay s.world :=
    ⟨row, fresh.present, ⟨fresh.registered, fresh.served, rfl, fresh.untried, fresh.unfailed⟩,
      .inl fresh.pending⟩
  exact ⟨⟨_, ⟨s, reachable, rfl⟩, .refl _⟩, rfl, .queued (live_nil _) shows fresh.token rfl,
    live_nil _, shows, fresh.token⟩

/-- After one more execution the job is finished or goes on. -/
theorem Paused.executed {err : Option String} {u : Turn} (paused : Paused cfg id m results t)
    (reaches : (sequence cfg).Reaches retryRun t u) (executes : Executes id err t.world u) :
    Paused cfg id m (err :: results) u ∨ Over cfg id m (err :: results) u.world := by
  obtain ⟨done, history⟩ := executes
  obtain ⟨added, grown, phase⟩ := paused.phase.of_reaches paused.reachable reaches
  obtain rfl : added = [err] := by
    rw [history, ← List.singleton_append] at grown
    exact (List.append_cancel_right grown).symm
  cases phase.rest done with
  | inl kept => exact .inl ⟨paused.reachable.extend reaches, done, phase, kept⟩
  | inr finished => exact .inr finished

/-- Whatever the handler will return, time after time, the job comes to its end. -/
theorem Paused.stops (paused : Paused cfg id m results t) (outcomes : Nat → Option String) :
    Leads cfg (fun u => u.op.ended = true ∧ ∃ n : Nat,
      executions id u.world = ((List.range n).map outcomes).reverse ++ executions id t.world ∧
      Over cfg id m (((List.range n).map outcomes).reverse ++ results) u.world) t := by
  -- each execution takes one of those that a live job has left
  obtain ⟨left, enough⟩ : ∃ left : Nat, max 1 m ≤ results.length + left :=
    ⟨(max 1 m).toNat, by omega⟩
  induction left generalizing t results outcomes with
  | zero =>
    have bound := paused.kept.1.length_le
    omega
  | succ left inductionHypothesis =>
    refine .bind (paused.leads (outcomes 0)) fun u reaches executes => ?_
    cases paused.executed reaches executes with
    | inr finished => exact .here ⟨executes.1, 1, by simpa using executes.2, by simpa using finished⟩
    | inl again =>
      obtain ⟨v, further, done, n, history, finished⟩ := inductionHypothesis again (outcomes ∘ Nat.succ)
        (by rw [List.length_cons]; omega)
      refine ⟨v, further, done, n + 1, ?_, ?_⟩
      · rw [history, executes.2, List.range_succ_eq_map]
        simp
      · rw [List.range_succ_eq_map]
        simpa using finished

/-- No run executes the job again or changes its row. -/
def Rests (cfg : Config) (id : Uuid) (t : Turn) : Prop :=
  ∀ u, (sequence cfg).Reaches retryRun t u →
    executions id u.world = executions id t.world ∧ u.world.row id = t.world.row id

/-- A delivery of the job ends with this step. -/
def EndsDelivery (cfg : Config) (id : Uuid) (t u : Turn) : Prop :=
  ∃ pc reply, t.op = .processJob pc ∧ inHand cfg id (.processJob pc) = 1 ∧
    reply.succeeds = true ∧ (sequence cfg).step t (.call reply) = some u ∧
    u.op = .processJob .returned

theorem Phase.length_le (phase : Phase cfg id m results w op) : (results.length : Int) ≤ max 1 m := by
  cases phase with
  | queued live | batched live | popped live | fetched _ live | executing _ live
  | rescheduling _ live =>
    have := live.length_le
    omega
  | succeeded _ live | failing _ live | stopped live =>
    have := live.length_le
    simpa using this

theorem Phase.scheduled {u : Turn} (phase : Phase cfg id m results t.world t.op)
    (ends : EndsDelivery cfg id t u) {jobErr : String} {last : JobRow}
    (failed : results.head? = some (some jobErr)) (present : u.world.row id = some last)
    (alive : last.status ≠ .dead) :
    toLex ((u.world.now + backoffDuration cfg.overflow (failures results)).unix, cfg.uuid.string id) ∈
      (Queue.scheduled u.world.redis).entries := by
  obtain ⟨pc, reply, place, held, succeeds, taken, finished⟩ := ends
  obtain ⟨w, op⟩ := t
  obtain rfl : op = .processJob pc := place
  have step : Turn.Step cfg ⟨w, .processJob pc⟩ (.call reply) u := Turn.step_cases taken
  cases step with
  | calls step =>
    cases step with
    | processJob step =>
      -- after a failure a delivery can only end with a call of `handleFailure`
      cases phase with
      | queued _ _ _ aside =>
        rw [aside] at held
        cases held
      | stopped _ _ _ gone =>
        rw [gone.aside] at held
        cases held
      | popped live shows none =>
        obtain ⟨row, there, _⟩ := shows
        cases step with
        | invalid unparsed => simp [cfg.uuid.parse_string] at unparsed
        | missing parsed absent =>
          rw [cfg.uuid.parse_string, Option.some.injEq] at parsed
          simp [← parsed, there] at absent
        | unread => cases succeeds
        | fetched _ _ _ | noHandler _ _ _ => cases finished
      | fetched => cases step with
        | running => cases finished
        | runningLost => cases succeeds
      | executing => cases step <;> cases finished
      | succeeded => cases failed
      | failing own _ shows _ _ =>
        obtain ⟨row, there, _⟩ := shows
        subst own
        cases step with
        | dead _ _ =>
          simp only [World.row_apply, Effect.onRow, if_true, there, Option.map_some,
            Option.some.injEq] at present
          exact absurd (by rw [← present]; rfl) alive
        | retrying _ _ => cases finished
        | deadLost _ | retryingLost _ => cases succeeds
      | rescheduling own live count _ _ _ =>
        subst own
        cases step with
        | rescheduled =>
          subst count
          rw [World.redis_apply, Queue.scheduled_schedule]
          exact (List.mem_orderedInsert _).mpr (.inl rfl)
        | rescheduledLost => cases succeeds

theorem Phase.rests (reachable : (sequence cfg).Reachable retryRun t)
    (phase : Phase cfg id m results t.world t.op) (finished : Over cfg id m results t.world)
    (done : t.op.ended = true) : Rests cfg id t := by
  obtain ⟨_, _, rfl, _, _, none⟩ := finished
  obtain ⟨w, op⟩ := t
  cases phase with
  | stopped _ _ _ gone =>
    intro u reaches
    obtain ⟨kept, history⟩ := gone.of_reaches reachable reaches
    exact ⟨history, kept.trans gone.present.symm⟩
  | queued _ _ one _ =>
    rw [none] at one
    cases one
  | batched _ _ _ held =>
    unfold Op.ended at done
    split at done <;> simp_all [inHand]
  | fetched | executing | succeeded | failing | rescheduling | popped => cases done

/-- A job that is kept is neither completed nor dead, and its last execution was no success. -/
theorem Kept.shows (kept : Kept cfg id m results w) : ∃ row, w.row id = some row ∧
    Attempted cfg m results row ∧ row.status ≠ .completed ∧ row.status ≠ .dead ∧
    results.head? ≠ some none := by
  obtain ⟨live, ⟨row, present, attempted, current⟩, _⟩ := kept
  refine ⟨row, present, attempted, ?_, ?_, fun succeeded => live.1 (List.mem_of_head? succeeded)⟩
  · rintro completed
    obtain same | same := current <;> cases completed.symm.trans same
  · rintro dead
    obtain same | same := current <;> cases dead.symm.trans same

theorem Over.shows (finished : Over cfg id m results w) : ∃ row, w.row id = some row ∧
    Attempted cfg m results row ∧ (row.status = .completed ∨ row.status = .dead) ∧
    (row.status = .completed ↔ results.head? = some none) ∧
    (row.status = .dead → m ≤ failures results) := by
  obtain ⟨_, _, _, _, ⟨row, present, attempted, final⟩, _⟩ := finished
  refine ⟨row, present, attempted, ?_⟩
  obtain ⟨succeeded, completed⟩ | ⟨failed, dead, exhausted⟩ := final
  · simp [succeeded, completed]
  · simp [failed, dead, exhausted]

/-- From a fresh job on, every sequence of results brings the job to `completed` or `dead` within
`max 0 m + 1` executions.  In every run the executions stay below that bound; whenever no
operation is under way the row tells how often and with which message the job has failed, it is
completed exactly after a success, dead only when the retries are used up, and then at rest,
while otherwise the job can be executed next with any result; and a delivery that ends in a
failure and does not make the job dead leaves its identifier in the schedule, at the delay for
the number of failures. -/
theorem retry_lifecycle {s : State} {row : JobRow} (reachable : (system cfg).Reachable anyAction s)
    (fresh : Fresh cfg id row s.world) :
    (∀ outcomes : Nat → Option String,
      (sequence cfg).CanReach retryRun (fun t => t.op.ended = true ∧ ∃ n : Nat,
        (n : Int) ≤ max 0 row.maxRetries.val + 1 ∧
        executions id t.world = ((List.range n).map outcomes).reverse ++ executions id s.world ∧
        ∃ last, t.world.row id = some last ∧ (last.status = .completed ∨ last.status = .dead))
        (.idle s.world)) ∧
    ∀ t, (sequence cfg).Reaches retryRun (.idle s.world) t →
      ∃ results, executions id t.world = results ++ executions id s.world ∧
        (results.length : Int) ≤ max 0 row.maxRetries.val + 1 ∧
        (t.op.ended = true → ∃ current, t.world.row id = some current ∧
          current.retryCount.val = failures results ∧ current.error = lastError results ∧
          (current.status = .completed ↔ results.head? = some none) ∧
          (current.status = .dead → row.maxRetries.val ≤ current.retryCount.val) ∧
          if current.status = .completed ∨ current.status = .dead then Rests cfg id t
          else ∀ err, (sequence cfg).CanReach retryRun (Executes id err t.world) t) ∧
        ∀ u, EndsDelivery cfg id t u → ∀ jobErr last, results.head? = some (some jobErr) →
          u.world.row id = some last → last.status ≠ .dead →
          toLex ((u.world.now + backoffDuration cfg.overflow (failures results)).unix,
            cfg.uuid.string id) ∈ (Queue.scheduled u.world.redis).entries := by
  have paused := fresh.paused reachable
  have bounded {n : Nat} (within : (n : Int) ≤ max 1 row.maxRetries.val) :
      (n : Int) ≤ max 0 row.maxRetries.val + 1 := by omega
  constructor
  · intro outcomes
    obtain ⟨t, reaches, done, n, history, finished⟩ := paused.stops outcomes
    obtain ⟨added, grown, phase⟩ := paused.phase.of_reaches paused.reachable reaches
    have length := phase.length_le
    rw [List.append_cancel_right (history.symm.trans grown).symm] at length
    obtain ⟨last, present, _, final, _⟩ := finished.shows
    exact ⟨t, reaches, done, n, bounded (by simpa using length), history, last, present, final⟩
  · intro t reaches
    obtain ⟨results, history, phase⟩ := paused.phase.of_reaches paused.reachable reaches
    rw [List.append_nil] at phase
    refine ⟨results, history, bounded phase.length_le, fun done => ?_, ?_⟩
    -- between two operations the token is in Redis, or the job has come to its end
    · cases phase.rest done with
      | inl kept =>
        obtain ⟨current, present, attempted, uncompleted, alive, unsuccessful⟩ := kept.shows
        refine ⟨current, present, attempted.retryCount, attempted.error,
          by simp [uncompleted, unsuccessful], fun dead => absurd dead alive, ?_⟩
        rw [if_neg (by simp [uncompleted, alive])]
        exact Paused.leads ⟨paused.reachable.extend reaches, done, phase, kept⟩
      | inr finished =>
        obtain ⟨current, present, attempted, final, completed, dead⟩ := finished.shows
        refine ⟨current, present, attempted.retryCount, attempted.error, completed, ?_, ?_⟩
        · rw [attempted.retryCount]
          exact dead
        · rw [if_pos final]
          exact phase.rests (paused.reachable.extend reaches) finished done
    · exact fun u ends jobErr last failed present alive => phase.scheduled ends failed present alive

/-- The row is that of a fresh job of a type and in a queue of the deployment. -/
def isFresh (maxRetries : Int) (row : JobRow) : Bool :=
  row.status = .pending ∧ row.retryCount.val = 0 ∧ row.error = "" ∧
    Cmd.mainConfig.registered row.type = true ∧ row.queue ∈ Cmd.mainConfig.queues ∧
    row.maxRetries.val = maxRetries

theorem fresh_of_isFresh {maxRetries : Int} {s : State}
    (evaluated : (s.world.row 1).any (isFresh maxRetries) = true)
    (token : stored Cmd.mainConfig s.world 1 = 1) :
    ∃ row, Fresh Cmd.mainConfig 1 row s.world ∧ row.maxRetries.val = maxRetries := by
  simp only [Option.any_eq_true, isFresh, decide_eq_true_eq] at evaluated
  obtain ⟨row, present, pending, untried, unfailed, registered, served, budget⟩ := evaluated
  exact ⟨row, ⟨present, pending, untried, unfailed, registered, served, token⟩, budget⟩

/-- A job with a time to run at dies at its first execution and is reset by `RetryJob`. -/
def resetRun : List Action :=
  [.begin (.createJob (some { Cmd.request with
      maxRetries := some 1, runAt := some "1970-01-01T00:00:00Z" })), .run 0 (.inserted 1), .run 0 .ok,
    .begin .processScheduledJobs, .run 1 .ok, .run 1 .ok, .run 1 .ok,
    .pop, .run 2 .ok, .run 2 .ok, .run 2 (.returned (some "boom")), .run 2 .ok,
    .begin (.retryJob (Cmd.mainConfig.uuid.string 1)), .run 3 .ok, .run 3 .ok, .run 3 .ok]

theorem resetRun_lifecycle : ∃ s row, (system Cmd.mainConfig).Reachable anyAction s ∧
    Fresh Cmd.mainConfig 1 row s.world ∧ row.runAt = some 0 ∧ row.maxRetries.val = 1 ∧
    (sequence Cmd.mainConfig).CanReach retryRun (fun t => ∃ n : Nat, (n : Int) ≤ 2 ∧
      executions 1 t.world = List.replicate n (some "boom") ++ executions 1 s.world ∧
      ∃ last, t.world.row 1 = some last ∧ (last.status = .completed ∨ last.status = .dead))
      (.idle s.world) := by
  have ⟨s, reachable, evaluated, token, timed⟩ : ∃ s, (system Cmd.mainConfig).Reachable anyAction s ∧
      (s.world.row 1).any (isFresh 1) = true ∧ stored Cmd.mainConfig s.world 1 = 1 ∧
      (s.world.row 1).map JobRow.runAt = some (some 0) :=
    Transition.System.exists_reachable_of_exec resetRun Cmd.initial_initialState (by decide +kernel)
  obtain ⟨row, fresh, once⟩ := fresh_of_isFresh evaluated token
  rw [fresh.present, Option.map_some, Option.some.injEq] at timed
  obtain ⟨t, reaches, _, n, bound, history, final⟩ :=
    (retry_lifecycle reachable fresh).1 fun _ => some "boom"
  refine ⟨s, row, reachable, fresh, timed, once, t, reaches, n, ?_, ?_, final⟩
  · rw [once] at bound
    exact bound
  · rw [history]
    simp [List.map_const']

/-! ## The budget -/

/-- The job is dead after `n` executions, all of which have failed. -/
def DiesAfter (id : Uuid) (w : World) (n : Nat) (t : Turn) : Prop :=
  ∃ results last, executions id t.world = results ++ executions id w ∧ none ∉ results ∧
    results.length = n ∧ t.world.row id = some last ∧ last.status = .dead

theorem Shows.not_dead {status : JobStatus → Prop} {last : JobRow}
    (shows : Shows cfg id m results status w) (alive : ¬ status .dead)
    (present : w.row id = some last) : last.status ≠ .dead := by
  obtain ⟨row, there, _, current⟩ := shows
  rw [present, Option.some.injEq] at there
  rintro dead
  exact alive (by rw [← dead, there]; exact current)

/-- A job that has only failed dies at the `m`-th execution, but not before the first. -/
theorem Phase.length_of_dead {last : JobRow} (phase : Phase cfg id m results w op)
    (failed : none ∉ results) (present : w.row id = some last) (dead : last.status = .dead) :
    (results.length : Int) = max 1 m := by
  have alive {results : List (Option String)} (shows : Shows cfg id m results underWay w) :
      last.status ≠ .dead := shows.not_dead (by simp [underWay]) present
  have going {results : List (Option String)} (shows : Shows cfg id m results (· = .running) w) :
      last.status ≠ .dead := shows.not_dead nofun present
  cases phase with
  | queued _ shows | batched _ shows | popped _ shows | fetched _ _ shows
  | rescheduling _ _ _ shows => exact absurd dead (alive shows)
  | executing _ _ shows | succeeded _ _ shows | failing _ _ shows => exact absurd dead (going shows)
  | @stopped _ prior _ _ _ live _ final _ =>
    obtain ⟨succeeded, _⟩ | ⟨_, _, exhausted⟩ := final
    · exact absurd (List.mem_of_head? succeeded) failed
    · rw [failures_eq_length failed] at exhausted
      have bound := live.length_le
      simp only [List.length_cons] at exhausted ⊢
      omega

/-- A job whose handler always fails is executed `m + 1` times before it is dead exactly when
`max_retries` is `0`. -/
theorem budget_iff {s : State} {row : JobRow} (reachable : (system cfg).Reachable anyAction s)
    (fresh : Fresh cfg id row s.world) (natural : 0 ≤ row.maxRetries.val) :
    ((sequence cfg).CanReach retryRun (fun t => ∃ n, DiesAfter id s.world n t) (.idle s.world) ∧
      ∀ t n, (sequence cfg).Reaches retryRun (.idle s.world) t → DiesAfter id s.world n t →
        (n : Int) = row.maxRetries.val + 1) ↔ row.maxRetries.val = 0 := by
  have paused := fresh.paused reachable
  have counted (t : Turn) (n : Nat) (reaches : (sequence cfg).Reaches retryRun (.idle s.world) t)
      (dies : DiesAfter id s.world n t) : (n : Int) = max 1 row.maxRetries.val := by
    obtain ⟨results, last, history, failed, rfl, present, dead⟩ := dies
    obtain ⟨added, grown, phase⟩ := paused.phase.of_reaches paused.reachable reaches
    rw [List.append_nil, List.append_cancel_right (grown.symm.trans history)] at phase
    exact phase.length_of_dead failed present dead
  -- with a handler that always fails the job comes to its end, and that end is `dead`
  have dies : (sequence cfg).CanReach retryRun (fun t => ∃ n, DiesAfter id s.world n t)
      (.idle s.world) := by
    obtain ⟨t, reaches, _, n, history, finished⟩ := paused.stops fun _ => some "error"
    have failed : none ∉ ((List.range n).map fun _ => some "error").reverse := by simp
    rw [List.append_nil] at finished
    obtain ⟨last, present, _, final, completed, _⟩ := finished.shows
    refine ⟨t, reaches, n, _, last, history, failed, by simp, present, final.resolve_left ?_⟩
    intro succeeded
    exact failed (List.mem_of_head? (completed.mp succeeded))
  constructor
  · rintro ⟨⟨t, reaches, n, dead⟩, exact⟩
    have first := counted t n reaches dead
    have second := exact t n reaches dead
    omega
  · intro zero
    refine ⟨dies, fun t n reaches dead => ?_⟩
    have := counted t n reaches dead
    omega

/-- A job with this many retries is created and pushed. -/
def createRun (maxRetries : Int) : List Action :=
  [.begin (.createJob (some { Cmd.request with maxRetries := some maxRetries })),
    .run 0 (.inserted 1), .run 0 .ok]

theorem createRun_zero_budget : ∃ s row, (system Cmd.mainConfig).Reachable anyAction s ∧
    Fresh Cmd.mainConfig 1 row s.world ∧ row.maxRetries.val = 0 ∧
    ∀ t n, (sequence Cmd.mainConfig).Reaches retryRun (.idle s.world) t →
      DiesAfter 1 s.world n t → (n : Int) = 1 := by
  have ⟨s, reachable, evaluated, token⟩ : ∃ s, (system Cmd.mainConfig).Reachable anyAction s ∧
      (s.world.row 1).any (isFresh 0) = true ∧ stored Cmd.mainConfig s.world 1 = 1 :=
    Transition.System.exists_reachable_of_exec (createRun 0) Cmd.initial_initialState (by decide +kernel)
  obtain ⟨row, fresh, zero⟩ := fresh_of_isFresh evaluated token
  have exact := ((budget_iff reachable fresh (by omega)).mpr zero).2
  rw [zero] at exact
  exact ⟨s, row, reachable, fresh, zero, exact⟩

/-- A job with one retry is dead after its first execution. -/
theorem createRun_one_unretried : ∃ s row t, (system Cmd.mainConfig).Reachable anyAction s ∧
    Fresh Cmd.mainConfig 1 row s.world ∧ row.maxRetries.val = 1 ∧
    (sequence Cmd.mainConfig).Reaches retryRun (.idle s.world) t ∧ DiesAfter 1 s.world 1 t := by
  have ⟨s, reachable, (evaluated : (s.world.row 1).any (isFresh 1) = true), token, dies⟩ :
      ∃ s, (system Cmd.mainConfig).Reachable anyAction s ∧
      (s.world.row 1).any (isFresh 1) = true ∧ stored Cmd.mainConfig s.world 1 = 1 ∧
      ((sequence Cmd.mainConfig).exec retryRun (.idle s.world)
        [.pop, .call .ok, .call .ok, .call (.returned (some "boom")), .call .ok]).any (fun t =>
          decide (executions 1 t.world = some "boom" :: executions 1 s.world) &&
            (t.world.row 1).any (fun last => decide (last.status = .dead))) = true :=
    Transition.System.exists_reachable_of_exec (createRun 1) Cmd.initial_initialState (by decide +kernel)
  obtain ⟨row, fresh, one⟩ := fresh_of_isFresh evaluated token
  simp only [Option.any_eq_true, Bool.and_eq_true, decide_eq_true_eq] at dies
  obtain ⟨t, executed, history, last, present, dead⟩ := dies
  exact ⟨s, row, t, reachable, fresh, one, Transition.System.reaches_of_exec executed,
    [some "boom"], last, history, by simp, rfl, present, dead⟩

end GoQueue.Verified
