import GoQueue.System.Telemetry
import GoQueue.Cmd.Main
import GoQueue.System.Soundness

/-! # What events and metrics account for

Handing an event to `PublishJobEvent`, counting a job and updating its row are separate statements,
any of which may stand alone: workers are interrupted between them, and several may run the same
job.  The counts nevertheless balance in every state of every run.  What has been called and not yet
reported is exactly what some worker has in its hands.

Each balance is one instance of `balance`: a quantity of the stores and the log that changes with a
step as the weight of the operation does that takes it.
-/

namespace GoQueue.Verified

variable {cfg : Config}

/-! ## What a step tells -/

/-- `processJob` was called and has not returned. -/
def busy : Op → Bool
  | .processJob .returned => false
  | .processJob _ => true
  | _ => false

/-- The handler is running, or has returned and `processJob` has not reported it. -/
def engaged : Op → Bool
  | .processJob (.executing _) | .processJob (.succeeded _) | .processJob (.failing _ _) => true
  | _ => false

/-- The events of the worker pool. -/
def workEvents : List String := ["job.running", "job.completed", "job.dead", "job.retrying"]

/-- The events of the API and the scheduler. -/
def otherEvents : List String :=
  ["job.cancelled", "job.retried", "job.enqueued", "job.stale_recovered"]

theorem not_mem_otherEvents : ∀ eventType ∈ workEvents, eventType ∉ otherEvents := by decide

/-- What does not report on the work on a job. -/
def bystander : Signal → Bool
  | .publish event => event.type ∈ otherEvents
  | .activeWorkersDec => true
  | .activeWorkersInc | .jobDuration _ | .jobsProcessed _ _ | .errorsTotal _ | .retriesTotal _ =>
    false

/-- The steps by what they tell. -/
inductive Tells (cfg : Config) (w : World) : Op → Effect → List Signal → Op → Prop where
  | starts {job} : Tells cfg w (.processJob (.fetched job)) (.setStatus job.id .running)
      [.publish (publishEvent cfg w.now "job.running" job)] (.processJob (.executing job))
  | returnsNil {job} : Tells cfg w (.processJob (.executing job)) (.record job.id none)
      [.jobDuration job.type, .jobsProcessed job.type "success"] (.processJob (.succeeded job))
  | returnsError {job jobErr} : Tells cfg w (.processJob (.executing job))
      (.record job.id (some jobErr))
      [.jobDuration job.type, .jobsProcessed job.type "failed", .errorsTotal job.type]
      (.processJob (.failing job jobErr))
  | completes {job e} : (w.apply e).calls = w.calls → Tells cfg w (.processJob (.succeeded job)) e
      [.publish (publishEvent cfg w.now "job.completed" job), .activeWorkersDec]
      (.processJob .returned)
  | dies {job jobErr e} : (w.apply e).calls = w.calls →
      Tells cfg w (.processJob (.failing job jobErr)) e
        [.publish (publishEvent cfg w.now "job.dead" job), .activeWorkersDec]
        (.processJob .returned)
  | retries {job jobErr e n} : (w.apply e).calls = w.calls →
      Tells cfg w (.processJob (.failing job jobErr)) e
        [.publish (publishEvent cfg w.now "job.retrying" job), .retriesTotal job.type]
        (.processJob (.rescheduling job n))
  | aside {op e signals op'} : (w.apply e).calls = w.calls → engaged op = false →
      engaged op' = false → (∀ signal ∈ signals, bystander signal = true) →
      (busy op).toNat = (busy op').toNat + signals.count .activeWorkersDec →
      Tells cfg w op e signals op'

theorem tells_of_processJob {w : World} {pc pc' : Worker.ProcessJob} {reply : Reply} {e : Effect}
    (step : Worker.ProcessJob.Step cfg w pc reply e pc') :
    Tells cfg w (.processJob pc) e
      (pc.signals cfg w.now reply ++ Op.deferred (.processJob pc')) (.processJob pc') := by
  cases step with
  | running => exact .starts
  | succeeded => exact .returnsNil
  | failed => exact .returnsError
  | completed | completedLost => exact .completes rfl
  | dead exhausted | deadLost exhausted =>
    simp only [Worker.ProcessJob.signals, ge_iff_le, exhausted, if_true]
    exact .dies rfl
  | retrying left | retryingLost left =>
    simp only [Worker.ProcessJob.signals, ge_iff_le, not_le.mpr left, if_false]
    exact .retries rfl
  | invalid | missing | unread | unhandled | unhandledLost | runningLost | rescheduled
  | rescheduledLost =>
    exact .aside rfl rfl rfl (by simp [Worker.ProcessJob.signals, Op.deferred, bystander]) rfl
  | fetched | noHandler =>
    exact .aside rfl rfl rfl (by simp [Worker.ProcessJob.signals, Op.deferred]) rfl

theorem tells_of_step {w : World} {op op' : Op} {reply : Reply} {e : Effect}
    (step : Op.Step cfg w op reply e op') :
    Tells cfg w op e (op.signals cfg w.now reply ++ op'.deferred) op' := by
  cases step with
  | processJob step => exact tells_of_processJob step
  | createJob step => cases step <;> exact .aside rfl rfl rfl nofun rfl
  | deleteJob step => cases step <;> exact .aside rfl rfl rfl nofun rfl
  | recoverUnqueuedJobs step => cases step <;> exact .aside rfl rfl rfl nofun rfl
  | cancelJob step =>
    cases step <;> refine .aside rfl rfl rfl ?_ rfl
    all_goals
      simp [Op.signals, Api.CancelJob.signals, Op.deferred, bystander, otherEvents, publishEvent]
  | retryJob step =>
    cases step <;> refine .aside rfl rfl rfl ?_ rfl
    all_goals simp [Op.signals, Api.RetryJob.signals, Op.deferred, bystander, otherEvents,
      publishEvent]
  | processScheduledJobs step =>
    cases step <;> refine .aside rfl rfl rfl ?_ ?_
    all_goals
      simp [Op.signals, Scheduler.ProcessScheduledJobs.signals, Op.deferred, bystander,
        otherEvents, publishEvent, busy, *]
  | recoverStaleJobs step =>
    cases step <;> refine .aside rfl rfl rfl ?_ rfl
    all_goals
      simp [Op.signals, Scheduler.RecoverStaleJobs.signals, Op.deferred, bystander, otherEvents,
        publishEvent]

/-! ## The rule -/

/-- A state of the system with its log. -/
abbrev Monitored (cfg : Config) (s : State) (log : List Signal) : Prop :=
  (monitored cfg).Reachable (fun p => anyAction p.1) (s, log)

theorem Monitored.reachable {s : State} {log : List Signal} (reached : Monitored cfg s log) :
    (system cfg).Reachable anyAction s :=
  Transition.System.Reachable.of_withHistory reached

/-- What has been `made` is what has been `told` and what the operations in question hold. -/
theorem balance (holds : Op → Bool) (made told : World → List Signal → Nat)
    (base : ∀ now, made (.empty now) [] = told (.empty now) [])
    (tick : ∀ w log (elapsed : Nat), made { w with now := w.now + elapsed } log = made w log ∧
      told { w with now := w.now + elapsed } log = told w log)
    (begin : ∀ task : Task, holds task.start = false)
    (pop : ∀ w redis log jobIDStr,
      made { w with redis := redis } (log ++ [.activeWorkersInc]) + told w log =
        made w log + told { w with redis := redis } (log ++ [.activeWorkersInc]) +
          (holds (.processJob (.popped jobIDStr))).toNat)
    (run : ∀ {s log op reply e signals op'}, Monitored cfg s log → op ∈ s.ops →
      Op.Step cfg s.world op reply e op' → Tells cfg s.world op e signals op' →
      made (s.world.apply e) (log ++ signals) + told s.world log + (holds op).toNat =
        made s.world log + (holds op').toNat + told (s.world.apply e) (log ++ signals))
    {s : State} {log : List Signal} (reached : Monitored cfg s log) :
    made s.world log = told s.world log + s.ops.countP holds := by
  refine reached.invariant
    (P := fun p => made p.1.world p.2 = told p.1.world p.2 + p.1.ops.countP holds) ?_ ?_
  · rintro ⟨s, log⟩ ⟨⟨now, rfl⟩, rfl⟩
    simpa using base now
  · rintro ⟨s, log⟩ a ⟨t, log'⟩ reached _ taken held
    replace taken := Transition.System.step_withHistory.mp taken
    obtain ⟨taken, rfl⟩ := taken
    cases a with
    | tick elapsed =>
      cases taken
      obtain ⟨made', told'⟩ := tick s.world log elapsed
      exact made'.trans (held.trans (by rw [← told']; rfl))
    | begin task =>
      cases taken
      simpa [signal, begin] using held
    | pop =>
      obtain ⟨⟨jobIDStr, redis⟩, -, rfl⟩ := Option.map_eq_some_iff.mp taken
      have popped := pop s.world redis log jobIDStr
      simp only [signal, List.countP_append, List.countP_singleton] at held ⊢
      cases mine : holds (.processJob (.popped jobIDStr)) <;> simp [mine] at popped ⊢ <;> omega
    | run i reply =>
      simp only [system, State.step, Option.bind_eq_bind, Option.bind_eq_some_iff,
        Option.some.injEq, Prod.exists] at taken
      obtain ⟨op, found, e, op', moves, rfl⟩ := taken
      rw [signal_run found moves]
      have step := Op.step_cases moves
      have moved := run reached (List.mem_of_getElem? found) step (tells_of_step step)
      have counted := List.countP_set_add holds found op'
      simp only at held ⊢
      omega

/-! ## Events -/

def reports (eventType jobID : String) : Signal → Bool
  | .publish event => event.type = eventType && event.jobID = jobID
  | _ => false

/-- How often an event of this type was handed to `PublishJobEvent` for the job. -/
def published (cfg : Config) (eventType : String) (id : Uuid) (log : List Signal) : Nat :=
  log.countP (reports eventType (cfg.uuid.string id))

/-- The calls of the job's handler that have returned. -/
def returnedCalls (id : Uuid) (w : World) : Nat := w.calls.countP fun call => call.1 = id

def nilCalls (id : Uuid) (w : World) : Nat :=
  w.calls.countP fun call => call.1 = id && call.2.isNone

def failedCalls (id : Uuid) (w : World) : Nat :=
  w.calls.countP fun call => call.1 = id && call.2.isSome

/-- The handler of the job is running. -/
def executing (id : Uuid) : Op → Bool
  | .processJob (.executing job) => job.id = id
  | _ => false

/-- The handler has returned nil, which is not reported yet. -/
def succeeding (id : Uuid) : Op → Bool
  | .processJob (.succeeded job) => job.id = id
  | _ => false

/-- The handler has returned an error, which is not reported yet. -/
def failing (id : Uuid) : Op → Bool
  | .processJob (.failing job _) => job.id = id
  | _ => false

theorem countP_bystanders {signals : List Signal}
    (stands : ∀ signal ∈ signals, bystander signal = true) {p : Signal → Bool}
    (apart : ∀ signal, p signal = true → bystander signal = false) : signals.countP p = 0 := by
  rw [List.countP_eq_zero]
  intro signal member counted
  have stand := stands signal member
  rw [apart signal counted] at stand
  cases stand

theorem count_bystanders {signals : List Signal}
    (stands : ∀ signal ∈ signals, bystander signal = true) {metric : Signal}
    (apart : bystander metric = false) : signals.count metric = 0 :=
  countP_bystanders stands fun _ same => beq_iff_eq.mp same ▸ apart

/-- The events about the work on a job are not those of a bystander. -/
theorem published_append_bystanders {eventType : String} {id : Uuid} {log signals : List Signal}
    (stands : ∀ signal ∈ signals, bystander signal = true)
    (work : eventType ∈ workEvents) :
    published cfg eventType id (log ++ signals) = published cfg eventType id log := by
  have silent : signals.countP (reports eventType (cfg.uuid.string id)) = 0 := by
    refine countP_bystanders stands fun signal reported => ?_
    cases signal <;> simp only [reports, Bool.false_eq_true] at reported
    case publish event =>
      simp only [Bool.and_eq_true, decide_eq_true_eq] at reported
      simpa [bystander, reported.1] using not_mem_otherEvents _ work
  rw [published, List.countP_append, silent]
  rfl

/-- Who is not engaged in a job does not hold it. -/
theorem not_held {id : Uuid} {op : Op} (idle : engaged op = false) :
    executing id op = false ∧ succeeding id op = false ∧ failing id op = false := by
  cases op with
  | processJob pc =>
    cases pc with
    | executing | succeeded | failing => cases idle
    | _ => exact ⟨rfl, rfl, rfl⟩
  | _ => exact ⟨rfl, rfl, rfl⟩

theorem running_balance {s : State} {log : List Signal} (reached : Monitored cfg s log)
    (id : Uuid) : published cfg "job.running" id log =
      returnedCalls id s.world + s.ops.countP (executing id) := by
  refine balance (executing id) (fun _ log => published cfg "job.running" id log)
    (fun w _ => returnedCalls id w) (fun _ => rfl) (fun _ _ _ => ⟨rfl, rfl⟩)
    (fun task => by cases task <;> rfl) ?_ ?_ reached
  · intro w redis log jobIDStr
    simp [published, reports, executing, returnedCalls]
  · intro s log op reply e signals op' _ _ _ tells
    cases tells with
    | @starts job =>
      by_cases same : job.id = id <;>
        simp [published, reports, publishEvent, executing, returnedCalls, World.calls_apply, same]
    | @returnsNil job | @returnsError job =>
      by_cases same : job.id = id <;>
        simp [published, reports, executing, returnedCalls, World.calls_apply, same]
      omega
    | completes same | dies same | retries same =>
      simp [published, reports, publishEvent, executing, returnedCalls, same]
    | aside same idle idle' stands =>
      rw [published_append_bystanders stands (by simp [workEvents]), (not_held idle).1,
        (not_held idle').1]
      simp [returnedCalls, same]

theorem completed_balance {s : State} {log : List Signal} (reached : Monitored cfg s log)
    (id : Uuid) : nilCalls id s.world =
      published cfg "job.completed" id log + s.ops.countP (succeeding id) := by
  refine balance (succeeding id) (fun w _ => nilCalls id w)
    (fun _ log => published cfg "job.completed" id log) (fun _ => rfl)
    (fun _ _ _ => ⟨rfl, rfl⟩) (fun task => by cases task <;> rfl) ?_ ?_ reached
  · intro w redis log jobIDStr
    simp [published, reports, succeeding, nilCalls]
  · intro s log op reply e signals op' _ _ _ tells
    cases tells with
    | @returnsNil job | @returnsError job =>
      by_cases same : job.id = id <;>
        simp [published, reports, succeeding, nilCalls, World.calls_apply, same]
    | @completes job _ same =>
      by_cases mine : job.id = id <;>
        simp [published, reports, publishEvent, succeeding, nilCalls, same, mine]
      omega
    | starts => simp [published, reports, publishEvent, succeeding, nilCalls, World.calls_apply]
    | dies same | retries same =>
      simp [published, reports, publishEvent, succeeding, nilCalls, same]
    | aside same idle idle' stands =>
      rw [published_append_bystanders stands (by simp [workEvents]), (not_held idle).2.1,
        (not_held idle').2.1]
      simp [nilCalls, same]

theorem failed_balance {s : State} {log : List Signal} (reached : Monitored cfg s log) (id : Uuid) :
    failedCalls id s.world = published cfg "job.dead" id log +
      published cfg "job.retrying" id log + s.ops.countP (failing id) := by
  refine balance (failing id) (fun w _ => failedCalls id w)
    (fun _ log => published cfg "job.dead" id log + published cfg "job.retrying" id log)
    (fun _ => rfl) (fun _ _ _ => ⟨rfl, rfl⟩) (fun task => by cases task <;> rfl) ?_ ?_ reached
  · intro w redis log jobIDStr
    simp [published, reports, failing, failedCalls]
  · intro s log op reply e signals op' _ _ _ tells
    cases tells with
    | @returnsNil job | @returnsError job =>
      by_cases same : job.id = id <;>
        simp [published, reports, failing, failedCalls, World.calls_apply, same]
    | @dies job _ _ same | @retries job _ _ _ same =>
      by_cases mine : job.id = id <;>
        simp [published, reports, publishEvent, failing, failedCalls, same, mine]
      omega
    | starts => simp [published, reports, publishEvent, failing, failedCalls, World.calls_apply]
    | completes same =>
      simp [published, reports, publishEvent, failing, failedCalls, same]
    | aside same idle idle' stands =>
      rw [published_append_bystanders stands (by simp [workEvents]),
        published_append_bystanders stands (by simp [workEvents]), (not_held idle).2.2,
        (not_held idle').2.2]
      simp [failedCalls, same]

/-! ## Metrics -/

theorem active_balance {s : State} {log : List Signal} (reached : Monitored cfg s log) :
    log.count .activeWorkersInc = log.count .activeWorkersDec + s.ops.countP busy := by
  refine balance busy (fun _ log => log.count .activeWorkersInc)
    (fun _ log => log.count .activeWorkersDec) (fun _ => rfl) (fun _ _ _ => ⟨rfl, rfl⟩)
    (fun task => by cases task <;> rfl) ?_ ?_ reached
  · intro w redis log jobIDStr
    simp [busy]
    omega
  · intro s log op reply e signals op' _ _ _ tells
    cases tells with
    | starts | returnsNil | returnsError | retries | completes | dies =>
      simp [busy]
      omega
    | aside _ _ _ stands count =>
      have none : signals.count .activeWorkersInc = 0 := count_bystanders stands rfl
      simp only [List.count_append, none]
      omega

/-- The calls that have returned so for jobs of a type. -/
def callsOfType (type : String) (ended : Option String → Bool) (w : World) : Nat :=
  w.calls.countP fun call => (w.origin call.1).map (·.type) = some type && ended call.2

/-- A handler is called for a job that was inserted. -/
theorem origin_of_record {w : World} {op op' : Op} {reply : Reply} {id : Uuid} {err : Option String}
    (step : Op.Step cfg w op reply (.record id err) op') (sound : op.Sound cfg w) :
    ∃ job : Job, job.id = id ∧ w.Knows id job.toJobRow ∧ op = .processJob (.executing job) := by
  cases step with
  | processJob step =>
    cases step with
    | @succeeded job | @failed job => exact ⟨job, rfl, sound, rfl⟩
  | createJob step | cancelJob step | retryJob step | deleteJob step | processScheduledJobs step
  | recoverUnqueuedJobs step | recoverStaleJobs step => cases step

theorem calls_known {s : State} (reachable : (system cfg).Reachable anyAction s) :
    ∀ call ∈ s.world.calls, ∃ origin, s.world.origin call.1 = some origin := by
  refine reachable.invariant
    (P := fun s => ∀ call ∈ s.world.calls, ∃ origin, s.world.origin call.1 = some origin) ?_ ?_
  · rintro _ ⟨now, rfl⟩ call member
    cases member
  · intro s a t reachable _ taken known
    cases a with
    | tick | begin => cases taken; exact known
    | pop =>
      obtain ⟨_, -, rfl⟩ := Option.map_eq_some_iff.mp taken
      exact known
    | run i reply =>
      obtain ⟨op, e, op', found, step, rfl⟩ := State.run_cases taken
      have sound := (reachable_sound reachable).ops op (List.mem_of_getElem? found)
      have grows : s.world.Grows (s.world.apply e) := World.grows_apply (step.effect_sound sound)
      have earlier : ∀ call ∈ s.world.calls, ∃ origin,
          (s.world.apply e).origin call.1 = some origin := fun call before =>
        (known call before).imp fun _ inserted => grows inserted
      cases e with
      | record id err =>
        intro call member
        obtain rfl | before := List.mem_cons.mp member
        · obtain ⟨job, rfl, ⟨origin, inserted, -⟩, -⟩ := origin_of_record step sound
          exact ⟨origin, grows inserted⟩
        · exact earlier call before
      | _ => exact earlier

/-- The type of a job that was inserted is what it was inserted with. -/
theorem callsOfType_grow {w w' : World} {type : String} {ended : Option String → Bool}
    (known : ∀ call ∈ w.calls, ∃ origin, w.origin call.1 = some origin) (grows : w.Grows w') :
    (w.calls.countP fun call => (w'.origin call.1).map (·.type) = some type && ended call.2) =
      callsOfType type ended w := by
  refine List.countP_congr fun call member => ?_
  obtain ⟨origin, inserted⟩ := known call member
  rw [inserted, grows inserted]

theorem callsOfType_record {w : World} {job : Job} (knows : w.Knows job.id job.toJobRow)
    {type : String} {ended : Option String → Bool} {err : Option String} :
    callsOfType type ended (w.apply (.record job.id err)) = callsOfType type ended w +
      if job.type = type ∧ ended err = true then 1 else 0 := by
  obtain ⟨origin, inserted, same⟩ := knows
  have recorded : (w.apply (.record job.id err)).calls = (job.id, err) :: w.calls := rfl
  have kept (id : Uuid) : (w.apply (.record job.id err)).origin id = w.origin id := rfl
  simp only [callsOfType, recorded, kept, List.countP_cons, inserted, Option.map_some,
    Option.some.injEq, same.type, Bool.and_eq_true, decide_eq_true_eq]

/-- The metrics that count calls. -/
def countsCalls : Signal → Bool
  | .jobDuration _ | .jobsProcessed _ _ | .errorsTotal _ => true
  | .publish _ | .activeWorkersInc | .activeWorkersDec | .retriesTotal _ => false

theorem calls_balance {type : String} {ended : Option String → Bool} {metric : Signal}
    (counts : countsCalls metric = true)
    (ofNil : ∀ jobType, [Signal.jobDuration jobType, .jobsProcessed jobType "success"].count metric =
      if jobType = type ∧ ended none = true then 1 else 0)
    (ofError : ∀ jobType jobErr,
      [Signal.jobDuration jobType, .jobsProcessed jobType "failed", .errorsTotal jobType].count metric =
        if jobType = type ∧ ended (some jobErr) = true then 1 else 0)
    {s : State} {log : List Signal} (reached : Monitored cfg s log) :
    log.count metric = callsOfType type ended s.world := by
  have silent (signals : List Signal) (others : ∀ signal ∈ signals, countsCalls signal = false) :
      signals.count metric = 0 := by
    rw [List.count_eq_zero]
    intro member
    rw [others metric member] at counts
    cases counts
  have balanced := balance (fun _ => false) (fun _ log => log.count metric)
    (fun w _ => callsOfType type ended w)
    (fun _ => rfl) (fun _ _ _ => ⟨rfl, rfl⟩) (fun _ => rfl) ?_ ?_ reached
  · simpa using balanced
  · intro w redis log jobIDStr
    have inc : [Signal.activeWorkersInc].count metric = 0 := silent _ (by simp [countsCalls])
    simp only [List.count_append, inc]
    rfl
  · intro s log op reply e signals op' reached member step tells
    have sound := (reachable_sound reached.reachable).ops op member
    have grows : s.world.Grows (s.world.apply e) := World.grows_apply (step.effect_sound sound)
    have unchanged (calls : (s.world.apply e).calls = s.world.calls) :
        callsOfType type ended (s.world.apply e) = callsOfType type ended s.world := by
      rw [callsOfType, calls, callsOfType_grow (calls_known reached.reachable) grows]
    simp only [List.count_append]
    cases tells with
    | starts =>
      rw [silent [_] (by simp [countsCalls]), unchanged rfl]
      rfl
    | @returnsNil job =>
      rw [ofNil, callsOfType_record sound]
      simp only [Bool.toNat_false]
      omega
    | @returnsError job jobErr =>
      rw [ofError _ jobErr, callsOfType_record sound]
      simp only [Bool.toNat_false]
      omega
    | completes calls | dies calls | retries calls =>
      rw [silent [_, _] (by simp [countsCalls]), unchanged calls]
      rfl
    | aside calls _ _ stands =>
      have apart : bystander metric = false := by cases metric <;> first | rfl | cases counts
      rw [count_bystanders stands apart, unchanged calls]
      rfl

/-! ## Retries -/

theorem event_known {w : World} {op op' : Op} {reply : Reply} {e : Effect}
    (step : Op.Step cfg w op reply e op') (sound : op.Sound cfg w) {event : JobEvent}
    (told : .publish event ∈ op.signals cfg w.now reply ++ op'.deferred) :
    w.NamesIn cfg event.queue event.jobID := by
  -- what is published is about the job the operation holds
  have about {eventType job} (knows : w.Knows job.id job.toJobRow)
      (published : event = publishEvent cfg w.now eventType job) :
      w.NamesIn cfg event.queue event.jobID := published ▸ knows.namesIn
  cases step with
  | createJob step => cases step <;> cases told
  | deleteJob step => cases step <;> cases told
  | recoverUnqueuedJobs step => cases step <;> cases told
  | cancelJob step =>
    cases step <;> simp [Op.signals, Api.CancelJob.signals, Op.deferred] at told
    exact about (sound.1 ▸ sound.2) told
  | retryJob step =>
    cases step <;> simp [Op.signals, Api.RetryJob.signals, Op.deferred] at told
    all_goals exact about (sound.1 ▸ sound.2) told
  | processJob step =>
    cases step <;> simp [Op.signals, Worker.ProcessJob.signals, Op.deferred, *] at told
    case retrying | retryingLost => split at told <;> simp at told <;> exact about sound told
    all_goals exact about sound told
  | processScheduledJobs step =>
    cases step <;> simp [Op.signals, Scheduler.ProcessScheduledJobs.signals, Op.deferred, *] at told
    all_goals exact about sound.1 told
  | recoverStaleJobs step =>
    cases step <;> simp [Op.signals, Scheduler.RecoverStaleJobs.signals, Op.deferred] at told
    all_goals exact about (sound _ List.mem_cons_self) told

theorem events_known {s : State} {log : List Signal} (reached : Monitored cfg s log) :
    ∀ event, .publish event ∈ log → s.world.NamesIn cfg event.queue event.jobID := by
  refine reached.invariant (P := fun p => ∀ event, .publish event ∈ p.2 →
    p.1.world.NamesIn cfg event.queue event.jobID) ?_ ?_
  · rintro ⟨s, log⟩ ⟨-, rfl⟩ event member
    cases member
  · rintro ⟨s, log⟩ a ⟨t, log'⟩ reached _ taken known event member
    replace taken := Transition.System.step_withHistory.mp taken
    obtain ⟨taken, rfl⟩ := taken
    cases a with
    | tick | begin =>
      cases taken
      exact known event member
    | pop =>
      obtain ⟨_, -, rfl⟩ := Option.map_eq_some_iff.mp taken
      exact known event (by simpa [signal] using member)
    | run i reply =>
      simp only [system, State.step, Option.bind_eq_bind, Option.bind_eq_some_iff,
        Option.some.injEq, Prod.exists] at taken
      obtain ⟨op, found, e, op', moves, rfl⟩ := taken
      have step := Op.step_cases moves
      have sound := (reachable_sound (Monitored.reachable reached)).ops op (List.mem_of_getElem? found)
      have grows : s.world.Grows (s.world.apply e) := World.grows_apply (step.effect_sound sound)
      rw [signal_run found moves] at member
      obtain earlier | now := List.mem_append.mp member
      · exact (known event earlier).grow grows
      · exact (event_known step sound now).grow grows

/-- The event that a job of a type is dead. -/
def diesOfType (cfg : Config) (type : String) (w : World) : Signal → Bool
  | .publish event => event.type = "job.dead" &&
    ((cfg.uuid.parse event.jobID).bind w.origin).map (·.type) = some type
  | _ => false

/-- The deaths of jobs of a type that were handed to `PublishJobEvent`. -/
def deathsOfType (cfg : Config) (type : String) (w : World) (log : List Signal) : Nat :=
  log.countP (diesOfType cfg type w)

/-- The handler of a job of this type has returned an error, which is not reported yet. -/
def failingOfType (type : String) : Op → Bool
  | .processJob (.failing job _) => job.type = type
  | _ => false

theorem not_failingOfType {type : String} {op : Op} (idle : engaged op = false) :
    failingOfType type op = false := by
  cases op with
  | processJob pc =>
    cases pc with
    | failing => cases idle
    | _ => rfl
  | _ => rfl

theorem deathsOfType_grow {w w' : World} {log : List Signal} {type : String}
    (known : ∀ event, .publish event ∈ log → w.NamesIn cfg event.queue event.jobID)
    (grows : w.Grows w') : deathsOfType cfg type w' log = deathsOfType cfg type w log := by
  refine List.countP_congr fun signal member => ?_
  cases signal with
  | publish event =>
    obtain ⟨id, origin, text, inserted, -⟩ := known event member
    simp only [diesOfType, text, cfg.uuid.parse_string, Option.bind_some, inserted, grows inserted]
  | _ => rfl

/-- An error is counted, and then the job is dead or is retried. -/
theorem errors_balance {s : State} {log : List Signal} (reached : Monitored cfg s log)
    (type : String) : log.count (.errorsTotal type) =
      log.count (.retriesTotal type) + deathsOfType cfg type s.world log +
        s.ops.countP (failingOfType type) := by
  refine balance (failingOfType type) (fun _ log => log.count (.errorsTotal type))
    (fun w log => log.count (.retriesTotal type) + deathsOfType cfg type w log)
    (fun _ => rfl) (fun _ _ _ => ⟨rfl, rfl⟩) (fun task => by cases task <;> rfl) ?_ ?_ reached
  · intro w redis log jobIDStr
    simp [deathsOfType, failingOfType]
    rfl
  · intro s log op reply e signals op' reached member step tells
    have sound := (reachable_sound reached.reachable).ops op member
    have grows : s.world.Grows (s.world.apply e) := World.grows_apply (step.effect_sound sound)
    have kept : deathsOfType cfg type _ log = _ := deathsOfType_grow (events_known reached) grows
    simp only [deathsOfType, List.count_append, List.countP_append] at kept ⊢
    rw [kept]
    cases tells with
    | starts | completes => simp [publishEvent, failingOfType, diesOfType]
    | returnsNil => simp [failingOfType, diesOfType]
    | @returnsError job =>
      by_cases same : job.type = type <;> simp [failingOfType, diesOfType, same]
    | @dies job =>
      obtain ⟨origin, inserted, version⟩ := sound
      by_cases same : job.type = type <;>
        simp [publishEvent, failingOfType, diesOfType, cfg.uuid.parse_string, grows inserted,
          version.type, same]
      omega
    | @retries job =>
      by_cases same : job.type = type <;>
        simp [publishEvent, failingOfType, diesOfType, same]
      omega
    | aside _ idle idle' stands =>
      have noDeath : signals.countP (diesOfType cfg type (s.world.apply e)) = 0 := by
        refine countP_bystanders stands fun signal dies => ?_
        cases signal <;> simp only [diesOfType, Bool.false_eq_true] at dies
        case publish event =>
          simp only [Bool.and_eq_true, decide_eq_true_eq] at dies
          simp [bystander, dies.1, otherEvents]
      rw [count_bystanders stands rfl, count_bystanders stands rfl, noDeath,
        not_failingOfType idle, not_failingOfType idle']
      omega

/-! ## The accounts -/

/-- Events are about jobs that were inserted and carry their queue.  A handler call is announced
once before and once after, by an event that depends on how it has returned, except while a worker
is between the call and the event.  Whether `PublishJobEvent` succeeds is left open. -/
theorem events_account {s : State} {log : List Signal} (reached : Monitored cfg s log) :
    (∀ event, .publish event ∈ log → s.world.NamesIn cfg event.queue event.jobID) ∧
    ∀ id,
      published cfg "job.running" id log = returnedCalls id s.world + s.ops.countP (executing id) ∧
      nilCalls id s.world = published cfg "job.completed" id log + s.ops.countP (succeeding id) ∧
      failedCalls id s.world = published cfg "job.dead" id log +
        published cfg "job.retrying" id log + s.ops.countP (failing id) :=
  ⟨events_known reached, fun id =>
    ⟨running_balance reached id, completed_balance reached id, failed_balance reached id⟩⟩

/-- A job fails once and is retried, and its second execution has just returned an error. -/
def failingRun : List Action :=
  [.begin (.createJob (some Cmd.request)), .run 0 (.inserted 1), .run 0 .ok,
    .pop, .run 1 .ok, .run 1 .ok, .run 1 (.returned (some "boom")), .run 1 .ok, .run 1 .ok,
    .tick 10000000000, .begin .processScheduledJobs, .run 2 .ok, .run 2 .ok, .run 2 .ok, .run 2 .ok,
    .pop, .run 3 .ok, .run 3 .ok, .run 3 (.returned (some "boom"))]

theorem initial_monitored : (monitored Cmd.mainConfig).initial (Cmd.initialState, []) :=
  ⟨Cmd.initial_initialState, rfl⟩

theorem events_account_failing : ∃ s log, Monitored Cmd.mainConfig s log ∧
    published Cmd.mainConfig "job.running" 1 log = 2 ∧
    2 = published Cmd.mainConfig "job.dead" 1 log +
      published Cmd.mainConfig "job.retrying" 1 log + s.ops.countP (failing 1) := by
  have ⟨⟨s, log⟩, reached, announced, failed⟩ : ∃ p, (monitored Cmd.mainConfig).Reachable
      (fun p => anyAction p.1) p ∧ published Cmd.mainConfig "job.running" 1 p.2 = 2 ∧
        failedCalls 1 p.1.world = 2 :=
    Transition.System.exists_reachable_of_exec failingRun initial_monitored (by decide +kernel)
  exact ⟨s, log, reached, announced, failed ▸ ((events_account reached).2 1).2.2⟩

/-- The gauge is the number of calls of `processJob` that have not returned.  The counters of a job
type are the numbers of its handler calls, and each error has led to a retry, to a death or is
in the hands of a worker. -/
theorem metrics_account {s : State} {log : List Signal} (reached : Monitored cfg s log) :
    log.count .activeWorkersInc = log.count .activeWorkersDec + s.ops.countP busy ∧
    ∀ type,
      log.count (.jobDuration type) = callsOfType type (fun _ => true) s.world ∧
      log.count (.jobsProcessed type "success") = callsOfType type Option.isNone s.world ∧
      log.count (.jobsProcessed type "failed") = callsOfType type Option.isSome s.world ∧
      log.count (.errorsTotal type) = callsOfType type Option.isSome s.world ∧
      log.count (.errorsTotal type) = log.count (.retriesTotal type) +
        deathsOfType cfg type s.world log + s.ops.countP (failingOfType type) := by
  refine ⟨active_balance reached, fun type => ⟨?_, ?_, ?_, ?_, errors_balance reached type⟩⟩
  all_goals
    refine calls_balance rfl (fun jobType => ?_) (fun jobType jobErr => ?_) reached <;>
      by_cases same : jobType = type <;> simp [same]

theorem metrics_account_failing : ∃ s log, Monitored Cmd.mainConfig s log ∧
    s.ops.countP busy = 1 ∧ log.count (.errorsTotal "process") = 2 ∧
    log.count .activeWorkersInc = log.count .activeWorkersDec + 1 ∧
    2 = log.count (.retriesTotal "process") + deathsOfType Cmd.mainConfig "process" s.world log +
      s.ops.countP (failingOfType "process") := by
  have ⟨⟨s, log⟩, reached, one, two⟩ : ∃ p, (monitored Cmd.mainConfig).Reachable
      (fun p => anyAction p.1) p ∧ p.1.ops.countP busy = 1 ∧
        p.2.count (.errorsTotal "process") = 2 :=
    Transition.System.exists_reachable_of_exec failingRun initial_monitored (by decide +kernel)
  have account := metrics_account reached
  exact ⟨s, log, reached, one, two, one ▸ account.1, two ▸ (account.2 "process").2.2.2.2⟩

end GoQueue.Verified
