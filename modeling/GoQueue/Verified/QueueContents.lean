import GoQueue.System.Soundness
import GoQueue.Cmd.Main

/-! # What is in Redis

The members of the work queues and of the schedule are texts of identifiers of jobs that
`CreateJob` inserted (`reachable_sound`).  So the branches of the worker and of the scheduler for
an identifier that does not parse are dead code, and their `GetJob` fails to find a row only for
a job that `DeleteJob` has removed.

A list holds jobs of its own queue as long as no request names a queue that the table cuts:
`CreateJob` pushes to the queue of the request, everything else to the queue of the row.
-/

namespace GoQueue

namespace Queue

/-- No queue name reaches the key of the schedule. -/
theorem queueKey_ne_scheduledSetKey (queue : String) : queueKey queue ≠ scheduledSetKey := by
  intro equal
  have characters := congrArg String.toList equal
  simp [queueKey, scheduledSetKey] at characters

end Queue

namespace Verified

variable {cfg : Config} {s t : State} {id : Uuid}

/-- The operation parses this text next and reads the row with the result. -/
def ReadsNext (jobIDStr : String) (op : Op) : Prop :=
  op = .processJob (.popped jobIDStr) ∨
    ∃ rest, op = .processScheduledJobs (.releasing (jobIDStr :: rest))

/-- A `DeleteJob` request has removed the job earlier in the run. -/
def Deleted (cfg : Config) (id : Uuid) (s : State) : Prop :=
  ∃ before after i idParam row, (system cfg).Reachable anyAction before ∧
    before.ops[i]? = some (.deleteJob (.received idParam)) ∧ cfg.uuid.parse idParam = some id ∧
    before.world.row id = some row ∧ row.status = .dead ∧
    before.step cfg (.run i .ok) = some after ∧ after.world.row id = none ∧
    (system cfg).Reaches anyAction after s

/-- The job was inserted and has no row. -/
def Missing (id : Uuid) (w : World) : Prop :=
  (w.origin id).isSome = true ∧ w.row id = none

/-- Only a `DeleteJob` request makes a job go missing. -/
theorem deleted_of_step {w : World} {op op' : Op} {reply : Reply} {e : Effect}
    (step : Op.Step cfg w op reply e op') (was : ¬ Missing id w) (now : Missing id (w.apply e)) :
    ∃ idParam row, op = .deleteJob (.received idParam) ∧ reply = .ok ∧
      cfg.uuid.parse idParam = some id ∧ w.row id = some row ∧ row.status = .dead := by
  obtain ⟨inserted, absent⟩ := now
  rw [World.origin_apply] at inserted
  rw [World.row_apply] at absent
  cases e with
  | insert id' row =>
    simp only [Effect.onRow] at absent
    split at absent
    · cases absent
    case isFalse other =>
      simp only [if_neg other] at inserted
      exact absurd ⟨inserted, absent⟩ was
  | setStatus id' status | setError id' status _ _ =>
    simp only [Effect.onRow] at absent
    split at absent
    · exact absurd ⟨inserted, Option.map_eq_none_iff.mp absent⟩ was
    · exact absurd ⟨inserted, absent⟩ was
  | delete id' =>
    simp only [Effect.onRow] at absent
    split at absent
    case isTrue same =>
      subst same
      cases step with
      | deleteJob step =>
        cases step with
        | @deleted idParam _ row parsed present dead =>
          exact ⟨idParam, row, rfl, rfl, parsed, present, dead⟩
      | createJob step | cancelJob step | retryJob step | processJob step
      | processScheduledJobs step | recoverUnqueuedJobs step | recoverStaleJobs step => cases step
    case isFalse => exact absurd ⟨inserted, absent⟩ was
  | none | push _ _ | schedule _ _ | takeDue | record _ _ => exact absurd ⟨inserted, absent⟩ was

theorem deleted_of_missing (reachable : (system cfg).Reachable anyAction s)
    (missing : Missing id s.world) : Deleted cfg id s := by
  have none_at_start {s : State} (start : (system cfg).initial s) : ¬ Missing id s.world := by
    obtain ⟨now, rfl⟩ := start
    rintro ⟨inserted, _⟩
    cases inserted
  obtain ⟨before, a, after, reached, _, taken, was, now, rest⟩ :=
    reachable.exists_turn (P := fun s => Missing id s.world) none_at_start missing
  cases a with
  | tick elapsed =>
    cases taken
    exact absurd now was
  | begin task =>
    cases taken
    exact absurd now was
  | pop =>
    obtain ⟨⟨jobIDStr, redis⟩, _, rfl⟩ := Option.map_eq_some_iff.mp taken
    exact absurd now was
  | run i reply =>
    obtain ⟨op, e, op', found, inner, rfl⟩ := State.run_cases taken
    obtain ⟨idParam, row, rfl, rfl, parsed, present, dead⟩ := deleted_of_step inner was now
    exact ⟨before, _, i, idParam, row, reached, found, parsed, present, dead, taken, now.2,
      rest.mono fun _ _ held => held.1⟩

/-- An operation that is about to read a row has the text of an identifier that was inserted. -/
theorem names_of_readsNext (sound : s.Sound cfg) {op : Op} (running : op ∈ s.ops) {jobIDStr : String}
    (reads : ReadsNext jobIDStr op) : s.world.Names cfg jobIDStr := by
  have held := sound.ops op running
  obtain rfl | ⟨rest, rfl⟩ := reads
  · exact held
  · exact held jobIDStr List.mem_cons_self

/-! ## Lists of other queues -/

/-- Every list holds jobs of its own queue. -/
def OwnQueues (cfg : Config) (s : State) : Prop :=
  ∀ queue, ∀ member ∈ Queue.contents queue s.world.redis, ∃ id origin,
    member = cfg.uuid.string id ∧ s.world.origin id = some origin ∧ origin.queue = queue ∧
    ∀ row, s.world.row id = some row → row.queue = queue

/-- The name of every list that has a member fits the column. -/
def ShortLists (w : World) : Prop :=
  ∀ queue, Queue.contents queue w.redis ≠ [] → queue.length ≤ 255

theorem ownQueues_iff (sound : s.Sound cfg) : OwnQueues cfg s ↔ ShortLists s.world := by
  constructor
  · intro own queue listed
    obtain ⟨member, held⟩ := List.exists_mem_of_ne_nil _ listed
    obtain ⟨_, origin, _, _, rfl, _⟩ := own queue member held
    exact origin.named.1
  · intro short queue member held
    obtain ⟨stored, kept, names⟩ := sound.world.contents held
    rw [Storage.varchar_of_length_le (short queue (List.ne_nil_of_mem held))] at kept
    cases kept
    have ⟨id, origin, text, inserted, queued⟩ := names
    subst text
    exact ⟨id, origin, rfl, inserted, queued,
      fun row present => names.queue_eq (sound.world.rows present)⟩

/-- No request begins that names a queue which the table would cut. -/
def uncut (_ : State) : Action → Prop
  | .begin (.createJob (some req)) => req.queue.length ≤ 255
  | _ => True

instance (s : State) (a : Action) : Decidable (uncut s a) := by
  unfold uncut
  split <;> infer_instance

/-- The queue that a request in hand names is not cut. -/
def Uncut : Op → Prop
  | .createJob (.received (some req)) => req.queue.length ≤ 255
  | .createJob (.created job _) => job.queue.length ≤ 255
  | _ => True

theorem uncut_of_step {w : World} {op op' : Op} {reply : Reply} {e : Effect}
    (step : Op.Step cfg w op reply e op') (held : Uncut op) : Uncut op' := by
  cases step with
  | createJob step =>
    cases step with
    | @inserted body job _ _ prepared _ _ =>
      obtain ⟨req, rfl, queue⟩ := Api.prepare_queue prepared
      exact (congrArg (String.length · ≤ 255) queue).mpr held
    | _ => trivial
  | cancelJob _ | retryJob _ | deleteJob _ | processJob _ | processScheduledJobs _
  | recoverUnqueuedJobs _ | recoverStaleJobs _ => trivial

/-- Whatever is pushed to is the queue of a row, or of a request. -/
theorem pushes_short {w : World} {op op' : Op} {reply : Reply} {queue jobID : String}
    (step : Op.Step cfg w op reply (.push queue jobID) op') (held : Uncut op) :
    queue.length ≤ 255 := by
  cases step with
  | createJob step =>
    cases step with
    | pushed _ => exact held
  | retryJob step =>
    cases step with
    | @pushed _ job => exact job.named.1
  | processScheduledJobs step =>
    cases step with
    | @pushedRetrying job _ _ _ | @pushed job _ _ _ => exact job.named.1
  | recoverUnqueuedJobs step =>
    cases step with
    | @pushed job _ => exact job.named.1
  | cancelJob step | deleteJob step | processJob step | recoverStaleJobs step => cases step

theorem ShortLists.apply {w : World} {e : Effect} (short : ShortLists w)
    (pushed : ∀ queue jobID, e = .push queue jobID → queue.length ≤ 255) :
    ShortLists (w.apply e) := by
  intro queue listed
  obtain ⟨member, held⟩ := List.exists_mem_of_ne_nil _ listed
  obtain rfl | before := World.mem_contents_apply.mp held
  · exact pushed queue member rfl
  · exact short queue (List.ne_nil_of_mem before)

theorem reachable_shortLists (reachable : (system cfg).Reachable uncut s) : ShortLists s.world := by
  have invariant := reachable.invariant
    (P := fun s => ShortLists s.world ∧ ∀ (i : Nat) op, s.ops[i]? = some op → Uncut op) ?_ ?_
  · exact invariant.1
  · rintro s ⟨now, rfl⟩
    exact ⟨fun queue listed => absurd rfl listed, fun i op running => by cases running⟩
  · rintro s a t - allowed taken ⟨short, ops⟩
    refine (State.step_cases taken).pointwise (P := fun _ _ op => Uncut op) short ops ?tick ?begin
      ?pop ?run
    case tick => exact fun _ => ⟨short, fun _ _ held => held⟩
    case begin =>
      rintro task rfl
      cases task with
      | createJob body =>
        cases body with
        | none => trivial
        | some req => exact allowed
      | _ => trivial
    case pop =>
      intro queue jobIDStr redis popped
      refine ⟨fun queue' listed => short queue' fun empty => ?_, trivial, fun _ _ held => held⟩
      by_cases same : queue' = queue
      · subst same
        simp [popped.last] at empty
      · exact listed ((popped.others queue' same).trans empty)
    case run =>
      intro i op reply e op' _ found inner
      refine ⟨short.apply fun queue jobID pushes => ?_, uncut_of_step inner (ops i op found),
        fun _ _ _ _ held => held⟩
      subst pushes
      exact pushes_short inner (ops i op found)

/-- In every state the system can reach, under any interleaving and with any calls failing, the
members of Redis name jobs that were inserted, the keys are apart, and what a worker or a pass
reads next parses and is missing only if it was deleted.  The lists hold jobs of their own queues
exactly if the name of every list fits the column, which it does in a run whose requests name
queues that fit. -/
theorem redis_wellFormed (reachable : (system cfg).Reachable anyAction s) :
    (∀ queue, ∀ member ∈ Queue.contents queue s.world.redis, ∃ id origin,
      member = cfg.uuid.string id ∧ s.world.origin id = some origin) ∧
    (∀ member, member ∈ Queue.scheduled s.world.redis → ∃ id origin,
      member = cfg.uuid.string id ∧ s.world.origin id = some origin) ∧
    (OwnQueues cfg s ↔ ∀ queue, Queue.contents queue s.world.redis ≠ [] → queue.length ≤ 255) ∧
    ((system cfg).Reachable uncut s → OwnQueues cfg s) ∧
    (∀ queue, Queue.queueKey queue ≠ Queue.scheduledSetKey) ∧
    (∀ queue queue', Queue.queueKey queue = Queue.queueKey queue' → queue = queue') ∧
    ∀ op ∈ s.ops, ∀ jobIDStr, ReadsNext jobIDStr op →
      ∃ id, cfg.uuid.parse jobIDStr = some id ∧ (s.world.row id = none → Deleted cfg id s) := by
  have sound := reachable_sound reachable
  refine ⟨fun queue member held => (sound.world.contents held).names,
    fun member held => sound.world.scheduled held, ownQueues_iff sound,
    fun short => (ownQueues_iff sound).mpr (reachable_shortLists short),
    Queue.queueKey_ne_scheduledSetKey, fun queue queue' => Queue.queueKey_injective, ?_⟩
  intro op running jobIDStr reads
  obtain ⟨id, origin, rfl, inserted⟩ := names_of_readsNext sound running reads
  refine ⟨id, cfg.uuid.parse_string id, fun absent => ?_⟩
  exact deleted_of_missing reachable ⟨by simp [inserted], absent⟩

/-- Two retries of a dead job put its identifier into the list twice.  The first delivery kills the
job again, it is deleted, and then the second one is popped. -/
def deletedRun : List Action :=
  [.begin (.createJob (some { Cmd.request with maxRetries := some 1 })), .run 0 (.inserted 1),
    .run 0 .ok, .pop, .run 1 .ok, .run 1 .ok, .run 1 (.returned (some "boom")), .run 1 .ok,
    .begin (.retryJob (Cmd.mainConfig.uuid.string 1)), .run 2 .ok,
    .begin (.retryJob (Cmd.mainConfig.uuid.string 1)), .run 3 .ok,
    .run 2 .ok, .run 2 .ok, .run 3 .ok, .run 3 .ok,
    .pop, .run 4 .ok, .run 4 .ok, .run 4 (.returned (some "boom")), .run 4 .ok,
    .begin (.deleteJob (Cmd.mainConfig.uuid.string 1)), .run 5 .ok, .pop]

theorem deletedRun_wellFormed : ∃ s jobIDStr, (system Cmd.mainConfig).Reachable uncut s ∧
    OwnQueues Cmd.mainConfig s ∧ s.ops[6]? = some (.processJob (.popped jobIDStr)) ∧
    ∃ id, Cmd.mainConfig.uuid.parse jobIDStr = some id ∧ s.world.row id = none ∧
      Deleted Cmd.mainConfig id s := by
  have ⟨s, reachable, popped, absent⟩ : ∃ s, (system Cmd.mainConfig).Reachable uncut s ∧
      s.ops[6]? = some (.processJob (.popped (Cmd.mainConfig.uuid.string 1))) ∧
      s.world.row 1 = none :=
    Transition.System.exists_reachable_of_exec deletedRun Cmd.initial_initialState (by decide)
  obtain ⟨_, _, _, own, _, _, readable⟩ := redis_wellFormed (reachable.mono fun _ _ _ => trivial)
  refine ⟨s, _, reachable, own reachable, popped, ?_⟩
  obtain ⟨id, parsed, deleted⟩ := readable _ (List.mem_of_getElem? popped) _ (.inl rfl)
  rw [Cmd.mainConfig.uuid.parse_string] at parsed
  cases parsed
  exact ⟨1, Cmd.mainConfig.uuid.parse_string 1, absent, deleted absent⟩

/-- A request for a queue whose name is too long, but is stored: the row gets the name that was cut,
the identifier goes to the list of the whole name. -/
theorem misplaced_of_cut {name stored : String} (cut : Storage.varchar 255 name = some stored)
    (long : 255 < name.length) : ∃ s row, (system Cmd.mainConfig).Reachable faultFree s ∧
    s.world.row 1 = some row ∧ row.queue = stored ∧
    Queue.contents name s.world.redis = [Cmd.mainConfig.uuid.string 1] ∧
    Queue.contents row.queue s.world.redis = [] := by
  let req : Api.CreateJobRequest := { Cmd.request with queue := name }
  let job : Storage.NewJob := ⟨name, "process", "\x7b\x7d", .pending, 3, none⟩
  have named : name ≠ "" := by
    rintro rfl
    simp at long
  have prepared : Api.prepare (some req) = .ok job := by
    simp [Api.prepare, req, Cmd.request, named, job]
  have fits : -2 ^ 31 ≤ (3 : Int) ∧ (3 : Int) < 2 ^ 31 := by decide
  have process : "process".length ≤ 255 := by decide
  obtain ⟨row, created⟩ : ∃ row, Storage.createJob 0 job = some row :=
    Storage.exists_createJob 0 fits cut (Storage.varchar_of_length_le process)
  obtain rfl : row.queue = stored :=
    Option.some.inj ((Storage.created_of_createJob created).queue.symm.trans cut)
  have apart : row.queue ≠ name := by
    intro same
    have bound := row.named.1
    rw [same] at bound
    omega
  have inserts : Op.step Cmd.mainConfig (World.empty 0) (.createJob (.received (some req)))
      (.inserted 1) =
      some (.insert 1 row, .createJob (.created job (Storage.scanJob 1 row))) := by
    simp [Op.step, Api.CreateJob.step, prepared, created, World.origin, World.empty]
  have pushes : Op.step Cmd.mainConfig ((World.empty 0).apply (.insert 1 row))
      (.createJob (.created job (Storage.scanJob 1 row))) .ok =
      some (.push name (Cmd.mainConfig.uuid.string 1),
        .createJob (.responded ⟨201, .job (Storage.scanJob 1 row)⟩)) := rfl
  have begun : (system Cmd.mainConfig).Reachable faultFree
      ⟨World.empty 0, [.createJob (.received (some req))]⟩ :=
    ⟨_, Cmd.initial_initialState,
      (Transition.System.Reaches.refl _).step (a := .begin (.createJob (some req))) rfl rfl⟩
  have written : (system Cmd.mainConfig).Reachable faultFree
      ⟨(World.empty 0).apply (.insert 1 row), [.createJob (.created job (Storage.scanJob 1 row))]⟩ :=
    begun.step (a := .run 0 (.inserted 1)) rfl (State.step_run (i := 0) rfl inserts)
  have answered : (system Cmd.mainConfig).Reachable faultFree
      ⟨((World.empty 0).apply (.insert 1 row)).apply (.push name (Cmd.mainConfig.uuid.string 1)),
        [.createJob (.responded ⟨201, .job (Storage.scanJob 1 row)⟩)]⟩ :=
    written.step (a := .run 0 .ok) rfl (State.step_run (i := 0) rfl pushes)
  refine ⟨_, row, answered, ?_, rfl, ?_, ?_⟩
  · simp [World.row_apply, Effect.onRow]
  · rw [World.redis_apply, Queue.contents_push, if_pos rfl]
    rfl
  · rw [World.redis_apply, Queue.contents_push, if_neg apart]
    rfl

/-- A name that fills its column, with a space behind it. -/
def longName : String := .ofList (List.replicate 255 'q') ++ " "

theorem longName_misplaced : ∃ s row, (system Cmd.mainConfig).Reachable faultFree s ∧
    s.world.row 1 = some row ∧ row.queue = .ofList (List.replicate 255 'q') ∧
    Queue.contents longName s.world.redis = [Cmd.mainConfig.uuid.string 1] ∧
    Queue.contents row.queue s.world.redis = [] ∧ ¬ OwnQueues Cmd.mainConfig s := by
  have full : (String.ofList (List.replicate 255 'q')).length = 255 := by
    rw [String.length_ofList, List.length_replicate]
  have space : " ".length = 1 := by decide
  have long : longName.length = 255 + 1 := by
    unfold longName
    rw [String.length_append, full, space]
  have cut : Storage.varchar 255 longName = some _ := Storage.varchar_append full (by decide)
  obtain ⟨s, row, reachable, present, queue, pushed, empty⟩ := misplaced_of_cut cut (by omega)
  refine ⟨s, row, reachable, present, queue, pushed, empty, fun own => ?_⟩
  have short := (ownQueues_iff (reachable_sound reachable)).mp own longName (by simp [pushed])
  omega

end Verified

end GoQueue
