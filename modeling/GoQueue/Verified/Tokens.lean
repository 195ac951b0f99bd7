import GoQueue.System.Soundness
import GoQueue.Cmd.Main
import Mathlib.Algebra.BigOperators.Group.List.Basic
import Mathlib.Algebra.Order.BigOperators.Group.List

/-! # Delivery tokens

A delivery token is one occurrence of a job's identifier that can still lead to its handler
being called: in a list, in the schedule, in the unhandled part of a batch, with a worker
that popped it, or with a request that wrote the row and pushes next.  A step moves a token
or drops it; only an insertion and the reset of a row by `RetryJob` make one, and the
recovery pass pushes without taking one from anywhere.
-/

namespace GoQueue.Verified

/-- The tokens for a job in an operation's hands. -/
def inHand (cfg : Config) (id : Uuid) : Op → Nat
  | .createJob (.created _ stored) => if stored.id = id then 1 else 0
  | .retryJob (.updated id' _) => if id' = id then 1 else 0
  | .processJob (.popped jobIDStr) => if jobIDStr = cfg.uuid.string id then 1 else 0
  | .processJob (.noHandler job) | .processJob (.fetched job) | .processJob (.executing job)
  | .processJob (.succeeded job) | .processJob (.failing job _)
  | .processJob (.rescheduling job _) => if job.id = id then 1 else 0
  | .processScheduledJobs (.releasing dueJobIDs) => dueJobIDs.count (cfg.uuid.string id)
  | .processScheduledJobs (.fetched _ jobIDStr rest) =>
    (jobIDStr :: rest).count (cfg.uuid.string id)
  | .processScheduledJobs (.pushed _ rest) => rest.count (cfg.uuid.string id)
  | _ => 0

/-- The tokens for a job in Redis. -/
def stored (cfg : Config) (w : World) (id : Uuid) : Nat :=
  w.redis.occurrences (cfg.uuid.string id) +
    (Queue.scheduled w.redis).members.count (cfg.uuid.string id)

/-- The tokens for a job in the schedule. -/
def due (cfg : Config) (w : World) (id : Uuid) : Nat :=
  (Queue.scheduled w.redis).members.count (cfg.uuid.string id)

/-- All tokens for a job. -/
def tokens (cfg : Config) (s : State) (id : Uuid) : Nat :=
  stored cfg s.world id + (s.ops.map (inHand cfg id)).sum

/-- The tokens for a job that an effect makes: the row is new, or reset for another try. -/
def minted (id : Uuid) : Effect → Nat
  | .insert id' _ => if id' = id then 1 else 0
  | .setError id' .pending _ _ => if id' = id then 1 else 0
  | _ => 0

/-- The operation is not the recovery pass, which pushes without taking a token. -/
def takesToken : Op → Bool
  | .recoverUnqueuedJobs _ => false
  | _ => true

/-! ## Redis -/

variable (cfg : Config) (w : World) (id : Uuid)

theorem stored_eq : stored cfg w id = w.redis.occurrences (cfg.uuid.string id) + due cfg w id := rfl

theorem stored_push (queue : String) (id' : Uuid) :
    stored cfg (w.apply (.push queue (cfg.uuid.string id'))) id =
      stored cfg w id + if id' = id then 1 else 0 := by
  simp only [stored, World.redis_apply, Queue.push, Queue.scheduled, Keyspace.zset_lpush,
    Keyspace.occurrences_lpush, UuidCodec.string_inj]
  omega

/-- The schedule holds an identifier at most once, so scheduling may merge two tokens. -/
theorem due_schedule (id' : Uuid) (runAt : Time) :
    due cfg (w.apply (.schedule (cfg.uuid.string id') runAt)) id ≤
      due cfg w id + if id' = id then 1 else 0 := by
  simp only [due, World.redis_apply, Queue.scheduled_schedule]
  by_cases same : id' = id
  · subst same
    rw [SortedSet.count_zadd_self, if_pos rfl]
    omega
  · rw [SortedSet.count_zadd_ne (by simpa using Ne.symm same), if_neg same]
    omega

theorem due_takeDue :
    due cfg (w.apply .takeDue) id +
      (Queue.getDueJobs w.now w.redis).1.count (cfg.uuid.string id) = due cfg w id := by
  have split := SortedSet.count_rangeByScore w.now.unix (cfg.uuid.string id)
    (Queue.scheduled w.redis)
  simp only [due, World.redis_apply, Queue.scheduled_getDueJobs]
  show _ + ((Queue.scheduled w.redis).rangeByScore w.now.unix).count _ = _
  omega

theorem stored_schedule (id' : Uuid) (runAt : Time) :
    stored cfg (w.apply (.schedule (cfg.uuid.string id') runAt)) id ≤
      stored cfg w id + if id' = id then 1 else 0 := by
  have bound := due_schedule cfg w id id' runAt
  have lists : (Queue.schedule (cfg.uuid.string id') runAt w.redis).occurrences (cfg.uuid.string id) =
      w.redis.occurrences (cfg.uuid.string id) := rfl
  rw [stored_eq, stored_eq, World.redis_apply, lists]
  omega

theorem stored_takeDue :
    stored cfg (w.apply .takeDue) id +
      (Queue.getDueJobs w.now w.redis).1.count (cfg.uuid.string id) = stored cfg w id := by
  have moved := due_takeDue cfg w id
  rw [stored_eq, stored_eq, World.redis_apply, Queue.occurrences_getDueJobs]
  omega

/-! ## One call -/

variable {cfg w id}

/-- A step makes no token but the one it mints. -/
theorem tokens_step {op op' : Op} {reply : Reply} {e : Effect} (step : Op.Step cfg w op reply e op')
    (id : Uuid) (sound : op.Sound cfg w) (takes : takesToken op = true) :
    stored cfg (w.apply e) id + inHand cfg id op' ≤
      stored cfg w id + inHand cfg id op + minted id e := by
  -- most calls do not change Redis
  have same (aside : (w.apply e).redis = w.redis)
      (hands : inHand cfg id op' ≤ inHand cfg id op + minted id e) :
      stored cfg (w.apply e) id + inHand cfg id op' ≤
        stored cfg w id + inHand cfg id op + minted id e := by
    simp only [stored, aside]
    omega
  cases step with
  | createJob step =>
    cases step with
    | inserted _ _ _ => exact same rfl (by grind [inHand, minted, Storage.scanJob])
    | @scheduled _ stored runAt _ =>
      have bound := stored_schedule cfg w id stored.id runAt
      simp only [inHand]
      omega
    | @pushed job stored _ =>
      have bound := stored_push cfg w id job.queue stored.id
      simp only [inHand]
      omega
    | rejected _ | refused | unqueued => exact same rfl (by simp [inHand])
  | cancelJob step => cases step <;> exact same rfl (by simp [inHand])
  | retryJob step =>
    cases step with
    | updated => exact same rfl (by simp [inHand, minted])
    | @pushed id' job =>
      have bound := stored_push cfg w id job.queue id'
      simp only [inHand]
      omega
    | _ => exact same rfl (by simp [inHand])
  | deleteJob step => cases step <;> exact same rfl (by simp [inHand])
  | processJob step =>
    cases step with
    | fetched parsed _ _ | noHandler parsed _ _ =>
      have text := World.Names.eq_string sound parsed
      subst text
      exact same rfl (by simp [inHand])
    | @rescheduled job n =>
      have bound := stored_schedule cfg w id job.id
        (w.now + backoffDuration cfg.overflow n)
      simp only [inHand]
      omega
    | _ => exact same rfl (by simp [inHand])
  | processScheduledJobs step =>
    cases step with
    | taken =>
      have moved := stored_takeDue cfg w id
      simp only [inHand]
      omega
    | untaken => exact same rfl (by simp [inHand])
    | invalid _ | missing _ _ | unread | unpushed =>
      refine same rfl ?_
      simp only [inHand, List.count_cons]
      omega
    | fetched _ _ => exact same rfl (by simp [inHand])
    | @pushedRetrying job _ rest _ | @pushed job _ rest _ =>
      obtain ⟨_, text, _⟩ := sound
      subst text
      have bound := stored_push cfg w id job.queue job.id
      simp only [inHand, List.count_cons, beq_iff_eq, UuidCodec.string_inj]
      omega
    | released | releasedLost => exact same rfl (by simp [inHand])
  | recoverUnqueuedJobs step => cases takes
  | recoverStaleJobs step => cases step <;> exact same rfl (by simp [inHand])

/-- A token is minted for an identifier that is new, or by a retry request that has read the
row dead. -/
theorem minted_cases {op op' : Op} {reply : Reply} {e : Effect} (step : Op.Step cfg w op reply e op')
    (id : Uuid) :
    minted id e = 0 ∨ (minted id e = 1 ∧ ((∃ row, e = .insert id row) ∧ w.origin id = none ∨
      ((∃ n jobErr, e = .setError id .pending n jobErr) ∧ ∃ job, op = .retryJob (.checked id job)))) := by
  cases step with
  | createJob step =>
    cases step with
    | @inserted _ _ id' row _ fresh _ =>
      by_cases own : id' = id
      · subst own
        exact .inr ⟨by simp [minted], .inl ⟨⟨row, rfl⟩, fresh⟩⟩
      · exact .inl (by simp [minted, own])
    | _ => exact .inl rfl
  | retryJob step =>
    cases step with
    | @updated id' job =>
      by_cases own : id' = id
      · subst own
        exact .inr ⟨by simp [minted], .inr ⟨⟨_, _, rfl⟩, job, rfl⟩⟩
      · exact .inl (by simp [minted, own])
    | _ => exact .inl rfl
  | cancelJob step | deleteJob step | processJob step | processScheduledJobs step
  | recoverUnqueuedJobs step | recoverStaleJobs step => cases step <;> exact .inl rfl

/-- The worker that writes `dead` gives its token up. -/
theorem tokens_step_dead {op op' : Op} {reply : Reply} {e : Effect}
    (step : Op.Step cfg w op reply e op') (wrote : e.writes id = some .dead) :
    stored cfg (w.apply e) id + inHand cfg id op' + 1 ≤ stored cfg w id + inHand cfg id op := by
  cases step with
  | createJob step =>
    cases step with
    | inserted prepared _ created =>
      simp only [Effect.writes, Option.ite_none_right_eq_some, Option.some.injEq] at wrote
      rw [(Storage.created_of_createJob created).status] at wrote
      cases Api.prepare_ok prepared with
      | inl immediate => simp [immediate.2] at wrote
      | inr delayed =>
        obtain ⟨_, _, scheduled⟩ := delayed
        simp [scheduled] at wrote
    | _ => simp [Effect.writes] at wrote
  | processJob step =>
    cases step with
    | dead _ _ =>
      simp only [Effect.writes, Option.ite_none_right_eq_some, and_true] at wrote
      simp only [inHand, wrote, if_true]
      exact Nat.le_refl _
    | _ => simp [Effect.writes] at wrote
  | cancelJob step | retryJob step | deleteJob step | processScheduledJobs step
  | recoverUnqueuedJobs step | recoverStaleJobs step => cases step <;> simp [Effect.writes] at wrote

/-! ## Jobs that do not exist have no tokens -/

theorem inHand_eq_zero {op : Op} (sound : op.Sound cfg w) (unknown : w.origin id = none) :
    inHand cfg id op = 0 := by
  have other {id' : Uuid} {row : JobRow} (knows : w.Knows id' row) : id' ≠ id := by
    intro same
    obtain ⟨origin, inserted, _⟩ := knows
    rw [same, unknown] at inserted
    cases inserted
  have unnamed {member : String} (named : w.Names cfg member) : member ≠ cfg.uuid.string id := by
    intro same
    exact World.not_names unknown (same ▸ named)
  have uncounted {members : List String} (named : ∀ member ∈ members, w.Names cfg member) :
      members.count (cfg.uuid.string id) = 0 :=
    List.count_eq_zero.mpr fun held => unnamed (named _ held) rfl
  cases op with
  | createJob pc =>
    cases pc with
    | created job stored => exact if_neg (other sound.1)
    | received _ | responded _ => rfl
  | retryJob pc =>
    cases pc with
    | updated id' job => exact if_neg (other sound.2)
    | received _ | checked _ _ | responded _ => rfl
  | processJob pc =>
    cases pc with
    | popped jobIDStr => exact if_neg (unnamed sound)
    | noHandler job | fetched job | executing job | succeeded job | failing job _
    | rescheduling job _ => exact if_neg (other sound)
    | returned => rfl
  | processScheduledJobs pc =>
    cases pc with
    | starting => rfl
    | releasing dueJobIDs => exact uncounted sound
    | fetched job jobIDStr rest =>
      obtain ⟨knows, text, named⟩ := sound
      simp only [inHand, List.count_cons, uncounted named, text]
      simpa using other knows
    | pushed job rest => exact uncounted sound.2
  | cancelJob _ | deleteJob _ | recoverUnqueuedJobs _ | recoverStaleJobs _ => rfl

theorem tokens_eq_zero {s : State} (sound : s.Sound cfg) (unknown : s.world.origin id = none) :
    tokens cfg s id = 0 := by
  have unnamed : ¬ s.world.Names cfg (cfg.uuid.string id) := World.not_names unknown
  have lists : s.world.redis.occurrences (cfg.uuid.string id) = 0 := by
    by_contra some
    exact unnamed (sound.world.occurrences (Nat.pos_of_ne_zero some))
  have schedule : (Queue.scheduled s.world.redis).members.count (cfg.uuid.string id) = 0 :=
    List.count_eq_zero.mpr fun held => unnamed (sound.world.scheduled held)
  have hands : (s.ops.map (inHand cfg id)).sum = 0 := by
    apply List.sum_eq_zero
    intro count member
    obtain ⟨op, running, rfl⟩ := List.mem_map.mp member
    exact inHand_eq_zero (sound.ops op running) unknown
  simp [tokens, stored, lists, schedule, hands]

/-! ## Requests to retry a job -/

/-- The operation is a `RetryJob` request for the job that has not ended. -/
def retrying (cfg : Config) (id : Uuid) : Op → Nat
  | .retryJob (.received idParam) => if cfg.uuid.parse idParam = some id then 1 else 0
  | .retryJob (.checked id' _) | .retryJob (.updated id' _) => if id' = id then 1 else 0
  | _ => 0

def retries (cfg : Config) (s : State) (id : Uuid) : Nat :=
  (s.ops.map (retrying cfg id)).sum

/-- The action is a step of the recovery pass. -/
def recovers (s : State) : Action → Bool
  | .run i _ => s.ops[i]?.any fun op => !takesToken op
  | .tick _ | .begin _ | .pop => false

/-- The action begins a `RetryJob` request while another one for the same job is under way. -/
def overlaps (cfg : Config) (s : State) : Action → Bool
  | .begin (.retryJob idParam) => (cfg.uuid.parse idParam).any fun id => retries cfg s id ≠ 0
  | .begin _ | .tick _ | .pop | .run _ _ => false

/-- Runs in which the recovery pass takes no step and no two retries of a job overlap. -/
def singleSource (cfg : Config) (s : State) (a : Action) : Prop :=
  recovers s a = false ∧ overlaps cfg s a = false

instance (s : State) (a : Action) : Decidable (singleSource cfg s a) :=
  inferInstanceAs (Decidable (_ ∧ _))

theorem retrying_step {op op' : Op} {reply : Reply} {e : Effect} (step : Op.Step cfg w op reply e op')
    (id : Uuid) :
    retrying cfg id op' ≤ retrying cfg id op := by
  cases step with
  | retryJob step =>
    cases step with
    | checked parsed _ _ => simp [retrying, parsed]
    | updated => exact Nat.le_refl _
    | _ => exact Nat.zero_le _
  | createJob _ | cancelJob _ | deleteJob _ | processJob _ | processScheduledJobs _
  | recoverUnqueuedJobs _ | recoverStaleJobs _ => exact Nat.le_refl _

/-! ## Whole runs -/

structure SingleToken (cfg : Config) (s : State) (id : Uuid) : Prop where
  one : tokens cfg s id ≤ 1
  retry : retries cfg s id ≤ 1
  /-- A row that is dead has no token left. -/
  dead : ∀ row, s.world.row id = some row → row.status = .dead → tokens cfg s id = 0
  /-- Nor has a row that a request has read dead and not reset yet. -/
  checked : ∀ job, .retryJob (.checked id job) ∈ s.ops → tokens cfg s id = 0

theorem inHand_start (task : Task) : inHand cfg id task.start = 0 := by
  cases task <;> rfl

/-- An operation's step changes the count by what it changes in Redis and in its own hands. -/
theorem tokens_run (cfg : Config) (w : World) (id : Uuid) (before after : List Op) (op op' : Op) (e : Effect) :
    tokens cfg ⟨w.apply e, before ++ op' :: after⟩ id + (stored cfg w id + inHand cfg id op) =
      tokens cfg ⟨w, before ++ op :: after⟩ id +
        (stored cfg (w.apply e) id + inHand cfg id op') := by
  simp only [tokens, List.map_append, List.map_cons, List.sum_append, List.sum_cons]
  omega

theorem SingleToken.begin {s : State} {task : Task} (single : SingleToken cfg s id)
    (allowed : overlaps cfg s (.begin task) = false) :
    SingleToken cfg { s with ops := s.ops ++ [task.start] } id := by
  have count : tokens cfg { s with ops := s.ops ++ [task.start] } id = tokens cfg s id := by
    simp [tokens, inHand_start]
  refine ⟨count ▸ single.one, ?_, fun row present dead => count ▸ single.dead row present dead, ?_⟩
  · simp only [retries, List.map_append, List.map_cons, List.map_nil, List.sum_append,
      List.sum_singleton]
    have before : (s.ops.map (retrying cfg id)).sum ≤ 1 := single.retry
    cases task with
    | retryJob idParam =>
      by_cases own : cfg.uuid.parse idParam = some id
      · have none : retries cfg s id = 0 := by simpa [overlaps, own] using allowed
        simp only [retries] at none
        simp [Task.start, retrying, own, none]
      · simpa [Task.start, retrying, own] using before
    | createJob _ | cancelJob _ | deleteJob _ | processScheduledJobs | recoverUnqueuedJobs
    | recoverStaleJobs => simpa [Task.start, retrying] using before
  · intro job held
    rw [count]
    cases List.mem_append.mp held with
    | inl earlier => exact single.checked job earlier
    | inr new =>
      have start := List.mem_singleton.mp new
      cases task <;> cases start

theorem SingleToken.pop {s : State} {queue jobIDStr : String} {redis : Redis}
    (single : SingleToken cfg s id)
    (popped : Queue.Popped s.world.redis cfg.queues queue jobIDStr redis) :
    SingleToken cfg ⟨{ s.world with redis := redis }, s.ops ++ [.processJob (.popped jobIDStr)]⟩
      id := by
  have count : tokens cfg ⟨{ s.world with redis := redis },
      s.ops ++ [.processJob (.popped jobIDStr)]⟩ id = tokens cfg s id := by
    have moved := popped.occurrences (cfg.uuid.string id)
    simp only [tokens, stored, popped.scheduled, List.map_append, List.map_cons, List.map_nil,
      List.sum_append, List.sum_singleton, inHand]
    omega
  refine ⟨count ▸ single.one, ?_, fun row present dead => count ▸ single.dead row present dead, ?_⟩
  · simpa [retries, retrying] using single.retry
  · intro job held
    rw [count]
    cases List.mem_append.mp held with
    | inl earlier => exact single.checked job earlier
    | inr new => cases List.mem_singleton.mp new

section Run

variable {before after : List Op} {op op' : Op} {reply : Reply} {e : Effect}
  (single : SingleToken cfg ⟨w, before ++ op :: after⟩ id)
  (sound : State.Sound cfg ⟨w, before ++ op :: after⟩) (step : Op.Step cfg w op reply e op')

include single sound step

/-- A token is minted only where there is none. -/
theorem SingleToken.none_of_minted (some : minted id e ≠ 0) :
    tokens cfg ⟨w, before ++ op :: after⟩ id = 0 := by
  obtain free | ⟨_, ⟨_, unknown⟩ | ⟨_, job, rfl⟩⟩ := minted_cases step id
  · exact absurd free some
  · exact tokens_eq_zero sound unknown
  · exact single.checked job (by simp)

/-- While a retry request has read the row dead, no other operation mints a token: a second
request would be under way for the job. -/
theorem SingleToken.unminted {job : Job}
    (other : .retryJob (.checked id job) ∈ before ∨ .retryJob (.checked id job) ∈ after) :
    minted id e = 0 := by
  obtain free | ⟨_, ⟨_, unknown⟩ | ⟨_, job', rfl⟩⟩ := minted_cases step id
  · exact free
  · have running : Op.retryJob (.checked id job) ∈ before ++ op :: after := by
      simp only [List.mem_append, List.mem_cons]
      exact other.imp_right .inr
    obtain ⟨_, origin, inserted, _⟩ := sound.ops _ running
    rw [unknown] at inserted
    cases inserted
  · have retry := single.retry
    have share {ops : List Op} (there : .retryJob (.checked id job) ∈ ops) :
        1 ≤ (ops.map (retrying cfg id)).sum := by
      have counted := List.le_sum_of_mem (List.mem_map_of_mem (f := retrying cfg id) there)
      simpa [retrying] using counted
    have second : 1 ≤ (before.map (retrying cfg id)).sum + (after.map (retrying cfg id)).sum := by
      cases other with
      | inl there => exact Nat.le_add_right_of_le (share there)
      | inr there => exact Nat.le_add_left_of_le (share there)
    simp only [retries, List.map_append, List.map_cons, List.sum_append, List.sum_cons,
      retrying, if_true] at retry
    omega

theorem SingleToken.run (takes : takesToken op = true) :
    SingleToken cfg ⟨w.apply e, before ++ op' :: after⟩ id := by
  have count := tokens_run cfg w id before after op op' e
  have bound := tokens_step step id (sound.ops op (by simp)) takes
  have at_most : minted id e ≤ 1 := by
    obtain free | ⟨one, _⟩ := minted_cases step id <;> omega
  refine ⟨?_, ?_, ?_, ?_⟩
  · have one := single.one
    by_cases some : minted id e = 0
    · omega
    · have none := single.none_of_minted sound step some
      omega
  · have fewer := retrying_step step id
    have retry := single.retry
    simp only [retries, List.map_append, List.map_cons, List.sum_append, List.sum_cons] at retry ⊢
    omega
  · intro row present dead
    cases World.row_apply_cases present with
    | inl unchanged =>
      obtain ⟨unwritten, found⟩ := unchanged
      have none := single.dead row found dead
      -- what mints a token writes another status
      have free : minted id e = 0 := by
        obtain free | ⟨_, ⟨⟨_, rfl⟩, _⟩ | ⟨⟨_, _, rfl⟩, _⟩⟩ := minted_cases step id
        · exact free
        · simp [Effect.writes] at unwritten
        · simp [Effect.writes] at unwritten
      omega
    | inr wrote =>
      have given := tokens_step_dead step (dead ▸ wrote)
      have one := single.one
      omega
  · intro job held
    simp only [List.mem_append, List.mem_cons] at held
    by_cases own : Op.retryJob (.checked id job) = op'
    · -- the request has just read the row dead
      subst own
      cases step with
      | retryJob step =>
        cases step with
        | checked _ present dead =>
          have none := single.dead _ present dead
          have free : minted job.id .none = 0 := rfl
          omega
    · have other : .retryJob (.checked id job) ∈ before ∨ .retryJob (.checked id job) ∈ after := by
        simpa [own] using held
      have none := single.checked job (by simpa using other.imp_right .inr)
      have free := single.unminted sound step other
      omega

end Run

theorem SingleToken.step {s t : State} {a : Action} (step : State.Step cfg s a t)
    (allowed : singleSource cfg s a) (sound : s.Sound cfg) (single : SingleToken cfg s id) :
    SingleToken cfg t id := by
  cases step with
  | tick => exact ⟨single.one, single.retry, single.dead, single.checked⟩
  | begin => exact single.begin allowed.2
  | popped popped => exact single.pop popped
  | @run before op after reply e op' split inner =>
    obtain ⟨w, ops⟩ := s
    subst split
    have takes : takesToken op = true := by simpa [recovers] using allowed.1
    exact single.run sound inner takes

theorem reachable_singleToken {permitted : State → Action → Prop}
    (single : ∀ s a, permitted s a → singleSource cfg s a) {s : State}
    (reachable : (system cfg).Reachable permitted s) (id : Uuid) : SingleToken cfg s id := by
  refine reachable.invariant (P := fun s => SingleToken cfg s id) ?_ ?_
  · intro s start
    obtain ⟨now, rfl⟩ := start
    refine ⟨Nat.zero_le _, Nat.zero_le _, fun _ _ _ => rfl, fun _ _ => rfl⟩
  · intro s a t before allowed taken invariant
    exact invariant.step (State.step_cases taken) (single s a allowed) (reachable_sound before)

/-- Without the recovery pass and overlapping retries a job has at most one delivery token,
under any interleaving and with any calls failing, and its handler runs at most once at a
time. -/
theorem single_delivery {s : State} (reachable : (system cfg).Reachable (singleSource cfg) s)
    (id : Uuid) :
    tokens cfg s id ≤ 1 ∧
      ∀ (i j : Nat) (job job' : Job), s.ops[i]? = some (.processJob (.executing job)) →
        s.ops[j]? = some (.processJob (.executing job')) → job.id = id → job'.id = id → i = j := by
  have single := reachable_singleToken (fun _ _ allowed => allowed) reachable id
  refine ⟨single.one, ?_⟩
  intro i j job job' first second own own'
  have bound : (s.ops.map (inHand cfg id)).sum ≤ 1 := by
    have one := single.one
    unfold tokens at one
    omega
  exact List.unique_index_of_sum_le_one bound first second (by simp [inHand, own])
    (by simp [inHand, own'])

/-- The handler of a job that was dead and has been retried is running. -/
def retriedDeadRun : List Action :=
  [.begin (.createJob (some { Cmd.request with maxRetries := some 1 })), .run 0 (.inserted 1),
    .run 0 .ok, .pop, .run 1 .ok, .run 1 .ok, .run 1 (.returned (some "boom")), .run 1 .ok,
    .begin (.retryJob (Cmd.mainConfig.uuid.string 1)), .run 2 .ok, .run 2 .ok, .run 2 .ok,
    .pop, .run 3 .ok, .run 3 .ok]

theorem retriedDeadRun_single : ∃ s, (system Cmd.mainConfig).Reachable (singleSource Cmd.mainConfig) s ∧
    tokens Cmd.mainConfig s 1 = 1 ∧
    (tokens Cmd.mainConfig s 1 ≤ 1 ∧
      ∀ (i j : Nat) (job job' : Job), s.ops[i]? = some (.processJob (.executing job)) →
        s.ops[j]? = some (.processJob (.executing job')) → job.id = 1 → job'.id = 1 → i = j) := by
  have ⟨s, reachable, one⟩ :
      ∃ s, (system Cmd.mainConfig).Reachable (singleSource Cmd.mainConfig) s ∧
        tokens Cmd.mainConfig s 1 = 1 :=
    Transition.System.exists_reachable_of_exec retriedDeadRun Cmd.initial_initialState (by decide +kernel)
  exact ⟨s, reachable, one, single_delivery reachable 1⟩

end GoQueue.Verified
