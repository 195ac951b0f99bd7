import GoQueue.Api.Handler
import GoQueue.Worker.Worker
import GoQueue.Scheduler.Scheduler
import GoQueue.Library.Transition
import GoQueue.Library.Places

/-! # The whole system

Any number of operations of all instances run side by side over the two stores.  A state
is the stores together with every operation that has begun, in the order of their
beginning; an operation that has ended stays in the list.  An action lets time pass, begins
an operation, lets a free worker pop, or lets one operation make its next call.

Instances, workers and scheduler loops need no names: a worker is free again as soon as its
`processJob` has returned, and nothing bounds how many passes, requests or pops are under
way at once.
-/

namespace GoQueue

inductive Op where
  | createJob (pc : Api.CreateJob)
  | cancelJob (pc : Api.CancelJob)
  | retryJob (pc : Api.RetryJob)
  | deleteJob (pc : Api.DeleteJob)
  | processJob (pc : Worker.ProcessJob)
  | processScheduledJobs (pc : Scheduler.ProcessScheduledJobs)
  | recoverUnqueuedJobs (pc : Scheduler.RecoverUnqueuedJobs)
  | recoverStaleJobs (pc : Scheduler.RecoverStaleJobs)
deriving DecidableEq

namespace Op

def step (cfg : Config) (w : World) : Op → Reply → Option (Effect × Op)
  | .createJob pc, reply => (pc.step cfg w reply).map fun (e, pc') => (e, .createJob pc')
  | .cancelJob pc, reply => (pc.step cfg w reply).map fun (e, pc') => (e, .cancelJob pc')
  | .retryJob pc, reply => (pc.step cfg w reply).map fun (e, pc') => (e, .retryJob pc')
  | .deleteJob pc, reply => (pc.step cfg w reply).map fun (e, pc') => (e, .deleteJob pc')
  | .processJob pc, reply => (pc.step cfg w reply).map fun (e, pc') => (e, .processJob pc')
  | .processScheduledJobs pc, reply =>
    (pc.step cfg w reply).map fun (e, pc') => (e, .processScheduledJobs pc')
  | .recoverUnqueuedJobs pc, reply =>
    (pc.step cfg w reply).map fun (e, pc') => (e, .recoverUnqueuedJobs pc')
  | .recoverStaleJobs pc, reply =>
    (pc.step cfg w reply).map fun (e, pc') => (e, .recoverStaleJobs pc')

inductive Step (cfg : Config) (w : World) : Op → Reply → Effect → Op → Prop where
  | createJob {pc reply e pc'} : Api.CreateJob.Step cfg w pc reply e pc' →
      Step cfg w (.createJob pc) reply e (.createJob pc')
  | cancelJob {pc reply e pc'} : Api.CancelJob.Step cfg w pc reply e pc' →
      Step cfg w (.cancelJob pc) reply e (.cancelJob pc')
  | retryJob {pc reply e pc'} : Api.RetryJob.Step cfg w pc reply e pc' →
      Step cfg w (.retryJob pc) reply e (.retryJob pc')
  | deleteJob {pc reply e pc'} : Api.DeleteJob.Step cfg w pc reply e pc' →
      Step cfg w (.deleteJob pc) reply e (.deleteJob pc')
  | processJob {pc reply e pc'} : Worker.ProcessJob.Step cfg w pc reply e pc' →
      Step cfg w (.processJob pc) reply e (.processJob pc')
  | processScheduledJobs {pc reply e pc'} :
      Scheduler.ProcessScheduledJobs.Step cfg w pc reply e pc' →
      Step cfg w (.processScheduledJobs pc) reply e (.processScheduledJobs pc')
  | recoverUnqueuedJobs {pc reply e pc'} :
      Scheduler.RecoverUnqueuedJobs.Step cfg w pc reply e pc' →
      Step cfg w (.recoverUnqueuedJobs pc) reply e (.recoverUnqueuedJobs pc')
  | recoverStaleJobs {pc reply e pc'} : Scheduler.RecoverStaleJobs.Step cfg w pc reply e pc' →
      Step cfg w (.recoverStaleJobs pc) reply e (.recoverStaleJobs pc')

theorem step_cases {cfg : Config} {w : World} {op op' : Op} {reply : Reply} {e : Effect}
    (taken : op.step cfg w reply = some (e, op')) : Step cfg w op reply e op' := by
  cases op <;> obtain ⟨⟨_, _⟩, inner, equal⟩ := Option.map_eq_some_iff.mp taken <;> cases equal
  case createJob => exact .createJob (Api.CreateJob.step_cases inner)
  case cancelJob => exact .cancelJob (Api.CancelJob.step_cases inner)
  case retryJob => exact .retryJob (Api.RetryJob.step_cases inner)
  case deleteJob => exact .deleteJob (Api.DeleteJob.step_cases inner)
  case processJob => exact .processJob (Worker.ProcessJob.step_cases inner)
  case processScheduledJobs =>
    exact .processScheduledJobs (Scheduler.ProcessScheduledJobs.step_cases inner)
  case recoverUnqueuedJobs =>
    exact .recoverUnqueuedJobs (Scheduler.RecoverUnqueuedJobs.step_cases inner)
  case recoverStaleJobs => exact .recoverStaleJobs (Scheduler.RecoverStaleJobs.step_cases inner)

end Op

/-- What can begin besides the processing of a popped job. -/
inductive Task where
  | createJob (body : Option Api.CreateJobRequest)
  | cancelJob (idParam : String)
  | retryJob (idParam : String)
  | deleteJob (idParam : String)
  | processScheduledJobs
  | recoverUnqueuedJobs
  | recoverStaleJobs
deriving DecidableEq

def Task.start : Task → Op
  | .createJob body => .createJob (.received body)
  | .cancelJob idParam => .cancelJob (.received idParam)
  | .retryJob idParam => .retryJob (.received idParam)
  | .deleteJob idParam => .deleteJob (.received idParam)
  | .processScheduledJobs => .processScheduledJobs .starting
  | .recoverUnqueuedJobs => .recoverUnqueuedJobs .starting
  | .recoverStaleJobs => .recoverStaleJobs .starting

structure State where
  world : World
  ops : List Op

inductive Action where
  | tick (elapsed : Nat)
  | begin (task : Task)
  | pop
  | run (i : Nat) (reply : Reply)
deriving DecidableEq

namespace State

def step (cfg : Config) (s : State) : Action → Option State
  | .tick elapsed => some { s with world := { s.world with now := s.world.now + elapsed } }
  | .begin task => some { s with ops := s.ops ++ [task.start] }
  | .pop => (Queue.pop cfg.queues s.world.redis).map fun (jobIDStr, redis) =>
    { world := { s.world with redis := redis },
      ops := s.ops ++ [.processJob (.popped jobIDStr)] }
  | .run i reply => do
    let op ← s.ops[i]?
    let (e, op') ← op.step cfg s.world reply
    some { world := s.world.apply e, ops := s.ops.set i op' }

inductive Step (cfg : Config) (s : State) : Action → State → Prop where
  | tick {elapsed} : Step cfg s (.tick elapsed)
      { s with world := { s.world with now := s.world.now + elapsed } }
  | begin {task} : Step cfg s (.begin task) { s with ops := s.ops ++ [task.start] }
  | popped {queue jobIDStr redis} : Queue.Popped s.world.redis cfg.queues queue jobIDStr redis →
      Step cfg s .pop
        { world := { s.world with redis := redis },
          ops := s.ops ++ [.processJob (.popped jobIDStr)] }
  | run {before op after reply e op'} : s.ops = before ++ op :: after →
      Op.Step cfg s.world op reply e op' →
      Step cfg s (.run before.length reply)
        { world := s.world.apply e, ops := before ++ op' :: after }

/-- What it takes for the operation at place `i` to move. -/
theorem run_cases {cfg : Config} {s t : State} {i : Nat} {reply : Reply}
    (taken : s.step cfg (.run i reply) = some t) :
    ∃ op e op', s.ops[i]? = some op ∧ Op.Step cfg s.world op reply e op' ∧
      t = { world := s.world.apply e, ops := s.ops.set i op' } := by
  simp only [step, Option.bind_eq_bind, Option.bind_eq_some_iff, Option.some.injEq,
    Prod.exists] at taken
  obtain ⟨op, found, e, op', inner, rfl⟩ := taken
  exact ⟨op, e, op', found, Op.step_cases inner, rfl⟩

theorem step_run {cfg : Config} {s : State} {i : Nat} {op op' : Op} {reply : Reply} {e : Effect}
    (found : s.ops[i]? = some op) (moves : op.step cfg s.world reply = some (e, op')) :
    s.step cfg (.run i reply) = some ⟨s.world.apply e, s.ops.set i op'⟩ := by
  simp [step, found, moves]

/-- The operation that has moved stands where it stood. -/
theorem getElem?_set_place {ops : List Op} {i : Nat} {op : Op} (found : ops[i]? = some op) (op' : Op) :
    (ops.set i op')[i]? = some op' := by
  obtain ⟨inside, _⟩ := List.getElem?_eq_some_iff.mp found
  exact List.getElem?_set_self inside

theorem step_cases {cfg : Config} {s t : State} {a : Action} (taken : s.step cfg a = some t) :
    Step cfg s a t := by
  cases a with
  | tick elapsed => cases taken; exact .tick
  | begin task => cases taken; exact .begin
  | pop =>
    obtain ⟨⟨jobIDStr, redis⟩, found, rfl⟩ := Option.map_eq_some_iff.mp taken
    obtain ⟨queue, popped⟩ := Queue.pop_popped found
    exact .popped popped
  | run i reply =>
    obtain ⟨op, e, op', found, inner, rfl⟩ := run_cases taken
    obtain ⟨bound, rfl⟩ := List.getElem?_eq_some_iff.mp found
    have length : (s.ops.take i).length = i := by simp [bound.le]
    have split : s.ops = s.ops.take i ++ s.ops[i] :: s.ops.drop (i + 1) := by simp
    rw [List.set_eq_take_append_cons_drop, if_pos bound]
    conv => enter [3, 1]; rw [← length]
    exact .run split inner

/-- The rule for an invariant that speaks of the stores and of every operation by itself;
an operation is known by its place in the order of beginning. -/
theorem Step.pointwise {cfg : Config} {s t : State} {a : Action} (step : Step cfg s a t)
    {W : World → Prop} {P : World → Nat → Op → Prop} (world : W s.world)
    (ops : ∀ i op, s.ops[i]? = some op → P s.world i op)
    (tick : ∀ elapsed : Nat, W { s.world with now := s.world.now + elapsed } ∧
      ∀ i op, P s.world i op → P { s.world with now := s.world.now + elapsed } i op)
    (begin : ∀ task, a = .begin task → P s.world s.ops.length task.start)
    (pop : ∀ {queue jobIDStr redis},
      Queue.Popped s.world.redis cfg.queues queue jobIDStr redis →
      W { s.world with redis := redis } ∧
      P { s.world with redis := redis } s.ops.length (.processJob (.popped jobIDStr)) ∧
      ∀ i op, P s.world i op → P { s.world with redis := redis } i op)
    (run : ∀ {i op reply e op'}, a = .run i reply → s.ops[i]? = some op →
      Op.Step cfg s.world op reply e op' →
      W (s.world.apply e) ∧ P (s.world.apply e) i op' ∧
      ∀ k other, k ≠ i → s.ops[k]? = some other → P s.world k other →
        P (s.world.apply e) k other) :
    W t.world ∧ ∀ i op, t.ops[i]? = some op → P t.world i op := by
  cases step with
  | tick =>
    rename_i elapsed
    exact ⟨(tick elapsed).1, fun i op found => (tick elapsed).2 i op (ops i op found)⟩
  | begin =>
    refine ⟨world, fun i op found => ?_⟩
    obtain ⟨rfl, rfl⟩ | before := List.getElem?_concat_cases found
    · exact begin _ rfl
    · exact ops i op before
  | popped popped =>
    obtain ⟨stores, own, others⟩ := pop popped
    refine ⟨stores, fun i op found => ?_⟩
    obtain ⟨rfl, rfl⟩ | before := List.getElem?_concat_cases found
    · exact own
    · exact others i op (ops i op before)
  | run split inner =>
    rename_i before op after reply e op'
    have place : s.ops[before.length]? = some op := by simp [split]
    obtain ⟨stores, own, others⟩ := run rfl place inner
    refine ⟨stores, fun i other found => ?_⟩
    have replaced : before ++ op' :: after = s.ops.set before.length op' := by simp [split]
    rw [replaced] at found
    obtain ⟨rfl, rfl⟩ | ⟨different, stood⟩ := List.getElem?_set_cases found
    · exact own
    · exact others i other different stood (ops i other stood)

/-- The same rule where an operation's place does not matter. -/
theorem Step.eachOp {cfg : Config} {s t : State} {a : Action} (step : Step cfg s a t)
    {W : World → Prop} {P : World → Op → Prop} (world : W s.world)
    (ops : ∀ op ∈ s.ops, P s.world op)
    (tick : ∀ elapsed : Nat, W { s.world with now := s.world.now + elapsed } ∧
      ∀ op, P s.world op → P { s.world with now := s.world.now + elapsed } op)
    (begin : ∀ task, P s.world (Task.start task))
    (pop : ∀ {queue jobIDStr redis},
      Queue.Popped s.world.redis cfg.queues queue jobIDStr redis →
      W { s.world with redis := redis } ∧
      P { s.world with redis := redis } (.processJob (.popped jobIDStr)) ∧
      ∀ op, P s.world op → P { s.world with redis := redis } op)
    (run : ∀ {op reply e op'}, op ∈ s.ops → Op.Step cfg s.world op reply e op' →
      W (s.world.apply e) ∧ P (s.world.apply e) op' ∧
      ∀ other ∈ s.ops, P s.world other → P (s.world.apply e) other) :
    W t.world ∧ ∀ op ∈ t.ops, P t.world op := by
  have indexed := step.pointwise (P := fun w _ op => P w op) world
    (fun i op found => ops op (List.mem_of_getElem? found))
    (fun elapsed => ⟨(tick elapsed).1, fun _ op held => (tick elapsed).2 op held⟩)
    (fun task _ => begin task)
    (fun popped => ⟨(pop popped).1, (pop popped).2.1, fun _ op held => (pop popped).2.2 op held⟩)
    (fun _ found inner => by
      obtain ⟨stores, own, others⟩ := run (List.mem_of_getElem? found) inner
      exact ⟨stores, own, fun k other _ there held => others other (List.mem_of_getElem? there) held⟩)
  refine ⟨indexed.1, fun op held => ?_⟩
  obtain ⟨i, found⟩ := List.mem_iff_getElem?.mp held
  exact indexed.2 i op found

end State

/-- Everything starts with empty stores. -/
def system (cfg : Config) : Transition.System State Action where
  initial s := ∃ now, s = ⟨.empty now, []⟩
  step := State.step cfg

/-- Runs without restriction. -/
def anyAction (_ : State) (_ : Action) : Prop := True

instance (s : State) (a : Action) : Decidable (anyAction s a) := inferInstanceAs (Decidable True)

/-- A step in which the call, if one is made, succeeds. -/
def Reply.succeeds : Reply → Bool
  | .fail | .truncated _ => false
  | .ok | .inserted _ | .rows _ | .returned _ => true

def Action.faultFree : Action → Bool
  | .run _ reply => reply.succeeds
  | .tick _ | .begin _ | .pop => true

/-- Runs in which every call succeeds. -/
def faultFree (_ : State) (a : Action) : Prop := a.faultFree = true

instance (s : State) (a : Action) : Decidable (faultFree s a) :=
  inferInstanceAs (Decidable (_ = true))

end GoQueue
