import GoQueue.Queue.Redis
import GoQueue.Library.Transition

/-! # Sequences of calls to the queue

`RedisQueue` of `internal/queue/redis.go` under any interleaving of its four calls, made by any
number of callers.  Each call is one command or one script, so it is one step.

The log says what every call was given and what it has returned.  For a `Pop` it also keeps the
key that `BRPOP` names in its reply and that `Pop` drops.
-/

namespace GoQueue.Queue

inductive Call where
  | push (queue jobID : String)
  | pop (queues : List String)
  | schedule (jobID : String) (runAt : Time)
  | getDueJobs (now : Time)
deriving DecidableEq

inductive Event where
  | pushed (queue jobID : String)
  | popped (queues : List String) (key jobID : String)
  /-- `Pop` has waited for its timeout and returned the empty string. -/
  | timedOut (queues : List String)
  | scheduled (jobID : String) (runAt : Time)
  | due (now : Time) (jobIDs : List String)
deriving DecidableEq

structure Trace where
  redis : Redis
  /-- The last event is at the end. -/
  log : List Event

namespace Trace

def step (t : Trace) : Call → Trace
  | .push queue jobID => ⟨push queue jobID t.redis, t.log ++ [.pushed queue jobID]⟩
  | .pop queues =>
    match t.redis.brpop (queues.map queueKey) with
    | some (key, jobID, redis) => ⟨redis, t.log ++ [.popped queues key jobID]⟩
    | none => ⟨t.redis, t.log ++ [.timedOut queues]⟩
  | .schedule jobID runAt => ⟨schedule jobID runAt t.redis, t.log ++ [.scheduled jobID runAt]⟩
  | .getDueJobs now =>
    ⟨(getDueJobs now t.redis).2, t.log ++ [.due now (getDueJobs now t.redis).1]⟩

/-- What a call adds to the log and makes of Redis. -/
inductive Step (t : Trace) : Call → Event → Redis → Prop where
  | pushes {queue jobID} :
      Step t (.push queue jobID) (.pushed queue jobID) (push queue jobID t.redis)
  | pops {queues queue jobID redis} : pop queues t.redis = some (jobID, redis) →
      Earliest t.redis queues queue → Popped t.redis queues queue jobID redis →
      Step t (.pop queues) (.popped queues (queueKey queue) jobID) redis
  | waits {queues} : pop queues t.redis = none →
      Step t (.pop queues) (.timedOut queues) t.redis
  | schedules {jobID runAt} :
      Step t (.schedule jobID runAt) (.scheduled jobID runAt) (schedule jobID runAt t.redis)
  | takes {now} : Step t (.getDueJobs now) (.due now (getDueJobs now t.redis).1)
      (getDueJobs now t.redis).2

theorem step_cases (t : Trace) (call : Call) :
    ∃ event redis, t.step call = ⟨redis, t.log ++ [event]⟩ ∧ Step t call event redis := by
  cases call with
  | push queue jobID => exact ⟨_, _, rfl, .pushes⟩
  | schedule jobID runAt => exact ⟨_, _, rfl, .schedules⟩
  | getDueJobs now => exact ⟨_, _, rfl, .takes⟩
  | pop queues =>
    cases found : t.redis.brpop (queues.map queueKey) with
    | none =>
      refine ⟨_, _, by rw [step, found], .waits ?_⟩
      rw [pop, found, Option.map_none]
    | some reply =>
      obtain ⟨key, jobID, redis⟩ := reply
      obtain ⟨queue, rfl, earliest, popped⟩ := popped_of_brpop found
      refine ⟨_, _, by rw [step, found], .pops ?_ earliest popped⟩
      rw [pop, found, Option.map_some]

end Trace

/-- The calls start on an empty server. -/
def calls : Transition.System Trace Call where
  initial t := t = ⟨∅, []⟩
  step t call := some (t.step call)

/-- Any call at any time. -/
def anyCall (_ : Trace) (_ : Call) : Prop := True

instance (t : Trace) (call : Call) : Decidable (anyCall t call) := inferInstanceAs (Decidable True)

/-- What the first events show and every call preserves holds in every sequence of calls. -/
theorem Trace.invariant {P : Redis → List Event → Prop} (start : P ∅ [])
    (preserved : ∀ {t : Trace} {call event redis}, t.Step call event redis → P t.redis t.log →
      P redis (t.log ++ [event]))
    {t : Trace} (reachable : calls.Reachable anyCall t) : P t.redis t.log := by
  refine reachable.invariant (P := fun t => P t.redis t.log) ?_ ?_
  · rintro _ rfl
    exact start
  · intro t call u _ _ taken held
    obtain ⟨event, redis, equal, step⟩ := t.step_cases call
    cases taken
    rw [equal]
    exact preserved step held

end GoQueue.Queue
