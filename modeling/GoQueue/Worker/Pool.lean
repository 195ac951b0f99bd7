import GoQueue.Worker.Worker
import GoQueue.Library.Transition
import GoQueue.Library.Places

/-! # The worker pool and its shutdown

`Pool.Start`, `Pool.Stop` and `Pool.worker` of `internal/worker/worker.go`: the goroutines that
pop identifiers and process them, from their start to the end of `Stop`.

All workers share one context.  `Stop` cancels it, and so can whoever gave `Start` its context.
From then on every call that is given the context fails without effect; the handler of a job gets
a context of its own that is cancelled too, and returns when and what it likes.

Jobs may arrive while the pool runs.  Other parties do not take part: what a worker leaves in the
stores stays there.
-/

namespace GoQueue.Worker

/-- Whether the next step calls a store. -/
def ProcessJob.callsStore (cfg : Config) : ProcessJob → Bool
  | .popped jobIDStr => (cfg.uuid.parse jobIDStr).isSome
  | .noHandler _ | .fetched _ | .succeeded _ | .failing _ _ | .rescheduling _ _ => true
  | .executing _ | .returned => false

/-! ## One worker -/

/-- Where the goroutine of a worker is. -/
inductive Loop where
  /-- At the head of the loop, before the `select`. -/
  | checking
  | popping
  /-- After a `Pop` that failed for another reason than the context. -/
  | sleeping
  | processing (pc : ProcessJob)
  | exited
deriving DecidableEq

namespace Loop

def step (cfg : Config) (w : World) (cancelled : Bool) : Loop → Reply → Option (World × Loop)
  | .checking, .ok => some (w, if cancelled then .exited else .popping)
  | .popping, .ok =>
    if cancelled then none
    else match Queue.pop cfg.queues w.redis with
      | some (jobIDStr, redis) =>
        some ({ w with redis := redis },
          if jobIDStr = "" then .checking else .processing (.popped jobIDStr))
      -- the timeout of one second runs out
      | none => some (w, .checking)
  | .popping, .fail => some (w, if cancelled then .exited else .sleeping)
  | .sleeping, .ok => some (w, .checking)
  | .processing .returned, .ok => some (w, .checking)
  | .processing pc, reply =>
    if cancelled = true ∧ pc.callsStore cfg = true ∧ reply ≠ .fail then none
    else (pc.step cfg w reply).map fun (e, pc') => (w.apply e, .processing pc')
  | _, _ => none

inductive Step (cfg : Config) (w : World) (cancelled : Bool) : Loop → Reply → World → Loop → Prop where
  | leaves : cancelled = true → Step cfg w cancelled .checking .ok w .exited
  | goesOn : cancelled = false → Step cfg w cancelled .checking .ok w .popping
  | popped {queue jobIDStr redis} : cancelled = false →
      Queue.Popped w.redis cfg.queues queue jobIDStr redis →
      Step cfg w cancelled .popping .ok { w with redis := redis } (.processing (.popped jobIDStr))
  | skipped {queue redis} : Queue.Popped w.redis cfg.queues queue "" redis →
      Step cfg w cancelled .popping .ok { w with redis := redis } .checking
  | timedOut : Step cfg w cancelled .popping .ok w .checking
  | interrupted : cancelled = true → Step cfg w cancelled .popping .fail w .exited
  | unpopped : cancelled = false → Step cfg w cancelled .popping .fail w .sleeping
  | awakes : Step cfg w cancelled .sleeping .ok w .checking
  | processed : Step cfg w cancelled (.processing .returned) .ok w .checking
  | process {pc reply e pc'} :
      (cancelled = true → pc.callsStore cfg = true → reply = .fail) →
      ProcessJob.Step cfg w pc reply e pc' →
      Step cfg w cancelled (.processing pc) reply (w.apply e) (.processing pc')

theorem step_cases {cfg : Config} {w w' : World} {cancelled : Bool} {worker worker' : Loop}
    {reply : Reply} (taken : worker.step cfg w cancelled reply = some (w', worker')) :
    Step cfg w cancelled worker reply w' worker' := by
  unfold step at taken
  split at taken
  case h_1 =>
    split at taken
    case isTrue done => cases taken; exact .leaves done
    case isFalse live => cases taken; exact .goesOn (by simpa using live)
  case h_2 =>
    split at taken
    case isTrue => cases taken
    case isFalse live =>
      split at taken
      case h_1 jobIDStr redis found =>
        obtain ⟨queue, popped⟩ := Queue.pop_popped found
        split at taken
        case isTrue empty => subst empty; cases taken; exact .skipped popped
        case isFalse => cases taken; exact .popped (by simpa using live) popped
      case h_2 => cases taken; exact .timedOut
  case h_3 =>
    split at taken
    case isTrue done => cases taken; exact .interrupted done
    case isFalse live => cases taken; exact .unpopped (by simpa using live)
  case h_4 => cases taken; exact .awakes
  case h_5 => cases taken; exact .processed
  case h_6 pc _ _ =>
    split at taken
    case isTrue => cases taken
    case isFalse answered =>
      obtain ⟨⟨e, pc'⟩, inner, equal⟩ := Option.map_eq_some_iff.mp taken
      cases equal
      refine .process (fun done calls => ?_) (ProcessJob.step_cases inner)
      by_contra succeeds
      exact answered ⟨done, calls, succeeds⟩
  case h_7 => cases taken

end Loop

/-! ## The pool -/

/-- How far the one call of `Stop` has come. -/
inductive Stop where
  | uncalled
  /-- The context is cancelled, the workers have not all returned. -/
  | waiting
  | returned
deriving DecidableEq

structure Pool where
  world : World
  /-- The workers' context is cancelled. -/
  cancelled : Bool
  workers : List Loop
  stop : Stop

/-- What adds a job: a row under a new key, or an identifier in Redis. -/
def arrives (w : World) : Effect → Bool
  | .insert id _ => (w.row id).isNone
  | .push _ _ | .schedule _ _ => true
  | .none | .setStatus _ _ | .setError _ _ _ _ | .delete _ | .takeDue | .record _ _ => false

namespace Pool

inductive Action where
  | tick (elapsed : Nat)
  | arrive (e : Effect)
  /-- The context that `Start` was given is cancelled. -/
  | cancel
  | stop
  /-- `Wait` returns, and with it `Stop`. -/
  | wait
  | run (i : Nat) (reply : Reply)
deriving DecidableEq

def step (cfg : Config) (s : Pool) : Action → Option Pool
  | .tick elapsed => some { s with world := { s.world with now := s.world.now + elapsed } }
  | .arrive e => if arrives s.world e then some { s with world := s.world.apply e } else none
  | .cancel => some { s with cancelled := true }
  | .stop =>
    if s.stop = .uncalled then some { s with cancelled := true, stop := .waiting } else none
  | .wait =>
    if s.stop = .waiting ∧ ∀ worker ∈ s.workers, worker = .exited then
      some { s with stop := .returned }
    else none
  | .run i reply => do
    let worker ← s.workers[i]?
    let (world, worker') ← worker.step cfg s.world s.cancelled reply
    some { s with world := world, workers := s.workers.set i worker' }

inductive Step (cfg : Config) (s : Pool) : Action → Pool → Prop where
  | tick {elapsed} : Step cfg s (.tick elapsed)
      { s with world := { s.world with now := s.world.now + elapsed } }
  | arrive {e} : arrives s.world e = true → Step cfg s (.arrive e) { s with world := s.world.apply e }
  | cancel : Step cfg s .cancel { s with cancelled := true }
  | stop : Step cfg s .stop { s with cancelled := true, stop := .waiting }
  | wait : s.stop = .waiting → Step cfg s .wait { s with stop := .returned }
  | run {i worker reply world worker'} : s.workers[i]? = some worker →
      Loop.Step cfg s.world s.cancelled worker reply world worker' →
      Step cfg s (.run i reply) { s with world := world, workers := s.workers.set i worker' }

theorem step_cases {cfg : Config} {s t : Pool} {a : Action} (taken : s.step cfg a = some t) :
    Step cfg s a t := by
  cases a with
  | tick elapsed => cases taken; exact .tick
  | arrive e =>
    simp only [step, Option.ite_none_right_eq_some] at taken
    obtain ⟨new, equal⟩ := taken
    cases equal
    exact .arrive new
  | cancel => cases taken; exact .cancel
  | stop =>
    simp only [step, Option.ite_none_right_eq_some] at taken
    cases taken.2
    exact .stop
  | wait =>
    simp only [step, Option.ite_none_right_eq_some] at taken
    obtain ⟨⟨waiting, _⟩, equal⟩ := taken
    cases equal
    exact .wait waiting
  | run i reply =>
    simp only [step, Option.bind_eq_bind, Option.bind_eq_some_iff, Option.some.injEq,
      Prod.exists] at taken
    obtain ⟨worker, found, world, worker', inner, rfl⟩ := taken
    exact .run found (Loop.step_cases inner)

/-- `Start` has started its workers, on any stores; the history of handler calls begins here. -/
def system (cfg : Config) : Transition.System Pool Action where
  initial s := ∃ (w : World) (count : Nat),
    s = ⟨{ w with calls := [] }, false, List.replicate count .checking, .uncalled⟩
  step := Pool.step cfg

end Pool

end GoQueue.Worker
