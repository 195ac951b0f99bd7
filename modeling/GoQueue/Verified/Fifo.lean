import GoQueue.Queue.Calls

/-! # Work queues are first in, first out

`Push` adds at the left end of a list and `Pop` takes from its right end, so what a queue holds,
read from the right, is what was pushed to it and not popped yet, in the order of the pushes.
-/

namespace GoQueue.Verified

open Queue

/-- The identifiers pushed to a queue, in the order of the calls. -/
def pushedTo (queue : String) (log : List Event) : List String :=
  log.filterMap fun
    | .pushed queue' jobID => if queue' = queue then some jobID else none
    | _ => none

/-- The identifiers popped from a queue, in the order of the calls. -/
def poppedFrom (queue : String) (log : List Event) : List String :=
  log.filterMap fun
    | .popped _ key jobID => if key = queueKey queue then some jobID else none
    | _ => none

/-- What was pushed has been popped or is held, in the same order. -/
def InOrder (queue : String) (r : Redis) (log : List Event) : Prop :=
  pushedTo queue log = poppedFrom queue log ++ (contents queue r).reverse

theorem InOrder.step {t : Trace} {call : Queue.Call} {event : Event} {redis : Redis} {queue : String}
    (step : t.Step call event redis) (held : InOrder queue t.redis t.log) :
    InOrder queue redis (t.log ++ [event]) := by
  unfold InOrder at held ⊢
  cases step with
  | @pushes queue' jobID =>
    rw [contents_push]
    by_cases same : queue' = queue
    · subst same
      have longer : pushedTo queue' (t.log ++ [.pushed queue' jobID]) =
          pushedTo queue' t.log ++ [jobID] := by simp [pushedTo]
      have taken : poppedFrom queue' (t.log ++ [.pushed queue' jobID]) = poppedFrom queue' t.log := by
        simp [poppedFrom]
      rw [longer, taken, held, if_pos rfl, List.reverse_cons, List.append_assoc]
    · simpa [pushedTo, poppedFrom, same, Ne.symm same] using held
  | @pops queues queue' jobID _ _ _ popped =>
    by_cases same : queue' = queue
    · subst same
      rw [popped.last] at held
      simpa [pushedTo, poppedFrom] using held
    · rw [popped.others queue (Ne.symm same)]
      simpa [pushedTo, poppedFrom, same] using held
  | waits _ | schedules | takes => simpa [pushedTo, poppedFrom] using held

/-- In every sequence of calls, what was popped from a queue followed by what it still holds is
what was pushed to it.  A `Pop` takes the oldest identifier of the first of its queues that has
one and leaves the others alone; it comes back empty only if all of them are. -/
theorem queues_fifo {t : Trace} (reachable : calls.Reachable anyCall t) :
    (∀ queue, pushedTo queue t.log =
      poppedFrom queue t.log ++ (contents queue t.redis).reverse) ∧
    (∀ queues jobID redis, pop queues t.redis = some (jobID, redis) →
      ∃ queue, t.step (.pop queues) = ⟨redis, t.log ++ [.popped queues (queueKey queue) jobID]⟩ ∧
        Earliest t.redis queues queue ∧
        contents queue t.redis = contents queue redis ++ [jobID] ∧
        ∀ queue' ≠ queue, contents queue' redis = contents queue' t.redis) ∧
    (∀ queues, pop queues t.redis = none ↔ ∀ queue ∈ queues, contents queue t.redis = []) := by
  refine ⟨fun queue => ?_, fun queues jobID redis taken => ?_, fun queues => pop_eq_none⟩
  · exact Trace.invariant (P := InOrder queue) rfl (fun step held => held.step step) reachable
  · obtain ⟨event, redis', equal, step⟩ := t.step_cases (.pop queues)
    cases step with
    | waits none =>
      rw [none] at taken
      cases taken
    | @pops _ queue _ _ found earliest popped =>
      rw [found] at taken
      cases taken
      exact ⟨queue, equal, earliest, popped.last, popped.others⟩

/-- Two pushes to one queue and one to another, and a pop that asks for both. -/
def mixedCalls : List Queue.Call :=
  [.push "email" "first", .push "email" "second", .push "report" "third", .pop ["default", "email"]]

theorem mixedCalls_fifo : ∃ t, calls.Reachable anyCall t ∧
    poppedFrom "email" t.log = ["first"] ∧ contents "email" t.redis = ["second"] ∧
    pushedTo "email" t.log = poppedFrom "email" t.log ++ (contents "email" t.redis).reverse := by
  have ⟨t, reachable, popped, held⟩ : ∃ t, calls.Reachable anyCall t ∧
      poppedFrom "email" t.log = ["first"] ∧ contents "email" t.redis = ["second"] :=
    Transition.System.exists_reachable_of_exec mixedCalls rfl (by decide +kernel)
  exact ⟨t, reachable, popped, held, (queues_fifo reachable).1 "email"⟩

end GoQueue.Verified
