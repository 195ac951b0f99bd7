import GoQueue.System.Solo

/-! # One operation at a time

Runs that are made of whole operations: the next one begins when the one before has made its
last call.  Time may pass at any point.  The operations are those of the whole system, from
which such a run may start at any state; what else was under way there stands still.
-/

namespace GoQueue

/-- The stores with the operation that is under way, or with the last one. -/
structure Turn where
  world : World
  op : Op

namespace Turn

inductive Action where
  | wait (elapsed : Nat)
  | begin (task : Task)
  | pop
  | call (reply : Reply)
deriving DecidableEq

/-- Nothing is under way. -/
def idle (w : World) : Turn := ⟨w, .processJob .returned⟩

def step (cfg : Config) (t : Turn) : Action → Option Turn
  | .wait elapsed => some { t with world := { t.world with now := t.world.now + elapsed } }
  | .begin task => if t.op.ended then some ⟨t.world, task.start⟩ else none
  | .pop =>
    if t.op.ended then
      (Queue.pop cfg.queues t.world.redis).map fun (jobIDStr, redis) =>
        ⟨{ t.world with redis := redis }, .processJob (.popped jobIDStr)⟩
    else none
  | .call reply => (t.op.step cfg t.world reply).map fun (e, op') => ⟨t.world.apply e, op'⟩

inductive Step (cfg : Config) (t : Turn) : Action → Turn → Prop where
  | waits {elapsed} :
      Step cfg t (.wait elapsed) { t with world := { t.world with now := t.world.now + elapsed } }
  | begins {task} : t.op.ended = true → Step cfg t (.begin task) ⟨t.world, task.start⟩
  | pops {queue jobIDStr redis} : t.op.ended = true →
      Queue.Popped t.world.redis cfg.queues queue jobIDStr redis →
      Step cfg t .pop ⟨{ t.world with redis := redis }, .processJob (.popped jobIDStr)⟩
  | calls {reply e op'} : Op.Step cfg t.world t.op reply e op' →
      Step cfg t (.call reply) ⟨t.world.apply e, op'⟩

theorem step_cases {cfg : Config} {t u : Turn} {a : Action} (taken : t.step cfg a = some u) :
    Step cfg t a u := by
  cases a with
  | wait elapsed => cases taken; exact .waits
  | begin task =>
    simp only [step, Option.ite_none_right_eq_some, Option.some.injEq] at taken
    obtain ⟨done, rfl⟩ := taken
    exact .begins done
  | pop =>
    simp only [step, Option.ite_none_right_eq_some] at taken
    obtain ⟨done, taken⟩ := taken
    obtain ⟨⟨jobIDStr, redis⟩, found, rfl⟩ := Option.map_eq_some_iff.mp taken
    obtain ⟨queue, popped⟩ := Queue.pop_popped found
    exact .pops done popped
  | call reply =>
    obtain ⟨⟨e, op'⟩, inner, rfl⟩ := Option.map_eq_some_iff.mp taken
    exact .calls (Op.step_cases inner)

end Turn

/-- Everything starts in the stores of a state that the whole system can reach. -/
def sequence (cfg : Config) : Transition.System Turn Turn.Action where
  initial t := ∃ s, (system cfg).Reachable anyAction s ∧ t = .idle s.world
  step := Turn.step cfg

namespace Turn

variable {cfg : Config} {permitted : Turn → Action → Prop} {t : Turn}

/-- The whole system takes the same steps. -/
theorem exists_state (reachable : (sequence cfg).Reachable permitted t) :
    ∃ ops, (system cfg).Reachable anyAction ⟨t.world, ops⟩ ∧
      (t.op.ended = true ∨ ∃ front, ops = front ++ [t.op]) := by
  refine reachable.invariant (P := fun t => ∃ ops, (system cfg).Reachable anyAction ⟨t.world, ops⟩ ∧
    (t.op.ended = true ∨ ∃ front, ops = front ++ [t.op])) ?_ ?_
  · rintro _ ⟨s, reached, rfl⟩
    exact ⟨s.ops, reached, .inl rfl⟩
  · rintro t a u - - taken ⟨ops, reached, last⟩
    have along {a : GoQueue.Action} {s : State} (moves : State.step cfg ⟨t.world, ops⟩ a = some s) :
        (system cfg).Reachable anyAction s := reached.step trivial moves
    cases a with
    | wait elapsed =>
      cases taken
      exact ⟨ops, along (a := .tick elapsed) rfl, last⟩
    | begin task =>
      simp only [sequence, step, Option.ite_none_right_eq_some, Option.some.injEq] at taken
      obtain ⟨_, rfl⟩ := taken
      exact ⟨_, along (a := .begin task) rfl, .inr ⟨ops, rfl⟩⟩
    | pop =>
      simp only [sequence, step, Option.ite_none_right_eq_some] at taken
      obtain ⟨⟨jobIDStr, redis⟩, found, rfl⟩ := Option.map_eq_some_iff.mp taken.2
      exact ⟨_, along (a := .pop) (by simp only [State.step, found]; rfl), .inr ⟨ops, rfl⟩⟩
    | call reply =>
      obtain ⟨⟨e, op'⟩, inner, rfl⟩ := Option.map_eq_some_iff.mp taken
      have going := (Op.step_cases inner).not_ended
      obtain done | ⟨front, rfl⟩ := last
      · rw [going] at done
        cases done
      · have place : (front ++ [t.op])[front.length]? = some t.op := by simp
        refine ⟨_, along (a := .run front.length reply) (State.step_run place inner), .inr ⟨front, ?_⟩⟩
        simp

theorem sound_of_reachable (reachable : (sequence cfg).Reachable permitted t) :
    t.world.Sound cfg ∧ t.op.Sound cfg t.world := by
  obtain ⟨ops, reached, last⟩ := exists_state reachable
  have sound := reachable_sound reached
  refine ⟨sound.world, ?_⟩
  obtain done | ⟨front, rfl⟩ := last
  · exact Op.sound_of_ended done
  · exact sound.ops t.op (by simp)

end Turn

end GoQueue
