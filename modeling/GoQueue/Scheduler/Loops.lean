import GoQueue.Library.Transition
import GoQueue.Library.Places

/-! # Starting and stopping the scheduler's loops

`Scheduler.Start` and `Scheduler.Stop` of `internal/scheduler/scheduler.go`, called by any number
of goroutines, with the three loops that `Start` spawns.  The methods hold `s.mu` from their first
statement on; the loops do not take it, and each reads the field `s.ctx` when it gets to run, which
may be long after `Start` has returned.

A context is known by its place among those that `Start` has made.  What a loop does in one of its
passes is the subject of other modules; here a pass begins and ends.
-/

namespace GoQueue.Scheduler.Loops

inductive Kind where
  | scheduled
  | recovery
  | staleCheck
deriving DecidableEq

inductive LoopPoint where
  /-- Before the goroutine reads `s.ctx`. -/
  | unstarted
  /-- In the `select`. -/
  | selecting (ctx : Nat)
  /-- In `processScheduledJobs`, `recoverUnqueuedJobs` or `recoverStaleJobs`. -/
  | passing (ctx : Nat)
  /-- Before the deferred `s.wg.Done()`. -/
  | leaving (ctx : Nat)
deriving DecidableEq

/-- A goroutine of `Start`; `made` is the context of the call that spawned it. -/
structure Loop where
  kind : Kind
  made : Nat
  point : LoopPoint
deriving DecidableEq

inductive Method where
  | start
  | stop
deriving DecidableEq

/-- Where a caller is; the first three points and the last two are those of both methods. -/
inductive Point where
  /-- Before `s.mu.Lock()`. -/
  | locking
  /-- Before the test of `s.running`. -/
  | testing
  /-- `Start`, before `context.WithCancel`. -/
  | making
  /-- `Start`, which has made this context, before `s.wg.Add(3)`. -/
  | adding (made : Nat)
  /-- `Start`, before the `go` statements of these loops. -/
  | spawning (made : Nat) (left : List Kind)
  /-- `Start`, before `s.running = true`. -/
  | setting
  /-- `Stop`, before `s.cancel()`. -/
  | cancelling
  /-- `Stop`, in `s.wg.Wait()`. -/
  | waiting
  /-- `Stop`, before `s.running = false`. -/
  | clearing
  /-- Before the deferred `s.mu.Unlock()`. -/
  | unlocking
  | returned
deriving DecidableEq

structure Caller where
  method : Method
  point : Point
deriving DecidableEq

structure State where
  /-- The caller that holds `s.mu`. -/
  mu : Option Nat
  running : Bool
  /-- `s.ctx`, of which `s.cancel` is the cancel function. -/
  ctx : Option Nat
  wg : Nat
  /-- Of each context that was made, whether it was cancelled. -/
  cancelled : List Bool
  parentDone : Bool
  /-- The loops that have not returned. -/
  loops : List Loop
  callers : List Caller
  panicked : Bool
deriving DecidableEq

namespace State

def initial : State := ⟨none, false, none, 0, [], false, [], [], false⟩

def panic (s : State) : State := { s with panicked := true }

/-- Whether the channel of the context is closed. -/
def done (s : State) (ctx : Nat) : Bool := s.parentDone || s.cancelled[ctx]?.getD false

def goTo (s : State) (k : Nat) (c : Caller) (point : Point) : State :=
  { s with callers := s.callers.set k { c with point := point } }

/-- The next step of a caller. -/
def stepCaller (s : State) (k : Nat) (c : Caller) : Option State :=
  match c.point with
  | .locking => if s.mu = none then some (goTo { s with mu := some k } k c .testing) else none
  | .testing => match c.method with
    | .start => some (s.goTo k c (if s.running then .unlocking else .making))
    | .stop => some (s.goTo k c (if s.running then .cancelling else .unlocking))
  | .making =>
    some (goTo { s with ctx := some s.cancelled.length, cancelled := s.cancelled ++ [false] }
      k c (.adding s.cancelled.length))
  | .adding made =>
    some (goTo { s with wg := s.wg + 3 } k c (.spawning made [.scheduled, .recovery, .staleCheck]))
  | .spawning _ [] => some (s.goTo k c .setting)
  | .spawning made (kind :: left) =>
    some (goTo { s with loops := s.loops ++ [⟨kind, made, .unstarted⟩] } k c (.spawning made left))
  | .setting => some (goTo { s with running := true } k c .unlocking)
  | .cancelling => match s.ctx with
    -- a call of a nil function
    | none => some s.panic
    | some ctx => some (goTo { s with cancelled := s.cancelled.set ctx true } k c .waiting)
  | .waiting => if s.wg = 0 then some (s.goTo k c .clearing) else none
  | .clearing => some (goTo { s with running := false } k c .unlocking)
  | .unlocking => some (goTo { s with mu := none } k c .returned)
  | .returned => none

/-- The next step of a loop; `tick` is the choice of its `select`. -/
def stepLoop (s : State) (n : Nat) (l : Loop) (tick : Bool) : Option State :=
  match l.point with
  | .unstarted => match s.ctx with
    -- a method call on a nil context
    | none => some s.panic
    | some ctx => some { s with loops := s.loops.set n { l with point := .selecting ctx } }
  | .selecting ctx =>
    if tick then some { s with loops := s.loops.set n { l with point := .passing ctx } }
    else if s.done ctx then some { s with loops := s.loops.set n { l with point := .leaving ctx } }
    else none
  | .passing ctx => some { s with loops := s.loops.set n { l with point := .selecting ctx } }
  | .leaving _ =>
    -- the counter of a `WaitGroup` must not become negative
    if s.wg = 0 then some s.panic else some { s with wg := s.wg - 1, loops := s.loops.eraseIdx n }

inductive Action where
  /-- A goroutine calls the method. -/
  | call (method : Method)
  /-- The next step of a caller. -/
  | caller (k : Nat)
  /-- The next step of a loop. -/
  | loop (n : Nat) (tick : Bool)
  /-- The parent context is cancelled. -/
  | cancel
deriving DecidableEq

def step (s : State) (a : Action) : Option State :=
  if s.panicked then none
  else match a with
    | .call method => some { s with callers := s.callers ++ [⟨method, .locking⟩] }
    | .caller k => s.callers[k]?.bind (s.stepCaller k)
    | .loop n tick => s.loops[n]?.bind (s.stepLoop n · tick)
    | .cancel => some { s with parentDone := true }

/-! ## What a step can do -/

/-- The steps of a caller, by what they do to the fields of the scheduler. -/
inductive CallerStep (s : State) (k : Nat) (c : Caller) : State → Prop where
  | locks : c.point = .locking → s.mu = none →
      CallerStep s k c (goTo { s with mu := some k } k c .testing)
  | starts : c.point = .testing → c.method = .start → s.running = false →
      CallerStep s k c (s.goTo k c .making)
  | stops : c.point = .testing → c.method = .stop → s.running = true →
      CallerStep s k c (s.goTo k c .cancelling)
  | skips : c.point = .testing → s.running = decide (c.method = .start) →
      CallerStep s k c (s.goTo k c .unlocking)
  | makes : c.point = .making →
      CallerStep s k c
        (goTo { s with ctx := some s.cancelled.length, cancelled := s.cancelled ++ [false] }
          k c (.adding s.cancelled.length))
  | adds {made} : c.point = .adding made →
      CallerStep s k c
        (goTo { s with wg := s.wg + 3 } k c (.spawning made [.scheduled, .recovery, .staleCheck]))
  | spawns {made kind left} : c.point = .spawning made (kind :: left) →
      CallerStep s k c
        (goTo { s with loops := s.loops ++ [⟨kind, made, .unstarted⟩] } k c (.spawning made left))
  | spawned {made} : c.point = .spawning made [] → CallerStep s k c (s.goTo k c .setting)
  | sets : c.point = .setting → CallerStep s k c (goTo { s with running := true } k c .unlocking)
  | cancels {ctx} : c.point = .cancelling → s.ctx = some ctx →
      CallerStep s k c (goTo { s with cancelled := s.cancelled.set ctx true } k c .waiting)
  | uncancelled : c.point = .cancelling → s.ctx = none → CallerStep s k c s.panic
  | waits : c.point = .waiting → s.wg = 0 → CallerStep s k c (s.goTo k c .clearing)
  | clears : c.point = .clearing →
      CallerStep s k c (goTo { s with running := false } k c .unlocking)
  | unlocks : c.point = .unlocking → CallerStep s k c (goTo { s with mu := none } k c .returned)

/-- The steps of a loop. -/
inductive LoopStep (s : State) (n : Nat) (l : Loop) : State → Prop where
  | reads {ctx} : l.point = .unstarted → s.ctx = some ctx →
      LoopStep s n l { s with loops := s.loops.set n { l with point := .selecting ctx } }
  | unread : l.point = .unstarted → s.ctx = none → LoopStep s n l s.panic
  | ticks {ctx} : l.point = .selecting ctx →
      LoopStep s n l { s with loops := s.loops.set n { l with point := .passing ctx } }
  | passes {ctx} : l.point = .passing ctx →
      LoopStep s n l { s with loops := s.loops.set n { l with point := .selecting ctx } }
  | ends {ctx} : l.point = .selecting ctx → s.done ctx = true →
      LoopStep s n l { s with loops := s.loops.set n { l with point := .leaving ctx } }
  | leaves {ctx} : l.point = .leaving ctx → s.wg ≠ 0 →
      LoopStep s n l { s with wg := s.wg - 1, loops := s.loops.eraseIdx n }
  | overdone {ctx} : l.point = .leaving ctx → s.wg = 0 → LoopStep s n l s.panic

inductive Step (s : State) : Action → State → Prop where
  | calls {method} :
      Step s (.call method) { s with callers := s.callers ++ [⟨method, .locking⟩] }
  | caller {k c t} : s.callers[k]? = some c → CallerStep s k c t → Step s (.caller k) t
  | loop {n l t tick} : s.loops[n]? = some l → LoopStep s n l t → Step s (.loop n tick) t
  | cancel : Step s .cancel { s with parentDone := true }

theorem stepCaller_cases {s t : State} {k : Nat} {c : Caller} (taken : s.stepCaller k c = some t) :
    CallerStep s k c t := by
  cases place : c.point <;> simp only [stepCaller, place] at taken
  case locking =>
    split at taken
    case isTrue free => cases taken; exact .locks place free
    case isFalse => cases taken
  case testing =>
    cases method : c.method <;> simp only [method] at taken <;> cases taken
    all_goals split
    case start.refl.isTrue running => exact .skips place (by simp [method, running])
    case start.refl.isFalse idle => exact .starts place method (by simpa using idle)
    case stop.refl.isTrue running => exact .stops place method running
    case stop.refl.isFalse idle => exact .skips place (by simpa [method] using idle)
  case making => cases taken; exact .makes place
  case adding made => cases taken; exact .adds place
  case spawning made left =>
    cases left with
    | nil => cases taken; exact .spawned place
    | cons kind left => cases taken; exact .spawns place
  case setting => cases taken; exact .sets place
  case cancelling =>
    split at taken
    case h_1 field => cases taken; exact .uncancelled place field
    case h_2 field => cases taken; exact .cancels place field
  case waiting =>
    split at taken
    case isTrue empty => cases taken; exact .waits place empty
    case isFalse => cases taken
  case clearing => cases taken; exact .clears place
  case unlocking => cases taken; exact .unlocks place
  case returned => cases taken

theorem stepLoop_cases {s t : State} {n : Nat} {l : Loop} {tick : Bool}
    (taken : s.stepLoop n l tick = some t) : LoopStep s n l t := by
  cases place : l.point <;> simp only [stepLoop, place] at taken
  case unstarted =>
    split at taken
    case h_1 field => cases taken; exact .unread place field
    case h_2 field => cases taken; exact .reads place field
  case selecting ctx =>
    split at taken
    case isTrue => cases taken; exact .ticks place
    case isFalse =>
      split at taken
      case isTrue done => cases taken; exact .ends place done
      case isFalse => cases taken
  case passing ctx => cases taken; exact .passes place
  case leaving ctx =>
    split at taken
    case isTrue empty => cases taken; exact .overdone place empty
    case isFalse counted => cases taken; exact .leaves place counted

theorem step_cases {s t : State} {a : Action} (taken : s.step a = some t) : Step s a t := by
  unfold step at taken
  split at taken
  · cases taken
  · cases a <;> simp only at taken
    case call method => cases taken; exact .calls
    case caller k =>
      obtain ⟨c, found, inner⟩ := Option.bind_eq_some_iff.mp taken
      exact .caller found (stepCaller_cases inner)
    case loop n tick =>
      obtain ⟨l, found, inner⟩ := Option.bind_eq_some_iff.mp taken
      exact .loop found (stepLoop_cases inner)
    case cancel => cases taken; exact .cancel

end State

def system : Transition.System State State.Action where
  initial s := s = State.initial
  step := State.step

/-- Runs without restriction. -/
def anyStep (_ : State) (_ : State.Action) : Prop := True

instance (s : State) (a : State.Action) : Decidable (anyStep s a) :=
  inferInstanceAs (Decidable True)

end GoQueue.Scheduler.Loops
