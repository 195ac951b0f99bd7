import GoQueue.Leader.Leader

/-! # Stopping the elector

`main` cancels its context and calls `LeaderElector.Stop` while the goroutine of
`LeaderElector.Start` may be anywhere.  Both use the field `conn` without a lock, and each use
reads the field again: a test for nil and the method call after it may see different values.

Here every read and write of the field is a step of its own.  A connection is known by its place
among those that were made; the field holds one of them or nil, and a method called on nil panics.
A query and its answer are one step.
The database answers as it likes.
-/

namespace GoQueue.Leader

/-- Where the goroutine of `Start` is. -/
inductive StartPoint where
  | head
  /-- Before `e.conn == nil` in `tryAcquire`. -/
  | testingNil
  /-- Before `e.conn.IsClosed()` in `tryAcquire`. -/
  | testingClosed
  /-- Before `pgx.Connect`. -/
  | dialing
  /-- In `pgx.Connect`. -/
  | connecting
  /-- Before `e.conn = conn`. -/
  | assigning (c : Nat)
  /-- Before the lock query. -/
  | querying
  /-- Before `e.conn.Close(ctx)` in `tryAcquire`. -/
  | discarding
  /-- Before `e.conn = nil` in `tryAcquire`. -/
  | clearing
  | sleeping
  /-- `tryAcquire` has returned nil. -/
  | acquired
  /-- `isLeader` is set, `onAcquire` comes next. -/
  | starting
  /-- In the `select` of `holdLock`. -/
  | holding
  /-- Before the query of `verifyLock`. -/
  | verifying
  /-- Before `e.conn != nil` in `holdLock`. -/
  | leavingNil
  /-- Before `e.conn.IsClosed()` in `holdLock`. -/
  | leavingClosed
  /-- Before `e.conn.Close` in `holdLock`. -/
  | leaving
  /-- Before `e.conn = nil` in `holdLock`. -/
  | forgetting
  /-- `holdLock` has returned. -/
  | lost
  /-- `isLeader` is cleared, `onRelease` comes next. -/
  | stopping
  /-- In `Scheduler.Stop`, waiting for the loops. -/
  | waiting
  | returned
deriving DecidableEq

/-- Where `main` is in `Stop`. -/
inductive StopPoint where
  | uncalled
  /-- Before `e.conn != nil`. -/
  | testingNil
  /-- Before `e.conn.IsClosed()`. -/
  | testingClosed
  /-- Before `e.conn.Close`. -/
  | closing
  /-- Before `e.conn = nil`. -/
  | clearing
  /-- Before `e.isLeader.Store(false)`. -/
  | storing
  | returned
deriving DecidableEq

/-- Where the next step of `Start` calls a method of `e.conn`. -/
def StartPoint.calls : StartPoint → Bool
  | .testingClosed | .querying | .discarding | .verifying | .leavingClosed | .leaving => true
  | .head | .testingNil | .dialing | .connecting | .assigning _ | .clearing | .sleeping | .acquired
  | .starting | .holding | .leavingNil | .forgetting | .lost | .stopping | .waiting
  | .returned => false

/-- Where the next step of `Stop` calls a method of `e.conn`. -/
def StopPoint.calls : StopPoint → Bool
  | .testingClosed | .closing => true
  | .uncalled | .testingNil | .clearing | .storing | .returned => false

/-- What the database, the clock or the context has come to. -/
inductive Outcome where
  /-- The call succeeds; in `holdLock` the ticker fires. -/
  | ok
  /-- The server answers that the lock is not granted, or not held. -/
  | refused
  /-- The call fails; pgx may close the connection. -/
  | fail (closes : Bool)
  /-- The context is done. -/
  | done
deriving DecidableEq

/-- One process: its elector and the two goroutines that use it. -/
structure Process where
  conn : Option Nat
  /-- Of each connection that was made, whether it is closed. -/
  closed : List Bool
  isLeader : Bool
  ctxDone : Bool
  scheduler : Scheduler
  start : StartPoint
  stop : StopPoint
  panicked : Bool
deriving DecidableEq

namespace Process

def initial : Process := ⟨none, [], false, false, ⟨false, false, 0⟩, .head, .uncalled, false⟩

def isClosed (s : Process) (c : Nat) : Bool := s.closed[c]?.getD true

def close (s : Process) (c : Nat) : Process := { s with closed := s.closed.set c true }

/-- A method call on `e.conn`. -/
def onConn (s : Process) (call : Nat → Option Process) : Option Process :=
  match s.conn with
  | none => some { s with panicked := true }
  | some c => call c

def stepStart (s : Process) : Outcome → Option Process
  | .ok => match s.start with
    | .head => some { s with start := if s.ctxDone then .returned else .testingNil }
    | .testingNil => some { s with start := if s.conn = none then .dialing else .testingClosed }
    | .testingClosed => s.onConn fun c =>
      some { s with start := if s.isClosed c then .dialing else .querying }
    -- with a context that is done the call fails at once
    | .dialing => if s.ctxDone then none else some { s with start := .connecting }
    | .connecting =>
      some { s with closed := s.closed ++ [false], start := .assigning s.closed.length }
    | .assigning c => some { s with conn := some c, start := .querying }
    | .querying => s.onConn fun c => if s.isClosed c then none else some { s with start := .acquired }
    | .discarding => s.onConn fun c => some { s.close c with start := .clearing }
    | .clearing => some { s with conn := none, start := .sleeping }
    | .sleeping => some { s with start := .head }
    | .acquired => some { s with isLeader := true, start := .starting }
    | .starting => some { s with scheduler := s.scheduler.start, start := .holding }
    | .holding => some { s with start := .verifying }
    | .verifying => s.onConn fun c => if s.isClosed c then none else some { s with start := .holding }
    | .leavingNil => some { s with start := if s.conn = none then .lost else .leavingClosed }
    | .leavingClosed => s.onConn fun c =>
      some { s with start := if s.isClosed c then .lost else .leaving }
    | .leaving => s.onConn fun c => some { s.close c with start := .forgetting }
    | .forgetting => some { s with conn := none, start := .lost }
    | .lost => some { s with isLeader := false, start := .stopping }
    | .stopping =>
      if s.scheduler.running then
        some { s with scheduler := { s.scheduler with cancelled := true }, start := .waiting }
      else some { s with start := .head }
    | .waiting =>
      if s.scheduler.loops = 0 then
        some { s with scheduler := { s.scheduler with running := false }, start := .head }
      else none
    | .returned => none
  | .refused => match s.start with
    | .querying => s.onConn fun c =>
      if s.isClosed c then none else some { s with start := .discarding }
    | .verifying => s.onConn fun c =>
      if s.isClosed c then none else some { s with start := .leavingNil }
    | _ => none
  | .fail closes => match s.start with
    | .dialing | .connecting => some { s with start := .sleeping }
    | .querying => s.onConn fun c =>
      some { (if closes then s.close c else s) with start := .discarding }
    | .verifying => s.onConn fun c =>
      some { (if closes then s.close c else s) with start := .leavingNil }
    | _ => none
  | .done => match s.start with
    | .holding => if s.ctxDone then some { s with start := .leavingNil } else none
    | _ => none

def stepStop (s : Process) : Option Process :=
  match s.stop with
  -- `main` cancels the context first
  | .uncalled => if s.ctxDone then some { s with stop := .testingNil } else none
  | .testingNil => some { s with stop := if s.conn = none then .storing else .testingClosed }
  | .testingClosed => s.onConn fun c =>
    some { s with stop := if s.isClosed c then .storing else .closing }
  | .closing => s.onConn fun c => some { s.close c with stop := .clearing }
  | .clearing => some { s with conn := none, stop := .storing }
  | .storing => some { s with isLeader := false, stop := .returned }
  | .returned => none

inductive Action where
  /-- The next step of `Start`. -/
  | start (outcome : Outcome)
  /-- The next step of `Stop`. -/
  | stop
  /-- One of the scheduler's loops returns. -/
  | exit
  /-- `main` cancels the context. -/
  | cancel
deriving DecidableEq

def step (s : Process) (a : Action) : Option Process :=
  if s.panicked then none
  else match a with
    | .start outcome => s.stepStart outcome
    | .stop => s.stepStop
    | .exit => (s.scheduler.exit s.ctxDone).map fun scheduler => { s with scheduler := scheduler }
    | .cancel => some { s with ctxDone := true }

def system : Transition.System Process Action where
  initial s := s = initial
  step := step

/-- Runs without restriction. -/
def anyStep (_ : Process) (_ : Action) : Prop := True

instance (s : Process) (a : Action) : Decidable (anyStep s a) := inferInstanceAs (Decidable True)

/-! ## What a step can do -/

/-- The steps of `Start`. -/
inductive StartStep (s : Process) : Outcome → Process → Prop where
  | returns : s.start = .head → s.ctxDone = true → StartStep s .ok { s with start := .returned }
  | tries : s.start = .head → s.ctxDone = false → StartStep s .ok { s with start := .testingNil }
  | missing : s.start = .testingNil → s.conn = none → StartStep s .ok { s with start := .dialing }
  | present {c} : s.start = .testingNil → s.conn = some c →
      StartStep s .ok { s with start := .testingClosed }
  | replaced {c} : s.start = .testingClosed → s.conn = some c → s.isClosed c = true →
      StartStep s .ok { s with start := .dialing }
  | reused {c} : s.start = .testingClosed → s.conn = some c → s.isClosed c = false →
      StartStep s .ok { s with start := .querying }
  | dials : s.start = .dialing → s.ctxDone = false → StartStep s .ok { s with start := .connecting }
  | connected : s.start = .connecting →
      StartStep s .ok { s with closed := s.closed ++ [false], start := .assigning s.closed.length }
  | unconnected {closes} : s.start = .dialing ∨ s.start = .connecting →
      StartStep s (.fail closes) { s with start := .sleeping }
  | assigned {c} : s.start = .assigning c →
      StartStep s .ok { s with conn := some c, start := .querying }
  | granted {c} : s.start = .querying → s.conn = some c → s.isClosed c = false →
      StartStep s .ok { s with start := .acquired }
  | refused {c} : s.start = .querying → s.conn = some c → s.isClosed c = false →
      StartStep s .refused { s with start := .discarding }
  | unasked {c closes} : s.start = .querying → s.conn = some c →
      StartStep s (.fail closes) { (if closes then s.close c else s) with start := .discarding }
  | discarded {c} : s.start = .discarding → s.conn = some c →
      StartStep s .ok { s.close c with start := .clearing }
  | cleared : s.start = .clearing → StartStep s .ok { s with conn := none, start := .sleeping }
  | awakes : s.start = .sleeping → StartStep s .ok { s with start := .head }
  | leads : s.start = .acquired → StartStep s .ok { s with isLeader := true, start := .starting }
  | started : s.start = .starting →
      StartStep s .ok { s with scheduler := s.scheduler.start, start := .holding }
  | ticks : s.start = .holding → StartStep s .ok { s with start := .verifying }
  | cancelled : s.start = .holding → s.ctxDone = true →
      StartStep s .done { s with start := .leavingNil }
  | verified {c} : s.start = .verifying → s.conn = some c → s.isClosed c = false →
      StartStep s .ok { s with start := .holding }
  | unheld {c} : s.start = .verifying → s.conn = some c → s.isClosed c = false →
      StartStep s .refused { s with start := .leavingNil }
  | unverified {c closes} : s.start = .verifying → s.conn = some c →
      StartStep s (.fail closes) { (if closes then s.close c else s) with start := .leavingNil }
  | gone : s.start = .leavingNil → s.conn = none → StartStep s .ok { s with start := .lost }
  | there {c} : s.start = .leavingNil → s.conn = some c →
      StartStep s .ok { s with start := .leavingClosed }
  | closed {c} : s.start = .leavingClosed → s.conn = some c → s.isClosed c = true →
      StartStep s .ok { s with start := .lost }
  | stillOpen {c} : s.start = .leavingClosed → s.conn = some c → s.isClosed c = false →
      StartStep s .ok { s with start := .leaving }
  | leaves {c} : s.start = .leaving → s.conn = some c →
      StartStep s .ok { s.close c with start := .forgetting }
  | forgets : s.start = .forgetting → StartStep s .ok { s with conn := none, start := .lost }
  | follows : s.start = .lost → StartStep s .ok { s with isLeader := false, start := .stopping }
  | stops : s.start = .stopping → s.scheduler.running = true →
      StartStep s .ok
        { s with scheduler := { s.scheduler with cancelled := true }, start := .waiting }
  | idle : s.start = .stopping → s.scheduler.running = false →
      StartStep s .ok { s with start := .head }
  | stopped : s.start = .waiting → s.scheduler.loops = 0 →
      StartStep s .ok { s with scheduler := { s.scheduler with running := false }, start := .head }

/-- The steps of `Stop`. -/
inductive StopStep (s : Process) : Process → Prop where
  | called : s.stop = .uncalled → s.ctxDone = true → StopStep s { s with stop := .testingNil }
  | missing : s.stop = .testingNil → s.conn = none → StopStep s { s with stop := .storing }
  | present {c} : s.stop = .testingNil → s.conn = some c →
      StopStep s { s with stop := .testingClosed }
  | closed {c} : s.stop = .testingClosed → s.conn = some c → s.isClosed c = true →
      StopStep s { s with stop := .storing }
  | stillOpen {c} : s.stop = .testingClosed → s.conn = some c → s.isClosed c = false →
      StopStep s { s with stop := .closing }
  | closes {c} : s.stop = .closing → s.conn = some c → StopStep s { s.close c with stop := .clearing }
  | clears : s.stop = .clearing → StopStep s { s with conn := none, stop := .storing }
  | stores : s.stop = .storing → StopStep s { s with isLeader := false, stop := .returned }

inductive Step (s : Process) : Action → Process → Prop where
  | start {outcome t} : StartStep s outcome t → Step s (.start outcome) t
  | stop {t} : StopStep s t → Step s .stop t
  | exit {scheduler} : s.scheduler.exit s.ctxDone = some scheduler →
      Step s .exit { s with scheduler := scheduler }
  | cancel : Step s .cancel { s with ctxDone := true }
  /-- A method is called on nil. -/
  | panics {a} : s.conn = none → s.start.calls = true ∨ s.stop.calls = true →
      Step s a { s with panicked := true }

/-- A method of the connection is called, which panics if there is none. -/
theorem Step.of_onConn {s t : Process} {a : Action} {call : Nat → Option Process}
    (calls : s.start.calls = true ∨ s.stop.calls = true) (taken : s.onConn call = some t)
    (present : ∀ c, s.conn = some c → call c = some t → Step s a t) : Step s a t := by
  unfold onConn at taken
  split at taken
  case h_1 missing =>
    cases taken
    exact .panics missing calls
  case h_2 c found => exact present c found taken

/-- The method succeeds only on an open connection. -/
theorem Step.of_open {s t u : Process} {a : Action}
    (calls : s.start.calls = true ∨ s.stop.calls = true)
    (taken : (s.onConn fun c => if s.isClosed c then none else some u) = some t)
    (stillOpen : ∀ c, s.conn = some c → s.isClosed c = false → Step s a u) : Step s a t := by
  refine .of_onConn calls taken fun c present taken => ?_
  split at taken
  case isTrue => cases taken
  case isFalse unclosed =>
    cases taken
    exact stillOpen c present (by simpa using unclosed)

theorem stepStart_cases {s t : Process} {outcome : Outcome}
    (taken : s.stepStart outcome = some t) : Step s (.start outcome) t := by
  cases outcome with
  | ok =>
    cases place : s.start <;> simp only [stepStart, place] at taken
    case head =>
      cases taken
      split
      case isTrue done => exact .start (.returns place done)
      case isFalse going => exact .start (.tries place (by simpa using going))
    case testingNil =>
      cases taken
      split
      case isTrue missing => exact .start (.missing place missing)
      case isFalse present =>
        obtain ⟨c, present⟩ := Option.ne_none_iff_exists'.mp present
        exact .start (.present place present)
    case testingClosed =>
      refine .of_onConn (.inl (by rw [place]; rfl)) taken fun c present taken => ?_
      cases taken
      split
      case isTrue closed => exact .start (.replaced place present closed)
      case isFalse stillOpen => exact .start (.reused place present (by simpa using stillOpen))
    case dialing =>
      split at taken
      case isTrue => cases taken
      case isFalse going => cases taken; exact .start (.dials place (by simpa using going))
    case connecting => cases taken; exact .start (.connected place)
    case assigning c => cases taken; exact .start (.assigned place)
    case querying =>
      exact .of_open (.inl (by rw [place]; rfl)) taken fun c present stillOpen =>
        .start (.granted place present stillOpen)
    case discarding =>
      refine .of_onConn (.inl (by rw [place]; rfl)) taken fun c present taken => ?_
      cases taken
      exact .start (.discarded place present)
    case clearing => cases taken; exact .start (.cleared place)
    case sleeping => cases taken; exact .start (.awakes place)
    case acquired => cases taken; exact .start (.leads place)
    case starting => cases taken; exact .start (.started place)
    case holding => cases taken; exact .start (.ticks place)
    case verifying =>
      exact .of_open (.inl (by rw [place]; rfl)) taken fun c present stillOpen =>
        .start (.verified place present stillOpen)
    case leavingNil =>
      cases taken
      split
      case isTrue missing => exact .start (.gone place missing)
      case isFalse present =>
        obtain ⟨c, present⟩ := Option.ne_none_iff_exists'.mp present
        exact .start (.there place present)
    case leavingClosed =>
      refine .of_onConn (.inl (by rw [place]; rfl)) taken fun c present taken => ?_
      cases taken
      split
      case isTrue closed => exact .start (.closed place present closed)
      case isFalse stillOpen => exact .start (.stillOpen place present (by simpa using stillOpen))
    case leaving =>
      refine .of_onConn (.inl (by rw [place]; rfl)) taken fun c present taken => ?_
      cases taken
      exact .start (.leaves place present)
    case forgetting => cases taken; exact .start (.forgets place)
    case lost => cases taken; exact .start (.follows place)
    case stopping =>
      split at taken
      case isTrue running => cases taken; exact .start (.stops place running)
      case isFalse idle => cases taken; exact .start (.idle place (by simpa using idle))
    case waiting =>
      split at taken
      case isTrue gone => cases taken; exact .start (.stopped place gone)
      case isFalse => cases taken
    case returned => cases taken
  | refused =>
    cases place : s.start <;> simp only [stepStart, place] at taken
    case querying =>
      exact .of_open (.inl (by rw [place]; rfl)) taken fun c present stillOpen =>
        .start (.refused place present stillOpen)
    case verifying =>
      exact .of_open (.inl (by rw [place]; rfl)) taken fun c present stillOpen =>
        .start (.unheld place present stillOpen)
    all_goals cases taken
  | fail closes =>
    cases place : s.start <;> simp only [stepStart, place] at taken
    case dialing => cases taken; exact .start (.unconnected (.inl place))
    case connecting => cases taken; exact .start (.unconnected (.inr place))
    case querying =>
      refine .of_onConn (.inl (by rw [place]; rfl)) taken fun c present taken => ?_
      cases taken
      exact .start (.unasked place present)
    case verifying =>
      refine .of_onConn (.inl (by rw [place]; rfl)) taken fun c present taken => ?_
      cases taken
      exact .start (.unverified place present)
    all_goals cases taken
  | done =>
    cases place : s.start <;> simp only [stepStart, place] at taken
    case holding =>
      split at taken
      case isTrue done => cases taken; exact .start (.cancelled place done)
      case isFalse => cases taken
    all_goals cases taken

theorem stepStop_cases {s t : Process} (taken : s.stepStop = some t) : Step s .stop t := by
  cases place : s.stop <;> simp only [stepStop, place] at taken
  case uncalled =>
    split at taken
    case isTrue done => cases taken; exact .stop (.called place done)
    case isFalse => cases taken
  case testingNil =>
    cases taken
    split
    case isTrue missing => exact .stop (.missing place missing)
    case isFalse present =>
      obtain ⟨c, present⟩ := Option.ne_none_iff_exists'.mp present
      exact .stop (.present place present)
  case testingClosed =>
    refine .of_onConn (.inr (by rw [place]; rfl)) taken fun c present taken => ?_
    cases taken
    split
    case isTrue closed => exact .stop (.closed place present closed)
    case isFalse stillOpen => exact .stop (.stillOpen place present (by simpa using stillOpen))
  case closing =>
    refine .of_onConn (.inr (by rw [place]; rfl)) taken fun c present taken => ?_
    cases taken
    exact .stop (.closes place present)
  case clearing => cases taken; exact .stop (.clears place)
  case storing => cases taken; exact .stop (.stores place)
  case returned => cases taken

theorem step_cases {s t : Process} {a : Action} (taken : s.step a = some t) : Step s a t := by
  unfold step at taken
  split at taken
  · cases taken
  · cases a with
    | start outcome => exact stepStart_cases taken
    | stop => exact stepStop_cases taken
    | exit =>
      obtain ⟨scheduler, exited, rfl⟩ := Option.map_eq_some_iff.mp taken
      exact .exit exited
    | cancel => cases taken; exact .cancel

end Process

end GoQueue.Leader
