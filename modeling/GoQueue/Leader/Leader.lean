import GoQueue.Library.AdvisoryLock
import GoQueue.Library.Transition
import GoQueue.Library.Places

/-! # Leader election

`LeaderElector.Start` of `internal/leader/leader.go` with the callbacks that `main` gives it,
`Scheduler.Start` and `Scheduler.Stop` of `internal/scheduler/scheduler.go`, for any number of
instances on one database server.

As in the other models an instance moves from one program point to the next with each call or
store to a field that others can see, and `Step` names the ways a step can go.  The client's
`Close` and the end of the session on the server are two events: the server ends a session at
any time, because the connection is lost or because it has been closed.
-/

namespace GoQueue.Leader

/-- A session is known by the instance that opened it and a serial number of its own. -/
structure Session where
  client : Nat
  serial : Nat
deriving DecidableEq

abbrev Server := AdvisoryLock Session

/-- The dedicated `pgx.Conn`, with what `IsClosed` answers. -/
structure Conn where
  session : Session
  closed : Bool
deriving DecidableEq

/-! ## The scheduler's life cycle -/

/-- The fields of `Scheduler` that `Start` and `Stop` work on. -/
structure Scheduler where
  running : Bool
  /-- `cancel` was called. -/
  cancelled : Bool
  /-- The loops that have not returned yet, as the `WaitGroup` counts them. -/
  loops : Nat
deriving DecidableEq

namespace Scheduler

def start (s : Scheduler) : Scheduler :=
  if s.running then s else ⟨true, false, s.loops + 3⟩

/-- A loop returns once its context is done: cancelled by `Stop`, or with its parent. -/
def exit (ctxDone : Bool) (s : Scheduler) : Option Scheduler :=
  if 0 < s.loops ∧ (s.cancelled = true ∨ ctxDone = true) then
    some { s with loops := s.loops - 1 }
  else none

@[simp] theorem running_start (s : Scheduler) : s.start.running = true := by
  unfold start
  split
  · assumption
  · rfl

theorem running_exit {ctxDone : Bool} {s s' : Scheduler} (exited : s.exit ctxDone = some s') :
    s'.running = s.running := by
  simp only [exit, Option.ite_none_right_eq_some, Option.some.injEq] at exited
  rw [← exited.2]

end Scheduler

/-! ## The election loop -/

/-- Where the goroutine of `LeaderElector.Start` is. -/
inductive Point where
  /-- At the head of the loop. -/
  | head
  /-- In `tryAcquire`, before `pgx.Connect`. -/
  | connecting
  /-- In `tryAcquire`, before the lock query. -/
  | querying
  /-- In `tryAcquire`, before it closes a connection without the lock. -/
  | discarding
  | sleeping
  /-- `tryAcquire` has returned nil. -/
  | acquired
  /-- `isLeader` is set, `onAcquire` comes next. -/
  | starting
  /-- In the `select` of `holdLock`. -/
  | holding
  /-- In `verifyLock`. -/
  | verifying
  /-- In `holdLock`, before it closes the connection. -/
  | closing
  /-- `holdLock` has returned. -/
  | lost
  /-- `isLeader` is cleared, `onRelease` comes next. -/
  | stopping
  /-- In `Scheduler.Stop`, waiting for the loops. -/
  | waiting
  | returned
deriving DecidableEq

inductive Callback where
  | onAcquire
  | onRelease
deriving DecidableEq

inductive Reply where
  /-- The call succeeds; in `holdLock` the ticker fires. -/
  | ok
  /-- The call fails before the server has seen it; pgx may close the connection. -/
  | fail (closes : Bool)
  /-- The server executes the query and its answer is lost. -/
  | unheard (closes : Bool)
  /-- The context is done. -/
  | done
deriving DecidableEq

structure Elector where
  point : Point
  conn : Option Conn
  isLeader : Bool
  ctxDone : Bool
  scheduler : Scheduler
  /-- The connections made so far. -/
  dials : Nat
  /-- The callbacks that have returned, the last one first. -/
  callbacks : List Callback
deriving DecidableEq

namespace Elector

/-- Before `Start` is called. -/
def initial : Elector := ⟨.head, none, false, false, ⟨false, false, 0⟩, 0, []⟩

/-- pgx closes the connection after an error, or not. -/
def mark (closes : Bool) (conn : Option Conn) : Option Conn :=
  conn.map fun c => { c with closed := c.closed || closes }

def step (i : Nat) (server : Server) (e : Elector) : Reply → Option (Server × Elector)
  | .ok => match e.point with
    | .head =>
      if e.ctxDone then some (server, { e with point := .returned })
      -- a connection that is nil or closed is replaced
      else if e.conn.all Conn.closed then some (server, { e with point := .connecting })
      else some (server, { e with point := .querying })
    | .connecting =>
      some (server.connect ⟨i, e.dials⟩,
        { e with point := .querying, conn := some ⟨⟨i, e.dials⟩, false⟩, dials := e.dials + 1 })
    | .querying => e.conn.bind fun c =>
      if c.closed = false ∧ c.session ∈ server.sessions then
        some (server.tryLock c.session,
          { e with point := if server.available c.session then .acquired else .discarding })
      else none
    | .discarding => some (server, { e with point := .sleeping, conn := none })
    | .sleeping => some (server, { e with point := .head })
    | .acquired => some (server, { e with point := .starting, isLeader := true })
    | .starting =>
      some (server, { e with
        point := .holding, scheduler := e.scheduler.start, callbacks := .onAcquire :: e.callbacks })
    | .holding => some (server, { e with point := .verifying })
    | .verifying => e.conn.bind fun c =>
      if c.closed = false ∧ c.session ∈ server.sessions then
        some (server, { e with point := if server.holds c.session then .holding else .closing })
      else none
    | .closing =>
      some (server, { e with point := .lost, conn := if e.conn.all Conn.closed then e.conn else none })
    | .lost => some (server, { e with point := .stopping, isLeader := false })
    | .stopping =>
      if e.scheduler.running then
        some (server, { e with point := .waiting, scheduler := { e.scheduler with cancelled := true } })
      else some (server, { e with point := .head, callbacks := .onRelease :: e.callbacks })
    | .waiting =>
      if e.scheduler.loops = 0 then
        some (server, { e with
          point := .head, scheduler := { e.scheduler with running := false },
          callbacks := .onRelease :: e.callbacks })
      else none
    | .returned => none
  | .fail closes => match e.point with
    | .connecting => some (server, { e with point := .sleeping })
    | .querying => some (server, { e with point := .discarding, conn := mark closes e.conn })
    | .verifying => some (server, { e with point := .closing, conn := mark closes e.conn })
    | _ => none
  | .unheard closes => match e.point with
    | .querying => e.conn.map fun c =>
      (server.tryLock c.session, { e with point := .discarding, conn := mark closes e.conn })
    | _ => none
  | .done => match e.point with
    | .holding => if e.ctxDone then some (server, { e with point := .closing }) else none
    | _ => none

inductive Step (i : Nat) (server : Server) (e : Elector) : Reply → Server → Elector → Prop where
  | returns : e.point = .head → e.ctxDone = true →
      Step i server e .ok server { e with point := .returned }
  | dials : e.point = .head → e.conn.all Conn.closed = true →
      Step i server e .ok server { e with point := .connecting }
  | reuses : e.point = .head → e.conn.all Conn.closed = false →
      Step i server e .ok server { e with point := .querying }
  | connected : e.point = .connecting →
      Step i server e .ok (server.connect ⟨i, e.dials⟩)
        { e with point := .querying, conn := some ⟨⟨i, e.dials⟩, false⟩, dials := e.dials + 1 }
  | unconnected {closes} : e.point = .connecting →
      Step i server e (.fail closes) server { e with point := .sleeping }
  | granted {c} : e.point = .querying → e.conn = some c → server.available c.session = true →
      Step i server e .ok (server.tryLock c.session) { e with point := .acquired }
  | refused {c} : e.point = .querying → e.conn = some c → server.available c.session = false →
      Step i server e .ok (server.tryLock c.session) { e with point := .discarding }
  | unasked {closes} : e.point = .querying →
      Step i server e (.fail closes) server { e with point := .discarding, conn := mark closes e.conn }
  | unheard {c closes} : e.point = .querying → e.conn = some c →
      Step i server e (.unheard closes) (server.tryLock c.session)
        { e with point := .discarding, conn := mark closes e.conn }
  | discarded : e.point = .discarding →
      Step i server e .ok server { e with point := .sleeping, conn := none }
  | awakes : e.point = .sleeping → Step i server e .ok server { e with point := .head }
  | leads : e.point = .acquired →
      Step i server e .ok server { e with point := .starting, isLeader := true }
  | started : e.point = .starting →
      Step i server e .ok server { e with
        point := .holding, scheduler := e.scheduler.start, callbacks := .onAcquire :: e.callbacks }
  | ticks : e.point = .holding → Step i server e .ok server { e with point := .verifying }
  | cancelled : e.point = .holding → e.ctxDone = true →
      Step i server e .done server { e with point := .closing }
  | verified {c} : e.point = .verifying → e.conn = some c → server.holds c.session = true →
      Step i server e .ok server { e with point := .holding }
  | unheld {c} : e.point = .verifying → e.conn = some c → server.holds c.session = false →
      Step i server e .ok server { e with point := .closing }
  | unverified {closes} : e.point = .verifying →
      Step i server e (.fail closes) server { e with point := .closing, conn := mark closes e.conn }
  | closed : e.point = .closing →
      Step i server e .ok server
        { e with point := .lost, conn := if e.conn.all Conn.closed then e.conn else none }
  | follows : e.point = .lost →
      Step i server e .ok server { e with point := .stopping, isLeader := false }
  | stops : e.point = .stopping → e.scheduler.running = true →
      Step i server e .ok server
        { e with point := .waiting, scheduler := { e.scheduler with cancelled := true } }
  | idle : e.point = .stopping → e.scheduler.running = false →
      Step i server e .ok server { e with point := .head, callbacks := .onRelease :: e.callbacks }
  | stopped : e.point = .waiting → e.scheduler.loops = 0 →
      Step i server e .ok server { e with
        point := .head, scheduler := { e.scheduler with running := false },
        callbacks := .onRelease :: e.callbacks }

theorem step_cases {i : Nat} {server server' : Server} {e e' : Elector} {reply : Reply}
    (taken : e.step i server reply = some (server', e')) : Step i server e reply server' e' := by
  cases reply with
  | ok =>
    cases place : e.point <;> simp only [step, place] at taken
    case head =>
      split at taken
      case isTrue done => cases taken; exact .returns place done
      case isFalse =>
        split at taken
        case isTrue gone => cases taken; exact .dials place gone
        case isFalse kept => cases taken; exact .reuses place (by simpa using kept)
    case connecting => cases taken; exact .connected place
    case querying =>
      obtain ⟨c, conn, answered⟩ := Option.bind_eq_some_iff.mp taken
      split at answered
      · split at answered
        case isTrue available => cases answered; exact .granted place conn available
        case isFalse refused => cases answered; exact .refused place conn (by simpa using refused)
      · cases answered
    case discarding => cases taken; exact .discarded place
    case sleeping => cases taken; exact .awakes place
    case acquired => cases taken; exact .leads place
    case starting => cases taken; exact .started place
    case holding => cases taken; exact .ticks place
    case verifying =>
      obtain ⟨c, conn, answered⟩ := Option.bind_eq_some_iff.mp taken
      split at answered
      · split at answered
        case isTrue holds => cases answered; exact .verified place conn holds
        case isFalse gone => cases answered; exact .unheld place conn (by simpa using gone)
      · cases answered
    case closing => cases taken; exact .closed place
    case lost => cases taken; exact .follows place
    case stopping =>
      split at taken
      case isTrue running => cases taken; exact .stops place running
      case isFalse idle => cases taken; exact .idle place (by simpa using idle)
    case waiting =>
      split at taken
      case isTrue gone => cases taken; exact .stopped place gone
      case isFalse => cases taken
    case returned => cases taken
  | fail closes =>
    cases place : e.point <;> simp only [step, place] at taken
    case connecting => cases taken; exact .unconnected place
    case querying => cases taken; exact .unasked place
    case verifying => cases taken; exact .unverified place
    all_goals cases taken
  | unheard closes =>
    cases place : e.point <;> simp only [step, place] at taken
    case querying =>
      obtain ⟨c, conn, answered⟩ := Option.map_eq_some_iff.mp taken
      cases answered
      exact .unheard place conn
    all_goals cases taken
  | done =>
    cases place : e.point <;> simp only [step, place] at taken
    case holding =>
      split at taken
      case isTrue done => cases taken; exact .cancelled place done
      case isFalse => cases taken
    all_goals cases taken

end Elector

/-! ## All instances -/

structure Cluster where
  server : Server
  electors : List Elector

inductive Action where
  /-- An instance's election loop takes its next step. -/
  | run (i : Nat) (reply : Reply)
  /-- One of an instance's scheduler loops returns. -/
  | exit (i : Nat)
  /-- An instance's context is cancelled. -/
  | cancel (i : Nat)
  /-- The server ends a session. -/
  | finish (session : Session)
deriving DecidableEq

namespace Cluster

def step (s : Cluster) : Action → Option Cluster
  | .run i reply => do
    let e ← s.electors[i]?
    let (server, e') ← e.step i s.server reply
    some { server := server, electors := s.electors.set i e' }
  | .exit i => do
    let e ← s.electors[i]?
    let scheduler ← e.scheduler.exit e.ctxDone
    some { s with electors := s.electors.set i { e with scheduler := scheduler } }
  | .cancel i => do
    let e ← s.electors[i]?
    some { s with electors := s.electors.set i { e with ctxDone := true } }
  | .finish session => some { s with server := s.server.finish session }

inductive Step (s : Cluster) : Action → Cluster → Prop where
  | run {i e reply server e'} : s.electors[i]? = some e →
      Elector.Step i s.server e reply server e' →
      Step s (.run i reply) ⟨server, s.electors.set i e'⟩
  | exit {i e scheduler} : s.electors[i]? = some e → e.scheduler.exit e.ctxDone = some scheduler →
      Step s (.exit i) ⟨s.server, s.electors.set i { e with scheduler := scheduler }⟩
  | cancel {i e} : s.electors[i]? = some e →
      Step s (.cancel i) ⟨s.server, s.electors.set i { e with ctxDone := true }⟩
  | finish {session} : Step s (.finish session) ⟨s.server.finish session, s.electors⟩

theorem step_cases {s t : Cluster} {a : Action} (taken : s.step a = some t) : Step s a t := by
  cases a with
  | run i reply =>
    simp only [step, Option.bind_eq_bind, Option.bind_eq_some_iff, Option.some.injEq,
      Prod.exists] at taken
    obtain ⟨e, found, server, e', inner, rfl⟩ := taken
    exact .run found (Elector.step_cases inner)
  | exit i =>
    simp only [step, Option.bind_eq_bind, Option.bind_eq_some_iff, Option.some.injEq] at taken
    obtain ⟨e, found, scheduler, exited, rfl⟩ := taken
    exact .exit found exited
  | cancel i =>
    simp only [step, Option.bind_eq_bind, Option.bind_eq_some_iff, Option.some.injEq] at taken
    obtain ⟨e, found, rfl⟩ := taken
    exact .cancel found
  | finish session => cases taken; exact .finish

/-- The rule for an invariant that speaks of the server and of every instance by itself. -/
theorem Step.pointwise {s t : Cluster} {a : Action} (step : Step s a t)
    {P : Server → Nat → Elector → Prop} (each : ∀ i e, s.electors[i]? = some e → P s.server i e)
    (run : ∀ {i e reply server e'}, s.electors[i]? = some e →
      Elector.Step i s.server e reply server e' → P s.server i e →
      P server i e' ∧ ∀ k other, k ≠ i → P s.server k other → P server k other)
    (exit : ∀ {i e scheduler}, e.scheduler.exit e.ctxDone = some scheduler → P s.server i e →
      P s.server i { e with scheduler := scheduler })
    (cancel : ∀ {i e}, P s.server i e → P s.server i { e with ctxDone := true })
    (finish : ∀ {session i e}, P s.server i e → P (s.server.finish session) i e) :
    ∀ i e, t.electors[i]? = some e → P t.server i e := by
  cases step with
  | run there inner =>
    intro k e found
    obtain ⟨own, others⟩ := run there inner (each _ _ there)
    obtain ⟨rfl, rfl⟩ | ⟨different, before⟩ := List.getElem?_set_cases found
    · exact own
    · exact others k e different (each k e before)
  | exit there exited =>
    intro k e found
    obtain ⟨rfl, rfl⟩ | ⟨_, before⟩ := List.getElem?_set_cases found
    · exact exit exited (each _ _ there)
    · exact each k e before
  | cancel there =>
    intro k e found
    obtain ⟨rfl, rfl⟩ | ⟨_, before⟩ := List.getElem?_set_cases found
    · exact cancel (each _ _ there)
    · exact each k e before
  | finish => exact fun i e found => finish (each i e found)

end Cluster

/-- Any number of instances start on a server without sessions. -/
def system : Transition.System Cluster Action where
  initial s := ∃ n, s = ⟨.empty, List.replicate n .initial⟩
  step := Cluster.step

/-! ## One instance among others -/

/-- One instance and the database server; what everybody else does to the server is left open. -/
structure Instance where
  server : Server
  elector : Elector

namespace Instance

/-- Others have not been granted the lock in a session of instance `i`. -/
def outside (i : Nat) (before after : Server) : Bool :=
  after.held.all fun (session, n) =>
    decide (session.client ≠ i) || decide (before.held = some (session, n))

inductive Action where
  | run (reply : Reply)
  | exit
  | cancel
  /-- Others open sessions and get locks; the server ends any session and frees any lock. -/
  | others (server : Server)

def step (i : Nat) (s : Instance) : Action → Option Instance
  | .run reply => (s.elector.step i s.server reply).map fun (server, e) => ⟨server, e⟩
  | .exit => (s.elector.scheduler.exit s.elector.ctxDone).map fun scheduler =>
    { s with elector := { s.elector with scheduler := scheduler } }
  | .cancel => some { s with elector := { s.elector with ctxDone := true } }
  | .others server => if outside i s.server server then some { s with server := server } else none

inductive Step (i : Nat) (s : Instance) : Action → Instance → Prop where
  | run {reply server e} : Elector.Step i s.server s.elector reply server e →
      Step i s (.run reply) ⟨server, e⟩
  | exit {scheduler} : s.elector.scheduler.exit s.elector.ctxDone = some scheduler →
      Step i s .exit { s with elector := { s.elector with scheduler := scheduler } }
  | cancel : Step i s .cancel { s with elector := { s.elector with ctxDone := true } }
  | others {server} :
      (∀ session n, server.held = some (session, n) → session.client = i →
        s.server.held = some (session, n)) →
      Step i s (.others server) { s with server := server }

theorem outside_iff {i : Nat} {before after : Server} : outside i before after = true ↔
    ∀ session n, after.held = some (session, n) → session.client = i →
      before.held = some (session, n) := by
  unfold outside
  cases after.held with
  | none => simp
  | some holder =>
    obtain ⟨session, n⟩ := holder
    simp only [Option.all_some, Bool.or_eq_true, decide_eq_true_eq, Option.some.injEq, Prod.mk.injEq]
    constructor
    · rintro (other | same) _ _ ⟨rfl, rfl⟩ own
      · exact absurd own other
      · exact same
    · intro keeps
      by_cases own : session.client = i
      · exact .inr (keeps session n ⟨rfl, rfl⟩ own)
      · exact .inl own

theorem step_cases {i : Nat} {s t : Instance} {a : Action} (taken : s.step i a = some t) :
    Step i s a t := by
  cases a with
  | run reply =>
    obtain ⟨⟨server, e⟩, inner, rfl⟩ := Option.map_eq_some_iff.mp taken
    exact .run (Elector.step_cases inner)
  | exit =>
    obtain ⟨scheduler, exited, rfl⟩ := Option.map_eq_some_iff.mp taken
    exact .exit exited
  | cancel => cases taken; exact .cancel
  | others server =>
    simp only [step, Option.ite_none_right_eq_some] at taken
    obtain ⟨aside, equal⟩ := taken
    cases equal
    exact .others (outside_iff.mp aside)

/-- Instance `i` starts on a server where none of its sessions has the lock. -/
def system (i : Nat) : Transition.System Instance Action where
  initial s := s.elector = .initial ∧ ∀ session n, s.server.held = some (session, n) → session.client ≠ i
  step := Instance.step i

end Instance

end GoQueue.Leader
