import GoQueue.Verified.Leadership

/-! # The elector and the scheduler in step

One election loop with `Scheduler.Start` and `Scheduler.Stop` as its callbacks, whatever the
server answers and whenever the context is cancelled.  The loop goes round between two callbacks:
a round begins with a new connection, `holdLock` does not return before it has closed the
connection, and `onRelease` does not return before the scheduler's loops have.

So the head of the loop is always the same: nothing runs and there is no connection to go on with.
-/

namespace GoQueue.Verified

open Leader

variable {i : Nat} {server server' : Server} {e e' : Elector}

/-- The callbacks, the last one first, are `onAcquire` and `onRelease` in turn. -/
def Alternates (callbacks : List Callback) : Prop :=
  ∀ (k : Nat) callback, callbacks.reverse[k]? = some callback →
    callback = if k % 2 = 0 then .onAcquire else .onRelease

/-- What holds of an instance, wherever its loop is. -/
structure InStep (i : Nat) (server : Server) (e : Elector) : Prop where
  alternates : Alternates e.callbacks
  head : e.point = .head → e.scheduler.running = false ∧ e.scheduler.loops = 0 ∧
    e.isLeader = false ∧ e.conn.all Conn.closed = true
  /-- The lock is asked for in the session of the last connection, which does not have it yet. -/
  fresh : e.point = .querying → ∃ c, e.conn = some c ∧ c.closed = false ∧
    c.session = ⟨i, e.dials - 1⟩ ∧ server.holds c.session = false
  once : ∀ session n, session.client = i → server.held = some (session, n) → n = 1
  matched : e.point = .returned →
    e.callbacks.count .onAcquire = e.callbacks.count .onRelease

/-- Runs without restriction. -/
def anyStep (_ : Instance) (_ : Instance.Action) : Prop := True

instance (s : Instance) (a : Instance.Action) : Decidable (anyStep s a) :=
  inferInstanceAs (Decidable True)

/-- The lock was granted to the instance, which has not been back at the head of the loop since. -/
def GrantedSince (i : Nat) (s : Instance) : Prop :=
  ∃ before c after, (Instance.system i).Reachable anyStep before ∧
    before.elector.point = .querying ∧ before.elector.conn = some c ∧
    before.server.available c.session = true ∧
    before.step i (.run .ok) = some after ∧
    (Instance.system i).Reaches (fun s _ => leading s.elector.point = true) after s

/-! ## The rounds of the loop -/

/-- Between the return of `onAcquire` and the return of `onRelease`. -/
def serving : Point → Bool
  | .holding | .verifying | .closing | .lost | .stopping | .waiting => true
  | .head | .connecting | .querying | .discarding | .sleeping | .acquired | .starting
  | .returned => false

/-- Where `IsLeader` answers true. -/
def shown : Point → Bool
  | .starting | .holding | .verifying | .closing | .lost => true
  | .head | .connecting | .querying | .discarding | .sleeping | .acquired | .stopping | .waiting
  | .returned => false

/-- Where there is no open connection. -/
def detached : Point → Bool
  | .head | .connecting | .sleeping | .lost | .stopping | .waiting | .returned => true
  | .querying | .discarding | .acquired | .starting | .holding | .verifying | .closing => false

/-- What an elector knows by its place in the round. -/
structure Round (i : Nat) (e : Elector) : Prop where
  alternates : Alternates e.callbacks
  length : e.callbacks.length % 2 = (serving e.point).toNat
  count : e.callbacks.count .onAcquire = e.callbacks.count .onRelease + (serving e.point).toNat
  running : e.scheduler.running = serving e.point
  loops : serving e.point = false → e.scheduler.loops = 0
  isLeader : e.isLeader = shown e.point
  conn : detached e.point = true → e.conn.all Conn.closed = true
  query : e.point = .querying → 0 < e.dials ∧ e.conn = some ⟨⟨i, e.dials - 1⟩, false⟩

theorem Alternates.cons {callbacks : List Callback} {callback : Callback}
    (alternates : Alternates callbacks)
    (next : callback = if callbacks.length % 2 = 0 then .onAcquire else .onRelease) :
    Alternates (callback :: callbacks) := by
  intro k other found
  rw [List.reverse_cons] at found
  obtain ⟨rfl, rfl⟩ | before := List.getElem?_concat_cases found
  · rwa [List.length_reverse]
  · exact alternates k other before

/-- Most steps stay between the same two callbacks. -/
theorem Round.between (round : Round i e) (callbacks : e'.callbacks = e.callbacks)
    (scheduler : e'.scheduler.running = e.scheduler.running ∧
      e'.scheduler.loops = e.scheduler.loops)
    (between : serving e'.point = serving e.point) (isLeader : e'.isLeader = shown e'.point)
    (conn : detached e'.point = true → e'.conn.all Conn.closed = true)
    (query : e'.point = .querying →
      0 < e'.dials ∧ e'.conn = some ⟨⟨i, e'.dials - 1⟩, false⟩) : Round i e' := by
  refine ⟨callbacks ▸ round.alternates, ?_, ?_, ?_, ?_, isLeader, conn, query⟩
  · rw [callbacks, between]
    exact round.length
  · rw [callbacks, between]
    exact round.count
  · rw [scheduler.1, between]
    exact round.running
  · rw [scheduler.2, between]
    exact round.loops

theorem Round.step {reply : Leader.Reply} (step : Elector.Step i server e reply server' e')
    (round : Round i e) : Round i e' := by
  have leader := round.isLeader
  have detaches := round.conn
  cases step with
  | returns place _ | dials place _ | unconnected place | awakes place =>
    rw [place] at leader detaches
    exact round.between rfl ⟨rfl, rfl⟩ (by rw [place]; rfl) leader (fun _ => detaches rfl) nofun
  | reuses place opened =>
    -- at the head there is no open connection
    rw [place] at detaches
    rw [detaches rfl] at opened
    cases opened
  | connected place =>
    rw [place] at leader
    exact round.between rfl ⟨rfl, rfl⟩ (by rw [place]; rfl) leader nofun
      fun _ => ⟨Nat.succ_pos _, by rw [Nat.add_sub_cancel]⟩
  | granted place _ _ | refused place _ _ | unasked place | unheard place _ =>
    rw [place] at leader
    exact round.between rfl ⟨rfl, rfl⟩ (by rw [place]; rfl) leader nofun nofun
  | discarded place =>
    rw [place] at leader
    exact round.between rfl ⟨rfl, rfl⟩ (by rw [place]; rfl) leader (fun _ => rfl) nofun
  | leads place => exact round.between rfl ⟨rfl, rfl⟩ (by rw [place]; rfl) rfl nofun nofun
  | ticks place | cancelled place _ | verified place _ _ | unheld place _ _ | unverified place =>
    rw [place] at leader
    exact round.between rfl ⟨rfl, rfl⟩ (by rw [place]; rfl) leader nofun nofun
  | closed place =>
    rw [place] at leader
    refine round.between rfl ⟨rfl, rfl⟩ (by rw [place]; rfl) leader (fun _ => ?_) nofun
    show (if _ then _ else _ : Option Conn).all Conn.closed = true
    split
    case isTrue gone => exact gone
    case isFalse => rfl
  | follows place =>
    rw [place] at detaches
    exact round.between rfl ⟨rfl, rfl⟩ (by rw [place]; rfl) rfl (fun _ => detaches rfl) nofun
  | stops place _ =>
    rw [place] at leader detaches
    exact round.between rfl ⟨rfl, rfl⟩ (by rw [place]; rfl) leader (fun _ => detaches rfl) nofun
  | idle place stopped =>
    -- what `onAcquire` started is running
    have runs := round.running
    rw [place, stopped] at runs
    cases runs
  | started place =>
    have length := round.length
    have count := round.count
    rw [place] at leader length count
    refine ⟨round.alternates.cons (if_pos length).symm, ?_, ?_, ?_, nofun, leader, nofun, nofun⟩
    · simp only [List.length_cons, serving, Bool.toNat_true, Bool.toNat_false] at length ⊢
      omega
    · simpa [serving] using count
    · exact Scheduler.running_start _
  | stopped place gone =>
    have length := round.length
    have count := round.count
    rw [place] at leader detaches length count
    refine ⟨round.alternates.cons ?_, ?_, ?_, rfl, fun _ => gone, leader, fun _ => detaches rfl, nofun⟩
    · rw [if_neg]
      rw [length]
      decide
    · simp only [List.length_cons, serving, Bool.toNat_true, Bool.toNat_false] at length ⊢
      omega
    · simpa [serving] using count

/-! ## The lock -/

/-- The sessions of the instance get the lock once, and the last one not before it is asked for. -/
def LockedOnce (i : Nat) (server : Server) (e : Elector) : Prop :=
  ∀ serial n, server.held = some (⟨i, serial⟩, n) →
    n = 1 ∧ serial < e.dials ∧ (e.point = .querying → serial + 1 < e.dials)

theorem LockedOnce.tryLock {c : Conn} (locked : LockedOnce i server e) (round : Round i e)
    (place : e.point = .querying) (conn : e.conn = some c) (dials : e'.dials = e.dials)
    (asked : e'.point ≠ .querying) : LockedOnce i (server.tryLock c.session) e' := by
  obtain ⟨dialled, newest⟩ := round.query place
  rw [conn, Option.some.injEq] at newest
  subst newest
  intro serial n held
  rw [dials]
  obtain before | ⟨same, _, rfl⟩ | ⟨_, m, before⟩ := AdvisoryLock.held_tryLock_cases held
  · obtain ⟨one, earlier, _⟩ := locked serial n before
    exact ⟨one, earlier, fun again => absurd again asked⟩
  · cases same
    exact ⟨rfl, Nat.sub_lt dialled Nat.one_pos, fun again => absurd again asked⟩
  · -- the session has not been asked for before
    have earlier := (locked _ m before).2.2 place
    omega

theorem LockedOnce.step {reply : Leader.Reply} (step : Elector.Step i server e reply server' e')
    (round : Round i e) (locked : LockedOnce i server e) : LockedOnce i server' e' := by
  have kept {next : Elector} (dials : next.dials = e.dials) (asked : next.point ≠ .querying) :
      LockedOnce i server next := by
    intro serial n held
    obtain ⟨one, earlier, _⟩ := locked serial n held
    exact ⟨one, dials ▸ earlier, fun again => absurd again asked⟩
  cases step with
  | reuses place opened =>
    have detaches := round.conn
    rw [place] at detaches
    rw [detaches rfl] at opened
    cases opened
  | connected place =>
    intro serial n held
    obtain ⟨one, earlier, _⟩ := locked serial n held
    exact ⟨one, Nat.lt_succ_of_lt earlier, fun _ => Nat.succ_lt_succ earlier⟩
  | granted place conn _ | refused place conn _ | unheard place conn =>
    exact locked.tryLock round place conn rfl nofun
  | _ => exact kept rfl nofun

/-! ## Whole runs -/

structure Cycle (i : Nat) (s : Instance) : Prop where
  round : Round i s.elector
  locked : LockedOnce i s.server s.elector

theorem Cycle.step {s t : Instance} {a : Instance.Action} (cycle : Cycle i s)
    (taken : s.step i a = some t) : Cycle i t := by
  obtain ⟨round, locked⟩ := cycle
  cases Instance.step_cases taken with
  | run inner => exact ⟨round.step inner, locked.step inner round⟩
  | exit exited =>
    have running := Scheduler.running_exit exited
    simp only [Scheduler.exit, Option.ite_none_right_eq_some, Option.some.injEq] at exited
    refine ⟨⟨round.alternates, round.length, round.count, running.trans round.running, fun idle => ?_,
      round.isLeader, round.conn, round.query⟩, locked⟩
    -- a loop that returns was running
    have none := round.loops idle
    omega
  | cancel =>
    exact ⟨⟨round.alternates, round.length, round.count, round.running, round.loops, round.isLeader,
      round.conn, round.query⟩, locked⟩
  | others aside => exact ⟨round, fun serial n held => locked serial n (aside _ n held rfl)⟩

theorem reachable_cycle {s : Instance} (reachable : (Instance.system i).Reachable anyStep s) :
    Cycle i s := by
  refine reachable.invariant (P := Cycle i) ?_ fun _ _ taken cycle => cycle.step taken
  rintro s ⟨start, free⟩
  refine ⟨?_, fun serial n held => absurd rfl (free _ n held)⟩
  rw [start]
  exact ⟨nofun, rfl, rfl, rfl, fun _ => rfl, rfl, fun _ => rfl, nofun⟩

theorem Cycle.inStep {s : Instance} (cycle : Cycle i s) : InStep i s.server s.elector := by
  obtain ⟨round, locked⟩ := cycle
  refine ⟨round.alternates, fun place => ?_, fun place => ?_, ?_, fun place => ?_⟩
  · have running := round.running
    have idle := round.loops
    have leader := round.isLeader
    have detaches := round.conn
    rw [place] at running idle leader detaches
    exact ⟨running, idle rfl, leader, detaches rfl⟩
  · obtain ⟨dialled, conn⟩ := round.query place
    refine ⟨_, conn, rfl, rfl, ?_⟩
    by_contra has
    obtain ⟨n, held⟩ := AdvisoryLock.holds_iff.mp (Bool.not_eq_false _ ▸ has)
    have earlier := (locked _ n held).2.2 place
    omega
  · rintro ⟨_, serial⟩ n rfl held
    exact (locked serial n held).1
  · have count := round.count
    rw [place] at count
    exact count

theorem leading_of_serving {point : Point} (serves : serving point = true) :
    leading point = true := by
  cases point <;> first | rfl | cases serves

/-- Only the answer to a lock query makes a leader. -/
theorem granted_of_turn {s t : Instance} {a : Instance.Action} (taken : s.step i a = some t)
    (follows : ¬ leading s.elector.point = true) (leads : leading t.elector.point = true) :
    ∃ c, a = .run .ok ∧ s.elector.point = .querying ∧ s.elector.conn = some c ∧
      s.server.available c.session = true := by
  cases Instance.step_cases taken with
  | @run reply server e inner =>
    cases leading_step inner leads with
    | inl led => exact absurd led follows
    | inr granted =>
      obtain ⟨c, rfl, asked⟩ := granted
      exact ⟨c, rfl, asked⟩
  | exit _ | cancel | others _ => exact absurd leads follows

theorem grantedSince_of_leading {s : Instance}
    (reachable : (Instance.system i).Reachable anyStep s)
    (leads : leading s.elector.point = true) : GrantedSince i s := by
  have idle {s : Instance} (start : (Instance.system i).initial s) :
      ¬ leading s.elector.point = true := by
    rw [start.1]
    nofun
  obtain ⟨before, a, after, reached, _, taken, follows, led, since⟩ :=
    reachable.exists_turn (P := fun s => leading s.elector.point = true) idle leads
  obtain ⟨c, rfl, place, conn, available⟩ := granted_of_turn taken follows led
  exact ⟨before, c, after, reached, place, conn, available, taken, since.mono fun _ _ held => held.2⟩

/-- Whatever the answers of the server and whenever the context is cancelled, the callbacks
alternate and are matched when the loop returns, at the head of the loop nothing runs and no
connection is open, every lock query has a session of its own that gets the lock at most once,
and the scheduler runs only in a round in which the lock was granted. -/
theorem elector_in_step {s : Instance} (reachable : (Instance.system i).Reachable anyStep s) :
    InStep i s.server s.elector ∧ (s.elector.scheduler.running = true → GrantedSince i s) := by
  have cycle := reachable_cycle reachable
  refine ⟨cycle.inStep, fun runs => ?_⟩
  rw [cycle.round.running] at runs
  exact grantedSince_of_leading reachable (leading_of_serving runs)

/-- The instance alone on the server. -/
def soleInstance : Instance := ⟨.empty, .initial⟩

theorem initial_soleInstance : (Instance.system 0).initial soleInstance := ⟨rfl, nofun⟩

/-- The first connection cannot be made, the second one gets the lock; then the instance shuts
down. -/
def shutdownRun : List Instance.Action :=
  [.run .ok, .run (.fail false), .run .ok, .run .ok, .run .ok, .run .ok, .run .ok, .run .ok,
    .run .ok, .cancel, .run (.fail true), .run .ok, .run .ok, .run .ok, .exit, .exit, .exit,
    .run .ok, .run .ok]

theorem shutdownRun_in_step : ∃ s, (Instance.system 0).Reachable anyStep s ∧
    s.elector.point = .returned ∧ s.elector.callbacks = [.onRelease, .onAcquire] ∧
    InStep 0 s.server s.elector := by
  have ⟨s, reachable, returned, callbacks⟩ : ∃ s, (Instance.system 0).Reachable anyStep s ∧
      s.elector.point = .returned ∧ s.elector.callbacks = [.onRelease, .onAcquire] :=
    Transition.System.exists_reachable_of_exec shutdownRun initial_soleInstance (by decide)
  exact ⟨s, reachable, returned, callbacks, (elector_in_step reachable).1⟩

/-! ## The instances of a cluster

To one instance the others are part of the environment, since each asks for the lock in its own
sessions. -/

theorem outside_of_step {k : Nat} {reply : Leader.Reply}
    (step : Elector.Step k server e reply server' e') (registered : Registered server k e)
    (different : i ≠ k) : Instance.outside i server server' = true := by
  rw [Instance.outside_iff]
  intro session n held own
  have asked {c : Conn} (conn : e.conn = some c)
      (held : (server.tryLock c.session).held = some (session, n)) :
      server.held = some (session, n) := by
    have foreign : session ≠ c.session := by
      rintro rfl
      rw [registered.conn c conn] at own
      exact different own.symm
    obtain before | ⟨same, _⟩ | ⟨same, _⟩ := AdvisoryLock.held_tryLock_cases held
    · exact before
    · exact absurd same foreign
    · exact absurd same foreign
  cases step with
  | granted _ conn _ | refused _ conn _ | unheard _ conn => exact asked conn held
  | _ => exact held

theorem outside_finish (session : Session) : Instance.outside i server (server.finish session) = true := by
  rw [Instance.outside_iff]
  intro other n held _
  exact (Option.filter_eq_some_iff.mp held).1

/-- An instance of a cluster behaves as it may behave alone. -/
theorem reachable_instance {permitted : Cluster → Leader.Action → Prop} {s : Cluster}
    (reachable : Leader.system.Reachable permitted s) (found : s.electors[i]? = some e) :
    (Instance.system i).Reachable anyStep ⟨s.server, e⟩ := by
  revert i e
  refine reachable.invariant (P := fun s => ∀ {i e}, s.electors[i]? = some e →
    (Instance.system i).Reachable anyStep ⟨s.server, e⟩) ?_ ?_
  · rintro s ⟨n, rfl⟩ i e found
    have fresh : e = .initial := (List.mem_replicate.mp (List.mem_of_getElem? found)).2
    have start : (Instance.system i).initial ⟨.empty, e⟩ := ⟨fresh, nofun⟩
    exact ⟨_, start, .refl _⟩
  · intro s a t reached _ taken before i e found
    -- what the others do to the server is a step of the environment
    have aside {server : Server} (stood : s.electors[i]? = some e)
        (outside : Instance.outside i s.server server = true) :
        (Instance.system i).Reachable anyStep ⟨server, e⟩ :=
      (before stood).step (a := .others server) trivial (by simp [Instance.system, Instance.step, outside])
    cases a with
    | run k reply =>
      simp only [Leader.system, Cluster.step, Option.bind_eq_bind, Option.bind_eq_some_iff,
        Option.some.injEq, Prod.exists] at taken
      obtain ⟨mover, there, server, mover', inner, rfl⟩ := taken
      obtain ⟨rfl, rfl⟩ | ⟨different, stood⟩ := List.getElem?_set_cases found
      · exact (before there).step (a := .run reply) trivial
          (by simp [Instance.system, Instance.step, inner])
      · exact aside stood (outside_of_step (Elector.step_cases inner)
          (reachable_registered reached k mover there) different)
    | exit k =>
      simp only [Leader.system, Cluster.step, Option.bind_eq_bind, Option.bind_eq_some_iff,
        Option.some.injEq] at taken
      obtain ⟨mover, there, scheduler, exited, rfl⟩ := taken
      obtain ⟨rfl, rfl⟩ | ⟨_, stood⟩ := List.getElem?_set_cases found
      · exact (before there).step (a := .exit) trivial
          (by simp [Instance.system, Instance.step, exited])
      · exact before stood
    | cancel k =>
      simp only [Leader.system, Cluster.step, Option.bind_eq_bind, Option.bind_eq_some_iff,
        Option.some.injEq] at taken
      obtain ⟨mover, there, rfl⟩ := taken
      obtain ⟨rfl, rfl⟩ | ⟨_, stood⟩ := List.getElem?_set_cases found
      · exact (before there).step (a := .cancel) trivial rfl
      · exact before stood
    | finish session =>
      obtain rfl := Option.some.inj taken
      exact aside found (outside_finish session)

/-- So every instance of a cluster keeps in step with its scheduler. -/
theorem cluster_in_step {permitted : Cluster → Leader.Action → Prop} {s : Cluster}
    (reachable : Leader.system.Reachable permitted s) (found : s.electors[i]? = some e) :
    InStep i s.server e :=
  (reachable_cycle (reachable_instance reachable found)).inStep

end GoQueue.Verified
