import GoQueue.Leader.Leader

/-! # One active scheduler

The advisory lock excludes two holders; the loops are excluded only as far as an instance stops
its scheduler before its session ends.  The code does not see to that: a session can end long
before the next heartbeat notices, and `holdLock` closes the connection itself before
`onRelease` is called.  In between, another instance is granted the free lock and starts.
-/

namespace GoQueue.Verified

open Leader

/-- From the grant of the lock to the return of `onRelease`. -/
def leading : Point → Bool
  | .acquired | .starting | .holding | .verifying | .closing | .lost | .stopping | .waiting => true
  | .head | .connecting | .querying | .discarding | .sleeping | .returned => false

/-- The session of the last connection. -/
def lastSession (i : Nat) (e : Elector) : Session := ⟨i, e.dials - 1⟩

/-- The scheduler was started and not stopped, or one of its loops has not returned. -/
def active (e : Elector) : Prop := e.scheduler.running = true ∨ 0 < e.scheduler.loops

/-- What holds of an instance in every run. -/
structure Registered (server : Server) (i : Nat) (e : Elector) : Prop where
  conn : ∀ c, e.conn = some c → c.session = lastSession i e
  /-- As long as its session is open, an instance that was granted the lock has it. -/
  owner : leading e.point = true → lastSession i e ∈ server.sessions →
    server.holds (lastSession i e) = true
  running : e.scheduler.running = true → leading e.point = true
  loops : 0 < e.scheduler.loops → e.scheduler.running = true

/-- What another instance does with its own sessions leaves the lock where it is. -/
theorem Registered.other {i k : Nat} {server server' : Server} {e e' other : Elector}
    {reply : Leader.Reply}
    (step : Elector.Step i server e reply server' e') (different : k ≠ i)
    (registered : Registered server k other) : Registered server' k other := by
  refine ⟨registered.conn, fun leads there => ?_, registered.running, registered.loops⟩
  cases step with
  | connected _ =>
    -- the new session is not the one of instance `k`
    have before : lastSession k other ∈ server.sessions := by
      simpa [lastSession, different] using there
    exact registered.owner leads before
  | granted _ _ _ | refused _ _ _ | unheard _ _ =>
    exact AdvisoryLock.holds_tryLock (registered.owner leads there)
  | _ => exact registered.owner leads there

theorem mark_session {closes : Bool} {conn : Option Conn} {c : Conn}
    (marked : Elector.mark closes conn = some c) : ∃ c', conn = some c' ∧ c'.session = c.session := by
  obtain ⟨c', rfl, rfl⟩ := Option.map_eq_some_iff.mp marked
  exact ⟨c', rfl, rfl⟩

theorem Registered.own {i : Nat} {server server' : Server} {e e' : Elector} {reply : Leader.Reply}
    (step : Elector.Step i server e reply server' e') (registered : Registered server i e) :
    Registered server' i e' := by
  -- most steps keep the session, the lock and the scheduler
  have kept {next : Elector} (dials : next.dials = e.dials)
      (conn : ∀ c, next.conn = some c → ∃ c', e.conn = some c' ∧ c'.session = c.session)
      (leads : leading next.point = leading e.point)
      (running : next.scheduler.running = e.scheduler.running)
      (loops : next.scheduler.loops = e.scheduler.loops) : Registered server i next := by
    have same : lastSession i next = lastSession i e := by rw [lastSession, dials, lastSession]
    refine ⟨fun c found => ?_, ?_, ?_, ?_⟩
    · obtain ⟨c', there, session⟩ := conn c found
      rw [← session, registered.conn c' there, same]
    · rw [leads, same]
      exact registered.owner
    · rw [leads, running]
      exact registered.running
    · rw [loops, running]
      exact registered.loops
  -- an instance that does not lead has no scheduler running
  have halted (follows : leading e.point = false) (runs : e.scheduler.running = true) : False := by
    rw [registered.running runs] at follows
    cases follows
  cases step with
  | returns place _ | dials place _ | reuses place _ | unconnected place | awakes place
  | leads place | ticks place | cancelled place _ | verified place _ _ | unheld place _ _
  | follows place | stops place _ =>
    exact kept rfl (fun c found => ⟨c, found, rfl⟩) (by rw [place]; rfl) rfl rfl
  | connected place =>
    refine ⟨fun c found => ?_, nofun, fun runs => ?_, registered.loops⟩
    · cases found
      simp [lastSession]
    · exact (halted (by rw [place]; rfl) runs).elim
  | @granted c place conn available =>
    refine ⟨registered.conn, fun _ _ => ?_, fun _ => rfl, registered.loops⟩
    rw [registered.conn c conn] at available ⊢
    exact AdvisoryLock.holds_tryLock_self available
  | refused place _ _ =>
    exact ⟨registered.conn, nofun, fun runs => (halted (by rw [place]; rfl) runs).elim,
      registered.loops⟩
  | unheard place _ =>
    refine ⟨fun c found => ?_, nofun, fun runs => ?_, registered.loops⟩
    · obtain ⟨c', there, session⟩ := mark_session found
      rw [← session]
      exact registered.conn c' there
    · exact (halted (by rw [place]; rfl) runs).elim
  | unasked place | unverified place =>
    exact kept rfl (fun c found => mark_session found) (by rw [place]; rfl) rfl rfl
  | discarded place => exact kept rfl nofun (by rw [place]; rfl) rfl rfl
  | closed place =>
    refine kept rfl (fun c found => ?_) (by rw [place]; rfl) rfl rfl
    split at found
    · exact ⟨c, found, rfl⟩
    · cases found
  | started place =>
    refine ⟨registered.conn, fun _ => registered.owner (by rw [place]; rfl), fun _ => rfl, fun _ => ?_⟩
    exact Scheduler.running_start _
  | idle _ stopped =>
    refine ⟨registered.conn, nofun, fun runs => ?_, registered.loops⟩
    rw [stopped] at runs
    cases runs
  | stopped _ gone =>
    refine ⟨registered.conn, nofun, nofun, fun live => ?_⟩
    rw [show e.scheduler.loops = 0 from gone] at live
    cases live

theorem Registered.step {s t : Cluster} {a : Leader.Action} (step : Cluster.Step s a t)
    (registered : ∀ i e, s.electors[i]? = some e → Registered s.server i e) :
    ∀ i e, t.electors[i]? = some e → Registered t.server i e := by
  refine step.pointwise registered ?run ?exit ?cancel ?finish
  case run =>
    intro i e reply server e' _ inner mine
    exact ⟨mine.own inner, fun k other different held => held.other inner different⟩
  case exit =>
    intro i e scheduler exited mine
    have running := Scheduler.running_exit exited
    simp only [Scheduler.exit, Option.ite_none_right_eq_some, Option.some.injEq] at exited
    refine ⟨mine.conn, mine.owner, fun runs => mine.running (running ▸ runs), fun _ => ?_⟩
    rw [running]
    exact mine.loops exited.1.1
  case cancel => exact fun mine => ⟨mine.conn, mine.owner, mine.running, mine.loops⟩
  case finish =>
    intro session i e mine
    refine ⟨mine.conn, fun leads there => ?_, mine.running, mine.loops⟩
    obtain ⟨before, other⟩ := AdvisoryLock.mem_sessions_finish.mp there
    exact AdvisoryLock.holds_finish (mine.owner leads before) other

theorem reachable_registered {permitted : Cluster → Leader.Action → Prop} {s : Cluster}
    (reachable : Leader.system.Reachable permitted s) :
    ∀ i e, s.electors[i]? = some e → Registered s.server i e := by
  refine reachable.invariant
    (P := fun s => ∀ i e, s.electors[i]? = some e → Registered s.server i e) ?_ ?_
  · intro s start i e found
    obtain ⟨n, rfl⟩ := start
    have fresh : e = .initial := (List.mem_replicate.mp (List.mem_of_getElem? found)).2
    subst fresh
    exact ⟨nofun, nofun, nofun, nofun⟩
  · intro s a t _ _ taken registered
    exact Registered.step (Cluster.step_cases taken) registered

/-! ## Exclusion -/

/-- The action is the lock query of an instance while the session of another one that leads has
ended. -/
def overlooks (s : Cluster) : Leader.Action → Bool
  | .run j _ => s.electors[j]?.any fun e => decide (e.point = .querying) &&
    s.electors.zipIdx.any fun (e', i) =>
      decide (i ≠ j) && leading e'.point && decide (lastSession i e' ∉ s.server.sessions)
  | .exit _ | .cancel _ | .finish _ => false

/-- Runs in which nobody asks for the lock between the end of a leading instance's session and
the end of its `onRelease`. -/
def orderlyRun (s : Cluster) (a : Leader.Action) : Prop := overlooks s a = false

instance (s : Cluster) (a : Leader.Action) : Decidable (orderlyRun s a) :=
  inferInstanceAs (Decidable (_ = false))

def OneLeader (s : Cluster) : Prop :=
  ∀ (i j : Nat) (e e' : Elector), s.electors[i]? = some e → s.electors[j]? = some e' →
    leading e.point = true → leading e'.point = true → i = j

/-- Only the grant of the lock makes a leader. -/
theorem leading_step {i : Nat} {server server' : Server} {e e' : Elector} {reply : Leader.Reply}
    (step : Elector.Step i server e reply server' e') (leads : leading e'.point = true) :
    leading e.point = true ∨
      ∃ c, reply = .ok ∧ e.point = .querying ∧ e.conn = some c ∧
        server.available c.session = true := by
  cases step with
  | granted place conn available => exact .inr ⟨_, rfl, place, conn, available⟩
  | leads place | started place | ticks place | cancelled place _ | verified place _ _
  | unheld place _ _ | unverified place | closed place | follows place | stops place _ =>
    rw [place]
    exact .inl rfl
  | _ => cases leads

/-- Whoever is granted the lock in an orderly run is alone: a leader whose session is open has
the lock, and one whose session has ended is not there. -/
theorem grant_excludes {s : Cluster} {i k : Nat} {e other : Elector} {c : Conn}
    {reply : Leader.Reply}
    (allowed : orderlyRun s (.run i reply))
    (registered : ∀ i e, s.electors[i]? = some e → Registered s.server i e)
    (there : s.electors[i]? = some e) (place : e.point = .querying) (conn : e.conn = some c)
    (available : s.server.available c.session = true) (found : s.electors[k]? = some other)
    (leads : leading other.point = true) : k = i := by
  by_contra different
  have opened : lastSession k other ∈ s.server.sessions := by
    by_contra ended
    have overlooked : overlooks s (.run i reply) = true := by
      simp only [overlooks, there, Option.any_some, place, decide_true, Bool.true_and,
        List.any_eq_true, Prod.exists]
      exact ⟨other, k, List.mem_zipIdx_iff_getElem?.mpr found, by simp [different, leads, ended]⟩
    rw [show overlooks s (.run i reply) = false from allowed] at overlooked
    cases overlooked
  have holder := (registered k other found).owner leads opened
  have same := AdvisoryLock.eq_of_available holder available
  rw [(registered i e there).conn c conn] at same
  exact different (congrArg Session.client same)

theorem OneLeader.step {s t : Cluster} {a : Leader.Action} (step : Cluster.Step s a t)
    (allowed : orderlyRun s a) (registered : ∀ i e, s.electors[i]? = some e → Registered s.server i e)
    (one : OneLeader s) : OneLeader t := by
  -- outside the election loop nobody's place changes
  have unmoved (same : ∀ {k : Nat} {e : Elector}, t.electors[k]? = some e →
      ∃ e', s.electors[k]? = some e' ∧ e'.point = e.point) : OneLeader t := by
    intro i j e e' first second leads leads'
    obtain ⟨_, before, place⟩ := same first
    obtain ⟨_, before', place'⟩ := same second
    exact one i j _ _ before before' (place ▸ leads) (place' ▸ leads')
  cases step with
  | @run i e reply server e' there inner =>
    have led {k : Nat} {now : Elector} (found : (s.electors.set i e')[k]? = some now)
        (leads : leading now.point = true) :
        (∃ old, s.electors[k]? = some old ∧ leading old.point = true) ∨
          (k = i ∧ ∃ c, e.point = .querying ∧ e.conn = some c ∧
            s.server.available c.session = true) := by
      obtain ⟨rfl, rfl⟩ | ⟨_, before⟩ := List.getElem?_set_cases found
      · cases leading_step inner leads with
        | inl leads => exact .inl ⟨e, there, leads⟩
        | inr granted =>
          obtain ⟨c, _, asked⟩ := granted
          exact .inr ⟨rfl, c, asked⟩
      · exact .inl ⟨now, before, leads⟩
    intro k l first second found found' leads leads'
    obtain ⟨old, before, led_before⟩ | ⟨rfl, c, place, conn, available⟩ := led found leads
    · obtain ⟨old', before', led_before'⟩ | ⟨rfl, c, place, conn, available⟩ := led found' leads'
      · exact one k l old old' before before' led_before led_before'
      · exact grant_excludes allowed registered there place conn available before led_before
    · obtain ⟨old', before', led_before'⟩ | ⟨rfl, _⟩ := led found' leads'
      · exact (grant_excludes allowed registered there place conn available before' led_before').symm
      · rfl
  | exit there _ | cancel there =>
    refine unmoved fun {k e} found => ?_
    obtain ⟨rfl, rfl⟩ | ⟨_, before⟩ := List.getElem?_set_cases found
    · exact ⟨_, there, rfl⟩
    · exact ⟨e, before, rfl⟩
  | finish => exact unmoved fun {k e} found => ⟨e, found, rfl⟩

theorem reachable_oneLeader {s : Cluster} (reachable : Leader.system.Reachable orderlyRun s) :
    OneLeader s := by
  refine reachable.invariant (P := OneLeader) ?_ ?_
  · intro s start i j e e' found _ leads _
    obtain ⟨n, rfl⟩ := start
    have fresh : e = .initial := (List.mem_replicate.mp (List.mem_of_getElem? found)).2
    subst fresh
    cases leads
  · intro s a t before allowed taken one
    exact OneLeader.step (Cluster.step_cases taken) allowed (reachable_registered before) one

/-- In every run in which nobody asks for the lock while an instance leads whose session has
ended, at most one instance has an active scheduler. -/
theorem one_active_scheduler {s : Cluster} (reachable : Leader.system.Reachable orderlyRun s) {i j : Nat}
    {e e' : Elector} (first : s.electors[i]? = some e) (second : s.electors[j]? = some e')
    (runs : active e) (runs' : active e') : i = j := by
  have leads {k : Nat} {e : Elector} (found : s.electors[k]? = some e) (runs : active e) :
      leading e.point = true := by
    have registered := reachable_registered reachable k e found
    cases runs with
    | inl running => exact registered.running running
    | inr live => exact registered.running (registered.loops live)
  exact reachable_oneLeader reachable i j e e' first second (leads first runs) (leads second runs')

/-- The steps from the head of the loop to `holdLock`. -/
def electionRun (i : Nat) : List Leader.Action := List.replicate 5 (.run i .ok)

/-- The first instance leads, shuts down in good order, and the second one takes over. -/
def handover : List Leader.Action :=
  electionRun 0 ++ [.cancel 0, .run 0 .done, .run 0 .ok, .run 0 .ok, .run 0 .ok,
    .exit 0, .exit 0, .exit 0, .run 0 .ok, .finish ⟨0, 0⟩] ++ electionRun 1

theorem handover_one_active : ∃ s e, Leader.system.Reachable orderlyRun s ∧ s.electors[1]? = some e ∧
    active e ∧ ∀ i e', s.electors[i]? = some e' → active e' → i = 1 := by
  have ⟨s, reachable, e, found, running⟩ : ∃ s, Leader.system.Reachable orderlyRun s ∧
      ∃ e ∈ s.electors[1]?, e.scheduler.running = true :=
    Transition.System.exists_reachable_of_exec handover ⟨2, rfl⟩ (by decide)
  exact ⟨s, e, reachable, found, .inl running, fun i e' found' runs =>
    one_active_scheduler reachable found' found runs (.inl running)⟩

/-- A connection is lost: the server ends a session that its client has not closed. -/
def losesConnection (s : Cluster) : Leader.Action → Bool
  | .finish session => s.electors.any fun e => e.conn.any fun c =>
    !c.closed && decide (c.session = session)
  | .run _ _ | .exit _ | .cancel _ => false

def lossless (s : Cluster) (a : Leader.Action) : Prop := losesConnection s a = false

instance (s : Cluster) (a : Leader.Action) : Decidable (lossless s a) :=
  inferInstanceAs (Decidable (_ = false))

/-- The first instance is shutting down: it has closed its connection and not called
`onRelease` yet.  The second one is granted the lock and starts its scheduler. -/
theorem two_active_schedulers : ∃ s e e', Leader.system.Reachable lossless s ∧
    s.electors[0]? = some e ∧ s.electors[1]? = some e' ∧
    e.scheduler.running = true ∧ e'.scheduler.running = true := by
  have ⟨s, reachable, e, found, e', found', running⟩ : ∃ s, Leader.system.Reachable lossless s ∧
      ∃ e ∈ s.electors[0]?, ∃ e' ∈ s.electors[1]?,
        e.scheduler.running = true ∧ e'.scheduler.running = true :=
    Transition.System.exists_reachable_of_exec
      (electionRun 0 ++ [.cancel 0, .run 0 .done, .run 0 .ok, .finish ⟨0, 0⟩] ++ electionRun 1)
      ⟨2, rfl⟩ (by decide)
  exact ⟨s, e, e', reachable, found, found', running⟩

end GoQueue.Verified
