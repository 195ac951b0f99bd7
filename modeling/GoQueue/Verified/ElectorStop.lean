import GoQueue.Leader.Shutdown

/-! # When stopping the elector can panic

`Stop` and `Start` share the field `conn`.  `Stop` tests it, closes the connection and clears the
field; `Start` does the same when it leaves, and in between it queries through the field.  Either
may therefore call a method of a connection that the other has just cleared.

Whether that can happen is decided by where `Start` is when the context is cancelled: it cannot
once `Start` will neither use nor clear an open connection, and in every other case there is an
order of the steps in which it does.
-/

namespace GoQueue.Leader

open Process

/-! ## Where `Start` is -/

/-- Where there is no open connection in the field. -/
def detachedAt : StartPoint → Bool
  | .head | .testingNil | .testingClosed | .dialing | .connecting | .assigning _ | .clearing
  | .sleeping | .forgetting | .lost | .stopping | .waiting | .returned => true
  | .querying | .discarding | .acquired | .starting | .holding | .verifying | .leavingNil
  | .leavingClosed | .leaving => false

/-- Where the field has an open connection, as long as `Stop` is not called. -/
def openAt : StartPoint → Bool
  | .querying | .acquired | .starting | .holding | .verifying | .leaving => true
  | .head | .testingNil | .testingClosed | .dialing | .connecting | .assigning _ | .discarding
  | .clearing | .sleeping | .leavingNil | .leavingClosed | .forgetting | .lost | .stopping
  | .waiting | .returned => false

/-- Where the field is not nil, as long as `Stop` is not called. -/
def filledAt : StartPoint → Bool
  | .testingClosed | .discarding | .clearing | .leavingNil | .leavingClosed | .forgetting => true
  | .head | .testingNil | .dialing | .connecting | .assigning _ | .querying | .sleeping | .acquired
  | .starting | .holding | .verifying | .leaving | .lost | .stopping | .waiting | .returned => false

/-- Where a connection is about to be made, if the context is not done. -/
def renewsAt : StartPoint → Bool
  | .testingNil | .testingClosed | .dialing | .connecting | .assigning _ => true
  | .head | .querying | .discarding | .clearing | .sleeping | .acquired | .starting | .holding
  | .verifying | .leavingNil | .leavingClosed | .leaving | .forgetting | .lost | .stopping
  | .waiting | .returned => false

/-- Where `IsLeader` may answer true. -/
def shownAt : StartPoint → Bool
  | .starting | .holding | .verifying | .leavingNil | .leavingClosed | .leaving | .forgetting
  | .lost => true
  | .head | .testingNil | .testingClosed | .dialing | .connecting | .assigning _ | .querying
  | .discarding | .clearing | .sleeping | .acquired | .stopping | .waiting | .returned => false

/-- Between the return of `onAcquire` and the return of `onRelease`. -/
def servesAt : StartPoint → Bool
  | .holding | .verifying | .leavingNil | .leavingClosed | .leaving | .forgetting | .lost
  | .stopping | .waiting => true
  | .head | .testingNil | .testingClosed | .dialing | .connecting | .assigning _ | .querying
  | .discarding | .clearing | .sleeping | .acquired | .starting | .returned => false

/-- `Start` will use or clear an open connection. -/
def Busy (s : Process) : Bool :=
  match s.start with
  | .connecting | .assigning _ | .querying | .discarding | .clearing | .acquired | .starting
  | .holding | .verifying | .leaving | .forgetting => true
  | .leavingNil | .leavingClosed => s.conn.any fun c => !s.isClosed c
  | .head | .testingNil | .testingClosed | .dialing | .sleeping | .lost | .stopping | .waiting
  | .returned => false

/-! ## What holds of the connections -/

theorem isClosed_close (s : Process) (c c' : Nat) :
    (s.close c).isClosed c' = (decide (c' = c) || s.isClosed c') := by
  by_cases same : c' = c
  · subst same
    by_cases bound : c' < s.closed.length <;> simp [isClosed, close, bound]
  · simp [isClosed, close, same, List.getElem?_set_ne (Ne.symm same)]

theorem getD_concat_false (closed : List Bool) (c : Nat) :
    (closed ++ [false])[c]?.getD true = (closed[c]?.getD true && decide (c ≠ closed.length)) := by
  rcases Nat.lt_trichotomy c closed.length with before | rfl | after
  · simp [List.getElem?_append_left before, before, Nat.ne_of_lt before]
  · simp
  · simp [List.getElem?_append_right (Nat.le_of_lt after), Nat.le_of_lt after,
      Nat.ne_of_gt after, Nat.sub_ne_zero_of_lt after]

/-- The field holds no open connection. -/
def Detached (s : Process) : Prop := ∀ c, s.conn = some c → s.isClosed c = true

/-- The connections of a process, wherever its two goroutines are. -/
structure Kept (s : Process) : Prop where
  /-- An open connection is in the field or about to be put there. -/
  held : ∀ c, s.isClosed c = false → s.conn = some c ∨ s.start = .assigning c
  fresh : ∀ c, s.start = .assigning c → s.isClosed c = false
  made : ∀ c, s.conn = some c ∨ s.start = .assigning c → c < s.closed.length
  detached : detachedAt s.start = true → Detached s
  cancelled : s.stop ≠ .uncalled → s.ctxDone = true
  stopCloses : s.stop = .closing ∨ s.stop = .clearing → renewsAt s.start = false
  stopClears : s.stop = .clearing → Detached s
  opened : s.stop = .uncalled → openAt s.start = true → ¬ Detached s
  filled : s.stop = .uncalled → filledAt s.start = true → s.conn ≠ none

theorem Detached.of_none {s : Process} (missing : s.conn = none) : Detached s := by
  intro c present
  rw [missing] at present
  cases present

theorem Detached.of_closed {s : Process} {c : Nat} (present : s.conn = some c)
    (closed : s.isClosed c = true) : Detached s := by
  intro c' present'
  rw [present] at present'
  cases present'
  exact closed

theorem not_detached {s : Process} {c : Nat} (present : s.conn = some c)
    (stillOpen : s.isClosed c = false) : ¬ Detached s := by
  intro detached
  rw [detached c present] at stillOpen
  cases stillOpen

/-- Two processes that differ in nothing that `Kept` reads, but for the point of `Start`. -/
structure Moved (s t : Process) : Prop where
  conn : t.conn = s.conn
  closed : t.closed = s.closed
  stop : t.stop = s.stop
  ctxDone : t.ctxDone = s.ctxDone
  assigning : ∀ c, t.start = .assigning c ↔ s.start = .assigning c

theorem Moved.detached {s t : Process} (same : Moved s t) : Detached t ↔ Detached s := by
  simp only [Detached, isClosed, same.conn, same.closed]

/-- Connections are made only while the context is not done, and `Stop` is called after that. -/
def Renews (s t : Process) : Prop :=
  renewsAt t.start = true → renewsAt s.start = true ∨ s.ctxDone = false

theorem Kept.not_renewing {s t : Process} (kept : Kept s) (renews : Renews s t)
    (closes : s.stop = .closing ∨ s.stop = .clearing) : renewsAt t.start = false := by
  rw [Bool.eq_false_iff]
  intro later
  cases renews later with
  | inl now =>
    rw [kept.stopCloses closes] at now
    cases now
  | inr going =>
    rw [kept.cancelled (by rintro uncalled; rw [uncalled] at closes; cases closes <;> contradiction)]
      at going
    cases going

/-- `Start` moves on and leaves the connections alone. -/
theorem Kept.moved {s t : Process} (kept : Kept s) (same : Moved s t) (renews : Renews s t)
    (detached : detachedAt t.start = true → Detached s)
    (opened : s.stop = .uncalled → openAt t.start = true → ¬ Detached s)
    (filled : s.stop = .uncalled → filledAt t.start = true → s.conn ≠ none) : Kept t where
  held c stillOpen := by
    simp only [isClosed, same.closed] at stillOpen
    rw [same.conn, same.assigning]
    exact kept.held c stillOpen
  fresh c assigning := by
    simp only [isClosed, same.closed]
    exact kept.fresh c ((same.assigning c).mp assigning)
  made c := by
    rw [same.conn, same.closed, same.assigning]
    exact kept.made c
  detached place := same.detached.mpr (detached place)
  cancelled := same.stop ▸ same.ctxDone ▸ kept.cancelled
  stopCloses closes := kept.not_renewing renews (same.stop ▸ closes)
  stopClears clears := same.detached.mpr (kept.stopClears (same.stop ▸ clears))
  opened uncalled place := same.detached.not.mpr (opened (same.stop ▸ uncalled) place)
  filled uncalled place := same.conn ▸ filled (same.stop ▸ uncalled) place

/-- `Start` closes the connection in the field. -/
theorem Kept.shut {s t : Process} {c : Nat} (kept : Kept s) (present : s.conn = some c)
    (same : Moved (s.close c) t) (placed : ∀ c, s.start ≠ .assigning c) (renews : Renews s t)
    (unopened : openAt t.start = false) : Kept t := by
  have closed : Detached t :=
    same.detached.mpr (.of_closed (s := s.close c) present (by simp [isClosed_close]))
  refine ⟨?_, ?_, ?_, fun _ => closed, same.stop ▸ same.ctxDone ▸ kept.cancelled, fun closes =>
    kept.not_renewing renews (same.stop ▸ closes), fun _ => closed, ?_, ?_⟩
  · intro c' stillOpen
    have stillOpen : (s.close c).isClosed c' = false := by
      simpa only [isClosed, same.closed] using stillOpen
    rw [isClosed_close, Bool.or_eq_false_iff] at stillOpen
    rw [same.conn, same.assigning]
    exact kept.held c' stillOpen.2
  · intro c' assigning
    exact absurd ((same.assigning c').mp assigning) (placed c')
  · intro c'
    rw [same.conn, same.closed, same.assigning]
    simpa [close] using kept.made c'
  · intro _ opened
    rw [unopened] at opened
    cases opened
  · intro _ _ missing
    rw [same.conn] at missing
    exact absurd (present.symm.trans missing) (Option.some_ne_none c)

/-- The field is cleared, by one goroutine or the other. -/
theorem Kept.unset {s t : Process} (kept : Kept s) (detached : Detached s)
    (same : Moved { s with conn := none, stop := t.stop } t)
    (cancelled : t.stop ≠ .uncalled → s.ctxDone = true)
    (closes : t.stop = .closing ∨ t.stop = .clearing → renewsAt t.start = false)
    (unopened : t.stop = .uncalled → openAt t.start = false ∧ filledAt t.start = false) :
    Kept t := by
  have missing : t.conn = none := same.conn
  refine ⟨?_, ?_, ?_, fun _ => .of_none missing, ?_, closes, fun _ => .of_none missing, ?_, ?_⟩
  · intro c stillOpen
    have stillOpen : s.isClosed c = false := by
      simpa only [isClosed, same.closed] using stillOpen
    cases kept.held c stillOpen with
    | inl present => exact absurd detached (not_detached present stillOpen)
    | inr assigning => exact .inr ((same.assigning c).mpr assigning)
  · intro c assigning
    simp only [isClosed, same.closed]
    exact kept.fresh c ((same.assigning c).mp assigning)
  · intro c
    rw [missing, same.closed, same.assigning]
    rintro (absent | assigning)
    · cases absent
    · exact kept.made c (.inr assigning)
  · exact fun called => same.ctxDone.trans (cancelled called)
  · intro uncalled opened
    rw [(unopened uncalled).1] at opened
    cases opened
  · intro uncalled filled
    rw [(unopened uncalled).2] at filled
    cases filled

theorem Kept.start {s t : Process} {outcome : Outcome} (kept : Kept s)
    (taken : StartStep s outcome t) : Kept t := by
  cases taken with
  -- there is no open connection before the step and none is wanted after it
  | returns place | awakes place | missing place | follows place | stops place | idle place
  | stopped place | replaced place =>
    refine kept.moved ⟨rfl, rfl, rfl, rfl, ?_⟩ ?_ (fun _ => kept.detached ?_) ?_ ?_
    all_goals simp [place, Renews, renewsAt, detachedAt, openAt, filledAt]
  | unconnected place =>
    rcases place with place | place
    all_goals refine kept.moved ⟨rfl, rfl, rfl, rfl, ?_⟩ ?_ (fun _ => kept.detached ?_) ?_ ?_
    all_goals simp [place, Renews, renewsAt, detachedAt, openAt, filledAt]
  | gone place missing =>
    refine kept.moved ⟨rfl, rfl, rfl, rfl, ?_⟩ ?_ (fun _ => .of_none missing) ?_ ?_
    all_goals simp [place, Renews, renewsAt, openAt, filledAt]
  | closed place present closed =>
    refine kept.moved ⟨rfl, rfl, rfl, rfl, ?_⟩ ?_ (fun _ => .of_closed present closed) ?_ ?_
    all_goals simp [place, Renews, renewsAt, openAt, filledAt]
  | tries place going | dials place going =>
    refine kept.moved ⟨rfl, rfl, rfl, rfl, ?_⟩ ?_ (fun _ => kept.detached ?_) ?_ ?_
    all_goals simp [place, going, Renews, detachedAt, openAt, filledAt]
  | present place present =>
    refine kept.moved ⟨rfl, rfl, rfl, rfl, ?_⟩ ?_ (fun _ => kept.detached ?_) ?_ ?_
    all_goals simp [place, present, Renews, renewsAt, detachedAt, openAt]
  -- an open connection is used
  | reused place present stillOpen | granted place present stillOpen
  | verified place present stillOpen | stillOpen place present stillOpen =>
    refine kept.moved ⟨rfl, rfl, rfl, rfl, ?_⟩ ?_ ?_ (fun _ _ => not_detached present stillOpen) ?_
    all_goals simp [place, Renews, renewsAt, detachedAt, filledAt]
  | leads place | started place | ticks place =>
    refine kept.moved ⟨rfl, rfl, rfl, rfl, ?_⟩ ?_ ?_ (fun uncalled _ => kept.opened uncalled ?_) ?_
    all_goals simp [place, Renews, renewsAt, detachedAt, openAt, filledAt]
  | refused place present | unheld place present | there place present =>
    refine kept.moved ⟨rfl, rfl, rfl, rfl, ?_⟩ ?_ ?_ ?_ ?_
    all_goals simp [place, present, Renews, renewsAt, detachedAt, openAt]
  | cancelled place =>
    refine kept.moved ⟨rfl, rfl, rfl, rfl, ?_⟩ ?_ ?_ ?_ fun uncalled _ missing =>
      kept.opened uncalled ?_ (.of_none missing)
    all_goals simp [place, Renews, renewsAt, detachedAt, openAt]
  | @unasked c closes place present | @unverified c closes place present =>
    cases closes with
    | false =>
      refine kept.moved ⟨rfl, rfl, rfl, rfl, ?_⟩ ?_ ?_ ?_ ?_
      all_goals simp [place, present, Renews, renewsAt, detachedAt, openAt]
    | true =>
      refine kept.shut present ⟨rfl, rfl, rfl, rfl, ?_⟩ ?_ ?_ ?_
      all_goals simp [close, place, Renews, renewsAt, openAt]
  | discarded place present | leaves place present =>
    refine kept.shut present ⟨rfl, rfl, rfl, rfl, ?_⟩ ?_ ?_ ?_
    all_goals simp [close, place, Renews, renewsAt, openAt]
  | cleared place | forgets place =>
    refine kept.unset (kept.detached ?_) ⟨rfl, rfl, rfl, rfl, ?_⟩ kept.cancelled ?_ ?_
    all_goals simp [place, renewsAt, detachedAt, openAt, filledAt]
  -- a connection is made, and put into the field in the place of a closed one
  | connected place =>
    have detached : Detached s := kept.detached (by rw [place]; rfl)
    have detached' : Detached
        { s with closed := s.closed ++ [false], start := .assigning s.closed.length } := by
      intro c present
      have earlier : c ≠ s.closed.length := Nat.ne_of_lt (kept.made c (.inl present))
      simpa [isClosed, getD_concat_false, earlier] using detached c present
    refine ⟨?_, ?_, ?_, fun _ => detached', kept.cancelled, ?_, fun _ => detached', ?_, ?_⟩
    · intro c stillOpen
      simp only [isClosed, getD_concat_false, Bool.and_eq_false_iff, decide_eq_false_iff_not,
        not_not] at stillOpen
      rcases stillOpen with stillOpen | rfl
      · refine .inl ((kept.held c stillOpen).resolve_right ?_)
        simp [place]
      · exact .inr rfl
    · rintro c assigning
      cases assigning
      simp [isClosed]
    · rintro c (present | assigning)
      · simpa using Nat.lt_succ_of_lt (kept.made c (.inl present))
      · cases assigning
        simp
    · intro closes
      have renews := kept.stopCloses closes
      rw [place] at renews
      cases renews
    all_goals simp [openAt, filledAt]
  | @assigned c place =>
    have detached : Detached s := kept.detached (by rw [place]; rfl)
    refine ⟨?_, by simp, ?_, by simp [detachedAt], kept.cancelled, by simp [renewsAt], ?_, ?_, ?_⟩
    · intro c' stillOpen
      cases kept.held c' stillOpen with
      | inl present => exact absurd detached (not_detached present stillOpen)
      | inr assigning =>
        rw [place] at assigning
        cases assigning
        exact .inl rfl
    · rintro c' (present | assigning)
      · cases present
        exact kept.made c (.inr place)
      · cases assigning
    · intro clears
      have renews := kept.stopCloses (.inr clears)
      rw [place] at renews
      cases renews
    · exact fun _ _ => not_detached rfl (kept.fresh c place)
    · simp [filledAt]

/-- `Stop` moves on and leaves the connections alone. -/
theorem Kept.halts {s : Process} (kept : Kept s) (leader : Bool) {point : StopPoint}
    (called : point ≠ .uncalled) (done : s.ctxDone = true)
    (closes : point = .closing → renewsAt s.start = false) (unclear : point ≠ .clearing) :
    Kept { s with isLeader := leader, stop := point } where
  held := kept.held
  fresh := kept.fresh
  made := kept.made
  detached := kept.detached
  cancelled _ := done
  stopCloses near := closes (near.resolve_right unclear)
  stopClears near := absurd near unclear
  opened uncalled := absurd uncalled called
  filled uncalled := absurd uncalled called

theorem detachedAt_of_renewsAt {point : StartPoint} (renews : renewsAt point = true) :
    detachedAt point = true := by
  cases point <;> first | rfl | cases renews

theorem Kept.stop {s t : Process} (kept : Kept s) (taken : StopStep s t) : Kept t := by
  cases taken with
  | called place done => exact kept.halts _ (by simp) done (by simp) (by simp)
  | missing place | present place | closed place | stores place =>
    exact kept.halts _ (by simp) (kept.cancelled (by simp [place])) (by simp) (by simp)
  | stillOpen place present stillOpen =>
    refine kept.halts _ (by simp) (kept.cancelled (by simp [place])) (fun _ => ?_) (by simp)
    rw [Bool.eq_false_iff]
    exact fun renews =>
      not_detached present stillOpen (kept.detached (detachedAt_of_renewsAt renews))
  | @closes c place present =>
    have unrenewed := kept.stopCloses (.inl place)
    have unplaced : ∀ c, s.start ≠ .assigning c := by
      intro c assigning
      rw [assigning] at unrenewed
      cases unrenewed
    have closed : Detached (s.close c) := .of_closed present (by simp [isClosed_close])
    refine ⟨?_, fun c assigning => absurd assigning (unplaced c), ?_, fun _ => closed,
      fun _ => kept.cancelled (by simp [place]), fun _ => unrenewed, fun _ => closed,
      by simp, by simp⟩
    · intro c' stillOpen
      have stillOpen : (s.close c).isClosed c' = false := stillOpen
      rw [isClosed_close, Bool.or_eq_false_iff] at stillOpen
      exact kept.held c' stillOpen.2
    · intro c' known
      simpa [close] using kept.made c' known
  | clears place =>
    refine kept.unset (kept.stopClears place) ⟨rfl, rfl, rfl, rfl, ?_⟩ (fun _ => ?_) ?_ ?_
    · simp
    · exact kept.cancelled (by simp [place])
    · simp
    · simp

theorem Kept.step {s t : Process} {a : Process.Action} (kept : Kept s) (taken : Step s a t) :
    Kept t := by
  cases taken with
  | start taken => exact kept.start taken
  | stop taken => exact kept.stop taken
  | exit | panics => exact { kept with }
  | cancel => exact { kept with cancelled := fun _ => rfl }

theorem kept_of_reachable {s : Process} (reachable : Process.system.Reachable anyStep s) :
    Kept s := by
  refine reachable.invariant (P := Kept) ?_ fun _ _ taken kept => kept.step (step_cases taken)
  rintro s rfl
  constructor <;> simp [initial, isClosed, Detached, openAt, filledAt]

/-! ## What holds of the leadership -/

/-- The leadership of a process, wherever its two goroutines are. -/
structure Serving (s : Process) : Prop where
  isLeader : s.isLeader = true → shownAt s.start = true
  running : s.scheduler.running = servesAt s.start
  loops : servesAt s.start = false → s.scheduler.loops = 0

theorem Serving.moved {s t : Process} (serving : Serving s) (leader : t.isLeader = s.isLeader)
    (scheduler : t.scheduler = s.scheduler)
    (shown : shownAt s.start = true → shownAt t.start = true)
    (serves : servesAt t.start = servesAt s.start) : Serving t where
  isLeader leads := shown (serving.isLeader (leader ▸ leads))
  running := by rw [scheduler, serves, serving.running]
  loops idle := by rw [scheduler, serving.loops (serves ▸ idle)]

theorem Serving.start {s t : Process} {outcome : Outcome} (serving : Serving s)
    (taken : StartStep s outcome t) : Serving t := by
  have running := serving.running
  cases taken with
  | leads place =>
    have idle : servesAt s.start = false := by rw [place]; rfl
    exact ⟨fun _ => rfl, running.trans idle, fun _ => serving.loops idle⟩
  | started place =>
    refine ⟨fun _ => rfl, ?_, fun idle => by cases idle⟩
    simp [servesAt]
  | follows place =>
    refine ⟨fun leads => (by cases leads), ?_, fun idle => by cases idle⟩
    rw [running, place]
    rfl
  | stops place =>
    refine ⟨fun leads => ?_, ?_, fun idle => by cases idle⟩
    · have shown := serving.isLeader leads
      rw [place] at shown
      cases shown
    · rw [show _ = s.scheduler.running from rfl, running, place]
      rfl
  | idle place idle =>
    rw [running, place] at idle
    cases idle
  | stopped place gone =>
    refine ⟨fun leads => ?_, rfl, fun _ => gone⟩
    have shown := serving.isLeader leads
    rw [place] at shown
    cases shown
  | @unasked c closes place | @unverified c closes place =>
    cases closes
    all_goals exact serving.moved rfl rfl (by simp [place, shownAt]) (by simp [place, servesAt])
  | unconnected place =>
    rcases place with place | place
    all_goals exact serving.moved rfl rfl (by simp [place, shownAt]) (by simp [place, servesAt])
  | _ => exact serving.moved rfl rfl (by simp [*, shownAt]) (by simp [*, servesAt])

theorem Serving.step {s t : Process} {a : Process.Action} (serving : Serving s)
    (taken : Step s a t) : Serving t := by
  cases taken with
  | start taken => exact serving.start taken
  | stop taken =>
    cases taken with
    | stores => exact ⟨fun leads => (by cases leads), serving.running, serving.loops⟩
    | _ => exact serving.moved rfl rfl id rfl
  | exit exited =>
    refine ⟨serving.isLeader, (Scheduler.running_exit exited).trans serving.running, fun idle => ?_⟩
    have gone := serving.loops idle
    simp [Scheduler.exit, gone] at exited
  | cancel | panics => exact serving.moved rfl rfl id rfl

theorem serving_of_reachable {s : Process} (reachable : Process.system.Reachable anyStep s) :
    Serving s := by
  refine reachable.invariant (P := Serving) ?_ fun _ _ taken serving =>
    serving.step (step_cases taken)
  rintro s rfl
  exact ⟨by simp [initial], rfl, fun _ => rfl⟩

/-! ## How a panic comes about -/

abbrev Panics (s : Process) : Prop := Process.system.CanReach anyStep (fun t => t.panicked = true) s

theorem Panics.start {s t : Process} (outcome : Outcome) (alive : s.panicked = false)
    (taken : s.stepStart outcome = some t) (later : Panics t) : Panics s :=
  later.after (a := .start outcome) trivial (by simpa [Process.system, step, alive] using taken)

theorem Panics.stop {s t : Process} (alive : s.panicked = false) (taken : s.stepStop = some t)
    (later : Panics t) : Panics s :=
  later.after (a := .stop) trivial (by simpa [Process.system, step, alive] using taken)

theorem stepStart_of_calls {s : Process} (missing : s.conn = none) (calls : s.start.calls = true) :
    s.stepStart .ok = some { s with panicked := true } := by
  cases place : s.start <;> simp only [place, StartPoint.calls, Bool.false_eq_true] at calls
  all_goals simp [stepStart, place, onConn, missing]

/-- `Stop` closes and clears a connection that `Start` is about to use. -/
theorem panics_of_calls {s : Process} {c : Nat} (alive : s.panicked = false)
    (uncalled : s.stop = .uncalled) (done : s.ctxDone = true) (present : s.conn = some c)
    (stillOpen : s.isClosed c = false) (calls : s.start.calls = true) : Panics s := by
  refine .stop (t := { s with stop := .testingNil }) alive (by simp [stepStop, uncalled, done]) ?_
  refine .stop (t := { s with stop := .testingClosed }) alive (by simp [stepStop, present]) ?_
  refine .stop (t := { s with stop := .closing }) alive ?_ ?_
  · simp only [isClosed] at stillOpen
    simp [stepStop, onConn, present, isClosed, stillOpen]
  refine .stop (t := { s.close c with stop := .clearing }) alive ?_ ?_
  · simp [stepStop, onConn, present, close]
  refine .stop (t := { s.close c with conn := none, stop := .storing }) alive rfl ?_
  exact .start .ok alive (stepStart_of_calls rfl calls) (.here rfl)

/-- `Start` clears the field after `Stop` has tested it. -/
theorem panics_of_clears {s : Process} (alive : s.panicked = false) (uncalled : s.stop = .uncalled)
    (done : s.ctxDone = true) (present : s.conn ≠ none)
    (clears : s.start = .clearing ∨ s.start = .forgetting) : Panics s := by
  refine .stop (t := { s with stop := .testingNil }) alive (by simp [stepStop, uncalled, done]) ?_
  refine .stop (t := { s with stop := .testingClosed }) alive (by simp [stepStop, present]) ?_
  rcases clears with place | place
  all_goals
    refine .start .ok alive (by simp only [stepStart, place]; rfl) ?_
    exact .stop alive (by simp [stepStop, onConn]; rfl) (.here rfl)

theorem exists_open {s : Process} (opened : ¬ Detached s) :
    ∃ c, s.conn = some c ∧ s.isClosed c = false := by
  simpa [Detached] using opened

/-- `Start` gives up a connection that is open. -/
theorem panics_of_leaves {s : Process} {c : Nat} (alive : s.panicked = false)
    (uncalled : s.stop = .uncalled) (done : s.ctxDone = true) (present : s.conn = some c)
    (stillOpen : s.isClosed c = false) (place : s.start = .leavingNil) : Panics s := by
  refine .start (t := { s with start := .leavingClosed }) .ok alive ?_ ?_
  · simp [stepStart, place, present]
  · exact panics_of_calls alive uncalled done present stillOpen rfl

theorem panics_of_holds {s : Process} {c : Nat} (alive : s.panicked = false)
    (uncalled : s.stop = .uncalled) (done : s.ctxDone = true) (present : s.conn = some c)
    (stillOpen : s.isClosed c = false) (place : s.start = .holding) : Panics s := by
  refine .start (t := { s with start := .leavingNil }) .done alive ?_ ?_
  · simp [stepStart, place, done]
  · exact panics_of_leaves alive uncalled done present stillOpen rfl

theorem panics_of_starts {s : Process} {c : Nat} (alive : s.panicked = false)
    (uncalled : s.stop = .uncalled) (done : s.ctxDone = true) (present : s.conn = some c)
    (stillOpen : s.isClosed c = false) (place : s.start = .starting) : Panics s := by
  refine .start .ok alive (by simp only [stepStart, place]; rfl) ?_
  exact panics_of_holds alive uncalled done present stillOpen rfl

theorem panics_of_assigns {s : Process} {c : Nat} (alive : s.panicked = false)
    (uncalled : s.stop = .uncalled) (done : s.ctxDone = true) (stillOpen : s.isClosed c = false)
    (place : s.start = .assigning c) : Panics s := by
  refine .start .ok alive (by simp only [stepStart, place]; rfl) ?_
  exact panics_of_calls alive uncalled done rfl stillOpen rfl

theorem Kept.panics {s : Process} (kept : Kept s) (alive : s.panicked = false)
    (uncalled : s.stop = .uncalled) (done : s.ctxDone = true) (busy : Busy s = true) :
    Panics s := by
  have opened (place : openAt s.start = true) := exists_open (kept.opened uncalled place)
  have filled (place : filledAt s.start = true) := kept.filled uncalled place
  cases place : s.start <;> simp only [Busy, place, Bool.false_eq_true] at busy
  case connecting =>
    refine .start .ok alive (by simp only [stepStart, place]; rfl) ?_
    exact panics_of_assigns alive uncalled done (by simp [isClosed]) rfl
  case assigning c => exact panics_of_assigns alive uncalled done (kept.fresh c place) place
  case querying | verifying | leaving =>
    obtain ⟨c, present, stillOpen⟩ := opened (by rw [place]; rfl)
    exact panics_of_calls alive uncalled done present stillOpen (by rw [place]; rfl)
  case discarding =>
    obtain ⟨c, present⟩ := Option.ne_none_iff_exists'.mp (filled (by rw [place]; rfl))
    refine .start (t := { s.close c with start := .clearing }) .ok alive ?_ ?_
    · simp [stepStart, place, onConn, present]
    · exact panics_of_clears alive uncalled done (by simp [close, present]) (.inl rfl)
  case clearing =>
    exact panics_of_clears alive uncalled done (filled (by rw [place]; rfl)) (.inl place)
  case forgetting =>
    exact panics_of_clears alive uncalled done (filled (by rw [place]; rfl)) (.inr place)
  case acquired =>
    obtain ⟨c, present, stillOpen⟩ := opened (by rw [place]; rfl)
    refine .start .ok alive (by simp only [stepStart, place]; rfl) ?_
    exact panics_of_starts alive uncalled done present stillOpen rfl
  case starting =>
    obtain ⟨c, present, stillOpen⟩ := opened (by rw [place]; rfl)
    exact panics_of_starts alive uncalled done present stillOpen place
  case holding =>
    obtain ⟨c, present, stillOpen⟩ := opened (by rw [place]; rfl)
    exact panics_of_holds alive uncalled done present stillOpen place
  case leavingNil =>
    obtain ⟨c, present, stillOpen⟩ : ∃ c, s.conn = some c ∧ s.isClosed c = false := by
      simpa [Option.any_eq_true] using busy
    exact panics_of_leaves alive uncalled done present stillOpen place
  case leavingClosed =>
    obtain ⟨c, present, stillOpen⟩ : ∃ c, s.conn = some c ∧ s.isClosed c = false := by
      simpa [Option.any_eq_true] using busy
    exact panics_of_calls alive uncalled done present stillOpen (by rw [place]; rfl)

/-! ## When none can come about -/

/-- The context is done and what `Start` still does leaves the field alone. -/
structure Quiet (s : Process) : Prop where
  alive : s.panicked = false
  done : s.ctxDone = true
  idle : Busy s = false
  detached : Detached s
  /-- The test for nil that `Start` has passed still holds. -/
  startTested : s.start = .testingClosed ∨ s.start = .leavingClosed → s.conn ≠ none
  stopTested : s.stop = .testingClosed → s.conn ≠ none
  unclosing : s.stop ≠ .closing ∧ s.stop ≠ .clearing

theorem any_open_eq_false_iff {s : Process} :
    (s.conn.any fun c => !s.isClosed c) = false ↔ Detached s := by
  cases present : s.conn <;> simp [Detached, present]

theorem Quiet.moved {s : Process} (quiet : Quiet s) (leader : Bool) (scheduler : Scheduler)
    {point : StartPoint}
    (idle : Busy { s with isLeader := leader, scheduler := scheduler, start := point } = false)
    (tested : point = .testingClosed ∨ point = .leavingClosed → s.conn ≠ none) :
    Quiet { s with isLeader := leader, scheduler := scheduler, start := point } where
  alive := quiet.alive
  done := quiet.done
  idle := idle
  detached := quiet.detached
  startTested := tested
  stopTested := quiet.stopTested
  unclosing := quiet.unclosing

theorem Quiet.start {s t : Process} {outcome : Outcome} (quiet : Quiet s)
    (taken : StartStep s outcome t) : Quiet t := by
  have idle := quiet.idle
  cases taken with
  | tries _ going | dials _ going =>
    rw [quiet.done] at going
    cases going
  | reused _ present stillOpen | stillOpen _ present stillOpen =>
    exact absurd quiet.detached (not_detached present stillOpen)
  | returns | missing | replaced | awakes | gone | closed | follows | stops | idle | stopped =>
    exact quiet.moved _ _ rfl (by simp)
  | unconnected place => exact quiet.moved _ _ rfl (by simp)
  | present _ present => exact quiet.moved _ _ rfl (by simp [present])
  | there _ present =>
    exact quiet.moved _ _ (any_open_eq_false_iff.mpr quiet.detached) (by simp [present])
  | connected place | assigned place | granted place | refused place | unasked place
  | discarded place | cleared place | leads place | started place | ticks place | cancelled place
  | verified place | unheld place | unverified place | leaves place | forgets place =>
    simp [Busy, place] at idle

theorem Quiet.stop {s t : Process} (quiet : Quiet s) (taken : StopStep s t) : Quiet t := by
  cases taken with
  | called => exact { quiet with stopTested := by simp, unclosing := by simp }
  | missing => exact { quiet with stopTested := by simp, unclosing := by simp }
  | present _ present =>
    exact { quiet with stopTested := by simp [present], unclosing := by simp }
  | closed => exact { quiet with stopTested := by simp, unclosing := by simp }
  | stillOpen _ present stillOpen =>
    exact absurd quiet.detached (not_detached present stillOpen)
  | closes place => exact absurd place quiet.unclosing.1
  | clears place => exact absurd place quiet.unclosing.2
  | stores => exact { quiet with stopTested := by simp, unclosing := by simp }

theorem Quiet.step {s t : Process} {a : Process.Action} (quiet : Quiet s) (taken : Step s a t) :
    Quiet t := by
  cases taken with
  | start taken => exact quiet.start taken
  | stop taken => exact quiet.stop taken
  | exit => exact { quiet with }
  | cancel => exact { quiet with done := rfl }
  | panics missing calls =>
    have idle := quiet.idle
    rcases calls with calls | calls
    · cases place : s.start <;>
        simp only [place, StartPoint.calls, Busy, Bool.false_eq_true, Bool.true_eq_false]
          at calls idle
      case testingClosed => exact absurd missing (quiet.startTested (.inl place))
      case leavingClosed => exact absurd missing (quiet.startTested (.inr place))
    · cases place : s.stop <;> simp only [place, StopPoint.calls, Bool.false_eq_true] at calls
      case testingClosed => exact absurd missing (quiet.stopTested place)
      case closing => exact absurd place quiet.unclosing.1

theorem Kept.quiet {s : Process} (kept : Kept s) (alive : s.panicked = false)
    (uncalled : s.stop = .uncalled) (done : s.ctxDone = true) (idle : Busy s = false) :
    Quiet s where
  alive := alive
  done := done
  idle := idle
  detached := by
    cases place : s.start <;> simp only [Busy, place, Bool.true_eq_false] at idle
    case leavingNil | leavingClosed =>
      exact any_open_eq_false_iff.mp idle
    all_goals exact kept.detached (by rw [place]; rfl)
  startTested place := by
    refine kept.filled uncalled ?_
    rcases place with place | place <;> rw [place] <;> rfl
  stopTested place := by rw [uncalled] at place; cases place
  unclosing := by simp [uncalled]

/-! ## The two results -/

/-- Once the context is cancelled and before `Stop` is called, whether a panic can follow is
decided by where `Start` is. -/
theorem stop_panics_iff {s : Process} (reachable : Process.system.Reachable anyStep s)
    (alive : s.panicked = false) (done : s.ctxDone = true) (uncalled : s.stop = .uncalled) :
    Process.system.CanReach anyStep (fun t => t.panicked = true) s ↔ Busy s = true := by
  have kept := kept_of_reachable reachable
  constructor
  · rintro ⟨t, reaches, panicked⟩
    by_contra idle
    rw [Bool.not_eq_true] at idle
    have quiet : Quiet t :=
      reaches.invariant (P := Quiet) (fun _ taken quiet => quiet.step (step_cases taken))
        (kept.quiet alive uncalled done idle)
    rw [quiet.alive] at panicked
    cases panicked
  · exact kept.panics alive uncalled done

theorem stop_panics_iff_leading : ∃ s, Process.system.Reachable anyStep s ∧ s.start = .holding ∧
    Process.system.CanReach anyStep (fun t => t.panicked = true) s := by
  have ⟨s, reachable, alive, done, uncalled, busy, place⟩ :
      ∃ s, Process.system.Reachable anyStep s ∧ s.panicked = false ∧ s.ctxDone = true ∧
        s.stop = .uncalled ∧ Busy s = true ∧ s.start = .holding :=
    Transition.System.exists_reachable_of_exec
      [.start .ok, .start .ok, .start .ok, .start .ok, .start .ok, .start .ok, .start .ok,
        .start .ok, .cancel] rfl (by decide)
  exact ⟨s, reachable, place, (stop_panics_iff reachable alive done uncalled).mpr busy⟩

/-- However the two goroutines interleave, once `Start` has returned nothing of the leadership is
left: no connection is open, so that no session of this process holds the lock, `IsLeader` answers
false, and the scheduler is stopped. -/
theorem returned_leaves_nothing {s : Process} (reachable : Process.system.Reachable anyStep s)
    (returned : s.start = .returned) :
    (∀ c, s.isClosed c = true) ∧ s.isLeader = false ∧ s.scheduler.running = false ∧
      s.scheduler.loops = 0 := by
  have kept := kept_of_reachable reachable
  have serving := serving_of_reachable reachable
  have idle : servesAt s.start = false := by rw [returned]; rfl
  refine ⟨fun c => ?_, ?_, serving.running.trans idle, serving.loops idle⟩
  · by_contra stillOpen
    rw [Bool.not_eq_true] at stillOpen
    rcases kept.held c stillOpen with present | place
    · exact not_detached present stillOpen (kept.detached (by rw [returned]; rfl))
    · rw [returned] at place
      cases place
  · rw [Bool.eq_false_iff]
    intro leads
    have shown := serving.isLeader leads
    rw [returned] at shown
    cases shown

theorem returned_leaves_nothing_stopped : ∃ s, Process.system.Reachable anyStep s ∧
    s.start = .returned ∧ s.stop = .returned ∧ s.closed = [true] ∧ s.isLeader = false ∧
    s.scheduler.loops = 0 := by
  have ⟨s, reachable, place, stopped, closed⟩ :
      ∃ s, Process.system.Reachable anyStep s ∧ s.start = .returned ∧ s.stop = .returned ∧
        s.closed = [true] :=
    -- `Stop` closes the connection of the leader, which then leaves
    Transition.System.exists_reachable_of_exec
      [.start .ok, .start .ok, .start .ok, .start .ok, .start .ok, .start .ok, .start .ok,
        .start .ok, .cancel, .stop, .stop, .stop, .stop, .stop, .stop, .start .done, .start .ok,
        .start .ok, .start .ok, .exit, .exit, .exit, .start .ok, .start .ok] rfl (by decide)
  obtain ⟨_, leader, _, loops⟩ := returned_leaves_nothing reachable place
  exact ⟨s, reachable, place, stopped, closed, leader, loops⟩

end GoQueue.Leader
