import Mathlib.Data.List.Nodup
import GoQueue.Scheduler.Loops
import GoQueue.Leader.Leader

/-! # The scheduler's loops under any calls of `Start` and `Stop`

The elector calls `Start` and `Stop` in turn, and its model takes each for one step.  Here they are
called by any number of goroutines, with the loops in between.

The lock makes the point of its holder part of the state that the loops see.  `Sound` says what
that point means for the fields: how many loops are still to be spawned, and whether those that
were spawned may still be there.
-/

namespace GoQueue.Scheduler.Loops

open State

/-! ## The lock -/

/-- A caller at this point holds the lock. -/
def Point.inside : Point → Bool
  | .locking | .returned => false
  | .testing | .making | .adding _ | .spawning _ _ | .setting | .cancelling | .waiting | .clearing
  | .unlocking => true

/-- The point of the caller that holds the lock. -/
def State.held (s : State) : Option Point := s.mu.bind fun k => s.callers[k]?.map (·.point)

/-- The callers inside are those that hold the lock: at most one. -/
structure State.Exclusive (s : State) : Prop where
  inside : ∀ k c, s.callers[k]? = some c → (c.point.inside = true ↔ s.mu = some k)
  known : ∀ k, s.mu = some k → k < s.callers.length

/-! ## What the holder's point means -/

/-- The loops that the holder has still to spawn. -/
def owed : Option Point → List Kind
  | some (.spawning _ left) => left
  | _ => []

/-- The context that the holder has made for the loops it has still to spawn. -/
def making : Option Point → Option Nat
  | some (.adding made) | some (.spawning made _) => some made
  | _ => none

/-- The holder is in `Start` and has not added to the counter yet. -/
def adding : Option Point → Bool
  | some (.adding _) => true
  | _ => false

/-- The holder is in `Start` and has made the context. -/
def starting : Option Point → Bool
  | some (.adding _) | some (.spawning _ _) | some .setting => true
  | _ => false

/-- The holder is in `Start`, past its test of `running`. -/
def inStart : Option Point → Bool
  | some .making => true
  | held => starting held

/-- The holder is in `Stop`, past its test of `running`. -/
def inStop : Option Point → Bool
  | some .cancelling | some .waiting | some .clearing => true
  | _ => false

def LoopPoint.ctx : LoopPoint → Option Nat
  | .unstarted => none
  | .selecting ctx | .passing ctx | .leaving ctx => some ctx

/-- A loop of the last call of `Start` that made a context: `field` is `s.ctx`. -/
structure Loop.Current (l : Loop) (field : Option Nat) (done : Nat → Bool) : Prop where
  made : field = some l.made
  read : ∀ ctx, l.point.ctx = some ctx → ctx = l.made
  left : ∀ ctx, l.point = .leaving ctx → done ctx = true

structure Sound (s : State) (held : Option Point) : Prop where
  alive : s.panicked = false
  counted : s.wg = s.loops.length + (owed held).length
  distinct : (s.loops.map (·.kind) ++ owed held).Nodup
  each : ∀ l ∈ s.loops, l.Current s.ctx s.done
  bound : ∀ ctx, s.ctx = some ctx → ctx < s.cancelled.length
  context : s.running = true ∨ starting held = true → s.ctx ≠ none
  made : ∀ ctx, making held = some ctx → s.ctx = some ctx
  idle : s.running = false → starting held = false → s.loops = []
  cleared : held = some .clearing → s.loops = []
  unstarted : adding held = true → s.loops = []
  startTested : inStart held = true → s.running = false
  stopTested : inStop held = true → s.running = true

variable {s t : State} {k n : Nat} {c : Caller} {l : Loop}

theorem State.Exclusive.mu_of_inside (exclusive : s.Exclusive) (found : s.callers[k]? = some c)
    (inside : c.point.inside = true) : s.mu = some k :=
  (exclusive.inside k c found).mp inside

/-- The caller moves inside, or takes or gives back the lock. -/
theorem State.Exclusive.moved (exclusive : s.Exclusive) (found : s.callers[k]? = some c)
    {point : Point} {t : State}
    (callers : t.callers = s.callers.set k { c with point := point })
    (own : point.inside = true ↔ t.mu = some k)
    (others : ∀ j, j ≠ k → (t.mu = some j ↔ s.mu = some j)) : t.Exclusive := by
  constructor
  · intro j c' found'
    rw [callers] at found'
    obtain ⟨rfl, rfl⟩ | ⟨different, found'⟩ := List.getElem?_set_cases found'
    · exact own
    · rw [others j different]
      exact exclusive.inside j c' found'
  · intro j holds
    rw [callers, List.length_set]
    by_cases same : j = k
    · subst same
      exact (List.getElem?_eq_some_iff.mp found).1
    · exact exclusive.known j ((others j same).mp holds)

theorem State.Exclusive.caller (exclusive : s.Exclusive) (found : s.callers[k]? = some c)
    (taken : CallerStep s k c t) : t.Exclusive := by
  have inside (place : c.point.inside = true) : s.mu = some k :=
    exclusive.mu_of_inside found place
  cases taken with
  | locks place free =>
    refine exclusive.moved found rfl (by simp [Point.inside, goTo]) fun j different => ?_
    simp [goTo, free, Ne.symm different]
  | unlocks place =>
    have mu := inside (by rw [place]; rfl)
    refine exclusive.moved found rfl (by simp [Point.inside, goTo]) fun j different => ?_
    simp [goTo, mu, Ne.symm different]
  | uncancelled => exact ⟨exclusive.inside, exclusive.known⟩
  | starts place | stops place | skips place | makes place | adds place | spawns place
  | spawned place | sets place | cancels place | waits place | clears place =>
    have mu := inside (by rw [place]; rfl)
    exact exclusive.moved found rfl (by simp [Point.inside, goTo, mu]) fun _ _ => .rfl

/-! ## What a caller does -/

theorem Loop.Current.mono {field : Option Nat} {done done' : Nat → Bool}
    (current : l.Current field done) (later : ∀ ctx, done ctx = true → done' ctx = true) :
    l.Current field done' :=
  ⟨current.made, current.read, fun ctx place => later ctx (current.left ctx place)⟩

theorem done_cancel {ctx' : Nat} (ctx : Nat) (ended : s.done ctx' = true) :
    State.done { s with cancelled := s.cancelled.set ctx true } ctx' = true := by
  simp only [State.done, Bool.or_eq_true] at ended ⊢
  refine ended.imp_right fun cancelled => ?_
  rw [List.getElem?_set]
  split
  case isTrue same =>
    subst same
    cases bound : s.cancelled[ctx]? with
    | none => simp [bound] at cancelled
    | some => simp [(List.getElem?_eq_some_iff.mp bound).1]
  case isFalse => exact cancelled

theorem Sound.of_place (sound : Sound s s.held) (exclusive : s.Exclusive)
    (found : s.callers[k]? = some c) {point : Point} (place : c.point = point)
    (inside : point.inside = true) : s.mu = some k ∧ Sound s (some point) := by
  subst place
  have mu := exclusive.mu_of_inside found inside
  have held : s.held = some c.point := by simp [State.held, mu, found]
  exact ⟨mu, held ▸ sound⟩

theorem Sound.of_holder {point : Point} (found : s.callers[k]? = some c)
    (callers : t.callers = s.callers.set k { c with point := point }) (mu : t.mu = some k)
    (sound : Sound t (some point)) : Sound t t.held := by
  obtain ⟨bound, -⟩ := List.getElem?_eq_some_iff.mp found
  have held : t.held = some point := by simp [State.held, mu, callers, bound]
  rwa [held]

/-- A step that only moves the holder, to a point with nothing to spawn. -/
theorem Sound.moved {held held' : Option Point} (sound : Sound s held) {mu : Option Nat}
    {callers : List Caller} (nothing : owed held = []) (nothing' : owed held' = [])
    (context : starting held' = starting held) (cleared : held' = some .clearing → s.loops = [])
    (unmade : making held' = none) (unstarted : adding held' = false)
    (startTested : inStart held' = true → s.running = false)
    (stopTested : inStop held' = true → s.running = true) :
    Sound { s with mu := mu, callers := callers } held' where
  alive := sound.alive
  counted := by
    rw [nothing']
    exact nothing ▸ sound.counted
  distinct := by
    rw [nothing']
    exact nothing ▸ sound.distinct
  each := sound.each
  bound := sound.bound
  context needed := sound.context (context ▸ needed)
  made ctx own := by
    rw [unmade] at own
    cases own
  idle stopped ended := sound.idle stopped (context ▸ ended)
  cleared := cleared
  unstarted place := by
    rw [unstarted] at place
    cases place
  startTested := startTested
  stopTested := stopTested

theorem Sound.caller (exclusive : s.Exclusive) (found : s.callers[k]? = some c)
    (sound : Sound s s.held) (taken : CallerStep s k c t) : Sound t t.held := by
  cases taken with
  | locks place free =>
    have before : s.held = none := by simp [State.held, free]
    rw [before] at sound
    exact .of_holder found rfl rfl (sound.moved rfl rfl rfl nofun rfl rfl nofun nofun)
  | unlocks place =>
    obtain ⟨-, sound⟩ := sound.of_place exclusive found place rfl
    show Sound _ none
    exact sound.moved rfl rfl rfl nofun rfl rfl nofun nofun
  | starts place _ stopped =>
    obtain ⟨mu, sound⟩ := sound.of_place exclusive found place rfl
    exact .of_holder found rfl mu
      (sound.moved rfl rfl rfl nofun rfl rfl (fun _ => stopped) nofun)
  | stops place _ running =>
    obtain ⟨mu, sound⟩ := sound.of_place exclusive found place rfl
    exact .of_holder found rfl mu
      (sound.moved rfl rfl rfl nofun rfl rfl nofun fun _ => running)
  | skips place =>
    obtain ⟨mu, sound⟩ := sound.of_place exclusive found place rfl
    exact .of_holder found rfl mu (sound.moved rfl rfl rfl nofun rfl rfl nofun nofun)
  | makes place =>
    obtain ⟨mu, sound⟩ := sound.of_place exclusive found place rfl
    have stopped := sound.startTested rfl
    have empty := sound.idle stopped rfl
    refine .of_holder found rfl mu ⟨sound.alive, sound.counted, sound.distinct, ?_, ?_, ?_, ?_,
      nofun, nofun, fun _ => empty, fun _ => stopped, nofun⟩
    · simp [State.goTo, empty]
    · simp [State.goTo]
    · simp [State.goTo]
    · simp [State.goTo, making]
  | adds place =>
    obtain ⟨mu, sound⟩ := sound.of_place exclusive found place rfl
    have empty := sound.unstarted rfl
    have counted : s.wg = 0 := by simpa [empty, owed] using sound.counted
    refine .of_holder found rfl mu ⟨sound.alive, ?_, ?_, sound.each, sound.bound,
      fun _ => sound.context (.inr rfl), sound.made, nofun, nofun, nofun,
      fun _ => sound.startTested rfl, nofun⟩
    · simp [State.goTo, empty, counted, owed]
    · simp [State.goTo, empty, owed]
  | @spawns made kind left place =>
    obtain ⟨mu, sound⟩ := sound.of_place exclusive found place rfl
    refine .of_holder found rfl mu ⟨sound.alive, ?_, ?_, ?_, sound.bound,
      fun _ => sound.context (.inr rfl), sound.made, nofun, nofun, nofun,
      fun _ => sound.startTested rfl, nofun⟩
    · have counted := sound.counted
      simp only [State.goTo, owed, List.length_append, List.length_cons, List.length_nil]
        at counted ⊢
      omega
    · simpa [State.goTo, owed] using sound.distinct
    · intro l member
      obtain member | rfl : l ∈ s.loops ∨ l = ⟨kind, made, .unstarted⟩ := by
        simpa [State.goTo] using member
      · exact sound.each l member
      · exact ⟨sound.made made rfl, nofun, nofun⟩
  | spawned place =>
    obtain ⟨mu, sound⟩ := sound.of_place exclusive found place rfl
    exact .of_holder found rfl mu
      (sound.moved rfl rfl rfl nofun rfl rfl (fun _ => sound.startTested rfl) nofun)
  | sets place =>
    obtain ⟨mu, sound⟩ := sound.of_place exclusive found place rfl
    exact .of_holder found rfl mu ⟨sound.alive, sound.counted, sound.distinct, sound.each,
      sound.bound, fun _ => sound.context (.inr rfl), nofun, nofun, nofun, nofun, nofun, nofun⟩
  | @cancels ctx place field =>
    obtain ⟨mu, sound⟩ := sound.of_place exclusive found place rfl
    have running := sound.stopTested rfl
    refine .of_holder found rfl mu ⟨sound.alive, sound.counted, sound.distinct, ?_,
      ?_, fun _ => sound.context (.inl running), nofun, ?_, nofun, nofun, nofun, fun _ => running⟩
    · intro l member
      exact (sound.each l member).mono fun _ ended => done_cancel ctx ended
    · simpa [State.goTo] using sound.bound
    · intro stopped
      have stopped : s.running = false := stopped
      rw [running] at stopped
      cases stopped
  | uncancelled place field =>
    obtain ⟨-, sound⟩ := sound.of_place exclusive found place rfl
    exact absurd field (sound.context (.inl (sound.stopTested rfl)))
  | waits place empty =>
    obtain ⟨mu, sound⟩ := sound.of_place exclusive found place rfl
    have counted := sound.counted
    have gone : s.loops = [] := by
      rw [empty] at counted
      exact List.eq_nil_of_length_eq_zero (by omega)
    exact .of_holder found rfl mu
      (sound.moved rfl rfl rfl (fun _ => gone) rfl rfl nofun fun _ => sound.stopTested rfl)
  | clears place =>
    obtain ⟨mu, sound⟩ := sound.of_place exclusive found place rfl
    have gone := sound.cleared rfl
    exact .of_holder found rfl mu ⟨sound.alive, sound.counted, sound.distinct, sound.each,
      sound.bound, nofun, nofun, fun _ _ => gone, nofun, nofun, nofun, nofun⟩

/-! ## What a loop does -/

/-- A loop moves on. -/
theorem Sound.set {held : Option Point} (sound : Sound s held) (found : s.loops[n]? = some l)
    {point : LoopPoint} (current : Loop.Current { l with point := point } s.ctx s.done) :
    Sound { s with loops := s.loops.set n { l with point := point } } held := by
  have nonempty : s.loops ≠ [] := List.ne_nil_of_mem (List.mem_of_getElem? found)
  have kinds : (s.loops.set n { l with point := point }).map (·.kind) = s.loops.map (·.kind) := by
    refine List.ext_getElem? fun m => ?_
    by_cases same : n = m
    · obtain ⟨bound, rfl⟩ := List.getElem?_eq_some_iff.mp found
      subst same
      simp [bound]
    · simp [List.getElem?_set_ne same]
  refine ⟨sound.alive, ?_, ?_, ?_, sound.bound, sound.context, sound.made, fun stopped ended => ?_,
    fun place => ?_, fun place => ?_, sound.startTested, sound.stopTested⟩
  · simpa using sound.counted
  · simpa only [kinds] using sound.distinct
  · intro l' member
    obtain member | rfl := List.mem_or_eq_of_mem_set member
    · exact sound.each l' member
    · exact current
  · exact absurd (sound.idle stopped ended) nonempty
  · exact absurd (sound.cleared place) nonempty
  · exact absurd (sound.unstarted place) nonempty

theorem Sound.loop {held : Option Point} (sound : Sound s held) (found : s.loops[n]? = some l)
    (taken : LoopStep s n l t) : Sound t held := by
  have current := sound.each l (List.mem_of_getElem? found)
  have same {ctx : Nat} (place : l.point.ctx = some ctx) : ctx = l.made := current.read ctx place
  cases taken with
  | reads place field =>
    refine sound.set found ⟨current.made, ?_, nofun⟩
    rintro _ ⟨⟩
    exact Option.some.inj (field.symm.trans current.made)
  | unread _ field => exact absurd field (by simp [current.made])
  | ticks place | passes place =>
    refine sound.set found ⟨current.made, ?_, nofun⟩
    rintro _ ⟨⟩
    exact same (by rw [place]; rfl)
  | ends place ended =>
    refine sound.set found ⟨current.made, ?_, ?_⟩
    · rintro _ ⟨⟩
      exact same (by rw [place]; rfl)
    · rintro _ ⟨⟩
      exact ended
  | leaves place counted =>
    obtain ⟨bound, -⟩ := List.getElem?_eq_some_iff.mp found
    have nonempty : s.loops ≠ [] := List.ne_nil_of_mem (List.mem_of_getElem? found)
    refine ⟨sound.alive, ?_, ?_, fun l' member => sound.each l' (List.mem_of_mem_eraseIdx member),
      sound.bound, sound.context, sound.made, fun stopped ended => ?_, fun place => ?_,
      fun place => ?_, sound.startTested, sound.stopTested⟩
    · have counted := sound.counted
      simp only [List.length_eraseIdx_of_lt bound]
      omega
    · refine sound.distinct.sublist (List.Sublist.append ?_ (List.Sublist.refl _))
      exact (List.eraseIdx_sublist _ _).map _
    · exact absurd (sound.idle stopped ended) nonempty
    · exact absurd (sound.cleared place) nonempty
    · exact absurd (sound.unstarted place) nonempty
  | overdone place empty =>
    have counted := sound.counted
    have positive := List.length_pos_of_mem (List.mem_of_getElem? found)
    omega

/-! ## Every run -/

theorem frame_of_loop (taken : LoopStep s n l t) : t.mu = s.mu ∧ t.callers = s.callers := by
  cases taken <;> exact ⟨rfl, rfl⟩

theorem held_calls (exclusive : s.Exclusive) {method : Method} :
    State.held { s with callers := s.callers ++ [⟨method, .locking⟩] } = s.held := by
  cases holder : s.mu with
  | none => simp [State.held, holder]
  | some k => simp [State.held, holder, List.getElem?_append_left (exclusive.known k holder)]

theorem Sound.step {a : State.Action} (exclusive : s.Exclusive) (sound : Sound s s.held)
    (taken : Step s a t) : t.Exclusive ∧ Sound t t.held := by
  cases taken with
  | calls =>
    refine ⟨⟨fun k c found => ?_, fun k holder => ?_⟩, ?_⟩
    · obtain ⟨rfl, rfl⟩ | found := List.getElem?_concat_cases found
      · simp only [Point.inside, Bool.false_eq_true, false_iff]
        exact fun holder => absurd (exclusive.known _ holder) (Nat.lt_irrefl _)
      · exact exclusive.inside k c found
    · simpa using Nat.lt_succ_of_lt (exclusive.known k holder)
    · rw [held_calls exclusive]
      exact { sound with }
  | caller found taken => exact ⟨exclusive.caller found taken, sound.caller exclusive found taken⟩
  | loop found taken =>
    obtain ⟨mu, callers⟩ := frame_of_loop taken
    have held : t.held = s.held := by simp only [State.held, mu, callers]
    refine ⟨⟨?_, ?_⟩, ?_⟩
    · simpa only [mu, callers] using exclusive.inside
    · simpa only [mu, callers] using exclusive.known
    · rw [held]
      exact sound.loop found taken
  | cancel =>
    refine ⟨⟨exclusive.inside, exclusive.known⟩, ⟨sound.alive, sound.counted, sound.distinct,
      fun l member => ?_, sound.bound, sound.context, sound.made, sound.idle, sound.cleared,
      sound.unstarted, sound.startTested, sound.stopTested⟩⟩
    exact (sound.each l member).mono fun _ _ => by simp [State.done]

theorem sound_of_reachable (reachable : system.Reachable anyStep s) :
    s.Exclusive ∧ Sound s s.held := by
  refine reachable.invariant (P := fun s => s.Exclusive ∧ Sound s s.held) ?_ ?_
  · rintro _ rfl
    exact ⟨⟨by simp [initial], by simp [initial]⟩,
      ⟨rfl, rfl, by simp [initial, State.held, owed], by simp [initial],
        by simp [initial], by simp [initial, State.held, starting], nofun, fun _ _ => rfl, nofun,
        nofun, nofun, nofun⟩⟩
  · rintro s a t _ _ taken ⟨exclusive, sound⟩
    exact sound.step exclusive (step_cases taken)

/-! ## How a call ends -/

/-- The points that only one of the methods has, and what both find when they unlock. -/
structure Caller.Fits (c : Caller) (running : Bool) : Prop where
  start : inStart (some c.point) = true → c.method = .start
  stop : inStop (some c.point) = true → c.method = .stop
  unlocking : c.point = .unlocking → running = decide (c.method = .start)

/-- A caller that is not inside does not depend on the field. -/
theorem Caller.Fits.outside {running running' : Bool} (fits : c.Fits running)
    (outside : c.point.inside = false) : c.Fits running' where
  start := fits.start
  stop := fits.stop
  unlocking place := by
    rw [place] at outside
    cases outside

def State.AllFit (s : State) : Prop :=
  ∀ (k : Nat) (c : Caller), s.callers[k]? = some c → c.Fits s.running

theorem State.AllFit.caller (fits : s.AllFit) (exclusive : s.Exclusive)
    (found : s.callers[k]? = some c) (taken : CallerStep s k c t) : t.AllFit := by
  -- whoever else is there does not hold the lock, and only its holder changes the field
  have others {j : Nat} {c' : Caller} (mu : s.mu = some k) (different : j ≠ k)
      (found' : s.callers[j]? = some c') {running : Bool} : c'.Fits running := by
    refine (fits j c' found').outside ?_
    rw [Bool.eq_false_iff]
    intro inside
    have mu' := exclusive.mu_of_inside found' inside
    exact different (Option.some.inj (mu'.symm.trans mu))
  have moved {point : Point} {running : Bool} (mu : s.mu = some k)
      (own : Caller.Fits { c with point := point } running) :
      ∀ (j : Nat) (c' : Caller), (s.callers.set k { c with point := point })[j]? = some c' →
        c'.Fits running := by
    intro j c' found'
    obtain ⟨rfl, rfl⟩ | ⟨different, found'⟩ := List.getElem?_set_cases found'
    · exact own
    · exact others mu different found'
  have inside {point : Point} (place : c.point = point) (inside : point.inside = true) :
      s.mu = some k := exclusive.mu_of_inside found (place ▸ inside)
  have own := fits k c found
  cases taken with
  | locks place =>
    intro j c' found'
    obtain ⟨rfl, rfl⟩ | ⟨_, found'⟩ := List.getElem?_set_cases found'
    · exact ⟨nofun, nofun, nofun⟩
    · exact fits j c' found'
  | starts place method => exact moved (inside place rfl) ⟨fun _ => method, nofun, nofun⟩
  | stops place method => exact moved (inside place rfl) ⟨nofun, fun _ => method, nofun⟩
  | skips place tested => exact moved (inside place rfl) ⟨nofun, nofun, fun _ => tested⟩
  | makes place | adds place | spawns place | spawned place =>
    exact moved (inside place rfl) ⟨fun _ => own.start (by rw [place]; rfl), nofun, nofun⟩
  | sets place =>
    have method := own.start (by rw [place]; rfl)
    exact moved (inside place rfl) ⟨nofun, nofun, fun _ => by simp [State.goTo, method]⟩
  | cancels place | waits place =>
    exact moved (inside place rfl) ⟨nofun, fun _ => own.stop (by rw [place]; rfl), nofun⟩
  | clears place =>
    have method := own.stop (by rw [place]; rfl)
    exact moved (inside place rfl) ⟨nofun, nofun, fun _ => by simp [State.goTo, method]⟩
  | unlocks place => exact moved (inside place rfl) ⟨nofun, nofun, nofun⟩
  | uncancelled => exact fits

theorem allFit_of_reachable (reachable : system.Reachable anyStep s) : s.AllFit := by
  refine reachable.invariant (P := State.AllFit) ?_ ?_
  · rintro _ rfl k c found
    simp [initial] at found
  · intro s a t reachable _ taken fits
    cases step_cases taken with
    | calls =>
      intro k c found
      obtain ⟨rfl, rfl⟩ | found := List.getElem?_concat_cases found
      · exact ⟨nofun, nofun, nofun⟩
      · exact fits k c found
    | caller found taken => exact fits.caller (sound_of_reachable reachable).1 found taken
    | loop found taken => cases taken <;> exact fits
    | cancel => exact fits

/-! ## The scheduler of the election model

There `Start` is one step, and `Stop` cancels, waits until no loop is left, and clears `running`. -/

/-- The steps that the election model knows. -/
inductive Coarse (parentDone : Bool) (a : Leader.Scheduler) : Leader.Scheduler → Prop where
  | start : a.running = false → Coarse parentDone a a.start
  | exit {b} : a.exit parentDone = some b → Coarse parentDone a b
  | cancel : a.running = true → Coarse parentDone a { a with cancelled := true }
  | stop : a.running = true → a.loops = 0 → Coarse parentDone a { a with running := false }

/-- `Start` takes effect when it makes the context. -/
def State.coarse (s : State) (held : Option Point) : Leader.Scheduler where
  running := s.running || starting held
  cancelled := s.ctx.any fun ctx => s.cancelled[ctx]?.getD false
  loops := s.wg + if adding held then 3 else 0

/-- What the election model sees of a step. -/
def Simulated (parentDone : Bool) (a b : Leader.Scheduler) : Prop := b = a ∨ Coarse parentDone a b

/-- The holder of the lock moves on. -/
theorem Simulated.of_holder {point point' : Point} (exclusive : s.Exclusive)
    (found : s.callers[k]? = some c) (place : c.point = point) (inside : point.inside = true)
    (callers : t.callers = s.callers.set k { c with point := point' }) (mu : t.mu = s.mu)
    (simulated : Simulated s.parentDone (s.coarse (some point)) (t.coarse (some point'))) :
    Simulated s.parentDone (s.coarse s.held) (t.coarse t.held) := by
  obtain ⟨bound, -⟩ := List.getElem?_eq_some_iff.mp found
  have holds := exclusive.mu_of_inside found (place ▸ inside)
  have before : s.held = some point := by simp [State.held, holds, found, place]
  have after : t.held = some point' := by simp [State.held, mu, holds, callers, bound]
  rwa [before, after]

theorem simulated_caller (exclusive : s.Exclusive) (sound : Sound s s.held)
    (found : s.callers[k]? = some c) (taken : CallerStep s k c t) :
    Simulated s.parentDone (s.coarse s.held) (t.coarse t.held) := by
  cases taken with
  | locks place free =>
    obtain ⟨bound, -⟩ := List.getElem?_eq_some_iff.mp found
    have before : s.held = none := by simp [State.held, free]
    have after : State.held (goTo { s with mu := some k } k c .testing) = some .testing := by
      simp [State.held, goTo, bound]
    rw [before, after]
    exact .inl rfl
  | unlocks place =>
    have mu := exclusive.mu_of_inside found (by rw [place]; rfl)
    have before : s.held = some .unlocking := by simp [State.held, mu, found, place]
    rw [before]
    exact .inl rfl
  | starts place | stops place | skips place | spawns place | spawned place | waits place =>
    exact .of_holder exclusive found place rfl rfl rfl (.inl rfl)
  | makes place =>
    obtain ⟨-, sound⟩ := sound.of_place exclusive found place rfl
    have stopped := sound.startTested rfl
    have begun : State.coarse (goTo { s with
        ctx := some s.cancelled.length, cancelled := s.cancelled ++ [false] } k c
          (.adding s.cancelled.length)) (some (.adding s.cancelled.length)) =
        (s.coarse (some .making)).start := by
      simp [State.coarse, State.goTo, Leader.Scheduler.start, stopped, starting, adding]
    refine .of_holder exclusive found place rfl rfl rfl (.inr ?_)
    rw [begun]
    exact .start (by simp [State.coarse, stopped, starting])
  | adds place =>
    refine .of_holder exclusive found place rfl rfl rfl (.inl ?_)
    simp [State.coarse, State.goTo, starting, adding]
  | sets place =>
    refine .of_holder exclusive found place rfl rfl rfl (.inl ?_)
    simp [State.coarse, State.goTo, starting, adding]
  | @cancels ctx place field =>
    obtain ⟨-, sound⟩ := sound.of_place exclusive found place rfl
    have running := sound.stopTested rfl
    have bound := sound.bound _ field
    have ended : State.coarse (goTo { s with cancelled := s.cancelled.set ctx true } k c .waiting)
        (some .waiting) = { s.coarse (some .cancelling) with cancelled := true } := by
      simp [State.coarse, State.goTo, field, bound, starting, adding]
    refine .of_holder exclusive found place rfl rfl rfl (.inr ?_)
    rw [ended]
    exact .cancel (by simp [State.coarse, running])
  | uncancelled place field =>
    obtain ⟨-, sound⟩ := sound.of_place exclusive found place rfl
    exact absurd field (sound.context (.inl (sound.stopTested rfl)))
  | clears place =>
    obtain ⟨-, sound⟩ := sound.of_place exclusive found place rfl
    have running := sound.stopTested rfl
    have gone := sound.cleared rfl
    have counted : s.wg = 0 := by simpa [gone, owed] using sound.counted
    have ended : State.coarse (goTo { s with running := false } k c .unlocking) (some .unlocking) =
        { s.coarse (some .clearing) with running := false } := by
      simp [State.coarse, State.goTo, starting, adding]
    refine .of_holder exclusive found place rfl rfl rfl (.inr ?_)
    rw [ended]
    exact .stop (by simp [State.coarse, running]) (by simp [State.coarse, counted, adding])

theorem simulated_loop (sound : Sound s s.held) (found : s.loops[n]? = some l)
    (taken : LoopStep s n l t) :
    Simulated s.parentDone (s.coarse s.held) (t.coarse t.held) := by
  have current := sound.each l (List.mem_of_getElem? found)
  cases taken with
  | reads | ticks | passes | ends => exact .inl rfl
  | unread _ field => exact absurd field (by simp [current.made])
  | overdone _ empty =>
    have counted := sound.counted
    have positive := List.length_pos_of_mem (List.mem_of_getElem? found)
    omega
  | @leaves ctx place counted =>
    -- the loop has seen the end of the context that is in the field
    have same := current.read ctx (by rw [place]; rfl)
    have ended := current.left ctx place
    have busy : adding s.held = false := by
      rw [Bool.eq_false_iff]
      exact fun place => List.ne_nil_of_mem (List.mem_of_getElem? found) (sound.unstarted place)
    refine .inr (.exit ?_)
    have positive : 0 < s.wg := Nat.pos_of_ne_zero counted
    have done : (s.cancelled[ctx]?.getD false) = true ∨ s.parentDone = true := by
      simpa [State.done, or_comm] using ended
    have sees : State.held { s with wg := s.wg - 1, loops := s.loops.eraseIdx n } = s.held := rfl
    rw [sees]
    simp [Leader.Scheduler.exit, State.coarse, busy, positive, current.made, ← same, done]

/-! ## The results -/

/-- However `Start` and `Stop` are called, nothing panics, one caller is inside at a time, and of
each kind there is at most one loop, which works with the context of the call that spawned it. -/
theorem loops_exclusive {s : State} (reachable : system.Reachable anyStep s) :
    s.panicked = false ∧
      (∀ (j k : Nat) (c c' : Caller), s.callers[j]? = some c → s.callers[k]? = some c' →
        c.point.inside = true → c'.point.inside = true → j = k) ∧
      (s.loops.map (·.kind)).Nodup ∧
      ∀ l ∈ s.loops, s.ctx = some l.made ∧ ∀ ctx, l.point.ctx = some ctx → ctx = l.made := by
  obtain ⟨exclusive, sound⟩ := sound_of_reachable reachable
  refine ⟨sound.alive, ?_, (List.nodup_append.mp sound.distinct).1, fun l member => ?_⟩
  · intro j k c c' found found' inside inside'
    have mu := exclusive.mu_of_inside found inside
    have mu' := exclusive.mu_of_inside found' inside'
    exact Option.some.inj (mu.symm.trans mu')
  · have current := sound.each l member
    exact ⟨current.made, current.read⟩

/-- The first call of `Start` has spawned its loops while another waits for the lock. -/
def startedRun : List State.Action :=
  [.call .start, .call .start] ++ List.replicate 9 (.caller 0) ++ [.loop 1 false]

theorem loops_exclusive_started : ∃ s, system.Reachable anyStep s ∧
    s.loops.map (·.kind) = [.scheduled, .recovery, .staleCheck] ∧
    (s.loops.map (·.kind)).Nodup := by
  have ⟨s, reachable, kinds⟩ : ∃ s, system.Reachable anyStep s ∧
      s.loops.map (·.kind) = [.scheduled, .recovery, .staleCheck] :=
    Transition.System.exists_reachable_of_exec startedRun rfl (by decide)
  exact ⟨s, reachable, kinds, (loops_exclusive reachable).2.2.1⟩

/-- When a call gives back the lock, the scheduler runs if the call was one of `Start`; after one
of `Stop` it does not run, and none of its loops is left. -/
theorem loops_after_call {s : State} {k : Nat} {c : Caller}
    (reachable : system.Reachable anyStep s) (found : s.callers[k]? = some c)
    (unlocking : c.point = .unlocking) :
    (c.method = .start → s.running = true) ∧
      (c.method = .stop → s.running = false ∧ s.loops = [] ∧ s.wg = 0) := by
  obtain ⟨exclusive, sound⟩ := sound_of_reachable reachable
  have running := (allFit_of_reachable reachable k c found).unlocking unlocking
  obtain ⟨-, sound⟩ := sound.of_place exclusive found unlocking rfl
  refine ⟨fun method => by simp [running, method], fun method => ?_⟩
  have stopped : s.running = false := by simp [running, method]
  have gone := sound.idle stopped rfl
  exact ⟨stopped, gone, by simpa [gone, owed] using sound.counted⟩

/-- `Stop` is called after that, and waits for the loops. -/
def stoppedRun : List State.Action :=
  startedRun ++ [.caller 0, .call .stop] ++ List.replicate 3 (.caller 2) ++
    [.loop 1 false, .loop 1 false, .loop 0 false, .loop 0 false, .loop 0 false, .loop 0 false,
      .loop 0 false, .loop 0 false] ++ List.replicate 2 (.caller 2)

theorem loops_after_call_stopped : ∃ s, system.Reachable anyStep s ∧
    s.callers[2]? = some ⟨.stop, .unlocking⟩ ∧ s.running = false ∧ s.loops = [] := by
  have ⟨s, reachable, found⟩ : ∃ s, system.Reachable anyStep s ∧
      s.callers[2]? = some ⟨.stop, .unlocking⟩ :=
    Transition.System.exists_reachable_of_exec stoppedRun rfl (by decide)
  obtain ⟨_, stopped⟩ := loops_after_call reachable found rfl
  exact ⟨s, reachable, found, (stopped rfl).1, (stopped rfl).2.1⟩

/-- A step of the callers and the loops is one step of the scheduler as the election model has it,
or none. -/
theorem loops_refine_coarse {s t : State} {a : State.Action}
    (reachable : system.Reachable anyStep s) (taken : s.step a = some t) :
    t.coarse t.held = s.coarse s.held ∨
      Coarse s.parentDone (s.coarse s.held) (t.coarse t.held) := by
  obtain ⟨exclusive, sound⟩ := sound_of_reachable reachable
  cases step_cases taken with
  | calls =>
    left
    rw [held_calls exclusive]
    rfl
  | caller found taken => exact simulated_caller exclusive sound found taken
  | loop found taken => exact simulated_loop sound found taken
  | cancel => exact .inl rfl

theorem loops_refine_coarse_made : ∃ s t, system.Reachable anyStep s ∧
    s.step (.caller 0) = some t ∧ Coarse s.parentDone (s.coarse s.held) (t.coarse t.held) := by
  have ⟨s, reachable, differs⟩ : ∃ s, system.Reachable anyStep s ∧
      (s.step (.caller 0)).any (fun t => t.coarse t.held ≠ s.coarse s.held) = true :=
    Transition.System.exists_reachable_of_exec [.call .start, .caller 0, .caller 0] rfl (by decide)
  simp only [Option.any_eq_true, decide_eq_true_eq] at differs
  obtain ⟨t, taken, differs⟩ := differs
  exact ⟨s, t, reachable, taken, (loops_refine_coarse reachable taken).resolve_left differs⟩

end GoQueue.Scheduler.Loops
