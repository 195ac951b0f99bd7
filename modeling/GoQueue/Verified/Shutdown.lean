import GoQueue.Worker.Pool
import GoQueue.Cmd.Main

/-! # Results at the shutdown of a worker pool

The last calls a worker makes for a job, those that write what its handler returned, are made
with the context that a shutdown cancels.  A job whose handler is running at that moment, or has
returned and is not written yet, stays `running`; one whose retry is written and not scheduled
yet stays out of the schedule.

If the context is cancelled while no worker is between its first and its last write for a job,
nothing is cut short: the row of a job that was run is `running` only while a worker is at it,
and otherwise records what a call of its handler returned.
-/

namespace GoQueue.Verified

open Worker (Loop Pool ProcessJob)

variable {cfg : Config} {w w' : World} {s : Pool} {id : Uuid} {row : JobRow} {i : Nat}
  {worker worker' : Loop}

/-- The job that the worker has marked `running` and whose outcome it has not written yet. -/
def executesJob : Loop → Option Uuid
  | .processing (.executing job) | .processing (.succeeded job) | .processing (.failing job _) =>
    some job.id
  | _ => none

/-- The job that the worker has marked `retrying` and has not scheduled yet. -/
def reschedulesJob : Loop → Option Uuid
  | .processing (.rescheduling job _) => some job.id
  | _ => none

/-- The job that the worker is at, from its first write for it to its last call. -/
def unfinishedJob (worker : Loop) : Option Uuid :=
  (executesJob worker).or (reschedulesJob worker)

/-- Postgres and Redis are up: a call fails only because the context is cancelled. -/
def storesUp (s : Pool) : Pool.Action → Prop
  | .run _ reply => s.cancelled = true ∨ reply.succeeds = true
  | .tick _ | .arrive _ | .cancel | .stop | .wait => True

/-- The context is cancelled while no worker is at a job that it has marked `running`. -/
def cancelsQuietly (s : Pool) : Pool.Action → Prop
  | .cancel | .stop => s.cancelled = true ∨ ∀ worker ∈ s.workers, unfinishedJob worker = none
  | .tick _ | .arrive _ | .wait | .run _ _ => True

def quietShutdown (s : Pool) (a : Pool.Action) : Prop := storesUp s a ∧ cancelsQuietly s a

instance (s : Pool) : (a : Pool.Action) → Decidable (storesUp s a)
  | .run _ _ => inferInstanceAs (Decidable (_ ∨ _))
  | .tick _ | .arrive _ | .cancel | .stop | .wait => inferInstanceAs (Decidable True)

instance (s : Pool) : (a : Pool.Action) → Decidable (cancelsQuietly s a)
  | .cancel | .stop => inferInstanceAs (Decidable (_ ∨ ∀ _ ∈ _, _ = _))
  | .tick _ | .arrive _ | .wait | .run _ _ => inferInstanceAs (Decidable True)

instance (s : Pool) (a : Pool.Action) : Decidable (quietShutdown s a) :=
  inferInstanceAs (Decidable (_ ∧ _))

/-- The row holds the outcome of a handler call that returned this error, `none` for nil. -/
def HoldsOutcome (cfg : Config) (w : World) (id : Uuid) (row : JobRow) : Option String → Prop
  | none => row.status = .completed
  | some jobErr => row.error = jobErr ∧
      (row.status = .dead ∨
        row.status = .retrying ∧ cfg.uuid.string id ∈ Queue.scheduled w.redis)

/-- Every job whose handler has returned has the outcome of a call of its handler in its row. -/
def KeepsResults (cfg : Config) (w : World) : Prop :=
  ∀ id err, (id, err) ∈ w.calls →
    ∃ row err', w.row id = some row ∧ (id, err') ∈ w.calls ∧ HoldsOutcome cfg w id row err'

/-! ## The stores only grow -/

structure Extends (w w' : World) : Prop where
  rows : ∀ {id row}, w.row id = some row → ∃ row', w'.row id = some row' ∧ row'.type = row.type
  calls : ∀ {call}, call ∈ w.calls → call ∈ w'.calls
  scheduled : ∀ {member}, member ∈ Queue.scheduled w.redis → member ∈ Queue.scheduled w'.redis

/-- The effect takes no row and no scheduled identifier away. -/
def extending (w : World) : Effect → Bool
  | .insert id _ => (w.row id).isNone
  | .delete _ | .takeDue => false
  | .none | .setStatus _ _ | .setError _ _ _ _ | .push _ _ | .schedule _ _ | .record _ _ => true

theorem extends_apply {e : Effect} (spared : extending w e = true) : Extends w (w.apply e) where
  rows {id row} present := by
    rw [World.row_apply, present]
    cases e with
    | insert id' new =>
      have different : id ≠ id' := by
        rintro rfl
        simp [extending, present] at spared
      exact ⟨row, if_neg different, rfl⟩
    | setStatus id' _ | setError id' _ _ _ =>
      by_cases same : id = id'
      · exact ⟨_, if_pos same, rfl⟩
      · exact ⟨row, if_neg same, rfl⟩
    | delete _ | takeDue => cases spared
    | none | push _ _ | schedule _ _ | record _ _ => exact ⟨row, rfl, rfl⟩
  calls := World.mem_calls_apply
  scheduled {member} held := by
    rw [World.redis_apply]
    cases e with
    | schedule jobID runAt => simp [held]
    | takeDue => cases spared
    | none | insert _ _ | setStatus _ _ | setError _ _ _ _ | delete _ | push _ _ | record _ _ =>
      exact held

theorem extending_of_arrives {e : Effect} (arrives : Worker.arrives w e = true) : extending w e = true := by
  cases e <;> simp_all [Worker.arrives, extending]

theorem extending_of_step {pc pc' : ProcessJob} {reply : Reply} {e : Effect}
    (step : ProcessJob.Step cfg w pc reply e pc') : extending w e = true := by
  cases step <;> rfl

theorem extends_of_step {cancelled : Bool} {reply : Reply}
    (step : Loop.Step cfg w cancelled worker reply w' worker') : Extends w w' := by
  cases step with
  | process _ inner => exact extends_apply (extending_of_step inner)
  | popped _ popped | skipped popped =>
    exact ⟨fun present => ⟨_, present, rfl⟩, id, fun held => popped.scheduled ▸ held⟩
  | _ => exact ⟨fun present => ⟨_, present, rfl⟩, id, id⟩

/-! ## What the workers know and what the rows record -/

/-- The job has a row, and a handler for its type. -/
def Serves (cfg : Config) (w : World) (id : Uuid) : Prop :=
  ∃ row, w.row id = some row ∧ cfg.registered row.type = true

/-- What a worker knows about the job in its hands. -/
def Backed (cfg : Config) (w : World) : Loop → Prop
  | .processing (.noHandler job) => ∃ row, w.row job.id = some row ∧ cfg.registered row.type = false
  | .processing (.fetched job) | .processing (.executing job) | .processing (.rescheduling job _) =>
    Serves cfg w job.id
  | .processing (.succeeded job) => Serves cfg w job.id ∧ (job.id, none) ∈ w.calls
  | .processing (.failing job jobErr) => Serves cfg w job.id ∧ (job.id, some jobErr) ∈ w.calls
  | _ => True

/-- The row of a job that was run says who is at it, or what its handler returned. -/
def Recorded (cfg : Config) (s : Pool) (id : Uuid) (row : JobRow) : Prop :=
  match row.status with
  | .running => ∃ worker ∈ s.workers, executesJob worker = some id
  | .completed => (id, none) ∈ s.world.calls
  | .dead => (id, some row.error) ∈ s.world.calls
  | .retrying => (id, some row.error) ∈ s.world.calls ∧
      (cfg.uuid.string id ∈ Queue.scheduled s.world.redis ∨
        ∃ worker ∈ s.workers, reschedulesJob worker = some id)
  | .pending | .scheduled | .failed | .cancelled => False

def Accounted (cfg : Config) (s : Pool) (id : Uuid) : Prop :=
  ∃ row, s.world.row id = some row ∧ cfg.registered row.type = true ∧ Recorded cfg s id row

/-- A worker has run the job, or is at it. -/
def Taken (s : Pool) (id : Uuid) : Prop :=
  (∃ err, (id, err) ∈ s.world.calls) ∨ ∃ worker ∈ s.workers, unfinishedJob worker = some id

structure Accounts (cfg : Config) (s : Pool) : Prop where
  backed : ∀ worker ∈ s.workers, Backed cfg s.world worker
  accounted : ∀ id, Taken s id → Accounted cfg s id
  quiet : s.cancelled = true → ∀ worker ∈ s.workers, unfinishedJob worker = none
  stopped : s.stop ≠ .uncalled → s.cancelled = true

theorem unfinishedJob_eq_none : unfinishedJob worker = none ↔
    executesJob worker = none ∧ reschedulesJob worker = none := by
  simp [unfinishedJob]

theorem Serves.grow (serves : Serves cfg w id) (grows : Extends w w') : Serves cfg w' id := by
  obtain ⟨row, present, registered⟩ := serves
  obtain ⟨row', present', same⟩ := grows.rows present
  exact ⟨row', present', same ▸ registered⟩

theorem Backed.grow (backed : Backed cfg w worker) (grows : Extends w w') : Backed cfg w' worker := by
  cases worker with
  | processing pc =>
    cases pc with
    | noHandler job =>
      obtain ⟨row, present, unregistered⟩ := backed
      obtain ⟨row', present', same⟩ := grows.rows present
      exact ⟨row', present', same ▸ unregistered⟩
    | fetched job | executing job | rescheduling job _ => exact Serves.grow backed grows
    | succeeded job | failing job _ => exact ⟨backed.1.grow grows, grows.calls backed.2⟩
    | popped _ | returned => trivial
  | checking | popping | sleeping | exited => trivial

/-- What a worker knows after its step, it has read or done in this step or knew before. -/
theorem Backed.step {cancelled : Bool} {reply : Reply} (backed : Backed cfg w worker)
    (step : Loop.Step cfg w cancelled worker reply w' worker') : Backed cfg w' worker' := by
  have grows := extends_of_step step
  cases step with
  | process _ inner =>
    cases inner with
    | noHandler _ present unregistered => exact ⟨_, present, unregistered⟩
    | fetched _ present registered => exact ⟨_, present, registered⟩
    | running => exact Serves.grow backed grows
    | succeeded | failed => exact ⟨Serves.grow backed grows, List.mem_cons_self⟩
    | retrying _ _ | retryingLost _ => exact Serves.grow backed.1 grows
    | _ => trivial
  | _ => trivial

/-! ## One step -/

theorem Recorded.mono {t : Pool} (recorded : Recorded cfg s id row)
    (grows : Extends s.world t.world)
    (executing : (∃ worker ∈ s.workers, executesJob worker = some id) →
      ∃ worker ∈ t.workers, executesJob worker = some id)
    (rescheduling : (∃ worker ∈ s.workers, reschedulesJob worker = some id) →
      cfg.uuid.string id ∈ Queue.scheduled t.world.redis ∨
        ∃ worker ∈ t.workers, reschedulesJob worker = some id) :
    Recorded cfg t id row := by
  cases status : row.status <;> simp only [Recorded, status] at recorded ⊢
  case running => exact executing recorded
  case completed | dead => exact grows.calls recorded
  case retrying =>
    refine ⟨grows.calls recorded.1, ?_⟩
    cases recorded.2 with
    | inl scheduled => exact .inl (grows.scheduled scheduled)
    | inr waiting => exact rescheduling waiting

/-- The pool after the worker at place `i` has moved. -/
def afterMove (s : Pool) (i : Nat) (w' : World) (worker' : Loop) : Pool :=
  { s with world := w', workers := s.workers.set i worker' }

theorem Taken.before (calls : ∀ err, (id, err) ∈ w'.calls → (id, err) ∈ s.world.calls)
    (after : unfinishedJob worker' ≠ some id) (taken : Taken (afterMove s i w' worker') id) :
    Taken s id := by
  cases taken with
  | inl called => exact .inl (called.imp calls)
  | inr busy =>
    obtain ⟨other, member, at_it⟩ := busy
    cases List.mem_or_eq_of_mem_set member with
    | inl stays => exact .inr ⟨other, stays, at_it⟩
    | inr same => exact absurd (same ▸ at_it) after

section Move

variable (found : s.workers[i]? = some worker)

include found

theorem exists_after {f : Loop → Option Uuid} (elsewhere : f worker = some id → f worker' = some id)
    (exists_before : ∃ other ∈ s.workers, f other = some id) :
    ∃ other ∈ (afterMove s i w' worker').workers, f other = some id := by
  obtain ⟨other, member, at_it⟩ := exists_before
  obtain rfl | stays := List.mem_set_or found member worker'
  · obtain ⟨inside, _⟩ := List.getElem?_eq_some_iff.mp found
    exact ⟨worker', List.mem_set inside worker', elsewhere at_it⟩
  · exact ⟨other, stays, at_it⟩

theorem exists_mover {f : Loop → Option Uuid} (at_it : f worker' = some id) :
    ∃ other ∈ (afterMove s i w' worker').workers, f other = some id := by
  obtain ⟨inside, _⟩ := List.getElem?_eq_some_iff.mp found
  exact ⟨worker', List.mem_set inside worker', at_it⟩

/-- A job that the move does not concern is accounted for as before. -/
theorem Accounts.bystander (accounts : Accounts cfg s) (grows : Extends s.world w')
    (rows : w'.row id = s.world.row id)
    (calls : ∀ err, (id, err) ∈ w'.calls → (id, err) ∈ s.world.calls)
    (before : unfinishedJob worker ≠ some id) (after : unfinishedJob worker' ≠ some id)
    (taken : Taken (afterMove s i w' worker') id) : Accounted cfg (afterMove s i w' worker') id := by
  have neither : executesJob worker ≠ some id ∧ reschedulesJob worker ≠ some id := by
    unfold unfinishedJob at before
    cases executed : executesJob worker with
    | none => exact ⟨nofun, by simpa [executed] using before⟩
    | some other =>
      refine ⟨by simpa [executed] using before, ?_⟩
      cases worker with
      | processing pc => cases pc <;> simp_all [executesJob, reschedulesJob]
      | _ => cases executed
  obtain ⟨row, present, registered, recorded⟩ := accounts.accounted id (taken.before calls after)
  refine ⟨row, rows.trans present, registered, recorded.mono grows ?_ ?_⟩
  · exact exists_after found fun at_it => absurd at_it neither.1
  · exact fun waiting => .inr (exists_after found (fun at_it => absurd at_it neither.2) waiting)

/-- A step that concerns one job only has to account for this one. -/
theorem Accounts.about {e : Effect} (accounts : Accounts cfg s) (spared : extending s.world e = true)
    (job : Uuid) (target : e.target = none ∨ e.target = some job)
    (recorded : ∀ other err, e = .record other err → other = job)
    (before : unfinishedJob worker = none ∨ unfinishedJob worker = some job)
    (after : unfinishedJob worker' = none ∨ unfinishedJob worker' = some job)
    (own : Taken (afterMove s i (s.world.apply e) worker') job →
      Accounted cfg (afterMove s i (s.world.apply e) worker') job) :
    ∀ id, Taken (afterMove s i (s.world.apply e) worker') id →
      Accounted cfg (afterMove s i (s.world.apply e) worker') id := by
  intro id taken
  by_cases same : id = job
  · subst same
    exact own taken
  · have calls (err : Option String) (called : (id, err) ∈ (s.world.apply e).calls) :
        (id, err) ∈ s.world.calls := by
      rw [World.calls_apply] at called
      cases e with
      | record other err' =>
        have different : other ≠ id := fun equal => same (equal ▸ recorded other err' rfl)
        simpa [Ne.symm different] using called
      | _ => exact called
    have other {place : Option Uuid} (is : place = none ∨ place = some job) : place ≠ some id := by
      obtain rfl | rfl := is
      · nofun
      · exact fun equal => same (Option.some.inj equal).symm
    exact accounts.bystander found (extends_apply spared)
      (World.row_apply_of_target_ne (other target)) calls (other before) (other after) taken

end Move

/-- A write to the row of a job with a handler accounts for it, if it records what there is. -/
theorem accounted_of_write {e : Effect} {set : JobRow → JobRow} {job : Uuid}
    (serves : Serves cfg s.world job)
    (writes : ∀ row, e.onRow s.world.now job (some row) = some (set row))
    (type : ∀ row, (set row).type = row.type)
    (recorded : ∀ row, Recorded cfg (afterMove s i (s.world.apply e) worker') job (set row)) :
    Accounted cfg (afterMove s i (s.world.apply e) worker') job := by
  obtain ⟨row, present, registered⟩ := serves
  refine ⟨set row, ?_, (type row).symm ▸ registered, recorded row⟩
  exact (World.row_apply _ _ _).trans (present ▸ writes row)

/-- What a worker does for a job, as long as its calls succeed or it is at no job. -/
theorem Accounts.process {pc pc' : ProcessJob} {reply : Reply} {e : Effect}
    (accounts : Accounts cfg s) (found : s.workers[i]? = some (.processing pc))
    (up : s.cancelled = true ∨ reply.succeeds = true)
    (step : ProcessJob.Step cfg s.world pc reply e pc') :
    ∀ id, Taken (afterMove s i (s.world.apply e) (.processing pc')) id →
      Accounted cfg (afterMove s i (s.world.apply e) (.processing pc')) id := by
  have spared := extending_of_step step
  have grows := extends_apply spared
  have member := List.mem_of_getElem? found
  have backed := accounts.backed _ member
  have idle (lost : reply = .fail) : unfinishedJob (.processing pc) = none := by
    subst lost
    exact accounts.quiet (up.resolve_right nofun) _ member
  cases step with
  | invalid _ | missing _ _ | unread | fetched _ _ _ | noHandler _ _ _ | unhandledLost
  | runningLost =>
    intro id taken
    exact accounts.bystander found grows rfl (fun _ called => called) nofun nofun taken
  | completedLost | deadLost _ | retryingLost _ | rescheduledLost => cases idle rfl
  | @unhandled job =>
    refine accounts.about found spared job.id (.inr rfl) nofun (.inl rfl) (.inl rfl)
      fun taken => ?_
    -- a job that was taken has a handler
    obtain ⟨row, present, unregistered⟩ := backed
    have left : unfinishedJob (.processing .returned) ≠ some job.id := nofun
    obtain ⟨row', present', registered, _⟩ :=
      accounts.accounted job.id (taken.before (fun _ called => called) left)
    rw [present] at present'
    cases present'
    rw [registered] at unregistered
    cases unregistered
  | @running job =>
    refine accounts.about found spared job.id (.inr rfl) nofun (.inl rfl) (.inr rfl)
      fun _ => ?_
    exact accounted_of_write backed (fun _ => if_pos rfl) (fun _ => rfl) fun _ =>
      exists_mover (f := executesJob) found rfl
  | @succeeded job | @failed job _ =>
    refine accounts.about found spared job.id (.inl rfl) (by rintro _ _ ⟨⟩; rfl) (.inr rfl)
      (.inr rfl) fun _ => ?_
    -- the row is as it was; the worker is still at the job
    obtain ⟨row, present, registered, recorded⟩ := accounts.accounted job.id (.inr ⟨_, member, rfl⟩)
    exact ⟨row, present, registered, recorded.mono grows (exists_after found fun _ => rfl)
      fun waiting => .inr (exists_after (f := reschedulesJob) found nofun waiting)⟩
  | @completed job | @dead job _ _ _ _ =>
    refine accounts.about found spared job.id (.inr rfl) nofun (.inr rfl) (.inl rfl)
      fun _ => ?_
    exact accounted_of_write backed.1 (fun _ => if_pos rfl) (fun _ => rfl) fun _ => backed.2
  | @retrying job _ _ _ _ =>
    refine accounts.about found spared job.id (.inr rfl) nofun (.inr rfl) (.inr rfl)
      fun _ => ?_
    exact accounted_of_write backed.1 (fun _ => if_pos rfl) (fun _ => rfl) fun _ =>
      ⟨backed.2, .inr (exists_mover (f := reschedulesJob) found rfl)⟩
  | @rescheduled job _ =>
    refine accounts.about found spared job.id (.inl rfl) nofun (.inr rfl) (.inl rfl)
      fun _ => ?_
    obtain ⟨row, present, registered, recorded⟩ := accounts.accounted job.id (.inr ⟨_, member, rfl⟩)
    refine ⟨row, present, registered, recorded.mono grows
      (exists_after (f := executesJob) found nofun) fun _ => .inl ?_⟩
    show _ ∈ Queue.scheduled (Queue.schedule _ _ _)
    simp

theorem Accounts.move {reply : Reply} (accounts : Accounts cfg s)
    (found : s.workers[i]? = some worker) (up : s.cancelled = true ∨ reply.succeeds = true)
    (step : Loop.Step cfg s.world s.cancelled worker reply w' worker') :
    ∀ id, Taken (afterMove s i w' worker') id → Accounted cfg (afterMove s i w' worker') id := by
  have grows := extends_of_step step
  cases step with
  | process _ inner => exact accounts.process found up inner
  | _ =>
    intro id taken
    exact accounts.bystander found grows rfl (fun _ called => called) nofun nofun taken

/-- Once the context is cancelled no worker gets to its first write. -/
theorem unfinishedJob_step {reply : Reply}
    (step : Loop.Step cfg w true worker reply w' worker') (idle : unfinishedJob worker = none) :
    unfinishedJob worker' = none := by
  cases step with
  | process answered inner =>
    cases inner with
    | running => cases answered rfl rfl
    | succeeded | failed | retrying _ _ | retryingLost _ => cases idle
    | _ => rfl
  | _ => rfl

/-- Steps of others leave the workers where they are. -/
theorem Accounts.aside (accounts : Accounts cfg s) (grows : Extends s.world w')
    (rows : ∀ {id row}, s.world.row id = some row → w'.row id = some row)
    (calls : w'.calls = s.world.calls) : Accounts cfg { s with world := w' } where
  backed worker member := (accounts.backed worker member).grow grows
  accounted id taken := by
    have before : Taken s id := by
      unfold Taken at taken
      rw [calls] at taken
      exact taken
    obtain ⟨row, present, registered, recorded⟩ := accounts.accounted id before
    exact ⟨row, rows present, registered, recorded.mono grows (fun busy => busy) .inr⟩
  quiet := accounts.quiet
  stopped := accounts.stopped

theorem row_of_arrives {e : Effect} (arrives : Worker.arrives w e = true)
    (present : w.row id = some row) : (w.apply e).row id = some row := by
  rw [World.row_apply_of_target_ne, present]
  cases e with
  | insert id' new =>
    rintro ⟨⟩
    simp [Worker.arrives, present] at arrives
  | _ => simp_all [Worker.arrives, Effect.target]

theorem calls_of_arrives {e : Effect} (arrives : Worker.arrives w e = true) :
    (w.apply e).calls = w.calls := by
  cases e <;> first | rfl | cases arrives

theorem Accounts.step {t : Pool} {a : Pool.Action} (accounts : Accounts cfg s)
    (permitted : quietShutdown s a) (taken : s.step cfg a = some t) : Accounts cfg t := by
  obtain ⟨up, quietly⟩ := permitted
  cases Pool.step_cases taken with
  | tick => exact accounts.aside ⟨fun present => ⟨_, present, rfl⟩, id, id⟩ id rfl
  | arrive arrives =>
    exact accounts.aside (extends_apply (extending_of_arrives arrives)) (row_of_arrives arrives)
      (calls_of_arrives arrives)
  -- by the policy of the run, cancellation and `Stop` come while no worker has a result to lose
  | cancel =>
    exact ⟨accounts.backed, accounts.accounted, fun _ => quietly.elim accounts.quiet id, fun _ => rfl⟩
  | stop =>
    exact ⟨accounts.backed, accounts.accounted, fun _ => quietly.elim accounts.quiet id, fun _ => rfl⟩
  | wait waiting =>
    exact ⟨accounts.backed, accounts.accounted, accounts.quiet,
      fun _ => accounts.stopped (by rw [waiting]; nofun)⟩
  | @run i worker reply world worker' found inner =>
    have grows := extends_of_step inner
    refine ⟨fun other member => ?_, accounts.move found up inner, fun done other member => ?_,
      accounts.stopped⟩
    · cases List.mem_or_eq_of_mem_set member with
      | inl stays => exact (accounts.backed other stays).grow grows
      | inr moved =>
        subst moved
        exact (accounts.backed worker (List.mem_of_getElem? found)).step inner
    · cases List.mem_or_eq_of_mem_set member with
      | inl stays => exact accounts.quiet done other stays
      | inr moved =>
        subst moved
        rw [done] at inner
        exact unfinishedJob_step inner (accounts.quiet done worker (List.mem_of_getElem? found))

theorem reachable_accounts (reachable : (Pool.system cfg).Reachable quietShutdown s) :
    Accounts cfg s := by
  refine reachable.invariant (P := Accounts cfg) ?_ fun _ permitted taken accounts =>
    accounts.step permitted taken
  rintro _ ⟨w, count, rfl⟩
  have started {worker : Loop} (member : worker ∈ List.replicate count Loop.checking) :
      worker = .checking := List.eq_of_mem_replicate member
  refine ⟨fun worker member => ?_, fun id taken => ?_, nofun, fun called => absurd rfl called⟩
  · rw [started member]
    trivial
  · obtain ⟨_, called⟩ | ⟨worker, member, at_it⟩ := taken
    · cases called
    · rw [started member] at at_it
      cases at_it

/-! ## When `Stop` has returned -/

/-- With the stores up and a context that is cancelled while no worker is between the first write
for a job and its last call, whatever the number of workers, every job whose handler has returned
has the outcome in its row when `Stop` returns. -/
theorem shutdown_keeps_results (reachable : (Pool.system cfg).Reachable quietShutdown s)
    (returned : s.stop = .returned) : KeepsResults cfg s.world := by
  have accounts := reachable_accounts reachable
  have idle := accounts.quiet (accounts.stopped (by rw [returned]; nofun))
  intro id err called
  obtain ⟨row, present, _, recorded⟩ := accounts.accounted id (.inl ⟨err, called⟩)
  cases status : row.status <;> simp only [Recorded, status] at recorded
  case running =>
    obtain ⟨worker, member, at_it⟩ := recorded
    rw [(unfinishedJob_eq_none.mp (idle worker member)).1] at at_it
    cases at_it
  case completed => exact ⟨row, none, present, recorded, status⟩
  case dead => exact ⟨row, some row.error, present, recorded, rfl, .inl status⟩
  case retrying =>
    obtain ⟨failed, scheduled | ⟨worker, member, at_it⟩⟩ := recorded
    · exact ⟨row, some row.error, present, failed, rfl, .inr ⟨status, scheduled⟩⟩
    · rw [(unfinishedJob_eq_none.mp (idle worker member)).2] at at_it
      cases at_it

/-- The stores of `main` after one job has been created. -/
def waitingStores : World :=
  ((Cmd.runFrom Cmd.initialState
    [.begin (.createJob (some Cmd.request)), .run 0 (.inserted 1), .run 0 .ok]).map State.world).getD
      (.empty 0)

/-- Two workers on these stores. -/
def startedPool : Pool :=
  ⟨{ waitingStores with calls := [] }, false, [.checking, .checking], .uncalled⟩

theorem initial_startedPool : (Pool.system Cmd.mainConfig).initial startedPool :=
  ⟨waitingStores, 2, rfl⟩

/-- A worker pops the job, marks it `running` and calls its handler. -/
def executingRun : List Pool.Action := List.replicate 4 (.run 0 .ok)

/-- The handler fails and the retry is scheduled; then the pool is stopped. -/
theorem scheduled_retry_kept : ∃ s, (Pool.system Cmd.mainConfig).Reachable quietShutdown s ∧
    s.stop = .returned ∧ (1, some "boom") ∈ s.world.calls ∧ KeepsResults Cmd.mainConfig s.world := by
  have ⟨s, reachable, returned, called⟩ :
      ∃ s, (Pool.system Cmd.mainConfig).Reachable quietShutdown s ∧
        s.stop = .returned ∧ (1, some "boom") ∈ s.world.calls :=
    Transition.System.exists_reachable_of_exec
      (executingRun ++ [.run 0 (.returned (some "boom")), .run 0 .ok, .run 0 .ok, .stop,
        .run 0 .ok, .run 0 .ok, .run 1 .ok, .wait]) initial_startedPool (by decide)
  exact ⟨s, reachable, returned, called, shutdown_keeps_results reachable returned⟩

/-- The pool is stopped while the handler runs.  The handler returns nil, the update to
`completed` is made with the cancelled context, and when `Stop` returns the job is `running`. -/
theorem executed_job_left_running : ∃ s row,
    (Pool.system Cmd.mainConfig).Reachable storesUp s ∧ s.stop = .returned ∧
    (1, none) ∈ s.world.calls ∧ s.world.row 1 = some row ∧ row.status = .running := by
  have ⟨s, reachable, returned, called, row, present, running⟩ :
      ∃ s, (Pool.system Cmd.mainConfig).Reachable storesUp s ∧ s.stop = .returned ∧
        (1, none) ∈ s.world.calls ∧ ∃ row ∈ s.world.row 1, row.status = .running :=
    Transition.System.exists_reachable_of_exec
      (executingRun ++ [.stop, .run 0 (.returned none), .run 0 .fail, .run 0 .ok, .run 0 .ok,
        .run 1 .ok, .wait]) initial_startedPool (by decide)
  exact ⟨s, row, reachable, returned, called, present, running⟩

end GoQueue.Verified
