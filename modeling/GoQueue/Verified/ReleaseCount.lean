import GoQueue.Verified.Tokens

/-! # Releases of scheduled jobs

`GetDueJobs` reads and removes the due part of the schedule in one script, so an identifier
that was scheduled is in the schedule or in the batch of one pass.  The pass loop gives each
member of its batch one turn, in which it pushes the member unless `GetJob` or `Push` fails.
Counting pushes against `Schedule` calls therefore works for any number of passes side by side.
-/

namespace GoQueue.Verified

variable {cfg : Config} {id : Uuid} {w : World} {op op' : Op} {reply : Reply} {e : Effect}

/-! ## What is counted -/

/-- A pass pushes the job, onto whatever list. -/
def passPushes (cfg : Config) (id : Uuid) : Op → Effect → Op → Nat
  | .processScheduledJobs _, .push _ jobIDStr, _ => if jobIDStr = cfg.uuid.string id then 1 else 0
  | _, _, _ => 0

/-- A pass pushes the job onto the list of this queue. -/
def passPushesTo (cfg : Config) (id : Uuid) (queue : String) : Op → Effect → Op → Nat
  | .processScheduledJobs _, .push queue' jobIDStr, _ =>
    if jobIDStr = cfg.uuid.string id ∧ queue' = queue then 1 else 0
  | _, _, _ => 0

/-- A call that a pass makes for the job does not succeed: its `GetJob` fails or finds no row, or
its `Push` fails. -/
def passFails (cfg : Config) (id : Uuid) (w : World) : Op → Reply → Nat
  | .processScheduledJobs (.releasing (jobIDStr :: _)), reply =>
    if jobIDStr = cfg.uuid.string id ∧ (reply = .fail ∨ w.row id = none) then 1 else 0
  | .processScheduledJobs (.fetched _ jobIDStr _), reply =>
    if jobIDStr = cfg.uuid.string id ∧ reply = .fail then 1 else 0
  | _, _ => 0

/-- A `Schedule` call puts the job into the schedule. -/
def schedules (cfg : Config) (id : Uuid) : Op → Effect → Op → Nat
  | _, .schedule jobIDStr _, _ => if jobIDStr = cfg.uuid.string id then 1 else 0
  | _, _, _ => 0

/-- What a step of the system counts for, by the call that is made in it. -/
def counting (cfg : Config) (count : Op → Effect → Op → Nat) (s : State) : Action → Nat
  | .run i reply => match s.ops[i]? with
    | some op => match op.step cfg s.world reply with
      | some (e, op') => count op e op'
      | none => 0
    | none => 0
  | .tick _ | .begin _ | .pop => 0

/-- The same for the calls of one operation only. -/
def countingAt (cfg : Config) (i : Nat) (count : Op → Effect → Op → Nat) (s : State) : Action → Nat
  | .run k reply => if k = i then counting cfg count s (.run k reply) else 0
  | .tick _ | .begin _ | .pop => 0

/-- The calls of one operation for the job that do not succeed. -/
def failingAt (cfg : Config) (i : Nat) (id : Uuid) (s : State) : Action → Nat
  | .run k reply => if k = i then s.ops[i]?.elim 0 (passFails cfg id s.world · reply) else 0
  | .tick _ | .begin _ | .pop => 0

/-! ## One call -/

/-- The turns that a pass still has to give to the job. -/
def turns (cfg : Config) (id : Uuid) : Op → Nat
  | .processScheduledJobs (.releasing dueJobIDs) => dueJobIDs.count (cfg.uuid.string id)
  | .processScheduledJobs (.fetched _ jobIDStr rest) =>
    (jobIDStr :: rest).count (cfg.uuid.string id)
  | .processScheduledJobs (.pushed _ rest) => rest.count (cfg.uuid.string id)
  | _ => 0

/-- A turn is used up by a push or by a call that fails. -/
theorem turns_spent {pc pc' : Scheduler.ProcessScheduledJobs}
    (step : Scheduler.ProcessScheduledJobs.Step cfg w pc reply e pc') (begun : pc ≠ .starting)
    (id : Uuid) :
    passPushes cfg id (.processScheduledJobs pc) e (.processScheduledJobs pc') +
      passFails cfg id w (.processScheduledJobs pc) reply +
      turns cfg id (.processScheduledJobs pc') = turns cfg id (.processScheduledJobs pc) := by
  -- the text of an identifier parses to it
  have parse {jobIDStr : String} {parsed : Option Uuid} (read : cfg.uuid.parse jobIDStr = parsed)
      (own : jobIDStr = cfg.uuid.string id) : parsed = some id := by
    rw [← read, own, cfg.uuid.parse_string]
  cases step with
  | taken | untaken => exact absurd rfl begun
  | @invalid jobIDStr rest unparsed =>
    have other : jobIDStr ≠ cfg.uuid.string id := fun own => nomatch parse unparsed own
    simp [passPushes, passFails, turns, other]
  | @missing jobIDStr rest id' parsed absent =>
    by_cases own : jobIDStr = cfg.uuid.string id
    · obtain rfl := Option.some.inj (parse parsed own)
      simp [passPushes, passFails, turns, own, absent, Nat.add_comm]
    · simp [passPushes, passFails, turns, own]
  | @fetched jobIDStr rest job parsed present =>
    have read : ¬ (jobIDStr = cfg.uuid.string id ∧ w.row id = none) := by
      rintro ⟨own, absent⟩
      rw [← Option.some.inj (parse parsed own), present] at absent
      cases absent
    simp [passPushes, passFails, turns, read]
  | unread | pushedRetrying _ | pushed _ | unpushed =>
    simp only [passPushes, passFails, turns, List.count_cons, beq_iff_eq, and_true, true_or,
      reduceCtorEq, and_false, if_false]
    omega
  | released | releasedLost => simp [passPushes, passFails, turns]

/-- The schedule and the batches together: only a `Schedule` call adds to them, and a push by a
pass takes from them. -/
theorem turns_paid (step : Op.Step cfg w op reply e op') (id : Uuid) :
    passPushes cfg id op e op' + (due cfg (w.apply e) id + turns cfg id op') ≤
      due cfg w id + turns cfg id op + schedules cfg id op e op' := by
  -- most calls leave the schedule and the batches alone
  have aside (same : Queue.scheduled (w.apply e).redis = Queue.scheduled w.redis)
      (unpushed : passPushes cfg id op e op' = 0) (held : turns cfg id op' = turns cfg id op) :
      passPushes cfg id op e op' + (due cfg (w.apply e) id + turns cfg id op') ≤
        due cfg w id + turns cfg id op + schedules cfg id op e op' := by
    simp only [due, same, unpushed, held]
    omega
  cases step with
  | createJob step =>
    cases step with
    | @scheduled _ stored runAt _ =>
      have bound := due_schedule cfg w id stored.id runAt
      simp only [passPushes, turns, schedules, UuidCodec.string_inj]
      omega
    | _ => exact aside rfl rfl rfl
  | cancelJob step => cases step <;> exact aside rfl rfl rfl
  | retryJob step => cases step <;> exact aside rfl rfl rfl
  | deleteJob step => cases step <;> exact aside rfl rfl rfl
  | processJob step =>
    cases step with
    | @rescheduled job n =>
      have bound := due_schedule cfg w id job.id (w.now + backoffDuration cfg.overflow n)
      simp only [passPushes, turns, schedules, UuidCodec.string_inj]
      omega
    | _ => exact aside rfl rfl rfl
  | @processScheduledJobs pc _ _ pc' step =>
    by_cases begun : pc = .starting
    · subst begun
      cases step with
      | taken =>
        have moved := due_takeDue cfg w id
        simp only [passPushes, turns]
        omega
      | untaken => exact aside rfl rfl rfl
    · have spent := turns_spent step begun id
      have same : due cfg (w.apply e) id = due cfg w id := by cases step <;> first | rfl | contradiction
      omega
  | recoverUnqueuedJobs step => cases step <;> exact aside rfl rfl rfl
  | recoverStaleJobs step => cases step <;> exact aside rfl rfl rfl

/-- A pass that has read a member pushes it onto the list of its own queue. -/
theorem passPushesTo_eq (step : Op.Step cfg w op reply e op') (sound : op.Sound cfg w)
    {origin : JobRow} (inserted : w.origin id = some origin) :
    passPushesTo cfg id origin.queue op e op' = passPushes cfg id op e op' := by
  have own {job : Job} (knows : w.Knows job.id job.toJobRow)
      (same : cfg.uuid.string job.id = cfg.uuid.string id) : job.queue = origin.queue := by
    obtain ⟨origin', inserted', versions⟩ := knows
    rw [cfg.uuid.string_injective same, inserted] at inserted'
    cases inserted'
    exact versions.queue.symm
  cases step with
  | processScheduledJobs step =>
    cases step with
    | @pushedRetrying job _ _ _ | @pushed job _ _ _ =>
      obtain ⟨knows, rfl, _⟩ := sound
      simp only [passPushesTo, passPushes]
      by_cases same : cfg.uuid.string job.id = cfg.uuid.string id
      · rw [if_pos same, if_pos ⟨same, own knows same⟩]
      · rw [if_neg same, if_neg fun both => same both.1]
    | _ => rfl
  | createJob _ | cancelJob _ | retryJob _ | deleteJob _ | processJob _ | recoverUnqueuedJobs _
  | recoverStaleJobs _ => rfl

/-! ## Whole runs -/

/-- What the schedule and the batches of all passes hold of a job. -/
def released (cfg : Config) (id : Uuid) (s : State) : Nat :=
  due cfg s.world id + (s.ops.map (turns cfg id)).sum

theorem counting_run {s : State} {i : Nat} (count : Op → Effect → Op → Nat)
    (found : s.ops[i]? = some op) (moves : op.step cfg s.world reply = some (e, op')) :
    counting cfg count s (.run i reply) = count op e op' := by
  simp [counting, found, moves]

theorem released_step {s t : State} {a : Action} (taken : s.step cfg a = some t) (id : Uuid) :
    counting cfg (passPushes cfg id) s a + released cfg id t ≤
      released cfg id s + counting cfg (schedules cfg id) s a := by
  cases a with
  | tick elapsed =>
    cases taken
    simp [counting, released, due]
  | begin task =>
    cases taken
    cases task <;> simp [counting, released, turns, Task.start]
  | pop =>
    obtain ⟨⟨jobIDStr, redis⟩, found, rfl⟩ := Option.map_eq_some_iff.mp taken
    obtain ⟨queue, popped⟩ := Queue.pop_popped found
    simp [counting, released, turns, due, popped.scheduled]
  | run i reply =>
    simp only [State.step, Option.bind_eq_bind, Option.bind_eq_some_iff, Option.some.injEq,
      Prod.exists] at taken
    obtain ⟨op, found, e, op', moves, rfl⟩ := taken
    rw [counting_run _ found moves, counting_run _ found moves]
    have paid := turns_paid (Op.step_cases moves) id
    have replaced := List.sum_map_set (f := turns cfg id) found op'
    simp only [released]
    omega

section OnePass

variable {s t : State} {i : Nat} {origin : JobRow}

/-- The operation is a pass that has got its batch, and the job is one that was inserted. -/
structure InBatch (cfg : Config) (id : Uuid) (origin : JobRow) (i : Nat) (s : State) : Prop where
  reachable : (system cfg).Reachable anyAction s
  inserted : s.world.origin id = some origin
  batch : ∃ pc, s.ops[i]? = some (.processScheduledJobs pc) ∧ pc ≠ .starting

/-- The turns that one pass still has to give to the job. -/
def turnsAt (cfg : Config) (id : Uuid) (i : Nat) (s : State) : Nat :=
  s.ops[i]?.elim 0 (turns cfg id)

theorem not_starting {pc pc' : Scheduler.ProcessScheduledJobs}
    (step : Scheduler.ProcessScheduledJobs.Step cfg w pc reply e pc') : pc' ≠ .starting := by
  cases step <;> exact nofun

theorem InBatch.step {a : Action} (inBatch : InBatch cfg id origin i s)
    (taken : (system cfg).step s a = some t) : InBatch cfg id origin i t := by
  have sound := reachable_sound inBatch.reachable
  refine ⟨inBatch.reachable.step trivial taken,
    (State.step_cases taken).grows sound inBatch.inserted, ?_⟩
  obtain ⟨pc, place, begun⟩ := inBatch.batch
  -- the operations that begin stand behind the pass
  have inside := (List.getElem?_eq_some_iff.mp place).1
  cases a with
  | tick elapsed =>
    cases taken
    exact ⟨pc, place, begun⟩
  | begin task =>
    cases taken
    exact ⟨pc, by rw [List.getElem?_append_left inside, place], begun⟩
  | pop =>
    obtain ⟨⟨jobIDStr, redis⟩, _, rfl⟩ := Option.map_eq_some_iff.mp taken
    exact ⟨pc, by rw [List.getElem?_append_left inside, place], begun⟩
  | run k reply =>
    obtain ⟨op, e, op', found, inner, rfl⟩ := State.run_cases taken
    by_cases own : k = i
    · subst own
      rw [place] at found
      cases found
      cases inner with
      | @processScheduledJobs _ _ _ pc' inner =>
        exact ⟨pc', State.getElem?_set_place place _, not_starting inner⟩
    · exact ⟨pc, by rw [List.getElem?_set_ne own, place], begun⟩

/-- One pass uses up its turns; `pushes` may be any way to count its pushes. -/
theorem turnsAt_step {a : Action} (pushes : Op → Effect → Op → Nat)
    (agree : ∀ {w op reply e op'}, Op.Step cfg w op reply e op' → op.Sound cfg w →
      w.origin id = some origin → pushes op e op' = passPushes cfg id op e op')
    (inBatch : InBatch cfg id origin i s) (taken : (system cfg).step s a = some t) :
    countingAt cfg i pushes s a + failingAt cfg i id s a + turnsAt cfg id i t =
      turnsAt cfg id i s := by
  obtain ⟨pc, place, begun⟩ := inBatch.batch
  have inside := (List.getElem?_eq_some_iff.mp place).1
  cases a with
  | tick elapsed =>
    cases taken
    simp [countingAt, failingAt, turnsAt]
  | begin task =>
    cases taken
    simp [countingAt, failingAt, turnsAt, List.getElem?_append_left inside]
  | pop =>
    obtain ⟨⟨jobIDStr, redis⟩, _, rfl⟩ := Option.map_eq_some_iff.mp taken
    simp [countingAt, failingAt, turnsAt, List.getElem?_append_left inside]
  | run k reply =>
    simp only [system, State.step, Option.bind_eq_bind, Option.bind_eq_some_iff, Option.some.injEq,
      Prod.exists] at taken
    obtain ⟨op, found, e, op', moves, rfl⟩ := taken
    -- only a call of the pass itself counts or uses up a turn
    by_cases own : k = i
    · subst own
      have inner := Op.step_cases moves
      have sound := (reachable_sound inBatch.reachable).ops op (List.mem_of_getElem? found)
      have same := agree inner sound inBatch.inserted
      rw [place] at found
      cases found
      simp only [countingAt, failingAt, if_true, counting_run _ place moves, turnsAt, place,
        State.getElem?_set_place place, Option.elim_some, same]
      cases inner with
      | processScheduledJobs inner => exact turns_spent inner begun id
    · simp [countingAt, failingAt, own, turnsAt, List.getElem?_set_ne own]

theorem tally_turns (pushes : Op → Effect → Op → Nat)
    (agree : ∀ {w op reply e op'}, Op.Step cfg w op reply e op' → op.Sound cfg w →
      w.origin id = some origin → pushes op e op' = passPushes cfg id op e op')
    (inBatch : InBatch cfg id origin i s) {labels : List Action}
    (executed : (system cfg).exec anyAction s labels = some t) :
    (system cfg).tally (countingAt cfg i pushes) s labels +
      (system cfg).tally (failingAt cfg i id) s labels + turnsAt cfg id i t =
      turnsAt cfg id i s := by
  rw [← Transition.System.tally_add]
  exact Transition.System.tally_eq (I := InBatch cfg id origin i) (p := turnsAt cfg id i)
    (fun _ taken inBatch => inBatch.step taken)
    (fun _ taken inBatch => turnsAt_step pushes agree inBatch taken) executed inBatch

end OnePass

/-- In every run, with any number of passes side by side and any calls failing, the passes push a
job at most as often as it was scheduled.  A pass that has the job in its batch and none of whose
calls for it fails has pushed it once when it ends, and onto the list of the job's queue. -/
theorem release_at_most_once (cfg : Config) (id : Uuid) :
    (∀ start labels t, (system cfg).initial start →
      (system cfg).exec anyAction start labels = some t →
      (system cfg).tally (counting cfg (passPushes cfg id)) start labels ≤
        (system cfg).tally (counting cfg (schedules cfg id)) start labels) ∧
    (∀ s s₁ i labels t, (system cfg).Reachable anyAction s →
      s.ops[i]? = some (.processScheduledJobs .starting) → s.step cfg (.run i .ok) = some s₁ →
      cfg.uuid.string id ∈ (Queue.getDueJobs s.world.now s.world.redis).1 →
      (system cfg).exec anyAction s₁ labels = some t →
      t.ops[i]? = some (.processScheduledJobs (.releasing [])) →
      (system cfg).tally (failingAt cfg i id) s₁ labels = 0 →
      (system cfg).tally (countingAt cfg i (passPushes cfg id)) s₁ labels = 1 ∧
      ∃ origin, s.world.origin id = some origin ∧
        (system cfg).tally (countingAt cfg i (passPushesTo cfg id origin.queue)) s₁ labels = 1) := by
  constructor
  · intro start labels t initial executed
    have paid := Transition.System.tally_le (I := fun _ => True) (p := released cfg id)
      (f := counting cfg (passPushes cfg id)) (g := counting cfg (schedules cfg id))
      (fun _ _ _ => trivial) (fun _ taken _ => released_step taken id) executed trivial
    obtain ⟨now, rfl⟩ := initial
    have empty : released cfg id ⟨.empty now, []⟩ = 0 := rfl
    omega
  · intro s s₁ i labels t reachable place taken member executed ended kept
    have sound := reachable_sound reachable
    -- what is due was scheduled for a job that was inserted
    obtain ⟨id', origin, text, inserted⟩ := sound.world.scheduled
      (SortedSet.mem_rangeByScore_or_remove.mpr (.inl member))
    obtain rfl : id = id' := cfg.uuid.string_injective text
    have moves : Op.step cfg s.world (.processScheduledJobs .starting) .ok = some (.takeDue,
        .processScheduledJobs (.releasing (Queue.getDueJobs s.world.now s.world.redis).1)) := rfl
    rw [State.step_run place moves, Option.some.injEq] at taken
    subst taken
    have place' := State.getElem?_set_place place
      (.processScheduledJobs (.releasing (Queue.getDueJobs s.world.now s.world.redis).1))
    have inBatch : InBatch cfg id origin i _ :=
      ⟨reachable.step (a := .run i .ok) trivial (State.step_run place moves), inserted, _, place', nofun⟩
    have once : turnsAt cfg id i ⟨s.world.apply .takeDue, s.ops.set i (.processScheduledJobs
        (.releasing (Queue.getDueJobs s.world.now s.world.redis).1))⟩ = 1 := by
      simp only [turnsAt, place', Option.elim_some, turns]
      exact List.count_eq_one_of_mem (SortedSet.nodup_rangeByScore _ _) member
    have none_left : turnsAt cfg id i t = 0 := by simp [turnsAt, ended, turns]
    have all := tally_turns (passPushes cfg id) (fun _ _ _ => rfl) inBatch executed
    have own := tally_turns (passPushesTo cfg id origin.queue)
      (fun step sound inserted => passPushesTo_eq step sound inserted) inBatch executed
    refine ⟨by omega, origin, inserted, by omega⟩

/-- A job has failed once, is due again, and a pass begins. -/
def dueRun : List Action :=
  [.begin (.createJob (some Cmd.request)), .run 0 (.inserted 1), .run 0 .ok,
    .pop, .run 1 .ok, .run 1 .ok, .run 1 (.returned (some "boom")), .run 1 .ok, .run 1 .ok,
    .tick 4000000000, .begin .processScheduledJobs]

theorem dueRun_released : ∃ s s₁, (system Cmd.mainConfig).Reachable anyAction s ∧
    s.step Cmd.mainConfig (.run 2 .ok) = some s₁ ∧
    (system Cmd.mainConfig).tally (countingAt Cmd.mainConfig 2 (passPushes Cmd.mainConfig 1)) s₁
      [.run 2 .ok, .run 2 .ok, .run 2 .ok] = 1 := by
  have ⟨s, reachable, place, member, s₁, taken, t, executed, ended, kept⟩ :
      ∃ s, (system Cmd.mainConfig).Reachable anyAction s ∧
        s.ops[2]? = some (.processScheduledJobs .starting) ∧
        Cmd.mainConfig.uuid.string 1 ∈ (Queue.getDueJobs s.world.now s.world.redis).1 ∧
        ∃ s₁ ∈ s.step Cmd.mainConfig (.run 2 .ok),
        ∃ t ∈ (system Cmd.mainConfig).exec anyAction s₁ [.run 2 .ok, .run 2 .ok, .run 2 .ok],
          t.ops[2]? = some (.processScheduledJobs (.releasing [])) ∧
          (system Cmd.mainConfig).tally (failingAt Cmd.mainConfig 2 1) s₁
            [.run 2 .ok, .run 2 .ok, .run 2 .ok] = 0 :=
    Transition.System.exists_reachable_of_exec dueRun Cmd.initial_initialState (by decide)
  obtain ⟨_, once⟩ := release_at_most_once Cmd.mainConfig 1
  exact ⟨s, s₁, reachable, taken, (once s s₁ 2 _ t reachable place taken member executed ended kept).1⟩

end GoQueue.Verified
