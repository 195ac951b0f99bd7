import GoQueue.System.State

/-! # What every operation may rely on

Rows are updated by primary key from snapshots of any age, and identifiers travel through
Redis as text.  This module proves what never goes wrong with that, whatever the
interleaving and whichever calls fail:

* a row, and every snapshot of it an operation holds, agrees with the row that was inserted
  in all columns no statement updates;
* every member of a Redis list, of the schedule, of a batch or in a worker's hands is the
  text of the identifier of a job that was inserted, and a list holds jobs of the queue that
  the table stores for its name.
-/

namespace GoQueue

open Storage (SameJob)

namespace World

/-- `row` is a version of the job that was inserted under `id`. -/
def Knows (w : World) (id : Uuid) (row : JobRow) : Prop :=
  ∃ origin, w.origin id = some origin ∧ SameJob origin row

/-- `member` is the text of the identifier of a job that was inserted. -/
def Names (cfg : Config) (w : World) (member : String) : Prop :=
  ∃ id origin, member = cfg.uuid.string id ∧ w.origin id = some origin

/-- `member` names a job of this queue. -/
def NamesIn (cfg : Config) (w : World) (queue member : String) : Prop :=
  ∃ id origin, member = cfg.uuid.string id ∧ w.origin id = some origin ∧ origin.queue = queue

/-- `member` names a job of the queue that the table stores for this name. -/
def NamesUnder (cfg : Config) (w : World) (name member : String) : Prop :=
  ∃ queue, Storage.varchar 255 name = some queue ∧ w.NamesIn cfg queue member

/-- Jobs that were inserted stay known. -/
def Grows (w w' : World) : Prop :=
  ∀ {id origin}, w.origin id = some origin → w'.origin id = some origin

theorem Knows.grow {w w' : World} {id : Uuid} {row : JobRow} (knows : w.Knows id row)
    (grows : w.Grows w') : w'.Knows id row := by
  obtain ⟨origin, inserted, same⟩ := knows
  exact ⟨origin, grows inserted, same⟩

theorem Names.grow {cfg : Config} {w w' : World} {member : String} (names : w.Names cfg member)
    (grows : w.Grows w') : w'.Names cfg member := by
  obtain ⟨id, origin, text, inserted⟩ := names
  exact ⟨id, origin, text, grows inserted⟩

theorem NamesIn.grow {cfg : Config} {w w' : World} {queue member : String}
    (names : w.NamesIn cfg queue member) (grows : w.Grows w') : w'.NamesIn cfg queue member := by
  obtain ⟨id, origin, text, inserted, queued⟩ := names
  exact ⟨id, origin, text, grows inserted, queued⟩

theorem NamesIn.names {cfg : Config} {w : World} {queue member : String}
    (names : w.NamesIn cfg queue member) : w.Names cfg member := by
  obtain ⟨id, origin, text, inserted, _⟩ := names
  exact ⟨id, origin, text, inserted⟩

theorem NamesUnder.grow {cfg : Config} {w w' : World} {name member : String}
    (names : w.NamesUnder cfg name member) (grows : w.Grows w') : w'.NamesUnder cfg name member := by
  obtain ⟨queue, stored, names⟩ := names
  exact ⟨queue, stored, names.grow grows⟩

theorem NamesUnder.names {cfg : Config} {w : World} {name member : String}
    (names : w.NamesUnder cfg name member) : w.Names cfg member := by
  obtain ⟨_, _, names⟩ := names
  exact names.names

/-- A member that parses is the text of what it parses to. -/
theorem Names.eq_string {cfg : Config} {w : World} {member : String} (names : w.Names cfg member)
    {id : Uuid} (parsed : cfg.uuid.parse member = some id) : member = cfg.uuid.string id := by
  obtain ⟨id', _, rfl, _⟩ := names
  rw [cfg.uuid.parse_string] at parsed
  cases parsed
  rfl

/-- Nothing names a job that was never inserted. -/
theorem not_names {cfg : Config} {w : World} {id : Uuid} (unknown : w.origin id = none) :
    ¬ w.Names cfg (cfg.uuid.string id) := by
  intro named
  obtain ⟨id', origin, text, inserted⟩ := named
  rw [← cfg.uuid.string_injective text, unknown] at inserted
  cases inserted

theorem Knows.names {cfg : Config} {w : World} {id : Uuid} {row : JobRow} (knows : w.Knows id row) :
    w.Names cfg (cfg.uuid.string id) := by
  obtain ⟨origin, inserted, _⟩ := knows
  exact ⟨id, origin, rfl, inserted⟩

theorem Knows.namesIn {cfg : Config} {w : World} {id : Uuid} {row : JobRow}
    (knows : w.Knows id row) : w.NamesIn cfg row.queue (cfg.uuid.string id) := by
  obtain ⟨origin, inserted, same⟩ := knows
  exact ⟨id, origin, rfl, inserted, same.queue⟩

theorem Knows.namesUnder {cfg : Config} {w : World} {id : Uuid} {row : JobRow}
    (knows : w.Knows id row) : w.NamesUnder cfg row.queue (cfg.uuid.string id) :=
  ⟨row.queue, Storage.varchar_of_length_le row.named.1, knows.namesIn⟩

/-- Two versions of one job agree in the columns no statement updates. -/
theorem Knows.sameJob {w : World} {id : Uuid} {row row' : JobRow} (knows : w.Knows id row)
    (knows' : w.Knows id row') : SameJob row row' := by
  obtain ⟨origin, inserted, same⟩ := knows
  obtain ⟨origin', inserted', same'⟩ := knows'
  rw [inserted] at inserted'
  cases inserted'
  exact same.symm.trans same'

end World

/-! ## The invariant -/

/-- What an operation may rely on about the data it holds. -/
def Op.Sound (cfg : Config) (w : World) : Op → Prop
  | .createJob (.created job stored) =>
    w.Knows stored.id stored.toJobRow ∧ Storage.varchar 255 job.queue = some stored.queue ∧
      stored.runAt = job.runAt.map timestamptz
  | .cancelJob (.checked id job) | .retryJob (.checked id job) | .retryJob (.updated id job) =>
    job.id = id ∧ w.Knows id job.toJobRow
  | .processJob (.popped jobIDStr) => w.Names cfg jobIDStr
  | .processJob (.noHandler job) | .processJob (.fetched job) | .processJob (.executing job)
  | .processJob (.succeeded job) | .processJob (.failing job _)
  | .processJob (.rescheduling job _) => w.Knows job.id job.toJobRow
  | .processScheduledJobs (.releasing dueJobIDs) => ∀ member ∈ dueJobIDs, w.Names cfg member
  | .processScheduledJobs (.fetched job jobIDStr rest) =>
    w.Knows job.id job.toJobRow ∧ jobIDStr = cfg.uuid.string job.id ∧
      ∀ member ∈ rest, w.Names cfg member
  | .processScheduledJobs (.pushed job rest) =>
    w.Knows job.id job.toJobRow ∧ ∀ member ∈ rest, w.Names cfg member
  | .recoverUnqueuedJobs (.pushing jobs) => ∀ job ∈ jobs, w.Knows job.id job.toJobRow
  | .recoverStaleJobs (.failing jobs) => ∀ job ∈ jobs, w.Knows job.id job.toJobRow
  | _ => True

structure World.Sound (cfg : Config) (w : World) : Prop where
  rows : ∀ {id row}, w.row id = some row → w.Knows id row
  contents : ∀ {queue member}, member ∈ Queue.contents queue w.redis → w.NamesUnder cfg queue member
  scheduled : ∀ {member}, member ∈ Queue.scheduled w.redis → w.Names cfg member
  occurrences : ∀ {member}, 0 < w.redis.occurrences member → w.Names cfg member

structure State.Sound (cfg : Config) (s : State) : Prop where
  world : s.world.Sound cfg
  ops : ∀ op ∈ s.ops, op.Sound cfg s.world

/-- What the stores need of an effect to stay sound. -/
def Effect.Sound (cfg : Config) (w : World) : Effect → Prop
  | .insert id _ => w.origin id = Option.none
  | .push queue jobID => w.NamesUnder cfg queue jobID
  | .schedule jobID _ => w.Names cfg jobID
  | _ => True

theorem Op.Sound.grow {cfg : Config} {w w' : World} {op : Op} (sound : op.Sound cfg w)
    (grows : w.Grows w') : op.Sound cfg w' := by
  cases op with
  | createJob pc =>
    cases pc with
    | created job stored => exact ⟨sound.1.grow grows, sound.2⟩
    | received _ | responded _ => trivial
  | cancelJob pc =>
    cases pc with
    | checked id job => exact ⟨sound.1, sound.2.grow grows⟩
    | received _ | responded _ => trivial
  | retryJob pc =>
    cases pc with
    | checked id job | updated id job => exact ⟨sound.1, sound.2.grow grows⟩
    | received _ | responded _ => trivial
  | deleteJob pc => trivial
  | processJob pc =>
    cases pc with
    | popped jobIDStr => exact World.Names.grow sound grows
    | noHandler job | fetched job | executing job | succeeded job | failing job _
    | rescheduling job _ => exact World.Knows.grow sound grows
    | returned => trivial
  | processScheduledJobs pc =>
    cases pc with
    | starting => trivial
    | releasing dueJobIDs => exact fun member held => (sound member held).grow grows
    | fetched job jobIDStr rest =>
      exact ⟨sound.1.grow grows, sound.2.1, fun member held => (sound.2.2 member held).grow grows⟩
    | pushed job rest =>
      exact ⟨sound.1.grow grows, fun member held => (sound.2 member held).grow grows⟩
  | recoverUnqueuedJobs pc =>
    cases pc with
    | starting => trivial
    | pushing jobs => exact fun job held => (sound job held).grow grows
  | recoverStaleJobs pc =>
    cases pc with
    | starting => trivial
    | failing jobs => exact fun job held => (sound job held).grow grows

/-! ## One step -/

theorem World.grows_apply {cfg : Config} {w : World} {e : Effect} (sound : e.Sound cfg w) :
    w.Grows (w.apply e) := by
  intro id origin inserted
  rw [World.origin_apply]
  cases e with
  | insert id' row =>
    have different : id ≠ id' := by
      rintro rfl
      rw [show w.origin id = none from sound] at inserted
      cases inserted
    simpa [different] using inserted
  | none | setStatus _ _ | setError _ _ _ _ | delete _ | push _ _ | schedule _ _ | takeDue
  | record _ _ => exact inserted

/-- Apart from an insertion an effect leaves a row as a version of the one before. -/
theorem Effect.onRow_sameJob {e : Effect} {now : Time} {id : Uuid} {row : Option JobRow}
    {row' : JobRow} (after : e.onRow now id row = some row') :
    (∃ old, row = some old ∧ SameJob old row') ∨ e = .insert id row' := by
  cases e with
  | insert id' new =>
    simp only [Effect.onRow] at after
    split at after
    case isTrue same => subst same; cases after; exact .inr rfl
    case isFalse => exact .inl ⟨row', after, .refl _⟩
  | setStatus id' status =>
    simp only [Effect.onRow] at after
    split at after
    · obtain ⟨old, found, rfl⟩ := Option.map_eq_some_iff.mp after
      exact .inl ⟨old, found, Storage.sameJob_setStatus _ _ _⟩
    · exact .inl ⟨row', after, .refl _⟩
  | setError id' status retryCount jobErr =>
    simp only [Effect.onRow] at after
    split at after
    · obtain ⟨old, found, rfl⟩ := Option.map_eq_some_iff.mp after
      exact .inl ⟨old, found, Storage.sameJob_setError _ _ _ _ _⟩
    · exact .inl ⟨row', after, .refl _⟩
  | delete id' =>
    simp only [Effect.onRow] at after
    split at after
    · cases after
    · exact .inl ⟨row', after, .refl _⟩
  | none | push _ _ | schedule _ _ | takeDue | record _ _ => exact .inl ⟨row', after, .refl _⟩

theorem World.Sound.apply {cfg : Config} {w : World} (sound : w.Sound cfg) {e : Effect}
    (effect : e.Sound cfg w) : (w.apply e).Sound cfg := by
  have grows : w.Grows (w.apply e) := World.grows_apply effect
  refine ⟨?_, ?_, ?_, ?_⟩
  -- a row is a version of the one that was inserted, unless it is inserted now
  · intro id row present
    rw [World.row_apply] at present
    rcases Effect.onRow_sameJob present with ⟨old, found, same⟩ | rfl
    · obtain ⟨origin, inserted, version⟩ := sound.rows found
      exact ⟨origin, grows inserted, version.trans same⟩
    · exact ⟨row, by simp [World.origin_apply], .refl row⟩
  -- what the effect of a sound operation adds to Redis names a job
  · intro queue member held
    obtain rfl | before := World.mem_contents_apply.mp held
    · exact World.NamesUnder.grow effect grows
    · exact (sound.contents before).grow grows
  · intro member held
    obtain ⟨runAt, rfl⟩ | before := World.mem_scheduled_of_apply held
    · exact World.Names.grow effect grows
    · exact (sound.scheduled before).grow grows
  · intro member held
    rw [World.redis_apply] at held
    cases e with
    | push queue jobID =>
      simp only [Queue.push, Keyspace.occurrences_lpush] at held
      split at held
      case isTrue same => exact same ▸ (World.NamesUnder.names effect).grow grows
      case isFalse => exact (sound.occurrences held).grow grows
    | takeDue =>
      rw [Queue.occurrences_getDueJobs] at held
      exact (sound.occurrences held).grow grows
    | none | insert _ _ | setStatus _ _ | setError _ _ _ _ | delete _ | schedule _ _
    | record _ _ => exact (sound.occurrences held).grow grows

/-- The effects of sound operations are sound. -/
theorem Op.Step.effect_sound {cfg : Config} {w : World} {op op' : Op} {reply : Reply} {e : Effect}
    (step : Op.Step cfg w op reply e op') (sound : op.Sound cfg w) : e.Sound cfg w := by
  cases step with
  | createJob step =>
    cases step with
    | inserted _ fresh _ => exact fresh
    | scheduled _ => exact World.Knows.names sound.1
    -- the handler pushes to the queue of the request, which the table may have cut
    | pushed _ =>
      obtain ⟨knows, queued, _⟩ := sound
      exact ⟨_, queued, knows.namesIn⟩
    | rejected _ | refused | unqueued => trivial
  | cancelJob step => cases step <;> trivial
  | retryJob step =>
    cases step with
    | pushed => exact sound.2.namesUnder
    | _ => trivial
  | deleteJob step => cases step <;> trivial
  | processJob step =>
    cases step with
    | rescheduled => exact World.Knows.names sound
    | _ => trivial
  | processScheduledJobs step =>
    cases step with
    | pushedRetrying _ | pushed _ =>
      obtain ⟨knows, rfl, _⟩ := sound
      exact knows.namesUnder
    | _ => trivial
  | recoverUnqueuedJobs step =>
    cases step with
    | pushed => exact (sound _ List.mem_cons_self).namesUnder
    | _ => trivial
  | recoverStaleJobs step => cases step <;> trivial

/-- A step leaves the operation that takes it sound. -/
theorem Op.Step.sound {cfg : Config} {w : World} {op op' : Op} {reply : Reply} {e : Effect}
    (step : Op.Step cfg w op reply e op') (world : w.Sound cfg) (sound : op.Sound cfg w) :
    op'.Sound cfg (w.apply e) := by
  have grows : w.Grows (w.apply e) := World.grows_apply (step.effect_sound sound)
  cases step with
  | createJob step =>
    cases step with
    | inserted prepared fresh stored =>
      rename_i job id row
      have created := Storage.created_of_createJob stored
      exact ⟨⟨row, by simp [World.origin_apply, Storage.scanJob], .refl _⟩, created.queue,
        created.runAt⟩
    | rejected _ | refused | scheduled _ | pushed _ | unqueued => trivial
  | cancelJob step =>
    cases step with
    | checked _ present _ => exact ⟨rfl, (world.rows present).grow grows⟩
    | _ => trivial
  | retryJob step =>
    cases step with
    | checked _ present _ => exact ⟨rfl, (world.rows present).grow grows⟩
    | updated => exact ⟨sound.1, sound.2.grow grows⟩
    | _ => trivial
  | deleteJob step => cases step <;> trivial
  | processJob step =>
    cases step with
    | fetched _ present _ | noHandler _ present _ => exact (world.rows present).grow grows
    | running | succeeded | failed | retrying _ _ | retryingLost _ => exact World.Knows.grow sound grows
    | _ => trivial
  | processScheduledJobs step =>
    cases step with
    | taken =>
      intro member due
      exact (world.scheduled (SortedSet.mem_rangeByScore_or_remove.mpr (.inl due))).grow grows
    | untaken => intro member held; cases held
    | invalid _ | missing _ _ | unread =>
      exact fun member held => (sound member (List.mem_cons_of_mem _ held)).grow grows
    -- the member of the schedule is the text of the identifier it was parsed to
    | fetched parsed present =>
      have text := (sound _ List.mem_cons_self).eq_string parsed
      exact ⟨(world.rows present).grow grows, text,
        fun member held => (sound member (List.mem_cons_of_mem _ held)).grow grows⟩
    | pushedRetrying _ =>
      exact ⟨sound.1.grow grows, fun member held => (sound.2.2 member held).grow grows⟩
    | pushed _ | unpushed => exact fun member held => (sound.2.2 member held).grow grows
    | released | releasedLost => exact fun member held => (sound.2 member held).grow grows
  | recoverUnqueuedJobs step =>
    cases step with
    | selected _ matching => exact fun job held => (world.rows (matching job held).1).grow grows
    | unselected => intro job held; cases held
    | pushed | unpushed =>
      exact fun job held => (sound job (List.mem_cons_of_mem _ held)).grow grows
  | recoverStaleJobs step =>
    cases step with
    | selected _ matching => exact fun job held => (world.rows (matching job held).1).grow grows
    | unselected => intro job held; cases held
    | failed | failedLost =>
      exact fun job held => (sound job (List.mem_cons_of_mem _ held)).grow grows

/-! ## Whole runs -/

/-- A popped member comes from a list, which it named a job for. -/
theorem World.Sound.named_of_popped {cfg : Config} {w : World} (sound : w.Sound cfg)
    {queues : List String} {queue jobIDStr : String} {redis : Redis}
    (popped : Queue.Popped w.redis queues queue jobIDStr redis) : w.NamesUnder cfg queue jobIDStr := by
  apply sound.contents
  rw [popped.last]
  exact List.mem_append_right _ List.mem_cons_self

theorem State.Step.sound {cfg : Config} {s t : State} {a : Action} (step : State.Step cfg s a t)
    (sound : s.Sound cfg) : t.Sound cfg := by
  refine (step.eachOp (W := (World.Sound cfg ·)) (P := fun w op => op.Sound cfg w)
    sound.world sound.ops ?tick ?begin ?pop ?run).elim fun world ops => ⟨world, ops⟩
  case tick =>
    intro elapsed
    refine ⟨⟨sound.world.rows, sound.world.contents, sound.world.scheduled,
      sound.world.occurrences⟩, ?_⟩
    exact fun op running => running.grow fun inserted => inserted
  case begin =>
    intro task
    cases task <;> trivial
  case pop =>
    intro queue jobIDStr redis popped
    have named := sound.world.named_of_popped popped
    refine ⟨⟨sound.world.rows, ?_, ?_, ?_⟩, ?_, ?_⟩
    · intro queue' member held
      apply sound.world.contents
      by_cases same : queue' = queue
      · subst same
        rw [popped.last]
        exact List.mem_append_left _ held
      · exact popped.others queue' same ▸ held
    · intro member held
      exact sound.world.scheduled (popped.scheduled ▸ held)
    · intro member held
      apply sound.world.occurrences
      rw [popped.occurrences]
      exact Nat.add_pos_left held _
    · exact named.names.grow fun inserted => inserted
    · exact fun op running => running.grow fun inserted => inserted
  case run =>
    intro op reply e op' running inner
    have effect := inner.effect_sound (sound.ops op running)
    refine ⟨sound.world.apply effect, inner.sound sound.world (sound.ops op running), ?_⟩
    exact fun other _ held => held.grow (World.grows_apply effect)

theorem State.Step.grows {cfg : Config} {s t : State} {a : Action} (step : State.Step cfg s a t)
    (sound : s.Sound cfg) : s.world.Grows t.world := by
  cases step with
  | tick | begin | popped _ => exact fun inserted => inserted
  | run split inner => exact World.grows_apply (inner.effect_sound (sound.ops _ (by simp [split])))

theorem World.sound_empty {cfg : Config} (now : Time) : (World.empty now).Sound cfg := by
  refine ⟨?_, ?_, ?_, ?_⟩
  · intro id row present
    cases present
  · intro queue member held
    cases held
  · intro member held
    cases held
  · intro member held
    cases held

theorem reachable_sound {cfg : Config} {permitted : State → Action → Prop} {s : State}
    (reachable : (system cfg).Reachable permitted s) : s.Sound cfg := by
  refine reachable.invariant ?_ ?_
  · rintro s ⟨now, rfl⟩
    refine ⟨World.sound_empty now, ?_⟩
    intro op running
    cases running
  · intro s a t _ _ taken sound
    exact (State.step_cases taken).sound sound

/-! ## Where a member of a list can be -/

theorem keyed_of_reachable {cfg : Config} {permitted : State → Action → Prop} {s : State}
    (reachable : (system cfg).Reachable permitted s) : Queue.Keyed s.world.redis := by
  refine reachable.invariant (P := fun s => Queue.Keyed s.world.redis) ?_ ?_
  · rintro s ⟨now, rfl⟩ key some
    exact absurd rfl some
  · intro s a t _ _ taken keyed
    cases a with
    | tick elapsed => cases taken; exact keyed
    | begin task => cases taken; exact keyed
    | pop =>
      obtain ⟨⟨jobIDStr, redis⟩, found, rfl⟩ := Option.map_eq_some_iff.mp taken
      exact keyed.pop found
    | run i reply =>
      obtain ⟨op, e, op', _, _, rfl⟩ := State.run_cases taken
      simp only [World.redis_apply]
      cases e with
      | push queue jobID => exact keyed.push queue jobID
      | takeDue => exact keyed.getDueJobs s.world.now
      | none | insert _ _ | setStatus _ _ | setError _ _ _ _ | delete _ | schedule _ _
      | record _ _ => exact keyed

theorem World.NamesIn.queue_eq {cfg : Config} {w : World} {queue : String} {id : Uuid} {row : JobRow}
    (names : w.NamesIn cfg queue (cfg.uuid.string id)) (knows : w.Knows id row) :
    row.queue = queue := by
  obtain ⟨id', origin, text, inserted, rfl⟩ := names
  obtain rfl := cfg.uuid.string_injective text
  exact (knows.sameJob ⟨origin, inserted, .refl origin⟩).queue

/-- In the list of a served queue, and in any list for a job of one, the list and the job are of
the same queue: a name that is cut fills the column. -/
theorem World.NamesUnder.queue_eq {cfg : Config} {w : World} {name : String} {id : Uuid}
    {row : JobRow} (names : w.NamesUnder cfg name (cfg.uuid.string id)) (knows : w.Knows id row)
    (served : name ∈ cfg.queues ∨ row.queue ∈ cfg.queues) : row.queue = name := by
  obtain ⟨queue, stored, names⟩ := names
  obtain rfl := names.queue_eq knows
  cases served with
  | inl asked =>
    rw [Storage.varchar_of_length_le (cfg.short name asked).le] at stored
    exact (Option.some.inj stored).symm
  | inr asked => exact (Storage.eq_of_varchar stored (cfg.short row.queue asked)).symm

/-- An identifier that is in some list is in the list of the job's queue, if that is served. -/
theorem mem_contents_of_occurrences {cfg : Config} {permitted : State → Action → Prop} {s : State}
    (reachable : (system cfg).Reachable permitted s) {id : Uuid} {row : JobRow}
    (present : s.world.row id = some row) (served : row.queue ∈ cfg.queues)
    (held : 0 < s.world.redis.occurrences (cfg.uuid.string id)) :
    cfg.uuid.string id ∈ Queue.contents row.queue s.world.redis := by
  have sound := (reachable_sound reachable).world
  obtain ⟨key, member⟩ := Keyspace.exists_mem_list_of_occurrences_pos held
  obtain ⟨queue, rfl⟩ := keyed_of_reachable reachable key (List.ne_nil_of_mem member)
  rw [(sound.contents member).queue_eq (sound.rows present) (.inr served)]
  exact member

end GoQueue
