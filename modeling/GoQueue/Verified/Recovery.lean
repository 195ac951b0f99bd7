import GoQueue.Library.Smallest
import GoQueue.System.Sequential
import GoQueue.Cmd.Main

/-! # What recovery passes push

`recoverUnqueuedJobs` selects pending rows by their age and pushes their identifiers; it leaves
the rows as they are and does not look into the lists.  So the next pass selects the same rows
again, and of more than a hundred matching rows always the oldest.
-/

namespace GoQueue

/-! ## Answers of a query with an order and a limit -/

namespace Storage

variable {selected : JobRow → Bool} {key : JobRow → Time} {limit : Nat} {jobs : Jobs}
  {result : List Job}

/-- The first matching rows among these, in the order of the key. -/
def firstOf (selected : JobRow → Bool) (key : JobRow → Time) (limit : Nat)
    (entries : List (Sigma fun _ : Uuid => JobRow)) : List Job :=
  ((entries.filter (selected ·.2)).smallest (key ·.2) limit).map fun entry => scanJob entry.1 entry.2

/-- The first matching rows among some of the table are an answer, if a matching row is left out
only where enough of the others may come before it. -/
theorem isSelection_firstOf {entries : List (Sigma fun _ : Uuid => JobRow)}
    (part : entries.Sublist jobs.entries)
    (others : ∀ entry ∈ jobs.entries, selected entry.2 = true → entry ∈ entries ∨
      limit ≤ ((entries.filter (selected ·.2)).filter (key ·.2 ≤ key entry.2)).length) :
    IsSelection selected key limit jobs (firstOf selected key limit entries) := by
  have ids : (firstOf selected key limit entries).map Job.id =
      ((entries.filter (selected ·.2)).smallest (key ·.2) limit).map Sigma.fst := by
    simp [firstOf, scanJob]
  have distinct : ((entries.filter (selected ·.2)).map Sigma.fst).Nodup :=
    (jobs.nodupKeys.sublist (List.filter_sublist.trans part))
  refine ⟨⟨?_, ?_, ?_, ?_⟩, ?_⟩
  · rw [ids]
    exact List.nodup_map_smallest distinct
  · intro job chosen
    obtain ⟨entry, held, rfl⟩ := List.mem_map.mp chosen
    obtain ⟨listed, matching⟩ := List.mem_filter.mp (List.mem_of_mem_smallest held)
    refine ⟨getJob_eq_some.mpr ⟨rfl, ?_⟩, matching⟩
    exact AList.mem_lookup_iff.mpr (part.subset listed)
  · exact List.pairwise_map.mpr (List.pairwise_smallest _ limit _)
  · rw [firstOf, List.length_map, List.length_smallest]
    omega
  -- a matching row that was not chosen comes after all that were, and those are as many as allowed
  · intro entry member matching
    have bounded (full : ((entries.filter (selected ·.2)).smallest (key ·.2) limit).length = limit ∧
        ∀ chosen ∈ (entries.filter (selected ·.2)).smallest (key ·.2) limit,
          key chosen.2 ≤ key entry.2) :
        (firstOf selected key limit entries).length = limit ∧
          ∀ job ∈ firstOf selected key limit entries, key job.toJobRow ≤ key entry.2 := by
      refine ⟨by rw [firstOf, List.length_map, full.1], fun job chosen => ?_⟩
      obtain ⟨first, held, rfl⟩ := List.mem_map.mp chosen
      exact full.2 first held
    cases others entry member matching with
    | inr crowd => exact .inr (bounded (List.smallest_of_crowd crowd))
    | inl listed =>
      have considered : entry ∈ entries.filter (selected ·.2) :=
        List.mem_filter.mpr ⟨listed, matching⟩
      cases List.mem_smallest_or (key ·.2) limit considered with
      | inl chosen =>
        rw [ids]
        exact .inl (List.mem_map_of_mem chosen)
      | inr full => exact .inr (bounded full)

end Storage

namespace Verified

/-! ## Whole passes -/

/-- Every call succeeds, and no time passes. -/
def calling (_ : Turn) : Turn.Action → Prop
  | .call reply => reply.succeeds = true
  | .wait _ | .begin _ | .pop => False

/-- Every call succeeds; time may pass. -/
def recovering (_ : Turn) : Turn.Action → Prop
  | .call reply => reply.succeeds = true
  | .wait _ => True
  | .begin _ | .pop => False

instance (t : Turn) : (a : Turn.Action) → Decidable (calling t a)
  | .call _ => inferInstanceAs (Decidable (_ = _))
  | .wait _ | .begin _ | .pop => inferInstanceAs (Decidable False)

/-- One recovery pass leads from the first of these stores to the second. -/
def Pass (cfg : Config) (permitted : Turn → Turn.Action → Prop) (w w' : World) : Prop :=
  (sequence cfg).Reaches permitted ⟨w, .recoverUnqueuedJobs .starting⟩
    ⟨w', .recoverUnqueuedJobs (.pushing [])⟩

/-- That many passes, one right after the other. -/
inductive Passes (cfg : Config) : Nat → World → World → Prop where
  | none {w} : Passes cfg 0 w w
  | more {n w v u} : Passes cfg n w v → Pass cfg calling v u → Passes cfg (n + 1) w u

variable {cfg : Config} {w : World} {jobs : List Job} {permitted : Turn → Turn.Action → Prop}

/-- The stores after the jobs have been pushed in this order. -/
def pushAll (cfg : Config) (jobs : List Job) (w : World) : World :=
  jobs.foldl (fun w job => w.apply (.push job.queue (cfg.uuid.string job.id))) w

theorem table_pushAll (cfg : Config) (jobs : List Job) (w : World) :
    (pushAll cfg jobs w).jobs = w.jobs ∧ (pushAll cfg jobs w).now = w.now := by
  induction jobs generalizing w with
  | nil => exact ⟨rfl, rfl⟩
  | cons job rest inductionHypothesis => exact inductionHypothesis _

theorem contents_pushAll (cfg : Config) (jobs : List Job) (w : World) (queue : String) :
    Queue.contents queue (pushAll cfg jobs w).redis =
      ((jobs.filter (·.queue = queue)).map fun job => cfg.uuid.string job.id).reverse ++
        Queue.contents queue w.redis := by
  induction jobs generalizing w with
  | nil => rfl
  | cons job rest inductionHypothesis =>
    have pushed := Queue.contents_push job.queue queue (cfg.uuid.string job.id) w.redis
    have later := inductionHypothesis (w.apply (.push job.queue (cfg.uuid.string job.id)))
    rw [World.redis_apply] at later
    simp only [pushAll, List.foldl_cons] at later ⊢
    rw [later, pushed]
    by_cases same : job.queue = queue
    · subst same
      simp
    · simp [same, Ne.symm same]

/-- The rows a pass selects in these stores. -/
def Selects (w : World) (jobs : List Job) : Prop :=
  Storage.IsSelection (Storage.pendingUnqueued w.now Scheduler.recoveryAge) JobRow.createdAt 100
    w.jobs jobs

theorem pass_of_selects (permits : ∀ t reply, reply.succeeds = true → permitted t (.call reply))
    (selects : Selects w jobs) : Pass cfg permitted w (pushAll cfg jobs w) := by
  have pushes (jobs : List Job) (w : World) : (sequence cfg).Reaches permitted
      ⟨w, .recoverUnqueuedJobs (.pushing jobs)⟩
      ⟨pushAll cfg jobs w, .recoverUnqueuedJobs (.pushing [])⟩ := by
    induction jobs generalizing w with
    | nil => exact .refl _
    | cons job rest inductionHypothesis =>
      exact ((Transition.System.Reaches.refl _).step (a := .call .ok) (permits _ _ rfl) rfl).trans
        (inductionHypothesis _)
  refine ((Transition.System.Reaches.refl _).step (a := .call (.rows jobs)) (permits _ _ rfl)
    (?_ : _ = some ⟨w, .recoverUnqueuedJobs (.pushing jobs)⟩)).trans (pushes jobs w)
  have found : Scheduler.RecoverUnqueuedJobs.step cfg w .starting (.rows jobs) =
      some (.none, .pushing jobs) := if_pos selects
  simp [sequence, Turn.step, Op.step, found, World.apply]

/-- What a pass with successful calls begins with. -/
theorem selects_of_starting {reply : Reply} {e : Effect} {pc : Scheduler.RecoverUnqueuedJobs}
    (succeeds : reply.succeeds = true)
    (taken : Scheduler.RecoverUnqueuedJobs.step cfg w .starting reply = some (e, pc)) :
    ∃ jobs, Selects w jobs ∧ e = .none ∧ pc = .pushing jobs := by
  cases reply with
  | rows jobs =>
    simp only [Scheduler.RecoverUnqueuedJobs.step, Option.ite_none_right_eq_some,
      Option.some.injEq, Prod.mk.injEq] at taken
    obtain ⟨selects, rfl, rfl⟩ := taken
    exact ⟨jobs, selects, rfl, rfl⟩
  | fail | truncated _ => cases succeeds
  | ok | inserted _ | returned _ => cases taken

/-- Every table has an answer to the query. -/
theorem exists_selects (w : World) : ∃ jobs, Selects w jobs :=
  ⟨_, Storage.isSelection_firstOf (List.Sublist.refl _) fun _ member _ => .inl member⟩

/-- Where a row matches, the answer is not empty. -/
theorem Selects.ne_nil (selects : Selects w jobs) {id : Uuid} {row : JobRow}
    (present : w.row id = some row)
    (matching : Storage.pendingUnqueued w.now Scheduler.recoveryAge row = true) : jobs ≠ [] := by
  rintro rfl
  have listed : (⟨id, row⟩ : Sigma fun _ : Uuid => JobRow) ∈ w.jobs.entries :=
    AList.mem_lookup_iff.mp present
  obtain chosen | ⟨full, _⟩ := selects.2 _ listed matching
  · cases chosen
  · cases full

/-! ## Repeated passes -/

/-- A pass pushes no identifier that is in its list, a second one leaves every list as the first,
and no number of further ones makes a list longer. -/
structure RecoversUnqueued (cfg : Config) (w : World) : Prop where
  unqueued : ∀ v job rest,
    (sequence cfg).Reaches calling ⟨w, .recoverUnqueuedJobs .starting⟩
      ⟨v, .recoverUnqueuedJobs (.pushing (job :: rest))⟩ →
    cfg.uuid.string job.id ∉ Queue.contents job.queue v.redis
  idempotent : ∀ w' w'', Pass cfg calling w w' → Pass cfg calling w' w'' →
    ∀ queue, Queue.contents queue w''.redis = Queue.contents queue w'.redis
  bounded : ∀ n w' w'', Pass cfg calling w w' → Passes cfg n w' w'' →
    ∀ queue, (Queue.contents queue w''.redis).length ≤ (Queue.contents queue w'.redis).length

/-- No row counts as pending and not queued. -/
def NoneUnqueued (w : World) : Prop :=
  ∀ id row, w.row id = some row → Storage.pendingUnqueued w.now Scheduler.recoveryAge row = false

/-- Without a matching row a pass does nothing. -/
theorem idle_of_noneUnqueued (none : NoneUnqueued w) {t : Turn}
    (reaches : (sequence cfg).Reaches calling ⟨w, .recoverUnqueuedJobs .starting⟩ t) :
    t.world = w ∧
      (t.op = .recoverUnqueuedJobs .starting ∨ t.op = .recoverUnqueuedJobs (.pushing [])) := by
  refine reaches.invariant (P := fun t => t.world = w ∧
    (t.op = .recoverUnqueuedJobs .starting ∨ t.op = .recoverUnqueuedJobs (.pushing []))) ?_
    ⟨rfl, .inl rfl⟩
  rintro ⟨v, op⟩ a u allowed taken ⟨rfl, place⟩
  cases a with
  | wait _ | begin _ | pop => exact allowed.elim
  | call reply =>
    obtain ⟨⟨e, op'⟩, inner, rfl⟩ := Option.map_eq_some_iff.mp taken
    obtain rfl | rfl := place
    · obtain ⟨⟨_, pc⟩, selected, equal⟩ := Option.map_eq_some_iff.mp inner
      cases equal
      obtain ⟨jobs, selects, rfl, rfl⟩ := selects_of_starting allowed selected
      cases jobs with
      | nil => exact ⟨rfl, .inr rfl⟩
      -- a selected row would match
      | cons job rest =>
        obtain ⟨found, matching⟩ := selects.1.2.1 job List.mem_cons_self
        rw [none job.id _ (World.getJob_eq_some.mp found).2] at matching
        cases matching
    · cases (Op.step_cases inner).not_ended

theorem eq_of_pass (none : NoneUnqueued w) {w' : World} (pass : Pass cfg calling w w') : w' = w :=
  (idle_of_noneUnqueued none pass).1

theorem eq_of_passes (idle : NoneUnqueued w) {n : Nat} {w' : World}
    (passes : Passes cfg n w w') : w' = w := by
  induction passes with
  | none => rfl
  | more _ last inductionHypothesis =>
    obtain rfl := inductionHypothesis idle
    exact eq_of_pass idle last

/-- Recovery passes push only what is not queued, and can be repeated, exactly where they have
nothing to push. -/
theorem recoversUnqueued_iff (cfg : Config) (w : World) : RecoversUnqueued cfg w ↔ NoneUnqueued w := by
  constructor
  · intro recovers id row present
    by_contra matching
    rw [Bool.not_eq_false] at matching
    have permits (t : Turn) (reply : Reply) (succeeds : reply.succeeds = true) :
        calling t (.call reply) := succeeds
    obtain ⟨first, selects⟩ := exists_selects w
    -- the rows are still there, so the second pass pushes the head of its selection once more
    obtain ⟨second, selects'⟩ := exists_selects (pushAll cfg first w)
    obtain ⟨table, now⟩ := table_pushAll cfg first w
    have present' : (pushAll cfg first w).row id = some row := by
      rw [World.row, table]
      exact present
    obtain ⟨job, rest, rfl⟩ := List.exists_cons_of_ne_nil
      (selects'.ne_nil present' (by rw [now]; exact matching))
    have same := recovers.idempotent _ _ (pass_of_selects permits selects)
      (pass_of_selects permits selects') job.queue
    have longer := congrArg List.length same
    rw [contents_pushAll] at longer
    simp at longer
    omega
  · intro none
    refine ⟨?_, ?_, ?_⟩
    · intro v job rest reaches
      obtain ⟨_, place | place⟩ := idle_of_noneUnqueued none reaches <;> cases place
    · intro w' w'' pass pass' queue
      obtain rfl := eq_of_pass none pass
      rw [eq_of_pass none pass']
    · intro n w' w'' pass passes queue
      obtain rfl := eq_of_pass none pass
      rw [eq_of_passes none passes]

/-- A job waits in its list for six seconds. -/
def waitingJobRun : List Action :=
  [.begin (.createJob (some Cmd.request)), .run 0 (.inserted 1), .run 0 .ok, .tick 6000000000]

/-- The calls of a recovery pass over the one job of the table. -/
def passCalls (w : World) : List Turn.Action :=
  [.call (.rows (Storage.getJob 1 w.jobs).toList), .call .ok]

/-- The stores after a pass that makes these calls. -/
def afterPass (w : World) : Option World :=
  ((sequence Cmd.mainConfig).exec calling ⟨w, .recoverUnqueuedJobs .starting⟩ (passCalls w)).bind
    fun t => if t.op = .recoverUnqueuedJobs (.pushing []) then some t.world else none

theorem pass_of_afterPass {w w' : World} (evaluated : afterPass w = some w') :
    Pass Cmd.mainConfig calling w w' := by
  obtain ⟨t, executed, ended⟩ := Option.bind_eq_some_iff.mp evaluated
  simp only [Option.ite_none_right_eq_some, Option.some.injEq] at ended
  obtain ⟨finished, rfl⟩ := ended
  have reaches := Transition.System.reaches_of_exec executed
  rw [show t = ⟨t.world, .recoverUnqueuedJobs (.pushing [])⟩ by rw [← finished]] at reaches
  exact reaches

/-- A job that is in its list is pushed again by every pass. -/
theorem waitingJobRun_pushed_again : ∃ s w' w'', (system Cmd.mainConfig).Reachable anyAction s ∧
    Pass Cmd.mainConfig calling s.world w' ∧ Pass Cmd.mainConfig calling w' w'' ∧
    Queue.contents "default" s.world.redis = [Cmd.mainConfig.uuid.string 1] ∧
    Queue.contents "default" w'.redis = List.replicate 2 (Cmd.mainConfig.uuid.string 1) ∧
    Queue.contents "default" w''.redis = List.replicate 3 (Cmd.mainConfig.uuid.string 1) := by
  have ⟨s, reachable, waiting, evaluated⟩ : ∃ s, (system Cmd.mainConfig).Reachable anyAction s ∧
      Queue.contents "default" s.world.redis = [Cmd.mainConfig.uuid.string 1] ∧
      (afterPass s.world).any (fun w' =>
        decide (Queue.contents "default" w'.redis =
          List.replicate 2 (Cmd.mainConfig.uuid.string 1)) &&
        (afterPass w').any fun w'' => decide (Queue.contents "default" w''.redis =
          List.replicate 3 (Cmd.mainConfig.uuid.string 1))) = true :=
    Transition.System.exists_reachable_of_exec waitingJobRun Cmd.initial_initialState (by decide)
  simp only [Option.any_eq_true, Bool.and_eq_true, decide_eq_true_eq] at evaluated
  obtain ⟨w', first, twice, w'', second, thrice⟩ := evaluated
  exact ⟨s, w', w'', reachable, pass_of_afterPass first, pass_of_afterPass second, waiting, twice,
    thrice⟩

/-! ## Rows that no pass reaches -/

/-- That many passes, one after the other, while time goes on. -/
inductive PassesInTime (cfg : Config) : Nat → World → World → Prop where
  | none {w : World} : PassesInTime cfg 0 w w
  | more {n : Nat} {w v u : World} : PassesInTime cfg n w v → Pass cfg recovering v u → v.now < u.now →
      PassesInTime cfg (n + 1) w u

/-- The rows a pass may select before this one: those that match and are no younger. -/
def older (w : World) (id : Uuid) (row : JobRow) : List (Sigma fun _ : Uuid => JobRow) :=
  w.jobs.entries.filter fun entry => entry.1 ≠ id ∧
    Storage.pendingUnqueued w.now Scheduler.recoveryAge entry.2 = true ∧
    entry.2.createdAt ≤ row.createdAt

theorem pendingUnqueued_mono {now now' : Time} {row : JobRow} (later : now ≤ now')
    (matching : Storage.pendingUnqueued now Scheduler.recoveryAge row = true) :
    Storage.pendingUnqueued now' Scheduler.recoveryAge row = true := by
  simp only [Storage.pendingUnqueued, Bool.and_eq_true, decide_eq_true_eq] at matching ⊢
  exact ⟨matching.1, lt_of_lt_of_le matching.2 (timestamptz_mono (Int.sub_le_sub_right later _))⟩

/-- A row that is no younger than one which matches, and matches at some time, matches then. -/
theorem pendingUnqueued_of_older {now now' : Time} {row row' : JobRow}
    (matching : Storage.pendingUnqueued now Scheduler.recoveryAge row = true)
    (matching' : Storage.pendingUnqueued now' Scheduler.recoveryAge row' = true)
    (first : row'.createdAt ≤ row.createdAt) :
    Storage.pendingUnqueued now Scheduler.recoveryAge row' = true := by
  simp only [Storage.pendingUnqueued, Bool.and_eq_true, decide_eq_true_eq] at matching matching' ⊢
  exact ⟨matching'.1, lt_of_le_of_lt first matching.2⟩

section Reached

variable {id : Uuid} {row : JobRow} {v : World}

/-- A selection that leaves out a matching row is full of rows that are no younger. -/
theorem older_of_left_out (same : v.jobs = w.jobs) (selects : Selects v jobs)
    (present : w.row id = some row) (later : w.now ≤ v.now)
    (matching : Storage.pendingUnqueued w.now Scheduler.recoveryAge row = true)
    (left : id ∉ jobs.map Job.id) : 100 ≤ (older w id row).length := by
  have listed : (⟨id, row⟩ : Sigma fun _ : Uuid => JobRow) ∈ v.jobs.entries := by
    rw [same]
    exact AList.mem_lookup_iff.mp present
  obtain ⟨⟨distinct, chosen, -, -⟩, complete⟩ := selects
  obtain ⟨full, first⟩ := (complete _ listed (pendingUnqueued_mono later matching)).resolve_left left
  have injective : (jobs.map fun job => (⟨job.id, job.toJobRow⟩ : Sigma fun _ : Uuid => JobRow)).Nodup :=
    List.Nodup.of_map Sigma.fst (by rw [List.map_map]; exact distinct)
  have within : (jobs.map fun job => (⟨job.id, job.toJobRow⟩ : Sigma fun _ : Uuid => JobRow)) ⊆
      older w id row := by
    intro entry member
    obtain ⟨job, held, rfl⟩ := List.mem_map.mp member
    obtain ⟨found, matches'⟩ := chosen job held
    refine List.mem_filter.mpr ⟨?_, ?_⟩
    · rw [← same]
      exact AList.mem_lookup_iff.mp (Storage.getJob_eq_some.mp found).2
    · simp only [decide_eq_true_eq]
      refine ⟨fun equal => left (List.mem_map.mpr ⟨job, held, equal⟩), ?_, first job held⟩
      exact pendingUnqueued_of_older matching matches' (first job held)
  have bound := (List.subperm_of_subset injective within).length_le
  rw [List.length_map, full] at bound
  exact bound

/-- The identifier is in its list, or the pass is going to push it. -/
def Reaching (cfg : Config) (w : World) (id : Uuid) (row : JobRow) (t : Turn) : Prop :=
  t.world.jobs = w.jobs ∧ w.now ≤ t.world.now ∧
    (cfg.uuid.string id ∈ Queue.contents row.queue t.world.redis ∨
      (t.op = .recoverUnqueuedJobs .starting ∧ (older w id row).length < 100) ∨
      ∃ jobs, t.op = .recoverUnqueuedJobs (.pushing jobs) ∧
        ∃ job ∈ jobs, job.id = id ∧ job.queue = row.queue)

/-- A row with few older ones is among those that a pass selects. -/
theorem Reaching.selects {v : World} {jobs : List Job}
    (reaching : Reaching cfg w id row ⟨v, .recoverUnqueuedJobs .starting⟩)
    (present : w.row id = some row)
    (matching : Storage.pendingUnqueued w.now Scheduler.recoveryAge row = true)
    (selects : Selects v jobs) : Reaching cfg w id row ⟨v, .recoverUnqueuedJobs (.pushing jobs)⟩ := by
  obtain ⟨same, later, place⟩ := reaching
  refine ⟨same, later, ?_⟩
  obtain listed | ⟨_, few⟩ | ⟨_, elsewhere, _⟩ := place
  · exact .inl listed
  · have chosen : id ∈ jobs.map Job.id := by
      by_contra left
      have many := older_of_left_out same selects present later matching left
      omega
    obtain ⟨job, held, rfl⟩ := List.mem_map.mp chosen
    obtain ⟨_, stored⟩ := Storage.getJob_eq_some.mp (selects.1.2.1 job held).1
    rw [same, ← World.row, present, Option.some.injEq] at stored
    exact .inr (.inr ⟨jobs, rfl, job, held, rfl, by rw [stored]⟩)
  · cases elsewhere

/-- A push takes the row's identifier to its list or leaves it in the batch. -/
theorem Reaching.pushes {v : World} {job : Job} {rest : List Job}
    (reaching : Reaching cfg w id row ⟨v, .recoverUnqueuedJobs (.pushing (job :: rest))⟩) :
    Reaching cfg w id row ⟨v.apply (.push job.queue (cfg.uuid.string job.id)),
      .recoverUnqueuedJobs (.pushing rest)⟩ := by
  obtain ⟨same, later, place⟩ := reaching
  refine ⟨same, later, ?_⟩
  have pushed := Queue.contents_push job.queue row.queue (cfg.uuid.string job.id) v.redis
  simp only [World.redis_apply, pushed]
  obtain listed | ⟨elsewhere, _⟩ | ⟨_, here, target, held, rfl, queue⟩ := place
  · left
    split
    case isTrue equal => exact List.mem_cons_of_mem _ (equal ▸ listed)
    case isFalse => exact listed
  · cases elsewhere
  · cases here
    obtain rfl | held := List.mem_cons.mp held
    · left
      rw [if_pos queue.symm]
      exact List.mem_cons_self
    · exact .inr (.inr ⟨rest, rfl, target, held, rfl, queue⟩)

theorem Reaching.step {t u : Turn} {a : Turn.Action} (reaching : Reaching cfg w id row t)
    (present : w.row id = some row)
    (matching : Storage.pendingUnqueued w.now Scheduler.recoveryAge row = true)
    (started : ∃ pc, t.op = .recoverUnqueuedJobs pc) (allowed : recovering t a)
    (taken : (sequence cfg).step t a = some u) :
    Reaching cfg w id row u ∧ ∃ pc, u.op = .recoverUnqueuedJobs pc := by
  obtain ⟨v, op⟩ := t
  obtain ⟨pc, rfl⟩ := started
  cases a with
  | begin _ | pop => exact allowed.elim
  | wait elapsed =>
    cases taken
    obtain ⟨same, later, place⟩ := reaching
    exact ⟨⟨same, later.trans (Int.le_add_of_nonneg_right (Int.natCast_nonneg elapsed)), place⟩, pc, rfl⟩
  | call reply =>
    obtain ⟨⟨e, op'⟩, inner, rfl⟩ := Option.map_eq_some_iff.mp taken
    obtain ⟨⟨_, pc'⟩, selected, equal⟩ := Option.map_eq_some_iff.mp inner
    cases equal
    refine ⟨?_, pc', rfl⟩
    cases pc with
    | starting =>
      obtain ⟨jobs, selects, rfl, rfl⟩ := selects_of_starting allowed selected
      exact reaching.selects present matching selects
    | pushing jobs =>
      cases jobs with
      | nil => cases (Op.step_cases inner).not_ended
      | cons job rest =>
        cases reply with
        | ok => cases selected; exact reaching.pushes
        | fail => cases allowed
        | inserted _ | rows _ | truncated _ | returned _ => cases selected

/-- A pass over a table that has few older rows brings the identifier to its list. -/
theorem listed_of_pass {u : World} (present : w.row id = some row)
    (matching : Storage.pendingUnqueued w.now Scheduler.recoveryAge row = true)
    (few : cfg.uuid.string id ∉ Queue.contents row.queue w.redis → (older w id row).length < 100)
    (pass : Pass cfg recovering w u) : cfg.uuid.string id ∈ Queue.contents row.queue u.redis := by
  have start : Reaching cfg w id row ⟨w, .recoverUnqueuedJobs .starting⟩ := by
    refine ⟨rfl, le_refl _, ?_⟩
    by_cases listed : cfg.uuid.string id ∈ Queue.contents row.queue w.redis
    · exact .inl listed
    · exact .inr (.inl ⟨rfl, few listed⟩)
  have after := pass.invariant
    (P := fun t => Reaching cfg w id row t ∧ ∃ pc, t.op = .recoverUnqueuedJobs pc)
    (fun allowed taken held => held.1.step present matching held.2 allowed taken) ⟨start, _, rfl⟩
  obtain ⟨⟨_, _, listed | ⟨starting, _⟩ | ⟨jobs, pushing, job, held, _⟩⟩, _⟩ := after
  · exact listed
  · cases starting
  · cases pushing
    cases held

/-- The rows before this one are still there later on. -/
theorem length_older_le (same : v.jobs = w.jobs) (later : w.now ≤ v.now) :
    (older w id row).length ≤ (older v id row).length := by
  rw [older, older, same]
  refine (List.monotone_filter_right w.jobs.entries fun entry before => ?_).length_le
  simp only [decide_eq_true_eq] at before ⊢
  exact ⟨before.1, pendingUnqueued_mono later before.2.1, before.2.2⟩

/-- With a hundred rows before it, the row may be left out. -/
theorem exists_selects_without (present : w.row id = some row)
    (crowd : 100 ≤ (older w id row).length) : ∃ jobs, Selects w jobs ∧ id ∉ jobs.map Job.id := by
  have part : (w.jobs.entries.filter (·.1 ≠ id)).Sublist w.jobs.entries := List.filter_sublist
  refine ⟨_, Storage.isSelection_firstOf part fun entry member matching => ?_, ?_⟩
  · by_cases own : entry.1 = id
    · right
      obtain ⟨id', row'⟩ := entry
      obtain rfl : id' = id := own
      obtain rfl : row' = row :=
        Option.some.inj ((AList.mem_lookup_iff.mpr member).symm.trans present)
      rw [List.filter_filter, List.filter_filter]
      refine crowd.trans (le_of_eq (congrArg List.length (List.filter_congr fun entry _ => ?_)))
      simp [Bool.and_comm]
    · exact .inl (List.mem_filter.mpr ⟨member, by simpa using own⟩)
  · simp only [Storage.firstOf, List.map_map, List.mem_map, not_exists, not_and]
    rintro entry chosen rfl
    have other := (List.mem_filter.mp (List.mem_filter.mp (List.mem_of_mem_smallest chosen)).1).2
    simp [Storage.scanJob] at other

/-- With a hundred rows before it, the passes can go on without ever reaching the row. -/
theorem exists_passes_unlisted (present : w.row id = some row)
    (crowd : 100 ≤ (older w id row).length)
    (unlisted : cfg.uuid.string id ∉ Queue.contents row.queue w.redis) (k : Nat) :
    ∃ u, PassesInTime cfg k w u ∧ u.jobs = w.jobs ∧ w.now ≤ u.now ∧
      cfg.uuid.string id ∉ Queue.contents row.queue u.redis := by
  induction k with
  | zero => exact ⟨w, .none, rfl, le_refl _, unlisted⟩
  | succ k inductionHypothesis =>
    obtain ⟨v, passes, table, later, unlisted⟩ := inductionHypothesis
    have present' : v.row id = some row := by
      rw [World.row, table]
      exact present
    -- the hundred rows before it are pushed again, and keep their place for the next pass
    obtain ⟨jobs, selects, left⟩ :=
      exists_selects_without present' (crowd.trans (length_older_le table later))
    obtain ⟨table', now'⟩ := table_pushAll cfg jobs v
    have pass : Pass cfg recovering v (pushAll cfg jobs v) :=
      pass_of_selects (fun _ _ succeeds => succeeds) selects
    refine ⟨{ pushAll cfg jobs v with now := (pushAll cfg jobs v).now + 1 },
      .more passes (pass.step (a := .wait 1) trivial rfl) ?_, table'.trans table, ?_, ?_⟩
    · simp only [now']
      exact Int.lt_succ v.now
    · simp only [now']
      exact later.trans (Int.le_add_one (le_refl _))
    · show cfg.uuid.string id ∉ Queue.contents row.queue (pushAll cfg jobs v).redis
      rw [contents_pushAll, List.mem_append, List.mem_reverse, List.mem_map]
      rintro (⟨job, held, text⟩ | listed)
      · obtain rfl := cfg.uuid.string_injective text
        exact left (List.mem_map_of_mem (List.mem_filter.mp held).1)
      · exact unlisted listed

end Reached

/-- After `k` passes every row that counted as pending and not queued is in its list. -/
def RecoveredAfter (cfg : Config) (w : World) (k : Nat) : Prop :=
  ∀ u, PassesInTime cfg k w u → ∀ id row, w.row id = some row →
    Storage.pendingUnqueued w.now Scheduler.recoveryAge row = true →
    cfg.uuid.string id ∈ Queue.contents row.queue u.redis

/-- Some number of passes reaches every lost job exactly where none of them has a hundred rows
before it. -/
theorem recovery_reaches_iff (cfg : Config) (w : World) :
    (∃ k, RecoveredAfter cfg w k) ↔ ∀ id row, w.row id = some row →
      Storage.pendingUnqueued w.now Scheduler.recoveryAge row = true →
      cfg.uuid.string id ∉ Queue.contents row.queue w.redis → (older w id row).length < 100 := by
  constructor
  · rintro ⟨k, recovered⟩ id row present matching unlisted
    by_contra crowd
    obtain ⟨u, passes, _, _, left⟩ := exists_passes_unlisted present (not_lt.mp crowd) unlisted k
    exact left (recovered u passes id row present matching)
  · intro few
    refine ⟨1, fun u passes id row present matching => ?_⟩
    cases passes with
    | more none pass _ =>
      cases none
      exact listed_of_pass present matching (few id row present matching) pass

/-- While Redis is down this many jobs are created and none is pushed; six seconds pass. -/
def lostRun (n : Nat) : List Action :=
  (List.range n).flatMap (fun i =>
    [.begin (.createJob (some Cmd.request)), .run i (.inserted (BitVec.ofNat 128 i)), .run i .fail]) ++
    [.tick 6000000000]

set_option maxRecDepth 20000 in
/-- One of 101 lost jobs is never pushed, however many passes there are. -/
theorem lostRun_unreached : ∃ s, (system Cmd.mainConfig).Reachable anyAction s ∧
    ¬ ∃ k, RecoveredAfter Cmd.mainConfig s.world k := by
  have ⟨s, reachable, evaluated⟩ : ∃ s, (system Cmd.mainConfig).Reachable anyAction s ∧
      (s.world.row 0).any (fun row => decide (100 ≤ (older s.world 0 row).length ∧
        Storage.pendingUnqueued s.world.now Scheduler.recoveryAge row = true ∧
        Cmd.mainConfig.uuid.string 0 ∉ Queue.contents row.queue s.world.redis)) = true :=
    Transition.System.exists_reachable_of_exec (lostRun 101) Cmd.initial_initialState
      (by decide +kernel)
  simp only [Option.any_eq_true, decide_eq_true_eq] at evaluated
  obtain ⟨row, present, crowd, matching, unlisted⟩ := evaluated
  refine ⟨s, reachable, ?_⟩
  rintro ⟨k, recovered⟩
  obtain ⟨u, passes, _, _, left⟩ := exists_passes_unlisted present crowd unlisted k
  exact left (recovered u passes 0 row present matching)

end Verified

end GoQueue
