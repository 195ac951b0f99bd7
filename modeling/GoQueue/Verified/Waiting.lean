import GoQueue.Cmd.Main

/-! # How long a job waits in its queue

`BRPOP` looks at the queues in the order in which the workers list them and takes the oldest
identifier of the first that has one.  So a job waits for all that is ahead of it: the older
identifiers of its own queue, whatever the queues before it hold, and whatever is pushed to those
in the meantime.  It waits for exactly that many pops, and each of the last puts it off by one.
-/

namespace GoQueue.Verified

open Queue

/-- Whether an effect is a push to one of these queues. -/
def pushes (queues : List String) : Effect → Nat
  | .push queue _ => if queue ∈ queues then 1 else 0
  | _ => 0

def pushesIn (cfg : Config) (queues : List String) (s : State) : Action → Nat
  | .run i reply => ((s.ops[i]?.bind fun op => op.step cfg s.world reply).map fun moved =>
      pushes queues moved.1).getD 0
  | .tick _ | .begin _ | .pop => 0

/-- How many identifiers the queues hold. -/
def load (queues : List String) (r : Redis) : Nat :=
  (queues.map fun queue => (contents queue r).length).sum

/-- The identifier is in the queue, with these behind which it waits. -/
def WaitsBehind (queue jobID : String) (older : List String) (r : Redis) : Prop :=
  ∃ newer, contents queue r = newer ++ jobID :: older

/-! ## The queues -/

theorem load_congr {queues : List String} {r r' : Redis}
    (same : ∀ queue ∈ queues, contents queue r' = contents queue r) :
    load queues r' = load queues r := by
  rw [load, load, List.map_congr_left fun queue member => by rw [same queue member]]

/-- One queue of several changes in length. -/
theorem load_add {queues : List String} {queue : String} {r r' : Redis} {n : Nat}
    (distinct : queues.Nodup) (listed : queue ∈ queues)
    (longer : (contents queue r').length = (contents queue r).length + n)
    (others : ∀ queue' ≠ queue, contents queue' r' = contents queue' r) :
    load queues r' = load queues r + n := by
  induction queues with
  | nil => cases listed
  | cons first rest inductionHypothesis =>
    obtain ⟨new, distinct⟩ := List.nodup_cons.mp distinct
    by_cases here : first = queue
    · subst here
      have kept : load rest r' = load rest r := load_congr fun queue' member =>
        others queue' fun same => new (same ▸ member)
      simp only [load, List.map_cons, List.sum_cons] at kept ⊢
      omega
    · have elsewhere := (List.mem_cons.mp listed).resolve_left (Ne.symm here)
      have later := inductionHypothesis distinct elsewhere
      simp only [load, List.map_cons, List.sum_cons, others first here] at later ⊢
      omega

theorem load_eq_zero {queues : List String} {r : Redis}
    (empty : ∀ queue ∈ queues, contents queue r = []) : load queues r = 0 := by
  rw [load, List.sum_eq_zero]
  intro n member
  obtain ⟨queue, listed, rfl⟩ := List.mem_map.mp member
  rw [empty queue listed, List.length_nil]

theorem pop_earliest {queues : List String} {r r' : Redis} {jobID : String}
    (popped : pop queues r = some (jobID, r')) :
    ∃ queue, Earliest r queues queue ∧ Popped r queues queue jobID r' := by
  simp only [pop, Option.map_eq_some_iff, Prod.mk.injEq] at popped
  obtain ⟨⟨key, member, rest⟩, found, rfl, rfl⟩ := popped
  obtain ⟨queue, -, earliest, result⟩ := popped_of_brpop found
  exact ⟨queue, earliest, result⟩

section Waiting

variable {cfg : Config} {above below : List String} {queue jobID : String}
  (order : cfg.queues = above ++ queue :: below) (distinct : cfg.queues.Nodup)

include order distinct

theorem notMem_above : queue ∉ above := by
  rw [order] at distinct
  intro listed
  exact (List.nodup_append.mp distinct).2.2 queue listed queue List.mem_cons_self rfl

omit distinct in
/-- A queue that is not empty hides those below it. -/
theorem earliest_above {r : Redis} {first : String} (earliest : Earliest r cfg.queues first)
    (filled : contents queue r ≠ []) :
    first ∈ above ∨ (first = queue ∧ ∀ queue' ∈ above, contents queue' r = []) := by
  obtain ⟨before, after, split, empty⟩ := earliest
  rw [order, List.append_eq_append_iff] at split
  obtain ⟨between, rfl, rest⟩ | ⟨between, rfl, rest⟩ := split
  · cases between with
    | nil =>
      cases rest
      exact .inr ⟨rfl, fun queue' listed => empty queue' (List.mem_append_left _ listed)⟩
    | cons _ _ =>
      cases rest
      exact absurd (empty queue (by simp)) filled
  · cases between with
    | nil =>
      cases rest
      exact .inr ⟨rfl, fun queue' listed => empty queue' (by simpa using listed)⟩
    | cons _ _ =>
      cases rest
      exact .inl (by simp)

/-- A pop takes from the queues above, or from the queue itself if those are empty. -/
theorem pop_above {older : List String} {r r' : Redis} {popped : String}
    (waits : WaitsBehind queue jobID older r) (taken : pop cfg.queues r = some (popped, r')) :
    (WaitsBehind queue jobID older r' ∧ load above r = load above r' + 1) ∨
    (∃ next rest, older = rest ++ [next] ∧ WaitsBehind queue jobID rest r' ∧
      load above r' = load above r) ∨
    (older = [] ∧ load above r = 0 ∧ popped = jobID) := by
  obtain ⟨first, earliest, result⟩ := pop_earliest taken
  obtain ⟨newer, held⟩ := waits
  have apart := notMem_above order distinct
  obtain listed | ⟨rfl, empty⟩ := earliest_above order earliest (by simp [held])
  · refine .inl ⟨⟨newer, ?_⟩, ?_⟩
    · rw [result.others queue fun same => apart (same ▸ listed), held]
    · refine load_add (order ▸ distinct).of_append_left listed ?_ fun queue' other =>
        (result.others queue' other).symm
      rw [result.last, List.length_append, List.length_singleton]
  · have last := held.symm.trans result.last
    obtain rfl | ⟨rest, next, rfl⟩ := older.eq_nil_or_concat'
    · have same := (List.append_inj' last rfl).2
      exact .inr (.inr ⟨rfl, load_eq_zero empty, (List.cons.inj same).1.symm⟩)
    · refine .inr (.inl ⟨next, rest, rfl, ⟨newer, ?_⟩, ?_⟩)
      · rw [← List.cons_append, ← List.append_assoc] at last
        exact (List.append_inj' last rfl).1.symm
      · exact load_congr fun queue' listed => result.others queue' fun same => apart (same ▸ listed)

/-! ## A step -/

theorem waits_apply {older : List String} {w : World}
    (waits : WaitsBehind queue jobID older w.redis) (e : Effect) :
    WaitsBehind queue jobID older (w.apply e).redis ∧
      load above (w.apply e).redis = load above w.redis + pushes above e := by
  obtain ⟨newer, held⟩ := waits
  cases e with
  | push queue' jobID' =>
    have pushed : (contents queue' (push queue' jobID' w.redis)).length =
        (contents queue' w.redis).length + 1 := by simp [contents_push]
    have others : ∀ other ≠ queue', contents other (push queue' jobID' w.redis) =
        contents other w.redis := fun other apart => by simp [contents_push, apart]
    constructor
    · by_cases same : queue = queue'
      · subst same
        exact ⟨jobID' :: newer, by simp [World.apply, contents_push, held]⟩
      · exact ⟨newer, by rw [← held]; exact others queue same⟩
    · simp only [pushes]
      split
      case isTrue listed =>
        exact load_add (order ▸ distinct).of_append_left listed pushed others
      case isFalse unlisted =>
        exact load_congr fun other listed => others other fun same => unlisted (same ▸ listed)
  | takeDue =>
    have same (queue' : String) : contents queue' (w.apply .takeDue).redis = contents queue' w.redis :=
      contents_getDueJobs queue' w.now w.redis
    exact ⟨⟨newer, (same queue).trans held⟩, load_congr fun queue' _ => same queue'⟩
  | _ => exact ⟨⟨newer, held⟩, rfl⟩

theorem waits_step {s t : State} {a : Action} {older : List String}
    (waits : WaitsBehind queue jobID older s.world.redis) (taken : State.step cfg s a = some t) :
    (∃ older', WaitsBehind queue jobID older' t.world.redis ∧
      [a].count .pop + (older'.length + load above t.world.redis) =
        older.length + load above s.world.redis + pushesIn cfg above s a) ∨
    (a = .pop ∧ older.length + load above s.world.redis = 0 ∧
      t.ops = s.ops ++ [.processJob (.popped jobID)]) := by
  cases a with
  | tick elapsed =>
    cases taken
    exact .inl ⟨older, waits, by simp [pushesIn]⟩
  | begin task =>
    cases taken
    exact .inl ⟨older, waits, by simp [pushesIn]⟩
  | pop =>
    obtain ⟨⟨popped, redis⟩, found, rfl⟩ := Option.map_eq_some_iff.mp taken
    obtain ⟨still, less⟩ | ⟨next, rest, rfl, still, same⟩ | ⟨rfl, none, rfl⟩ :=
      pop_above order distinct waits found
    · exact .inl ⟨older, still, by simp [pushesIn, less]; omega⟩
    · exact .inl ⟨rest, still, by simp [pushesIn, same]; omega⟩
    · exact .inr ⟨rfl, by simp [none], rfl⟩
  | run i reply =>
    obtain ⟨op, found, taken⟩ := Option.bind_eq_some_iff.mp taken
    obtain ⟨⟨e, op'⟩, moves, rest⟩ := Option.bind_eq_some_iff.mp taken
    cases rest
    obtain ⟨still, longer⟩ := waits_apply order distinct waits e
    refine .inl ⟨older, still, ?_⟩
    simp only [pushesIn, found, Option.bind_some, moves, Option.map_some, Option.getD_some]
    rw [longer]
    simp
    omega

/-! ## A run -/

/-- In any run the job is either still waiting, for that many pops more, or it has been popped
after just as many pops as were ahead of it or got there. -/
theorem job_waits_exactly {s t : State} {labels : List Action} {older : List String}
    (waits : WaitsBehind queue jobID older s.world.redis)
    (executed : (system cfg).exec anyAction s labels = some t) :
    (∃ older', WaitsBehind queue jobID older' t.world.redis ∧
      labels.count .pop + (older'.length + load above t.world.redis) =
        older.length + load above s.world.redis +
          (system cfg).tally (pushesIn cfg above) s labels) ∨
    ∃ first rest u v, labels = first ++ .pop :: rest ∧
      (system cfg).exec anyAction s first = some u ∧ State.step cfg u .pop = some v ∧
      v.ops = u.ops ++ [.processJob (.popped jobID)] ∧
      first.count .pop = older.length + load above s.world.redis +
        (system cfg).tally (pushesIn cfg above) s first := by
  induction labels generalizing s older with
  | nil =>
    cases executed
    exact .inl ⟨older, waits, by simp [Transition.System.tally]⟩
  | cons a labels inductionHypothesis =>
    simp only [Transition.System.exec, Option.ite_none_right_eq_some,
      Option.bind_eq_some_iff] at executed
    obtain ⟨-, u, taken, later⟩ := executed
    have moves : (system cfg).step s a = some u := taken
    have pops (labels : List Action) : (a :: labels).count .pop =
        [a].count .pop + labels.count .pop := by rw [← List.count_append, List.singleton_append]
    have pushed (labels : List Action) : (system cfg).tally (pushesIn cfg above) s (a :: labels) =
        pushesIn cfg above s a + (system cfg).tally (pushesIn cfg above) u labels := by
      simp [Transition.System.tally, moves]
    obtain ⟨older', still, balance⟩ | ⟨rfl, none, served⟩ := waits_step order distinct waits taken
    · obtain ⟨older'', waiting, balance'⟩ |
          ⟨first, rest, v, w, rfl, reached, popped, served, balance'⟩ :=
        inductionHypothesis still later
      · refine .inl ⟨older'', waiting, ?_⟩
        rw [pops, pushed]
        omega
      · refine .inr ⟨a :: first, rest, v, w, rfl, ?_, popped, served, ?_⟩
        · simp [Transition.System.exec, moves, reached, anyAction]
        · rw [pops, pushed]
          omega
    · exact .inr ⟨[], labels, s, u, rfl, rfl, taken, served, none.symm⟩

end Waiting

/-- A job is pushed to a queue above and overtakes. -/
def overtaken : List Action :=
  [.begin (.createJob (some Cmd.request)), .run 1 (.inserted 2), .run 1 .ok, .pop, .pop]

theorem job_waits_exactly_overtaken : ∃ s u first rest,
    (system Cmd.mainConfig).Reachable anyAction s ∧
    WaitsBehind "email" (Cmd.mainConfig.uuid.string 1) [] s.world.redis ∧
    overtaken = first ++ .pop :: rest ∧
    (system Cmd.mainConfig).exec anyAction s first = some u ∧
    first.count .pop = load ["default"] s.world.redis +
      (system Cmd.mainConfig).tally (pushesIn Cmd.mainConfig ["default"]) s first := by
  have ⟨s, reachable, held, ends⟩ : ∃ s, (system Cmd.mainConfig).Reachable anyAction s ∧
      contents "email" s.world.redis = [Cmd.mainConfig.uuid.string 1] ∧
      (Cmd.runFrom s overtaken).any (fun t => contents "email" t.world.redis = []) = true :=
    Transition.System.exists_reachable_of_exec
      [.begin (.createJob (some { Cmd.request with queue := "email" })), .run 0 (.inserted 1),
        .run 0 .ok] Cmd.initial_initialState (by decide +kernel)
  simp only [Option.any_eq_true, decide_eq_true_eq] at ends
  obtain ⟨t, executed, gone⟩ := ends
  have order : Cmd.mainConfig.queues = ["default"] ++ "email" :: ["notification", "report"] := rfl
  have waits : WaitsBehind "email" (Cmd.mainConfig.uuid.string 1) [] s.world.redis := ⟨[], held⟩
  obtain ⟨older, ⟨newer, still⟩, -⟩ | ⟨first, rest, u, v, split, reached, -, -, exactly⟩ :=
    job_waits_exactly order (by decide) waits executed
  · rw [gone] at still
    simp at still
  · exact ⟨s, u, first, rest, reachable, waits, split, reached, by simpa using exactly⟩

end GoQueue.Verified
