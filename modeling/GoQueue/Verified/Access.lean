import GoQueue.Api.Router
import GoQueue.Dashboard.Wire
import GoQueue.Verified.Ledger

/-! # Who can do what over HTTP

Without the API key nothing can be created, cancelled, retried or deleted, whatever is requested
and whatever the workers and the scheduler do meanwhile.  But the page of the dashboard, which
needs no key, carries it, and so one request is enough to obtain it.
-/

namespace GoQueue.Verified

open Api

variable {cfg : Config} {apiKey : String}

/-! ## Requests -/

def isRequest : Task → Bool
  | .createJob _ | .cancelJob _ | .retryJob _ | .deleteJob _ => true
  | .processScheduledJobs | .recoverUnqueuedJobs | .recoverStaleJobs => false

/-- A task begins that the scheduler has started or that a request without the key has led to. -/
def keyless (apiKey : String) (_ : State) : Action → Prop
  | .begin task => isRequest task = false ∨
      ∃ r : HttpRequest, r.apiKey ≠ apiKey ∧ (newRouter apiKey r).task r = some task
  | .tick _ | .pop | .run _ _ => True

theorem dispatch_cases (routes : List Route) (r : HttpRequest) (path : List String) :
    dispatch routes r path = .notFound ∨ dispatch routes r path = .methodNotAllowed ∨
      ∃ route ∈ routes, ∃ params, matchPath route.pattern path = some params ∧
        dispatch routes r path = route.endpoint params := by
  simp only [dispatch]
  split
  case h_1 method endpoint found =>
    obtain ⟨route, listed, made⟩ := List.mem_filterMap.mp (List.mem_of_find?_eq_some found)
    obtain ⟨params, matched, equal⟩ := Option.map_eq_some_iff.mp made
    cases equal
    exact .inr (.inr ⟨route, listed, params, matched, rfl⟩)
  case h_2 =>
    split
    · exact .inl rfl
    · exact .inr (.inl rfl)

theorem task_rootRoutes (r : HttpRequest) (path : List String) :
    (dispatch rootRoutes r path).task r = none := by
  have reads : ∀ route ∈ rootRoutes, ∀ params, (route.endpoint params).task r = none := by
    simp [rootRoutes, Route.plain, Route.withParam, Endpoint.task]
  obtain missing | refused | ⟨route, listed, params, -, found⟩ := dispatch_cases rootRoutes r path
  · rw [missing]
    rfl
  · rw [refused]
    rfl
  · rw [found]
    exact reads route listed params

/-- No request without the key gets to a handler that writes. -/
theorem task_keyless {r : HttpRequest} (other : r.apiKey ≠ apiKey) :
    (newRouter apiKey r).task r = none := by
  unfold newRouter
  split
  · simp [apiKeyAuth, other, Endpoint.task]
  · exact task_rootRoutes r _

/-! ## Runs -/

/-- A request is being handled. -/
def fromRequest : Op → Bool
  | .createJob (.responded _) | .cancelJob (.responded _) | .retryJob (.responded _)
  | .deleteJob (.responded _) => false
  | .createJob _ | .cancelJob _ | .retryJob _ | .deleteJob _ => true
  | .processJob _ | .processScheduledJobs _ | .recoverUnqueuedJobs _ | .recoverStaleJobs _ => false

/-- No job is added or removed, and none is cancelled. -/
structure Preserves (w w' : World) : Prop where
  inserted : w'.inserted = w.inserted
  kept : ∀ id, (w.row id).isSome → (w'.row id).isSome
  cancelled : ∀ id row', w'.row id = some row' → row'.status = .cancelled →
    ∃ row, w.row id = some row ∧ row.status = .cancelled

theorem Preserves.of_tables {w w' : World} (inserted : w'.inserted = w.inserted)
    (jobs : w'.jobs = w.jobs) : Preserves w w' := by
  have rows (id : Uuid) : w'.row id = w.row id := by rw [World.row, World.row, jobs]
  refine ⟨inserted, fun id present => by rwa [rows], fun id row present cancelled => ?_⟩
  exact ⟨row, rows id ▸ present, cancelled⟩

theorem Preserves.trans {w w' w'' : World} (first : Preserves w w') (second : Preserves w' w'') :
    Preserves w w'' where
  inserted := second.inserted.trans first.inserted
  kept id present := second.kept id (first.kept id present)
  cancelled id row'' present cancelled := by
    obtain ⟨row', present', cancelled'⟩ := second.cancelled id row'' present cancelled
    exact first.cancelled id row' present' cancelled'

/-- What the workers and the scheduler do to the stores. -/
def Internal : Effect → Prop
  | .insert _ _ | .delete _ => False
  | .setStatus _ status | .setError _ status _ _ => status ≠ .cancelled
  | .none | .push _ _ | .schedule _ _ | .takeDue | .record _ _ => True

theorem internal_of_step {w : World} {op op' : Op} {reply : Reply} {e : Effect}
    (step : Op.Step cfg w op reply e op') (own : fromRequest op = false) :
    fromRequest op' = false ∧ Internal e := by
  cases step with
  | createJob step | cancelJob step | retryJob step | deleteJob step => cases step <;> cases own
  | processJob step | processScheduledJobs step | recoverUnqueuedJobs step
  | recoverStaleJobs step => cases step <;> exact ⟨rfl, by simp [Internal]⟩

theorem preserves_apply (w : World) {e : Effect} (internal : Internal e) :
    Preserves w (w.apply e) where
  inserted := by cases e <;> first | rfl | cases internal
  kept id present := by
    rw [World.row_apply]
    cases e with
    | insert _ _ | delete _ => cases internal
    | setStatus _ _ | setError _ _ _ _ =>
      simp only [Effect.onRow]
      split <;> simpa using present
    | none | push _ _ | schedule _ _ | takeDue | record _ _ => exact present
  cancelled id row' present cancelled := by
    cases written_of_row present with
    | inserted => cases internal
    | status _ => exact absurd cancelled internal
    | error _ => exact absurd cancelled internal
    | kept found => exact ⟨row', found, cancelled⟩

theorem preserves_of_step {s t : State} {a : Action} (allowed : keyless apiKey s a)
    (step : State.Step cfg s a t) (own : ∀ op ∈ s.ops, fromRequest op = false) :
    (∀ op ∈ t.ops, fromRequest op = false) ∧ Preserves s.world t.world := by
  cases step with
  | tick => exact ⟨own, .of_tables rfl rfl⟩
  | @begin task =>
    refine ⟨fun op running => ?_, .of_tables rfl rfl⟩
    obtain running | started := List.mem_append.mp running
    · exact own op running
    · rw [List.mem_singleton.mp started]
      obtain internal | ⟨r, other, begun⟩ := allowed
      · cases task <;> first | rfl | cases internal
      · rw [task_keyless other] at begun
        cases begun
  | popped _ =>
    refine ⟨fun op running => ?_, .of_tables rfl rfl⟩
    obtain running | started := List.mem_append.mp running
    · exact own op running
    · rw [List.mem_singleton.mp started]
      rfl
  | @run before op after reply e op' split inner =>
    obtain ⟨own', internal⟩ := internal_of_step inner (own op (by simp [split]))
    refine ⟨fun other running => ?_, preserves_apply s.world internal⟩
    simp only [List.mem_append, List.mem_cons] at running
    obtain running | rfl | running := running
    · exact own other (by simp [split, running])
    · exact own'
    · exact own other (by simp [split, running])

/-! ## What the key is worth -/

/-- What a path can ask for: an identifier is a segment of it, and the one at its end is not empty. -/
def requestable : Task → Prop
  | .createJob _ => True
  | .cancelJob id | .retryJob id => '/' ∉ id.toList
  | .deleteJob id => id ≠ "" ∧ '/' ∉ id.toList
  | .processScheduledJobs | .recoverUnqueuedJobs | .recoverStaleJobs => False

theorem mem_of_matchPath {pattern : List Segment} {path params : List String}
    (matched : matchPath pattern path = some params) : ∀ param ∈ params, param ∈ path := by
  fun_induction matchPath pattern path generalizing params with
  | case1 | case2 => simp_all
  | case3 name pattern path inductionHypothesis =>
    intro param held
    exact List.mem_cons_of_mem _ (inductionHypothesis matched param held)
  | case4 | case5 | case7 => cases matched
  | case6 pattern segment path _ inductionHypothesis =>
    obtain ⟨params, rest, rfl⟩ := Option.map_eq_some_iff.mp matched
    exact List.cons_subset_cons segment (inductionHypothesis rest)

theorem filled_of_matchPath {name : String} {path params : List String}
    (matched : matchPath [.static name, .param] path = some params) : params.headD "" ≠ "" := by
  match path with
  | [] | [_] | _ :: _ :: _ :: _ => simp [matchPath] at matched
  | [_, id] =>
    simp only [matchPath, and_true, Option.map_some] at matched
    split at matched
    · split at matched
      · cases matched
      case isFalse filled => cases matched; exact filled
    · cases matched

/-- The tasks to which a path under `/api/v1` leads. -/
theorem task_apiRoutes {r : HttpRequest} {task : Task} : ∀ route ∈ apiRoutes, ∀ params,
    (route.endpoint params).task r = some task →
      task = .createJob r.body ∨ task = .cancelJob (params.headD "") ∨
      task = .retryJob (params.headD "") ∨
      route.pattern = [.static "jobs", .param] ∧ task = .deleteJob (params.headD "") := by
  simp +contextual [apiRoutes, Route.plain, Route.withParam, Endpoint.task, eq_comm]

theorem requestable_of_api {r : HttpRequest} {path : List String} {task : Task}
    (inside : ∀ segment ∈ path, segment ∈ r.path)
    (found : (dispatch apiRoutes r path).task r = some task) : requestable task := by
  obtain missing | refused | ⟨route, listed, params, matched, same⟩ := dispatch_cases apiRoutes r path
  · rw [missing] at found
    cases found
  · rw [refused] at found
    cases found
  · have apart : '/' ∉ (params.headD "").toList := by
      cases params with
      | nil => decide
      | cons param _ => exact r.apart _ (inside _ (mem_of_matchPath matched _ List.mem_cons_self))
    rw [same] at found
    obtain rfl | rfl | rfl | ⟨pattern, rfl⟩ := task_apiRoutes route listed params found
    · trivial
    · exact apart
    · exact apart
    · rw [pattern] at matched
      exact ⟨filled_of_matchPath matched, apart⟩

theorem requestable_of_request {r : HttpRequest} {task : Task}
    (found : (newRouter apiKey r).task r = some task) : requestable task := by
  unfold newRouter at found
  split at found
  case h_1 path split =>
    unfold apiKeyAuth at found
    split at found
    · cases found
    · exact requestable_of_api (fun segment held => by simp [split, held]) found
  case h_2 =>
    rw [task_rootRoutes] at found
    cases found

theorem newRouter_api (method : Method) (path : List String)
    (apart : ∀ segment ∈ "api" :: "v1" :: path, '/' ∉ segment.toList)
    (body : Option CreateJobRequest) :
    newRouter apiKey ⟨method, "api" :: "v1" :: path, apart, apiKey, body⟩ =
      dispatch apiRoutes ⟨method, "api" :: "v1" :: path, apart, apiKey, body⟩ path := by
  simp [newRouter, apiKeyAuth]

theorem request_of_requestable {task : Task} (asked : requestable task) :
    ∃ r : HttpRequest, r.apiKey = apiKey ∧ (newRouter apiKey r).task r = some task := by
  cases task with
  | createJob body =>
    refine ⟨⟨.post, ["api", "v1", "jobs"], by decide, apiKey, body⟩, rfl, ?_⟩
    rw [newRouter_api]
    rfl
  | cancelJob id =>
    refine ⟨⟨.post, ["api", "v1", "jobs", id, "cancel"], ?_, apiKey, none⟩, rfl, ?_⟩
    · simpa [requestable] using asked
    · rw [newRouter_api]
      simp [dispatch, apiRoutes, Route.plain, Route.withParam, matchPath, Endpoint.task]
  | retryJob id =>
    refine ⟨⟨.post, ["api", "v1", "jobs", id, "retry"], ?_, apiKey, none⟩, rfl, ?_⟩
    · simpa [requestable] using asked
    · rw [newRouter_api]
      simp [dispatch, apiRoutes, Route.plain, Route.withParam, matchPath, Endpoint.task]
  | deleteJob id =>
    obtain ⟨filled, apart⟩ := asked
    refine ⟨⟨.delete, ["api", "v1", "jobs", id], ?_, apiKey, none⟩, rfl, ?_⟩
    · simpa using apart
    · rw [newRouter_api]
      simp [dispatch, apiRoutes, Route.plain, Route.withParam, matchPath, Endpoint.task, filled]
  | processScheduledJobs | recoverUnqueuedJobs | recoverStaleJobs => cases asked

/-- Requests without the key change nothing in any run.  A request to the dashboard yields the key,
and with it there is a request for every task that a path can ask for, as there is for no other. -/
theorem key_guards_until_read {s t : State} (own : ∀ op ∈ s.ops, fromRequest op = false)
    (reaches : (system cfg).Reaches (keyless apiKey) s t) :
    ((∀ op ∈ t.ops, fromRequest op = false) ∧ Preserves s.world t.world) ∧
    ∃ r : HttpRequest, r.apiKey = "" ∧ newRouter apiKey r = .dashboardPage ∧
      ∀ (α : Type) (zone : Time → Int) (jobsPool deadPool : Storage.Pool α)
        (queueStats : List Storage.QueueStat × Option String)
        (series : List Storage.TimeSeriesStat × Option String) (task : Task),
        let page := Dashboard.dashboardPage zone apiKey jobsPool deadPool queueStats series
        (∃ r' : HttpRequest, r'.apiKey = page.apiKey ∧
          (newRouter apiKey r').task r' = some task) ↔ requestable task := by
  refine ⟨?_, ⟨.get, ["dashboard"], by decide, "", none⟩, rfl, rfl, ?_⟩
  · refine reaches.invariant (P := fun t => (∀ op ∈ t.ops, fromRequest op = false) ∧
      Preserves s.world t.world) ?_ ⟨own, .of_tables rfl rfl⟩
    rintro t a u allowed taken ⟨own, preserved⟩
    obtain ⟨own', preserved'⟩ := preserves_of_step allowed (State.step_cases taken) own
    exact ⟨own', preserved.trans preserved'⟩
  · intro α zone jobsPool deadPool queueStats series task page
    refine ⟨?_, request_of_requestable⟩
    rintro ⟨r', -, found⟩
    exact requestable_of_request found

theorem key_guards_until_read_created : ∃ s t : State, s.ops ≠ [] ∧
    (system Cmd.mainConfig).Reaches (keyless "key") s t ∧ (t.world.row 1).isSome ∧
    ∃ r : HttpRequest, r.apiKey = "key" ∧ (newRouter "key" r).task r = some (.deleteJob "1") := by
  have ⟨s, reachable, own, present⟩ : ∃ s, (system Cmd.mainConfig).Reachable anyAction s ∧
      (s.ops ≠ [] ∧ ∀ op ∈ s.ops, fromRequest op = false) ∧ (s.world.row 1).isSome = true :=
    Transition.System.exists_reachable_of_exec [.begin (.createJob (some Cmd.request)),
      .run 0 (.inserted 1), .run 0 .ok] Cmd.initial_initialState (by decide +kernel)
  have reaches : (system Cmd.mainConfig).Reaches (keyless "key") s
      { s with world := { s.world with now := s.world.now + (1 : Nat) } } :=
    (Transition.System.Reaches.refl s).step (a := .tick 1) trivial rfl
  obtain ⟨⟨-, preserved⟩, -, -, -, known⟩ := key_guards_until_read own.2 reaches
  exact ⟨s, _, own.1, reaches, preserved.kept 1 present,
    (known Nat (fun _ => 0) ⟨fun _ _ => .error "", fun _ _ => .error ""⟩
      ⟨fun _ _ => .error "", fun _ _ => .error ""⟩ ([], none) ([], none) (.deleteJob "1")).mpr
      ⟨by decide, by decide⟩⟩

end GoQueue.Verified
