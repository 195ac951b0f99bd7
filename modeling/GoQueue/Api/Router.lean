import GoQueue.System.State

/-! # Routes and the API key

`NewRouter` of `internal/api/router.go` and `APIKeyAuth` of `internal/api/middleware.go`.  A path is
given by what stands between its slashes.  The key is checked for every path under `/api/v1`, before
the router looks whether there is such a path.

The middleware that writes the request to the log is left out.
-/

namespace GoQueue.Api

inductive Method where
  | get
  | post
  | delete
  | other
deriving DecidableEq

/-- What the router and the handlers that begin an operation look at. -/
structure HttpRequest where
  method : Method
  path : List String
  /-- What stands between the slashes has none. -/
  apart : ∀ segment ∈ path, '/' ∉ segment.toList
  /-- The header `X-API-Key`, empty if there is none. -/
  apiKey : String
  /-- The decoded body, `none` if it does not decode. -/
  body : Option CreateJobRequest
deriving DecidableEq

inductive Endpoint where
  | notFound
  | methodNotAllowed
  /-- `writeError(w, http.StatusUnauthorized, "invalid or missing API key")` -/
  | unauthorized
  | health
  | ready
  | metrics
  | createJob
  | listJobs
  | getJob (id : String)
  | cancelJob (id : String)
  | retryJob (id : String)
  | deleteJob (id : String)
  | getQueues
  | getQueueByName (name : String)
  | getStats
  | swagger
  | dashboardPage
  | dashboardJobList
  | dashboardJobDetail (id : String)
  | dashboardDLQ
  | serveWS
deriving DecidableEq

/-! ## Patterns -/

inductive Segment where
  | static (name : String)
  | param
  /-- The rest of the path, at the end of a pattern. -/
  | wildcard
deriving DecidableEq

/-- The parameters of a path that matches.  A parameter at the end is not empty. -/
def matchPath : List Segment → List String → Option (List String)
  | [], [] => some []
  | [.wildcard], _ :: _ => some []
  | .static name :: pattern, segment :: path =>
    if name = segment then matchPath pattern path else none
  | .param :: pattern, segment :: path =>
    if segment = "" ∧ path = [] then none
    else (matchPath pattern path).map (segment :: ·)
  | _, _ => none

structure Route where
  /-- `none` stands for all methods. -/
  method : Option Method
  pattern : List Segment
  endpoint : List String → Endpoint

def Route.plain (method : Option Method) (names : List String) (endpoint : Endpoint) : Route :=
  ⟨method, names.map .static, fun _ => endpoint⟩

/-- The pattern has one parameter. -/
def Route.withParam (method : Method) (before after : List String) (endpoint : String → Endpoint) :
    Route :=
  ⟨some method, before.map .static ++ .param :: after.map .static, fun params =>
    endpoint (params.headD "")⟩

def dispatch (routes : List Route) (r : HttpRequest) (path : List String) : Endpoint :=
  let found := routes.filterMap fun route =>
    (matchPath route.pattern path).map fun params => (route.method, route.endpoint params)
  match found.find? fun (method, _) => method.isNone || method = some r.method with
  | some (_, endpoint) => endpoint
  | none => if found = [] then .notFound else .methodNotAllowed

/-! ## The routes -/

/-- Those under `/api/v1`. -/
def apiRoutes : List Route := [
  .plain (some .post) ["jobs"] .createJob,
  .plain (some .get) ["jobs"] .listJobs,
  .withParam .get ["jobs"] [] .getJob,
  .withParam .post ["jobs"] ["cancel"] .cancelJob,
  .withParam .post ["jobs"] ["retry"] .retryJob,
  .withParam .delete ["jobs"] [] .deleteJob,
  .plain (some .get) ["queues"] .getQueues,
  .withParam .get ["queues"] [] .getQueueByName,
  .plain (some .get) ["stats"] .getStats]

def rootRoutes : List Route := [
  .plain (some .get) ["health"] .health,
  .plain (some .get) ["ready"] .ready,
  .plain none ["metrics"] .metrics,
  ⟨some .get, [.static "swagger", .wildcard], fun _ => .swagger⟩,
  .plain (some .get) ["dashboard"] .dashboardPage,
  .plain (some .get) ["dashboard", "jobs"] .dashboardJobList,
  .withParam .get ["dashboard", "jobs"] [] .dashboardJobDetail,
  .plain (some .get) ["dashboard", "dlq"] .dashboardDLQ,
  .plain (some .get) ["ws"] .serveWS]

def apiKeyAuth (apiKey : String) (next : HttpRequest → Endpoint) (r : HttpRequest) : Endpoint :=
  if r.apiKey ≠ apiKey then .unauthorized else next r

def newRouter (apiKey : String) (r : HttpRequest) : Endpoint :=
  match r.path with
  | "api" :: "v1" :: path => apiKeyAuth apiKey (fun r => dispatch apiRoutes r path) r
  | path => dispatch rootRoutes r path

/-- The operation that the endpoint's handler begins, if it is one that writes. -/
def Endpoint.task (r : HttpRequest) : Endpoint → Option Task
  | .createJob => some (.createJob r.body)
  | .cancelJob id => some (.cancelJob id)
  | .retryJob id => some (.retryJob id)
  | .deleteJob id => some (.deleteJob id)
  | _ => none

example : newRouter "k" ⟨.get, ["api", "v1", "jobs", "7"], by decide, "k", none⟩ = .getJob "7" := by
  decide
example : newRouter "k" ⟨.post, ["api", "v1", "stats"], by decide, "k", none⟩ = .methodNotAllowed := by
  decide
example : newRouter "k" ⟨.get, ["api", "v1", "none"], by decide, "", none⟩ = .unauthorized := by
  decide

end GoQueue.Api
