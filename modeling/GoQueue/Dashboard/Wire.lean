import GoQueue.Dashboard.Templates
import GoQueue.Library.Json
import GoQueue.Model.Timestamp
import GoQueue.System.Telemetry

/-! # What the dashboard sends

The texts that `internal/dashboard` writes itself: the event that `PublishJobEvent` puts on the
Redis channel and `StartSubscriber` takes off it, the fragment with the data of the chart, and what
the subscriber sends to the hub.  `DashboardPageHandler` is here with the data of its page.

The HTML of the templates is left out: a rendered fragment is a text or the error of its data.  So
is the limit on how deep a payload may nest.
-/

namespace GoQueue

/-! ## Events -/

/-- `json.Marshal` in the local time zone.  The error is that of a year without four digits. -/
def JobEvent.marshal (offset : Int) (event : JobEvent) : Option (List Char) := do
  let timestamp ← Rfc3339.format offset event.timestamp
  some (Json.text (.object [
    ("type".toList, .string event.type.toList),
    ("job_id".toList, .string event.jobID.toList),
    ("queue".toList, .string event.queue.toList),
    ("status".toList, .string event.status.toList),
    ("timestamp".toList, .string timestamp)]))

/-- The zero `time.Time`. -/
def zeroTime : Time := Rfc3339.daysSinceEpoch 1 1 1 * 86400 * second

/-- The payload that `PublishJobEvent` hands to Redis. -/
def publishJobEvent (offset : Int) (now : Time) (event : JobEvent) : Option (List Char) :=
  let event := if event.timestamp = zeroTime then { event with timestamp := now } else event
  event.marshal offset

/-- Two letters outside ASCII fold to letters in it. -/
def foldChar (c : Char) : Char :=
  if c = '\u017F' then 's' else if c = '\u212A' then 'k' else c.toLower

/-- Keys are compared without regard to case. -/
def isKey (field : String) (key : List Char) : Bool := key.map foldChar = field.toList

/-- `null` leaves a field as it is. -/
def setString (event : JobEvent) (set : String → JobEvent) : Json → Option JobEvent
  | .string s => some (set (.ofList s))
  | .null => some event
  | .bool _ | .number _ | .array _ | .object _ => none

def setTime (event : JobEvent) (set : Time → JobEvent) : Json → Option JobEvent
  | .string s => (Rfc3339.parse (.ofList s)).map set
  | .null => some event
  | .bool _ | .number _ | .array _ | .object _ => none

/-- A key that is none of the fields is ignored. -/
def JobEvent.set (event : JobEvent) (key : List Char) (value : Json) : Option JobEvent :=
  if isKey "type" key then setString event (fun s => { event with type := s }) value
  else if isKey "job_id" key then setString event (fun s => { event with jobID := s }) value
  else if isKey "queue" key then setString event (fun s => { event with queue := s }) value
  else if isKey "status" key then setString event (fun s => { event with status := s }) value
  else if isKey "timestamp" key then setTime event (fun t => { event with timestamp := t }) value
  else some event

/-- `json.Unmarshal` into an event whose fields are zero. -/
def JobEvent.unmarshal (payload : List Char) : Option JobEvent :=
  let event : JobEvent := ⟨"", "", "", "", zeroTime⟩
  match Json.parse payload with
  | some (.object members) => members.foldlM (fun event member => event.set member.1 member.2) event
  | some .null => some event
  | _ => none

namespace Dashboard

open Storage

/-! ## The chart -/

def ChartData.json (chart : ChartData) : Json :=
  let ints (ns : List Int) : Json := .array (ns.map fun n => .number (Json.intLiteral n))
  .object [
    ("labels".toList, .array (chart.labels.map fun label => .string label.toList)),
    ("completed".toList, ints chart.completed),
    ("failed".toList, ints chart.failed),
    ("dead".toList, ints chart.dead)]

def chartHead : List Char :=
  "<div id=\"chart-data\" hx-swap-oob=\"true\" style=\"display:none\" data-chart='".toList

def chartTail : List Char := "'></div>".toList

/-- The JSON text is put between the quotes as it is. -/
def renderChartDataFragment (zone : Time → Int) (stats : List TimeSeriesStat × Option String) :
    Except String (List Char) := do
  let chart ← buildChartData zone stats
  return chartHead ++ chart.json.text ++ chartTail

/-! ## The page -/

def renderDLQFragment {α : Type} (pool : Pool α) : Except String (List α) :=
  match Storage.listJobs pool ⟨"dead", "", "", 1, 100⟩ with
  | (_, _, some err) => .error ("list dead jobs: " ++ err)
  | (jobs, _, none) => .ok jobs

structure DashboardData (α : Type) where
  stats : Api.Counts
  apiKey : String
  jobListData : JobListData α
  dlqJobs : List α
  chartJSON : List Char

/-- From what the four reads find; their errors are not looked at, that of the chart apart. -/
def dashboardPage {α : Type} (zone : Time → Int) (apiKey : String) (jobsPool deadPool : Pool α)
    (queueStats : List QueueStat × Option String) (series : List TimeSeriesStat × Option String) :
    DashboardData α :=
  let (jobs, total, _) := Storage.listJobs jobsPool ⟨"", "", "", 1, 50⟩
  let (deadJobs, _, _) := Storage.listJobs deadPool ⟨"dead", "", "", 1, 100⟩
  { stats := queueStats.1.foldl (fun totals s => totals.add s.status s.count) ∅
    apiKey := apiKey
    jobListData := {
      jobs := jobs
      page := 1
      totalPages := if total > 50 then ((total + 49) / 50 : Nat) else 1
      total := total
      filter := ⟨"", "", "", 1, 50⟩ }
    dlqJobs := deadJobs
    chartJSON := match buildChartData zone series with
      | .error _ =>
        "\x7b\"labels\":[],\"completed\":[],\"failed\":[],\"dead\":[]\x7d".toList
      | .ok chart => chart.json.text }

/-! ## The subscriber -/

/-- The fragments as they are rendered for one broadcast. -/
structure Fragments where
  stats : Except String (List Char)
  jobList : Except String (List Char)
  dlq : Except String (List Char)
  chart : Except String (List Char)

/-- A fragment that fails is left out; nothing is sent if all are empty. -/
def broadcastAllFragments (fragments : Fragments) : Option (List Char) :=
  let append (html : List Char) : Except String (List Char) → List Char
    | .error _ => html
    | .ok fragment => html ++ fragment
  let allHTML := append [] fragments.stats
  let allHTML := append allHTML fragments.jobList
  let allHTML := append allHTML fragments.dlq
  let allHTML := append allHTML fragments.chart
  if allHTML.length > 0 then some allHTML else none

/-- A case of the `select`; what a broadcast renders is given with it. -/
inductive Received where
  | done
  | message (payload : List Char) (fragments : Fragments)
  | tick (fragments : Fragments)

/-- What the loop of `StartSubscriber` sends to the hub. -/
def startSubscriber : List Received → List (List Char)
  | [] => []
  | .done :: _ => []
  | .message payload fragments :: rest =>
    match JobEvent.unmarshal payload with
    | none => startSubscriber rest
    | some _ => (broadcastAllFragments fragments).toList ++ startSubscriber rest
  | .tick fragments :: rest => (broadcastAllFragments fragments).toList ++ startSubscriber rest

end Dashboard

end GoQueue
