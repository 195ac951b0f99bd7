import GoQueue.Dashboard.Wire
import GoQueue.Verified.Charts

/-! # What the dashboard sends arrives

The texts of `Dashboard/Wire.lean` read back: the event that the subscriber decodes is the one that
was handed to Redis, and the attribute of the chart's fragment is the chart.
-/

namespace GoQueue

/-! ## Events -/

theorem JobEvent.set_fields (event : JobEvent) (s : List Char) :
    event.set "type".toList (.string s) = some { event with type := .ofList s } ∧
    event.set "job_id".toList (.string s) = some { event with jobID := .ofList s } ∧
    event.set "queue".toList (.string s) = some { event with queue := .ofList s } ∧
    event.set "status".toList (.string s) = some { event with status := .ofList s } ∧
    event.set "timestamp".toList (.string s) =
      (Rfc3339.parse (.ofList s)).map fun t => { event with timestamp := t } :=
  ⟨rfl, rfl, rfl, rfl, rfl⟩

theorem JobEvent.isSome_marshal (offset : Int) (event : JobEvent) :
    (event.marshal offset).isSome = (Rfc3339.format offset event.timestamp).isSome := by
  unfold JobEvent.marshal
  cases Rfc3339.format offset event.timestamp <;> rfl

/-- Whatever the strings of the event hold. -/
theorem JobEvent.unmarshal_marshal {offset : Int} (whole : offset % 60 = 0)
    (day : offset.natAbs < 86400) {event : JobEvent} {payload : List Char}
    (marshalled : event.marshal offset = some payload) :
    JobEvent.unmarshal payload = some event := by
  obtain ⟨timestamp, written, made⟩ := Option.bind_eq_some_iff.mp marshalled
  cases made
  have read := Rfc3339.parse_format whole day written
  have parsed := Json.parse_text (.object [
    ("type".toList, .string event.type.toList),
    ("job_id".toList, .string event.jobID.toList),
    ("queue".toList, .string event.queue.toList),
    ("status".toList, .string event.status.toList),
    ("timestamp".toList, .string timestamp)]) (by simp [Json.Integral, Json.IntegralMembers])
  simp only [JobEvent.unmarshal, parsed, List.foldlM_cons, List.foldlM_nil, JobEvent.set_fields,
    read, String.ofList_toList, Option.bind_eq_bind, Option.bind_some, Option.map_some,
    Option.pure_def]

namespace Dashboard

open Storage

/-! ## The chart -/

def stringOf : Json → Option String
  | .string s => some (.ofList s)
  | _ => none

def intOf : Json → Option Int
  | .number literal => Json.intOfLiteral literal
  | _ => none

def listOf {β : Type} (read : Json → Option β) : Json → Option (List β)
  | .array es => es.mapM read
  | _ => none

/-- The chart that the page's script finds in the attribute. -/
def ChartData.read (text : List Char) : Option ChartData :=
  match Json.parse text with
  | some (.object members) => do
    let labels ← listOf stringOf (← members.lookup "labels".toList)
    let completed ← listOf intOf (← members.lookup "completed".toList)
    let failed ← listOf intOf (← members.lookup "failed".toList)
    let dead ← listOf intOf (← members.lookup "dead".toList)
    some ⟨labels, completed, failed, dead⟩
  | _ => none

theorem listOf_map {β : Type} (read : Json → Option β) (json : β → Json)
    (inverse : ∀ b, read (json b) = some b) (bs : List β) :
    listOf read (.array (bs.map json)) = some bs := by
  induction bs with
  | nil => rfl
  | cons b bs inductionHypothesis =>
    simp only [listOf] at inductionHypothesis ⊢
    simp [inverse, inductionHypothesis]

theorem ChartData.integral_json (chart : ChartData) : chart.json.Integral := by
  simp [ChartData.json, Json.Integral, Json.IntegralMembers, Json.integralElements_iff]

theorem ChartData.unquoted_json {chart : ChartData}
    (unquoted : ∀ label ∈ chart.labels, '\x27' ∉ label.toList) : chart.json.Unquoted := by
  simpa [ChartData.json, Json.Unquoted, Json.UnquotedMembers, Json.unquotedElements_iff]
    using unquoted

theorem ChartData.read_json (chart : ChartData) : ChartData.read chart.json.text = some chart := by
  have labels := listOf_map stringOf (fun label => .string label.toList)
    (fun _ => by simp [stringOf]) chart.labels
  have ints (ns : List Int) := listOf_map intOf (fun n => .number (Json.intLiteral n))
    Json.intOfLiteral_intLiteral ns
  rw [ChartData.read, Json.parse_text _ chart.integral_json]
  simp [ChartData.json, List.lookup_cons, labels, ints]

theorem twoDigits_unquoted {n : Nat} (small : n < 100) : '\x27' ∉ twoDigits n := by
  have tens := (Json.inert_digitChar (n / 10) (by omega)).1
  have units := (Json.inert_digitChar (n % 10) (by omega)).1
  simp [twoDigits, tens.symm, units.symm]

theorem label_unquoted (zone : Time → Int) (t : Time) : '\x27' ∉ (label zone t).toList := by
  have hours := twoDigits_unquoted (n := ((t.unix + zone t) / 60 / 60 % 24).toNat) (by omega)
  have minutes := twoDigits_unquoted (n := ((t.unix + zone t) / 60 % 60).toNat) (by omega)
  simp [label, hours, minutes]

/-- A chart that is drawn has labels of the loop only. -/
theorem unquoted_of_buildChartData {zone : Time → Int} {stats : List TimeSeriesStat × Option String}
    {chart : ChartData} (built : buildChartData zone stats = .ok chart) :
    ∀ label ∈ chart.labels, '\x27' ∉ label.toList := by
  obtain ⟨stats, _ | err⟩ := stats
  · cases built
    intro l member
    replace member : l ∈ (chartOf zone stats).labels := member
    rw [labels_chartOf, List.mem_eraseDups, List.mem_map] at member
    obtain ⟨s, -, rfl⟩ := member
    exact label_unquoted zone s.bucket
  · cases built

/-- What becomes of the chart in an attribute between apostrophes: the text ends at the second one,
holds no character reference and is the chart. -/
structure Carries (value : List Char) (chart : ChartData) : Prop where
  inert : ∀ c ∈ value, Json.Inert c
  read : ChartData.read value = some chart

/-- The fragment is sent as it is, without the templates' escaping. -/
theorem chart_fragment_intact (zone : Time → Int) (stats : List TimeSeriesStat × Option String) :
    match buildChartData zone stats with
    | .error err => renderChartDataFragment zone stats = .error err
    | .ok chart => ∃ value, renderChartDataFragment zone stats =
        .ok (chartHead ++ value ++ chartTail) ∧ Carries value chart := by
  split
  case h_1 err failed => simp only [renderChartDataFragment, failed]; rfl
  case h_2 chart built =>
    have unquoted := chart.unquoted_json (unquoted_of_buildChartData built)
    refine ⟨chart.json.text, by simp only [renderChartDataFragment, built]; rfl, ?_, ?_⟩
    · exact Json.inert_text _ chart.integral_json unquoted
    · exact chart.read_json

/-! ## The page -/

/-- What a fragment shows of the data, and what the page shows if there is none. -/
def shown {β : Type} (fallback : β) : Except String β → β
  | .ok data => data
  | .error _ => fallback

/-- An error of the reads comes with empty data. -/
theorem listJobs_failed {α : Type} {pool : Pool α} {filter : ListFilter} {jobs : List α}
    {total : Nat} {err : String} (failed : listJobs pool filter = (jobs, total, some err)) :
    jobs = [] ∧ total = 0 := by
  simp only [listJobs] at failed
  split at failed
  · cases failed
    exact ⟨rfl, rfl⟩
  · split at failed
    · cases failed
      exact ⟨rfl, rfl⟩
    · split at failed <;> cases failed
      exact ⟨rfl, rfl⟩

theorem readRows_failed {β : Type} {queryFailed scanFailed : String → String}
    {answer : Except String (Rows β)} {list : List β} {err : String}
    (failed : readRows queryFailed scanFailed answer = (list, some err)) : list = [] := by
  unfold readRows at failed
  split at failed
  · cases failed
    rfl
  · split at failed <;> cases failed
    rfl

/-- The page divides integers where the fragment takes the ceiling of a quotient of floats. -/
theorem totalPages_eq {total : Nat} (small : total < 2 ^ 53) :
    (if total > 50 then ((total + 49) / 50 : Nat) else 1 : Int) =
      if Api.pageCount total 50 < 1 then 1 else Api.pageCount total 50 := by
  have count : Api.pageCount total 50 = ((total + 50 - 1) / 50 : Nat) :=
    Api.pageCount_eq (by decide) (by decide) small
  rw [count]
  split_ifs <;> omega

theorem jobListData_eq {α : Type} {pool : Pool α} {jobs : List α} {total : Nat}
    {err : Option String} (listed : listJobs pool ⟨"", "", "", 1, 50⟩ = (jobs, total, err))
    (small : total < 2 ^ 53) :
    (⟨jobs, 1, if total > 50 then ((total + 49) / 50 : Nat) else 1, total,
        ⟨"", "", "", 1, 50⟩⟩ : JobListData α) =
      shown ⟨[], 1, 1, 0, ⟨"", "", "", 1, 50⟩⟩
        (renderJobListFragment pool ⟨"", "", "", 1, 50⟩) := by
  cases err with
  | none =>
    rw [totalPages_eq small]
    simp [renderJobListFragment, listed, shown]
  | some err =>
    obtain ⟨rfl, rfl⟩ := listJobs_failed listed
    simp [renderJobListFragment, listed, shown]

theorem stats_eq (answer : Except String (Rows QueueStat)) :
    (getQueueStats answer).1.foldl (fun totals s => totals.add s.status s.count) ∅ =
      shown ∅ (renderStatsFragment (getQueueStats answer)) := by
  cases read : getQueueStats answer with
  | mk stats err =>
    cases err with
    | none => rfl
    | some err => rw [readRows_failed read]; rfl

theorem dlqJobs_eq {α : Type} (pool : Pool α) :
    (listJobs pool ⟨"dead", "", "", 1, 100⟩).1 = shown [] (renderDLQFragment pool) := by
  unfold renderDLQFragment
  split
  case h_1 failed => rw [failed, (listJobs_failed failed).1]; rfl
  case h_2 listed => rw [listed]; rfl

/-- The text that is written out is what `json.Marshal` writes for an empty chart. -/
theorem empty_chart_text : (⟨[], [], [], []⟩ : ChartData).json.text =
    "\x7b\"labels\":[],\"completed\":[],\"failed\":[],\"dead\":[]\x7d".toList := by
  decide +kernel

theorem chartJSON_eq {α : Type} (zone : Time → Int) (apiKey : String) (jobsPool deadPool : Pool α)
    (queueStats : List QueueStat × Option String) (series : List TimeSeriesStat × Option String) :
    (dashboardPage zone apiKey jobsPool deadPool queueStats series).chartJSON =
      (shown ⟨[], [], [], []⟩ (buildChartData zone series)).json.text := by
  simp only [dashboardPage]
  cases buildChartData zone series with
  | error err => exact empty_chart_text.symm
  | ok chart => rfl

/-- The page shows what the fragments show that replace its parts, and empty data in place of a
fragment that is not sent. -/
theorem page_shows_fragments {α : Type} (zone : Time → Int) (apiKey : String)
    (jobsPool deadPool : Pool α) (queueStats : Except String (Rows QueueStat))
    (series : List TimeSeriesStat × Option String)
    (small : (listJobs jobsPool ⟨"", "", "", 1, 50⟩).2.1 < 2 ^ 53) :
    let page := dashboardPage zone apiKey jobsPool deadPool (getQueueStats queueStats) series
    page.stats = shown ∅ (renderStatsFragment (getQueueStats queueStats)) ∧
    page.jobListData = shown ⟨[], 1, 1, 0, ⟨"", "", "", 1, 50⟩⟩
      (renderJobListFragment jobsPool ⟨"", "", "", 1, 50⟩) ∧
    page.dlqJobs = shown [] (renderDLQFragment deadPool) ∧
    ChartData.read page.chartJSON = some (shown ⟨[], [], [], []⟩ (buildChartData zone series)) ∧
    ∀ html, renderChartDataFragment zone series = .ok html →
      html = chartHead ++ page.chartJSON ++ chartTail := by
  refine ⟨stats_eq queueStats, jobListData_eq rfl small, dlqJobs_eq deadPool, ?_, ?_⟩
  · rw [chartJSON_eq, ChartData.read_json]
  · intro html rendered
    rw [chartJSON_eq]
    cases built : buildChartData zone series with
    | error err => simp [renderChartDataFragment, built] at rendered
    | ok chart =>
      simp only [renderChartDataFragment, built] at rendered
      cases rendered
      rfl

/-- The first of two pages. -/
theorem page_shows_sixty :
    let pool : Pool Nat := ⟨fun _ _ => .ok 60, fun _ _ => .ok (.all (List.range 50))⟩
    let page := dashboardPage (fun _ => 0) "" pool pool (getQueueStats (.error "timeout"))
      ([], none)
    (listJobs pool ⟨"", "", "", 1, 50⟩).2.1 = 60 ∧ page.jobListData.totalPages = 2 ∧
    page.jobListData = shown ⟨[], 1, 1, 0, ⟨"", "", "", 1, 50⟩⟩
      (renderJobListFragment pool ⟨"", "", "", 1, 50⟩) :=
  ⟨rfl, rfl, (page_shows_fragments (fun _ => 0) "" _ _ (.error "timeout") ([], none)
    (by decide)).2.1⟩

/-! ## The subscriber -/

/-- What one case of the `select` makes the loop send. -/
def Received.sent : Received → Option (List Char)
  | .done => none
  | .message payload fragments =>
    (JobEvent.unmarshal payload).bind fun _ => broadcastAllFragments fragments
  | .tick fragments => broadcastAllFragments fragments

def Received.isDone : Received → Bool
  | .done => true
  | .message .. | .tick _ => false

/-- A payload that is not an event is skipped and the loop goes on. -/
theorem startSubscriber_eq (received : List Received) : startSubscriber received =
    (received.takeWhile (!·.isDone)).flatMap fun first => first.sent.toList := by
  induction received with
  | nil => rfl
  | cons first rest inductionHypothesis =>
    cases first with
    | done => rfl
    | message payload fragments =>
      rw [startSubscriber, inductionHypothesis]
      cases read : JobEvent.unmarshal payload <;> simp [Received.isDone, Received.sent, read]
    | tick fragments =>
      rw [startSubscriber, inductionHypothesis]
      simp [Received.isDone, Received.sent]

/-- Whatever else the subscriber receives. -/
theorem startSubscriber_congr {first second : Received} (sent : first.sent = second.sent)
    (done : first.isDone = second.isDone) (before later : List Received) :
    startSubscriber (before ++ first :: later) = startSubscriber (before ++ second :: later) := by
  simp only [startSubscriber_eq, List.takeWhile_append, List.takeWhile_cons, done]
  split_ifs <;> simp [sent]

/-- The event with the time that `PublishJobEvent` fills in. -/
def stamped (now : Time) (event : JobEvent) : JobEvent :=
  if event.timestamp = zeroTime then { event with timestamp := now } else event

/-- An event is handed to Redis if its year has four digits, the offset being of whole minutes and
less than a day.  A subscriber that receives the payload reads the event, and sends what it sends
when its ticker fires. -/
theorem published_event_arrives {offset : Int} (whole : offset % 60 = 0)
    (day : offset.natAbs < 86400) (now : Time) (event : JobEvent) :
    let unix := (stamped now event).timestamp.unix + offset
    ((publishJobEvent offset now event).isSome ↔
      -719528 * 86400 ≤ unix ∧ unix < 2932897 * 86400) ∧
    ∀ payload, publishJobEvent offset now event = some payload →
      JobEvent.unmarshal payload = some (stamped now event) ∧
      ∀ before fragments later,
        startSubscriber (before ++ .message payload fragments :: later) =
          startSubscriber (before ++ .tick fragments :: later) := by
  refine ⟨?_, fun payload published => ?_⟩
  · rw [← Rfc3339.format_isSome_iff, ← JobEvent.isSome_marshal]
    rfl
  · have read := JobEvent.unmarshal_marshal whole day published
    refine ⟨read, fun before fragments later => ?_⟩
    have same : (Received.message payload fragments).sent = (Received.tick fragments).sent := by
      simp [Received.sent, read]
    exact startSubscriber_congr same rfl before later

theorem published_event_arrives_quoted :
    let event : JobEvent := ⟨"job.running", "7", "a\"<b>'", "pending", zeroTime⟩
    ∃ payload, publishJobEvent 32400 second event = some payload ∧
      JobEvent.unmarshal payload = some { event with timestamp := second } := by
  intro event
  obtain ⟨written, arrives⟩ := published_event_arrives
    (show (32400 : Int) % 60 = 0 by decide) (by decide) second event
  obtain ⟨payload, published⟩ := Option.isSome_iff_exists.mp (written.mpr (by decide))
  exact ⟨payload, published, (arrives payload published).1⟩

end Dashboard

end GoQueue
