import GoQueue.Api.Queries

/-! # The data of the dashboard's fragments

What `internal/dashboard/templates.go` passes to its templates, and `JobListHandler` of
`handler.go`.  The HTML and the API key are left out.
-/

namespace GoQueue.Dashboard

open Storage Strconv

/-! ## Statistics -/

/-- The map of `RenderStatsFragment`, from what `GetQueueStats` returns. -/
def renderStatsFragment : List QueueStat × Option String → Except String Api.Counts
  | (_, some err) => .error ("get queue stats: " ++ err)
  | (stats, none) => .ok (stats.foldl (fun totals s => totals.add s.status s.count) ∅)

/-! ## The job list -/

structure JobListData (α : Type) where
  jobs : List α
  page : Int
  totalPages : Int
  total : Int
  filter : ListFilter
deriving DecidableEq

def renderJobListFragment {α : Type} (pool : Pool α) (filter : ListFilter) :
    Except String (JobListData α) :=
  match Storage.listJobs pool filter with
  | (_, _, some err) => .error ("list jobs: " ++ err)
  | (jobs, total, none) =>
    let filter := if filter.limit < 1 then { filter with limit := 20 } else filter
    let totalPages := Api.pageCount total filter.limit
    .ok {
      jobs := jobs
      page := filter.page
      totalPages := if totalPages < 1 then 1 else totalPages
      total := total
      filter := filter }

/-- The query parameters of `JobListHandler`. -/
structure JobListRequest where
  status : String
  queue : String
  type : String
  page : String
deriving DecidableEq

/-- A page that is not a positive number is ignored, one out of range too. -/
def JobListRequest.filter (r : JobListRequest) : ListFilter :=
  let filter : ListFilter := ⟨r.status, r.queue, r.type, 1, 50⟩
  if r.page = "" then filter
  else match atoi r.page with
    | (page, none) => if page > 0 then { filter with page := page } else filter
    | (_, some _) => filter

/-- The status code and text of a failure. -/
def jobListHandler {α : Type} (pool : Pool α) (r : JobListRequest) :
    Except (Nat × String) (JobListData α) :=
  match renderJobListFragment pool r.filter with
  | .error _ => .error (500, "Internal Server Error")
  | .ok data => .ok data

theorem JobListRequest.filter_bounds (r : JobListRequest) :
    1 ≤ r.filter.page ∧ r.filter.page < 2 ^ 63 ∧ r.filter.limit = 50 := by
  have below := atoi_lt r.page
  have first : 1 ≤ (1 : Int) ∧ (1 : Int) < 2 ^ 63 ∧ (50 : Int) = 50 := by decide
  unfold JobListRequest.filter
  split
  · exact first
  · split
    case h_1 page parsed =>
      rw [parsed] at below
      split
      · exact ⟨by simp only; omega, below, rfl⟩
      · exact first
    case h_2 => exact first

/-! ## The chart -/

/-- The counts of one label, each a 64-bit integer. -/
structure BucketData where
  completed : Int
  failed : Int
  dead : Int
deriving DecidableEq

structure ChartData where
  labels : List String
  completed : List Int
  failed : List Int
  dead : List Int
deriving DecidableEq

def twoDigits (n : Nat) : List Char := [Nat.digitChar (n / 10), Nat.digitChar (n % 10)]

/-- `Format("15:04")` where the offset from UTC, in seconds, is the one of the instant. -/
def label (zone : Time → Int) (t : Time) : String :=
  let minutes := (t.unix + zone t) / 60
  .ofList (twoDigits (minutes / 60 % 24).toNat ++ ':' :: twoDigits (minutes % 60).toNat)

def BucketData.add (bd : BucketData) (status : String) (count : Int) : BucketData :=
  if status = "completed" then { bd with completed := (bd.completed + count).wrap64 }
  else if status = "failed" then { bd with failed := (bd.failed + count).wrap64 }
  else if status = "dead" then { bd with dead := (bd.dead + count).wrap64 }
  else bd

/-- The two variables of the loop. -/
structure Buckets where
  bucketMap : AList fun _ : String => BucketData
  orderedLabels : List String

namespace Buckets

def get (b : Buckets) (label : String) : BucketData := (b.bucketMap.lookup label).getD ⟨0, 0, 0⟩

/-- The body of the loop; a status that is none of the three makes a label all the same. -/
def add (zone : Time → Int) (b : Buckets) (s : TimeSeriesStat) : Buckets :=
  let label := label zone s.bucket
  let b :=
    if label ∈ b.bucketMap then b
    else ⟨b.bucketMap.insert label ⟨0, 0, 0⟩, b.orderedLabels ++ [label]⟩
  { b with bucketMap := b.bucketMap.insert label ((b.get label).add s.status s.count) }

def chartData (b : Buckets) : ChartData where
  labels := b.orderedLabels
  completed := b.orderedLabels.map fun label => (b.get label).completed
  failed := b.orderedLabels.map fun label => (b.get label).failed
  dead := b.orderedLabels.map fun label => (b.get label).dead

end Buckets

/-- From what `GetTimeSeries` returns. -/
def buildChartData (zone : Time → Int) :
    List TimeSeriesStat × Option String → Except String ChartData
  | (_, some err) => .error ("get time series: " ++ err)
  | (stats, none) => .ok (stats.foldl (Buckets.add zone) ⟨∅, []⟩).chartData

example : label (fun _ => 32400) (3599 * second) = "09:59" := by decide

end GoQueue.Dashboard
