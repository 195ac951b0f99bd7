import GoQueue.Api.Handler
import GoQueue.Library.Float64
import GoQueue.Model.Strconv
import GoQueue.Storage.Query

/-! # The read requests of the HTTP API

`ListJobs`, `GetQueues`, `GetQueueByName` and `GetStats` of `internal/api/handler.go`, as functions
of what the storage returns.  A map of Go is an association list.
-/

namespace GoQueue.Api

open Storage Strconv

/-! ## `GET /jobs` -/

/-- The query parameters; one that is missing is the empty string. -/
structure ListRequest where
  page : String
  limit : String
  status : String
  queue : String
  type : String
deriving DecidableEq

structure Pagination where
  page : Int
  limit : Int
  total : Int
  totalPages : Int
deriving DecidableEq

structure PaginatedResponse (α : Type) where
  data : List α
  pagination : Pagination
deriving DecidableEq

/-- The errors of `strconv.Atoi` are ignored. -/
def ListRequest.filter (r : ListRequest) : ListFilter :=
  let page := (atoi r.page).1
  let limit := (atoi r.limit).1
  { status := r.status
    queue := r.queue
    type := r.type
    page := if page < 1 then 1 else page
    limit := if limit < 1 ∨ limit > 100 then 20 else limit }

/-- `int(math.Ceil(float64(total) / float64(limit)))` for a positive limit. -/
def pageCount (total : Nat) (limit : Int) : Int :=
  ⌈Float64.round (Float64.round total / Float64.round limit)⌉

def listJobs {α : Type} (pool : Pool α) (r : ListRequest) :
    Except Response (PaginatedResponse α) :=
  let filter := r.filter
  match Storage.listJobs pool filter with
  | (_, _, some _) => .error (writeError 500 "failed to list jobs")
  | (jobs, total, none) =>
    .ok {
      data := jobs
      pagination := {
        page := filter.page
        limit := filter.limit
        total := total
        totalPages := pageCount total filter.limit } }

theorem ListRequest.filter_bounds (r : ListRequest) :
    1 ≤ r.filter.page ∧ r.filter.page < 2 ^ 63 ∧ 1 ≤ r.filter.limit ∧ r.filter.limit ≤ 100 := by
  have below := atoi_lt r.page
  simp only [ListRequest.filter]
  split_ifs <;> omega

theorem pageCount_eq {total limit : Nat} (positive : 0 < limit) (small : limit < 2 ^ 53)
    (fits : total < 2 ^ 53) : pageCount total limit = ((total + limit - 1) / limit : Nat) := by
  rw [pageCount, Int.cast_natCast, Float64.round_natCast fits, Float64.round_natCast small]
  exact Float64.ceil_round_div positive fits

/-! ## Statistics -/

abbrev Counts := AList fun _ : String => Nat

/-- `m[key] += n` -/
def Counts.add (key : String) (n : Nat) (m : Counts) : Counts :=
  m.insert key ((m.lookup key).getD 0 + n)

/-- `grouped[s.Queue][s.Status] = s.Count`, where the inner map is made first if it is nil. -/
def groupStat (grouped : AList fun _ : String => Counts) (s : QueueStat) :
    AList fun _ : String => Counts :=
  grouped.insert s.queue (((grouped.lookup s.queue).getD ∅).insert s.status s.count)

/-- From what `GetQueueStats` returns. -/
def getQueues : List QueueStat × Option String → Except Response (AList fun _ : String => Counts)
  | (_, some _) => .error (writeError 500 "failed to get queue stats")
  | (stats, none) => .ok (stats.foldl groupStat ∅)

/-- From what `GetQueueStatsByName` returns. -/
def getQueueByName : List QueueStat × Option String → Except Response Counts
  | (_, some _) => .error (writeError 500 "failed to get queue stats")
  | (stats, none) => .ok (stats.foldl (fun result s => result.insert s.status s.count) ∅)

/-- From what `GetQueueStats` returns. -/
def getStats : List QueueStat × Option String → Except Response Counts
  | (_, some _) => .error (writeError 500 "failed to get stats")
  | (stats, none) => .ok (stats.foldl (fun totals s => totals.add s.status s.count) ∅)

end GoQueue.Api
