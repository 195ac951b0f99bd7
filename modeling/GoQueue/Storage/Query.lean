import GoQueue.Library.Wrap
import GoQueue.Storage.Postgres

/-! # The functions that read rows

The functions of `internal/storage/postgres.go` that read the rows of a query in a loop, as
functions of what the connection pool answers.  A statement is kept apart from its arguments, as
the pool gets them: a condition names the number of its placeholder.

pgx reports an error that occurs while a query is executed, or a connection that is lost, only
through `rows.Err`, after `rows.Next` has returned false.
-/

namespace GoQueue.Storage

/-! ## Result streams -/

/-- The rows of a query. -/
structure Rows (α : Type) where
  /-- The rows for which `rows.Next` is true, each with what `rows.Scan` makes of it. -/
  delivered : List (Except String α)
  /-- `rows.Err` at the end; `none` is nil. -/
  err : Option String

/-- The loop over `rows.Next` with the rows it has appended so far. -/
def scanRows {α : Type} (scanFailed : String → String) (scanned : List α) :
    List (Except String α) → Except String (List α)
  | [] => .ok scanned
  | .ok row :: rest => scanRows scanFailed (scanned ++ [row]) rest
  | .error err :: _ => .error (scanFailed err)

/-- Queries, and returns what the loop has collected: the list and the error, `none` for nil. -/
def readRows {α : Type} (queryFailed scanFailed : String → String) :
    Except String (Rows α) → List α × Option String
  | .error err => ([], some (queryFailed err))
  | .ok rows =>
    match scanRows scanFailed [] rows.delivered with
    | .error err => ([], some err)
    | .ok list => (list, none)

/-- The error of `scanJobFromRows`. -/
def scanJobFailed (err : String) : String := "scan job row: " ++ err

def getPendingUnqueued : Except String (Rows Job) → List Job × Option String :=
  readRows ("get pending unqueued: " ++ ·) scanJobFailed

def getStaleRunningJobs : Except String (Rows Job) → List Job × Option String :=
  readRows ("get stale running jobs: " ++ ·) scanJobFailed

structure QueueStat where
  queue : String
  status : String
  count : Nat
deriving DecidableEq

def getQueueStats : Except String (Rows QueueStat) → List QueueStat × Option String :=
  readRows ("get queue stats: " ++ ·) id

def getQueueStatsByName : Except String (Rows QueueStat) → List QueueStat × Option String :=
  readRows ("get queue stats by name: " ++ ·) id

structure TimeSeriesStat where
  bucket : Time
  status : String
  count : Nat
deriving DecidableEq

/-- Unlike the others it returns `rows.Err`, with the list beside it. -/
def getTimeSeries : Except String (Rows TimeSeriesStat) → List TimeSeriesStat × Option String
  | .error err => ([], some ("get time series: " ++ err))
  | .ok rows =>
    match scanRows ("scan time series: " ++ ·) [] rows.delivered with
    | .error err => ([], some err)
    | .ok stats => (stats, rows.err)

/-! ## Listing -/

structure ListFilter where
  status : String
  queue : String
  type : String
  page : Int
  limit : Int
deriving DecidableEq

inductive Column where
  | status
  | queue
  | type
deriving DecidableEq

/-- `column = $placeholder` -/
structure Condition where
  column : Column
  placeholder : Nat
deriving DecidableEq

/-- An argument of a statement. -/
inductive Value where
  | text (s : String)
  | int (n : Int)
deriving DecidableEq

inductive Statement where
  /-- `SELECT COUNT(*) FROM jobs WHERE …` -/
  | count (conditions : List Condition)
  /-- `SELECT … FROM jobs WHERE … ORDER BY created_at DESC LIMIT $limit OFFSET $offset` -/
  | page (conditions : List Condition) (limit offset : Nat)
deriving DecidableEq

/-- The `WHERE` clause under construction, with the arguments and the next placeholder. -/
structure Where where
  conditions : List Condition
  args : List Value
  argIdx : Nat
deriving DecidableEq

/-- An empty field of the filter is not a condition. -/
def Where.add (column : Column) (wanted : String) (clause : Where) : Where :=
  if wanted ≠ "" then
    ⟨clause.conditions ++ [⟨column, clause.argIdx⟩], clause.args ++ [.text wanted],
      clause.argIdx + 1⟩
  else clause

def ListFilter.clause (filter : ListFilter) : Where :=
  (((⟨[], [], 1⟩ : Where).add .status filter.status).add .queue filter.queue).add .type filter.type

/-- The pool, with rows that are scanned to `α`. -/
structure Pool (α : Type) where
  queryRow : Statement → List Value → Except String Nat
  query : Statement → List Value → Except String (Rows α)

/-- The offset is a product of 64-bit integers. -/
def listJobs {α : Type} (pool : Pool α) (filter : ListFilter) : List α × Nat × Option String :=
  let clause := filter.clause
  match pool.queryRow (.count clause.conditions) clause.args with
  | .error err => ([], 0, some ("count jobs: " ++ err))
  | .ok total =>
    let page := if filter.page < 1 then 1 else filter.page
    let limit := if filter.limit < 1 then 20 else filter.limit
    let offset := ((page - 1) * limit).wrap64
    match pool.query (.page clause.conditions clause.argIdx (clause.argIdx + 1))
        (clause.args ++ [.int limit, .int offset]) with
    | .error err => ([], 0, some ("list jobs: " ++ err))
    | .ok rows =>
      match scanRows scanJobFailed [] rows.delivered with
      | .error err => ([], 0, some err)
      | .ok jobs => (jobs, total, none)

end GoQueue.Storage
