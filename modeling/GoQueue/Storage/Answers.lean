import GoQueue.Library.Grouping
import GoQueue.Library.Paging
import GoQueue.Storage.Query

/-! # What Postgres answers

The answers to the statements of `internal/storage/postgres.go` on a table that does not change
meanwhile.  SQL leaves the order of rows with equal sort keys open, and two queries may differ in
it, so an answer is not a function of the table.

The statements read a few columns only, and nothing restricts the texts in them; the table is
therefore a list of rows of any type that has these columns.
-/

namespace GoQueue.Storage

/-! ## Listing -/

/-- The columns that the statements of `ListJobs` read. -/
class Listed (α : Type) where
  column : Column → α → String
  createdAt : α → Time

open Listed

instance : Listed Job where
  column
    | .status, job => job.status.text
    | .queue, job => job.queue
    | .type, job => job.type
  createdAt job := job.createdAt

variable {α : Type} [Listed α]

/-- The first placeholder is `$1`. -/
def Condition.holds (args : List Value) (row : α) (condition : Condition) : Bool :=
  args[condition.placeholder - 1]? = some (.text (Listed.column condition.column row))

def selected (conditions : List Condition) (args : List Value) (row : α) : Bool :=
  conditions.all (Condition.holds args row)

/-- A result of `ORDER BY created_at DESC` without a limit. -/
structure IsListing (table : List α) (keep : α → Bool) (order : List α) : Prop where
  perm : order.Perm (table.filter keep)
  sorted : order.Descending createdAt

/-- The pool answers from this table, with its matching rows in an order of its own.  A negative
offset is an error that Postgres raises when it executes the statement. -/
structure Pool.Serves (pool : Pool α) (table : List α) (order : (α → Bool) → List α) : Prop where
  listing : ∀ keep, IsListing table keep (order keep)
  count : ∀ conditions args, pool.queryRow (.count conditions) args =
    .ok (table.filter (selected conditions args)).length
  page : ∀ (conditions : List Condition) (args : List Value) (limitIdx offsetIdx : Nat)
    (limit offset : Int), args[limitIdx - 1]? = some (.int limit) → 0 ≤ limit →
    args[offsetIdx - 1]? = some (.int offset) →
    if offset < 0 then ∃ err, pool.query (.page conditions limitIdx offsetIdx) args =
      .ok ⟨[], some err⟩
    else pool.query (.page conditions limitIdx offsetIdx) args =
      .ok ⟨(((order (selected conditions args)).drop offset.toNat).take limit.toNat).map .ok, none⟩

/-- A pool with any order. -/
def Pool.of (table : List α) (order : (α → Bool) → List α) : Pool α where
  queryRow statement args := match statement with
    | .count conditions => .ok (table.filter (selected conditions args)).length
    | .page .. => .error "more than one column"
  query statement args := match statement with
    | .count _ => .error "one column"
    | .page conditions limitIdx offsetIdx =>
      match args[limitIdx - 1]?, args[offsetIdx - 1]? with
      | some (.int limit), some (.int offset) =>
        if offset < 0 then .ok ⟨[], some "OFFSET must not be negative"⟩
        else .ok ⟨(((order (selected conditions args)).drop offset.toNat).take
          limit.toNat).map .ok, none⟩
      | _, _ => .error "invalid argument"

theorem Pool.serves_of {table : List α} {order : (α → Bool) → List α}
    (listing : ∀ keep, IsListing table keep (order keep)) :
    (Pool.of table order).Serves table order where
  listing := listing
  count _ _ := rfl
  page conditions args limitIdx offsetIdx limit offset limited _ skipped := by
    split
    case isTrue negative =>
      exact ⟨"OFFSET must not be negative", by simp only [Pool.of, limited, skipped, if_pos negative]⟩
    case isFalse valid => simp only [Pool.of, limited, skipped, if_neg valid]

/-! ## Statistics -/

/-- A stream that ends after these rows. -/
def Rows.all {β : Type} (rows : List β) : Rows β := ⟨rows.map .ok, none⟩

/-- An answer to `SELECT queue, status, COUNT(*) … GROUP BY queue, status` over these rows.  The
order of the answer is left open, also where `GetQueueStats` asks for one. -/
def IsQueueStats (rows : List α) (stats : List QueueStat) : Prop :=
  IsGroupCount (fun row => (Listed.column .queue row, Listed.column .status row)) rows
    (fun s : QueueStat => (s.queue, s.status)) QueueStat.count stats

/-- The rows that `GetQueueStatsByName` counts. -/
def inQueue (table : List α) (name : String) : List α :=
  table.filter fun row => Listed.column .queue row = name

/-! ## The time series -/

def minute : Time := 60 * second

/-- `date_trunc('minute', …)` -/
def truncMinute (t : Time) : Time := t / minute * minute

/-- The condition of `GetTimeSeries`. -/
def inSeries (now duration : Time) (job : Job) : Bool :=
  now - duration < job.updatedAt &&
    (job.status = .completed || job.status = .failed || job.status = .dead)

/-- An answer to the statement of `GetTimeSeries` for minutes. -/
structure IsTimeSeries (table : List Job) (now duration : Time) (stats : List TimeSeriesStat) :
    Prop where
  counted : IsGroupCount (fun job : Job => (truncMinute job.updatedAt, job.status.text))
    (table.filter (inSeries now duration)) (fun s : TimeSeriesStat => (s.bucket, s.status))
    TimeSeriesStat.count stats
  ordered : (stats.map TimeSeriesStat.bucket).Pairwise (· ≤ ·)

end GoQueue.Storage
