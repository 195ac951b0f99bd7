import GoQueue.Storage.Query

/-! # What becomes of a broken result stream

Six functions read the rows of a query in a loop that ends when `rows.Next` returns false.  Only
`GetTimeSeries` asks `rows.Err` whether that was the end of the rows, and it returns the rows it
has read beside the error.  To the other five a broken stream is a short answer.
-/

namespace GoQueue.Storage

variable {α : Type}

/-! ## The loop -/

/-- The stream ends with an error. -/
def Rows.Broken (rows : Rows α) : Prop := rows.err ≠ none

/-- Some delivered row does not scan. -/
def Rows.Unscanned (rows : Rows α) : Prop := ∃ err, .error err ∈ rows.delivered

/-- The loop appends every row, or stops at one that does not scan. -/
theorem scanRows_cases (scanFailed : String → String) (scanned : List α)
    (delivered : List (Except String α)) :
    (∃ list : List α, delivered = list.map .ok ∧
        scanRows scanFailed scanned delivered = .ok (scanned ++ list)) ∨
      (∃ err, .error err ∈ delivered ∧
        scanRows scanFailed scanned delivered = .error (scanFailed err)) := by
  induction delivered generalizing scanned with
  | nil => exact .inl ⟨[], rfl, by simp [scanRows]⟩
  | cons row rest inductionHypothesis =>
    cases row with
    | error err => exact .inr ⟨err, by simp, rfl⟩
    | ok first =>
      obtain ⟨list, rfl, collected⟩ | ⟨err, later, stopped⟩ :=
        inductionHypothesis (scanned ++ [first])
      · exact .inl ⟨first :: list, rfl, by simpa [scanRows] using collected⟩
      · exact .inr ⟨err, by simp [later], stopped⟩

theorem scanRows_map_ok (scanFailed : String → String) (list : List α) :
    scanRows scanFailed [] (list.map .ok) = .ok list := by
  obtain ⟨list', same, collected⟩ | ⟨err, unscanned, -⟩ :=
    scanRows_cases scanFailed [] (list.map .ok)
  · rw [collected, List.nil_append]
    rw [List.map_injective_iff.mpr (fun _ _ equal => Except.ok.inj equal) same]
  · simp at unscanned

theorem not_unscanned_map_ok {list : List α} {err : Option String} :
    ¬ (⟨list.map .ok, err⟩ : Rows α).Unscanned := by
  simp [Rows.Unscanned]

/-! ## The functions -/

/-- The function returns an error and no list. -/
def Reported (returned : List α × Option String) : Prop := returned.2 ≠ none ∧ returned.1 = []

theorem readRows_map_ok (queryFailed scanFailed : String → String) (list : List α)
    (err : Option String) :
    readRows queryFailed scanFailed (.ok ⟨list.map .ok, err⟩) = (list, none) := by
  simp only [readRows, scanRows_map_ok]

/-- Whether the stream has broken off makes no difference to the loop. -/
theorem reported_readRows (queryFailed scanFailed : String → String) (rows : Rows α) :
    Reported (readRows queryFailed scanFailed (.ok rows)) ↔ rows.Unscanned := by
  obtain ⟨delivered, err⟩ := rows
  obtain ⟨list, rfl, -⟩ | ⟨scanErr, unscanned, stopped⟩ := scanRows_cases scanFailed [] delivered
  · rw [readRows_map_ok]
    simp [Reported, not_unscanned_map_ok]
  · simp only [readRows, stopped]
    exact iff_of_true ⟨by simp, rfl⟩ ⟨scanErr, unscanned⟩

theorem reported_getTimeSeries {rows : Rows TimeSeriesStat} (broken : rows.Broken) :
    (getTimeSeries (.ok rows)).2 ≠ none ∧
      (Reported (getTimeSeries (.ok rows)) ↔ rows.Unscanned ∨ rows.delivered = []) := by
  obtain ⟨delivered, err⟩ := rows
  obtain ⟨list, rfl, collected⟩ | ⟨scanErr, unscanned, stopped⟩ :=
    scanRows_cases ("scan time series: " ++ ·) [] delivered
  · simp only [getTimeSeries, collected, Reported, not_unscanned_map_ok, false_or]
    exact ⟨broken, by simp only [List.nil_append, List.map_eq_nil_iff]; exact and_iff_right broken⟩
  · simp only [getTimeSeries, stopped]
    exact ⟨by simp, iff_of_true ⟨by simp, rfl⟩ (.inl ⟨scanErr, unscanned⟩)⟩

/-- `ListJobs` after its count. -/
theorem reported_listJobs {pool : Pool α} {total : Nat} {rows : Rows α}
    (counted : ∀ statement args, pool.queryRow statement args = .ok total)
    (answered : ∀ statement args, pool.query statement args = .ok rows) (filter : ListFilter) :
    Reported ((listJobs pool filter).1, (listJobs pool filter).2.2) ↔ rows.Unscanned := by
  have scanned := reported_readRows id scanJobFailed rows
  simp only [listJobs, counted, answered]
  rw [← scanned, readRows]
  cases scanRows scanJobFailed [] rows.delivered with
  | error err => exact Iff.rfl
  | ok jobs => exact Iff.rfl

/-- When the stream breaks off, five of the functions report it exactly if some delivered row
does not scan; `GetTimeSeries` always returns an error, but with it the rows that were read. -/
theorem broken_stream_reported_iff (jobs : Rows Job) (stats : Rows QueueStat)
    (series : Rows TimeSeriesStat) (pool : Pool Job) (filter : ListFilter) (total : Nat) :
    (jobs.Broken →
      (Reported (getPendingUnqueued (.ok jobs)) ↔ jobs.Unscanned) ∧
      (Reported (getStaleRunningJobs (.ok jobs)) ↔ jobs.Unscanned) ∧
      ((∀ statement args, pool.queryRow statement args = .ok total) →
        (∀ statement args, pool.query statement args = .ok jobs) →
        (Reported ((listJobs pool filter).1, (listJobs pool filter).2.2) ↔ jobs.Unscanned))) ∧
    (stats.Broken →
      (Reported (getQueueStats (.ok stats)) ↔ stats.Unscanned) ∧
      (Reported (getQueueStatsByName (.ok stats)) ↔ stats.Unscanned)) ∧
    (series.Broken →
      (getTimeSeries (.ok series)).2 ≠ none ∧
      (Reported (getTimeSeries (.ok series)) ↔ series.Unscanned ∨ series.delivered = [])) := by
  refine ⟨fun _ => ⟨?_, ?_, ?_⟩, fun _ => ⟨?_, ?_⟩, reported_getTimeSeries⟩
  · exact reported_readRows _ _ jobs
  · exact reported_readRows _ _ jobs
  · exact fun counted answered => reported_listJobs counted answered filter
  · exact reported_readRows _ _ stats
  · exact reported_readRows _ _ stats

/-- The connection is lost after the first row. -/
def lostStats : Rows QueueStat := ⟨[.ok ⟨"default", "pending", 3⟩], some "unexpected EOF"⟩

def lostSeries : Rows TimeSeriesStat := ⟨[.ok ⟨0, "dead", 1⟩], some "unexpected EOF"⟩

/-- The connection is lost before the first row. -/
def lostJobs : Rows Job := ⟨[], some "unexpected EOF"⟩

theorem lost_connection_unreported :
    lostStats.Broken ∧ lostSeries.Broken ∧ lostJobs.Broken ∧
    getQueueStats (.ok lostStats) = ([⟨"default", "pending", 3⟩], none) ∧
    getQueueStatsByName (.ok lostStats) = ([⟨"default", "pending", 3⟩], none) ∧
    getTimeSeries (.ok lostSeries) = ([⟨0, "dead", 1⟩], some "unexpected EOF") ∧
    getPendingUnqueued (.ok lostJobs) = ([], none) ∧
    getStaleRunningJobs (.ok lostJobs) = ([], none) ∧
    listJobs ⟨fun _ _ => .ok 5, fun _ _ => .ok lostJobs⟩ ⟨"", "", "", 1, 20⟩ = ([], 5, none) := by
  have broken {α : Type} {delivered : List (Except String α)} :
      (⟨delivered, some "unexpected EOF"⟩ : Rows α).Broken := by simp [Rows.Broken]
  exact ⟨broken, broken, broken, rfl, rfl, rfl, rfl, rfl, rfl⟩

/-! ## The scheduler's batches

A broken stream is what the scheduler's model calls a truncated answer. -/

theorem IsPartialSelection.take {selected : JobRow → Bool} {key : JobRow → Time} {limit : Nat}
    {jobs : Jobs} {result : List Job} (selection : IsPartialSelection selected key limit jobs result)
    (n : Nat) : IsPartialSelection selected key limit jobs (result.take n) := by
  obtain ⟨distinct, matching, ordered, bounded⟩ := selection
  refine ⟨?_, fun job member => matching job (List.mem_of_mem_take member), ?_, ?_⟩
  · rw [List.map_take]
    exact distinct.sublist (List.take_sublist n _)
  · exact ordered.sublist (List.take_sublist n _)
  · exact (List.take_sublist n result).length_le.trans bounded

/-- The stream of an answer breaks off: the batch is a truncated one, without an error. -/
theorem truncated_of_broken {selected : JobRow → Bool} {key : JobRow → Time} {limit : Nat}
    {jobs : Jobs} {answer : List Job} (selection : IsSelection selected key limit jobs answer)
    (n : Nat) (err : String) {batch : List Job} {returned : Option String}
    (read : getPendingUnqueued (.ok ⟨(answer.take n).map .ok, some err⟩) = (batch, returned) ∨
      getStaleRunningJobs (.ok ⟨(answer.take n).map .ok, some err⟩) = (batch, returned)) :
    returned = none ∧ IsPartialSelection selected key limit jobs batch := by
  obtain ⟨rfl, rfl⟩ : answer.take n = batch ∧ none = returned := by
    simpa only [getPendingUnqueued, getStaleRunningJobs, readRows_map_ok, or_self,
      Prod.mk.injEq] using read
  exact ⟨rfl, selection.1.take n⟩

end GoQueue.Storage
