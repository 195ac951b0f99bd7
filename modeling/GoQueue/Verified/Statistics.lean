import GoQueue.Dashboard.Templates
import GoQueue.Library.Totals
import GoQueue.Storage.Answers
import GoQueue.Verified.Streams

/-! # The statistics agree

Three handlers and the dashboard turn the groups that Postgres counts into maps.  `GetQueues` and
`GetQueueByName` assign, the others add; each asks Postgres anew, so the groups may come in another
order every time.

What is found under a key is in every case the sum of the counts of the groups with that key, and
hence the number of the rows.
-/

namespace GoQueue.Verified

open Storage Listed

variable {α : Type} [Listed α]

/-! ## Reading the maps -/

/-- What a map of Go gives for a key; zero if it is absent. -/
def countOf (m : Api.Counts) (status : String) : Nat := (m.lookup status).getD 0

def countIn (queues : AList fun _ : String => Api.Counts) (queue status : String) : Nat :=
  countOf ((queues.lookup queue).getD ∅) status

theorem adds_add : Adds (fun (totals : Api.Counts) (s : QueueStat) => totals.add s.status s.count)
    countOf QueueStat.status QueueStat.count := by
  intro m s status
  by_cases same : s.status = status
  · subst same
    simp [countOf, Api.Counts.add]
  · simp [countOf, Api.Counts.add, same, AList.lookup_insert_ne (Ne.symm same)]

theorem assigns_insert :
    Assigns (fun (result : Api.Counts) (s : QueueStat) => result.insert s.status s.count)
      countOf QueueStat.status QueueStat.count := by
  intro m s status
  by_cases same : s.status = status
  · subst same
    simp [countOf]
  · simp [countOf, same, AList.lookup_insert_ne (Ne.symm same)]

theorem assigns_groupStat :
    Assigns Api.groupStat (fun queues (name : String × String) => countIn queues name.1 name.2)
      (fun s => (s.queue, s.status)) QueueStat.count := by
  intro m s name
  obtain ⟨queue, status⟩ := name
  by_cases same : s.queue = queue
  · subst same
    have inner := assigns_insert ((m.lookup s.queue).getD ∅) s status
    simpa [countIn, Api.groupStat] using inner
  · simp [countIn, Api.groupStat, same, AList.lookup_insert_ne (Ne.symm same)]

theorem lookup_eq_countOf (m : Api.Counts) (status : String) :
    m.lookup status = if status ∈ m then some (countOf m status) else none := by
  cases found : m.lookup status with
  | none => rw [if_neg (AList.lookup_eq_none.mp found)]
  | some n =>
    have present : status ∈ m := AList.lookup_isSome.mp (by simp [found])
    rw [if_pos present, countOf, found, Option.getD_some]

theorem total_foldl_add (stats : List QueueStat) (m : Api.Counts) :
    (stats.foldl (fun totals s => totals.add s.status s.count) m).total (fun _ n => n) =
      m.total (fun _ n => n) + (stats.map QueueStat.count).sum := by
  induction stats generalizing m with
  | nil => simp
  | cons s rest inductionHypothesis =>
    have added := m.total_insert (fun _ n => n) s.status ((m.lookup s.status).getD 0 + s.count)
    have old : ((m.lookup s.status).map fun n => n).getD 0 = (m.lookup s.status).getD 0 := by simp
    rw [List.foldl_cons, inductionHypothesis, List.map_cons, List.sum_cons, Api.Counts.add]
    omega

/-! ## The views -/

section Views

variable {table : List α} {stats : List QueueStat} (grouped : IsQueueStats table stats)

include grouped

/-- What is added up under a status. -/
theorem sum_status (status : String) :
    ((stats.filter fun s => s.status = status).map QueueStat.count).sum =
      table.countP fun row => column .status row = status :=
  grouped.sum_filter fun name => name.2 = status

theorem countOf_totals (status : String) :
    countOf (stats.foldl (fun totals s => totals.add s.status s.count) ∅) status =
      table.countP fun row => column .status row = status := by
  rw [adds_add.read_foldl, sum_status grouped]
  simp [countOf]

theorem mem_totals (status : String) :
    status ∈ stats.foldl (fun (totals : Api.Counts) s => totals.add s.status s.count) ∅ ↔
      ∃ row ∈ table, column .status row = status := by
  have inserts (m : Api.Counts) (s : QueueStat) (k : String) :
      k ∈ m.add s.status s.count ↔ k = s.status ∨ k ∈ m := AList.mem_insert m
  rw [AList.mem_foldl inserts, or_iff_left (AList.notMem_empty _)]
  exact grouped.exists_iff Prod.snd status

/-- The map does not depend on the order of the groups. -/
theorem lookup_totals (status : String) :
    (stats.foldl (fun (totals : Api.Counts) s => totals.add s.status s.count) ∅).lookup status =
      if ∃ row ∈ table, column .status row = status then
        some (table.countP fun row => column .status row = status)
      else none := by
  rw [lookup_eq_countOf, countOf_totals grouped]
  simp only [mem_totals grouped]

theorem total_totals :
    (stats.foldl (fun (totals : Api.Counts) s => totals.add s.status s.count) ∅).total
      (fun _ n => n) = table.length := by
  have folded := total_foldl_add stats ∅
  have counted := grouped.sum_filter fun _ => true
  simp only [List.filter_true, List.countP_true] at counted
  rw [folded, counted]
  exact Nat.zero_add _

theorem countIn_queues (queue status : String) :
    countIn (stats.foldl Api.groupStat ∅) queue status = table.countP fun row =>
      column .queue row = queue && column .status row = status := by
  have read := assigns_groupStat.read_foldl grouped.distinct (m := ∅) (by simp [countIn, countOf])
    (queue, status)
  rw [read, grouped.sum_filter fun name => name = (queue, status)]
  simp [Prod.ext_iff]

theorem mem_queues (queue : String) :
    queue ∈ stats.foldl Api.groupStat ∅ ↔ ∃ row ∈ table, column .queue row = queue := by
  have inserts (m : AList fun _ : String => Api.Counts) (s : QueueStat) (k : String) :
      k ∈ Api.groupStat m s ↔ k = s.queue ∨ k ∈ m := AList.mem_insert m
  rw [AList.mem_foldl inserts, or_iff_left (AList.notMem_empty _)]
  exact grouped.exists_iff Prod.fst queue

theorem sum_queues (status : String) :
    ((stats.foldl Api.groupStat ∅).keys.map fun queue =>
      countIn (stats.foldl Api.groupStat ∅) queue status).sum =
      table.countP fun row => column .status row = status := by
  simp only [countIn_queues grouped, Bool.and_comm (decide (column .queue _ = _))]
  refine List.sum_countP_of_nodup (AList.keys_nodup _) _ fun row inTable _ => ?_
  exact AList.mem_keys.mp ((mem_queues grouped _).mpr ⟨row, inTable, rfl⟩)

end Views

theorem countOf_named {table : List α} {queue : String} {stats : List QueueStat}
    (grouped : IsQueueStats (inQueue table queue) stats) (status : String) :
    countOf (stats.foldl (fun result s => result.insert s.status s.count) ∅) status =
      table.countP fun row => column .queue row = queue && column .status row = status := by
  -- all groups are of this queue, so that their statuses are distinct
  have named : stats.map (fun s => (s.queue, s.status)) =
      (stats.map QueueStat.status).map fun status => (queue, status) := by
    rw [List.map_map]
    refine List.map_congr_left fun s member => ?_
    obtain ⟨row, counted, same⟩ := grouped.exists_row member
    have inThis : column .queue row = queue := by
      simpa [inQueue] using (List.mem_filter.mp counted).2
    exact Prod.ext ((congrArg Prod.fst same).symm.trans inThis) rfl
  have distinct := (named ▸ grouped.distinct).of_map _
  rw [assigns_insert.read_foldl distinct (by simp [countOf]), sum_status grouped, inQueue,
    List.countP_filter]
  simp only [Bool.and_comm]

theorem getQueueStats_all (stats : List QueueStat) :
    getQueueStats (.ok (.all stats)) = (stats, none) := readRows_map_ok _ _ stats none

theorem getQueueStatsByName_all (stats : List QueueStat) :
    getQueueStatsByName (.ok (.all stats)) = (stats, none) := readRows_map_ok _ _ stats none

/-- For every table, with a grouping of its own for each request: under each queue and status
`GetQueues` has the number of the rows, and so has `GetQueueByName`; under each status `GetStats`
has the sum over the queues, which is the number of the rows; the dashboard has the same map, and
its counts add up to the number of all rows. -/
theorem statistics_agree {table : List α} {forQueues forStats forDashboard : List QueueStat}
    {forName : String → List QueueStat} (queueGroups : IsQueueStats table forQueues)
    (nameGroups : ∀ name, IsQueueStats (inQueue table name) (forName name))
    (statsGroups : IsQueueStats table forStats)
    (dashboardGroups : IsQueueStats table forDashboard) :
    ∃ (queues : AList fun _ : String => Api.Counts) (named : String → Api.Counts)
      (stats dashboard : Api.Counts),
      Api.getQueues (getQueueStats (.ok (.all forQueues))) = .ok queues ∧
      (∀ name, Api.getQueueByName (getQueueStatsByName (.ok (.all (forName name)))) =
        .ok (named name)) ∧
      Api.getStats (getQueueStats (.ok (.all forStats))) = .ok stats ∧
      Dashboard.renderStatsFragment (getQueueStats (.ok (.all forDashboard))) = .ok dashboard ∧
      (∀ queue status,
        countIn queues queue status = table.countP (fun row =>
          column .queue row = queue && column .status row = status) ∧
        countOf (named queue) status = countIn queues queue status) ∧
      (∀ status,
        countOf stats status = (queues.keys.map fun queue => countIn queues queue status).sum ∧
        countOf stats status = table.countP fun row => column .status row = status) ∧
      (∀ status, stats.lookup status = dashboard.lookup status) ∧
      stats.total (fun _ n => n) = table.length := by
  simp only [getQueueStats_all, getQueueStatsByName_all]
  refine ⟨_, _, _, _, rfl, fun name => rfl, rfl, rfl, fun queue status => ?_, fun status => ?_,
    fun status => ?_, total_totals statsGroups⟩
  · have counted := countIn_queues queueGroups queue status
    exact ⟨counted, (countOf_named (nameGroups queue) status).trans counted.symm⟩
  · have counted := countOf_totals statsGroups status
    exact ⟨counted.trans (sum_queues queueGroups status).symm, counted⟩
  · rw [lookup_totals statsGroups, lookup_totals dashboardGroups]

/-- A row of which only the queue and the status are of interest. -/
structure QueueRow where
  queue : String
  status : String
deriving DecidableEq

instance : Listed QueueRow where
  column
    | .queue, row => row.queue
    | .status, row => row.status
    | .type, _ => ""
  createdAt _ := 0

def twoQueues : List QueueRow :=
  [⟨"default", "pending"⟩, ⟨"email", "pending"⟩, ⟨"default", "on hold"⟩]

def twoQueuesByName (name : String) : List QueueStat :=
  if name = "default" then [⟨"default", "on hold", 1⟩, ⟨"default", "pending", 1⟩]
  else if name = "email" then [⟨"email", "pending", 1⟩]
  else []

theorem isQueueStats_twoQueuesByName (name : String) :
    IsQueueStats (inQueue twoQueues name) (twoQueuesByName name) := by
  by_cases default : name = "default"
  · subst default
    exact ⟨by decide, by decide, by decide⟩
  by_cases email : name = "email"
  · subst email
    exact ⟨by decide, by decide, by decide⟩
  have none : inQueue twoQueues name = [] := by
    simp [inQueue, twoQueues, column, Ne.symm default, Ne.symm email]
  rw [none, twoQueuesByName, if_neg default, if_neg email]
  exact ⟨List.nodup_nil, nofun, nofun⟩

theorem twoQueues_agree : ∃ (queues : AList fun _ : String => Api.Counts) (stats : Api.Counts),
    countIn queues "default" "pending" = 1 ∧ countOf stats "pending" = 2 ∧
    countOf stats "pending" = (queues.keys.map fun queue => countIn queues queue "pending").sum ∧
    stats.total (fun _ n => n) = 3 := by
  have groups : IsQueueStats twoQueues
      [⟨"default", "on hold", 1⟩, ⟨"default", "pending", 1⟩, ⟨"email", "pending", 1⟩] :=
    ⟨by decide, by decide, by decide⟩
  have reordered : IsQueueStats twoQueues
      [⟨"default", "pending", 1⟩, ⟨"default", "on hold", 1⟩, ⟨"email", "pending", 1⟩] :=
    ⟨by decide, by decide, by decide⟩
  obtain ⟨queues, named, stats, dashboard, -, -, -, -, cells, totals, -, all⟩ :=
    statistics_agree groups isQueueStats_twoQueuesByName reordered groups
  exact ⟨queues, stats, (cells "default" "pending").1, (totals "pending").2,
    (totals "pending").1, all⟩

end GoQueue.Verified
