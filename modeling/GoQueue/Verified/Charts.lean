import Mathlib.Algebra.BigOperators.Ring.Finset
import GoQueue.Dashboard.Templates
import GoQueue.Library.Grouping
import GoQueue.Library.Totals
import GoQueue.Storage.Answers
import GoQueue.Verified.Streams

/-! # The chart keeps the counts

`buildChartData` fills a map of accumulators and a list of labels in one loop and reads them back in
another.  `Charted` says what the two hold after some of the entries; the labels are the first
occurrences among those of the entries, and under each label stand the sums of the counts, as
64-bit integers.

A label shows the time of day only.  It tells the buckets apart if they are whole minutes
less than a day apart, at one offset from UTC.
-/

namespace GoQueue.Dashboard

open Storage

/-! ## The three series -/

inductive Series where
  | completed
  | failed
  | dead

def Series.status : Series → String
  | completed => "completed"
  | failed => "failed"
  | dead => "dead"

def BucketData.of (bd : BucketData) : Series → Int
  | .completed => bd.completed
  | .failed => bd.failed
  | .dead => bd.dead

def ChartData.of (chart : ChartData) : Series → List Int
  | .completed => chart.completed
  | .failed => chart.failed
  | .dead => chart.dead

theorem BucketData.of_add (bd : BucketData) (status : String) (count : Int) (series : Series) :
    (bd.add status count).of series =
      if status = series.status then (bd.of series + count).wrap64 else bd.of series := by
  unfold BucketData.add
  cases series <;> split_ifs <;> simp_all [BucketData.of, Series.status]

theorem Buckets.of_chartData (b : Buckets) (series : Series) :
    b.chartData.of series = b.orderedLabels.map fun label => (b.get label).of series := by
  cases series <;> rfl

/-! ## The loop -/

section Loop

variable (zone : Time → Int)

/-- The counts of a series under a label. -/
def amount (stats : List TimeSeriesStat) (l : String) (series : Series) : Nat :=
  ((stats.filter fun s => s.status = series.status && label zone s.bucket = l).map
    TimeSeriesStat.count).sum

/-- What the variables of the loop hold after these entries. -/
structure Charted (stats : List TimeSeriesStat) (b : Buckets) : Prop where
  known : ∀ l, l ∈ b.bucketMap ↔ l ∈ b.orderedLabels
  labels : b.orderedLabels = (stats.map fun s => label zone s.bucket).eraseDups
  value : ∀ l series, (b.get l).of series = (amount zone stats l series : Int).wrap64

variable {zone} {stats : List TimeSeriesStat} {b : Buckets}

theorem amount_concat (stats : List TimeSeriesStat) (s : TimeSeriesStat) (l : String)
    (series : Series) : amount zone (stats ++ [s]) l series = amount zone stats l series +
      if s.status = series.status ∧ label zone s.bucket = l then s.count else 0 := by
  simp only [amount, List.filter_append, List.map_append, List.sum_append]
  by_cases counted : s.status = series.status ∧ label zone s.bucket = l
  · simp [counted]
  · have skipped : (decide (s.status = series.status) &&
        decide (label zone s.bucket = l)) = false := by
      simpa using counted
    simp [skipped, counted]

namespace Buckets

theorem orderedLabels_add (b : Buckets) (s : TimeSeriesStat) :
    (b.add zone s).orderedLabels = if label zone s.bucket ∈ b.bucketMap then b.orderedLabels
      else b.orderedLabels ++ [label zone s.bucket] := by
  simp only [add]
  split_ifs <;> rfl

theorem mem_add (b : Buckets) (s : TimeSeriesStat) (l : String) :
    l ∈ (b.add zone s).bucketMap ↔ l = label zone s.bucket ∨ l ∈ b.bucketMap := by
  simp only [add, AList.mem_insert]
  split_ifs <;> simp

/-- A new label starts from the zero that an absent one reads as. -/
theorem get_add (b : Buckets) (s : TimeSeriesStat) (l : String) :
    (b.add zone s).get l = if label zone s.bucket = l then
      (b.get (label zone s.bucket)).add s.status s.count else b.get l := by
  by_cases present : label zone s.bucket ∈ b.bucketMap
  · by_cases same : label zone s.bucket = l
    · subst same
      simp [add, get, present]
    · simp [add, get, present, same, AList.lookup_insert_ne (Ne.symm same)]
  · have absent := AList.lookup_eq_none.mpr present
    by_cases same : label zone s.bucket = l
    · subst same
      simp [add, get, present, absent]
    · simp [add, get, present, same, AList.lookup_insert_ne (Ne.symm same)]

end Buckets

theorem Charted.add (charted : Charted zone stats b) (s : TimeSeriesStat) :
    Charted zone (stats ++ [s]) (b.add zone s) := by
  have known : label zone s.bucket ∈ b.bucketMap ↔
      label zone s.bucket ∈ stats.map fun s => label zone s.bucket := by
    rw [charted.known, charted.labels, List.mem_eraseDups]
  refine ⟨fun l => ?_, ?_, fun l series => ?_⟩
  · rw [b.mem_add, b.orderedLabels_add, charted.known]
    split_ifs with present
    · have inside := (charted.known _).mp present
      constructor
      · rintro (rfl | member)
        · exact inside
        · exact member
      · exact .inr
    · simp [or_comm]
  · simp only [b.orderedLabels_add, charted.labels, known, List.map_append, List.map_singleton,
      List.eraseDups_concat]
  · rw [b.get_add, amount_concat]
    by_cases same : label zone s.bucket = l
    · rw [if_pos same, BucketData.of_add, charted.value, same]
      by_cases counted : s.status = series.status
      · simp [counted]
      · simp [counted]
    · simp [same, charted.value]

theorem charted (zone : Time → Int) (stats : List TimeSeriesStat) :
    Charted zone stats (stats.foldl (Buckets.add zone) ⟨∅, []⟩) := by
  induction stats using List.reverseRecOn with
  | nil =>
    refine ⟨fun l => by simp, rfl, fun l series => ?_⟩
    have zero : (0 : Int).wrap64 = 0 := Int.wrap64_eq_self (by decide) (by decide)
    cases series <;> simp [Buckets.get, BucketData.of, amount, zero]
  | append_singleton stats s inductionHypothesis =>
    rw [List.foldl_concat]
    exact inductionHypothesis.add s

end Loop

/-! ## Sums -/

/-- All counts of a series. -/
def totalOf (stats : List TimeSeriesStat) (series : Series) : Nat :=
  ((stats.filter fun s => s.status = series.status).map TimeSeriesStat.count).sum

/-- The series adds up to all counts of its status. -/
theorem sum_amount (zone : Time → Int) (stats : List TimeSeriesStat) (series : Series) :
    (((stats.map fun s => label zone s.bucket).eraseDups).map fun l =>
      amount zone stats l series).sum = totalOf stats series := by
  refine List.sum_filter_of_nodup (List.nodup_eraseDups _) _ _ fun s member _ => ?_
  exact List.mem_eraseDups.mpr (List.mem_map_of_mem member)

theorem amount_le_totalOf {zone : Time → Int} {stats : List TimeSeriesStat} {l : String}
    (shown : l ∈ (stats.map fun s => label zone s.bucket).eraseDups) (series : Series) :
    amount zone stats l series ≤ totalOf stats series := by
  rw [← sum_amount zone]
  exact List.le_sum_map_of_mem (f := fun l => amount zone stats l series) shown

theorem wrap64_natCast_eq_iff (n : Nat) : (n : Int).wrap64 = n ↔ n < 2 ^ 63 := by
  constructor
  · intro equal
    have := Int.wrap64_lt n
    omega
  · intro fits
    exact Int.wrap64_eq_self (by omega) (by omega)

/-! ## Labels in chronological order -/

def day : Time := 24 * 60 * minute

/-- Whole minutes in ascending order, less than a day apart. -/
structure Minutes (buckets : List Time) : Prop where
  ordered : buckets.Pairwise (· ≤ ·)
  aligned : ∀ t ∈ buckets, t % minute = 0
  span : ∀ t ∈ buckets, ∀ u ∈ buckets, u - t < day

theorem digitChar_injective {m n : Nat} (low : m < 10) (low' : n < 10)
    (equal : Nat.digitChar m = Nat.digitChar n) : m = n := by
  have decided : ∀ a b : Fin 10, Nat.digitChar a = Nat.digitChar b → a = b := by decide
  exact congrArg Fin.val (decided ⟨m, low⟩ ⟨n, low'⟩ equal)

theorem twoDigits_injective {m n : Nat} (low : m < 100) (low' : n < 100)
    (equal : twoDigits m = twoDigits n) : m = n := by
  simp only [twoDigits, List.cons.injEq, and_true] at equal
  have tens := digitChar_injective (by omega) (by omega) equal.1
  have units := digitChar_injective (by omega) (by omega) equal.2
  omega

/-- Two whole minutes less than a day apart have different labels. -/
theorem label_injective (offset : Int) {t u : Time} (aligned : t % minute = 0)
    (aligned' : u % minute = 0) (near : u - t < day) (near' : t - u < day)
    (equal : label (fun _ => offset) t = label (fun _ => offset) u) : t = u := by
  simp only [label, String.ofList_inj] at equal
  obtain ⟨hours, rest⟩ := List.append_inj equal rfl
  have hours := twoDigits_injective (by omega) (by omega) hours
  have minutes := twoDigits_injective (by omega) (by omega) (List.cons.inj rest).2
  have numbers : ∀ a b c : Int, a % 60000000000 = 0 → b % 60000000000 = 0 →
      b - a < 86400000000000 → a - b < 86400000000000 →
      ((a / 1000000000 + c) / 60 / 60 % 24).toNat = ((b / 1000000000 + c) / 60 / 60 % 24).toNat →
      ((a / 1000000000 + c) / 60 % 60).toNat = ((b / 1000000000 + c) / 60 % 60).toNat →
      a = b := by
    omega
  exact numbers t u offset aligned aligned' near near' hours minutes

theorem Minutes.of_append {buckets more : List Time} (minutes : Minutes (buckets ++ more)) :
    Minutes buckets where
  ordered := (List.pairwise_append.mp minutes.ordered).1
  aligned t member := minutes.aligned t (List.mem_append_left _ member)
  span t member u member' :=
    minutes.span t (List.mem_append_left _ member) u (List.mem_append_left _ member')

/-- An earlier entry has the label of the last one only if it has its bucket. -/
theorem Minutes.label_mem_iff (offset : Int) {stats : List TimeSeriesStat} {last : Time}
    (minutes : Minutes (stats.map TimeSeriesStat.bucket ++ [last])) :
    label (fun _ => offset) last ∈ (stats.map fun s => label (fun _ => offset) s.bucket) ↔
      last ∈ stats.map TimeSeriesStat.bucket := by
  have isLast : last ∈ stats.map TimeSeriesStat.bucket ++ [last] := by simp
  constructor
  · intro member
    obtain ⟨s, earlier, equal⟩ := List.mem_map.mp member
    have before : s.bucket ∈ stats.map TimeSeriesStat.bucket ++ [last] :=
      List.mem_append_left _ (List.mem_map_of_mem earlier)
    have same := label_injective offset (minutes.aligned _ before) (minutes.aligned _ isLast)
      (minutes.span _ before _ isLast) (minutes.span _ isLast _ before) equal
    rw [← same]
    exact List.mem_map_of_mem earlier
  · intro member
    obtain ⟨s, earlier, rfl⟩ := List.mem_map.mp member
    exact List.mem_map_of_mem earlier

/-- A new bucket at the end is after the others. -/
theorem Minutes.ascending_concat {buckets all : List Time} {last : Time}
    (minutes : Minutes (all ++ [last])) (ascending : buckets.Pairwise (· < ·))
    (members : ∀ t ∈ buckets, t ∈ all) (new : last ∉ buckets) :
    (buckets ++ [last]).Pairwise (· < ·) := by
  refine List.pairwise_append.mpr ⟨ascending, List.pairwise_singleton _ _, ?_⟩
  intro t member u isLast
  rw [List.mem_singleton.mp isLast]
  have before := (List.pairwise_append.mp minutes.ordered).2.2 t (members t member) last (by simp)
  exact lt_of_le_of_ne before fun equal => new (equal ▸ member)

/-- The labels are those of the buckets, each bucket once and in ascending order. -/
theorem exists_buckets (offset : Int) {stats : List TimeSeriesStat}
    (minutes : Minutes (stats.map TimeSeriesStat.bucket)) :
    ∃ buckets : List Time, buckets.Pairwise (· < ·) ∧
      (∀ t, t ∈ buckets ↔ t ∈ stats.map TimeSeriesStat.bucket) ∧
      (stats.map fun s => label (fun _ => offset) s.bucket).eraseDups =
        buckets.map (label fun _ => offset) := by
  induction stats using List.reverseRecOn with
  | nil => exact ⟨[], .nil, fun t => .rfl, rfl⟩
  | append_singleton stats s inductionHypothesis =>
    rw [List.map_append, List.map_singleton] at minutes
    obtain ⟨buckets, ascending, members, labels⟩ := inductionHypothesis minutes.of_append
    simp only [List.map_append, List.map_singleton, List.eraseDups_concat, labels,
      minutes.label_mem_iff, ← members, List.mem_append, List.mem_singleton]
    by_cases present : s.bucket ∈ buckets
    · rw [if_pos present]
      refine ⟨buckets, ascending, fun t => ?_, rfl⟩
      exact ⟨.inl, fun member => member.elim id fun equal => equal ▸ present⟩
    · rw [if_neg present]
      refine ⟨buckets ++ [s.bucket], ?_, fun t => by simp, by simp⟩
      exact minutes.ascending_concat ascending (fun t => (members t).mp) present

/-! ## The chart -/

section Chart

variable (zone : Time → Int) (stats : List TimeSeriesStat)

/-- The chart of these entries. -/
def chartOf : ChartData := (stats.foldl (Buckets.add zone) ⟨∅, []⟩).chartData

theorem buildChartData_all :
    buildChartData zone (getTimeSeries (.ok (.all stats))) = .ok (chartOf zone stats) := by
  simp only [getTimeSeries, Rows.all, scanRows_map_ok]
  rfl

theorem labels_chartOf : (chartOf zone stats).labels =
    (stats.map fun s => label zone s.bucket).eraseDups := (charted zone stats).labels

theorem of_chartOf (series : Series) : (chartOf zone stats).of series =
    (chartOf zone stats).labels.map fun l => (amount zone stats l series : Int).wrap64 := by
  rw [chartOf, Buckets.of_chartData]
  exact List.map_congr_left fun l _ => (charted zone stats).value l series

theorem of_chartOf_iff (series : Series) :
    (∀ l ∈ (chartOf zone stats).labels, amount zone stats l series < 2 ^ 63) ↔
      (chartOf zone stats).of series =
        (chartOf zone stats).labels.map fun l => (amount zone stats l series : Int) := by
  rw [of_chartOf, List.map_inj_left]
  exact forall₂_congr fun l _ => (wrap64_natCast_eq_iff _).symm

theorem sum_chartOf {series : Series}
    (fits : ∀ l ∈ (chartOf zone stats).labels, amount zone stats l series < 2 ^ 63) :
    ((chartOf zone stats).of series).sum = totalOf stats series := by
  rw [(of_chartOf_iff zone stats series).mp fits, labels_chartOf, ← sum_amount zone stats series,
    Nat.cast_list_sum, List.map_map]
  rfl

end Chart

/-- For every list of entries: the four arrays are of one length and the labels are the first
occurrences among those of the entries.  Each value is the sum of the counts with its label and
status as a 64-bit integer, so it is the sum itself if and only if that is below `2 ^ 63`; if all
are, each array adds up to all counts of its status.  If the buckets are whole minutes in ascending
order, less than a day apart and at one offset from UTC, the labels are those of the buckets, each
once and in ascending order. -/
theorem chart_values_iff (zone : Time → Int) (stats : List TimeSeriesStat) :
    ∃ chart, buildChartData zone (getTimeSeries (.ok (.all stats))) = .ok chart ∧
      (∀ series, (chart.of series).length = chart.labels.length) ∧
      chart.labels.Nodup ∧
      chart.labels = (stats.map fun s => label zone s.bucket).eraseDups ∧
      (∀ series, chart.of series =
        chart.labels.map fun l => (amount zone stats l series : Int).wrap64) ∧
      (∀ series, (∀ l ∈ chart.labels, amount zone stats l series < 2 ^ 63) ↔
        chart.of series = chart.labels.map fun l => (amount zone stats l series : Int)) ∧
      (∀ series, (∀ l ∈ chart.labels, amount zone stats l series < 2 ^ 63) →
        (chart.of series).sum = totalOf stats series) ∧
      ∀ offset, zone = (fun _ => offset) → Minutes (stats.map TimeSeriesStat.bucket) →
        ∃ buckets : List Time, buckets.Pairwise (· < ·) ∧
          (∀ t, t ∈ buckets ↔ t ∈ stats.map TimeSeriesStat.bucket) ∧
          chart.labels = buckets.map (label zone) := by
  have labels := labels_chartOf zone stats
  refine ⟨_, buildChartData_all zone stats, fun series => ?_, ?_, labels, of_chartOf zone stats,
    of_chartOf_iff zone stats, fun series fits => sum_chartOf zone stats fits, ?_⟩
  · rw [of_chartOf, List.length_map]
  · rw [labels]
    exact List.nodup_eraseDups _
  · rintro offset rfl minutes
    rw [labels]
    exact exists_buckets offset minutes

/-- Two counts under one label whose sum is no 64-bit integer. -/
def hugeCounts : List TimeSeriesStat := [⟨0, "completed", 2 ^ 63 - 1⟩, ⟨0, "completed", 1⟩]

theorem hugeCounts_wrap :
    buildChartData (fun _ => 0) (getTimeSeries (.ok (.all hugeCounts))) =
      .ok ⟨["00:00"], [-2 ^ 63], [0], [0]⟩ ∧
    amount (fun _ => 0) hugeCounts "00:00" .completed = 2 ^ 63 := by
  decide +kernel

/-! ## The chart of a table -/

section Table

variable {table : List Job} {now : Time} {stats : List TimeSeriesStat}
  (answer : IsTimeSeries table now (60 * minute) stats)

include answer

theorem totalOf_answer (series : Series) : totalOf stats series =
    (table.filter (inSeries now (60 * minute))).countP fun job =>
      job.status.text = series.status :=
  answer.counted.sum_filter fun bucket => bucket.2 = series.status

/-- The buckets of the last hour. -/
theorem minutes_answer (past : ∀ job ∈ table, job.updatedAt ≤ now) :
    Minutes (stats.map TimeSeriesStat.bucket) := by
  have bucket : ∀ t ∈ stats.map TimeSeriesStat.bucket,
      ∃ u : Time, t = truncMinute u ∧ now - 60 * minute < u ∧ u ≤ now := by
    intro t member
    obtain ⟨s, inStats, rfl⟩ := List.mem_map.mp member
    obtain ⟨job, counted, same⟩ := answer.counted.exists_row inStats
    obtain ⟨inTable, selected⟩ := List.mem_filter.mp counted
    have recent : now - 60 * minute < job.updatedAt := by
      simp only [inSeries, Bool.and_eq_true, decide_eq_true_eq] at selected
      exact selected.1
    exact ⟨job.updatedAt, (congrArg Prod.fst same).symm, recent, past job inTable⟩
  refine ⟨answer.ordered, fun t member => ?_, fun t member u member' => ?_⟩
  · obtain ⟨v, rfl, -, -⟩ := bucket t member
    exact Int.mul_emod_left _ _
  · obtain ⟨v, rfl, recent, -⟩ := bucket t member
    obtain ⟨w, rfl, -, before⟩ := bucket u member'
    have bound : ∀ a b c : Int, c - 60 * 60000000000 < a → b ≤ c →
        b / 60000000000 * 60000000000 - a / 60000000000 * 60000000000 < 86400000000000 := by
      omega
    exact bound v w now recent before

/-- The chart that is drawn of a table: no sum wraps around, each array adds up to the number of
jobs that came to its status within the hour, and the labels are in chronological order. -/
theorem chart_of_table (past : ∀ job ∈ table, job.updatedAt ≤ now) (small : table.length < 2 ^ 63)
    (offset : Int) :
    ∃ chart, buildChartData (fun _ => offset) (getTimeSeries (.ok (.all stats))) = .ok chart ∧
      (∀ series, (chart.of series).sum = ((table.filter (inSeries now (60 * minute))).countP
        fun job => job.status.text = series.status : Nat)) ∧
      ∃ buckets : List Time, buckets.Pairwise (· < ·) ∧
        chart.labels = buckets.map (label fun _ => offset) := by
  refine ⟨_, buildChartData_all _ stats, fun series => ?_, ?_⟩
  · have total := totalOf_answer answer series
    have bound : totalOf stats series < 2 ^ 63 := by
      have counted := List.countP_le_length (p := fun job : Job => job.status.text = series.status)
        (l := table.filter (inSeries now (60 * minute)))
      have := List.length_filter_le (inSeries now (60 * minute)) table
      omega
    have fits : ∀ l ∈ (chartOf (fun _ => offset) stats).labels,
        amount (fun _ => offset) stats l series < 2 ^ 63 := by
      intro l shown
      rw [labels_chartOf] at shown
      exact lt_of_le_of_lt (amount_le_totalOf shown series) bound
    rw [sum_chartOf _ stats fits, total]
  · obtain ⟨buckets, ascending, -, labels⟩ := exists_buckets offset (minutes_answer answer past)
    exact ⟨buckets, ascending, (labels_chartOf _ stats).trans labels⟩

end Table

end GoQueue.Dashboard
