import GoQueue.Dashboard.Templates
import GoQueue.Verified.Listing

/-! # Listing jobs page by page

Each page is cut out of an order that Postgres chooses anew.  The total and the sequence of
creation times are what they should be in every case.

The pages form a partition of the matching rows exactly if no two rows with the same creation time
stand on both sides of a page boundary.  With distinct creation times, the rows of a page are those
at its exact places as long as the 64-bit product that gives the offset does not wrap around to a
place in the listing.
-/

namespace GoQueue.Verified

open Storage Listed

variable {α : Type} [Listed α]

/-! ## All pages -/

/-- The number of pages that the rows fill. -/
def pagesOf (rows limit : Nat) : Nat := (rows + limit - 1) / limit

theorem le_pagesOf_mul (rows : Nat) {limit : Nat} (positive : 0 < limit) :
    rows ≤ pagesOf rows limit * limit := by
  have remainder := Nat.lt_div_mul_add (a := rows + limit - 1) positive
  simp only [pagesOf]
  omega

theorem mul_lt_of_lt_pagesOf {k rows limit : Nat} (positive : 0 < limit)
    (inside : k < pagesOf rows limit) : k * limit < rows := by
  have := (Nat.le_div_iff_mul_le positive).mp (Nat.succ_le_of_lt inside)
  rw [Nat.succ_mul] at this
  omega

/-- The request asks for the page after `k` others, with the texts of a filter. -/
def Asks (r : Api.ListRequest) (filter : ListFilter) (limit k : Nat) : Prop :=
  r.filter = { filter with page := k + 1, limit := limit }

instance (r : Api.ListRequest) (filter : ListFilter) (limit k : Nat) :
    Decidable (Asks r filter limit k) := inferInstanceAs (Decidable (_ = _))

/-- The response with these rows on the page after `k` others. -/
def pageResponse (total limit k : Nat) (data : List α) : Api.PaginatedResponse α :=
  ⟨data, ⟨k + 1, limit, total, pagesOf total limit⟩⟩

theorem listJobs_page {pool : Pool α} {table : List α} {order : (α → Bool) → List α}
    (serves : pool.Serves table order) {filter : ListFilter} {limit : Nat} (positive : 0 < limit)
    (most : limit ≤ 100) (small : (table.filter filter.matches).length < 2 ^ 53)
    {r : Api.ListRequest} {k : Nat} (asks : Asks r filter limit k) (fits : k * limit < 2 ^ 63) :
    Api.listJobs pool r = .ok (pageResponse (table.filter filter.matches).length limit k
      ((order filter.matches).page limit k)) := by
  have served := listJobs_served serves { filter with page := k + 1, limit := limit }
    (by simp only; omega) (by simp only; omega)
  rw [Int.toNat_natCast, window_offset filter fits] at served
  have count := Api.pageCount_eq positive (by omega) small
  simp only [Api.listJobs, show r.filter = _ from asks, served]
  exact congrArg Except.ok (congrArg _ (congrArg _ count))

/-- The pages one after the other. -/
def allPages (data : Nat → List α) (pages : Nat) : List α := (List.range pages).flatMap data

open Classical in
/-- An order that is the given one for one condition. -/
noncomputable def orderWith (table : List α) (keep : α → Bool) (order : List α) :
    (α → Bool) → List α :=
  Function.update (fun keep => (table.filter keep).arrange createdAt) keep order

theorem isListing_orderWith {table : List α} {keep : α → Bool} {order : List α}
    (listing : IsListing table keep order) (keep' : α → Bool) :
    IsListing table keep' (orderWith table keep order keep') := by
  by_cases same : keep' = keep
  · subst same
    simpa [orderWith] using listing
  · simpa [orderWith, same] using ⟨List.arrange_perm _, List.descending_arrange _⟩

section Pages

variable {table : List α} {filter : ListFilter} {limit : Nat} (positive : 0 < limit)
  {order : Nat → (α → Bool) → List α} (listing : ∀ k, IsListing table filter.matches
    (order k filter.matches))

include positive listing

theorem descending_allPages : (allPages (fun k => (order k filter.matches).page limit k)
    (pagesOf (table.filter filter.matches).length limit)).Descending createdAt := by
  have keys := List.map_flatMap_page (fun k => ⟨(listing k).sorted, (listing k).perm⟩)
    (le_pagesOf_mul _ positive)
  rw [List.descending_iff_map, allPages, keys]
  exact List.descending_iff_map.mp (listing 0).sorted

theorem allPages_perm
    (separated : ∀ k, (order 0 filter.matches).Separated createdAt (k * limit)) :
    (allPages (fun k => (order k filter.matches).page limit k)
      (pagesOf (table.filter filter.matches).length limit)).Perm (table.filter filter.matches) :=
  List.flatMap_page_perm (fun k => ⟨(listing k).sorted, (listing k).perm⟩)
    (le_pagesOf_mul _ positive) separated

end Pages

/-- A boundary with equal creation times on both sides: there are orders whose pages show one row
twice. -/
theorem exists_repeated {table : List α} {filter : ListFilter} {limit : Nat} (positive : 0 < limit)
    {listed : List α} (listing : IsListing table filter.matches listed) {k : Nat}
    (tie : ¬ listed.Separated createdAt (k * limit)) :
    ∃ order : Nat → (α → Bool) → List α, (∀ k keep, IsListing table keep (order k keep)) ∧
      ¬ (allPages (fun k => (order k filter.matches).page limit k)
        (pagesOf (table.filter filter.matches).length limit)).Nodup := by
  cases k with
  | zero => exact absurd (by simp [List.Separated]) tie
  | succ k =>
    obtain ⟨other, row, perm, sorted, before, after⟩ := listing.sorted.exists_overlap positive tie
    have listing' : IsListing table filter.matches other := ⟨perm.trans listing.perm, sorted⟩
    refine ⟨fun j => orderWith table filter.matches (if j = k + 1 then other else listed), ?_, ?_⟩
    · intro j
      refine isListing_orderWith ?_
      split_ifs
      · exact listing'
      · exact listing
    · intro distinct
      -- the second of the two pages is not empty, so it is one of those that are read
      have inside : k + 1 < pagesOf (table.filter filter.matches).length limit := by
        by_contra outside
        have enough := le_pagesOf_mul (table.filter filter.matches).length positive
        have beyond : other.length ≤ (k + 1) * limit := by
          rw [listing'.perm.length_eq]
          exact enough.trans (Nat.mul_le_mul_right limit (by omega))
        simp [List.page, List.drop_of_length_le beyond] at after
      obtain ⟨-, disjoint⟩ := List.nodup_flatMap.mp distinct
      have apart := List.pairwise_iff_getElem.mp disjoint k (k + 1) (by simpa using by omega)
        (by simpa using inside) (by omega)
      simp only [Function.onFun, List.getElem_range, orderWith, Function.update_self] at apart
      exact apart (by simpa using before) (by simpa using after)

/-- For every table and filter, whatever order each query uses: the responses have the number of
matching rows as their total, and the pages together are in descending order of creation time.
They contain every matching row exactly once, for every choice of orders, if and only if no two
rows with the same creation time stand on both sides of a page boundary. -/
theorem pages_partition_iff {table : List α} (distinct : table.Nodup) (filter : ListFilter)
    {limit : Nat} (positive : 0 < limit) (most : limit ≤ 100)
    (small : (table.filter filter.matches).length < 2 ^ 53) {request : Nat → Api.ListRequest}
    (asks : ∀ k < pagesOf (table.filter filter.matches).length limit,
      Asks (request k) filter limit k) :
    (∀ (pool : Nat → Pool α) (order : Nat → (α → Bool) → List α),
      (∀ k, (pool k).Serves table (order k)) → ∃ data : Nat → List α,
        (∀ k < pagesOf (table.filter filter.matches).length limit,
          Api.listJobs (pool k) (request k) =
            .ok (pageResponse (table.filter filter.matches).length limit k (data k))) ∧
        (allPages data (pagesOf (table.filter filter.matches).length limit)).Descending
          createdAt) ∧
    ((∀ (pool : Nat → Pool α) (order : Nat → (α → Bool) → List α) (data : Nat → List α),
      (∀ k, (pool k).Serves table (order k)) →
      (∀ k < pagesOf (table.filter filter.matches).length limit,
        Api.listJobs (pool k) (request k) =
          .ok (pageResponse (table.filter filter.matches).length limit k (data k))) →
      (allPages data (pagesOf (table.filter filter.matches).length limit)).Perm
        (table.filter filter.matches)) ↔
      ∀ listed, IsListing table filter.matches listed →
        ∀ k, listed.Separated createdAt (k * limit)) := by
  have shown {pool : Pool α} {order : (α → Bool) → List α} (serves : pool.Serves table order)
      {k : Nat} (inside : k < pagesOf (table.filter filter.matches).length limit) :=
    listJobs_page serves positive most small (asks k inside)
      (by have := mul_lt_of_lt_pagesOf positive inside; omega)
  refine ⟨fun pool order serves => ?_, fun partitions listed listing k => ?_,
    fun separated pool order data serves answered => ?_⟩
  · exact ⟨_, fun k inside => shown (serves k) inside,
      descending_allPages positive fun k => (serves k).listing _⟩
  · by_contra tie
    obtain ⟨order, listings, repeated⟩ := exists_repeated positive listing tie
    have serves (j : Nat) := Pool.serves_of (listings j)
    have perm := partitions _ order _ serves fun j inside => shown (serves j) inside
    exact repeated (perm.nodup_iff.mpr (distinct.filter _))
  · have pages : allPages data (pagesOf (table.filter filter.matches).length limit) =
        allPages (fun k => (order k filter.matches).page limit k)
          (pagesOf (table.filter filter.matches).length limit) := by
      refine List.flatMap_congr fun k member => ?_
      have inside := List.mem_range.mp member
      have same := (answered k inside).symm.trans (shown (serves k) inside)
      simpa [pageResponse] using same
    rw [pages]
    exact allPages_perm positive (fun k => (serves k).listing _)
      (separated _ ((serves 0).listing _))

/-- A pending job with this identifier and creation time. -/
def jobAt (id : Uuid) (createdAt : Time) : Job where
  id := id
  queue := "default"
  type := "email"
  named := by decide
  payload := "\x7b\x7d"
  status := .pending
  maxRetries := ⟨3, by decide⟩
  retryCount := ⟨0, Int4.zero_fits⟩
  runAt := none
  startedAt := none
  completedAt := none
  error := ""
  createdAt := createdAt
  updatedAt := createdAt

/-- The table keeps the order it is given. -/
theorem isListing_filter {table : List α} (sorted : table.Descending createdAt)
    (keep : α → Bool) : IsListing table keep (table.filter keep) :=
  ⟨.refl _, sorted.sublist List.filter_sublist⟩

/-- The requests for two pages of one row each. -/
def pageRequest (k : Nat) : Api.ListRequest := ⟨if k = 0 then "1" else "2", "1", "", "", ""⟩

theorem asks_pageRequest : ∀ k < 2, Asks (pageRequest k) ⟨"", "", "", 1, 1⟩ 1 k := by decide

/-- Two jobs of different times. -/
def distinctTimes : List Job := [jobAt 1 1000, jobAt 2 0]

theorem distinctTimes_partition :
    (allPages (fun k => distinctTimes.page 1 k) 2).Perm distinctTimes := by
  have sorted : distinctTimes.Descending createdAt := by
    simp [distinctTimes, List.Descending, createdAt, jobAt]
  have serves := Pool.serves_of (isListing_filter sorted)
  have all : distinctTimes.filter (ListFilter.matches ⟨"", "", "", 1, 1⟩) = distinctTimes := by
    decide
  have small : (distinctTimes.filter (ListFilter.matches ⟨"", "", "", 1, 1⟩)).length < 2 ^ 53 := by
    decide
  have one : 0 < 1 ∧ 1 ≤ 100 := by decide
  obtain ⟨-, partition⟩ := pages_partition_iff (by decide : distinctTimes.Nodup) _ one.1 one.2 small
    (by rw [all]; exact asks_pageRequest)
  rw [all] at partition
  refine partition.mpr (fun listed listing k => ?_) _ _ _ (fun _ => serves) fun k inside => ?_
  · have times : (listed.map createdAt).Nodup := by
      rw [(listing.perm.map createdAt).nodup_iff, all]
      decide
    exact List.separated_of_nodup times (k * 1)
  · have answered := listJobs_page serves one.1 one.2 small (asks_pageRequest k inside)
      (by have : k < 2 := inside; omega)
    rwa [all] at answered

/-- Two jobs created at the same time. -/
def equalTimes : List Job := [jobAt 1 0, jobAt 2 0]

/-- Postgres puts the two jobs in one order for the first page and in the other for the second: the
first job is on both pages, the second on none. -/
theorem equalTimes_repeated : ∃ first second : Pool Job,
    first.Serves equalTimes (fun keep => equalTimes.filter keep) ∧
    second.Serves equalTimes (fun keep => equalTimes.reverse.filter keep) ∧
    Api.listJobs first ⟨"1", "1", "", "", ""⟩ = .ok ⟨[jobAt 1 0], ⟨1, 1, 2, 2⟩⟩ ∧
    Api.listJobs second ⟨"2", "1", "", "", ""⟩ = .ok ⟨[jobAt 1 0], ⟨2, 1, 2, 2⟩⟩ := by
  have sorted : equalTimes.Descending createdAt := by
    simp [equalTimes, List.Descending, createdAt, jobAt]
  have serves := Pool.serves_of (isListing_filter sorted)
  have reversed (keep : Job → Bool) :
      IsListing equalTimes keep (equalTimes.reverse.filter keep) :=
    ⟨(List.reverse_perm equalTimes).filter keep,
      (by simp [equalTimes, List.Descending, createdAt, jobAt] :
        equalTimes.reverse.Descending createdAt).sublist List.filter_sublist⟩
  have serves' := Pool.serves_of reversed
  refine ⟨_, _, serves, serves', ?_, ?_⟩
  · exact listJobs_page serves (by decide) (by decide) (by decide) (asks_pageRequest 0 (by decide))
      (by decide)
  · exact listJobs_page serves' (by decide) (by decide) (by decide) (asks_pageRequest 1 (by decide))
      (by decide)

/-! ## Windows -/

/-- The rows of a page at their exact places. -/
def exactWindow (listed : List α) (filter : ListFilter) : List α :=
  (listed.drop ((filter.page - 1) * filter.limit).toNat).take filter.limit.toNat

/-- The offset does not wrap around, or not to a place in the listing. -/
def OffsetFits (filter : ListFilter) (total : Nat) : Prop :=
  (filter.page - 1) * filter.limit < 2 ^ 63 ∨ filter.offset < 0 ∨ total ≤ filter.offset

omit [Listed α] in
theorem window_eq_iff {listed : List α} (small : listed.length < 2 ^ 63) {filter : ListFilter}
    (page : 1 ≤ filter.page) (limit : 1 ≤ filter.limit) :
    window listed filter.offset filter.limit.toNat = exactWindow listed filter ↔
      OffsetFits filter listed.length := by
  have positive : 0 ≤ (filter.page - 1) * filter.limit := Int.mul_nonneg (by omega) (by omega)
  by_cases fits : (filter.page - 1) * filter.limit < 2 ^ 63
  · have exact : filter.offset = (filter.page - 1) * filter.limit :=
      Int.wrap64_eq_self (by omega) fits
    rw [window, exactWindow, exact, if_neg (by omega)]
    exact iff_of_true rfl (.inl fits)
  · -- the exact place is behind every row
    have beyond : exactWindow listed filter = [] := by
      rw [exactWindow, List.drop_of_length_le (by omega), List.take_nil]
    rw [beyond, window, OffsetFits]
    split_ifs with negative
    · exact iff_of_true rfl (.inr (.inl negative))
    · rw [List.take_eq_nil_iff, List.drop_eq_nil_iff]
      omega

omit [Listed α] in
theorem exactWindow_eq_nil {listed : List α} {filter : ListFilter} (limit : 1 ≤ filter.limit)
    (beyond : pagesOf listed.length filter.limit.toNat < filter.page) :
    exactWindow listed filter = [] := by
  obtain ⟨n, equal⟩ := Int.eq_ofNat_of_zero_le (by omega : 0 ≤ filter.limit)
  obtain ⟨k, previous⟩ := Int.eq_ofNat_of_zero_le (by omega : 0 ≤ filter.page - 1)
  rw [equal, Int.toNat_natCast] at beyond
  have enough := le_pagesOf_mul listed.length (by omega : 0 < n)
  have further : pagesOf listed.length n * n ≤ k * n := Nat.mul_le_mul_right n (by omega)
  rw [exactWindow, previous, equal, ← Int.natCast_mul, Int.toNat_natCast,
    List.drop_of_length_le (by omega), List.take_nil]

/-- With distinct creation times the answer does not depend on the order that Postgres chooses. -/
theorem order_eq {table : List α} (distinct : (table.map createdAt).Nodup)
    {order : (α → Bool) → List α} (listing : ∀ keep, IsListing table keep (order keep))
    {keep : α → Bool} {listed : List α} (isListing : IsListing table keep listed) :
    order keep = listed := by
  refine (listing keep).sorted.eq_of_nodup isListing.sorted
    ((listing keep).perm.trans isListing.perm.symm) ?_
  rw [((listing keep).perm.map createdAt).nodup_iff]
  exact distinct.sublist (List.filter_sublist.map createdAt)

section Window

variable {pool : Pool α} {table : List α} {order : (α → Bool) → List α}
  (serves : pool.Serves table order) (small : table.length < 2 ^ 53)

theorem pageCount_matching {table : List α} (small : table.length < 2 ^ 53) {filter : ListFilter}
    (least : 1 ≤ filter.limit) (most : filter.limit ≤ 100) :
    Api.pageCount (table.filter filter.matches).length filter.limit =
      pagesOf (table.filter filter.matches).length filter.limit.toNat := by
  have fits : (table.filter filter.matches).length < 2 ^ 53 :=
    lt_of_le_of_lt (List.length_filter_le _ _) small
  have positive : 0 < filter.limit.toNat := by omega
  have short : filter.limit.toNat < 2 ^ 53 := by omega
  have count := Api.pageCount_eq positive short fits
  rwa [Int.toNat_of_nonneg (by omega)] at count

include serves small

theorem api_window (r : Api.ListRequest) : Api.listJobs pool r =
    .ok ⟨window (order r.filter.matches) r.filter.offset r.filter.limit.toNat,
      ⟨r.filter.page, r.filter.limit, (table.filter r.filter.matches).length,
        pagesOf (table.filter r.filter.matches).length r.filter.limit.toNat⟩⟩ := by
  obtain ⟨first, -, least, most⟩ := r.filter_bounds
  simp only [Api.listJobs, listJobs_served serves r.filter first least,
    pageCount_matching small least most]

theorem dashboard_window (r : Dashboard.JobListRequest) : Dashboard.jobListHandler pool r =
    .ok ⟨window (order r.filter.matches) r.filter.offset r.filter.limit.toNat, r.filter.page,
      max 1 (pagesOf (table.filter r.filter.matches).length r.filter.limit.toNat),
      (table.filter r.filter.matches).length, r.filter⟩ := by
  obtain ⟨first, -, limit⟩ := r.filter_bounds
  have least : 1 ≤ r.filter.limit := by omega
  simp only [Dashboard.jobListHandler, Dashboard.renderJobListFragment,
    listJobs_served serves r.filter first least, if_neg (by omega : ¬ r.filter.limit < 1),
    pageCount_matching small least (by omega)]
  congr 2
  split_ifs <;> omega

/-- The window that both handlers cut out, at whatever order the rows are listed. -/
theorem window_listing (distinct : (table.map createdAt).Nodup) {filter : ListFilter}
    (first : 1 ≤ filter.page) (least : 1 ≤ filter.limit) {listed : List α}
    (listing : IsListing table filter.matches listed) :
    (window (order filter.matches) filter.offset filter.limit.toNat = exactWindow listed filter ↔
      OffsetFits filter listed.length) ∧
    (OffsetFits filter listed.length →
      pagesOf (table.filter filter.matches).length filter.limit.toNat < filter.page →
      window (order filter.matches) filter.offset filter.limit.toNat = []) := by
  have total := listing.perm.length_eq
  have fits : listed.length < 2 ^ 63 := by
    have := List.length_filter_le filter.matches table
    omega
  have exact := window_eq_iff fits first least
  rw [order_eq distinct serves.listing listing, ← total]
  exact ⟨exact, fun inside beyond => (exact.mpr inside).trans (exactWindow_eq_nil least beyond)⟩

/-- For every request, on a table with distinct creation times: the rows of the response are those
at the exact places of the page if and only if the offset does not wrap around to a place in the
listing; and then a page beyond the last is empty. -/
theorem page_window_iff (distinct : (table.map createdAt).Nodup) :
    (∀ (r : Api.ListRequest) (listed : List α), IsListing table r.filter.matches listed →
      1 ≤ r.filter.page ∧ 1 ≤ r.filter.limit ∧ r.filter.limit ≤ 100 ∧
      ∃ response, Api.listJobs pool r = .ok response ∧
        (response.data = exactWindow listed r.filter ↔ OffsetFits r.filter listed.length) ∧
        (OffsetFits r.filter listed.length →
          response.pagination.totalPages < response.pagination.page → response.data = [])) ∧
    (∀ (r : Dashboard.JobListRequest) (listed : List α),
      IsListing table r.filter.matches listed → 1 ≤ r.filter.page ∧ r.filter.limit = 50 ∧
      ∃ data, Dashboard.jobListHandler pool r = .ok data ∧
        (data.jobs = exactWindow listed r.filter ↔ OffsetFits r.filter listed.length) ∧
        (OffsetFits r.filter listed.length → data.totalPages < data.page → data.jobs = [])) := by
  constructor
  · intro r listed listing
    obtain ⟨first, -, least, most⟩ := r.filter_bounds
    obtain ⟨exact, empty⟩ := window_listing serves small distinct first least listing
    exact ⟨first, least, most, _, api_window serves small r, exact, empty⟩
  · intro r listed listing
    obtain ⟨first, -, limit⟩ := r.filter_bounds
    obtain ⟨exact, empty⟩ := window_listing serves small distinct first (by omega) listing
    refine ⟨first, limit, _, dashboard_window serves small r, exact, fun inside beyond => ?_⟩
    exact empty inside (lt_of_le_of_lt (by simp) beyond)

end Window

/-- The newest job is the first. -/
def threeJobs : List Job := [jobAt 1 2000, jobAt 2 1000, jobAt 3 0]

theorem serves_threeJobs :
    (Pool.of threeJobs fun keep => threeJobs.filter keep).Serves threeJobs
      fun keep => threeJobs.filter keep :=
  Pool.serves_of (isListing_filter
    (by simp [threeJobs, List.Descending, createdAt, jobAt]))

theorem threeJobs_second_page : ∃ response,
    Api.listJobs (Pool.of threeJobs fun keep => threeJobs.filter keep) ⟨"2", "2", "", "", ""⟩ =
      .ok response ∧ response.data = [jobAt 3 0] := by
  obtain ⟨api, -⟩ := page_window_iff serves_threeJobs (by decide) (by decide)
  have listing : IsListing threeJobs (ListFilter.matches ⟨"", "", "", 2, 2⟩) threeJobs := by
    have all : threeJobs.filter (ListFilter.matches ⟨"", "", "", 2, 2⟩) = threeJobs := by decide
    simpa only [all] using serves_threeJobs.listing (ListFilter.matches ⟨"", "", "", 2, 2⟩)
  obtain ⟨-, -, -, response, answered, exact, -⟩ := api ⟨"2", "2", "", "", ""⟩ threeJobs listing
  exact ⟨response, answered, (exact.mpr (.inl (by decide))).trans (by decide)⟩

/-- Page `2 ^ 62 + 1` with a limit of four is the first page again, and a page of the dashboard
begins with the third job. -/
theorem far_pages_wrap :
    Api.listJobs (Pool.of threeJobs fun keep => threeJobs.filter keep)
        ⟨"4611686018427387905", "4", "", "", ""⟩ =
      .ok ⟨threeJobs, ⟨4611686018427387905, 4, 3, 1⟩⟩ ∧
    Dashboard.jobListHandler (Pool.of threeJobs fun keep => threeJobs.filter keep)
        ⟨"", "", "", "1106804644422573098"⟩ =
      .ok ⟨[jobAt 3 0], 1106804644422573098, 1, 3,
        ⟨"", "", "", 1106804644422573098, 50⟩⟩ ∧
    exactWindow threeJobs ⟨"", "", "", 4611686018427387905, 4⟩ = [] ∧
    exactWindow threeJobs ⟨"", "", "", 1106804644422573098, 50⟩ = [] := by
  refine ⟨?_, ?_, ?_, ?_⟩
  · rw [api_window serves_threeJobs (by decide)]
    decide +kernel
  · rw [dashboard_window serves_threeJobs (by decide)]
    decide +kernel
  · exact exactWindow_eq_nil (by decide) (by decide)
  · exact exactWindow_eq_nil (by decide) (by decide)

end GoQueue.Verified
