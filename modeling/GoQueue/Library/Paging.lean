import Mathlib.Data.List.Nodup
import Mathlib.Data.List.Perm.Basic
import Mathlib.Order.Lattice

/-! # Pages of sorted lists

A list is read page by page, and every page is cut out of an arrangement of its own: each is a
permutation of the same rows in descending order of a key, but rows with equal keys may stand in
any order.

The keys of the pages are those of one arrangement.  The rows are, too, if no two rows with equal
keys stand on both sides of a page boundary; otherwise there are two arrangements that
show one row on both pages.
-/

namespace List

variable {α κ : Type*}

/-! ## Pages -/

/-- The page with this number; the first one has the number zero. -/
def page (size k : Nat) (rows : List α) : List α := (rows.drop (k * size)).take size

theorem take_append_page (size k : Nat) (rows : List α) :
    rows.take (k * size) ++ rows.page size k = rows.take ((k + 1) * size) := by
  rw [page, Nat.succ_mul, List.take_add]

/-- The first pages together are the beginning of the list. -/
theorem flatMap_page (size n : Nat) (rows : List α) :
    (List.range n).flatMap (rows.page size) = rows.take (n * size) := by
  induction n with
  | zero => simp
  | succ n inductionHypothesis =>
    rw [List.range_succ, List.flatMap_append, inductionHypothesis]
    simp only [List.flatMap_cons, List.flatMap_nil, List.append_nil]
    exact take_append_page size n rows

theorem map_page (f : α → κ) (size k : Nat) (rows : List α) :
    (rows.page size k).map f = (rows.map f).page size k := by
  simp [page, List.map_take, List.map_drop]

theorem getElem?_page {size j : Nat} (inside : j < size) (k : Nat) (rows : List α) :
    (rows.page size k)[j]? = rows[k * size + j]? := by
  rw [page, List.getElem?_take_of_lt inside, List.getElem?_drop]

/-! ## Arrangements -/

variable [LinearOrder κ] {key : α → κ} {xs ys : List α}

variable (key) in
def Descending (rows : List α) : Prop := rows.Pairwise fun a b => key b ≤ key a

theorem descending_iff_map : xs.Descending key ↔ (xs.map key).Pairwise (· ≥ ·) := by
  rw [List.pairwise_map]
  rfl

/-- Two arrangements have the same keys at every place. -/
theorem Descending.map_eq (sorted : xs.Descending key) (sorted' : ys.Descending key)
    (same : xs.Perm ys) : xs.map key = ys.map key :=
  List.Perm.eq_of_pairwise (fun _ _ _ _ => ge_antisymm) (descending_iff_map.mp sorted)
    (descending_iff_map.mp sorted') (same.map key)

/-- Distinct keys leave one arrangement only. -/
theorem Descending.eq_of_nodup (sorted : xs.Descending key) (sorted' : ys.Descending key)
    (same : xs.Perm ys) (distinct : (xs.map key).Nodup) : xs = ys := by
  refine List.Perm.eq_of_pairwise (fun a b inXs inYs below above => ?_) sorted sorted' same
  exact List.inj_on_of_nodup_map distinct inXs (same.mem_iff.mpr inYs) (le_antisymm above below)

variable (key) in
/-- One arrangement of the rows. -/
def arrange (rows : List α) : List α := rows.mergeSort fun a b => decide (key b ≤ key a)

theorem arrange_perm (rows : List α) : (rows.arrange key).Perm rows := List.mergeSort_perm _ _

theorem descending_arrange (rows : List α) : (rows.arrange key).Descending key := by
  have sorted := List.pairwise_mergeSort (l := rows)
    (fun a b c (first : decide (key b ≤ key a) = true) second => by
      simp only [decide_eq_true_eq] at *
      exact le_trans second first)
    (fun a b => by simpa using le_total (key b) (key a))
  simpa [arrange, Descending] using sorted

/-- The rows with larger keys are a beginning of the list. -/
theorem Descending.filter_isPrefix (sorted : xs.Descending key) (k : κ) :
    xs.filter (fun a => k < key a) <+: xs := by
  induction xs with
  | nil => exact List.prefix_rfl
  | cons a rest inductionHypothesis =>
    obtain ⟨largest, sorted⟩ := List.pairwise_cons.mp sorted
    by_cases larger : k < key a
    · rw [List.filter_cons_of_pos (by simpa using larger)]
      exact (List.prefix_cons_inj a).mpr (inductionHypothesis sorted)
    · have none_larger : (a :: rest).filter (fun a => k < key a) = [] := by
        rw [List.filter_eq_nil_iff]
        intro b member
        obtain rfl | later := List.mem_cons.mp member
        · simpa using larger
        · simpa using le_trans (largest b later) (not_lt.mp larger)
      rw [none_larger]
      exact List.nil_prefix

variable (key) in
/-- No two rows with equal keys stand on both sides of this place. -/
def Separated (i : Nat) (rows : List α) : Prop :=
  ∀ a ∈ rows.take i, ∀ b ∈ rows.drop i, key a ≠ key b

omit [LinearOrder κ] in
theorem separated_of_nodup {rows : List α} (distinct : (rows.map key).Nodup) (i : Nat) :
    rows.Separated key i := by
  intro a early b late equal
  rw [← List.take_append_drop i rows, List.map_append] at distinct
  refine List.disjoint_of_nodup_append distinct (List.mem_map_of_mem early) ?_
  rw [equal]
  exact List.mem_map_of_mem late

/-- Two arrangements begin with the same rows up to a place that separates keys. -/
theorem Descending.take_perm (sorted : xs.Descending key) (sorted' : ys.Descending key)
    (same : xs.Perm ys) {i : Nat} (separated : xs.Separated key i) :
    (xs.take i).Perm (ys.take i) := by
  cases rest : xs.drop i with
  | nil =>
    have short := List.drop_eq_nil_iff.mp rest
    rwa [List.take_of_length_le short, List.take_of_length_le (same.length_eq ▸ short)]
  | cons b tail =>
    have split : xs.take i ++ b :: tail = xs := by rw [← rest, List.take_append_drop]
    have inside : i < xs.length := by
      by_contra outside
      simp [List.drop_of_length_le (Nat.le_of_not_lt outside)] at rest
    obtain ⟨-, sortedRest, across⟩ := List.pairwise_append.mp (split.symm ▸ sorted)
    -- the rows before the place are those with larger keys than the first one after it
    have larger : xs.filter (fun a => key b < key a) = xs.take i := by
      conv_lhs => rw [← split]
      rw [List.filter_append, List.filter_eq_self.mpr, List.filter_eq_nil_iff.mpr, List.append_nil]
      · intro a member
        obtain rfl | later := List.mem_cons.mp member
        · simp
        · simpa using (List.pairwise_cons.mp sortedRest).1 a later
      · intro a member
        have different := separated a member b (by simp [rest])
        have above := across a member b (by simp)
        simpa using lt_of_le_of_ne above different.symm
    have permuted := same.filter fun a => key b < key a
    have isPrefix := List.prefix_iff_eq_take.mp (sorted'.filter_isPrefix (key b))
    rw [← permuted.length_eq, larger, List.length_take_of_le (Nat.le_of_lt inside)] at isPrefix
    rwa [larger, isPrefix] at permuted

theorem Descending.page_perm (sorted : xs.Descending key) (sorted' : ys.Descending key)
    (same : xs.Perm ys) {size k : Nat} (before : xs.Separated key (k * size))
    (after : xs.Separated key ((k + 1) * size)) : (xs.page size k).Perm (ys.page size k) := by
  have first := sorted.take_perm sorted' same before
  have second := sorted.take_perm sorted' same after
  rw [← take_append_page, ← take_append_page] at second
  exact (List.perm_append_left_iff _).mp (second.trans (first.symm.append_right _))

/-! ## Reading page by page -/

section Reading

variable {rows : List α} {order : Nat → List α} {size n : Nat}
  (arranged : ∀ k, (order k).Descending key ∧ (order k).Perm rows)
  (enough : rows.length ≤ n * size)

include arranged enough

/-- Whatever the arrangements, the keys of the pages are those of one of them. -/
theorem map_flatMap_page : ((List.range n).flatMap fun k => (order k).page size k).map key =
    (order 0).map key := by
  have keys (k : Nat) : ((order k).page size k).map key = ((order 0).map key).page size k := by
    have same := (arranged k).2.trans (arranged 0).2.symm
    rw [map_page, (arranged k).1.map_eq (arranged 0).1 same]
  rw [List.map_flatMap]
  simp only [keys]
  rw [flatMap_page, List.take_of_length_le]
  rw [List.length_map, (arranged 0).2.length_eq]
  exact enough

/-- The pages together are the rows if no boundary has equal keys on both sides. -/
theorem flatMap_page_perm (separated : ∀ k, (order 0).Separated key (k * size)) :
    ((List.range n).flatMap fun k => (order k).page size k).Perm rows := by
  have pages : ((List.range n).flatMap fun k => (order k).page size k).Perm
      ((List.range n).flatMap ((order 0).page size)) := by
    refine List.Perm.flatMap_left _ fun k _ => ?_
    exact ((arranged 0).1.page_perm (arranged k).1 ((arranged 0).2.trans (arranged k).2.symm)
      (separated k) (separated (k + 1))).symm
  rw [flatMap_page, List.take_of_length_le ((arranged 0).2.length_eq ▸ enough)] at pages
  exact pages.trans (arranged 0).2

end Reading

/-- Equal keys on both sides of a boundary: those next to it are equal to them, since the list is
sorted. -/
theorem Descending.eq_of_tie {l r : List α} {x y a b : α} (sorted : (l ++ x :: y :: r).Descending key)
    (early : a ∈ l ++ [x]) (late : b ∈ y :: r) (equal : key a = key b) : key x = key y := by
  obtain ⟨-, sortedRest, across⟩ := List.pairwise_append.mp sorted
  obtain ⟨largest, sortedRest⟩ := List.pairwise_cons.mp sortedRest
  have above : key x ≤ key a := by
    obtain earlier | last := List.mem_append.mp early
    · exact across a earlier x (by simp)
    · rw [List.mem_singleton.mp last]
  have below : key b ≤ key y := by
    obtain rfl | later := List.mem_cons.mp late
    · exact le_refl _
    · exact (List.pairwise_cons.mp sortedRest).1 b later
  exact le_antisymm (above.trans (equal ▸ below)) (largest y (by simp))

/-- Of two rows with equal keys on both sides of a boundary, some row is on the page before it in
one arrangement and on the page after it in another. -/
theorem Descending.exists_overlap (sorted : xs.Descending key) {size k : Nat} (positive : 0 < size)
    (tie : ¬ xs.Separated key ((k + 1) * size)) :
    ∃ (ys : List α) (x : α), ys.Perm xs ∧ ys.Descending key ∧ x ∈ xs.page size k ∧
      x ∈ ys.page size (k + 1) := by
  simp only [Separated, not_forall, not_not] at tie
  obtain ⟨a, early, b, late, equal⟩ := tie
  obtain front | ⟨l, x, front⟩ := List.eq_nil_or_concat' (xs.take ((k + 1) * size))
  · simp [front] at early
  cases rest : xs.drop ((k + 1) * size) with
  | nil => simp [rest] at late
  | cons y r =>
    have split : xs = l ++ x :: y :: r := by
      rw [← List.take_append_drop ((k + 1) * size) xs, front, rest, List.append_assoc]
      rfl
    have place : l.length + 1 = (k + 1) * size := by
      have inside : (k + 1) * size < xs.length := by
        by_contra outside
        simp [List.drop_of_length_le (Nat.le_of_not_lt outside)] at rest
      simpa [Nat.le_of_lt inside] using (congrArg List.length front).symm
    have same : key x = key y := by
      rw [front] at early
      rw [rest] at late
      exact Descending.eq_of_tie (split ▸ sorted) early late equal
    refine ⟨l ++ y :: x :: r, x, ?_, ?_, ?_, ?_⟩
    · rw [split]
      exact (List.Perm.swap x y r).append_left l
    · rw [descending_iff_map] at sorted ⊢
      rw [split] at sorted
      simpa [same] using sorted
    · have last : k * size + (size - 1) = l.length := by
        rw [Nat.succ_mul] at place
        omega
      refine List.mem_of_getElem? (i := size - 1) ?_
      rw [getElem?_page (by omega), last, split]
      simp
    · refine List.mem_of_getElem? (i := 0) ?_
      rw [getElem?_page positive, Nat.add_zero, ← place]
      simp

end List
