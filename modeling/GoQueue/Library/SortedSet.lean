import Mathlib.Data.List.Sort
import Mathlib.Data.Prod.Lex
import Mathlib.Order.Basic

/-! # Sorted sets

A sorted set maps each of its members to an integer score and lists them by score,
members of equal score in their own order.  The entries are kept in that order, so
reading a range by score is a filter.  Adding a member that is already present moves
it to its new score.
-/

structure SortedSet (μ : Type*) [LinearOrder μ] where
  entries : List (Int ×ₗ μ)
  sorted : entries.Pairwise (· ≤ ·)
  unique : (entries.map fun entry => (ofLex entry).2).Nodup

namespace SortedSet

variable {μ : Type*}

def score (entry : Int ×ₗ μ) : Int := (ofLex entry).1

def member (entry : Int ×ₗ μ) : μ := (ofLex entry).2

variable [LinearOrder μ]

instance : EmptyCollection (SortedSet μ) := ⟨⟨[], .nil, .nil⟩⟩

def members (z : SortedSet μ) : List μ := z.entries.map member

instance : Membership μ (SortedSet μ) := ⟨fun z m => m ∈ z.members⟩

instance (m : μ) (z : SortedSet μ) : Decidable (m ∈ z) :=
  inferInstanceAs (Decidable (m ∈ z.members))

theorem mem_iff {m : μ} {z : SortedSet μ} : m ∈ z ↔ ∃ entry ∈ z.entries, member entry = m :=
  List.mem_map

/-- Keeps the entries that satisfy `p`. -/
def restrict (p : Int ×ₗ μ → Bool) (z : SortedSet μ) : SortedSet μ where
  entries := z.entries.filter p
  sorted := z.sorted.filter p
  unique := z.unique.sublist (List.filter_sublist.map _)

/-! ## Commands -/

/-- `ZADD`: the member is stored with the new score, whatever its old one. -/
def zadd (s : Int) (m : μ) (z : SortedSet μ) : SortedSet μ where
  entries := (z.entries.filter (member · ≠ m)).orderedInsert (· ≤ ·) (toLex (s, m))
  sorted := (z.sorted.filter _).orderedInsert _ _
  unique := by
    have perm := List.perm_orderedInsert (· ≤ ·) (toLex (s, m)) (z.entries.filter (member · ≠ m))
    refine (perm.map _).nodup_iff.mpr (List.nodup_cons.mpr ⟨?_, ?_⟩)
    · simp [member]
    · exact z.unique.sublist (List.filter_sublist.map _)

/-- `ZRANGEBYSCORE -inf max`. -/
def rangeByScore (max : Int) (z : SortedSet μ) : List μ :=
  (z.restrict (score · ≤ max)).members

/-- `ZREMRANGEBYSCORE -inf max`. -/
def removeRangeByScore (max : Int) (z : SortedSet μ) : SortedSet μ :=
  z.restrict (fun entry => !(score entry ≤ max))

/-! ## Membership after each command -/

@[simp] theorem mem_zadd {s : Int} {m m' : μ} {z : SortedSet μ} :
    m' ∈ z.zadd s m ↔ m' = m ∨ m' ∈ z := by
  simp only [mem_iff, zadd, List.mem_orderedInsert, List.mem_filter, decide_eq_true_eq]
  constructor
  · rintro ⟨entry, rfl | ⟨held, _⟩, rfl⟩
    · exact .inl rfl
    · exact .inr ⟨entry, held, rfl⟩
  · rintro (rfl | ⟨entry, held, rfl⟩)
    · exact ⟨_, .inl rfl, rfl⟩
    · by_cases same : member entry = m
      · exact ⟨_, .inl rfl, same.symm⟩
      · exact ⟨entry, .inr ⟨held, same⟩, rfl⟩

theorem mem_rangeByScore_or_remove {max : Int} {m : μ} {z : SortedSet μ} :
    m ∈ z ↔ m ∈ z.rangeByScore max ∨ m ∈ z.removeRangeByScore max := by
  simp only [mem_iff, rangeByScore, removeRangeByScore, members, restrict, List.mem_map,
    List.mem_filter]
  constructor
  · rintro ⟨entry, held, rfl⟩
    by_cases due : score entry ≤ max
    · exact .inl ⟨entry, ⟨held, by simpa using due⟩, rfl⟩
    · exact .inr ⟨entry, ⟨held, by simpa using due⟩, rfl⟩
  · rintro (⟨entry, ⟨held, _⟩, rfl⟩ | ⟨entry, ⟨held, _⟩, rfl⟩) <;> exact ⟨entry, held, rfl⟩

/-- The members of a range and those that stay split the set: counting them separately
counts every member once. -/
theorem count_rangeByScore (max : Int) (m : μ) (z : SortedSet μ) :
    z.members.count m =
      (z.rangeByScore max).count m + (z.removeRangeByScore max).members.count m := by
  simp only [members, rangeByScore, removeRangeByScore, restrict]
  induction z.entries with
  | nil => rfl
  | cons entry entries inductionHypothesis =>
    by_cases due : score entry ≤ max <;>
      simp [due, List.count_cons, inductionHypothesis] <;> omega

/-- What a range takes does not stay. -/
theorem notMem_removeRangeByScore {max : Int} {m : μ} {z : SortedSet μ}
    (taken : m ∈ z.rangeByScore max) : ¬ m ∈ z.removeRangeByScore max := by
  intro stays
  have counted := count_rangeByScore max m z
  have once := List.nodup_iff_count_le_one.mp z.unique m
  have first : 0 < (z.rangeByScore max).count m := List.count_pos_iff.mpr taken
  have second : 0 < (z.removeRangeByScore max).members.count m := List.count_pos_iff.mpr stays
  change z.members.count m ≤ 1 at once
  omega

theorem removeRangeByScore_of_empty {max : Int} {z : SortedSet μ} (empty : z.rangeByScore max = []) :
    z.removeRangeByScore max = z := by
  obtain ⟨entries, sorted, unique⟩ := z
  have late : ∀ entry ∈ entries, ¬ score entry ≤ max := by
    simpa [rangeByScore, members, restrict] using empty
  have kept : entries.filter (fun entry => !(score entry ≤ max)) = entries :=
    List.filter_eq_self.mpr fun entry held => by simpa using late entry held
  simp only [removeRangeByScore, restrict, kept]

theorem nodup_members (z : SortedSet μ) : z.members.Nodup := z.unique

theorem nodup_rangeByScore (max : Int) (z : SortedSet μ) : (z.rangeByScore max).Nodup :=
  nodup_members _

theorem count_zadd_self (s : Int) (m : μ) (z : SortedSet μ) : (z.zadd s m).members.count m = 1 :=
  List.count_eq_one_of_mem (nodup_members _) (mem_zadd.mpr (.inl rfl))

theorem count_zadd_ne {s : Int} {m m' : μ} (different : m' ≠ m) (z : SortedSet μ) :
    (z.zadd s m).members.count m' = z.members.count m' := by
  have same : m' ∈ (z.zadd s m).members ↔ m' ∈ z.members := by
    change m' ∈ z.zadd s m ↔ m' ∈ z
    simp [different]
  rw [(nodup_members _).count, (nodup_members _).count]
  simp only [same]

/-- The score a member stands at in a range was not above the bound. -/
theorem mem_rangeByScore {max : Int} {m : μ} {z : SortedSet μ} :
    m ∈ z.rangeByScore max ↔ ∃ s ≤ max, toLex (s, m) ∈ z.entries := by
  simp only [rangeByScore, members, restrict, List.mem_map, List.mem_filter, decide_eq_true_eq]
  constructor
  · rintro ⟨entry, ⟨held, due⟩, rfl⟩
    exact ⟨score entry, due, held⟩
  · rintro ⟨s, due, held⟩
    exact ⟨toLex (s, m), ⟨held, due⟩, rfl⟩

/-! ## As a map -/

/-- The set holds each member that the map knows, at its score. -/
def Represents (z : SortedSet μ) (f : μ → Option Int) : Prop :=
  ∀ m s, toLex (s, m) ∈ z.entries ↔ f m = some s

namespace Represents

variable {z : SortedSet μ} {f : μ → Option Int}

theorem empty : Represents (∅ : SortedSet μ) fun _ => none := by
  intro m s
  exact iff_of_false List.not_mem_nil nofun

theorem zadd (represents : z.Represents f) (s : Int) (m : μ) :
    (z.zadd s m).Represents (Function.update f m (some s)) := by
  intro m' s'
  simp only [SortedSet.zadd, List.mem_orderedInsert, List.mem_filter, decide_eq_true_eq]
  by_cases same : m' = m
  · subst same
    simp [member, eq_comm]
  · have other : toLex (s', m') ≠ toLex (s, m) := fun equal => same (congrArg member equal)
    rw [Function.update_of_ne same, ← represents m' s']
    simp [other, member, same]

theorem removeRangeByScore (represents : z.Represents f) (max : Int) :
    (z.removeRangeByScore max).Represents fun m => (f m).filter (max < ·) := by
  intro m s
  have late : (!decide (score (toLex (s, m)) ≤ max)) = decide (max < s) := by
    rw [← decide_not, score, ofLex_toLex]
    exact decide_eq_decide.mpr not_le
  simp only [SortedSet.removeRangeByScore, restrict, List.mem_filter, represents m s, late,
    Option.filter_eq_some_iff]

theorem mem_rangeByScore (represents : z.Represents f) {max : Int} {m : μ} :
    m ∈ z.rangeByScore max ↔ ∃ s ≤ max, f m = some s := by
  simp only [SortedSet.mem_rangeByScore, represents m]

theorem mem (represents : z.Represents f) {m : μ} : m ∈ z ↔ (f m).isSome = true := by
  rw [mem_iff, Option.isSome_iff_exists]
  constructor
  · rintro ⟨entry, held, rfl⟩
    exact ⟨score entry, (represents _ _).mp held⟩
  · rintro ⟨s, known⟩
    exact ⟨toLex (s, m), (represents m s).mpr known, rfl⟩

/-- A range comes in the order of the scores, members of one score in their own order. -/
theorem pairwise_rangeByScore (represents : z.Represents f) (max : Int) :
    (z.rangeByScore max).Pairwise fun a b =>
      ∀ s t, f a = some s → f b = some t → toLex (s, a) < toLex (t, b) := by
  simp only [SortedSet.rangeByScore, members, List.pairwise_map]
  have distinct : (z.restrict (score · ≤ max)).entries.Pairwise (member · ≠ member ·) :=
    List.pairwise_map.mp (z.restrict (score · ≤ max)).unique
  refine ((z.restrict (score · ≤ max)).sorted.and distinct).imp_of_mem ?_
  intro a b held held' ordered s t known known'
  have first := (represents _ _).mp (List.mem_of_mem_filter held : toLex (score a, member a) ∈ _)
  have second := (represents _ _).mp (List.mem_of_mem_filter held' : toLex (score b, member b) ∈ _)
  obtain rfl : score a = s := Option.some.inj (first.symm.trans known)
  obtain rfl : score b = t := Option.some.inj (second.symm.trans known')
  exact lt_of_le_of_ne ordered.1 fun equal => ordered.2 (congrArg member equal)

end Represents

end SortedSet
