import Mathlib.Data.List.AList
import Mathlib.Algebra.Order.BigOperators.Group.List
import Mathlib.Algebra.Order.Ring.Nat

/-! # Totals of a weight over lists and finite maps

`AList.total weight s` adds up a weight over all entries of a finite map.  Replacing
one entry changes the total by the difference of the two weights; `total_insert`
states this without subtraction.  A list whose total is at most one has its weight at a
single place.
-/

namespace AList

variable {α : Type*} {β : α → Type*}

def total (weight : ∀ a, β a → Nat) (s : AList β) : Nat :=
  (s.entries.map fun entry => weight entry.1 entry.2).sum

variable [DecidableEq α]

theorem sum_kerase (weight : ∀ a, β a → Nat) (k : α) (entries : List (Sigma β)) :
    (entries.map fun entry => weight entry.1 entry.2).sum =
      ((entries.dlookup k).map (weight k)).getD 0 +
        ((entries.kerase k).map fun entry => weight entry.1 entry.2).sum := by
  induction entries with
  | nil => rfl
  | cons entry entries inductionHypothesis =>
    obtain ⟨a, b⟩ := entry
    by_cases same : k = a
    · subst same
      simp [List.kerase_cons_eq]
    · rw [List.dlookup_cons_ne _ _ same, List.kerase_cons_ne same]
      simp only [List.map_cons, List.sum_cons, inductionHypothesis]
      omega

theorem total_insert (weight : ∀ a, β a → Nat) (k : α) (value : β k) (s : AList β) :
    (s.insert k value).total weight + ((s.lookup k).map (weight k)).getD 0 =
      s.total weight + weight k value := by
  have split := sum_kerase weight k s.entries
  simp only [total, entries_insert, List.map_cons, List.sum_cons, lookup]
  omega

theorem le_total (weight : ∀ a, β a → Nat) (k : α) (s : AList β) :
    ((s.lookup k).map (weight k)).getD 0 ≤ s.total weight := by
  have split := sum_kerase weight k s.entries
  simp only [total, lookup]
  omega

end AList

namespace List

variable {α : Type*} {f : α → Nat} {l : List α}

theorem le_sum_map_of_mem {a : α} (member : a ∈ l) : f a ≤ (l.map f).sum :=
  List.le_sum_of_mem (List.mem_map_of_mem (f := f) member)

theorem unique_index_of_sum_le_one {i j : Nat} {a b : α} (bound : (l.map f).sum ≤ 1)
    (first : l[i]? = some a) (second : l[j]? = some b) (has : 0 < f a) (has' : 0 < f b) :
    i = j := by
  by_contra different
  -- taking the two out of order changes nothing, so the earlier one comes first
  wlog earlier : i < j generalizing i j a b
  · exact this second first has' has (Ne.symm different) (by omega)
  have split : l = l.take i ++ a :: l.drop (i + 1) := by
    obtain ⟨inside, rfl⟩ := List.getElem?_eq_some_iff.mp first
    simp
  have rest : b ∈ l.drop (i + 1) := by
    have found : (l.drop (i + 1))[j - (i + 1)]? = some b := by
      rw [List.getElem?_drop, ← second]
      congr 1
      omega
    exact List.mem_of_getElem? found
  have share := le_sum_map_of_mem (f := f) rest
  rw [split, List.map_append, List.map_cons, List.sum_append, List.sum_cons] at bound
  omega

/-- Replacing one element changes the total by the difference of the weights. -/
theorem sum_map_set {i : Nat} {a : α} (found : l[i]? = some a) (b : α) :
    ((l.set i b).map f).sum + f a = (l.map f).sum + f b := by
  obtain ⟨inside, rfl⟩ := List.getElem?_eq_some_iff.mp found
  have split : l = l.take i ++ l[i] :: l.drop (i + 1) := by simp
  rw [List.set_eq_take_append_cons_drop, if_pos inside]
  conv_rhs => rw [split]
  simp only [List.map_append, List.map_cons, List.sum_append, List.sum_cons]
  omega

theorem exists_index_of_sum_pos (positive : 0 < (l.map f).sum) :
    ∃ (i : Nat) (a : α), l[i]? = some a ∧ 0 < f a := by
  induction l with
  | nil => cases positive
  | cons a rest inductionHypothesis =>
    by_cases first : 0 < f a
    · exact ⟨0, a, rfl, first⟩
    · simp only [List.map_cons, List.sum_cons] at positive
      obtain ⟨i, b, found, has⟩ := inductionHypothesis (by omega)
      exact ⟨i + 1, b, found, has⟩

theorem exists_two_of_one_lt_sum (single : ∀ a, f a ≤ 1) (many : 1 < (l.map f).sum) :
    ∃ (i j : Nat) (a b : α), i ≠ j ∧ l[i]? = some a ∧ l[j]? = some b ∧ 0 < f a ∧ 0 < f b := by
  induction l with
  | nil => cases many
  | cons a rest inductionHypothesis =>
    simp only [List.map_cons, List.sum_cons] at many
    by_cases first : 0 < f a
    · -- the second one is in the rest
      have at_most := single a
      obtain ⟨j, b, found, has⟩ := exists_index_of_sum_pos (l := rest) (f := f) (by omega)
      exact ⟨0, j + 1, a, b, by omega, rfl, found, first, has⟩
    · obtain ⟨i, j, b, c, different, found, found', has, has'⟩ := inductionHypothesis (by omega)
      exact ⟨i + 1, j + 1, b, c, by omega, found, found', has, has'⟩

end List
