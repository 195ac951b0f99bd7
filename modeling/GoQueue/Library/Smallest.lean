import Mathlib.Data.List.Sort
import Mathlib.Order.Basic

/-! # The first elements of a list in the order of a key

`smallest key limit l` sorts a list by a key and keeps as many elements as the limit allows.
An element is left out only if the places are taken by elements with keys up to its own; it is
left out for certain if that many elements of the list have such keys.
-/

namespace List

variable {α κ : Type*} [LinearOrder κ] {key : α → κ} {limit : Nat} {l : List α} {a : α}

/-- Keys in ascending order. -/
def KeyLE (key : α → κ) (a b : α) : Prop := key a ≤ key b

instance : DecidableRel (KeyLE key) := fun a b => inferInstanceAs (Decidable (key a ≤ key b))

instance : Std.Total (KeyLE key) := ⟨fun a b => le_total (key a) (key b)⟩

instance : IsTrans α (KeyLE key) := ⟨fun _ _ _ => le_trans⟩

def smallest (key : α → κ) (limit : Nat) (l : List α) : List α :=
  (l.insertionSort (KeyLE key)).take limit

theorem mem_of_mem_smallest (chosen : a ∈ smallest key limit l) : a ∈ l :=
  (perm_insertionSort _ l).mem_iff.mp (mem_of_mem_take chosen)

theorem pairwise_smallest (key : α → κ) (limit : Nat) (l : List α) :
    (smallest key limit l).Pairwise (KeyLE key) :=
  (pairwise_insertionSort _ l).sublist (take_sublist _ _)

theorem length_smallest : (smallest key limit l).length = min limit l.length := by
  simp [smallest]

theorem nodup_map_smallest {β : Type*} {f : α → β} (distinct : (l.map f).Nodup) :
    ((smallest key limit l).map f).Nodup := by
  refine Nodup.sublist ((take_sublist _ _).map f) ?_
  exact ((perm_insertionSort _ l).map f).nodup_iff.mpr distinct

theorem mem_smallest_or (key : α → κ) (limit : Nat) (member : a ∈ l) : a ∈ smallest key limit l ∨
    ((smallest key limit l).length = limit ∧ ∀ b ∈ smallest key limit l, key b ≤ key a) := by
  have sorted := pairwise_insertionSort (KeyLE key) l
  have present : a ∈ l.insertionSort (KeyLE key) := (perm_insertionSort _ l).mem_iff.mpr member
  rw [← take_append_drop limit (l.insertionSort (KeyLE key))] at sorted present
  obtain chosen | left := mem_append.mp present
  · exact .inl chosen
  · right
    constructor
    · have more : 0 < ((l.insertionSort (KeyLE key)).drop limit).length := length_pos_of_mem left
      rw [length_drop] at more
      rw [smallest, length_take]
      omega
    · exact fun b chosen => (pairwise_append.mp sorted).2.2 b chosen a left

theorem smallest_of_crowd {bound : κ} (crowd : limit ≤ (l.filter (key · ≤ bound)).length) :
    (smallest key limit l).length = limit ∧ ∀ b ∈ smallest key limit l, key b ≤ bound := by
  constructor
  · have whole := length_filter_le (key · ≤ bound) l
    rw [length_smallest]
    omega
  · intro b chosen
    by_contra above
    -- what comes after `b` is above the bound as well, so the crowd comes before it
    obtain ⟨front, middle, split⟩ := append_of_mem chosen
    have whole : l.insertionSort (KeyLE key) =
        front ++ b :: (middle ++ (l.insertionSort (KeyLE key)).drop limit) := by
      rw [← cons_append, ← append_assoc, ← split]
      exact (take_append_drop limit _).symm
    have sorted := pairwise_insertionSort (KeyLE key) l
    have counted := ((perm_insertionSort (KeyLE key) l).filter (key · ≤ bound)).length_eq
    have few := congrArg length split
    have none : (b :: (middle ++ (l.insertionSort (KeyLE key)).drop limit)).filter (key · ≤ bound) =
        [] := by
      rw [whole] at sorted
      have later := (pairwise_cons.mp (pairwise_append.mp sorted).2.1).1
      refine filter_eq_nil_iff.mpr fun c held => ?_
      obtain rfl | held := mem_cons.mp held
      · simpa using above
      · simpa using lt_of_lt_of_le (not_le.mp above) (later c held)
    rw [whole, filter_append, none, append_nil] at counted
    have front_bound := length_filter_le (key · ≤ bound) front
    rw [length_smallest, length_append, length_cons] at few
    omega

end List
