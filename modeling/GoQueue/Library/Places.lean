import Mathlib.Logic.Basic

/-! # Members of a list known by their places

In a system whose state lists its parties, a step replaces the member at one place or adds a
member at the end.  Whoever stands at a place afterwards is the one that moved, or stood there
before.
-/

namespace List

variable {α : Type*} {l : List α} {i k : Nat} {a new : α}

theorem getElem?_set_cases (found : (l.set i new)[k]? = some a) :
    (k = i ∧ a = new) ∨ (k ≠ i ∧ l[k]? = some a) := by
  rw [List.getElem?_set] at found
  split at found
  case isTrue same =>
    split at found
    · cases found
      exact .inl ⟨same.symm, rfl⟩
    · cases found
  case isFalse different => exact .inr ⟨Ne.symm different, found⟩

/-- Who was a member before is the one that moved, or is a member still. -/
theorem mem_set_or {b : α} (found : l[i]? = some a) (member : b ∈ l) (new : α) :
    b = a ∨ b ∈ l.set i new := by
  obtain ⟨k, there⟩ := List.mem_iff_getElem?.mp member
  by_cases same : i = k
  · subst same
    rw [found] at there
    cases there
    exact .inl rfl
  · exact .inr (List.mem_of_getElem? ((List.getElem?_set_ne same).trans there))

theorem getElem?_concat_cases (found : (l ++ [new])[k]? = some a) :
    (k = l.length ∧ a = new) ∨ l[k]? = some a := by
  rw [List.getElem?_append] at found
  split at found
  · exact .inr found
  · simp only [List.getElem?_singleton, Option.ite_none_right_eq_some, Option.some.injEq] at found
    exact .inl ⟨by omega, found.2.symm⟩

/-- How many members have a property after one of them has moved. -/
theorem countP_set_add (p : α → Bool) (found : l[i]? = some a) (new : α) :
    (l.set i new).countP p + (p a).toNat = l.countP p + (p new).toNat := by
  induction l generalizing i with
  | nil => cases found
  | cons head rest inductionHypothesis =>
    cases i with
    | zero =>
      cases found
      cases before : p a <;> cases after : p new <;> simp [before, after]
    | succ i =>
      have later := inductionHypothesis found
      simp only [List.set_cons_succ, List.countP_cons]
      omega

end List
