import GoQueue.Storage.Answers
import GoQueue.Verified.Streams

/-! # What `ListJobs` returns

The two statements of `ListJobs` share a `WHERE` clause whose placeholders are numbered as it
grows.  The clause selects the rows that match the filter, in both statements, and the page is cut
out of an order that Postgres chooses.
-/

namespace GoQueue.Storage

open Listed

variable {α : Type} [Listed α]

/-! ## The `WHERE` clause -/

/-- The row has the text that a field of the filter asks for. -/
def asksFor (column : Column) (wanted : String) (row : α) : Bool :=
  wanted = "" || Listed.column column row = wanted

/-- The row has every text that the filter asks for. -/
def ListFilter.matches (filter : ListFilter) (row : α) : Bool :=
  asksFor .status filter.status row && asksFor .queue filter.queue row &&
    asksFor .type filter.type row

/-- The placeholders are those of the arguments so far. -/
structure Where.Numbered (clause : Where) : Prop where
  next : clause.argIdx = clause.args.length + 1
  bound : ∀ condition ∈ clause.conditions,
    1 ≤ condition.placeholder ∧ condition.placeholder ≤ clause.args.length

namespace Where.Numbered

variable {clause : Where}

theorem empty : Where.Numbered ⟨[], [], 1⟩ := ⟨rfl, nofun⟩

theorem add (numbered : clause.Numbered) (column : Column) (wanted : String) :
    (clause.add column wanted).Numbered := by
  unfold Where.add
  split_ifs
  · refine ⟨by simp [numbered.next], fun condition member => ?_⟩
    obtain earlier | last := List.mem_append.mp member
    · have := numbered.bound condition earlier
      simp only [List.length_append]
      omega
    · simp [List.mem_singleton.mp last, numbered.next]
  · exact numbered

/-- Further arguments do not change the meaning of a clause. -/
theorem selected_append (numbered : clause.Numbered) (more : List Value) (row : α) :
    selected clause.conditions (clause.args ++ more) row =
      selected clause.conditions clause.args row := by
  rw [Bool.eq_iff_iff, selected, selected, List.all_eq_true, List.all_eq_true]
  refine forall₂_congr fun condition member => ?_
  have := numbered.bound condition member
  rw [Condition.holds, Condition.holds, List.getElem?_append_left (by omega)]

theorem selected_add (numbered : clause.Numbered) (column : Column) (wanted : String) (row : α) :
    selected (clause.add column wanted).conditions (clause.add column wanted).args row =
      (selected clause.conditions clause.args row && asksFor column wanted row) := by
  unfold Where.add
  split_ifs with asked
  · have value : (clause.args ++ [Value.text wanted])[clause.argIdx - 1]? = some (.text wanted) := by
      simp [numbered.next]
    have earlier := numbered.selected_append [.text wanted] row
    simp only [selected] at earlier
    simp [selected, Condition.holds, value, earlier, asksFor, asked, eq_comm]
  · simp [asksFor, not_not.mp asked]

end Where.Numbered

namespace ListFilter

variable (filter : ListFilter)

theorem numbered_clause : filter.clause.Numbered :=
  ((Where.Numbered.empty.add _ _).add _ _).add _ _

/-- The clause selects the rows that match, in both statements. -/
theorem selected_clause (more : List Value) (row : α) :
    selected filter.clause.conditions (filter.clause.args ++ more) row = filter.matches row := by
  have first := Where.Numbered.empty.add .status filter.status
  have second := first.add .queue filter.queue
  rw [filter.numbered_clause.selected_append, clause, second.selected_add, first.selected_add,
    Where.Numbered.empty.selected_add]
  simp [ListFilter.matches, selected]

theorem selected_clause_eq (more : List Value) :
    selected filter.clause.conditions (filter.clause.args ++ more) =
      (filter.matches : α → Bool) :=
  funext (filter.selected_clause more)

/-- The offset as it is computed. -/
def offset : Int := ((filter.page - 1) * filter.limit).wrap64

end ListFilter

/-! ## One page -/

/-- The rows from this place on, up to a limit; a negative place gives none. -/
def window (order : List α) (offset : Int) (limit : Nat) : List α :=
  if offset < 0 then [] else (order.drop offset.toNat).take limit

/-- What `ListJobs` returns from a table. -/
theorem listJobs_served {pool : Pool α} {table : List α} {order : (α → Bool) → List α}
    (serves : pool.Serves table order) (filter : ListFilter) (page : 1 ≤ filter.page)
    (limit : 1 ≤ filter.limit) :
    listJobs pool filter = (window (order filter.matches) filter.offset filter.limit.toNat,
      (table.filter filter.matches).length, none) := by
  have numbered := filter.numbered_clause
  have counted := serves.count filter.clause.conditions filter.clause.args
  have limited : (filter.clause.args ++ [.int filter.limit, .int filter.offset])[
      filter.clause.argIdx - 1]? = some (.int filter.limit) := by
    simp [numbered.next]
  have skipped : (filter.clause.args ++ [.int filter.limit, .int filter.offset])[
      filter.clause.argIdx + 1 - 1]? = some (.int filter.offset) := by
    simp [numbered.next]
  have answered := serves.page filter.clause.conditions _ _ _ _ _ limited (by omega) skipped
  have matching : (selected filter.clause.conditions filter.clause.args : α → Bool) =
      filter.matches := by
    simpa using filter.selected_clause_eq []
  rw [matching] at counted
  rw [filter.selected_clause_eq] at answered
  simp only [listJobs, counted, if_neg (by omega : ¬ filter.page < 1),
    if_neg (by omega : ¬ filter.limit < 1)]
  rw [← ListFilter.offset]
  split at answered
  case isTrue negative =>
    obtain ⟨err, answered⟩ := answered
    simp [answered, scanRows, window, negative]
  case isFalse valid => simp only [answered, scanRows_map_ok, window, if_neg valid]

omit [Listed α] in
/-- Without a wrap-around the window is the page. -/
theorem window_offset (filter : ListFilter) {k limit : Nat} (fits : k * limit < 2 ^ 63)
    (order : List α) :
    window order ({ filter with page := k + 1, limit := limit } : ListFilter).offset limit =
      order.page limit k := by
  have exact : ({ filter with page := k + 1, limit := limit } : ListFilter).offset =
      (k * limit : Nat) := by
    rw [ListFilter.offset, Int.add_sub_cancel, ← Int.natCast_mul]
    exact Int.wrap64_eq_self (by omega) (by omega)
  rw [window, exact, if_neg (by omega), Int.toNat_natCast, List.page]

end GoQueue.Storage
