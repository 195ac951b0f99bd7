import Mathlib.Algebra.BigOperators.Group.List.Basic
import Mathlib.Algebra.Order.Ring.Nat
import Mathlib.Data.List.AList
import Mathlib.Data.List.Induction
import Mathlib.Data.List.Nodup

/-! # Counted groups and the maps built from them

`SELECT key, COUNT(*) … GROUP BY key` answers with one entry for each key that occurs, in any
order.  Adding up the counts of some keys gives the number of the rows with these keys.

A map is built from the entries in a loop, by assignment or by addition.  For entries with
distinct keys the two come to the same: under each key is the sum of the values.
-/

/-! ## Groups -/

/-- The entries count the rows by their keys. -/
structure IsGroupCount {α ε κ : Type*} [DecidableEq κ] (rowKey : α → κ) (rows : List α)
    (key : ε → κ) (count : ε → Nat) (groups : List ε) : Prop where
  distinct : (groups.map key).Nodup
  complete : ∀ row ∈ rows, rowKey row ∈ groups.map key
  counts : ∀ group ∈ groups,
    count group = rows.countP (fun row => rowKey row = key group) ∧ 0 < count group

namespace List

variable {α κ : Type*} [DecidableEq κ]

/-- An element at the end is new, or not a first occurrence. -/
theorem eraseDups_concat (l : List κ) (a : κ) :
    (l ++ [a]).eraseDups = if a ∈ l then l.eraseDups else l.eraseDups ++ [a] := by
  rw [eraseDups_append]
  split_ifs with member
  · simp [removeAll, member]
  · simp [removeAll, member, eraseDups_cons]

theorem nodup_eraseDups (l : List κ) : l.eraseDups.Nodup := by
  induction l using reverseRecOn with
  | nil => exact nodup_nil
  | append_singleton l a inductionHypothesis =>
    rw [eraseDups_concat]
    split_ifs with member
    · exact inductionHypothesis
    · refine nodup_append.mpr ⟨inductionHypothesis, nodup_singleton a, ?_⟩
      intro b inside c last
      rw [mem_singleton.mp last]
      rintro rfl
      exact member (mem_eraseDups.mp inside)

theorem sum_indicator {keys : List κ} (distinct : keys.Nodup) {a : κ} (member : a ∈ keys)
    (n : Nat) : (keys.map fun k => if a = k then n else 0).sum = n := by
  induction keys with
  | nil => cases member
  | cons k rest inductionHypothesis =>
    obtain ⟨absent, distinct⟩ := nodup_cons.mp distinct
    by_cases first : a = k
    · have none : ∀ k' ∈ rest, (if a = k' then n else 0) = 0 := by
        rintro k' later
        rw [if_neg]
        rintro rfl
        exact absent (first ▸ later)
      simp [first, map_congr_left (first ▸ none)]
    · have later := inductionHypothesis distinct (mem_of_ne_of_mem first member)
      simpa [first] using later

/-- The weight of each row is added up under one of the keys. -/
theorem sum_filter_of_nodup {rowKey : α → κ} {rows : List α} {keys : List κ} (distinct : keys.Nodup)
    (weight : α → Nat) (p : α → Bool) (complete : ∀ row ∈ rows, p row → rowKey row ∈ keys) :
    (keys.map fun k => ((rows.filter fun row => p row && rowKey row = k).map weight).sum).sum =
      ((rows.filter p).map weight).sum := by
  induction rows with
  | nil => simp
  | cons row rest inductionHypothesis =>
    have later := inductionHypothesis fun row member => complete row (mem_cons_of_mem _ member)
    cases counted : p row with
    | false => simpa [counted] using later
    | true =>
      have split (k : κ) : (((row :: rest).filter fun row => p row && rowKey row = k).map weight).sum =
          (if rowKey row = k then weight row else 0) +
            ((rest.filter fun row => p row && rowKey row = k).map weight).sum := by
        by_cases same : rowKey row = k <;> simp [counted, same]
      have once := sum_indicator distinct (complete row (by simp) counted) (weight row)
      simp only [split, sum_map_add, later, once]
      simp [counted]

/-- Each row is counted under one of the keys. -/
theorem sum_countP_of_nodup {rowKey : α → κ} {rows : List α} {keys : List κ} (distinct : keys.Nodup)
    (p : α → Bool) (complete : ∀ row ∈ rows, p row → rowKey row ∈ keys) :
    (keys.map fun k => rows.countP fun row => p row && rowKey row = k).sum = rows.countP p := by
  have weighted := sum_filter_of_nodup distinct (fun _ => 1) p complete
  simpa [countP_eq_length_filter] using weighted

end List

namespace IsGroupCount

variable {α ε κ : Type*} [DecidableEq κ] {rowKey : α → κ} {rows : List α} {key : ε → κ}
  {count : ε → Nat} {groups : List ε}

/-- The counts of some keys add up to the number of the rows with these keys. -/
theorem sum_filter (grouped : IsGroupCount rowKey rows key count groups) (p : κ → Bool) :
    ((groups.filter fun group => p (key group)).map count).sum =
      rows.countP fun row => p (rowKey row) := by
  have counted : (groups.filter fun group => p (key group)).map count =
      ((groups.filter fun group => p (key group)).map key).map fun k =>
        rows.countP fun row => p (rowKey row) && rowKey row = k := by
    rw [List.map_map]
    refine List.map_congr_left fun group member => ?_
    obtain ⟨inGroups, chosen⟩ := List.mem_filter.mp member
    rw [(grouped.counts group inGroups).1]
    refine List.countP_congr fun row _ => ?_
    by_cases same : rowKey row = key group
    · simp [same, chosen]
    · simp [same]
  rw [counted]
  refine List.sum_countP_of_nodup ?_ _ fun row member chosen => ?_
  · exact grouped.distinct.sublist (List.filter_sublist.map key)
  · obtain ⟨group, inGroups, same⟩ := List.mem_map.mp (grouped.complete row member)
    refine List.mem_map.mpr ⟨group, List.mem_filter.mpr ⟨inGroups, ?_⟩, same⟩
    rw [same]
    exact chosen

theorem exists_row (grouped : IsGroupCount rowKey rows key count groups) {group : ε}
    (member : group ∈ groups) : ∃ row ∈ rows, rowKey row = key group := by
  obtain ⟨counted, positive⟩ := grouped.counts group member
  rw [counted, List.countP_pos_iff] at positive
  simpa using positive

/-- The parts of the keys that occur among the groups are those that occur among the rows. -/
theorem exists_iff (grouped : IsGroupCount rowKey rows key count groups) {β : Type*} (part : κ → β)
    (b : β) : (∃ group ∈ groups, part (key group) = b) ↔ ∃ row ∈ rows, part (rowKey row) = b := by
  constructor
  · rintro ⟨group, member, rfl⟩
    obtain ⟨row, inRows, same⟩ := grouped.exists_row member
    exact ⟨row, inRows, congrArg part same⟩
  · rintro ⟨row, inRows, rfl⟩
    obtain ⟨group, member, same⟩ := List.mem_map.mp (grouped.complete row inRows)
    exact ⟨group, member, congrArg part same⟩

end IsGroupCount

/-! ## Building a map -/

section Building

variable {σ ε κ : Type*} [DecidableEq κ] (put : σ → ε → σ) (read : σ → κ → Nat) (key : ε → κ)
  (value : ε → Nat)

/-- `m[key] += value` -/
def Adds : Prop := ∀ m e k, read (put m e) k = read m k + if key e = k then value e else 0

/-- `m[key] = value` -/
def Assigns : Prop := ∀ m e k, read (put m e) k = if key e = k then value e else read m k

variable {put read key value}

theorem Adds.read_foldl (adds : Adds put read key value) (entries : List ε) (m : σ) (k : κ) :
    read (entries.foldl put m) k =
      read m k + ((entries.filter fun e => key e = k).map value).sum := by
  induction entries generalizing m with
  | nil => simp
  | cons e rest inductionHypothesis =>
    rw [List.foldl_cons, inductionHypothesis, adds]
    by_cases same : key e = k
    · simp [same, Nat.add_assoc]
    · simp [same]

theorem Assigns.read_foldl (assigns : Assigns put read key value) {entries : List ε}
    (distinct : (entries.map key).Nodup) {m : σ} (empty : ∀ k, read m k = 0) (k : κ) :
    read (entries.foldl put m) k = ((entries.filter fun e => key e = k).map value).sum := by
  induction entries using List.reverseRecOn with
  | nil => simp [empty]
  | append_singleton entries e inductionHypothesis =>
    rw [List.map_append, List.nodup_append] at distinct
    obtain ⟨distinct, -, apart⟩ := distinct
    rw [List.foldl_concat, assigns, inductionHypothesis distinct, List.filter_append]
    by_cases same : key e = k
    · have none : entries.filter (fun e => key e = k) = [] := by
        rw [List.filter_eq_nil_iff]
        intro e' member
        simpa [← same] using apart (key e') (List.mem_map_of_mem member) (key e) (by simp)
      simp [same, none]
    · simp [same]

end Building

/-- The keys of a map that is built by insertions. -/
theorem AList.mem_foldl {ε κ : Type*} [DecidableEq κ] {β : κ → Type*} {put : AList β → ε → AList β}
    {key : ε → κ} (inserts : ∀ m e k, k ∈ put m e ↔ k = key e ∨ k ∈ m) (entries : List ε)
    (m : AList β) (k : κ) : k ∈ entries.foldl put m ↔ (∃ e ∈ entries, key e = k) ∨ k ∈ m := by
  induction entries generalizing m with
  | nil => simp
  | cons e rest inductionHypothesis =>
    rw [List.foldl_cons, inductionHypothesis, inserts]
    simp only [List.mem_cons, exists_eq_or_imp, eq_comm (a := k)]
    exact or_left_comm.trans or_assoc.symm
