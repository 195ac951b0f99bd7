import GoQueue.Library.SortedSet
import GoQueue.Library.Totals

/-! # A keyspace of lists and sorted sets

The part of a Redis server that list and sorted-set commands act on, over arbitrary
keys and members.  Lists and sorted sets live in maps of their own, so a key that the
program uses for both types would be two independent values here; a program that keeps
its key names apart cannot tell the difference.  A key that is absent reads as empty.

Each command is one atomic step.
-/

structure Keyspace (κ μ : Type*) [DecidableEq κ] [LinearOrder μ] where
  lists : AList (fun _ : κ => List μ)
  zsets : AList (fun _ : κ => SortedSet μ)

namespace Keyspace

variable {κ μ : Type*} [DecidableEq κ] [LinearOrder μ]

instance : EmptyCollection (Keyspace κ μ) := ⟨⟨∅, ∅⟩⟩

def list (r : Keyspace κ μ) (k : κ) : List μ := (r.lists.lookup k).getD []

def zset (r : Keyspace κ μ) (k : κ) : SortedSet μ := (r.zsets.lookup k).getD ∅

/-! ## Commands -/

/-- `LPUSH`: the member becomes the leftmost element. -/
def lpush (k : κ) (m : μ) (r : Keyspace κ μ) : Keyspace κ μ :=
  { r with lists := r.lists.insert k (m :: r.list k) }

/-- `BRPOP` on several keys: the rightmost element of the first listed key that has one.
`none` when all of them are empty, where the real command waits for its timeout. -/
def brpop (r : Keyspace κ μ) : List κ → Option (κ × μ × Keyspace κ μ)
  | [] => none
  | k :: ks =>
    match (r.list k).getLast? with
    | some m => some (k, m, { r with lists := r.lists.insert k (r.list k).dropLast })
    | none => brpop r ks

/-- `ZADD`. -/
def zadd (k : κ) (score : Int) (m : μ) (r : Keyspace κ μ) : Keyspace κ μ :=
  { r with zsets := r.zsets.insert k ((r.zset k).zadd score m) }

/-- `ZRANGEBYSCORE -inf max`. -/
def zrangeByScore (k : κ) (max : Int) (r : Keyspace κ μ) : List μ := (r.zset k).rangeByScore max

/-- `ZREMRANGEBYSCORE -inf max`. -/
def zremRangeByScore (k : κ) (max : Int) (r : Keyspace κ μ) : Keyspace κ μ :=
  { r with zsets := r.zsets.insert k ((r.zset k).removeRangeByScore max) }

/-- How often a member occurs in all lists together. -/
def occurrences (m : μ) (r : Keyspace κ μ) : Nat :=
  r.lists.total fun _ members => members.count m

/-! ## What each command changes -/

theorem list_insert (r : Keyspace κ μ) (k k' : κ) (members : List μ) :
    ({ r with lists := r.lists.insert k members } : Keyspace κ μ).list k' =
      if k' = k then members else r.list k' := by
  by_cases same : k' = k
  · subst same
    simp [list]
  · simp [list, same, AList.lookup_insert_ne]

theorem zset_insert (r : Keyspace κ μ) (k k' : κ) (z : SortedSet μ) :
    ({ r with zsets := r.zsets.insert k z } : Keyspace κ μ).zset k' =
      if k' = k then z else r.zset k' := by
  by_cases same : k' = k
  · subst same
    simp [zset]
  · simp [zset, same, AList.lookup_insert_ne]

theorem list_lpush (r : Keyspace κ μ) (k k' : κ) (m : μ) :
    (r.lpush k m).list k' = if k' = k then m :: r.list k else r.list k' :=
  list_insert r k k' _

@[simp] theorem zset_lpush (r : Keyspace κ μ) (k k' : κ) (m : μ) :
    (r.lpush k m).zset k' = r.zset k' := rfl

theorem zset_zadd (r : Keyspace κ μ) (k k' : κ) (score : Int) (m : μ) :
    (r.zadd k score m).zset k' = if k' = k then (r.zset k).zadd score m else r.zset k' :=
  zset_insert r k k' _

@[simp] theorem zset_zremRangeByScore (r : Keyspace κ μ) (k : κ) (max : Int) :
    (r.zremRangeByScore k max).zset k = (r.zset k).removeRangeByScore max := by
  simp [zremRangeByScore, zset_insert]

/-- What a successful `BRPOP` returns and leaves behind. -/
structure Popped (r : Keyspace κ μ) (keys : List κ) (k : κ) (m : μ) (r' : Keyspace κ μ) : Prop where
  asked : k ∈ keys
  last : r.list k = r'.list k ++ [m]
  others : ∀ k' ≠ k, r'.list k' = r.list k'
  zset : ∀ k', r'.zset k' = r.zset k'
  inserted : r'.lists = r.lists.insert k (r'.list k)

theorem brpop_popped {r r' : Keyspace κ μ} {keys : List κ} {k : κ} {m : μ}
    (popped : r.brpop keys = some (k, m, r')) : r.Popped keys k m r' := by
  induction keys with
  | nil => cases popped
  | cons key keys inductionHypothesis =>
    simp only [brpop] at popped
    split at popped
    case h_1 found last =>
      simp only [Option.some.injEq, Prod.mk.injEq] at popped
      obtain ⟨rfl, rfl, rfl⟩ := popped
      have remaining := list_insert r key key (r.list key).dropLast
      simp only [↓reduceIte] at remaining
      refine ⟨List.mem_cons_self, ?_, ?_, fun _ => rfl, ?_⟩
      · obtain ⟨front, equal⟩ := List.getLast?_eq_some_iff.mp last
        rw [remaining, equal, List.dropLast_concat]
      · intro other different
        simp [list_insert, different]
      · rw [remaining]
    case h_2 =>
      have rest := inductionHypothesis popped
      exact { rest with asked := List.mem_cons_of_mem _ rest.asked }

/-- `BRPOP` takes from the first of its keys that has a member. -/
theorem brpop_earliest {r r' : Keyspace κ μ} {keys : List κ} {k : κ} {m : μ}
    (popped : r.brpop keys = some (k, m, r')) :
    ∃ before after, keys = before ++ k :: after ∧ ∀ k' ∈ before, r.list k' = [] := by
  induction keys with
  | nil => cases popped
  | cons key keys inductionHypothesis =>
    simp only [brpop] at popped
    split at popped
    case h_1 found last =>
      simp only [Option.some.injEq, Prod.mk.injEq] at popped
      exact ⟨[], keys, by rw [popped.1]; rfl, nofun⟩
    case h_2 none =>
      obtain ⟨before, after, rfl, empty⟩ := inductionHypothesis popped
      refine ⟨key :: before, after, rfl, List.forall_mem_cons.mpr ⟨?_, empty⟩⟩
      exact List.getLast?_eq_none_iff.mp none

/-- `BRPOP` finds nothing only when every key it asks for is empty. -/
theorem brpop_eq_none {r : Keyspace κ μ} {keys : List κ} :
    r.brpop keys = none ↔ ∀ k ∈ keys, r.list k = [] := by
  induction keys with
  | nil => simp [brpop]
  | cons key keys inductionHypothesis =>
    simp only [brpop, List.forall_mem_cons]
    split
    case h_1 found last =>
      obtain ⟨front, equal⟩ := List.getLast?_eq_some_iff.mp last
      simp [equal]
    case h_2 last =>
      rw [List.getLast?_eq_none_iff] at last
      simp [last, inductionHypothesis]

/-! ## Counting occurrences -/

theorem occurrences_insert (r : Keyspace κ μ) (k : κ) (members : List μ) (m : μ) :
    ({ r with lists := r.lists.insert k members } : Keyspace κ μ).occurrences m + (r.list k).count m =
      r.occurrences m + members.count m := by
  have total := AList.total_insert (fun _ members => members.count m) k members r.lists
  have old : ((r.lists.lookup k).map fun members => members.count m).getD 0 = (r.list k).count m := by
    cases found : r.lists.lookup k <;> simp [list, found]
  simp only [occurrences]
  omega

theorem occurrences_lpush (r : Keyspace κ μ) (k : κ) (m m' : μ) :
    (r.lpush k m).occurrences m' = r.occurrences m' + if m = m' then 1 else 0 := by
  have counted := occurrences_insert r k (m :: r.list k) m'
  rw [List.count_cons] at counted
  simp only [lpush, beq_iff_eq] at counted ⊢
  omega

theorem Popped.occurrences {r r' : Keyspace κ μ} {keys : List κ} {k : κ} {m : μ}
    (popped : r.Popped keys k m r') (m' : μ) :
    r.occurrences m' = r'.occurrences m' + if m = m' then 1 else 0 := by
  have counted := occurrences_insert r k (r'.list k) m'
  have same : ({ r with lists := r.lists.insert k (r'.list k) } : Keyspace κ μ).occurrences m' =
      r'.occurrences m' := by simp only [Keyspace.occurrences, ← popped.inserted]
  rw [same, popped.last, List.count_append, List.count_singleton] at counted
  simp only [beq_iff_eq] at counted
  omega

theorem count_list_le_occurrences (r : Keyspace κ μ) (k : κ) (m : μ) :
    (r.list k).count m ≤ r.occurrences m := by
  have bound := AList.le_total (fun _ members => members.count m) k r.lists
  cases found : r.lists.lookup k <;> simp_all [list, occurrences]

theorem exists_mem_list_of_occurrences_pos {r : Keyspace κ μ} {m : μ} (held : 0 < r.occurrences m) :
    ∃ k, m ∈ r.list k := by
  obtain ⟨_, ⟨k, members⟩, found, counted⟩ := List.exists_index_of_sum_pos held
  have stored : r.lists.lookup k = some members :=
    AList.mem_lookup_iff.mpr (List.mem_of_getElem? found)
  refine ⟨k, ?_⟩
  simpa [list, stored] using counted

end Keyspace
