import GoQueue.Library.Keyspace
import GoQueue.Model.Job
import Mathlib.Data.String.Basic

/-! # Work queues and the schedule

`internal/queue/redis.go`.  A work queue is a Redis list under a key of its own; delayed
jobs wait in one sorted set, scored by the Unix second they are due at.
-/

namespace GoQueue

abbrev Redis := Keyspace String String

namespace Queue

def scheduledSetKey : String := "goqueue:scheduled"

def queueKey (queue : String) : String := "goqueue:queue:" ++ queue

theorem queueKey_injective {a b : String} (equal : queueKey a = queueKey b) : a = b := by
  have characters := congrArg String.toList equal
  simp only [queueKey, String.toList_append, List.append_cancel_left_eq] at characters
  exact String.toList_inj.mp characters

@[simp] theorem queueKey_inj {a b : String} : queueKey a = queueKey b ↔ a = b :=
  ⟨queueKey_injective, congrArg queueKey⟩

/-- The list a queue name stands for. -/
def contents (queue : String) (r : Redis) : List String := r.list (queueKey queue)

/-- The schedule. -/
def scheduled (r : Redis) : SortedSet String := r.zset scheduledSetKey

def push (queue jobID : String) (r : Redis) : Redis := r.lpush (queueKey queue) jobID

/-- The popped identifier, without the key it came from. -/
def pop (queues : List String) (r : Redis) : Option (String × Redis) :=
  (r.brpop (queues.map queueKey)).map fun (_, jobID, r') => (jobID, r')

def schedule (jobID : String) (runAt : Time) (r : Redis) : Redis :=
  r.zadd scheduledSetKey runAt.unix jobID

/-- `getDueJobsScript`: read the due range and, if there is one, remove it, in one script. -/
def getDueJobs (now : Time) (r : Redis) : List String × Redis :=
  let results := r.zrangeByScore scheduledSetKey now.unix
  (results, if 0 < results.length then r.zremRangeByScore scheduledSetKey now.unix else r)

/-! ## What the four operations change -/

theorem contents_push (queue queue' jobID : String) (r : Redis) :
    contents queue' (push queue jobID r) =
      if queue' = queue then jobID :: contents queue r else contents queue' r := by
  simp [contents, push, Keyspace.list_lpush]

@[simp] theorem scheduled_push (queue jobID : String) (r : Redis) :
    scheduled (push queue jobID r) = scheduled r := rfl

@[simp] theorem contents_schedule (queue jobID : String) (runAt : Time) (r : Redis) :
    contents queue (schedule jobID runAt r) = contents queue r := rfl

@[simp] theorem lists_getDueJobs (now : Time) (r : Redis) : (getDueJobs now r).2.lists = r.lists := by
  simp only [getDueJobs]
  split <;> rfl

@[simp] theorem contents_getDueJobs (queue : String) (now : Time) (r : Redis) :
    contents queue (getDueJobs now r).2 = contents queue r := by
  simp [contents, Keyspace.list]

@[simp] theorem occurrences_getDueJobs (member : String) (now : Time) (r : Redis) :
    (getDueJobs now r).2.occurrences member = r.occurrences member := by
  simp [Keyspace.occurrences]

@[simp] theorem scheduled_schedule (jobID : String) (runAt : Time) (r : Redis) :
    scheduled (schedule jobID runAt r) = (scheduled r).zadd runAt.unix jobID := by
  simp [scheduled, schedule, Keyspace.zset_zadd]

@[simp] theorem scheduled_getDueJobs (now : Time) (r : Redis) :
    scheduled (getDueJobs now r).2 = (scheduled r).removeRangeByScore now.unix := by
  simp only [getDueJobs]
  split
  · exact Keyspace.zset_zremRangeByScore r scheduledSetKey now.unix
  case isFalse none =>
    -- the script leaves the set alone, and there is nothing to remove
    have empty := List.eq_nil_of_length_eq_zero (Nat.eq_zero_of_not_pos none)
    exact (SortedSet.removeRangeByScore_of_empty empty).symm

/-- What a successful `Pop` returns and leaves behind. -/
structure Popped (r : Redis) (queues : List String) (queue jobID : String) (r' : Redis) : Prop where
  asked : queue ∈ queues
  last : contents queue r = contents queue r' ++ [jobID]
  others : ∀ queue' ≠ queue, contents queue' r' = contents queue' r
  scheduled : scheduled r' = scheduled r
  occurrences : ∀ member, r.occurrences member =
    r'.occurrences member + if jobID = member then 1 else 0

/-- The queue comes first among those of the list that have a member. -/
def Earliest (r : Redis) (queues : List String) (queue : String) : Prop :=
  ∃ before after, queues = before ++ queue :: after ∧ ∀ queue' ∈ before, contents queue' r = []

/-- The key that `BRPOP` replies with is that of the queue it took from. -/
theorem popped_of_brpop {r r' : Redis} {queues : List String} {key jobID : String}
    (found : r.brpop (queues.map queueKey) = some (key, jobID, r')) :
    ∃ queue, key = queueKey queue ∧ Earliest r queues queue ∧ Popped r queues queue jobID r' := by
  have result := Keyspace.brpop_popped found
  obtain ⟨before, after, split, empty⟩ := Keyspace.brpop_earliest found
  obtain ⟨front, back, rfl, rfl, rest⟩ := List.map_eq_append_iff.mp split
  obtain ⟨queue, tail, rfl, rfl, rfl⟩ := List.map_eq_cons_iff.mp rest
  refine ⟨queue, rfl, ⟨front, tail, rfl, fun other listed => ?_⟩, by simp, result.last, ?_,
    result.zset _, result.occurrences⟩
  · exact empty _ (List.mem_map_of_mem listed)
  · intro other different
    exact result.others _ (fun equal => different (queueKey_injective equal))

theorem pop_popped {r r' : Redis} {queues : List String} {jobID : String}
    (popped : pop queues r = some (jobID, r')) : ∃ queue, Popped r queues queue jobID r' := by
  simp only [pop, Option.map_eq_some_iff, Prod.mk.injEq] at popped
  obtain ⟨⟨key, member, rest⟩, found, rfl, rfl⟩ := popped
  obtain ⟨queue, _, _, result⟩ := popped_of_brpop found
  exact ⟨queue, result⟩

/-- Every list that has a member is the list of some queue. -/
def Keyed (r : Redis) : Prop := ∀ key, r.list key ≠ [] → ∃ queue, key = queueKey queue

theorem Keyed.push {r : Redis} (keyed : Keyed r) (queue jobID : String) :
    Keyed (push queue jobID r) := by
  intro key some
  by_cases same : key = queueKey queue
  · exact ⟨queue, same⟩
  · rw [Queue.push, Keyspace.list_lpush, if_neg same] at some
    exact keyed key some

theorem Keyed.getDueJobs {r : Redis} (keyed : Keyed r) (now : Time) : Keyed (getDueJobs now r).2 := by
  simpa [Keyed, Keyspace.list] using keyed

theorem Keyed.pop {r r' : Redis} {queues : List String} {jobID : String} (keyed : Keyed r)
    (popped : pop queues r = some (jobID, r')) : Keyed r' := by
  simp only [Queue.pop, Option.map_eq_some_iff, Prod.mk.injEq] at popped
  obtain ⟨⟨key, member, rest⟩, found, rfl, rfl⟩ := popped
  have result := Keyspace.brpop_popped found
  intro key' some
  by_cases same : key' = key
  · subst same
    exact keyed key' (by simp [result.last])
  · rw [result.others key' same] at some
    exact keyed key' some

theorem pop_eq_none {r : Redis} {queues : List String} :
    pop queues r = none ↔ ∀ queue ∈ queues, contents queue r = [] := by
  simp [pop, Keyspace.brpop_eq_none, contents]

end Queue

end GoQueue
