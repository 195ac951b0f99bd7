import GoQueue.Model.Uuid

/-! # Jobs, their states and the retry delay

`internal/model/job.go`, with the instants and durations it uses.  An instant is the
number of nanoseconds since the Unix epoch.
-/

namespace GoQueue

abbrev Time := Int

def second : Time := 1000000000

/-- `Time.Unix`: whole seconds, rounded down also before the epoch. -/
def Time.unix (t : Time) : Int := t / second

/-- Rounding both sides down to seconds hides less than a second. -/
theorem Time.lt_add_second {s t : Time} (le : s.unix ≤ t.unix) : s < t + second := by
  have bound : ∀ a b : Int, a / 1000000000 ≤ b / 1000000000 → a < b + 1000000000 := by omega
  exact bound s t le

theorem Time.le_of_whole {s t : Time} (whole : s % second = 0) (le : s.unix ≤ t.unix) : s ≤ t := by
  have bound : ∀ a b : Int, a % 1000000000 = 0 → a / 1000000000 ≤ b / 1000000000 → a ≤ b := by omega
  exact bound s t whole le

/-- The beginning of the second. -/
theorem Time.unix_mul_second (t : Time) : Time.unix (t.unix * second) = t.unix :=
  Int.mul_ediv_cancel _ (by decide)

theorem Time.whole_of_le {t : Time} (le : t ≤ t.unix * second) : t % second = 0 := by
  have bound : ∀ a : Int, a ≤ a / 1000000000 * 1000000000 → a % 1000000000 = 0 := by omega
  exact bound t le

/-- A `TIMESTAMPTZ` column keeps microseconds. -/
def timestamptz (t : Time) : Time := t / 1000 * 1000

theorem timestamptz_mono {s t : Time} (le : s ≤ t) : timestamptz s ≤ timestamptz t :=
  Int.mul_le_mul_of_nonneg_right (Int.ediv_le_ediv (by decide) le) (by decide)

inductive JobStatus where
  | pending
  | scheduled
  | running
  | completed
  | failed
  | retrying
  | dead
  | cancelled
deriving DecidableEq, Repr

namespace JobStatus

def text : JobStatus → String
  | pending => "pending"
  | scheduled => "scheduled"
  | running => "running"
  | completed => "completed"
  | failed => "failed"
  | retrying => "retrying"
  | dead => "dead"
  | cancelled => "cancelled"

def allowedTransitions : JobStatus → List JobStatus
  | pending => [running, scheduled, cancelled]
  | scheduled => [running, cancelled]
  | running => [completed, failed, cancelled]
  | failed => [retrying, dead]
  | retrying => [running]
  | dead => [pending]
  | completed | cancelled => []

def canTransitionTo (s target : JobStatus) : Bool :=
  s.allowedTransitions.contains target

end JobStatus

/-- `2^retryCount` seconds.  The power is a float that is converted to a 64-bit integer
and multiplied by `time.Second` with wrap-around; below zero it is a fraction and
truncates to zero, and from `2^63` on Go leaves the result of the conversion to the
platform, which is the parameter `overflow`. -/
def backoffDuration (overflow : Int) (retryCount : Int) : Time :=
  let power :=
    if retryCount < 0 then 0
    else if retryCount < 63 then 2 ^ retryCount.toNat
    else overflow
  (power * second).bmod (2 ^ 64)

example : (backoffDuration 0 1, backoffDuration 0 4) = (2 * second, 16 * second) := by decide

/-- The values of an `INT` column. -/
abbrev Int4 := {n : Int // -2 ^ 31 ≤ n ∧ n < 2 ^ 31}

theorem Int4.zero_fits : -2 ^ 31 ≤ (0 : Int) ∧ (0 : Int) < 2 ^ 31 := by decide

/-- A row of the `jobs` table without its primary key.  The two names are `VARCHAR(255)`. -/
structure JobRow where
  queue : String
  type : String
  named : queue.length ≤ 255 ∧ type.length ≤ 255
  payload : String
  status : JobStatus
  maxRetries : Int4
  retryCount : Int4
  runAt : Option Time
  startedAt : Option Time
  completedAt : Option Time
  error : String
  createdAt : Time
  updatedAt : Time
deriving DecidableEq

/-- `model.Job` as read from the table. -/
structure Job extends JobRow where
  id : Uuid
deriving DecidableEq

end GoQueue
