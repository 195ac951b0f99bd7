import GoQueue.Model.Job
import Mathlib.Data.List.AList

/-! # The `jobs` table

`internal/storage/postgres.go`.  Every function here is one SQL statement, applied to the
table in a single step; the statement's clock is an argument.  The table maps primary keys
to rows.

Two statements return rows in an order with a limit.  SQL leaves the order of rows with
equal keys open, so their answers are not functions of the table: `IsSelection` says which
answers a query can give.
-/

namespace GoQueue

abbrev Jobs := AList (fun _ : Uuid => JobRow)

namespace Storage

def scanJob (id : Uuid) (row : JobRow) : Job := { row with id := id }

def getJob (id : Uuid) (jobs : Jobs) : Option Job :=
  (jobs.lookup id).map (scanJob id)

theorem getJob_eq_some {id : Uuid} {jobs : Jobs} {job : Job} :
    getJob id jobs = some job ↔ job.id = id ∧ jobs.lookup id = some job.toJobRow := by
  simp only [getJob, Option.map_eq_some_iff]
  constructor
  · rintro ⟨row, found, rfl⟩
    exact ⟨rfl, found⟩
  · rintro ⟨rfl, found⟩
    exact ⟨job.toJobRow, found, rfl⟩

/-! ## Creating -/

/-- The fields of a job that `CreateJob` inserts; the others take the column defaults. -/
structure NewJob where
  queue : String
  type : String
  payload : String
  status : JobStatus
  maxRetries : Int
  runAt : Option Time
deriving DecidableEq

/-- What a `VARCHAR(n)` column stores.  Of a longer text it takes the first `n` characters if all
that follow are spaces, and refuses any other. -/
def varchar (n : Nat) (text : String) : Option String :=
  if text.length ≤ n then some text
  else if (text.toList.drop n).all (· = ' ') then some (.ofList (text.toList.take n))
  else none

theorem varchar_of_length_le {n : Nat} {text : String} (short : text.length ≤ n) :
    varchar n text = some text := if_pos short

/-- Spaces behind a name that fills its column are cut off. -/
theorem varchar_append {n : Nat} {text spaces : String} (full : text.length = n)
    (blank : spaces.toList.all (· = ' ') = true) : varchar n (text ++ spaces) = some text := by
  have exact : text.toList.length = n := by rw [String.length_toList, full]
  have rest : (text ++ spaces).toList.drop n = spaces.toList := by
    rw [String.toList_append, List.drop_left' exact]
  have kept : (text ++ spaces).toList.take n = text.toList := by
    rw [String.toList_append, List.take_left' exact]
  unfold varchar
  split
  case isTrue short =>
    have none : spaces.length = 0 := by
      rw [String.length_append] at short
      omega
    rw [String.length_eq_zero_iff.mp none, String.append_empty]
  case isFalse => rw [rest, kept, if_pos blank, String.ofList_toList]

theorem varchar_eq_some {n : Nat} {text stored : String} (kept : varchar n text = some stored) :
    stored = text ∧ text.length ≤ n ∨ n < text.length ∧ stored.length = n := by
  unfold varchar at kept
  split at kept
  case isTrue short => exact .inl ⟨(Option.some.inj kept).symm, short⟩
  case isFalse long =>
    split at kept
    · obtain rfl := Option.some.inj kept
      simp only [String.length_ofList, List.length_take, String.length_toList]
      omega
    · cases kept

theorem length_le_of_varchar {n : Nat} {text stored : String}
    (kept : varchar n text = some stored) : stored.length ≤ n := by
  obtain ⟨rfl, short⟩ | ⟨_, full⟩ := varchar_eq_some kept
  · exact short
  · exact full.le

/-- A name that does not fill its column is stored as it was given. -/
theorem eq_of_varchar {n : Nat} {text stored : String} (kept : varchar n text = some stored)
    (short : stored.length < n) : text = stored := by
  obtain ⟨rfl, _⟩ | ⟨_, full⟩ := varchar_eq_some kept
  · rfl
  · exact absurd full short.ne

/-- The row an `INSERT` stores.  It fails on a name that its column refuses and on a number that
is no `INT`. -/
def createJob (now : Time) (job : NewJob) : Option JobRow :=
  if fits : -2 ^ 31 ≤ job.maxRetries ∧ job.maxRetries < 2 ^ 31 then
    match queued : varchar 255 job.queue, typed : varchar 255 job.type with
    | some queue, some type =>
      some {
        queue := queue
        type := type
        named := ⟨length_le_of_varchar queued, length_le_of_varchar typed⟩
        payload := job.payload
        status := job.status
        maxRetries := ⟨job.maxRetries, fits⟩
        retryCount := ⟨0, Int4.zero_fits⟩
        runAt := job.runAt.map timestamptz
        startedAt := none
        completedAt := none
        error := ""
        createdAt := timestamptz now
        updatedAt := timestamptz now }
    | _, _ => none
  else none

/-- The row is the one that is stored for the job. -/
structure Created (now : Time) (job : NewJob) (row : JobRow) : Prop where
  queue : varchar 255 job.queue = some row.queue
  type : varchar 255 job.type = some row.type
  payload : row.payload = job.payload
  status : row.status = job.status
  maxRetries : row.maxRetries.val = job.maxRetries
  retryCount : row.retryCount.val = 0
  runAt : row.runAt = job.runAt.map timestamptz
  startedAt : row.startedAt = none
  completedAt : row.completedAt = none
  error : row.error = ""
  createdAt : row.createdAt = timestamptz now
  updatedAt : row.updatedAt = timestamptz now

theorem created_of_createJob {now : Time} {job : NewJob} {row : JobRow}
    (stored : createJob now job = some row) : Created now job row := by
  unfold createJob at stored
  split at stored
  · split at stored
    case h_1 queued typed =>
      cases stored
      exact ⟨queued, typed, rfl, rfl, rfl, rfl, rfl, rfl, rfl, rfl, rfl, rfl⟩
    case h_2 => cases stored
  · cases stored

theorem exists_createJob (now : Time) {job : NewJob} {queue type : String}
    (fits : -2 ^ 31 ≤ job.maxRetries ∧ job.maxRetries < 2 ^ 31)
    (queued : varchar 255 job.queue = some queue) (typed : varchar 255 job.type = some type) :
    ∃ row, createJob now job = some row := by
  rw [createJob, dif_pos fits]
  split
  · exact ⟨_, rfl⟩
  case h_2 refused => exact absurd typed (refused _ _ queued)

/-! ## Updating -/

/-- `UPDATE jobs SET … WHERE id = …`: a row that is not there is not an error. -/
def update (id : Uuid) (set : JobRow → JobRow) (jobs : Jobs) : Jobs :=
  match jobs.lookup id with
  | some row => jobs.insert id (set row)
  | none => jobs

theorem lookup_update (id id' : Uuid) (set : JobRow → JobRow) (jobs : Jobs) :
    (update id set jobs).lookup id' =
      if id' = id then (jobs.lookup id).map set else jobs.lookup id' := by
  unfold update
  cases found : jobs.lookup id with
  | none =>
    by_cases same : id' = id
    · subst same
      simp [found]
    · simp [same]
  | some row =>
    by_cases same : id' = id
    · subst same
      simp
    · simp [same, AList.lookup_insert_ne]

/-- The program reads `started_at` and `completed_at` off its clock right before the statement; here
both are one step, at one time. -/
def setStatus (now : Time) (status : JobStatus) (row : JobRow) : JobRow :=
  let startedAt := if status = .running then some (timestamptz now) else none
  let completedAt := if status = .completed then some (timestamptz now) else none
  { row with
    status := status
    startedAt := startedAt.or row.startedAt
    completedAt := completedAt.or row.completedAt
    updatedAt := timestamptz now }

def setError (now : Time) (status : JobStatus) (retryCount : Int4) (jobErr : String)
    (row : JobRow) : JobRow :=
  { row with
    status := status
    retryCount := retryCount
    error := jobErr
    updatedAt := timestamptz now }

def updateJobStatus (now : Time) (id : Uuid) (status : JobStatus) (jobs : Jobs) : Jobs :=
  update id (setStatus now status) jobs

def updateJobError (now : Time) (id : Uuid) (status : JobStatus) (retryCount : Int4)
    (jobErr : String) (jobs : Jobs) : Jobs :=
  update id (setError now status retryCount jobErr) jobs

/-- The columns that no statement updates. -/
structure SameJob (a b : JobRow) : Prop where
  queue : a.queue = b.queue
  type : a.type = b.type
  payload : a.payload = b.payload
  maxRetries : a.maxRetries = b.maxRetries
  runAt : a.runAt = b.runAt
  createdAt : a.createdAt = b.createdAt

theorem SameJob.refl (a : JobRow) : SameJob a a := ⟨rfl, rfl, rfl, rfl, rfl, rfl⟩

theorem SameJob.trans {a b c : JobRow} (first : SameJob a b) (second : SameJob b c) : SameJob a c :=
  ⟨first.queue.trans second.queue, first.type.trans second.type,
    first.payload.trans second.payload, first.maxRetries.trans second.maxRetries,
    first.runAt.trans second.runAt, first.createdAt.trans second.createdAt⟩

theorem SameJob.symm {a b : JobRow} (same : SameJob a b) : SameJob b a :=
  ⟨same.queue.symm, same.type.symm, same.payload.symm, same.maxRetries.symm, same.runAt.symm,
    same.createdAt.symm⟩

theorem sameJob_setStatus (now : Time) (status : JobStatus) (row : JobRow) :
    SameJob row (setStatus now status row) := ⟨rfl, rfl, rfl, rfl, rfl, rfl⟩

theorem sameJob_setError (now : Time) (status : JobStatus) (retryCount : Int4) (jobErr : String)
    (row : JobRow) : SameJob row (setError now status retryCount jobErr row) :=
  ⟨rfl, rfl, rfl, rfl, rfl, rfl⟩

/-! ## Deleting -/

/-- `DELETE … WHERE id = … AND status = 'dead'` affects a row. -/
def deletable (id : Uuid) (jobs : Jobs) : Bool :=
  match jobs.lookup id with
  | some row => row.status = .dead
  | none => false

/-! ## Selecting with an order and a limit -/

/-- `result` can come out of `SELECT … WHERE selected ORDER BY key LIMIT limit` before its
stream ends: distinct rows of the table that match, in key order, up to the limit. -/
def IsPartialSelection (selected : JobRow → Bool) (key : JobRow → Time) (limit : Nat) (jobs : Jobs)
    (result : List Job) : Prop :=
  (result.map Job.id).Nodup ∧
  (∀ job ∈ result, getJob job.id jobs = some job ∧ selected job.toJobRow = true) ∧
  result.Pairwise (fun a b => key a.toJobRow ≤ key b.toJobRow) ∧
  result.length ≤ limit

/-- `result` is an answer to the query: a matching row is left out only when the limit is
reached by rows that may come before it. -/
def IsSelection (selected : JobRow → Bool) (key : JobRow → Time) (limit : Nat) (jobs : Jobs)
    (result : List Job) : Prop :=
  IsPartialSelection selected key limit jobs result ∧
  ∀ entry ∈ jobs.entries, selected entry.2 = true → entry.1 ∈ result.map Job.id ∨
    (result.length = limit ∧ ∀ job ∈ result, key job.toJobRow ≤ key entry.2)

instance (selected : JobRow → Bool) (key : JobRow → Time) (limit : Nat) (jobs : Jobs)
    (result : List Job) : Decidable (IsPartialSelection selected key limit jobs result) :=
  inferInstanceAs (Decidable (_ ∧ _ ∧ _ ∧ _))

instance (selected : JobRow → Bool) (key : JobRow → Time) (limit : Nat) (jobs : Jobs)
    (result : List Job) : Decidable (IsSelection selected key limit jobs result) :=
  inferInstanceAs (Decidable (_ ∧ _))

/-- The condition of `GetPendingUnqueued`; it orders by `created_at`. -/
def pendingUnqueued (now olderThan : Time) (row : JobRow) : Bool :=
  row.status = .pending && row.runAt.isNone && row.createdAt < timestamptz (now - olderThan)

/-- The condition of `GetStaleRunningJobs`; it orders by `started_at`, which is set in every
row that matches. -/
def staleRunning (now timeout : Time) (row : JobRow) : Bool :=
  row.status = .running &&
    row.startedAt.any (fun startedAt => startedAt < timestamptz (now - 2 * timeout))

def startedKey (row : JobRow) : Time := row.startedAt.getD 0

end Storage

end GoQueue
