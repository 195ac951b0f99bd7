import GoQueue.System.Solo
import GoQueue.Cmd.Main

/-! # Requests on one job

`RetryJob`, `CancelJob` and `DeleteJob` as what they are meant to be: one decision each, made
on the row as it stands.  `Kind.serve` says what a request answers and leaves behind when
nothing comes between its calls, and `served_alone` proves it of the handlers.  `Moves` is what one
call of a request can do when other requests on the same job run beside it.
-/

namespace GoQueue.Verified

open Api (Response writeError writeStatus)

inductive Kind where
  | retry
  | cancel
  | delete
deriving DecidableEq

structure Request where
  kind : Kind
  idParam : String

def Request.start (r : Request) : Op :=
  match r.kind with
  | .retry => .retryJob (.received r.idParam)
  | .cancel => .cancelJob (.received r.idParam)
  | .delete => .deleteJob (.received r.idParam)

namespace Kind

def answered (response : Response) : Kind → Op
  | retry => .retryJob (.responded response)
  | cancel => .cancelJob (.responded response)
  | delete => .deleteJob (.responded response)

/-- The answer of a request that has changed the row. -/
def success : Kind → Response
  | retry => writeStatus "retrying"
  | cancel => writeStatus "cancelled"
  | delete => writeStatus "deleted"

/-- The answer of a request that leaves the row alone; `none` if it goes ahead. -/
def refusal (row : Option JobRow) : Kind → Option Response
  | retry => match row with
    | none => some (writeError 404 "job not found")
    | some row =>
      if row.status = .dead then none else some (writeError 409 "only dead jobs can be retried")
  | cancel => match row with
    | none => some (writeError 404 "job not found")
    | some row =>
      if row.status.canTransitionTo .cancelled then none
      else some (writeError 409 "job cannot be cancelled in current state")
  | delete =>
    if row.any fun row => decide (row.status = .dead) then none
    else some (writeError 409 "job not found or not in dead status")

/-- The row after a request that goes ahead. -/
def update (now : Time) (row : Option JobRow) : Kind → Option JobRow
  | retry => row.map (Storage.setError now .pending ⟨0, Int4.zero_fits⟩ "")
  | cancel => row.map (Storage.setStatus now .cancelled)
  | delete => none

def serve (now : Time) (row : Option JobRow) (kind : Kind) : Response × Option JobRow :=
  match kind.refusal row with
  | some response => (response, row)
  | none => (kind.success, kind.update now row)

/-- The identifiers a request pushes to a queue's list. -/
def pushes (row : Option JobRow) (queue : String) : Kind → Nat
  | retry => if row.any fun row => decide (row.status = .dead ∧ row.queue = queue) then 1 else 0
  | cancel | delete => 0

end Kind

/-! ## One call beside others -/

variable {cfg : Config} {id : Uuid} {w : World}

/-- What one call of a request for the job can do. -/
inductive Moves (cfg : Config) (id : Uuid) (w : World) : Op → Effect → Op → Prop where
  | refused {op response} {r : Request} : op = r.start → cfg.uuid.parse r.idParam = some id →
      r.kind.refusal (w.row id) = some response →
      Moves cfg id w op .none (r.kind.answered response)
  | retryChecked {idParam j} : cfg.uuid.parse idParam = some id → j.id = id →
      w.row id = some j.toJobRow → j.status = .dead →
      Moves cfg id w (.retryJob (.received idParam)) .none (.retryJob (.checked id j))
  | updated {j} : Moves cfg id w (.retryJob (.checked id j))
      (.setError id .pending ⟨0, Int4.zero_fits⟩ "") (.retryJob (.updated id j))
  | pushed {j} : Moves cfg id w (.retryJob (.updated id j))
      (.push j.queue (cfg.uuid.string id)) (Kind.retry.answered Kind.retry.success)
  | cancelChecked {idParam j} : cfg.uuid.parse idParam = some id → j.id = id →
      w.row id = some j.toJobRow → j.status.canTransitionTo .cancelled = true →
      Moves cfg id w (.cancelJob (.received idParam)) .none (.cancelJob (.checked id j))
  | cancelled {j} : Moves cfg id w (.cancelJob (.checked id j)) (.setStatus id .cancelled)
      (Kind.cancel.answered Kind.cancel.success)
  | deleted {idParam row} : cfg.uuid.parse idParam = some id → w.row id = some row →
      row.status = .dead →
      Moves cfg id w (.deleteJob (.received idParam)) (.delete id)
        (Kind.delete.answered Kind.delete.success)

/-- The operation is a request for the job. -/
def Concerns (cfg : Config) (id : Uuid) : Op → Prop
  | .retryJob (.received idParam) | .cancelJob (.received idParam)
  | .deleteJob (.received idParam) => cfg.uuid.parse idParam = some id
  | .retryJob (.checked id' _) | .retryJob (.updated id' _) | .cancelJob (.checked id' _) => id' = id
  | .retryJob (.responded _) | .cancelJob (.responded _) | .deleteJob (.responded _) => True
  | _ => False

theorem Request.concerns {r : Request} (named : cfg.uuid.parse r.idParam = some id) :
    Concerns cfg id r.start := by
  obtain ⟨kind, idParam⟩ := r
  cases kind <;> exact named

theorem moves_of_step {op op' : Op} {e : Effect} (step : Op.Step cfg w op .ok e op')
    (concerns : Concerns cfg id op) : Moves cfg id w op e op' := by
  -- every request is parsed to the one identifier
  have same {idParam : String} {id' : Uuid} (named : cfg.uuid.parse idParam = some id)
      (parsed : cfg.uuid.parse idParam = some id') : id = id' := by
    rw [named] at parsed
    cases parsed
    rfl
  cases step with
  | retryJob step =>
    cases step with
    | invalid unparsed => rw [show cfg.uuid.parse _ = some id from concerns] at unparsed; cases unparsed
    | @missing idParam _ parsed absent =>
      obtain rfl := same concerns parsed
      exact .refused (r := ⟨.retry, idParam⟩) rfl concerns (by simp [Kind.refusal, absent])
    | @refused idParam _ row parsed present other =>
      obtain rfl := same concerns parsed
      exact .refused (r := ⟨.retry, idParam⟩) rfl concerns (by simp [Kind.refusal, present, other])
    | checked parsed present dead =>
      obtain rfl := same concerns parsed
      exact .retryChecked concerns rfl present dead
    | updated =>
      obtain rfl := concerns
      exact .updated
    | pushed =>
      obtain rfl := concerns
      exact .pushed
  | cancelJob step =>
    cases step with
    | invalid unparsed => rw [show cfg.uuid.parse _ = some id from concerns] at unparsed; cases unparsed
    | @missing idParam _ parsed absent =>
      obtain rfl := same concerns parsed
      exact .refused (r := ⟨.cancel, idParam⟩) rfl concerns (by simp [Kind.refusal, absent])
    | @refused idParam _ row parsed present other =>
      obtain rfl := same concerns parsed
      exact .refused (r := ⟨.cancel, idParam⟩) rfl concerns (by simp [Kind.refusal, present, other])
    | checked parsed present cancellable =>
      obtain rfl := same concerns parsed
      exact .cancelChecked concerns rfl present cancellable
    | cancelled =>
      obtain rfl := concerns
      exact .cancelled
  | deleteJob step =>
    cases step with
    | invalid unparsed => rw [show cfg.uuid.parse _ = some id from concerns] at unparsed; cases unparsed
    | @refused idParam _ parsed other =>
      obtain rfl := same concerns parsed
      refine .refused (r := ⟨.delete, idParam⟩) rfl concerns ?_
      cases present : w.row id with
      | none => simp [Kind.refusal]
      | some row => simp [Kind.refusal, other row present]
    | deleted parsed present dead =>
      obtain rfl := same concerns parsed
      exact .deleted concerns present dead
  | createJob _ | processJob _ | processScheduledJobs _ | recoverUnqueuedJobs _
  | recoverStaleJobs _ => exact concerns.elim

theorem Moves.step {op op' : Op} {e : Effect} (moves : Moves cfg id w op e op') :
    op.step cfg w .ok = some (e, op') := by
  have read {j : Job} (own : j.id = id) (present : w.row id = some j.toJobRow) :
      Storage.getJob id w.jobs = some j := World.getJob_eq_some.mpr ⟨own, present⟩
  cases moves with
  | @refused _ response r start named refused =>
    subst start
    obtain ⟨kind, idParam⟩ := r
    cases kind with
    | retry =>
      cases present : w.row id with
      | none =>
        rw [present] at refused
        cases refused
        simp [Op.step, Request.start, Api.RetryJob.step, named, World.getJob_eq_none.mpr present,
          Kind.answered]
      | some row =>
        have found := read (j := Storage.scanJob id row) rfl present
        simp only [Kind.refusal, present, Option.ite_none_left_eq_some, Option.some.injEq] at refused
        obtain ⟨other, rfl⟩ := refused
        have unready : (Storage.scanJob id row).status ≠ .dead := other
        simp [Op.step, Request.start, Api.RetryJob.step, named, found, unready, Kind.answered]
    | cancel =>
      cases present : w.row id with
      | none =>
        rw [present] at refused
        cases refused
        simp [Op.step, Request.start, Api.CancelJob.step, named, World.getJob_eq_none.mpr present,
          Kind.answered]
      | some row =>
        have found := read (j := Storage.scanJob id row) rfl present
        simp only [Kind.refusal, present, Option.ite_none_left_eq_some, Option.some.injEq] at refused
        obtain ⟨other, rfl⟩ := refused
        have unready : ¬ (Storage.scanJob id row).status.canTransitionTo .cancelled = true := other
        simp [Op.step, Request.start, Api.CancelJob.step, named, found, unready, Kind.answered]
    | delete =>
      simp only [Kind.refusal, Option.ite_none_left_eq_some, Option.some.injEq] at refused
      obtain ⟨other, rfl⟩ := refused
      have undeletable : ¬ Storage.deletable id w.jobs = true := by
        simpa [Api.DeleteJob.deletable_iff, Option.any_eq_true] using other
      simp [Op.step, Request.start, Api.DeleteJob.step, named, undeletable, Kind.answered]
  | retryChecked named own present dead =>
    simp [Op.step, Api.RetryJob.step, named, read own present, dead]
  | updated => rfl
  | pushed => rfl
  | cancelChecked named own present cancellable =>
    simp [Op.step, Api.CancelJob.step, named, read own present, cancellable]
  | cancelled => rfl
  | deleted named present dead =>
    have deletable := Api.DeleteJob.deletable_iff.mpr ⟨_, present, dead⟩
    simp [Op.step, Api.DeleteJob.step, named, deletable, Kind.answered, Kind.success]

theorem Moves.concerns {op op' : Op} {e : Effect} (moves : Moves cfg id w op e op') :
    Concerns cfg id op' := by
  cases moves with
  | @refused _ _ r _ _ _ =>
    obtain ⟨kind, idParam⟩ := r
    cases kind <;> trivial
  | retryChecked _ _ _ _ | updated | cancelChecked _ _ _ _ => rfl
  | pushed | cancelled | deleted _ _ _ => trivial

/-- The states of a row in which a request goes ahead. -/
def Kind.Accepts (status : JobStatus) : Kind → Prop
  | retry | delete => status = .dead
  | cancel => status.canTransitionTo .cancelled = true

theorem refusal_eq_none {row : Option JobRow} {kind : Kind} (ahead : kind.refusal row = none) :
    ∃ r, row = some r ∧ kind.Accepts r.status := by
  cases row with
  | none => cases kind <;> simp [Kind.refusal] at ahead
  | some r =>
    refine ⟨r, rfl, ?_⟩
    cases kind <;> simpa [Kind.refusal, Kind.Accepts] using ahead

/-- A request that has not answered can make its next call. -/
theorem exists_moves {op : Op} (concerns : Concerns cfg id op) (going : op.ended = false) (w : World) :
    ∃ e op', Moves cfg id w op e op' := by
  have received {r : Request} (named : cfg.uuid.parse r.idParam = some id) :
      ∃ e op', Moves cfg id w r.start e op' := by
    cases decision : r.kind.refusal (w.row id) with
    | some response => exact ⟨_, _, .refused rfl named decision⟩
    | none =>
      obtain ⟨row, present, ready⟩ := refusal_eq_none decision
      obtain ⟨kind, idParam⟩ := r
      cases kind with
      | retry => exact ⟨_, _, .retryChecked (j := Storage.scanJob id row) named rfl present ready⟩
      | cancel => exact ⟨_, _, .cancelChecked (j := Storage.scanJob id row) named rfl present ready⟩
      | delete => exact ⟨_, _, .deleted named present ready⟩
  cases op with
  | retryJob pc =>
    cases pc with
    | received idParam => exact received (r := ⟨.retry, idParam⟩) concerns
    | checked id' job =>
      obtain rfl : id' = id := concerns
      exact ⟨_, _, .updated⟩
    | updated id' job =>
      obtain rfl : id' = id := concerns
      exact ⟨_, _, .pushed⟩
    | responded _ => cases going
  | cancelJob pc =>
    cases pc with
    | received idParam => exact received (r := ⟨.cancel, idParam⟩) concerns
    | checked id' job =>
      obtain rfl : id' = id := concerns
      exact ⟨_, _, .cancelled⟩
    | responded _ => cases going
  | deleteJob pc =>
    cases pc with
    | received idParam => exact received (r := ⟨.delete, idParam⟩) concerns
    | responded _ => cases going
  | createJob _ | processJob _ | processScheduledJobs _ | recoverUnqueuedJobs _
  | recoverStaleJobs _ => exact concerns.elim

/-! ## Runs of requests -/

/-- All calls succeed, and nothing but requests moves. -/
def requestCall (_ : State) (a : Action) : Prop := ∃ i, a = .run i .ok

instance (s : State) (a : Action) : Decidable (requestCall s a) :=
  match a with
  | .run i reply => decidable_of_iff (reply = .ok)
    ⟨fun succeeds => ⟨i, by rw [succeeds]⟩, fun ⟨_, equal⟩ => by cases equal; rfl⟩
  | .tick _ => isFalse fun ⟨_, equal⟩ => nomatch equal
  | .begin _ => isFalse fun ⟨_, equal⟩ => nomatch equal
  | .pop => isFalse fun ⟨_, equal⟩ => nomatch equal

/-- Only the request at place `i` moves. -/
def callOf (i : Nat) (_ : State) (a : Action) : Prop := a = .run i .ok

theorem step_of_moves {s : State} {i : Nat} {op op' : Op} {e : Effect} (found : s.ops[i]? = some op)
    (moves : Moves cfg id s.world op e op') :
    s.step cfg (.run i .ok) = some ⟨s.world.apply e, s.ops.set i op'⟩ :=
  State.step_run found moves.step

/-- A request that has answered makes no call. -/
theorem step_of_ended {s : State} {i : Nat} {op : Op} (found : s.ops[i]? = some op)
    (done : op.ended = true) : s.step cfg (.run i .ok) = none := by
  cases taken : s.step cfg (.run i .ok) with
  | none => rfl
  | some t =>
    obtain ⟨op', e, _, found', inner, _⟩ := State.run_cases taken
    rw [found] at found'
    cases found'
    rw [inner.not_ended] at done
    cases done

/-- The requests of `order` run one after the other, each to its answer. -/
inductive Serial (cfg : Config) : List Nat → State → State → Prop where
  | nil {s} : Serial cfg [] s s
  | cons {i order s t u op} : (system cfg).Reaches (callOf i) s t → t.ops[i]? = some op →
      op.ended = true → Serial cfg order t u → Serial cfg (i :: order) s u

theorem Serial.concat {order : List Nat} {i : Nat} {s t u : State} {op : Op}
    (serial : Serial cfg order s t) (reaches : (system cfg).Reaches (callOf i) t u)
    (found : u.ops[i]? = some op) (done : op.ended = true) : Serial cfg (order ++ [i]) s u := by
  induction serial with
  | nil => exact .cons reaches found done .nil
  | cons first found' done' _ inductionHypothesis =>
    exact .cons first found' done' (inductionHypothesis reaches)

/-- The state after the request `r` at place `i` has been served at one stroke. -/
structure ServedAlone (id : Uuid) (r : Request) (i : Nat) (s t : State) : Prop where
  ops : t.ops = s.ops.set i (r.kind.answered (r.kind.serve s.world.now (s.world.row id)).1)
  row : t.world.row id = (r.kind.serve s.world.now (s.world.row id)).2
  now : t.world.now = s.world.now
  lists : ∀ queue, (Queue.contents queue t.world.redis).length =
    (Queue.contents queue s.world.redis).length + r.kind.pushes (s.world.row id) queue

theorem Kind.ended_answered (kind : Kind) (response : Response) :
    (kind.answered response).ended = true := by
  cases kind <;> rfl

theorem serve_refused {row : Option JobRow} {kind : Kind} {response : Response}
    (refused : kind.refusal row = some response) (now : Time) :
    kind.serve now row = (response, row) := by
  simp [Kind.serve, refused]

theorem serve_ahead {row : Option JobRow} {kind : Kind} (ahead : kind.refusal row = none)
    (now : Time) : kind.serve now row = (kind.success, kind.update now row) := by
  simp [Kind.serve, ahead]

theorem pushes_of_refused {row : Option JobRow} {kind : Kind} {response : Response}
    (refused : kind.refusal row = some response) (queue : String) : kind.pushes row queue = 0 := by
  cases kind with
  | retry =>
    cases row with
    | none => rfl
    | some r =>
      simp only [Kind.refusal, Option.ite_none_left_eq_some] at refused
      simp [Kind.pushes, refused.1]
  | cancel | delete => rfl

/-- A request that runs alone is served. -/
theorem exists_served (cfg : Config) {s : State} {i : Nat} {r : Request} (found : s.ops[i]? = some r.start)
    (named : cfg.uuid.parse r.idParam = some id) :
    ∃ t, (system cfg).Reaches (callOf i) s t ∧ ServedAlone id r i s t := by
  have call {t : State} {op op' : Op} {e : Effect} (reaches : (system cfg).Reaches (callOf i) s t)
      (place : t.ops[i]? = some op) (moves : Moves cfg id t.world op e op') :
      (system cfg).Reaches (callOf i) s ⟨t.world.apply e, t.ops.set i op'⟩ :=
    reaches.step rfl (step_of_moves place moves)
  cases decision : r.kind.refusal (s.world.row id) with
  | some response =>
    refine ⟨_, call (.refl s) found (.refused rfl named decision), ?_, ?_, rfl, fun queue => ?_⟩
    · rw [serve_refused decision]
    · rw [serve_refused decision]
      rfl
    · rw [pushes_of_refused decision]
      rfl
  | none =>
    obtain ⟨row, present, ready⟩ := refusal_eq_none decision
    obtain ⟨kind, idParam⟩ := r
    cases kind with
    | retry =>
      -- read, update, push
      have read := call (.refl s) found
        (.retryChecked (j := Storage.scanJob id row) named rfl present ready)
      have place := State.getElem?_set_place found (.retryJob (.checked id (Storage.scanJob id row)))
      have updated := call read place .updated
      have place := State.getElem?_set_place place (.retryJob (.updated id (Storage.scanJob id row)))
      refine ⟨_, call updated place .pushed, ?_, ?_, rfl, fun queue => ?_⟩
      · simp [serve_ahead decision]
      · rw [serve_ahead decision, World.row_apply, World.row_apply]
        simp [Effect.onRow, Kind.update]
        rfl
      · rw [World.redis_apply]
        simp only [Queue.contents_push, Kind.pushes, present, Option.any_some]
        show List.length (if queue = row.queue then cfg.uuid.string id ::
          Queue.contents row.queue s.world.redis else Queue.contents queue s.world.redis) = _
        split
        case isTrue own => simp [own, show row.status = .dead from ready]
        case isFalse other => simp [Ne.symm other]
    | cancel =>
      have read := call (.refl s) found
        (.cancelChecked (j := Storage.scanJob id row) named rfl present ready)
      have place := State.getElem?_set_place found (.cancelJob (.checked id (Storage.scanJob id row)))
      refine ⟨_, call read place .cancelled, ?_, ?_, rfl, fun queue => rfl⟩
      · simp [serve_ahead decision]
      · rw [serve_ahead decision, World.row_apply]
        simp [Effect.onRow, Kind.update]
        rfl
    | delete =>
      refine ⟨_, call (.refl s) found (.deleted named present ready), ?_, ?_, rfl, fun queue => rfl⟩
      · rw [serve_ahead decision]
      · rw [serve_ahead decision, World.row_apply]
        simp [Effect.onRow, Kind.update]

/-- However a request runs alone to its answer, it is served. -/
theorem served_alone {s t : State} {i : Nat} {r : Request} {op : Op} (found : s.ops[i]? = some r.start)
    (named : cfg.uuid.parse r.idParam = some id) (reaches : (system cfg).Reaches (callOf i) s t)
    (answered : t.ops[i]? = some op) (done : op.ended = true) : ServedAlone id r i s t := by
  obtain ⟨u, reaches', served⟩ := exists_served cfg found named
  have answered' := State.getElem?_set_place found (r.kind.answered (r.kind.serve s.world.now (s.world.row id)).1)
  rw [← served.ops] at answered'
  have same : t = u := reaches.eq_of_stuck reaches' (step_of_ended answered done)
    (step_of_ended answered' (Kind.ended_answered _ _))
  rw [same]
  exact served

end GoQueue.Verified
