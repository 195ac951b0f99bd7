import GoQueue.Verified.Requests
import GoQueue.Library.Totals

/-! # Linearizability of the requests on one job

`RetryJob` and `CancelJob` read the row, decide, and write in a second statement; `DeleteJob` is
one guarded statement.  Requests that run side by side behave like some sequence of them as
long as no write comes between the read and the write of another one.  Whether that can happen
depends on the row and on how many requests of which kind there are, and `Compatible` says
exactly when it cannot.

* For compatible requests every interleaving is matched step by step with a serial run (`Sim`):
  a request is served at the call that decides it, its refusal or its write to the row.
* Otherwise there is an interleaving in which two requests succeed that never both succeed one
  after the other.
-/

namespace GoQueue.Verified

open Api (Response writeError writeStatus)

variable {cfg : Config} {id : Uuid}

/-- The requests have arrived and made no call yet. -/
def begun (w : World) (requests : List Request) : State := ⟨w, requests.map Request.start⟩

/-- `t` is the end of a run of the requests in `s` in any interleaving. -/
def Interleaved (cfg : Config) (s t : State) : Prop :=
  (system cfg).Reaches requestCall s t ∧ ∀ op ∈ t.ops, op.ended = true

/-- The same answers, the same row and as many identifiers in every list. -/
structure SameOutcome (id : Uuid) (t t' : State) : Prop where
  answers : t.ops = t'.ops
  row : t.world.row id = t'.world.row id
  pushed : ∀ queue, (Queue.contents queue t.world.redis).length =
    (Queue.contents queue t'.world.redis).length

/-- Every interleaving has the outcome of the requests served in some order. -/
def Linearizable (cfg : Config) (w : World) (id : Uuid) (requests : List Request) : Prop :=
  ∀ t, Interleaved cfg (begun w requests) t →
    ∃ order t', order.Perm (List.range requests.length) ∧
      Serial cfg order (begun w requests) t' ∧ SameOutcome id t t'

def isDead (row : Option JobRow) : Bool := row.any fun row => decide (row.status = .dead)

def isCancellable (row : Option JobRow) : Bool :=
  row.any fun row => row.status.canTransitionTo .cancelled

def ofKind (kind : Kind) (r : Request) : Nat := if r.kind = kind then 1 else 0

/-- How many requests are of a kind. -/
def number (kind : Kind) (requests : List Request) : Nat := (requests.map (ofKind kind)).sum

/-- A dead row is retried by one request at most, and not also deleted; a row that can be
cancelled, at once or after a retry, is cancelled by one request at most. -/
def Compatible (row : Option JobRow) (requests : List Request) : Prop :=
  (isDead row = true →
    number .retry requests = 0 ∨ number .retry requests = 1 ∧ number .delete requests = 0) ∧
  (isCancellable row = true ∨ isDead row = true ∧ 0 < number .retry requests →
    number .cancel requests ≤ 1)

theorem not_cancellable_of_isDead {row : Option JobRow} (dead : isDead row = true) :
    isCancellable row = false := by
  cases row with
  | none => rfl
  | some r =>
    have status : r.status = .dead := by simpa [isDead] using dead
    simp only [isCancellable, Option.any_some, status]
    rfl

/-- A request goes ahead on the row. -/
theorem refusal_eq_none_iff {row : Option JobRow} {kind : Kind} :
    kind.refusal row = none ↔ match kind with
      | .retry | .delete => isDead row = true
      | .cancel => isCancellable row = true := by
  cases row <;> cases kind <;> simp [Kind.refusal, isDead, isCancellable]

/-! ## Serial runs -/

/-- Of two such requests only one succeeds. -/
def Conflict : Kind → Kind → Bool
  | .cancel, .cancel => true
  | .cancel, .retry | .cancel, .delete | .retry, .cancel | .delete, .cancel => false
  | .retry, .retry | .retry, .delete | .delete, .retry | .delete, .delete => true

/-- The row from which on a kind of request is always refused. -/
def Barred (row : Option JobRow) : Kind → Prop
  | .retry | .delete => isDead row = false
  | .cancel => isDead row = false ∧ isCancellable row = false

theorem serve_eq_success {row : Option JobRow} {kind : Kind} {now : Time}
    (succeeds : (kind.serve now row).1 = kind.success) : kind.refusal row = none := by
  cases decision : kind.refusal row with
  | none => rfl
  | some response =>
    rw [serve_refused decision] at succeeds
    subst succeeds
    -- a refusal is never answered with 200
    cases row <;> cases kind <;>
      simp [Kind.refusal, Kind.success, writeStatus, writeError] at decision

theorem Barred.refusal_ne_none {row : Option JobRow} {kind : Kind} (barred : Barred row kind) :
    kind.refusal row ≠ none := by
  rw [Ne, refusal_eq_none_iff]
  cases kind with
  | retry | delete => simpa [Barred] using barred
  | cancel => simpa using barred.2

/-- The row a request leaves when it goes ahead is not dead, and a cancelled one is final. -/
theorem update_cases (row : Option JobRow) (kind : Kind) (now : Time) :
    isDead (kind.update now row) = false ∧
      (isCancellable (kind.update now row) = true → kind = .retry) := by
  cases row <;> cases kind <;>
    simp [Kind.update, isDead, isCancellable, Storage.setStatus, Storage.setError,
      JobStatus.canTransitionTo, JobStatus.allowedTransitions]

/-- No request makes a row dead. -/
theorem dead_of_serve {row : Option JobRow} {kind : Kind} {now : Time}
    (dead : isDead (kind.serve now row).2 = true) : isDead row = true := by
  cases decision : kind.refusal row with
  | some response =>
    rw [serve_refused decision] at dead
    exact dead
  | none =>
    rw [serve_ahead decision, (update_cases _ _ _).1] at dead
    cases dead

/-- Only the retry of a dead job makes a row that can be cancelled. -/
theorem cancellable_of_serve {row : Option JobRow} {kind : Kind} {now : Time}
    (cancellable : isCancellable (kind.serve now row).2 = true) :
    isCancellable row = true ∨ isDead row = true ∧ kind = .retry := by
  cases decision : kind.refusal row with
  | some response =>
    rw [serve_refused decision] at cancellable
    exact .inl cancellable
  | none =>
    rw [serve_ahead decision] at cancellable
    have retried := (update_cases _ _ _).2 cancellable
    rw [retried] at decision
    exact .inr ⟨refusal_eq_none_iff.mp decision, retried⟩

theorem Barred.serve {row : Option JobRow} {kind : Kind} (barred : Barred row kind) (now : Time)
    (other : Kind) : Barred (other.serve now row).2 kind := by
  cases decision : other.refusal row with
  | some response =>
    rw [serve_refused decision]
    exact barred
  | none =>
    rw [serve_ahead decision]
    obtain ⟨undead, cancellable⟩ := update_cases row other now
    cases kind with
    | retry | delete => exact undead
    | cancel =>
      -- only a retry makes a row that can be cancelled, and it needs a dead one
      refine ⟨undead, Bool.eq_false_iff.mpr fun again => ?_⟩
      have retried := cancellable again
      subst retried
      have dead := refusal_eq_none_iff.mp decision
      rw [barred.1] at dead
      cases dead

theorem barred_of_success {row : Option JobRow} {first second : Kind} (now : Time)
    (ahead : first.refusal row = none) (conflict : Conflict first second = true) :
    Barred (first.serve now row).2 second := by
  rw [serve_ahead ahead]
  obtain ⟨undead, cancellable⟩ := update_cases row first now
  cases second with
  | retry | delete => exact undead
  | cancel =>
    refine ⟨undead, Bool.eq_false_iff.mpr fun again => ?_⟩
    rw [cancellable again] at conflict
    cases conflict

/-- Nothing but the requests of the order moves. -/
theorem Serial.ops_of_notMem {order : List Nat} {s t : State} {k : Nat}
    (serial : Serial cfg order s t) (outside : k ∉ order) : t.ops[k]? = s.ops[k]? := by
  have alone {i : Nat} {s t : State} (reaches : (system cfg).Reaches (callOf i) s t)
      (different : k ≠ i) : t.ops[k]? = s.ops[k]? := by
    refine reaches.invariant (P := fun t => t.ops[k]? = s.ops[k]?) ?_ rfl
    intro u a v moved taken same
    subst moved
    obtain ⟨_, _, _, _, _, rfl⟩ := State.run_cases taken
    rw [← same]
    exact List.getElem?_set_ne (Ne.symm different)
  induction serial with
  | nil => rfl
  | cons reaches _ _ _ inductionHypothesis =>
    simp only [List.mem_cons, not_or] at outside
    rw [inductionHypothesis outside.2, alone reaches outside.1]

/-- The requests of a serial run stand at their beginning. -/
def AllWaiting (cfg : Config) (id : Uuid) (requests : List Request) (order : List Nat) (s : State) :
    Prop :=
  ∀ i ∈ order, ∃ r, requests[i]? = some r ∧ s.ops[i]? = some r.start ∧
    cfg.uuid.parse r.idParam = some id

theorem AllWaiting.tail {requests : List Request} {order : List Nat} {i : Nat} {s t : State} {r : Request}
    (waiting : AllWaiting cfg id requests (i :: order) s) (nodup : (i :: order).Nodup)
    (served : ServedAlone id r i s t) : AllWaiting cfg id requests order t := by
  intro k member
  obtain ⟨r', found, here, named⟩ := waiting k (List.mem_cons_of_mem _ member)
  have different : i ≠ k := by
    intro same
    exact (List.nodup_cons.mp nodup).1 (same ▸ member)
  refine ⟨r', found, ?_, named⟩
  rw [served.ops, List.getElem?_set_ne different]
  exact here

theorem Kind.answered_inj {kind : Kind} {response response' : Response} :
    kind.answered response = kind.answered response' ↔ response = response' := by
  cases kind <;> simp [Kind.answered]

/-- The first request of a serial run: what it answers in the end is what it was served. -/
theorem Serial.head {requests : List Request} {order : List Nat} {i : Nat} {s t u : State} {op : Op}
    {r : Request} (reaches : (system cfg).Reaches (callOf i) s t) (answered : t.ops[i]? = some op)
    (done : op.ended = true) (rest : Serial cfg order t u) (nodup : (i :: order).Nodup)
    (waiting : AllWaiting cfg id requests (i :: order) s) (found : requests[i]? = some r) :
    ServedAlone id r i s t ∧
      u.ops[i]? = some (r.kind.answered (r.kind.serve s.world.now (s.world.row id)).1) := by
  obtain ⟨r', found', here, named⟩ := waiting i List.mem_cons_self
  rw [found] at found'
  cases found'
  have served := served_alone here named reaches answered done
  refine ⟨served, ?_⟩
  rw [rest.ops_of_notMem (List.nodup_cons.mp nodup).1, served.ops]
  exact State.getElem?_set_place here _

theorem Serial.refused_of_barred {requests : List Request} {order : List Nat} {s t : State}
    (serial : Serial cfg order s t) (nodup : order.Nodup)
    (waiting : AllWaiting cfg id requests order s) {j : Nat} {r : Request} (member : j ∈ order)
    (found : requests[j]? = some r) (barred : Barred (s.world.row id) r.kind) :
    t.ops[j]? ≠ some (r.kind.answered r.kind.success) := by
  induction serial with
  | nil => cases member
  | @cons i order s t u op reaches answered done rest inductionHypothesis =>
    obtain ⟨first, present, _⟩ := waiting i List.mem_cons_self
    obtain ⟨served, last⟩ := Serial.head reaches answered done rest nodup waiting present
    by_cases own : j = i
    · subst own
      rw [found] at present
      cases present
      rw [last, Ne, Option.some.injEq, Kind.answered_inj]
      exact fun succeeds => barred.refusal_ne_none (serve_eq_success succeeds)
    · have later : j ∈ order := by simpa [own] using member
      refine inductionHypothesis (List.nodup_cons.mp nodup).2 (waiting.tail nodup served) later ?_
      rw [served.row]
      exact barred.serve _ _

theorem Conflict.symm {first second : Kind} (conflict : Conflict first second = true) :
    Conflict second first = true := by
  cases first <;> cases second <;> first | rfl | cases conflict

/-- One after the other, two requests in conflict do not both succeed. -/
theorem Serial.not_both {requests : List Request} {order : List Nat} {s t : State}
    (serial : Serial cfg order s t) (nodup : order.Nodup)
    (waiting : AllWaiting cfg id requests order s) {i j : Nat} {r r' : Request} (different : i ≠ j)
    (member : i ∈ order) (member' : j ∈ order) (found : requests[i]? = some r)
    (found' : requests[j]? = some r') (conflict : Conflict r.kind r'.kind = true)
    (succeeds : t.ops[i]? = some (r.kind.answered r.kind.success)) :
    t.ops[j]? ≠ some (r'.kind.answered r'.kind.success) := by
  intro succeeds'
  induction serial with
  | nil => cases member
  | @cons k order s t u op reaches answered done rest inductionHypothesis =>
    obtain ⟨first, present, _⟩ := waiting k List.mem_cons_self
    obtain ⟨served, last⟩ := Serial.head reaches answered done rest nodup waiting present
    obtain ⟨fresh, nodup'⟩ := List.nodup_cons.mp nodup
    have waiting' := waiting.tail nodup served
    -- once the first of the two has succeeded the other one is barred
    have excluded {l : Nat} {q : Request} (conflict : Conflict first.kind q.kind = true)
        (succeeds : u.ops[k]? = some (first.kind.answered first.kind.success)) (later : l ∈ order)
        (there : requests[l]? = some q)
        (succeeds' : u.ops[l]? = some (q.kind.answered q.kind.success)) : False := by
      rw [last, Option.some.injEq, Kind.answered_inj] at succeeds
      have barred := barred_of_success s.world.now (serve_eq_success succeeds) conflict
      rw [← served.row] at barred
      exact rest.refused_of_barred nodup' waiting' later there barred succeeds'
    by_cases mine : i = k
    · subst mine
      rw [found] at present
      cases present
      exact excluded conflict succeeds (by simpa [Ne.symm different] using member') found' succeeds'
    · by_cases theirs : j = k
      · subst theirs
        rw [found'] at present
        cases present
        exact excluded (Conflict.symm conflict) succeeds' (by simpa [mine] using member) found succeeds
      · exact inductionHypothesis nodup' waiting' (by simpa [mine] using member)
          (by simpa [theirs] using member') succeeds succeeds'

/-! ## Interleavings that are not serial -/

/-- The request will answer that it has succeeded, whatever the others do. -/
inductive Committed (id : Uuid) : Kind → Op → Prop where
  | retryChecked {j} : Committed id .retry (.retryJob (.checked id j))
  | updated {j} : Committed id .retry (.retryJob (.updated id j))
  | cancelChecked {j} : Committed id .cancel (.cancelJob (.checked id j))
  | answered {kind op} : op = kind.answered kind.success → Committed id kind op

/-- The operation is a request that has not made a call yet. -/
def isReceived : Op → Bool
  | .retryJob (.received _) | .cancelJob (.received _) | .deleteJob (.received _) => true
  | _ => false

theorem isReceived_start (r : Request) : isReceived r.start = true := by
  obtain ⟨kind, _⟩ := r
  cases kind <;> rfl

theorem start_cases {op : Op} {r : Request} (start : op = r.start) (later : isReceived op = false) :
    False := by
  rw [start, isReceived_start] at later
  cases later

theorem Committed.moves {kind : Kind} {w : World} {op op' : Op} {e : Effect}
    (committed : Committed id kind op) (moves : Moves cfg id w op e op') : Committed id kind op' := by
  have going := (Op.step_cases moves.step).not_ended
  cases committed with
  | answered last =>
    rw [last, Kind.ended_answered] at going
    cases going
  | retryChecked =>
    cases moves with
    | refused start _ _ => exact (start_cases start rfl).elim
    | updated => exact .updated
  | updated =>
    cases moves with
    | refused start _ _ => exact (start_cases start rfl).elim
    | pushed => exact .answered rfl
  | cancelChecked =>
    cases moves with
    | refused start _ _ => exact (start_cases start rfl).elim
    | cancelled => exact .answered rfl

/-- What one call of a request does to the state. -/
theorem requestCall_cases {s t : State} {a : Action} (called : requestCall s a)
    (taken : s.step cfg a = some t) (concerned : ∀ op ∈ s.ops, Concerns cfg id op) :
    ∃ i op e op', a = .run i .ok ∧ s.ops[i]? = some op ∧ Moves cfg id s.world op e op' ∧
      t = ⟨s.world.apply e, s.ops.set i op'⟩ := by
  obtain ⟨i, rfl⟩ := called
  obtain ⟨op, e, op', found, inner, rfl⟩ := State.run_cases taken
  exact ⟨i, op, e, op', rfl, found,
    moves_of_step inner (concerned op (List.mem_of_getElem? found)), rfl⟩

theorem concerned_set {ops : List Op} {i : Nat} {w : World} {op op' : Op} {e : Effect}
    (moves : Moves cfg id w op e op') (concerned : ∀ op ∈ ops, Concerns cfg id op) :
    ∀ op ∈ ops.set i op', Concerns cfg id op := by
  intro other member
  cases List.mem_or_eq_of_mem_set member with
  | inl before => exact concerned other before
  | inr new => exact new ▸ moves.concerns

/-- The requests stay what they are, and commitments are kept. -/
theorem committed_reaches {s t : State} {i : Nat} {kind : Kind} {op : Op}
    (reaches : (system cfg).Reaches requestCall s t) (concerned : ∀ op ∈ s.ops, Concerns cfg id op)
    (found : s.ops[i]? = some op) (committed : Committed id kind op) :
    ∃ op', t.ops[i]? = some op' ∧ Committed id kind op' := by
  have kept := reaches.invariant
    (P := fun t => (∀ op ∈ t.ops, Concerns cfg id op) ∧
      ∃ op', t.ops[i]? = some op' ∧ Committed id kind op') ?_ ⟨concerned, op, found, committed⟩
  · exact kept.2
  · intro s a t called taken held
    obtain ⟨concerned, op, found, committed⟩ := held
    obtain ⟨k, mover, e, mover', _, here, moves, rfl⟩ := requestCall_cases called taken concerned
    refine ⟨concerned_set moves concerned, ?_⟩
    by_cases own : k = i
    · subst own
      rw [found] at here
      cases here
      exact ⟨mover', State.getElem?_set_place found mover', committed.moves moves⟩
    · exact ⟨op, by rw [List.getElem?_set_ne own]; exact found, committed⟩

/-- The calls a request can still make. -/
def remaining : Op → Nat
  | .retryJob (.received _) => 3
  | .retryJob (.checked _ _) => 2
  | .retryJob (.updated _ _) => 1
  | .cancelJob (.received _) => 2
  | .cancelJob (.checked _ _) => 1
  | .deleteJob (.received _) => 1
  | _ => 0

theorem remaining_moves {w : World} {op op' : Op} {e : Effect} (moves : Moves cfg id w op e op') :
    remaining op' < remaining op := by
  cases moves with
  | @refused _ _ r start _ _ =>
    obtain ⟨kind, _⟩ := r
    subst start
    cases kind <;> simp [remaining, Kind.answered, Request.start]
  | retryChecked _ _ _ _ | updated | pushed | cancelChecked _ _ _ _ | cancelled
  | deleted _ _ _ => simp [remaining, Kind.answered]

/-- Whatever the requests have done so far, they can all come to their answers. -/
theorem exists_interleaved {s : State} (concerned : ∀ op ∈ s.ops, Concerns cfg id op) :
    ∃ t, Interleaved cfg s t := by
  -- by induction on the number of calls left
  generalize left : (s.ops.map remaining).sum = calls
  induction calls using Nat.strong_induction_on generalizing s with
  | _ calls inductionHypothesis =>
    by_cases done : ∀ op ∈ s.ops, op.ended = true
    · exact ⟨s, .refl s, done⟩
    · push Not at done
      obtain ⟨op, member, going⟩ := done
      obtain ⟨e, op', moves⟩ := exists_moves (concerned op member) (by simpa using going) s.world
      obtain ⟨i, found⟩ := List.mem_iff_getElem?.mp member
      have taken := step_of_moves found moves
      have fewer : ((s.ops.set i op').map remaining).sum < calls := by
        have replaced := List.sum_map_set (f := remaining) found op'
        have less := remaining_moves moves
        omega
      obtain ⟨t, reaches, ended⟩ :=
        inductionHypothesis _ fewer (s := ⟨s.world.apply e, s.ops.set i op'⟩)
          (concerned_set moves concerned) rfl
      exact ⟨t, ((Transition.System.Reaches.refl s).step ⟨i, rfl⟩ taken).trans reaches, ended⟩

/-- No serial run has an outcome in which two requests in conflict have both succeeded. -/
theorem not_sameOutcome {w : World} {requests : List Request} {t t' : State} {order : List Nat}
    {i j : Nat} {r r' : Request} (named : ∀ r ∈ requests, cfg.uuid.parse r.idParam = some id)
    (different : i ≠ j) (found : requests[i]? = some r) (found' : requests[j]? = some r')
    (conflict : Conflict r.kind r'.kind = true)
    (succeeds : t.ops[i]? = some (r.kind.answered r.kind.success))
    (succeeds' : t.ops[j]? = some (r'.kind.answered r'.kind.success))
    (complete : order.Perm (List.range requests.length))
    (serial : Serial cfg order (begun w requests) t') : ¬ SameOutcome id t t' := by
  intro outcome
  have inside {k : Nat} {q : Request} (found : requests[k]? = some q) : k ∈ order := by
    obtain ⟨bound, _⟩ := List.getElem?_eq_some_iff.mp found
    exact complete.mem_iff.mpr (List.mem_range.mpr bound)
  have waiting : AllWaiting cfg id requests order (begun w requests) := by
    intro k member
    have bound := List.mem_range.mp (complete.mem_iff.mp member)
    refine ⟨requests[k], List.getElem?_eq_getElem bound, ?_, named _ (List.getElem_mem bound)⟩
    simp [begun, bound]
  rw [outcome.answers] at succeeds succeeds'
  exact serial.not_both (complete.nodup_iff.mpr List.nodup_range) waiting different (inside found)
    (inside found') found found' conflict succeeds succeeds'

/-- Requests that have both committed themselves although they are in conflict are not
linearizable. -/
theorem not_linearizable {w : World} {requests : List Request} {s : State} {i j : Nat}
    {r r' : Request} {op op' : Op} (named : ∀ r ∈ requests, cfg.uuid.parse r.idParam = some id)
    (reaches : (system cfg).Reaches requestCall (begun w requests) s)
    (concerned : ∀ op ∈ s.ops, Concerns cfg id op) (different : i ≠ j)
    (found : requests[i]? = some r) (found' : requests[j]? = some r')
    (conflict : Conflict r.kind r'.kind = true) (here : s.ops[i]? = some op)
    (here' : s.ops[j]? = some op') (committed : Committed id r.kind op)
    (committed' : Committed id r'.kind op') : ¬ Linearizable cfg w id requests := by
  intro linearizable
  obtain ⟨t, further, ended⟩ := exists_interleaved concerned
  -- in the end both have succeeded
  have success {k : Nat} {kind : Kind} {op : Op} (here : s.ops[k]? = some op)
      (committed : Committed id kind op) : t.ops[k]? = some (kind.answered kind.success) := by
    obtain ⟨last, there, still⟩ := committed_reaches further concerned here committed
    have done := ended last (List.mem_of_getElem? there)
    cases still with
    | answered equal => rw [there, equal]
    | retryChecked | updated | cancelChecked => cases done
  obtain ⟨order, t', complete, serial, outcome⟩ := linearizable t ⟨reaches.trans further, ended⟩
  exact not_sameOutcome named different found found' conflict (success here committed)
    (success here' committed') complete serial outcome

/-- A request that is not refused commits itself with its first call, and unless it is a delete
that call is only a read. -/
theorem exists_commit {w : World} {r : Request} (named : cfg.uuid.parse r.idParam = some id)
    (ahead : r.kind.refusal (w.row id) = none) :
    ∃ e op, Moves cfg id w r.start e op ∧ Committed id r.kind op ∧ (r.kind ≠ .delete → e = .none) := by
  obtain ⟨row, present, accepts⟩ := refusal_eq_none ahead
  obtain ⟨kind, idParam⟩ := r
  cases kind with
  | retry =>
    exact ⟨_, _, .retryChecked (j := Storage.scanJob id row) named rfl present accepts, .retryChecked,
      fun _ => rfl⟩
  | cancel =>
    exact ⟨_, _, .cancelChecked (j := Storage.scanJob id row) named rfl present accepts, .cancelChecked,
      fun _ => rfl⟩
  | delete => exact ⟨_, _, .deleted named present accepts, .answered rfl, fun other => absurd rfl other⟩

/-- Two requests in conflict that both find the row as they need it are not linearizable: the
first one reads, the second one reads or deletes. -/
theorem not_linearizable_of_ahead {w : World} {requests : List Request} {s : State} {i j : Nat}
    {r r' : Request} (named : ∀ r ∈ requests, cfg.uuid.parse r.idParam = some id)
    (reaches : (system cfg).Reaches requestCall (begun w requests) s)
    (concerned : ∀ op ∈ s.ops, Concerns cfg id op) (different : i ≠ j)
    (found : requests[i]? = some r) (found' : requests[j]? = some r')
    (conflict : Conflict r.kind r'.kind = true) (reads : r.kind ≠ .delete)
    (here : s.ops[i]? = some r.start) (here' : s.ops[j]? = some r'.start)
    (ahead : r.kind.refusal (s.world.row id) = none)
    (ahead' : r'.kind.refusal (s.world.row id) = none) : ¬ Linearizable cfg w id requests := by
  obtain ⟨e, op, moves, committed, reading⟩ :=
    exists_commit (named r (List.mem_of_getElem? found)) ahead
  obtain ⟨e', op', moves', committed', _⟩ :=
    exists_commit (named r' (List.mem_of_getElem? found')) ahead'
  obtain rfl := reading reads
  have place' : (s.ops.set i op)[j]? = some r'.start := by
    rw [List.getElem?_set_ne different]
    exact here'
  have first := reaches.step ⟨i, rfl⟩ (step_of_moves here moves)
  have second := first.step ⟨j, rfl⟩ (step_of_moves place' moves')
  refine not_linearizable named second (concerned_set moves' (concerned_set moves concerned)) different
    found found' conflict ?_ (State.getElem?_set_place place' op') committed committed'
  rw [List.getElem?_set_ne (Ne.symm different)]
  exact State.getElem?_set_place here op

theorem ofKind_pos {kind : Kind} {r : Request} : 0 < ofKind kind r ↔ r.kind = kind := by
  unfold ofKind
  split <;> simp_all

theorem exists_two_of_kind {kind : Kind} {requests : List Request} (many : 1 < number kind requests) :
    ∃ (i j : Nat) (r r' : Request), i ≠ j ∧ requests[i]? = some r ∧ requests[j]? = some r' ∧
      r.kind = kind ∧ r'.kind = kind := by
  have single (r : Request) : ofKind kind r ≤ 1 := by
    unfold ofKind
    split <;> omega
  obtain ⟨i, j, r, r', different, found, found', has, has'⟩ :=
    List.exists_two_of_one_lt_sum single many
  exact ⟨i, j, r, r', different, found, found', ofKind_pos.mp has, ofKind_pos.mp has'⟩

theorem exists_of_kind {kind : Kind} {requests : List Request} (positive : 0 < number kind requests) :
    ∃ (i : Nat) (r : Request), requests[i]? = some r ∧ r.kind = kind := by
  obtain ⟨i, r, found, has⟩ := List.exists_index_of_sum_pos positive
  exact ⟨i, r, found, ofKind_pos.mp has⟩

theorem begun_start {w : World} {requests : List Request} {i : Nat} {r : Request}
    (found : requests[i]? = some r) : (begun w requests).ops[i]? = some r.start := by
  simp [begun, found]

theorem begun_concerned {w : World} {requests : List Request}
    (named : ∀ r ∈ requests, cfg.uuid.parse r.idParam = some id) :
    ∀ op ∈ (begun w requests).ops, Concerns cfg id op := by
  intro op member
  obtain ⟨r, asked, rfl⟩ := List.mem_map.mp member
  exact Request.concerns (named r asked)

/-- A retry of a dead job resets the row while the cancellations wait, and each of them would then
go ahead. -/
theorem exists_retried {w : World} {requests : List Request}
    (named : ∀ r ∈ requests, cfg.uuid.parse r.idParam = some id) (dead : isDead (w.row id) = true)
    (retries : 0 < number .retry requests) :
    ∃ s, (system cfg).Reaches requestCall (begun w requests) s ∧
      (∀ op ∈ s.ops, Concerns cfg id op) ∧ Kind.cancel.refusal (s.world.row id) = none ∧
      ∀ (l : Nat) (r : Request), requests[l]? = some r → r.kind = .cancel → s.ops[l]? = some r.start := by
  obtain ⟨k, ⟨_, idParam⟩, there, rfl⟩ := exists_of_kind retries
  obtain ⟨row, present, status⟩ :=
    refusal_eq_none (refusal_eq_none_iff.mpr dead : Kind.retry.refusal _ = _)
  have parsed := named _ (List.mem_of_getElem? there)
  -- the retry makes its two first calls, before anyone else makes one
  have reads : Moves cfg id w _ _ _ :=
    .retryChecked (j := Storage.scanJob id row) parsed rfl present status
  have writes : Moves cfg id (w.apply .none) _ _ _ := .updated (j := Storage.scanJob id row)
  have start : (system cfg).Reaches requestCall (begun w requests) (begun w requests) := .refl _
  have read := start.step ⟨k, rfl⟩ (step_of_moves (begun_start there) reads)
  have place := State.getElem?_set_place (begun_start (w := w) there)
    (.retryJob (.checked id (Storage.scanJob id row)))
  refine ⟨_, read.step ⟨k, rfl⟩ (step_of_moves place writes),
    concerned_set writes (concerned_set reads (begun_concerned named)), ?_, ?_⟩
  · show Kind.cancel.refusal (((w.apply .none).apply _).row id) = none
    rw [World.row_apply, World.row_apply, present, refusal_eq_none_iff]
    simp only [Effect.onRow, if_true, Option.map_some]
    rfl
  · intro l r found kind
    have apart : k ≠ l := by
      rintro rfl
      rw [there] at found
      cases found
      cases kind
    show ((List.set _ k _).set k _)[l]? = _
    rw [List.getElem?_set_ne apart, List.getElem?_set_ne apart]
    exact begun_start found

section Compatible

variable {w : World} {requests : List Request}
  (named : ∀ r ∈ requests, cfg.uuid.parse r.idParam = some id)
  (linearizable : Linearizable cfg w id requests)
include named linearizable

/-- Of two requests in conflict, not both are able to go ahead from the start. -/
theorem not_both_ahead {i j : Nat} {r r' : Request} (different : i ≠ j)
    (found : requests[i]? = some r) (found' : requests[j]? = some r')
    (conflict : Conflict r.kind r'.kind = true) (reads : r.kind ≠ .delete)
    (ahead : r.kind.refusal (w.row id) = none) : r'.kind.refusal (w.row id) ≠ none := by
  intro ahead'
  exact not_linearizable_of_ahead named (.refl _) (begun_concerned named) different found found'
    conflict reads (begun_start found) (begun_start found') ahead ahead' linearizable

theorem retries_of_linearizable (dead : isDead (w.row id) = true) :
    number .retry requests = 0 ∨ number .retry requests = 1 ∧ number .delete requests = 0 := by
  have retry_ahead : Kind.retry.refusal (w.row id) = none := refusal_eq_none_iff.mpr dead
  have delete_ahead : Kind.delete.refusal (w.row id) = none := refusal_eq_none_iff.mpr dead
  by_contra incompatible
  by_cases many : 1 < number .retry requests
  · obtain ⟨i, j, r, r', different, found, found', kind, kind'⟩ := exists_two_of_kind many
    exact not_both_ahead named linearizable different found found' (by rw [kind, kind']; rfl)
      (by rw [kind]; decide) (kind ▸ retry_ahead) (kind' ▸ retry_ahead)
  · have retries : 0 < number .retry requests := by omega
    have deletes : 0 < number .delete requests := by omega
    obtain ⟨i, r, found, kind⟩ := exists_of_kind retries
    obtain ⟨j, r', found', kind'⟩ := exists_of_kind deletes
    have different : i ≠ j := by
      rintro rfl
      rw [found] at found'
      cases found'
      cases kind.symm.trans kind'
    exact not_both_ahead named linearizable different found found' (by rw [kind, kind']; rfl)
      (by rw [kind]; decide) (kind ▸ retry_ahead) (kind' ▸ delete_ahead)

theorem cancels_of_linearizable
    (cancellable : isCancellable (w.row id) = true ∨
      isDead (w.row id) = true ∧ 0 < number .retry requests) : number .cancel requests ≤ 1 := by
  by_contra many
  obtain ⟨i, j, r, r', different, found, found', kind, kind'⟩ := exists_two_of_kind (not_le.mp many)
  have conflict : Conflict r.kind r'.kind = true := by rw [kind, kind']; rfl
  have reads : r.kind ≠ .delete := by rw [kind]; decide
  cases cancellable with
  | inl cancellable =>
    have ahead : Kind.cancel.refusal (w.row id) = none := refusal_eq_none_iff.mpr cancellable
    exact not_both_ahead named linearizable different found found' conflict reads (kind ▸ ahead)
      (kind' ▸ ahead)
  | inr retried =>
    -- first a retry takes the row out of `dead`
    obtain ⟨s, reaches, concerned, ahead, waits⟩ := exists_retried named retried.1 retried.2
    exact not_linearizable_of_ahead named reaches concerned different found found' conflict reads
      (waits i r found kind) (waits j r' found' kind') (kind ▸ ahead) (kind' ▸ ahead) linearizable

/-- Linearizable requests are compatible. -/
theorem compatible_of_linearizable : Compatible (w.row id) requests :=
  ⟨retries_of_linearizable named linearizable, cancels_of_linearizable named linearizable⟩

end Compatible

/-! ## Compatible requests are served in some order -/

/-- The push a retry that has reset the row still owes. -/
def pending (queue : String) : Op → Nat
  | .retryJob (.updated _ job) => if job.queue = queue then 1 else 0
  | _ => 0

/-- A request between its calls, and the same request in the serial run.  The flag says whether
it has been served there. -/
inductive Tracks (id : Uuid) (w : World) (r : Request) : Bool → Op → Op → Prop where
  | waiting {op op'} : op = r.start → op' = r.start → Tracks id w r false op op'
  | retryChecked {j op'} : r.kind = .retry → op' = r.start → w.row id = some j.toJobRow →
      j.status = .dead → Tracks id w r false (.retryJob (.checked id j)) op'
  | cancelChecked {j op'} : r.kind = .cancel → op' = r.start → isCancellable (w.row id) = true →
      Tracks id w r false (.cancelJob (.checked id j)) op'
  | updated {j op'} : r.kind = .retry → op' = Kind.retry.answered Kind.retry.success →
      Tracks id w r true (.retryJob (.updated id j)) op'
  | answered {op op' response} : op = r.kind.answered response → op' = op → Tracks id w r true op op'

/-- A change of the row does not matter to a request that has not checked it. -/
theorem Tracks.change {w w' : World} {r : Request} {flag : Bool} {op op' : Op}
    (tracks : Tracks id w r flag op op')
    (unread : r.kind = .retry → isDead (w.row id) = false)
    (unread' : r.kind = .cancel → isCancellable (w.row id) = false) : Tracks id w' r flag op op' := by
  cases tracks with
  | waiting start start' => exact .waiting start start'
  | retryChecked kind start present dead =>
    have undead := unread kind
    rw [present] at undead
    simp [isDead, dead] at undead
  | cancelChecked kind start cancellable =>
    rw [unread' kind] at cancellable
    cases cancellable
  | updated kind last => exact .updated kind last
  | answered last same => exact .answered last same

theorem Tracks.same {w w' : World} {r : Request} {flag : Bool} {op op' : Op}
    (tracks : Tracks id w r flag op op') (row : w'.row id = w.row id) :
    Tracks id w' r flag op op' := by
  cases tracks with
  | waiting start start' => exact .waiting start start'
  | retryChecked kind start present dead => exact .retryChecked kind start (row ▸ present) dead
  | cancelChecked kind start cancellable => exact .cancelChecked kind start (row ▸ cancellable)
  | updated kind last => exact .updated kind last
  | answered last same => exact .answered last same

/-- The run from `s₀` has come to `s`; the requests of `order`, served one after the other, lead
to `s'`. -/
structure Sim (cfg : Config) (id : Uuid) (requests : List Request) (s₀ s : State) (order : List Nat)
    (s' : State) : Prop where
  concerned : ∀ op ∈ s.ops, Concerns cfg id op
  nodup : order.Nodup
  inside : ∀ i ∈ order, i < requests.length
  serial : Serial cfg order s₀ s'
  row : s'.world.row id = s.world.row id
  now : s'.world.now = s.world.now
  lists : ∀ queue, (Queue.contents queue s'.world.redis).length =
    (Queue.contents queue s.world.redis).length + (s.ops.map (pending queue)).sum
  length : s.ops.length = requests.length
  length' : s'.ops.length = requests.length
  tracks : ∀ i r, requests[i]? = some r → ∃ op op', s.ops[i]? = some op ∧ s'.ops[i]? = some op' ∧
    Tracks id s.world r (decide (i ∈ order)) op op'
  /-- No request makes a row dead, and only a retry makes one that can be cancelled. -/
  dead : isDead (s.world.row id) = true → isDead (s₀.world.row id) = true
  cancellable : isCancellable (s.world.row id) = true →
    isCancellable (s₀.world.row id) = true ∨
      isDead (s₀.world.row id) = true ∧ 0 < number .retry requests

variable {requests : List Request} {s₀ s s' : State} {order : List Nat} {i : Nat} {r : Request}

/-- A call that leaves the row alone and answers nothing new. -/
theorem Sim.stutter {op op' new : Op} {e : Effect} (sim : Sim cfg id requests s₀ s order s')
    (moves : Moves cfg id s.world op e new) (found : requests[i]? = some r)
    (here : s.ops[i]? = some op) (there : s'.ops[i]? = some op')
    (same : (s.world.apply e).row id = s.world.row id)
    (lists : ∀ queue, (Queue.contents queue (s.world.apply e).redis).length + pending queue new =
      (Queue.contents queue s.world.redis).length + pending queue op)
    (tracks : Tracks id (s.world.apply e) r (decide (i ∈ order)) new op') :
    Sim cfg id requests s₀ ⟨s.world.apply e, s.ops.set i new⟩ order s' where
  concerned := concerned_set moves sim.concerned
  nodup := sim.nodup
  inside := sim.inside
  serial := sim.serial
  row := sim.row.trans same.symm
  now := sim.now.trans (World.now_apply _ _).symm
  lists queue := by
    have before := sim.lists queue
    have moved := lists queue
    have replaced := List.sum_map_set (f := pending queue) here new
    show _ = (Queue.contents queue (s.world.apply e).redis).length +
      ((s.ops.set i new).map (pending queue)).sum
    omega
  length := by rw [List.length_set, sim.length]
  length' := sim.length'
  tracks k q present := by
    by_cases own : i = k
    · subst own
      rw [found] at present
      cases present
      exact ⟨new, op', State.getElem?_set_place here new, there, tracks⟩
    · obtain ⟨op₁, op₂, here₁, there₁, tracked⟩ := sim.tracks k q present
      exact ⟨op₁, op₂, by rw [List.getElem?_set_ne own]; exact here₁, there₁, tracked.same same⟩
  dead := by
    show isDead ((s.world.apply e).row id) = true → _
    rw [same]
    exact sim.dead
  cancellable := by
    show isCancellable ((s.world.apply e).row id) = true → _
    rw [same]
    exact sim.cancellable

theorem number_pos {kind : Kind} (found : requests[i]? = some r) (own : r.kind = kind) :
    0 < number kind requests := by
  have share := List.le_sum_map_of_mem (f := ofKind kind) (List.mem_of_getElem? found)
  have one := ofKind_pos.mpr own
  unfold number
  omega

/-- A call that decides a request: it is served next in the serial run. -/
theorem Sim.linearize {op new : Op} {e : Effect} (sim : Sim cfg id requests s₀ s order s')
    (moves : Moves cfg id s.world op e new) (found : requests[i]? = some r)
    (named : cfg.uuid.parse r.idParam = some id) (here : s.ops[i]? = some op)
    (there : s'.ops[i]? = some r.start) (unserved : i ∉ order)
    (row : (s.world.apply e).row id = (r.kind.serve s.world.now (s.world.row id)).2)
    (lists : ∀ queue, (Queue.contents queue (s.world.apply e).redis).length + pending queue new =
      (Queue.contents queue s.world.redis).length + pending queue op +
        r.kind.pushes (s.world.row id) queue)
    (tracks : Tracks id (s.world.apply e) r true new
      (r.kind.answered (r.kind.serve s.world.now (s.world.row id)).1))
    (others : ∀ {k q flag op₁ op₂}, i ≠ k → requests[k]? = some q →
      Tracks id s.world q flag op₁ op₂ → Tracks id (s.world.apply e) q flag op₁ op₂) :
    ∃ order' s'', Sim cfg id requests s₀ ⟨s.world.apply e, s.ops.set i new⟩ order' s'' := by
  obtain ⟨s'', reaches, served⟩ := exists_served cfg there named
  have ops := served.ops
  have served_row := served.row
  rw [sim.row, sim.now] at ops served_row
  have place : s''.ops[i]? = some (r.kind.answered (r.kind.serve s.world.now (s.world.row id)).1) := by
    rw [ops]
    exact State.getElem?_set_place there _
  -- the request is appended to the serial order; the others are where they were in both runs
  refine ⟨order ++ [i], s'', ?_⟩
  exact {
    concerned := concerned_set moves sim.concerned
    nodup := List.nodup_append_comm.mpr (List.nodup_cons.mpr ⟨unserved, sim.nodup⟩)
    inside := by
      intro k member
      cases List.mem_append.mp member with
      | inl before => exact sim.inside k before
      | inr new =>
        rw [List.mem_singleton.mp new]
        exact (List.getElem?_eq_some_iff.mp found).1
    serial := sim.serial.concat reaches place (Kind.ended_answered _ _)
    row := served_row.trans row.symm
    now := (served.now.trans sim.now).trans (World.now_apply _ _).symm
    lists := by
      intro queue
      have before := sim.lists queue
      have after := served.lists queue
      rw [sim.row] at after
      have moved := lists queue
      have replaced := List.sum_map_set (f := pending queue) here new
      show _ = (Queue.contents queue (s.world.apply e).redis).length +
        ((s.ops.set i new).map (pending queue)).sum
      omega
    length := by rw [List.length_set, sim.length]
    length' := by rw [ops, List.length_set, sim.length']
    tracks := by
      intro k q present
      by_cases own : i = k
      · subst own
        rw [found] at present
        cases present
        exact ⟨new, _, State.getElem?_set_place here new, place, by simpa using tracks⟩
      · obtain ⟨op₁, op₂, here₁, there₁, tracked⟩ := sim.tracks k q present
        refine ⟨op₁, op₂, ?_, ?_, ?_⟩
        · rw [List.getElem?_set_ne own]
          exact here₁
        · rw [ops, List.getElem?_set_ne own]
          exact there₁
        · have flag : decide (k ∈ order ++ [i]) = decide (k ∈ order) := by simp [Ne.symm own]
          rw [flag]
          exact others own present tracked
    dead := by
      show isDead ((s.world.apply e).row id) = true → _
      rw [row]
      exact fun dead => sim.dead (dead_of_serve dead)
    cancellable := by
      show isCancellable ((s.world.apply e).row id) = true → _
      rw [row]
      intro cancellable
      -- what can be cancelled now could be before, or was dead and this request is a retry
      cases cancellable_of_serve cancellable with
      | inl before => exact sim.cancellable before
      | inr retried => exact .inr ⟨sim.dead retried.1, number_pos found retried.2⟩ }

theorem Request.start_inj {r r' : Request} (same : r.start = r'.start) : r = r' := by
  obtain ⟨kind, idParam⟩ := r
  obtain ⟨kind', idParam'⟩ := r'
  cases kind <;> cases kind' <;> simp_all [Request.start]

theorem kind_of_start {op : Op} {r : Request} (start : op = r.start) {k : Kind} {idParam : String}
    (received : op = Request.start ⟨k, idParam⟩) : r.kind = k := by
  rw [start] at received
  rw [Request.start_inj received]

/-- In a compatible set of requests two in conflict never both find the row as they need it. -/
theorem Compatible.alone (compatible : Compatible (s₀.world.row id) requests)
    (sim : Sim cfg id requests s₀ s order s') {k : Nat} {q : Request} (different : i ≠ k)
    (found : requests[i]? = some r) (found' : requests[k]? = some q)
    (ahead : r.kind.refusal (s.world.row id) = none) :
    (q.kind = .retry → isDead (s.world.row id) = false) ∧
      (q.kind = .cancel → isCancellable (s.world.row id) = false) := by
  have unique {kind : Kind} (few : number kind requests ≤ 1) (own : r.kind = kind)
      (own' : q.kind = kind) : False :=
    different (List.unique_index_of_sum_le_one few found found' (ofKind_pos.mpr own)
      (ofKind_pos.mpr own'))
  -- two of one kind would be two requests where the compatibility allows one
  constructor
  · intro retry
    rw [Bool.eq_false_iff]
    intro dead
    have positive := number_pos found' retry
    obtain none | ⟨one, undeleted⟩ := compatible.1 (sim.dead dead)
    · omega
    · cases kind : r.kind with
      | retry => exact unique one.le kind retry
      | delete =>
        have deletes := number_pos found kind
        omega
      | cancel =>
        rw [kind] at ahead
        have cancellable := refusal_eq_none_iff.mp ahead
        rw [not_cancellable_of_isDead dead] at cancellable
        cases cancellable
  · intro cancel
    rw [Bool.eq_false_iff]
    intro cancellable
    have few := compatible.2 (sim.cancellable cancellable)
    cases kind : r.kind with
    | cancel => exact unique few kind cancel
    | retry | delete =>
      rw [kind] at ahead
      rw [not_cancellable_of_isDead (refusal_eq_none_iff.mp ahead)] at cancellable
      cases cancellable

/-- A request that finds the row as it needs it is served next; no other request has a claim to
the row. -/
theorem Sim.succeed {op new : Op} {e : Effect} (sim : Sim cfg id requests s₀ s order s')
    (compatible : Compatible (s₀.world.row id) requests)
    (moves : Moves cfg id s.world op e new) (found : requests[i]? = some r)
    (named : cfg.uuid.parse r.idParam = some id) (here : s.ops[i]? = some op)
    (there : s'.ops[i]? = some r.start) (unserved : i ∉ order)
    (ahead : r.kind.refusal (s.world.row id) = none)
    (row : (s.world.apply e).row id = r.kind.update s.world.now (s.world.row id))
    (lists : ∀ queue, (Queue.contents queue (s.world.apply e).redis).length + pending queue new =
      (Queue.contents queue s.world.redis).length + pending queue op +
        r.kind.pushes (s.world.row id) queue)
    (tracks : Tracks id (s.world.apply e) r true new (r.kind.answered r.kind.success)) :
    ∃ order' s'', Sim cfg id requests s₀ ⟨s.world.apply e, s.ops.set i new⟩ order' s'' := by
  refine sim.linearize moves found named here there unserved ?_ lists ?_
    fun different found' tracked => ?_
  · rw [serve_ahead ahead]
    exact row
  · rw [serve_ahead ahead]
    exact tracks
  · obtain ⟨unread, unread'⟩ := compatible.alone sim different found found' ahead
    exact tracked.change unread unread'

/-- The first call of a request: it is refused, passes the check, or deletes the row. -/
theorem Sim.received {op new : Op} {e : Effect} (sim : Sim cfg id requests s₀ s order s')
    (compatible : Compatible (s₀.world.row id) requests)
    (moves : Moves cfg id s.world op e new) (found : requests[i]? = some r)
    (named : cfg.uuid.parse r.idParam = some id) (here : s.ops[i]? = some op)
    (there : s'.ops[i]? = some r.start) (flagged : decide (i ∈ order) = false)
    (start : op = r.start) :
    ∃ order' s'', Sim cfg id requests s₀ ⟨s.world.apply e, s.ops.set i new⟩ order' s'' := by
  have unserved : i ∉ order := by simpa using flagged
  cases moves with
  -- a refusal decides the request; a check that passes leaves it undecided
  | @refused _ response r' start₂ parsed refused =>
    have same := Request.start_inj (start.symm.trans start₂)
    subst same
    have idle (queue : String) : pending queue op = 0 := by
      obtain ⟨kind, _⟩ := r
      subst start
      cases kind <;> rfl
    have answered (queue : String) : pending queue (r.kind.answered response) = 0 := by
      cases r.kind <;> rfl
    refine sim.linearize (.refused start parsed refused) found named here there unserved ?_ ?_ ?_
      fun _ _ tracked => tracked
    · rw [serve_refused refused]
      rfl
    · intro queue
      rw [idle, answered, pushes_of_refused refused]
      rfl
    · rw [serve_refused refused]
      exact .answered rfl rfl
  | @retryChecked idParam j parsed own present dead =>
    have kind := kind_of_start (k := .retry) start rfl
    refine ⟨order, s', sim.stutter (.retryChecked parsed own present dead) found here there rfl
      (fun _ => rfl) ?_⟩
    rw [flagged]
    exact .retryChecked kind rfl present dead
  | @cancelChecked idParam j parsed own present cancellable =>
    have kind := kind_of_start (k := .cancel) start rfl
    refine ⟨order, s', sim.stutter (.cancelChecked parsed own present cancellable) found here there
      rfl (fun _ => rfl) ?_⟩
    rw [flagged]
    refine .cancelChecked kind rfl ?_
    show isCancellable (s.world.row id) = true
    rw [present]
    exact cancellable
  | @deleted idParam row parsed present dead =>
    have kind := kind_of_start (k := .delete) start rfl
    have ahead : r.kind.refusal (s.world.row id) = none := by
      rw [kind, refusal_eq_none_iff, present]
      simp [isDead, dead]
    refine sim.succeed compatible (.deleted parsed present dead) found named here there unserved
      ahead ?_ ?_ ?_
    · rw [kind, World.row_apply]
      simp [Effect.onRow, Kind.update]
    · intro queue
      rw [kind]
      rfl
    · rw [kind]
      exact .answered (by rw [kind]) rfl
  | updated | pushed | cancelled => exact (start_cases start rfl).elim

theorem Sim.step {t : State} {a : Action} (compatible : Compatible (s₀.world.row id) requests)
    (named : ∀ r ∈ requests, cfg.uuid.parse r.idParam = some id)
    (sim : Sim cfg id requests s₀ s order s') (called : requestCall s a)
    (taken : s.step cfg a = some t) : ∃ order' s'', Sim cfg id requests s₀ t order' s'' := by
  obtain ⟨i, op, e, new, _, here, moves, rfl⟩ := requestCall_cases called taken sim.concerned
  have bound : i < requests.length := by
    rw [← sim.length]
    exact (List.getElem?_eq_some_iff.mp here).1
  obtain ⟨r, found⟩ : ∃ r, requests[i]? = some r := ⟨_, List.getElem?_eq_getElem bound⟩
  have own := named r (List.mem_of_getElem? found)
  obtain ⟨_, op', here', there, tracks⟩ := sim.tracks i r found
  rw [here] at here'
  cases here'
  generalize flagged : decide (i ∈ order) = flag at tracks
  cases tracks with
  | waiting start start' =>
    subst start'
    exact sim.received compatible moves found own here there flagged start
  | @retryChecked j _ kind start' present dead =>
    have unserved : i ∉ order := by simpa using flagged
    subst start'
    have ahead : r.kind.refusal (s.world.row id) = none := by
      rw [kind, refusal_eq_none_iff, present]
      simp [isDead, dead]
    cases moves with
    | refused start _ _ => exact (start_cases start rfl).elim
    -- the update decides the retry; its push only pays what the serial run has pushed already
    | updated =>
      refine sim.succeed compatible .updated found own here there unserved ahead ?_ ?_ ?_
      · rw [kind, World.row_apply, present]
        simp [Effect.onRow, Kind.update]
      · intro queue
        rw [kind, present]
        simp [pending, Kind.pushes, dead, World.redis_apply]
      · rw [kind]
        exact .updated kind rfl
  | @cancelChecked j _ kind start' cancellable =>
    have unserved : i ∉ order := by simpa using flagged
    subst start'
    have ahead : r.kind.refusal (s.world.row id) = none := by
      rw [kind, refusal_eq_none_iff]
      exact cancellable
    cases moves with
    | refused start _ _ => exact (start_cases start rfl).elim
    | cancelled =>
      refine sim.succeed compatible .cancelled found own here there unserved ahead ?_ ?_ ?_
      · rw [kind, World.row_apply]
        simp [Effect.onRow, Kind.update]
      · intro queue
        rw [kind]
        rfl
      · rw [kind]
        exact .answered (by rw [kind]) rfl
  | @updated j _ kind last =>
    cases moves with
    | refused start _ _ => exact (start_cases start rfl).elim
    | pushed =>
      refine ⟨order, s', sim.stutter .pushed found here there rfl ?_ ?_⟩
      · intro queue
        rw [World.redis_apply]
        simp only [Queue.contents_push, pending, Kind.answered]
        split
        case isTrue same => simp [same]
        case isFalse other => simp [Ne.symm other]
      · rw [flagged]
        exact .answered (by rw [kind]) last
  | answered last same =>
    have going := (Op.step_cases moves.step).not_ended
    rw [last, Kind.ended_answered] at going
    cases going

theorem Sim.start (w : World) (named : ∀ r ∈ requests, cfg.uuid.parse r.idParam = some id) :
    Sim cfg id requests (begun w requests) (begun w requests) [] (begun w requests) where
  concerned := begun_concerned named
  nodup := List.nodup_nil
  inside := nofun
  serial := .nil
  row := rfl
  now := rfl
  lists queue := by
    have idle : ((begun w requests).ops.map (pending queue)).sum = 0 := by
      apply List.sum_eq_zero
      intro owed member
      simp only [begun, List.map_map, List.mem_map, Function.comp_apply] at member
      obtain ⟨⟨kind, _⟩, _, rfl⟩ := member
      cases kind <;> rfl
    omega
  length := by simp [begun]
  length' := by simp [begun]
  tracks _ _ found := ⟨_, _, begun_start found, begun_start found, .waiting rfl rfl⟩
  dead := fun dead => dead
  cancellable := .inl

/-- When all requests have answered, the serial run has served them all and answered the same. -/
theorem Sim.outcome {t : State} (sim : Sim cfg id requests s₀ t order s')
    (ended : ∀ op ∈ t.ops, op.ended = true) :
    order.Perm (List.range requests.length) ∧ SameOutcome id t s' := by
  -- an ended request has been served, with the same answer
  have last {k : Nat} {q : Request} (found : requests[k]? = some q) :
      k ∈ order ∧ t.ops[k]? = s'.ops[k]? := by
    obtain ⟨op, op', here, there, tracks⟩ := sim.tracks k q found
    have done := ended op (List.mem_of_getElem? here)
    generalize flagged : decide (k ∈ order) = flag at tracks
    cases tracks with
    | answered _ same =>
      rw [here, there, same]
      exact ⟨by simpa using flagged, rfl⟩
    | waiting start _ =>
      obtain ⟨kind, _⟩ := q
      subst start
      cases kind <;> cases done
    | retryChecked _ _ _ _ | cancelChecked _ _ _ | updated _ _ => cases done
  -- no push is owed any more
  have idle (queue : String) : (t.ops.map (pending queue)).sum = 0 := by
    apply List.sum_eq_zero
    intro owed member
    obtain ⟨op, running, rfl⟩ := List.mem_map.mp member
    have done := ended op running
    unfold pending
    split
    · cases done
    · rfl
  refine ⟨(List.perm_ext_iff_of_nodup sim.nodup List.nodup_range).mpr fun k => ?_, ?_, sim.row.symm, ?_⟩
  · rw [List.mem_range]
    exact ⟨sim.inside k, fun bound => (last (List.getElem?_eq_getElem bound)).1⟩
  · apply List.ext_getElem?
    intro k
    by_cases bound : k < requests.length
    · exact (last (List.getElem?_eq_getElem bound)).2
    · rw [List.getElem?_eq_none (by rw [sim.length]; omega),
        List.getElem?_eq_none (by rw [sim.length']; omega)]
  · intro queue
    have lists := sim.lists queue
    rw [idle] at lists
    exact lists.symm

/-- Compatible requests are linearizable. -/
theorem linearizable_of_compatible {w : World}
    (named : ∀ r ∈ requests, cfg.uuid.parse r.idParam = some id)
    (compatible : Compatible (w.row id) requests) : Linearizable cfg w id requests := by
  intro t interleaved
  obtain ⟨reaches, ended⟩ := interleaved
  obtain ⟨order, s', sim⟩ := reaches.invariant
    (P := fun t => ∃ order s', Sim cfg id requests (begun w requests) t order s')
    (fun called taken ⟨_, _, sim⟩ => sim.step compatible named called taken)
    ⟨[], begun w requests, Sim.start w named⟩
  obtain ⟨complete, outcome⟩ := sim.outcome ended
  exact ⟨order, s', complete, sim.serial, outcome⟩

/-- Requests for one job are linearizable exactly when they are compatible with the row. -/
theorem linearizable_iff {w : World}
    (named : ∀ r ∈ requests, cfg.uuid.parse r.idParam = some id) :
    Linearizable cfg w id requests ↔ Compatible (w.row id) requests :=
  ⟨compatible_of_linearizable named, linearizable_of_compatible named⟩

/-- A job with one try has failed and is dead. -/
def deadRun : List Action :=
  [.begin (.createJob (some { Cmd.request with maxRetries := some 1 })), .run 0 (.inserted 1),
    .run 0 .ok, .pop, .run 1 .ok, .run 1 .ok, .run 1 (.returned (some "boom")), .run 1 .ok]

def requestFor (kind : Kind) : Request := ⟨kind, Cmd.mainConfig.uuid.string 1⟩

theorem requestFor_named {kinds : List Kind} :
    ∀ r ∈ kinds.map requestFor, Cmd.mainConfig.uuid.parse r.idParam = some 1 := by
  intro r member
  obtain ⟨kind, _, rfl⟩ := List.mem_map.mp member
  exact Cmd.mainConfig.uuid.parse_string 1

theorem retry_cancel_linearizable : ∃ s, (system Cmd.mainConfig).Reachable faultFree s ∧
    isDead (s.world.row 1) = true ∧
    Linearizable Cmd.mainConfig s.world 1 ([.retry, .cancel].map requestFor) := by
  have ⟨s, reachable, dead⟩ : ∃ s, (system Cmd.mainConfig).Reachable faultFree s ∧
      isDead (s.world.row 1) = true :=
    Transition.System.exists_reachable_of_exec deadRun Cmd.initial_initialState (by decide)
  refine ⟨s, reachable, dead, (linearizable_iff requestFor_named).mpr ⟨fun _ => .inr ?_, fun _ => ?_⟩⟩
  · exact ⟨rfl, rfl⟩
  · exact Nat.le_refl 1

/-- Two retries of a dead job both read the row before one of them writes: both answer 200 and
the identifier is pushed twice, which no order of the two does. -/
theorem two_retries_succeed : ∃ s t, (system Cmd.mainConfig).Reachable faultFree s ∧
    isDead (s.world.row 1) = true ∧
    Interleaved Cmd.mainConfig (begun s.world ([.retry, .retry].map requestFor)) t ∧
    t.ops = [Kind.retry.answered Kind.retry.success, Kind.retry.answered Kind.retry.success] ∧
    (Queue.contents "default" t.world.redis).length =
      (Queue.contents "default" s.world.redis).length + 2 ∧
    ∀ order t', order.Perm (List.range 2) →
      Serial Cmd.mainConfig order (begun s.world ([.retry, .retry].map requestFor)) t' →
      ¬ SameOutcome 1 t t' := by
  have evaluated : ((system Cmd.mainConfig).exec faultFree Cmd.initialState deadRun).any (fun s =>
      ((system Cmd.mainConfig).exec requestCall (begun s.world ([.retry, .retry].map requestFor))
        [.run 0 .ok, .run 1 .ok, .run 0 .ok, .run 0 .ok, .run 1 .ok, .run 1 .ok]).any fun t => decide (
        isDead (s.world.row 1) = true ∧
        t.ops = [Kind.retry.answered Kind.retry.success, Kind.retry.answered Kind.retry.success] ∧
        (Queue.contents "default" t.world.redis).length =
          (Queue.contents "default" s.world.redis).length + 2)) = true := by decide
  simp only [Option.any_eq_true, decide_eq_true_eq] at evaluated
  obtain ⟨s, executed, t, called, dead, answers, pushed⟩ := evaluated
  have ended : ∀ op ∈ t.ops, op.ended = true := by
    rw [answers]
    simp [Kind.ended_answered]
  refine ⟨s, t, Transition.System.reachable_of_exec Cmd.initial_initialState executed, dead,
    ⟨Transition.System.reaches_of_exec called, ended⟩, answers, pushed, ?_⟩
  intro order t' complete serial
  exact not_sameOutcome requestFor_named (i := 0) (j := 1) (by decide) rfl rfl rfl (by rw [answers]; rfl)
    (by rw [answers]; rfl) complete serial

end GoQueue.Verified
