import GoQueue.System.Soundness

/-! # One operation by itself

An operation that no other one interferes with, from where it stands to its end, under a
fixed pattern of failing calls.  A call is known by its name and by the identifier it is made
for; no operation here makes the same call twice, so the patterns are all the patterns there
are.  A context that is cancelled midway makes every later call fail.
-/

namespace GoQueue

inductive Call where
  | createJob
  | getJob (jobIDStr : String)
  | update (id : Uuid) (status : JobStatus)
  | push (jobIDStr : String)
  | schedule (jobIDStr : String)
  | getDueJobs
deriving DecidableEq

/-- What the environment contributes to the run of one operation. -/
structure Outcome where
  fails : Call → Bool
  /-- The identifier an `INSERT` hands out. -/
  newID : Uuid
  /-- What the job's handler returns. -/
  handlerErr : Option String

namespace Outcome

def answer (o : Outcome) (call : Call) : Reply :=
  if o.fails call then .fail else .ok

@[simp] theorem answer_eq_ok {o : Outcome} {call : Call} :
    o.answer call = .ok ↔ o.fails call = false := by
  simp [answer]

@[simp] theorem answer_eq_fail {o : Outcome} {call : Call} :
    o.answer call = .fail ↔ o.fails call = true := by
  simp [answer]

/-- `GetJob` is only called for a text that parses. -/
def answerGetJob (cfg : Config) (o : Outcome) (jobIDStr : String) : Reply :=
  if (cfg.uuid.parse jobIDStr).isSome then o.answer (.getJob jobIDStr) else .ok

theorem fails_of_answerGetJob_fail {cfg : Config} {o : Outcome} {jobIDStr : String}
    (replied : o.answerGetJob cfg jobIDStr = .fail) : o.fails (.getJob jobIDStr) = true := by
  unfold answerGetJob at replied
  split at replied
  · exact answer_eq_fail.mp replied
  · cases replied

theorem fails_of_answerGetJob_ok {cfg : Config} {o : Outcome} {jobIDStr : String} {id : Uuid}
    (replied : o.answerGetJob cfg jobIDStr = .ok) (parsed : cfg.uuid.parse jobIDStr = some id) :
    o.fails (.getJob jobIDStr) = false := by
  simpa [answerGetJob, parsed] using replied

/-- The reply to the call an operation makes next.  The two recovery passes, whose query
replies with rows, are not followed here. -/
def reply (cfg : Config) (o : Outcome) : Op → Reply
  | .createJob (.received body) =>
    match Api.prepare body with
    | .error _ => .ok
    | .ok _ => if o.fails .createJob then .fail else .inserted o.newID
  | .createJob (.created job stored) =>
    o.answer (if job.runAt.isSome then .schedule (cfg.uuid.string stored.id)
      else .push (cfg.uuid.string stored.id))
  | .cancelJob (.received idParam) | .retryJob (.received idParam)
  | .deleteJob (.received idParam) => o.answerGetJob cfg idParam
  | .cancelJob (.checked id _) => o.answer (.update id .cancelled)
  | .retryJob (.checked id _) => o.answer (.update id .pending)
  | .retryJob (.updated id _) => o.answer (.push (cfg.uuid.string id))
  | .processJob (.popped jobIDStr) => o.answerGetJob cfg jobIDStr
  | .processJob (.noHandler job) => o.answer (.update job.id .failed)
  | .processJob (.fetched job) => o.answer (.update job.id .running)
  | .processJob (.executing _) => .returned o.handlerErr
  | .processJob (.succeeded job) => o.answer (.update job.id .completed)
  | .processJob (.failing job _) =>
    o.answer (.update job.id
      (if job.retryCount.val + 1 ≥ job.maxRetries.val then .dead else .retrying))
  | .processJob (.rescheduling job _) => o.answer (.schedule (cfg.uuid.string job.id))
  | .processScheduledJobs .starting => o.answer .getDueJobs
  | .processScheduledJobs (.releasing (jobIDStr :: _)) => o.answerGetJob cfg jobIDStr
  | .processScheduledJobs (.fetched _ jobIDStr _) => o.answer (.push jobIDStr)
  | .processScheduledJobs (.pushed job _) => o.answer (.update job.id .pending)
  | _ => .ok

end Outcome

/-- The operation makes no more calls. -/
def Op.ended : Op → Bool
  | .createJob (.responded _) | .cancelJob (.responded _) | .retryJob (.responded _)
  | .deleteJob (.responded _) | .processJob .returned | .processScheduledJobs (.releasing [])
  | .recoverUnqueuedJobs (.pushing []) | .recoverStaleJobs (.failing []) => true
  | _ => false

theorem Op.Step.not_ended {cfg : Config} {w : World} {op op' : Op} {reply : Reply} {e : Effect}
    (step : Op.Step cfg w op reply e op') : op.ended = false := by
  cases step with
  | createJob step | cancelJob step | retryJob step | deleteJob step | processJob step
  | processScheduledJobs step | recoverUnqueuedJobs step | recoverStaleJobs step =>
    cases step <;> rfl

theorem Op.sound_of_ended {cfg : Config} {w : World} {op : Op} (done : op.ended = true) :
    op.Sound cfg w := by
  unfold Op.ended at done
  split at done <;> simp_all [Op.Sound]

/-- The operation runs from `w` to its end, has these effects and leaves `w'`. -/
inductive Solo (cfg : Config) (o : Outcome) : World → Op → List Effect → World → Prop where
  | ended {w op} : op.ended = true → Solo cfg o w op [] w
  | call {w op e op' effects w'} : op.step cfg w (o.reply cfg op) = some (e, op') →
      Solo cfg o (w.apply e) op' effects w' → Solo cfg o w op (e :: effects) w'

/-- An executable run of at most `fuel` calls. -/
def Op.finish (cfg : Config) (o : Outcome) : Nat → World → Op → Option (List Effect × World)
  | 0, w, op => if op.ended then some ([], w) else none
  | fuel + 1, w, op =>
    if op.ended then some ([], w) else do
      let (e, op') ← op.step cfg w (o.reply cfg op)
      let (effects, w') ← finish cfg o fuel (w.apply e) op'
      some (e :: effects, w')

namespace Solo

variable {cfg : Config} {o : Outcome} {w w' : World} {op : Op} {effects : List Effect}

theorem of_finish {fuel : Nat} (finished : op.finish cfg o fuel w = some (effects, w')) :
    Solo cfg o w op effects w' := by
  induction fuel generalizing w op effects with
  | zero =>
    simp only [Op.finish, Option.ite_none_right_eq_some, Option.some.injEq, Prod.mk.injEq] at finished
    obtain ⟨done, rfl, rfl⟩ := finished
    exact .ended done
  | succ fuel inductionHypothesis =>
    simp only [Op.finish] at finished
    split at finished
    case isTrue done =>
      cases finished
      exact .ended done
    case isFalse =>
      simp only [Option.bind_eq_bind, Option.bind_eq_some_iff, Prod.exists, Option.some.injEq,
        Prod.mk.injEq] at finished
      obtain ⟨e, op', taken, rest, last, finished, rfl, rfl⟩ := finished
      exact .call taken (inductionHypothesis finished)

/-- An operation that has ended has no more effects. -/
theorem of_ended (ran : Solo cfg o w op effects w') (done : op.ended = true) :
    effects = [] ∧ w' = w := by
  cases ran with
  | ended _ => exact ⟨rfl, rfl⟩
  | call taken _ =>
    rw [(Op.step_cases taken).not_ended] at done
    cases done

/-- An operation that has not ended makes a call. -/
theorem cases_of_not_ended (ran : Solo cfg o w op effects w') (going : op.ended = false) :
    ∃ e op' rest reply, effects = e :: rest ∧ o.reply cfg op = reply ∧
      Op.Step cfg w op reply e op' ∧ Solo cfg o (w.apply e) op' rest w' := by
  cases ran with
  | ended done =>
    rw [going] at done
    cases done
  | call taken rest => exact ⟨_, _, _, _, rfl, rfl, Op.step_cases taken, rest⟩

end Solo

end GoQueue
