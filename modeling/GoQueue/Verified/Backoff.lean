import GoQueue.Library.Wrap
import GoQueue.Verified.RetryBudget
import GoQueue.Verified.RowShape

/-! # The retry delay

`BackoffDuration` multiplies `2^n` by a thousand million nanoseconds in 64 bits.  The product is
below `2^63` up to `n = 33` and wraps around from there on.  Nothing bounds `max_retries` but the
range of its column, and `handleFailure` passes every count from one up to below it.
-/

namespace GoQueue.Verified

variable {cfg : Config} {id : Uuid} {m : Int} {results : List (Option String)} {w : World}
  {t : Turn}

/-! ## The product -/

theorem two_pow_seconds_le {k n : Nat} (le : k ≤ n) : (2 ^ k * second : Int) ≤ 2 ^ n * second :=
  Int.mul_le_mul_of_nonneg_right (pow_le_pow_right₀ (by decide) le) (by decide)

theorem two_pow_seconds_lt {k n : Nat} (lt : k < n) : (2 ^ k * second : Int) < 2 ^ n * second :=
  Int.mul_lt_mul_of_pos_right (pow_lt_pow_right₀ (by decide) lt) (by decide)

theorem two_pow_seconds_pos (n : Nat) : (0 : Int) < 2 ^ n * second :=
  Int.mul_pos (pow_pos (by decide) n) (by decide)

theorem backoffDuration_of_le (overflow : Int) {n : Nat} (small : n ≤ 33) :
    backoffDuration overflow n = 2 ^ n * second := by
  have product : backoffDuration overflow n = Int.wrap64 (2 ^ n * second) := by
    simp only [backoffDuration, Int.wrap64, Int.toNat_natCast]
    rw [if_neg (by omega), if_pos (by omega)]
  have bound : (2 ^ n * second : Int) ≤ 2 ^ 33 * second := two_pow_seconds_le small
  rw [product]
  apply Int.wrap64_eq_self
  · exact le_trans (by decide) (two_pow_seconds_pos n).le
  · exact lt_of_le_of_lt bound (by decide)

/-- From there on `2^n` seconds is no 64-bit number. -/
theorem backoffDuration_ne (overflow : Int) {n : Nat} (large : 34 ≤ n) :
    backoffDuration overflow n ≠ 2 ^ n * second := by
  intro equal
  have bound : backoffDuration overflow n < 2 ^ 63 := Int.wrap64_lt _
  have huge : (2 ^ 34 * second : Int) ≤ 2 ^ n * second := two_pow_seconds_le large
  rw [equal] at bound
  exact absurd (lt_of_lt_of_le bound (le_trans (by decide) huge)) (lt_irrefl _)

/-- For the counts that `handleFailure` can pass, `BackoffDuration` is `2^n` seconds exactly up to
`n = 33`.  Up to there the delay is positive and grows with every retry, so that the retry time is
in the future. -/
theorem backoff_exact_iff (overflow : Int) {n : Int} {maxRetries : Int4} (first : 1 ≤ n)
    (below : n < maxRetries.val) :
    (backoffDuration overflow n = 2 ^ n.toNat * second ↔ n ≤ 33) ∧
    (n ≤ 33 → 0 < backoffDuration overflow n ∧
      (∀ k, 1 ≤ k → k < n → backoffDuration overflow k < backoffDuration overflow n) ∧
      ∀ now : Time, now < now + backoffDuration overflow n) := by
  obtain ⟨n, rfl⟩ := Int.eq_ofNat_of_zero_le (Int.le_trans (by decide) first)
  rw [Int.toNat_natCast]
  refine ⟨⟨fun equal => ?_, fun small => backoffDuration_of_le overflow (by omega)⟩, fun small => ?_⟩
  · by_contra large
    exact backoffDuration_ne overflow (by omega) equal
  · have exact := backoffDuration_of_le overflow (n := n) (by omega)
    have positive := two_pow_seconds_pos n
    refine ⟨by rw [exact]; exact positive, fun k from_one smaller => ?_, fun now => ?_⟩
    · obtain ⟨k, rfl⟩ := Int.eq_ofNat_of_zero_le (Int.le_trans (by decide) from_one)
      rw [exact, backoffDuration_of_le overflow (by omega)]
      exact two_pow_seconds_lt (by omega)
    · rw [exact]
      exact Int.lt_add_of_pos_right _ positive

theorem last_exact_backoff : (1 : Int) ≤ 33 ∧ (33 : Int) < (⟨34, by decide⟩ : Int4).val ∧
    backoffDuration (-2 ^ 63) 33 = 2 ^ 33 * second := by
  have below : (33 : Int) < (⟨34, by decide⟩ : Int4).val := by decide
  exact ⟨by decide, below, (backoff_exact_iff (-2 ^ 63) (by decide) below).1.mpr (by decide)⟩

/-! ## The counts that occur -/

/-- The count that `handleFailure` passes is within the retries of the job. -/
def WithinRetries : Op → Prop
  | .processJob (.rescheduling job newRetryCount) =>
    1 ≤ newRetryCount ∧ newRetryCount < job.maxRetries.val
  | _ => True

theorem withinRetries_of_step {op op' : Op} {reply : Reply} {e : Effect}
    (step : Op.Step cfg w op reply e op') (justified : Justified w op) : WithinRetries op' := by
  cases step with
  | processJob step =>
    cases step with
    | @retrying job _ n left next =>
      have natural : 0 ≤ job.retryCount.val := justified.1
      exact ⟨by omega, by omega⟩
    | @retryingLost job _ left =>
      have natural : 0 ≤ job.retryCount.val := justified.1
      exact ⟨by omega, left⟩
    | _ => trivial
  | createJob _ | cancelJob _ | retryJob _ | deleteJob _ | processScheduledJobs _
  | recoverUnqueuedJobs _ | recoverStaleJobs _ => trivial

theorem reachable_withinRetries {s : State} (reachable : (system cfg).Reachable anyAction s) :
    ∀ op ∈ s.ops, WithinRetries op := by
  refine reachable.invariant (P := fun s => ∀ op ∈ s.ops, WithinRetries op) ?_ ?_
  · rintro s ⟨now, rfl⟩ op running
    cases running
  · intro s a t reached _ taken within
    have shaped := reachable_shaped reached
    refine ((State.step_cases taken).eachOp (W := fun _ => True) (P := fun _ op => WithinRetries op)
      trivial within ?tick ?begin ?pop ?run).2
    case tick => exact fun _ => ⟨trivial, fun _ held => held⟩
    case begin =>
      intro task
      cases task <;> trivial
    case pop => exact fun _ => ⟨trivial, trivial, fun _ held => held⟩
    case run =>
      intro op reply e op' running inner
      exact ⟨trivial, withinRetries_of_step inner (shaped.ops op running), fun _ _ held => held⟩

/-- A job that fails every time gets as far as its retries allow. -/
theorem Paused.leads_failures (paused : Paused cfg id m [] t) {k : Nat} (left : (k : Int) < m) :
    Leads cfg (Paused cfg id m (List.replicate k (some "error"))) t := by
  induction k with
  | zero => exact .here paused
  | succ k inductionHypothesis =>
    refine .bind (inductionHypothesis (by omega)) fun u reaches again => ?_
    obtain ⟨v, further, executes⟩ := again.leads (some "error")
    refine ⟨v, further, ?_⟩
    cases again.executed further executes with
    | inl rest => exact rest
    | inr finished =>
      have live : Live m (some "error" :: List.replicate k (some "error")) :=
        again.kept.1.cons (by simpa using left)
      exact absurd finished (not_over_of_live live)

/-- Every count from one up to below the retries of a fresh job occurs. -/
theorem exists_rescheduling {s : State} {row : JobRow} (reachable : (system cfg).Reachable anyAction s)
    (fresh : Fresh cfg id row s.world) {k : Nat} (left : (k + 1 : Int) < row.maxRetries.val) :
    ∃ t job, (system cfg).Reachable anyAction t ∧ job.id = id ∧
      .processJob (.rescheduling job (k + 1)) ∈ t.ops := by
  have paused := fresh.paused reachable
  obtain ⟨u, reaches, again⟩ := paused.leads_failures (k := k) (by omega)
  obtain ⟨⟨w, op⟩, further, rfl, ⟨row', present, attempted, _⟩, _⟩ := again.leads_delivers
  have live := again.kept.1
  obtain ⟨n, fits⟩ := fits_of_live live attempted
  have count : row'.retryCount.val = k := by
    rw [attempted.retryCount, live.failures_eq, List.length_replicate]
  have rescheduling : Leads cfg (fun v => v.op =
      .processJob (.rescheduling (Storage.scanJob id row') (row'.retryCount.val + 1)))
      ⟨w, .processJob (.popped (cfg.uuid.string id))⟩ := by
    refine .execute present attempted.registered ?_
    exact .reschedule "error" fits (by rw [count, attempted.maxRetries]; exact left) (.here rfl)
  obtain ⟨v, onward, place⟩ := rescheduling
  have last := (again.reachable.extend further).extend onward
  obtain ⟨ops, reached, ended | ⟨front, rfl⟩⟩ := Turn.exists_state last
  · rw [place] at ended
    cases ended
  · refine ⟨_, Storage.scanJob id row', reached, rfl, ?_⟩
    rw [← count, ← place]
    exact List.mem_append_right _ List.mem_cons_self

/-- A job with 35 retries that has failed 34 times is scheduled for a time long past. -/
theorem backoff_in_the_past : ∃ s job, (system Cmd.mainConfig).Reachable anyAction s ∧
    .processJob (.rescheduling job 34) ∈ s.ops ∧
    backoffDuration Cmd.mainConfig.overflow 34 ≠ 2 ^ 34 * second ∧
    s.world.now + backoffDuration Cmd.mainConfig.overflow 34 < s.world.now := by
  have ⟨s, reachable, evaluated, token⟩ : ∃ s, (system Cmd.mainConfig).Reachable anyAction s ∧
      (s.world.row 1).any (isFresh 35) = true ∧ stored Cmd.mainConfig s.world 1 = 1 :=
    Transition.System.exists_reachable_of_exec (createRun 35) Cmd.initial_initialState (by decide +kernel)
  obtain ⟨row, fresh, budget⟩ := fresh_of_isFresh evaluated token
  obtain ⟨t, job, reached, _, running⟩ :=
    exists_rescheduling reachable fresh (k := 33) (by rw [budget]; decide)
  have negative : backoffDuration Cmd.mainConfig.overflow 34 < 0 := by decide
  exact ⟨t, job, reached, running, by decide, add_lt_of_neg_right _ negative⟩

end GoQueue.Verified
