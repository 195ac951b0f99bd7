import Mathlib.Data.List.Induction
import GoQueue.Queue.Calls
import GoQueue.Cmd.Main

/-! # The schedule is a map of due times

What the sorted set holds is described by the log of the calls alone: an identifier is held from
its `Schedule` call until `GetDueJobs` returns it, at the second of the latest such call.
`Agenda` is that map, and `schedule_refines_agenda` says that the set represents it after every
sequence of calls and that `GetDueJobs` returns its due part.

Both sides of the comparison are whole seconds, rounded down.  A job whose instant has a fraction
of a second can therefore be returned before that instant, though by less than a second.
-/

namespace GoQueue.Verified

open Queue

/-- For each identifier the instant it is scheduled for. -/
abbrev Agenda := String → Option Time

namespace Agenda

def after (agenda : Agenda) : Event → Agenda
  | .scheduled jobID runAt => Function.update agenda jobID (some runAt)
  | .due _ jobIDs => fun jobID => if jobID ∈ jobIDs then none else agenda jobID
  | .pushed _ _ | .popped _ _ _ | .timedOut _ => agenda

/-- The instant of the latest `Schedule` call since the identifier was last returned. -/
def ofLog (log : List Event) : Agenda := log.foldl after fun _ => none

/-- What a look at the agenda gives: every identifier whose second has come, once, in the order
of the seconds and then of the identifiers. -/
structure IsDue (agenda : Agenda) (now : Time) (jobIDs : List String) : Prop where
  exactly : ∀ jobID, jobID ∈ jobIDs ↔ ∃ runAt, agenda jobID = some runAt ∧ runAt.unix ≤ now.unix
  once : jobIDs.Nodup
  ordered : jobIDs.Pairwise fun a b => ∀ runAt runAt', agenda a = some runAt →
    agenda b = some runAt' → toLex (runAt.unix, a) < toLex (runAt'.unix, b)

/-- The Unix second of each identifier. -/
def seconds (agenda : Agenda) (jobID : String) : Option Int := (agenda jobID).map Time.unix

@[simp] theorem ofLog_append (log : List Event) (event : Event) :
    ofLog (log ++ [event]) = (ofLog log).after event := by
  simp [ofLog]

end Agenda

/-! ## The sorted set represents the agenda -/

/-- The schedule holds the agenda, each identifier at its second. -/
def HoldsAgenda (r : Redis) (agenda : Agenda) : Prop := (scheduled r).Represents agenda.seconds

theorem HoldsAgenda.mem_entries {r : Redis} {agenda : Agenda} (holds : HoldsAgenda r agenda) {jobID : String}
    {s : Int} : toLex (s, jobID) ∈ (scheduled r).entries ↔
      ∃ runAt, agenda jobID = some runAt ∧ runAt.unix = s := by
  rw [holds jobID s, Agenda.seconds, Option.map_eq_some_iff]

theorem HoldsAgenda.isDue {r : Redis} {agenda : Agenda} (holds : HoldsAgenda r agenda) (now : Time) :
    agenda.IsDue now (getDueJobs now r).1 where
  exactly jobID := by
    have member : jobID ∈ (getDueJobs now r).1 ↔ ∃ s ≤ now.unix, agenda.seconds jobID = some s :=
      holds.mem_rangeByScore
    rw [member]
    constructor
    · rintro ⟨s, due, known⟩
      obtain ⟨runAt, found, rfl⟩ := Option.map_eq_some_iff.mp known
      exact ⟨runAt, found, due⟩
    · rintro ⟨runAt, found, due⟩
      exact ⟨runAt.unix, due, by rw [Agenda.seconds, found, Option.map_some]⟩
  once := SortedSet.nodup_rangeByScore _ _
  ordered := by
    refine (holds.pairwise_rangeByScore now.unix).imp ?_
    intro a b ordered runAt runAt' found found'
    exact ordered _ _ (by rw [Agenda.seconds, found, Option.map_some])
      (by rw [Agenda.seconds, found', Option.map_some])

theorem HoldsAgenda.step {t : Trace} {call : Queue.Call} {event : Event} {redis : Redis}
    (step : t.Step call event redis) (holds : HoldsAgenda t.redis (Agenda.ofLog t.log)) :
    HoldsAgenda redis (Agenda.ofLog (t.log ++ [event])) := by
  rw [Agenda.ofLog_append]
  cases step with
  | pushes | waits _ => exact holds
  | pops _ _ popped =>
    unfold HoldsAgenda
    rw [popped.scheduled]
    exact holds
  | @schedules jobID runAt =>
    have seconds : ((Agenda.ofLog t.log).after (.scheduled jobID runAt)).seconds =
        Function.update (Agenda.ofLog t.log).seconds jobID (some runAt.unix) := by
      funext jobID'
      by_cases same : jobID' = jobID
      · subst same
        simp [Agenda.seconds, Agenda.after]
      · simp [Agenda.seconds, Agenda.after, same]
    unfold HoldsAgenda
    rw [seconds, scheduled_schedule]
    exact SortedSet.Represents.zadd holds _ _
  | @takes now =>
    have seconds : ((Agenda.ofLog t.log).after (.due now (getDueJobs now t.redis).1)).seconds =
        fun jobID => ((Agenda.ofLog t.log).seconds jobID).filter (now.unix < ·) := by
      funext jobID
      have due := (holds.isDue now).exactly jobID
      -- an identifier with a second is taken or comes later
      cases found : Agenda.ofLog t.log jobID with
      | none => simp [Agenda.seconds, Agenda.after, found]
      | some runAt =>
        simp only [found, Option.some.injEq, exists_eq_left'] at due
        by_cases taken : runAt.unix ≤ now.unix
        · simp [Agenda.seconds, Agenda.after, found, due, taken, Option.filter]
        · simp [Agenda.seconds, Agenda.after, found, due, taken, Option.filter, not_le.mp taken]
    unfold HoldsAgenda
    rw [seconds, scheduled_getDueJobs]
    exact SortedSet.Represents.removeRangeByScore holds _

theorem holdsAgenda_of_reachable {t : Trace} (reachable : calls.Reachable anyCall t) :
    HoldsAgenda t.redis (Agenda.ofLog t.log) :=
  Trace.invariant (P := fun r log => HoldsAgenda r (Agenda.ofLog log)) SortedSet.Represents.empty
    (fun step holds => holds.step step) reachable

/-- After every sequence of calls the schedule holds exactly the identifiers of the agenda, each
at the second of its latest `Schedule` call.  `GetDueJobs` returns the due ones, each once, in the
order of second and identifier, and keeps exactly the others, as they were. -/
theorem schedule_refines_agenda {t : Trace} (reachable : calls.Reachable anyCall t) :
    (∀ jobID s, toLex (s, jobID) ∈ (scheduled t.redis).entries ↔
      ∃ runAt, Agenda.ofLog t.log jobID = some runAt ∧ runAt.unix = s) ∧
    ∀ now, (Agenda.ofLog t.log).IsDue now (getDueJobs now t.redis).1 ∧
      t.step (.getDueJobs now) =
        ⟨(getDueJobs now t.redis).2, t.log ++ [.due now (getDueJobs now t.redis).1]⟩ ∧
      (∀ jobID s, toLex (s, jobID) ∈ (scheduled (getDueJobs now t.redis).2).entries ↔
        jobID ∉ (getDueJobs now t.redis).1 ∧
          ∃ runAt, Agenda.ofLog t.log jobID = some runAt ∧ runAt.unix = s) ∧
      ∀ jobID, (Agenda.ofLog t.log jobID).isSome = true →
        (jobID ∈ (getDueJobs now t.redis).1 ↔ ¬ jobID ∈ scheduled (getDueJobs now t.redis).2) := by
  have holds := holdsAgenda_of_reachable reachable
  refine ⟨fun jobID s => holds.mem_entries, fun now => ?_⟩
  have taking : t.Step (.getDueJobs now) _ _ := .takes
  have later := holds.step taking
  refine ⟨holds.isDue now, rfl, ?_, ?_⟩
  · intro jobID s
    rw [later.mem_entries, Agenda.ofLog_append, Agenda.after]
    by_cases taken : jobID ∈ (getDueJobs now t.redis).1 <;> simp [taken]
  · intro jobID known
    have kept := later.mem (m := jobID)
    rw [kept, Agenda.seconds, Option.isSome_map, Agenda.ofLog_append, Agenda.after]
    by_cases taken : jobID ∈ (getDueJobs now t.redis).1 <;> simp [taken, known]

/-- Two identifiers are scheduled, one of them twice, before the due ones are taken. -/
def rescheduledCalls : List Queue.Call :=
  [.schedule "b" (5 * second), .schedule "a" (5 * second), .schedule "c" (9 * second),
    .schedule "b" (2 * second)]

theorem rescheduledCalls_due : ∃ t, calls.Reachable anyCall t ∧
    (getDueJobs (6 * second) t.redis).1 = ["b", "a"] ∧
    Agenda.ofLog t.log "b" = some (2 * second) ∧
    (Agenda.ofLog t.log).IsDue (6 * second) (getDueJobs (6 * second) t.redis).1 := by
  have ⟨t, reachable, returned, known⟩ : ∃ t, calls.Reachable anyCall t ∧
      (getDueJobs (6 * second) t.redis).1 = ["b", "a"] ∧
      Agenda.ofLog t.log "b" = some (2 * second) :=
    Transition.System.exists_reachable_of_exec rescheduledCalls rfl (by decide +kernel)
  exact ⟨t, reachable, returned, known, ((schedule_refines_agenda reachable).2 _).1⟩

/-! ## Early releases -/

/-- The instant of the latest `Schedule` call for an identifier. -/
def lastScheduled (jobID : String) (log : List Event) : Option Time :=
  (log.filterMap fun
    | .scheduled jobID' runAt => if jobID' = jobID then some runAt else none
    | _ => none).getLast?

theorem lastScheduled_append (jobID : String) (log : List Event) (event : Event) :
    lastScheduled jobID (log ++ [event]) = match event with
      | .scheduled jobID' runAt => if jobID' = jobID then some runAt else lastScheduled jobID log
      | _ => lastScheduled jobID log := by
  cases event with
  | scheduled jobID' runAt =>
    by_cases same : jobID' = jobID <;> simp [lastScheduled, same]
  | pushed _ _ | popped _ _ _ | timedOut _ | due _ _ => simp [lastScheduled]

/-- The agenda forgets what was returned, and otherwise remembers the latest call. -/
theorem lastScheduled_of_agenda {jobID : String} {log : List Event} {runAt : Time}
    (known : Agenda.ofLog log jobID = some runAt) : lastScheduled jobID log = some runAt := by
  induction log using List.reverseRecOn with
  | nil => cases known
  | append_singleton log event inductionHypothesis =>
    rw [Agenda.ofLog_append] at known
    rw [lastScheduled_append]
    cases event with
    | scheduled jobID' runAt' =>
      by_cases same : jobID' = jobID
      · subst same
        simpa [Agenda.after] using known
      · simp only [Agenda.after, Function.update_of_ne (Ne.symm same)] at known
        simpa [same] using inductionHypothesis known
    | due now jobIDs =>
      simp only [Agenda.after, Option.ite_none_left_eq_some] at known
      exact inductionHypothesis known.2
    | pushed _ _ | popped _ _ _ | timedOut _ => exact inductionHypothesis known

theorem unix_le_of_due {t : Trace} {now runAt : Time} {jobID : String}
    (reachable : calls.Reachable anyCall t) (latest : lastScheduled jobID t.log = some runAt)
    (due : jobID ∈ (getDueJobs now t.redis).1) : runAt.unix ≤ now.unix := by
  obtain ⟨runAt', known, reached⟩ :=
    (((holdsAgenda_of_reachable reachable).isDue now).exactly jobID).mp due
  rw [lastScheduled_of_agenda known] at latest
  cases latest
  exact reached

/-- A job scheduled alone is returned at the beginning of its second. -/
theorem due_at_second (jobID : String) (runAt : Time) :
    ∃ t, calls.Reachable anyCall t ∧ lastScheduled jobID t.log = some runAt ∧
      jobID ∈ (getDueJobs (runAt.unix * second) t.redis).1 := by
  have start : calls.Reachable anyCall ⟨∅, []⟩ := ⟨_, rfl, .refl _⟩
  have reachable : calls.Reachable anyCall (Trace.step ⟨∅, []⟩ (.schedule jobID runAt)) :=
    start.step (a := .schedule jobID runAt) trivial rfl
  refine ⟨_, reachable, by simp [Trace.step, lastScheduled], ?_⟩
  refine (((holdsAgenda_of_reachable reachable).isDue _).exactly jobID).mpr ⟨runAt, ?_, ?_⟩
  · simp [Trace.step, Agenda.ofLog, Agenda.after]
  · rw [Time.unix_mul_second]

/-- In every sequence of calls a job is returned less than a second before the instant of its
latest `Schedule` call.  It is never returned before that instant exactly if the instant is a
whole second. -/
theorem release_before_instant (runAt : Time) :
    (∀ t now jobID, calls.Reachable anyCall t → lastScheduled jobID t.log = some runAt →
      jobID ∈ (getDueJobs now t.redis).1 → runAt < now + second) ∧
    ((∀ t now jobID, calls.Reachable anyCall t → lastScheduled jobID t.log = some runAt →
      jobID ∈ (getDueJobs now t.redis).1 → runAt ≤ now) ↔ runAt % second = 0) := by
  refine ⟨fun t now jobID reachable latest due => ?_, fun punctual => ?_, ?_⟩
  · exact Time.lt_add_second (unix_le_of_due reachable latest due)
  · obtain ⟨t, reachable, latest, due⟩ := due_at_second "job" runAt
    exact Time.whole_of_le (punctual t _ _ reachable latest due)
  · intro whole t now jobID reachable latest due
    exact Time.le_of_whole whole (unix_le_of_due reachable latest due)

/-- A job with a `run_at` of 10.9 seconds is created; the next pass begins at 10.1 seconds. -/
def fractionalRun : List Action :=
  [.begin (.createJob (some { Cmd.request with runAt := some "1970-01-01T00:00:10.9Z" })),
    .run 0 (.inserted 1), .run 0 .ok, .tick 10100000000, .begin .processScheduledJobs]

theorem fractional_job_early : ∃ s t row runAt,
    (system Cmd.mainConfig).Reachable anyAction s ∧
    Rfc3339.parse "1970-01-01T00:00:10.9Z" = some runAt ∧
    s.world.row 1 = some row ∧ row.runAt = some runAt ∧ s.world.now < runAt ∧
    s.step Cmd.mainConfig (.run 1 .ok) = some t ∧
    t.ops[1]? = some (.processScheduledJobs (.releasing [Cmd.mainConfig.uuid.string 1])) := by
  have evaluated : ((system Cmd.mainConfig).exec anyAction Cmd.initialState fractionalRun).any
      (fun s => (s.world.row 1).any fun row => (s.step Cmd.mainConfig (.run 1 .ok)).any fun t =>
        decide (Rfc3339.parse "1970-01-01T00:00:10.9Z" = some 10900000000 ∧
          row.runAt = some 10900000000 ∧ s.world.now < 10900000000 ∧
          t.ops[1]? = some (.processScheduledJobs
            (.releasing [Cmd.mainConfig.uuid.string 1])))) = true := by decide +kernel
  simp only [Option.any_eq_true, decide_eq_true_eq] at evaluated
  obtain ⟨s, executed, row, present, t, taken, parsed, runAt, early, released⟩ := evaluated
  exact ⟨s, t, row, _, Transition.System.reachable_of_exec Cmd.initial_initialState executed,
    parsed, present, runAt, early, taken, released⟩

end GoQueue.Verified
