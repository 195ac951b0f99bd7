import Mathlib.Data.List.Basic
import Mathlib.Data.Option.Basic

/-! # A session-level advisory lock

The part of a database server that session locks need: the open sessions, and who holds one
fixed lock.  The lock belongs to a session, is granted to it any number of times, and is freed
when the session ends.  That the holder is an open session is part of the type.
-/

structure AdvisoryLock (σ : Type*) where
  sessions : List σ
  /-- The session that holds the lock, and how often it was granted. -/
  held : Option (σ × Nat)
  held_open : ∀ s n, held = some (s, n) → s ∈ sessions

namespace AdvisoryLock

variable {σ : Type*}

def empty : AdvisoryLock σ := ⟨[], none, nofun⟩

def connect (s : σ) (l : AdvisoryLock σ) : AdvisoryLock σ where
  sessions := s :: l.sessions
  held := l.held
  held_open s' n held := List.mem_cons_of_mem _ (l.held_open s' n held)

@[simp] theorem sessions_connect (s : σ) (l : AdvisoryLock σ) :
    (l.connect s).sessions = s :: l.sessions := rfl

variable [DecidableEq σ]

/-- The session may have the lock: it is open, and the lock is free or its own. -/
def available (s : σ) (l : AdvisoryLock σ) : Bool :=
  decide (s ∈ l.sessions) && l.held.all fun (s', _) => decide (s' = s)

/-- `pg_try_advisory_lock`. -/
def tryLock (s : σ) (l : AdvisoryLock σ) : AdvisoryLock σ where
  sessions := l.sessions
  held := if l.available s then some (s, (l.held.map Prod.snd).getD 0 + 1) else l.held
  held_open s' n held := by
    split at held
    case isTrue granted =>
      cases held
      simp only [available, Bool.and_eq_true, decide_eq_true_eq] at granted
      exact granted.1
    case isFalse => exact l.held_open s' n held

/-- Who has the lock after a try had it before, or has got it now: as the first holder, or once
more. -/
theorem held_tryLock_cases {s s' : σ} {n : Nat} {l : AdvisoryLock σ}
    (held : (l.tryLock s).held = some (s', n)) :
    l.held = some (s', n) ∨ (s' = s ∧ l.held = none ∧ n = 1) ∨ (s' = s ∧ ∃ m, l.held = some (s, m)) := by
  simp only [tryLock] at held
  split at held
  case isFalse => exact .inl held
  case isTrue granted =>
    simp only [available, Bool.and_eq_true] at granted
    cases before : l.held with
    | none =>
      rw [before] at held
      cases held
      exact .inr (.inl ⟨rfl, rfl, rfl⟩)
    | some holder =>
      obtain ⟨other, m⟩ := holder
      rw [before] at held granted
      obtain rfl : other = s := by simpa using granted.2
      cases held
      exact .inr (.inr ⟨rfl, m, rfl⟩)

/-- Whether `pg_locks` lists the lock for the session. -/
def holds (s : σ) (l : AdvisoryLock σ) : Bool :=
  l.held.any fun (s', _) => decide (s' = s)

theorem holds_iff {s : σ} {l : AdvisoryLock σ} : l.holds s = true ↔ ∃ n, l.held = some (s, n) := by
  unfold holds
  cases l.held with
  | none => simp
  | some holder =>
    obtain ⟨s', n⟩ := holder
    simp

theorem holds_tryLock_self {s : σ} {l : AdvisoryLock σ} (granted : l.available s = true) :
    (l.tryLock s).holds s = true :=
  holds_iff.mpr ⟨_, if_pos granted⟩

/-- A lock that is held is not available to another session. -/
theorem eq_of_available {s s' : σ} {l : AdvisoryLock σ} (holder : l.holds s = true)
    (granted : l.available s' = true) : s = s' := by
  obtain ⟨n, held⟩ := holds_iff.mp holder
  simp only [available, held, Option.all_some, Bool.and_eq_true, decide_eq_true_eq] at granted
  exact granted.2

theorem holds_tryLock {s s' : σ} {l : AdvisoryLock σ} (holder : l.holds s = true) :
    (l.tryLock s').holds s = true := by
  by_cases granted : l.available s' = true
  · rw [eq_of_available holder granted]
    exact holds_tryLock_self granted
  · obtain ⟨n, held⟩ := holds_iff.mp holder
    exact holds_iff.mpr ⟨n, by simp [tryLock, granted, held]⟩

/-- The session ends, and a lock it holds is free. -/
def finish (s : σ) (l : AdvisoryLock σ) : AdvisoryLock σ where
  sessions := l.sessions.filter fun s' => decide (s' ≠ s)
  held := l.held.filter fun (s', _) => decide (s' ≠ s)
  held_open s' n held := by
    simp only [Option.filter_eq_some_iff, decide_eq_true_eq] at held
    exact List.mem_filter.mpr ⟨l.held_open s' n held.1, by simpa using held.2⟩

@[simp] theorem mem_sessions_finish {s s' : σ} {l : AdvisoryLock σ} :
    s' ∈ (l.finish s).sessions ↔ s' ∈ l.sessions ∧ s' ≠ s := by
  simp [finish, List.mem_filter]

theorem holds_finish {s s' : σ} {l : AdvisoryLock σ} (holder : l.holds s' = true) (other : s' ≠ s) :
    (l.finish s).holds s' = true := by
  obtain ⟨n, held⟩ := holds_iff.mp holder
  exact holds_iff.mpr ⟨n, by simp [finish, held, Option.filter, other]⟩

end AdvisoryLock
