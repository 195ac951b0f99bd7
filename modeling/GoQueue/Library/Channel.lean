import Mathlib.Data.List.Basic

/-! # Buffered channels

A channel of Go with a buffer, for the operations that wait and those that do not: a
non-blocking `select` is a send whose `blocks` leads to the `default` branch.  Sending on a
closed channel and closing one twice panic.
-/

structure Channel (μ : Type*) where
  capacity : Nat
  /-- The messages that have not been received, the oldest first. -/
  buffer : List μ
  closed : Bool
deriving DecidableEq

namespace Channel

variable {μ : Type*} {c c' : Channel μ} {m : μ}

/-- What becomes of an operation on a channel. -/
inductive Outcome (β : Type*) where
  | done (result : β)
  | blocks
  | panics
deriving DecidableEq

def make (capacity : Nat) : Channel μ := ⟨capacity, [], false⟩

def send (m : μ) (c : Channel μ) : Outcome (Channel μ) :=
  if c.closed then .panics
  else if c.buffer.length < c.capacity then .done { c with buffer := c.buffer ++ [m] }
  else .blocks

def close (c : Channel μ) : Outcome (Channel μ) :=
  if c.closed then .panics else .done { c with closed := true }

/-- A closed channel gives out its buffer before it reports that it is closed. -/
def receive (c : Channel μ) : Outcome (Option μ × Channel μ) :=
  match c.buffer with
  | m :: rest => .done (some m, { c with buffer := rest })
  | [] => if c.closed then .done (none, c) else .blocks

/-- What was added to a channel from one state of it to a later one, by one operation. -/
def gained (before after : Channel μ) : List μ := after.buffer.drop before.buffer.length

/-- What was taken off it. -/
def lost (before after : Channel μ) : List μ :=
  before.buffer.take (before.buffer.length - after.buffer.length)

theorem send_eq_done (sent : c.send m = .done c') :
    c.closed = false ∧ c' = { c with buffer := c.buffer ++ [m] } := by
  unfold send at sent
  split at sent
  · cases sent
  case isFalse isOpen =>
    split at sent
    · cases sent
      exact ⟨by simpa using isOpen, rfl⟩
    · cases sent

theorem send_eq_panics (panicked : c.send m = .panics) : c.closed = true := by
  unfold send at panicked
  split at panicked
  · assumption
  · split at panicked <;> cases panicked

theorem close_of_open (isOpen : c.closed = false) : c.close = .done { c with closed := true } := by
  simp [close, isOpen]

theorem receive_ne_panics : c.receive ≠ .panics := by
  unfold receive
  split
  · simp
  · split <;> simp

theorem receive_eq_some (received : c.receive = .done (some m, c')) :
    c.buffer = m :: c'.buffer ∧ c' = { c with buffer := c'.buffer } := by
  unfold receive at received
  split at received
  case h_1 rest stored =>
    cases received
    exact ⟨stored, rfl⟩
  case h_2 => split at received <;> cases received

/-! ## What an operation shows -/

theorem gained_of_buffer_eq (same : c'.buffer = c.buffer) : c.gained c' = [] := by
  simp [gained, same]

theorem lost_of_buffer_eq (same : c'.buffer = c.buffer) : c.lost c' = [] := by simp [lost, same]

theorem gained_send (sent : c.send m = .done c') : c.gained c' = [m] ∧ c.lost c' = [] := by
  obtain ⟨-, rfl⟩ := send_eq_done sent
  simp [gained, lost]

theorem lost_receive (received : c.receive = .done (some m, c')) :
    c.gained c' = [] ∧ c.lost c' = [m] := by
  obtain ⟨stored, -⟩ := receive_eq_some received
  simp [gained, lost, stored]

end Channel
