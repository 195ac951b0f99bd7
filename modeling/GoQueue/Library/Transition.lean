import Mathlib.Logic.Relation

/-! # Labelled transition systems and restricted runs

A `System` is given by its initial states and an executable step function: the
label carries every choice the environment makes, so a step is deterministic
once its label is known.

Most results about a system hold only for runs whose steps all satisfy some
condition (a fault-free run, a run without a certain component).  `Reaches` and
`Reachable` therefore take the condition `permitted` on a state and the label
taken there; the unrestricted runs are those of `fun _ _ => True`.
-/

namespace Transition

structure System (σ α : Type*) where
  initial : σ → Prop
  step : σ → α → Option σ

namespace System

variable {σ α : Type*} (M : System σ α) (permitted : σ → α → Prop)

def Next (s t : σ) : Prop :=
  ∃ a, permitted s a ∧ M.step s a = some t

def Reaches : σ → σ → Prop :=
  Relation.ReflTransGen (M.Next permitted)

def Reachable (t : σ) : Prop :=
  ∃ s, M.initial s ∧ M.Reaches permitted s t

variable {M permitted}

theorem Reaches.refl (s : σ) : M.Reaches permitted s s :=
  Relation.ReflTransGen.refl

theorem Reaches.trans {s t u : σ} (first : M.Reaches permitted s t)
    (second : M.Reaches permitted t u) : M.Reaches permitted s u :=
  Relation.ReflTransGen.trans first second

theorem Reaches.step {s t u : σ} {a : α} (reaches : M.Reaches permitted s t)
    (allowed : permitted t a) (taken : M.step t a = some u) : M.Reaches permitted s u :=
  Relation.ReflTransGen.tail reaches ⟨a, allowed, taken⟩

theorem Reaches.mono {weaker : σ → α → Prop} (weaken : ∀ s a, permitted s a → weaker s a)
    {s t : σ} (reaches : M.Reaches permitted s t) : M.Reaches weaker s t :=
  Relation.ReflTransGen.mono (fun _ _ ⟨a, allowed, taken⟩ => ⟨a, weaken _ a allowed, taken⟩)
    s t reaches

theorem Reachable.mono {weaker : σ → α → Prop} (weaken : ∀ s a, permitted s a → weaker s a)
    {t : σ} (reachable : M.Reachable permitted t) : M.Reachable weaker t := by
  obtain ⟨s, start, reaches⟩ := reachable
  exact ⟨s, start, reaches.mono weaken⟩

theorem Reachable.extend {s t : σ} (reachable : M.Reachable permitted s)
    (reaches : M.Reaches permitted s t) : M.Reachable permitted t := by
  obtain ⟨origin, start, before⟩ := reachable
  exact ⟨origin, start, before.trans reaches⟩

theorem Reachable.step {s t : σ} {a : α} (reachable : M.Reachable permitted s)
    (allowed : permitted s a) (taken : M.step s a = some t) : M.Reachable permitted t :=
  reachable.extend ((Reaches.refl s).step allowed taken)

/-! ## Invariants -/

/-- What one permitted step preserves, a run preserves. -/
theorem Reaches.invariant {P : σ → Prop}
    (preserved : ∀ {s a t}, permitted s a → M.step s a = some t → P s → P t)
    {s t : σ} (reaches : M.Reaches permitted s t) (base : P s) : P t := by
  induction reaches with
  | refl => exact base
  | tail _ next inductionHypothesis =>
    obtain ⟨a, allowed, taken⟩ := next
    exact preserved allowed taken inductionHypothesis

/-- The invariant rule for reachable states; the step may assume that its source is
reachable, so invariants already proved can be used. -/
theorem Reachable.invariant {P : σ → Prop}
    (base : ∀ {s}, M.initial s → P s)
    (preserved : ∀ {s a t}, M.Reachable permitted s → permitted s a → M.step s a = some t →
      P s → P t)
    {t : σ} (reachable : M.Reachable permitted t) : P t := by
  obtain ⟨s, start, reaches⟩ := reachable
  have strengthened : M.Reachable permitted t ∧ P t := by
    refine reaches.invariant (P := fun t => M.Reachable permitted t ∧ P t) ?_
      ⟨⟨s, start, .refl s⟩, base start⟩
    intro s a t allowed taken held
    exact ⟨held.1.step allowed taken, preserved held.1 allowed taken held.2⟩
  exact strengthened.2

/-- A property that no initial state has was made true by a step, and has held since. -/
theorem Reachable.exists_turn {P : σ → Prop} (base : ∀ {s}, M.initial s → ¬ P s) {t : σ}
    (reachable : M.Reachable permitted t) (holds : P t) :
    ∃ s a u, M.Reachable permitted s ∧ permitted s a ∧ M.step s a = some u ∧ ¬ P s ∧ P u ∧
      M.Reaches (fun s a => permitted s a ∧ P s) u t := by
  obtain ⟨origin, start, reaches⟩ := reachable
  induction reaches with
  | refl => exact absurd holds (base start)
  | @tail t u before next inductionHypothesis =>
    obtain ⟨a, allowed, taken⟩ := next
    by_cases earlier : P t
    · obtain ⟨s, b, v, reached, allowed', taken', was, now, rest⟩ := inductionHypothesis earlier
      exact ⟨s, b, v, reached, allowed', taken', was, now, rest.step ⟨allowed, earlier⟩ taken⟩
    · exact ⟨t, a, u, ⟨origin, start, before⟩, allowed, taken, earlier, holds, .refl u⟩

/-! ## What can still be reached -/

variable (M permitted) in
/-- A permitted run leads from here to a state with the property. -/
def CanReach (P : σ → Prop) (s : σ) : Prop :=
  ∃ t, M.Reaches permitted s t ∧ P t

theorem CanReach.here {P : σ → Prop} {s : σ} (holds : P s) : M.CanReach permitted P s :=
  ⟨s, .refl s, holds⟩

theorem CanReach.after {P : σ → Prop} {s t : σ} {a : α} (allowed : permitted s a)
    (taken : M.step s a = some t) (later : M.CanReach permitted P t) : M.CanReach permitted P s := by
  obtain ⟨u, reaches, holds⟩ := later
  exact ⟨u, ((Reaches.refl s).step allowed taken).trans reaches, holds⟩

theorem CanReach.bind {P Q : σ → Prop} {s : σ} (first : M.CanReach permitted P s)
    (later : ∀ t, M.Reaches permitted s t → P t → M.CanReach permitted Q t) :
    M.CanReach permitted Q s := by
  obtain ⟨t, reaches, holds⟩ := first
  obtain ⟨u, further, holds'⟩ := later t reaches holds
  exact ⟨u, reaches.trans further, holds'⟩

/-- The property is reached if every state on the way has a permitted step that lowers a
rank, until the rest is known. -/
theorem CanReach.of_rank {P I : σ → Prop} (rank : σ → Nat)
    (advance : ∀ s, I s → M.CanReach permitted P s ∨
      ∃ a t, permitted s a ∧ M.step s a = some t ∧ I t ∧ rank t < rank s)
    {s : σ} (start : I s) : M.CanReach permitted P s := by
  induction bound : rank s using Nat.strongRecOn generalizing s with
  | _ n inductionHypothesis =>
    cases advance s start with
    | inl known => exact known
    | inr further =>
      obtain ⟨a, t, allowed, taken, held, lower⟩ := further
      exact .after allowed taken (inductionHypothesis (rank t) (bound ▸ lower) held rfl)

/-! ## Runs with one label

The label decides the step, so a run that repeats one label has at most one last state. -/

theorem Reaches.eq_of_stuck {a : α} {s t u : σ} (first : M.Reaches (fun _ b => b = a) s t)
    (second : M.Reaches (fun _ b => b = a) s u) (stuck : M.step t a = none)
    (stuck' : M.step u a = none) : t = u := by
  have deterministic : Relator.RightUnique (M.Next fun _ b => b = a) := by
    rintro s t u ⟨_, rfl, taken⟩ ⟨_, rfl, taken'⟩
    rw [taken] at taken'
    cases taken'
    rfl
  have last {t u : σ} (stuck : M.step t a = none) (further : M.Reaches (fun _ b => b = a) t u) :
      t = u := by
    obtain rfl | ⟨_, ⟨_, rfl, taken⟩, _⟩ := Relation.ReflTransGen.cases_head further
    · rfl
    · rw [stuck] at taken
      cases taken
  cases Relation.ReflTransGen.total_of_right_unique deterministic first second with
  | inl further => exact last stuck further
  | inr further => exact (last stuck' further).symm

/-! ## Executable runs -/

variable (M permitted) in
/-- Takes the labels one after the other; `none` as soon as one is not permitted or not
enabled. -/
def exec [∀ s a, Decidable (permitted s a)] : σ → List α → Option σ
  | s, [] => some s
  | s, a :: labels => if permitted s a then (M.step s a).bind (exec · labels) else none

theorem reaches_of_exec [∀ s a, Decidable (permitted s a)] {labels : List α} {s t : σ}
    (executed : M.exec permitted s labels = some t) : M.Reaches permitted s t := by
  induction labels generalizing s with
  | nil =>
    simp only [exec, Option.some.injEq] at executed
    subst executed
    exact .refl s
  | cons a labels inductionHypothesis =>
    simp only [exec] at executed
    split at executed
    case isTrue allowed =>
      obtain ⟨u, taken, rest⟩ := Option.bind_eq_some_iff.mp executed
      exact ((Reaches.refl s).step allowed taken).trans (inductionHypothesis rest)
    case isFalse => contradiction

theorem reachable_of_exec [∀ s a, Decidable (permitted s a)] {labels : List α} {s t : σ}
    (start : M.initial s) (executed : M.exec permitted s labels = some t) :
    M.Reachable permitted t :=
  ⟨s, start, reaches_of_exec executed⟩

/-- A run that is evaluated shows a reachable state with a decidable property. -/
theorem exists_reachable_of_exec [∀ s a, Decidable (permitted s a)] {s : σ} (labels : List α)
    {P : σ → Prop} [DecidablePred P] (start : M.initial s)
    (evaluated : (M.exec permitted s labels).any (fun t => decide (P t)) = true) :
    ∃ t, M.Reachable permitted t ∧ P t := by
  cases executed : M.exec permitted s labels with
  | none => simp [executed] at evaluated
  | some t => exact ⟨t, reachable_of_exec start executed, by simpa [executed] using evaluated⟩

/-! ## Runs with a history

What has happened in a run is noted beside the state, from the states before and after each step.
The notes never decide what happens next, so the runs are those of the system itself. -/

variable (M) in
def withHistory {η : Type*} (start : η) (note : σ → α → σ → η → η) : System (σ × η) α where
  initial p := M.initial p.1 ∧ p.2 = start
  step p a := (M.step p.1 a).map fun t => (t, note p.1 a t p.2)

section History

variable {η : Type*} {start : η} {note : σ → α → σ → η → η}

theorem step_withHistory {p : σ × η} {t : σ} {h : η} {a : α} :
    (M.withHistory start note).step p a = some (t, h) ↔
      M.step p.1 a = some t ∧ h = note p.1 a t p.2 := by
  simp only [withHistory, Option.map_eq_some_iff, Prod.mk.injEq]
  constructor
  · rintro ⟨t, taken, rfl, rfl⟩
    exact ⟨taken, rfl⟩
  · rintro ⟨taken, rfl⟩
    exact ⟨t, taken, rfl, rfl⟩

theorem Reachable.of_withHistory {p : σ × η}
    (reachable : (M.withHistory start note).Reachable (fun p => permitted p.1) p) :
    M.Reachable permitted p.1 := by
  refine reachable.invariant (P := fun p => M.Reachable permitted p.1) ?_ ?_
  · rintro p ⟨initial, -⟩
    exact ⟨p.1, initial, .refl p.1⟩
  · rintro p a ⟨t, h⟩ _ allowed taken reached
    exact reached.step allowed (step_withHistory.mp taken).1

theorem Reachable.withHistory {s : σ} (reachable : M.Reachable permitted s) :
    ∃ h, (M.withHistory start note).Reachable (fun p => permitted p.1) (s, h) := by
  refine reachable.invariant
    (P := fun s => ∃ h, (M.withHistory start note).Reachable (fun p => permitted p.1) (s, h)) ?_ ?_
  · intro s initial
    exact ⟨start, (s, start), ⟨initial, rfl⟩, .refl _⟩
  · rintro s a t - allowed taken ⟨h, reached⟩
    exact ⟨note s a t h, reached.step allowed (step_withHistory.mpr ⟨taken, rfl⟩)⟩

end History

/-! ## Counting along a run

A run that is given by its labels can be asked how often something happens in it.  What is
counted is bounded by a potential: a quantity of the state that pays for it. -/

variable (M) in
def tally (count : σ → α → Nat) : σ → List α → Nat
  | _, [] => 0
  | s, a :: labels => count s a + (M.step s a).elim 0 (tally count · labels)

theorem tally_add (f g : σ → α → Nat) (s : σ) (labels : List α) :
    M.tally (fun s a => f s a + g s a) s labels = M.tally f s labels + M.tally g s labels := by
  induction labels generalizing s with
  | nil => rfl
  | cons a labels inductionHypothesis =>
    simp only [tally]
    cases M.step s a with
    | none => simp
    | some t =>
      simp only [Option.elim_some, inductionHypothesis]
      omega

section Potential

variable [∀ s a, Decidable (permitted s a)] {I : σ → Prop} {f g : σ → α → Nat} {p : σ → Nat}
  (preserved : ∀ {s a t}, permitted s a → M.step s a = some t → I s → I t)

include preserved

/-- What happens is paid for by the potential and by what raises it. -/
theorem tally_le (paid : ∀ {s a t}, permitted s a → M.step s a = some t → I s →
      f s a + p t ≤ p s + g s a)
    {s t : σ} {labels : List α} (executed : M.exec permitted s labels = some t) (start : I s) :
    M.tally f s labels + p t ≤ p s + M.tally g s labels := by
  induction labels generalizing s with
  | nil =>
    simp only [exec, Option.some.injEq] at executed
    simp [tally, executed]
  | cons a labels inductionHypothesis =>
    simp only [exec, Option.ite_none_right_eq_some, Option.bind_eq_some_iff] at executed
    obtain ⟨allowed, u, taken, rest⟩ := executed
    have first := paid allowed taken start
    have later := inductionHypothesis rest (preserved allowed taken start)
    simp only [tally, taken, Option.elim_some]
    omega

/-- The potential is used up by exactly what happens. -/
theorem tally_eq (spent : ∀ {s a t}, permitted s a → M.step s a = some t → I s →
      f s a + p t = p s)
    {s t : σ} {labels : List α} (executed : M.exec permitted s labels = some t) (start : I s) :
    M.tally f s labels + p t = p s := by
  induction labels generalizing s with
  | nil =>
    simp only [exec, Option.some.injEq] at executed
    simp [tally, executed]
  | cons a labels inductionHypothesis =>
    simp only [exec, Option.ite_none_right_eq_some, Option.bind_eq_some_iff] at executed
    obtain ⟨allowed, u, taken, rest⟩ := executed
    have first := spent allowed taken start
    have later := inductionHypothesis rest (preserved allowed taken start)
    simp only [tally, taken, Option.elim_some]
    omega

end Potential

end System

end Transition
