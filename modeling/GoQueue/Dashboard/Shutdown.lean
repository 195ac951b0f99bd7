import GoQueue.Dashboard.Hub

/-! # Shutting the hub down

`main` cancels the context and calls `Hub.Shutdown` at once: `Hub.Run` may not have seen yet that
its context is done, and then the two goroutines use the map of the clients together.

`Shutdown` closes a client's channel in one step and deletes the client in another.  A loop over
a map gives out no entry that was deleted meanwhile, and may give out one that was added.
-/

namespace GoQueue.Dashboard

/-- Where `main` is in `Shutdown`; `found` are the clients that were in the map at the call. -/
inductive ShutdownPoint where
  | uncalled
  /-- Before the loop takes a client. -/
  | ranging (found : List Nat)
  /-- Between `close(client.send)` and `delete(h.clients, client)`. -/
  | deleting (found : List Nat) (i : Nat)
  | returned
deriving DecidableEq

structure Service where
  state : State
  ctxDone : Bool
  shutdown : ShutdownPoint
deriving DecidableEq

namespace Service

inductive Action where
  /-- A step of `Hub.Run`, of a client's goroutines or of the subscriber. -/
  | run (a : Dashboard.Action)
  /-- The loop of `Hub.Run` does not give out a client that was deleted meanwhile. -/
  | skip (i : Nat)
  /-- `main` cancels the context. -/
  | cancel
  | call
  | close (i : Nat)
  | delete
  | returns
deriving DecidableEq

def withClients (s : State) (clients : List Nat) : State :=
  { s with hub := { s.hub with clients := clients } }

def stepRun (s : Service) (a : Dashboard.Action) : Option Service :=
  match a with
  | .cancel => if s.ctxDone then (s.state.step a).map ({ s with state := · }) else none
  | .visit i => if i ∈ s.state.hub.clients then (s.state.step a).map ({ s with state := · }) else none
  | a => (s.state.step a).map ({ s with state := · })

def stepShutdown (s : Service) : Action → Option Service
  | .call =>
    if s.ctxDone = true ∧ s.shutdown = .uncalled then
      some { s with shutdown := .ranging s.state.hub.clients }
    else none
  | .close i => match s.shutdown with
    | .ranging found =>
      if i ∈ s.state.hub.clients then
        s.state.clients[i]?.map fun c => match c.send.close with
          | .done send =>
            { s with state := s.state.setClient i { c with send := send, uses := c.uses ++ [.closed] },
                     shutdown := .deleting found i }
          | .blocks | .panics =>
            { s with state := { s.state.setClient i { c with uses := c.uses ++ [.closed] } with
                panicked := true } }
      else none
    | _ => none
  | .delete => match s.shutdown with
    | .deleting found i =>
      some { s with state := withClients s.state (s.state.hub.clients.erase i),
                    shutdown := .ranging found }
    | _ => none
  | .returns => match s.shutdown with
    | .ranging found =>
      if found.all (· ∉ s.state.hub.clients) then some { s with shutdown := .returned } else none
    | _ => none
  | _ => none

def step (s : Service) (a : Action) : Option Service :=
  if s.state.panicked then none
  else match a with
    | .run a => s.stepRun a
    | .skip i => match s.state.hub.run with
      | .broadcasting message rest =>
        if i ∈ rest ∧ i ∉ s.state.hub.clients then
          some { s with state := { s.state with hub := { s.state.hub with
            run := .broadcasting message (rest.erase i) } } }
        else none
      | _ => none
    | .cancel => some { s with ctxDone := true }
    | a => s.stepShutdown a

def system : Transition.System Service Action where
  initial s := s = ⟨⟨newHub, [], false⟩, false, .uncalled⟩
  step := step

/-- Runs without restriction. -/
def anyStep (_ : Service) (_ : Action) : Prop := True

instance (s : Service) (a : Action) : Decidable (anyStep s a) := inferInstanceAs (Decidable True)

/-! ## What a step can do -/

inductive Step (s : Service) : Action → Service → Prop where
  | runs {a t} : s.state.step a = some t → (a = .cancel → s.ctxDone = true) →
      Step s (.run a) { s with state := t }
  | skips {i message rest} : s.state.hub.run = .broadcasting message rest → i ∈ rest →
      i ∉ s.state.hub.clients →
      Step s (.skip i) { s with state := { s.state with hub := { s.state.hub with
        run := .broadcasting message (rest.erase i) } } }
  | cancels : Step s .cancel { s with ctxDone := true }
  | calls : s.ctxDone = true → s.shutdown = .uncalled →
      Step s .call { s with shutdown := .ranging s.state.hub.clients }
  | closes {found i c} : s.shutdown = .ranging found → i ∈ s.state.hub.clients →
      s.state.clients[i]? = some c → c.send.closed = false →
      Step s (.close i)
        { s with
          state := s.state.setClient i
            { c with send := { c.send with closed := true }, uses := c.uses ++ [.closed] },
          shutdown := .deleting found i }
  | closesAgain {found i c} : s.shutdown = .ranging found → i ∈ s.state.hub.clients →
      s.state.clients[i]? = some c → c.send.closed = true →
      Step s (.close i)
        { s with state := { s.state.setClient i { c with uses := c.uses ++ [.closed] } with
            panicked := true } }
  | deletes {found i} : s.shutdown = .deleting found i →
      Step s .delete
        { s with state := withClients s.state (s.state.hub.clients.erase i),
                 shutdown := .ranging found }
  | returns {found} : s.shutdown = .ranging found → (∀ i ∈ found, i ∉ s.state.hub.clients) →
      Step s .returns { s with shutdown := .returned }

theorem stepRun_cases {s t : Service} {a : Dashboard.Action} (taken : s.stepRun a = some t) :
    Step s (.run a) t := by
  cases a <;> simp only [stepRun, Option.ite_none_right_eq_some] at taken
  case cancel =>
    obtain ⟨state, inner, rfl⟩ := Option.map_eq_some_iff.mp taken.2
    exact .runs inner fun _ => taken.1
  case visit =>
    obtain ⟨state, inner, rfl⟩ := Option.map_eq_some_iff.mp taken.2
    exact .runs inner nofun
  all_goals
    obtain ⟨state, inner, rfl⟩ := Option.map_eq_some_iff.mp taken
    exact .runs inner nofun

theorem stepShutdown_cases {s t : Service} {a : Action} (taken : s.stepShutdown a = some t) :
    Step s a t := by
  cases a <;> simp only [stepShutdown] at taken
  case call =>
    split at taken
    case isTrue ready => cases taken; exact .calls ready.1 ready.2
    case isFalse => cases taken
  case close i =>
    split at taken
    case h_1 found place =>
      split at taken
      case isTrue inMap =>
        obtain ⟨c, known, rfl⟩ := Option.map_eq_some_iff.mp taken
        cases closed : c.send.closed with
        | false =>
          rw [Channel.close_of_open closed]
          exact .closes place inMap known closed
        | true =>
          have again : c.send.close = .panics := by simp [Channel.close, closed]
          rw [again]
          exact .closesAgain place inMap known closed
      case isFalse => cases taken
    case h_2 => cases taken
  case delete =>
    split at taken
    case h_1 place => cases taken; exact .deletes place
    case h_2 => cases taken
  case returns =>
    split at taken
    case h_1 place =>
      split at taken
      case isTrue gone => cases taken; exact .returns place (by simpa using gone)
      case isFalse => cases taken
    case h_2 => cases taken
  all_goals cases taken

theorem step_cases {s t : Service} {a : Action} (taken : s.step a = some t) : Step s a t := by
  unfold step at taken
  split at taken
  · cases taken
  · cases a <;> simp only at taken
    case run a => exact stepRun_cases taken
    case skip i =>
      split at taken
      case h_1 message rest running =>
        split at taken
        case isTrue gone => cases taken; exact .skips running gone.1 gone.2
        case isFalse => cases taken
      case h_2 => cases taken
    case cancel => cases taken; exact .cancels
    all_goals exact stepShutdown_cases taken

end Service

end GoQueue.Dashboard
