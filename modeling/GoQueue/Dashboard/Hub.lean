import GoQueue.Library.Channel
import GoQueue.Library.Transition

/-! # The WebSocket hub

`Hub.Run` of `internal/dashboard/hub.go` with the goroutines of any number of clients:
`ServeWS` of `handler.go`, and `writePump` and `readPump` of `client.go`.  The pumps get the
background context, which is never done.

Each goroutine moves from one operation on a channel or a connection to the next.  The `select`
of `Hub.Run` may take any channel that is ready, and its loop over the clients visits them in
any order; between two visits the pumps go on.  A panic ends the process.
-/

namespace GoQueue.Dashboard

abbrev Message := String

/-- The goroutine that serves the upgrade request, after the connection was accepted. -/
inductive ServeWS where
  /-- Before `hub.register <- client`. -/
  | registering
  | startingWrite
  | startingRead
  | returned
deriving DecidableEq

inductive WritePump where
  | unstarted
  /-- In the `select` on the send channel. -/
  | selecting
  /-- In `conn.Write`. -/
  | writing (message : Message)
  /-- In the deferred function, before `conn.Close`. -/
  | closing
  /-- In the deferred function, before `hub.unregister <- c`. -/
  | unregistering
  | ended
deriving DecidableEq

inductive ReadPump where
  | unstarted
  /-- In `conn.Read`. -/
  | reading
  /-- In the deferred function, before `hub.unregister <- c`. -/
  | unregistering
  /-- In the deferred function, before `conn.Close`. -/
  | closing
  | ended
deriving DecidableEq

/-- What the hub does to a client's send channel. -/
inductive Use where
  | sent
  | closed
deriving DecidableEq

structure Client where
  send : Channel Message
  connClosed : Bool
  serveWS : ServeWS
  writePump : WritePump
  readPump : ReadPump
  /-- What was done to the send channel so far, the last use at the end; a use that panics
  counts. -/
  uses : List Use
deriving DecidableEq

/-- As `ServeWS` makes it. -/
def Client.new : Client := ⟨.make 256, false, .registering, .unstarted, .unstarted, []⟩

/-- Where `Hub.Run` is. -/
inductive Run where
  | selecting
  /-- In the loop over the clients, with those it has not visited. -/
  | broadcasting (message : Message) (rest : List Nat)
  | returned
deriving DecidableEq

/-- A client is known by its place in the order of the accepted connections. -/
structure Hub where
  clients : List Nat
  broadcast : Channel Message
  register : Channel Nat
  unregister : Channel Nat
  run : Run
deriving DecidableEq

def newHub : Hub := ⟨[], .make 256, .make 256, .make 256, .selecting⟩

structure State where
  hub : Hub
  clients : List Client
  panicked : Bool
deriving DecidableEq

inductive Action where
  /-- A connection is accepted. -/
  | accept
  /-- The next step of a client's `ServeWS`. -/
  | serve (i : Nat)
  /-- The next step of a client's `writePump`; `ok` is what `conn.Write` has come to. -/
  | write (i : Nat) (ok : Bool)
  | read (i : Nat) (ok : Bool)
  /-- The subscriber sends a message to the hub. -/
  | publish (message : Message)
  /-- `Hub.Run` takes a message from one of its channels. -/
  | register
  | unregister
  | broadcast
  /-- The loop over the clients comes to this one. -/
  | visit (i : Nat)
  | finish
  /-- `Hub.Run` sees that its context is done. -/
  | cancel
deriving DecidableEq

/-- The labels of `Hub.Run`. -/
def Action.ofRun : Action → Bool
  | .register | .unregister | .broadcast | .visit _ | .finish | .cancel => true
  | .accept | .serve _ | .write _ _ | .read _ _ | .publish _ => false

/-- A statement on a channel: it waits while the operation blocks. -/
def onChannel {β : Type} (s : State) (outcome : Channel.Outcome β) (next : β → State) :
    Option State :=
  match outcome with
  | .done result => some (next result)
  | .blocks => none
  | .panics => some { s with panicked := true }

namespace State

def setClient (s : State) (i : Nat) (c : Client) : State := { s with clients := s.clients.set i c }

/-- `close(client.send)` and `delete(h.clients, client)`. -/
def drop (s : State) (i : Nat) (c : Client) : State :=
  match c.send.close with
  | .done send =>
    { s with hub := { s.hub with clients := s.hub.clients.erase i },
             clients := s.clients.set i { c with send := send, uses := c.uses ++ [.closed] } }
  | .blocks | .panics =>
    { s with clients := s.clients.set i { c with uses := c.uses ++ [.closed] }, panicked := true }

def stepServe (s : State) (i : Nat) (c : Client) : Option State :=
  match c.serveWS with
  | .registering => onChannel s (s.hub.register.send i) fun register =>
    { s with hub := { s.hub with register := register },
             clients := s.clients.set i { c with serveWS := .startingWrite } }
  | .startingWrite => some (s.setClient i { c with serveWS := .startingRead, writePump := .selecting })
  | .startingRead => some (s.setClient i { c with serveWS := .returned, readPump := .reading })
  | .returned => none

def stepWrite (s : State) (i : Nat) (c : Client) (ok : Bool) : Option State :=
  match c.writePump with
  | .selecting => onChannel s c.send.receive fun (message, send) =>
    match message with
    | some message => s.setClient i { c with send := send, writePump := .writing message }
    | none => s.setClient i { c with writePump := .closing }
  | .writing _ =>
    if ok then
      -- a write on a closed connection fails
      if c.connClosed then none else some (s.setClient i { c with writePump := .selecting })
    else some (s.setClient i { c with writePump := .closing })
  | .closing => some (s.setClient i { c with connClosed := true, writePump := .unregistering })
  | .unregistering => onChannel s (s.hub.unregister.send i) fun unregister =>
    { s with hub := { s.hub with unregister := unregister },
             clients := s.clients.set i { c with writePump := .ended } }
  | .unstarted | .ended => none

def stepRead (s : State) (i : Nat) (c : Client) (ok : Bool) : Option State :=
  match c.readPump with
  | .reading =>
    if ok then if c.connClosed then none else some s
    else some (s.setClient i { c with readPump := .unregistering })
  | .unregistering => onChannel s (s.hub.unregister.send i) fun unregister =>
    { s with hub := { s.hub with unregister := unregister },
             clients := s.clients.set i { c with readPump := .closing } }
  | .closing => some (s.setClient i { c with connClosed := true, readPump := .ended })
  | .unstarted | .ended => none

/-- The body of the loop over the clients. -/
def stepVisit (s : State) (message : Message) (rest : List Nat) (i : Nat) (c : Client) : State :=
  let s := { s with hub := { s.hub with run := .broadcasting message (rest.erase i) } }
  match c.send.send message with
  | .done send => s.setClient i { c with send := send, uses := c.uses ++ [.sent] }
  | .blocks => s.drop i c
  | .panics => { s with clients := s.clients.set i { c with uses := c.uses ++ [.sent] }, panicked := true }

def stepHub (s : State) : Action → Option State
  | .register => match s.hub.register.receive with
    | .done (some i, register) =>
      some { s with hub := { s.hub with register := register, clients := s.hub.clients.insert i } }
    | _ => none
  | .unregister => match s.hub.unregister.receive with
    | .done (some i, unregister) =>
      let s := { s with hub := { s.hub with unregister := unregister } }
      if i ∈ s.hub.clients then s.clients[i]?.map fun c => s.drop i c else some s
    | _ => none
  | .broadcast => match s.hub.broadcast.receive with
    | .done (some message, broadcast) =>
      some { s with hub := { s.hub with broadcast := broadcast, run := .broadcasting message s.hub.clients } }
    | _ => none
  | .cancel => some { s with hub := { s.hub with run := .returned } }
  | _ => none

def step (s : State) (a : Action) : Option State :=
  if s.panicked then none
  else match a with
    | .accept => some { s with clients := s.clients ++ [.new] }
    | .serve i => s.clients[i]?.bind (s.stepServe i)
    | .write i ok => s.clients[i]?.bind (s.stepWrite i · ok)
    | .read i ok => s.clients[i]?.bind (s.stepRead i · ok)
    | .publish message => onChannel s (s.hub.broadcast.send message) fun broadcast =>
      { s with hub := { s.hub with broadcast := broadcast } }
    | .register | .unregister | .broadcast | .cancel =>
      if s.hub.run = .selecting then s.stepHub a else none
    | .visit i => match s.hub.run with
      | .broadcasting message rest =>
        if i ∈ rest then s.clients[i]?.map (s.stepVisit message rest i) else none
      | _ => none
    | .finish => match s.hub.run with
      | .broadcasting _ [] => some { s with hub := { s.hub with run := .selecting } }
      | _ => none

end State

/-! ## What a step can do -/

/-- The steps of a client's goroutines that leave the hub alone. -/
inductive Client.Moves (c : Client) : Client → Prop where
  | startsWrite : c.serveWS = .startingWrite →
      Moves c { c with serveWS := .startingRead, writePump := .selecting }
  | startsRead : c.serveWS = .startingRead →
      Moves c { c with serveWS := .returned, readPump := .reading }
  | receives {message send} : c.writePump = .selecting →
      c.send.receive = .done (some message, send) →
      Moves c { c with send := send, writePump := .writing message }
  | seesClosed {send} : c.writePump = .selecting → c.send.receive = .done (none, send) →
      Moves c { c with writePump := .closing }
  | written {message} : c.writePump = .writing message → Moves c { c with writePump := .selecting }
  | unwritten {message} : c.writePump = .writing message → Moves c { c with writePump := .closing }
  | writeCloses : c.writePump = .closing →
      Moves c { c with connClosed := true, writePump := .unregistering }
  | unread : c.readPump = .reading → Moves c { c with readPump := .unregistering }
  | readCloses : c.readPump = .closing → Moves c { c with connClosed := true, readPump := .ended }

/-- The steps that send the client to the hub's unregister channel. -/
inductive Client.Leaves (c : Client) : Client → Prop where
  | write : c.writePump = .unregistering → Leaves c { c with writePump := .ended }
  | read : c.readPump = .unregistering → Leaves c { c with readPump := .closing }

namespace State

inductive Step (s : State) : Action → State → Prop where
  | accepts : Step s .accept { s with clients := s.clients ++ [.new] }
  | registers {i c register} : s.clients[i]? = some c → c.serveWS = .registering →
      s.hub.register.send i = .done register →
      Step s (.serve i)
        { s with hub := { s.hub with register := register },
                 clients := s.clients.set i { c with serveWS := .startingWrite } }
  | moves {a i c c'} : a.ofRun = false → s.clients[i]? = some c → Client.Moves c c' →
      Step s a (s.setClient i c')
  | reads {a} : a.ofRun = false → Step s a s
  | leaves {a i c c' unregister} : a.ofRun = false → s.clients[i]? = some c → Client.Leaves c c' →
      s.hub.unregister.send i = .done unregister →
      Step s a
        { s with hub := { s.hub with unregister := unregister }, clients := s.clients.set i c' }
  | publishes {message broadcast} : s.hub.broadcast.send message = .done broadcast →
      Step s (.publish message) { s with hub := { s.hub with broadcast := broadcast } }
  | admits {i register} : s.hub.run = .selecting →
      s.hub.register.receive = .done (some i, register) →
      Step s .register
        { s with hub := { s.hub with register := register, clients := s.hub.clients.insert i } }
  | removes {i c unregister} : s.hub.run = .selecting →
      s.hub.unregister.receive = .done (some i, unregister) → i ∈ s.hub.clients →
      s.clients[i]? = some c →
      Step s .unregister (drop { s with hub := { s.hub with unregister := unregister } } i c)
  | ignores {i unregister} : s.hub.run = .selecting →
      s.hub.unregister.receive = .done (some i, unregister) → i ∉ s.hub.clients →
      Step s .unregister { s with hub := { s.hub with unregister := unregister } }
  | takes {message broadcast} : s.hub.run = .selecting →
      s.hub.broadcast.receive = .done (some message, broadcast) →
      Step s .broadcast
        { s with hub := { s.hub with
            broadcast := broadcast, run := .broadcasting message s.hub.clients } }
  | visits {i c message rest} : s.hub.run = .broadcasting message rest → i ∈ rest →
      s.clients[i]? = some c → Step s (.visit i) (s.stepVisit message rest i c)
  | finishes {message} : s.hub.run = .broadcasting message [] →
      Step s .finish { s with hub := { s.hub with run := .selecting } }
  | cancels : s.hub.run = .selecting → Step s .cancel { s with hub := { s.hub with run := .returned } }
  | breaks {a} : a.ofRun = false → s.hub.register.closed = true ∨ s.hub.unregister.closed = true ∨
      s.hub.broadcast.closed = true → Step s a { s with panicked := true }

theorem onChannel_cases {β : Type} {s t : State} {outcome : Channel.Outcome β} {next : β → State}
    (taken : onChannel s outcome next = some t) :
    (∃ result, outcome = .done result ∧ t = next result) ∨
      (outcome = .panics ∧ t = { s with panicked := true }) := by
  unfold onChannel at taken
  split at taken
  · exact .inl ⟨_, rfl, by simpa using taken.symm⟩
  · cases taken
  · exact .inr ⟨rfl, by simpa using taken.symm⟩

theorem stepServe_cases {s t : State} {i : Nat} {c : Client} (found : s.clients[i]? = some c)
    (taken : s.stepServe i c = some t) : Step s (.serve i) t := by
  cases place : c.serveWS <;> simp only [stepServe, place] at taken
  case registering =>
    obtain ⟨register, sent, rfl⟩ | ⟨panicked, rfl⟩ := onChannel_cases taken
    · exact .registers found place sent
    · exact .breaks rfl (.inl (Channel.send_eq_panics panicked))
  case startingWrite => cases taken; exact .moves rfl found (.startsWrite place)
  case startingRead => cases taken; exact .moves rfl found (.startsRead place)
  case returned => cases taken

theorem leaves_cases {s t : State} {a : Action} {i : Nat} {c c' : Client}
    (ofClient : a.ofRun = false) (found : s.clients[i]? = some c) (leaves : Client.Leaves c c')
    (taken : onChannel s (s.hub.unregister.send i) (fun unregister =>
      { s with hub := { s.hub with unregister := unregister }, clients := s.clients.set i c' }) =
      some t) : Step s a t := by
  obtain ⟨unregister, sent, rfl⟩ | ⟨panicked, rfl⟩ := onChannel_cases taken
  · exact .leaves ofClient found leaves sent
  · exact .breaks ofClient (.inr (.inl (Channel.send_eq_panics panicked)))

theorem stepWrite_cases {s t : State} {i : Nat} {c : Client} {ok : Bool}
    (found : s.clients[i]? = some c) (taken : s.stepWrite i c ok = some t) :
    Step s (.write i ok) t := by
  cases place : c.writePump <;> simp only [stepWrite, place] at taken
  case selecting =>
    obtain ⟨⟨message, send⟩, received, rfl⟩ | ⟨panicked, rfl⟩ := onChannel_cases taken
    · cases message with
      | some message => exact .moves rfl found (.receives place received)
      | none => exact .moves rfl found (.seesClosed place received)
    · exact absurd panicked Channel.receive_ne_panics
  case writing message =>
    split at taken
    · split at taken
      · cases taken
      · cases taken; exact .moves rfl found (.written place)
    · cases taken; exact .moves rfl found (.unwritten place)
  case closing => cases taken; exact .moves rfl found (.writeCloses place)
  case unregistering => exact leaves_cases rfl found (.write place) taken
  case unstarted => cases taken
  case ended => cases taken

theorem stepRead_cases {s t : State} {i : Nat} {c : Client} {ok : Bool}
    (found : s.clients[i]? = some c) (taken : s.stepRead i c ok = some t) :
    Step s (.read i ok) t := by
  cases place : c.readPump <;> simp only [stepRead, place] at taken
  case reading =>
    split at taken
    · split at taken
      · cases taken
      · cases taken; exact .reads rfl
    · cases taken; exact .moves rfl found (.unread place)
  case unregistering => exact leaves_cases rfl found (.read place) taken
  case closing => cases taken; exact .moves rfl found (.readCloses place)
  case unstarted => cases taken
  case ended => cases taken

theorem stepHub_cases {s t : State} {a : Action} (selecting : s.hub.run = .selecting)
    (taken : s.stepHub a = some t) : Step s a t := by
  cases a <;> simp only [stepHub] at taken
  case register =>
    split at taken
    case h_1 received => cases taken; exact .admits selecting received
    case h_2 => cases taken
  case unregister =>
    split at taken
    case h_1 received =>
      split at taken
      case isTrue member =>
        obtain ⟨c, found, rfl⟩ := Option.map_eq_some_iff.mp taken
        exact .removes selecting received member found
      case isFalse unknown => cases taken; exact .ignores selecting received unknown
    case h_2 => cases taken
  case broadcast =>
    split at taken
    case h_1 received => cases taken; exact .takes selecting received
    case h_2 => cases taken
  case cancel => cases taken; exact .cancels selecting
  all_goals cases taken

theorem step_cases {s t : State} {a : Action} (taken : s.step a = some t) : Step s a t := by
  unfold step at taken
  split at taken
  · cases taken
  · cases a <;> simp only at taken
    case accept => cases taken; exact .accepts
    case serve i =>
      obtain ⟨c, found, inner⟩ := Option.bind_eq_some_iff.mp taken
      exact stepServe_cases found inner
    case write i ok =>
      obtain ⟨c, found, inner⟩ := Option.bind_eq_some_iff.mp taken
      exact stepWrite_cases found inner
    case read i ok =>
      obtain ⟨c, found, inner⟩ := Option.bind_eq_some_iff.mp taken
      exact stepRead_cases found inner
    case publish message =>
      obtain ⟨broadcast, sent, rfl⟩ | ⟨panicked, rfl⟩ := onChannel_cases taken
      · exact .publishes sent
      · exact .breaks rfl (.inr (.inr (Channel.send_eq_panics panicked)))
    case visit i =>
      split at taken
      case h_1 running =>
        split at taken
        case isTrue waiting =>
          obtain ⟨c, found, rfl⟩ := Option.map_eq_some_iff.mp taken
          exact .visits running waiting found
        case isFalse => cases taken
      case h_2 => cases taken
    case finish =>
      split at taken
      case h_1 running => cases taken; exact .finishes running
      case h_2 => cases taken
    -- the other labels are those of the `select`
    all_goals
      split at taken
      case isTrue selecting => exact stepHub_cases selecting taken
      case isFalse => cases taken

end State

/-- Everything starts with a new hub and no client. -/
def system : Transition.System State Action where
  initial s := s = ⟨newHub, [], false⟩
  step := State.step

end GoQueue.Dashboard
