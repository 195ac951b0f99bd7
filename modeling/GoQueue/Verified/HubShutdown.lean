import GoQueue.Dashboard.Shutdown
import GoQueue.Verified.HubSafety

/-! # When the hub can be shut down

Once `Hub.Run` has returned `Shutdown` has the map for itself, and it closes each channel once.
While `Hub.Run` goes on there is always an order of the steps that closes a channel twice: a
client that has just joined leaves again after `Shutdown` has closed its channel and before it has
deleted it.

Between closing and deleting, the map has a client whose channel is closed.  Without that client
the state is sound, and no step of the other goroutines reads the map.
-/

namespace GoQueue.Dashboard

open Service

/-! ## The clients do not look at the map -/

theorem onChannel_withClients {β : Type} {s t : State} {outcome : Channel.Outcome β}
    {next next' : β → State} (clients : List Nat)
    (same : ∀ result, next' result = withClients (next result) clients)
    (taken : onChannel s outcome next = some t) :
    onChannel (withClients s clients) outcome next' = some (withClients t clients) := by
  cases outcome <;> simp only [onChannel, Option.some.injEq, reduceCtorEq] at taken ⊢
  case done result => rw [same, taken]
  case panics => rw [← taken]; rfl

theorem stepServe_withClients {s t : State} {i : Nat} {c : Client}
    (taken : s.stepServe i c = some t) (clients : List Nat) :
    (withClients s clients).stepServe i c = some (withClients t clients) := by
  cases place : c.serveWS <;> simp only [State.stepServe, place] at taken ⊢
  case registering => exact onChannel_withClients clients (fun _ => rfl) taken
  case returned => cases taken
  all_goals cases taken; rfl

theorem stepWrite_withClients {s t : State} {i : Nat} {c : Client} {ok : Bool}
    (taken : s.stepWrite i c ok = some t) (clients : List Nat) :
    (withClients s clients).stepWrite i c ok = some (withClients t clients) := by
  cases place : c.writePump <;> simp only [State.stepWrite, place] at taken ⊢
  case selecting =>
    refine onChannel_withClients clients (fun result => ?_) taken
    rcases result with ⟨_ | _, _⟩ <;> rfl
  case writing =>
    split at taken
    case isTrue written =>
      split at taken
      case isTrue => cases taken
      case isFalse isOpen => cases taken; rw [if_pos written, if_neg isOpen]; rfl
    case isFalse unwritten => cases taken; rw [if_neg unwritten]; rfl
  case unregistering => exact onChannel_withClients clients (fun _ => rfl) taken
  case closing => cases taken; rfl
  all_goals cases taken

theorem stepRead_withClients {s t : State} {i : Nat} {c : Client} {ok : Bool}
    (taken : s.stepRead i c ok = some t) (clients : List Nat) :
    (withClients s clients).stepRead i c ok = some (withClients t clients) := by
  cases place : c.readPump <;> simp only [State.stepRead, place] at taken ⊢
  case reading =>
    split at taken
    case isTrue arrived =>
      split at taken
      case isTrue => cases taken
      case isFalse isOpen => cases taken; rw [if_pos arrived, if_neg isOpen]
    case isFalse unread => cases taken; rw [if_neg unread]; rfl
  case unregistering => exact onChannel_withClients clients (fun _ => rfl) taken
  case closing => cases taken; rfl
  all_goals cases taken

theorem step_withClients {s t : State} {a : Action} (ofClient : a.ofRun = false)
    (taken : s.step a = some t) (clients : List Nat) :
    (withClients s clients).step a = some (withClients t clients) := by
  unfold State.step at taken ⊢
  split at taken
  case isTrue => cases taken
  case isFalse alive =>
    rw [if_neg (show ¬ (withClients s clients).panicked = true from alive)]
    cases a <;> simp only at taken ⊢
    case accept => cases taken; rfl
    case serve i =>
      obtain ⟨c, found, inner⟩ := Option.bind_eq_some_iff.mp taken
      exact Option.bind_eq_some_iff.mpr ⟨c, found, stepServe_withClients inner clients⟩
    case write i ok =>
      obtain ⟨c, found, inner⟩ := Option.bind_eq_some_iff.mp taken
      exact Option.bind_eq_some_iff.mpr ⟨c, found, stepWrite_withClients inner clients⟩
    case read i ok =>
      obtain ⟨c, found, inner⟩ := Option.bind_eq_some_iff.mp taken
      exact Option.bind_eq_some_iff.mpr ⟨c, found, stepRead_withClients inner clients⟩
    case publish message => exact onChannel_withClients clients (fun _ => rfl) taken
    all_goals cases ofClient

/-- The clients and the subscriber leave the map and the loop of `Hub.Run` alone. -/
theorem hub_of_client {s t : State} {a : Action} (ofClient : a.ofRun = false)
    (taken : s.step a = some t) : t.hub.clients = s.hub.clients ∧ t.hub.run = s.hub.run := by
  cases State.step_cases taken with
  | accepts | registers | moves | reads | leaves | publishes | breaks => exact ⟨rfl, rfl⟩
  | _ => cases ofClient

theorem ofRun_of_returned {s t : State} {a : Action} (returned : s.hub.run = .returned)
    (taken : s.step a = some t) : a.ofRun = false := by
  cases State.step_cases taken with
  | accepts | registers | publishes => rfl
  | moves ofClient | reads ofClient | leaves ofClient | breaks ofClient => exact ofClient
  | admits selecting | removes selecting | ignores selecting | takes selecting | cancels selecting =>
    rw [returned] at selecting
    cases selecting
  | visits running | finishes running =>
    rw [returned] at running
    cases running

/-! ## After `Hub.Run` has returned -/

/-- What the map will be once the client is deleted whose channel was just closed. -/
def Service.remaining (s : Service) : List Nat :=
  match s.shutdown with
  | .deleting _ i => s.state.hub.clients.erase i
  | .uncalled | .ranging _ | .returned => s.state.hub.clients

/-- The clients that `Shutdown` has to close are among those that it found. -/
def Service.Covers (s : Service) : Prop :=
  match s.shutdown with
  | .uncalled => True
  | .ranging found | .deleting found _ => s.state.hub.clients ⊆ found
  | .returned => s.state.hub.clients = []

structure Service.Orderly (s : Service) : Prop where
  returned : s.state.hub.run = .returned
  sound : (withClients s.state s.remaining).Sound
  covers : s.Covers

theorem Service.Orderly.step {s t : Service} {a : Service.Action} (orderly : s.Orderly)
    (taken : s.Step a t) : t.Orderly := by
  obtain ⟨returned, sound, covers⟩ := orderly
  cases taken with
  | @runs a t taken =>
    have ofClient := ofRun_of_returned returned taken
    obtain ⟨clients, run⟩ := hub_of_client ofClient taken
    refine ⟨run.trans returned, ?_, ?_⟩
    · have same : Service.remaining { s with state := t } = s.remaining := by
        simp only [Service.remaining, clients]
      rw [same]
      exact sound.step (step_withClients ofClient taken _)
    · simpa only [Service.Covers, clients] using covers
  | skips running =>
    rw [returned] at running
    cases running
  | cancels => exact ⟨returned, sound, covers⟩
  | calls _ place =>
    simp only [Service.remaining, place] at sound
    exact ⟨returned, sound, List.Subset.refl _⟩
  | @closes found i c place inMap known closed =>
    simp only [Service.remaining, Service.Covers, place] at sound covers
    refine ⟨returned, ?_, covers⟩
    have dropped := sound.drop s.state.hub.run known inMap sound.hub.opened.2.1 (fun _ _ => .rfl)
      (by rw [returned]; nofun)
    rw [State.drop_of_open closed] at dropped
    exact dropped
  | @closesAgain found i c place inMap known closed =>
    simp only [Service.remaining, place] at sound
    have isOpen := ((sound.each i c known).open_of_member inMap).2
    rw [isOpen] at closed
    cases closed
  | deletes place =>
    simp only [Service.remaining, Service.Covers, place] at sound covers
    exact ⟨returned, sound, fun k member => covers (List.mem_of_mem_erase member)⟩
  | @returns found place gone =>
    simp only [Service.remaining, Service.Covers, place] at sound covers
    exact ⟨returned, sound, List.eq_nil_iff_forall_not_mem.mpr fun i member =>
      gone i (covers member) member⟩

theorem Service.Orderly.reaches {s t : Service} (orderly : s.Orderly)
    (reaches : Service.system.Reaches anyStep s t) : t.Orderly :=
  reaches.invariant (P := Service.Orderly) (fun _ taken orderly => orderly.step (step_cases taken))
    orderly

/-! ## Before `Shutdown` is called -/

theorem hub_drop {s : State} (i : Nat) (c : Client) :
    (s.drop i c).hub.run = s.hub.run ∧ (s.drop i c).hub.register = s.hub.register ∧
      (s.drop i c).hub.unregister = s.hub.unregister := by
  unfold State.drop
  split <;> exact ⟨rfl, rfl, rfl⟩

/-- The hub's channels are as large as `NewHub` makes them. -/
def Hub.Ample (h : Hub) : Prop := h.register.capacity = 256 ∧ h.unregister.capacity = 256

theorem Hub.Ample.drop {s : State} {i : Nat} {c : Client} (ample : s.hub.Ample) :
    (s.drop i c).hub.Ample := by
  obtain ⟨_, register, unregister⟩ := hub_drop (s := s) i c
  simpa only [Hub.Ample, register, unregister] using ample

theorem Hub.Ample.step {s t : State} {a : Action} (ample : s.hub.Ample)
    (taken : s.step a = some t) : t.hub.Ample := by
  have sent {i : Nat} {c c' : Channel Nat} (sent : c.send i = .done c') :
      c'.capacity = c.capacity := by
    rw [(Channel.send_eq_done sent).2]
  have received {i : Nat} {c c' : Channel Nat} (received : c.receive = .done (some i, c')) :
      c'.capacity = c.capacity := by
    rw [(Channel.receive_eq_some received).2]
  cases State.step_cases taken with
  | accepts | moves | reads | publishes | takes | finishes | cancels | breaks => exact ample
  | registers _ _ into => exact ⟨(sent into).trans ample.1, ample.2⟩
  | leaves _ _ _ into => exact ⟨ample.1, (sent into).trans ample.2⟩
  | admits _ out => exact ⟨(received out).trans ample.1, ample.2⟩
  | removes _ out => exact .drop ⟨ample.1, (received out).trans ample.2⟩
  | ignores _ out => exact ⟨ample.1, (received out).trans ample.2⟩
  | visits =>
    simp only [State.stepVisit]
    split
    · exact ample
    · exact .drop ample
    · exact ample

/-- The service as it is until `Shutdown` is called. -/
structure Service.Serves (s : Service) : Prop where
  uncalled : s.shutdown = .uncalled
  sound : s.state.Sound
  ample : s.state.hub.Ample

theorem Service.Serves.runs {s : Service} {t : State} {a : Dashboard.Action} (serves : s.Serves)
    (taken : s.state.step a = some t) : Service.Serves { s with state := t } :=
  ⟨serves.uncalled, serves.sound.step taken, serves.ample.step taken⟩

theorem Service.Serves.orderly {s : Service} (serves : s.Serves)
    (returned : s.state.hub.run = .returned) : s.Orderly where
  returned := returned
  sound := by
    simp only [Service.remaining, serves.uncalled]
    exact serves.sound
  covers := by simp only [Service.Covers, serves.uncalled]

theorem Service.serves_of_reachable {s : Service} (reachable : Service.system.Reachable anyStep s)
    (uncalled : s.shutdown = .uncalled) : s.Serves := by
  refine reachable.invariant (P := fun s => s.shutdown = .uncalled → s.Serves) ?_ ?_ uncalled
  · rintro _ rfl _
    exact ⟨rfl, State.sound_of_reachable ⟨_, rfl, .refl _⟩, rfl, rfl⟩
  · intro s a t _ _ taken inductionHypothesis uncalled
    cases step_cases taken with
    | runs inner => exact (inductionHypothesis uncalled).runs inner
    | skips running waiting gone =>
      exact absurd (((inductionHypothesis uncalled).sound.hub.visiting running).2 waiting) gone
    | cancels =>
      obtain ⟨_, sound, ample⟩ := inductionHypothesis uncalled
      exact ⟨uncalled, sound, ample⟩
    | closesAgain place =>
      have place' : s.shutdown = .uncalled := uncalled
      rw [place] at place'
      cases place'
    | calls | closes | deletes | returns => cases uncalled

/-! ## How a panic comes about while `Hub.Run` goes on -/

/-- What `Hub.Run` has to do before it waits for the clients. -/
def Hub.backlog (h : Hub) : Nat :=
  (match h.run with
    | .broadcasting _ rest => rest.length + 1
    | .selecting | .returned => 0) + h.register.buffer.length + h.unregister.buffer.length

/-- The service between the end of the context and the call of `Shutdown`. -/
structure Service.Ends (s : Service) : Prop extends s.Serves where
  done : s.ctxDone = true
  running : s.state.hub.run ≠ .returned

/-- `Hub.Run` waits, and nobody has anything for it. -/
structure Service.Drained (s : Service) : Prop extends s.Ends where
  selecting : s.state.hub.run = .selecting
  registered : s.state.hub.register.buffer = []
  unregistered : s.state.hub.unregister.buffer = []

abbrev Service.Panics (s : Service) : Prop :=
  Service.system.CanReach anyStep (fun t => t.state.panicked = true) s

theorem Service.step_run {s : Service} {t : State} {a : Dashboard.Action} (sound : s.state.Sound)
    (taken : s.state.step a = some t) (allowed : a ≠ .cancel)
    (visits : ∀ i, a = .visit i → i ∈ s.state.hub.clients) :
    Service.system.step s (.run a) = some { s with state := t } := by
  have alive : s.state.panicked = false := sound.alive
  cases a <;> simp_all [Service.system, Service.step, Service.stepRun]

theorem hub_stepVisit {s : State} (message : Message) (rest : List Nat) (i : Nat) (c : Client) :
    (s.stepVisit message rest i c).hub.run = .broadcasting message (rest.erase i) ∧
      (s.stepVisit message rest i c).hub.register = s.hub.register ∧
      (s.stepVisit message rest i c).hub.unregister = s.hub.unregister := by
  simp only [State.stepVisit]
  split
  · exact ⟨rfl, rfl, rfl⟩
  · exact hub_drop i c
  · exact ⟨rfl, rfl, rfl⟩

/-- A step of `Hub.Run` that leaves it less to do. -/
def Service.Advances (s : Service) : Prop :=
  ∃ (a : Dashboard.Action) (t : State), a ≠ .cancel ∧
    (∀ i, a = .visit i → i ∈ s.state.hub.clients) ∧ s.state.step a = some t ∧
    t.hub.run ≠ .returned ∧ t.hub.backlog < s.state.hub.backlog

theorem Service.Ends.advances_broadcast {s : Service} (ends : s.Ends) {message : Message}
    {rest : List Nat} (running : s.state.hub.run = .broadcasting message rest) : s.Advances := by
  have alive : s.state.panicked = false := ends.sound.alive
  cases rest with
  | nil =>
    refine ⟨.finish, { s.state with hub := { s.state.hub with run := .selecting } }, by simp,
      by simp, by simp [State.step, alive, running], by simp, by simp [Hub.backlog, running]⟩
  | cons i rest =>
    have inMap := (ends.sound.hub.visiting running).2 (List.mem_cons_self ..)
    have bound := ends.sound.hub.members i inMap
    obtain ⟨run, register, unregister⟩ :=
      hub_stepVisit (s := s.state) message (i :: rest) i s.state.clients[i]
    refine ⟨.visit i, s.state.stepVisit message (i :: rest) i s.state.clients[i], by simp,
      by simpa using inMap, ?_, by simp [run], ?_⟩
    · simp [State.step, alive, running, List.getElem?_eq_getElem bound]
    · simp [Hub.backlog, running, run, register, unregister]

theorem Service.Ends.advances_register {s : Service} (ends : s.Ends) {i : Nat} {rest : List Nat}
    (selecting : s.state.hub.run = .selecting)
    (waiting : s.state.hub.register.buffer = i :: rest) : s.Advances := by
  have alive : s.state.panicked = false := ends.sound.alive
  refine ⟨.register, { s.state with hub := { s.state.hub with
      register := { s.state.hub.register with buffer := rest },
      clients := s.state.hub.clients.insert i } }, by simp, by simp, ?_, by simp [selecting], ?_⟩
  · simp [State.step, alive, selecting, State.stepHub, Channel.receive, waiting]
  · simp [Hub.backlog, selecting, waiting]

theorem Service.Ends.advances_unregister {s : Service} (ends : s.Ends) {i : Nat} {rest : List Nat}
    (selecting : s.state.hub.run = .selecting)
    (leaving : s.state.hub.unregister.buffer = i :: rest) : s.Advances := by
  have alive : s.state.panicked = false := ends.sound.alive
  let received : State := { s.state with hub := { s.state.hub with
    unregister := { s.state.hub.unregister with buffer := rest } } }
  by_cases inMap : i ∈ s.state.hub.clients
  · have bound := ends.sound.hub.members i inMap
    obtain ⟨run, register, unregister⟩ := hub_drop (s := received) i s.state.clients[i]
    refine ⟨.unregister, received.drop i s.state.clients[i], by simp, by simp, ?_, ?_, ?_⟩
    · simp [State.step, alive, selecting, State.stepHub, Channel.receive, leaving, inMap,
        List.getElem?_eq_getElem bound, received]
    · rw [run]
      simp [received, selecting]
    · simp only [Hub.backlog, run, register, unregister]
      simp [received, selecting, leaving]
  · refine ⟨.unregister, received, by simp, by simp, ?_, by simp [received, selecting], ?_⟩
    · simp [State.step, alive, selecting, State.stepHub, Channel.receive, leaving, inMap, received]
    · simp [Hub.backlog, received, selecting, leaving]

theorem Service.Ends.advance {s : Service} (ends : s.Ends) : s.Drained ∨ s.Advances := by
  cases running : s.state.hub.run with
  | returned => exact absurd running ends.running
  | broadcasting message rest => exact .inr (ends.advances_broadcast running)
  | selecting =>
    cases waiting : s.state.hub.register.buffer with
    | cons i rest => exact .inr (ends.advances_register running waiting)
    | nil =>
      cases leaving : s.state.hub.unregister.buffer with
      | cons i rest => exact .inr (ends.advances_unregister running leaving)
      | nil => exact .inl ⟨ends, running, waiting, leaving⟩

theorem Service.Ends.drains {s : Service} (ends : s.Ends) :
    Service.system.CanReach anyStep Service.Drained s := by
  refine .of_rank (I := Service.Ends) (fun s => s.state.hub.backlog) (fun s ends => ?_) ends
  cases ends.advance with
  | inl drained => exact .inl (.here drained)
  | inr further =>
    obtain ⟨a, t, allowed, visits, taken, running, lower⟩ := further
    exact .inr ⟨.run a, _, trivial, step_run ends.sound taken allowed visits,
      ⟨ends.toServes.runs taken, ends.done, running⟩, lower⟩

theorem Service.Ends.run {s : Service} {t : State} (ends : s.Ends) (a : Dashboard.Action)
    (taken : s.state.step a = some t) (allowed : a ≠ .cancel) (visits : ∀ i, a ≠ .visit i)
    (running : t.hub.run ≠ .returned)
    (later : Service.Ends { s with state := t } → Panics { s with state := t }) : s.Panics := by
  refine .after trivial (step_run ends.sound taken allowed fun i visit => absurd visit (visits i)) ?_
  exact later ⟨ends.toServes.runs taken, ends.done, running⟩

/-- The service after `Shutdown` has closed a client's channel. -/
def Service.closing (s : Service) (i : Nat) (c : Client) : Service :=
  { s with
    state := s.state.setClient i
      { c with send := { c.send with closed := true }, uses := c.uses ++ [.closed] },
    shutdown := .deleting s.state.hub.clients i }

/-- `Shutdown` closes the channel of a client of the map, and before it deletes the client
`Hub.Run` comes to the client's unregister message. -/
theorem Service.Ends.panics_of_leaving {s : Service} {i : Nat} {c : Client} (ends : s.Ends)
    (selecting : s.state.hub.run = .selecting) (leaving : s.state.hub.unregister.buffer = [i])
    (inMap : i ∈ s.state.hub.clients) (known : s.state.clients[i]? = some c) : s.Panics := by
  have alive : s.state.panicked = false := ends.sound.alive
  have isOpen := ((ends.sound.each i c known).open_of_member inMap).2
  obtain ⟨bound, -⟩ := List.getElem?_eq_some_iff.mp known
  have ⟨t, twice, panicked⟩ : ∃ t, Service.system.step (s.closing i c) (.run .unregister) = some t ∧
      t.state.panicked = true := by
    simp [Service.system, Service.step, Service.closing, Service.stepRun, State.setClient,
      State.step, State.stepHub, State.drop, Channel.receive, Channel.close, alive, selecting,
      leaving, inMap, bound]
  refine .after (a := .call) (t := { s with shutdown := .ranging s.state.hub.clients }) trivial ?_ ?_
  · simp [Service.system, Service.step, Service.stepShutdown, alive, ends.done, ends.uncalled]
  refine .after (a := .close i) (t := s.closing i c) trivial ?_ (.after trivial twice (.here panicked))
  simp [Service.system, Service.step, Service.stepShutdown, Service.closing, alive, inMap, known,
    Channel.close_of_open isOpen]

theorem Service.Ends.panics_of_unread {s : Service} {i : Nat} {c : Client} (ends : s.Ends)
    (selecting : s.state.hub.run = .selecting) (unregistered : s.state.hub.unregister.buffer = [])
    (inMap : i ∈ s.state.hub.clients) (known : s.state.clients[i]? = some c)
    (place : c.readPump = .unregistering) : s.Panics := by
  have alive : s.state.panicked = false := ends.sound.alive
  have isOpen := ends.sound.hub.opened.2.1
  have ample := ends.ample.2
  obtain ⟨bound, -⟩ := List.getElem?_eq_some_iff.mp known
  refine ends.run (.read i true) (t := { s.state with
      hub := { s.state.hub with unregister := { s.state.hub.unregister with buffer := [i] } },
      clients := s.state.clients.set i { c with readPump := .closing } })
    ?_ (by simp) (by simp) (by simp [selecting]) fun ends' => ?_
  · simp [State.step, alive, known, State.stepRead, place, onChannel, Channel.send, isOpen,
      unregistered, ample]
  · exact ends'.panics_of_leaving selecting rfl inMap (List.getElem?_set_self bound)

theorem Service.Ends.panics_of_reading {s : Service} {i : Nat} {c : Client} (ends : s.Ends)
    (selecting : s.state.hub.run = .selecting) (unregistered : s.state.hub.unregister.buffer = [])
    (inMap : i ∈ s.state.hub.clients) (known : s.state.clients[i]? = some c)
    (place : c.readPump = .reading) : s.Panics := by
  have alive : s.state.panicked = false := ends.sound.alive
  obtain ⟨bound, -⟩ := List.getElem?_eq_some_iff.mp known
  refine ends.run (.read i false) (t := s.state.setClient i { c with readPump := .unregistering })
    ?_ (by simp) (by simp) ends.running fun ends' => ?_
  · simp [State.step, alive, known, State.stepRead, place]
  · exact ends'.panics_of_unread selecting unregistered inMap (List.getElem?_set_self bound) rfl

/-- A client that has just been registered. -/
theorem Service.Ends.panics_of_starting {s : Service} {i : Nat} {c : Client} (ends : s.Ends)
    (selecting : s.state.hub.run = .selecting) (unregistered : s.state.hub.unregister.buffer = [])
    (inMap : i ∈ s.state.hub.clients) (known : s.state.clients[i]? = some c)
    (place : c.serveWS = .startingWrite) : s.Panics := by
  have alive : s.state.panicked = false := ends.sound.alive
  obtain ⟨bound, -⟩ := List.getElem?_eq_some_iff.mp known
  refine ends.run (.serve i)
    (t := s.state.setClient i { c with serveWS := .startingRead, writePump := .selecting })
    ?_ (by simp) (by simp) ends.running fun ends' => ?_
  · simp [State.step, alive, known, State.stepServe, place]
  refine ends'.run (.serve i)
    (t := s.state.setClient i
      { c with serveWS := .returned, writePump := .selecting, readPump := .reading })
    ?_ (by simp) (by simp) ends.running fun ends' => ?_
  · simp [State.step, State.setClient, alive, bound, State.stepServe]
  · exact ends'.panics_of_reading selecting unregistered inMap (List.getElem?_set_self bound) rfl

theorem Service.Drained.panics {s : Service} (drained : s.Drained) : s.Panics := by
  have ends := drained.toEnds
  have alive : s.state.panicked = false := ends.sound.alive
  have isOpen := ends.sound.hub.opened.1
  have ample := ends.ample.1
  have selecting := drained.selecting
  have registered := drained.registered
  refine ends.run .accept (t := { s.state with clients := s.state.clients ++ [.new] })
    (by simp [State.step, alive]) (by simp) (by simp) ends.running fun ends => ?_
  refine ends.run (.serve s.state.clients.length) (t := { s.state with
      hub := { s.state.hub with
        register := { s.state.hub.register with buffer := [s.state.clients.length] } },
      clients := (s.state.clients ++ [Client.new]).set s.state.clients.length
        { Client.new with serveWS := .startingWrite } })
    ?_ (by simp) (by simp) ends.running fun ends => ?_
  · simp [State.step, alive, State.stepServe, Client.new, onChannel, Channel.send, isOpen,
      registered, ample]
  refine ends.run .register (t := { s.state with
      hub := { s.state.hub with
        register := { s.state.hub.register with buffer := [] },
        clients := s.state.hub.clients.insert s.state.clients.length },
      clients := (s.state.clients ++ [Client.new]).set s.state.clients.length
        { Client.new with serveWS := .startingWrite } })
    ?_ (by simp) (by simp) ends.running fun ends => ?_
  · simp [State.step, alive, selecting, State.stepHub, Channel.receive]
  · refine ends.panics_of_starting (c := { Client.new with serveWS := .startingWrite }) selecting
      drained.unregistered List.mem_insert_self ?_ rfl
    exact List.getElem?_set_self (by simp)

/-! ## The two results -/

/-- Once the context is cancelled and before `Shutdown` is called, a panic can follow exactly if
`Hub.Run` has not returned. -/
theorem shutdown_panics_iff {s : Service} (reachable : Service.system.Reachable anyStep s)
    (done : s.ctxDone = true) (uncalled : s.shutdown = .uncalled) :
    Service.system.CanReach anyStep (fun t => t.state.panicked = true) s ↔
      s.state.hub.run ≠ .returned := by
  have serves := Service.serves_of_reachable reachable uncalled
  constructor
  · rintro ⟨t, reaches, panicked⟩ returned
    have orderly := (serves.orderly returned).reaches reaches
    have alive : t.state.panicked = false := orderly.sound.alive
    rw [alive] at panicked
    cases panicked
  · intro running
    have ends : s.Ends := ⟨serves, done, running⟩
    exact ends.drains.bind fun _ _ drained => drained.panics

theorem shutdown_panics_iff_serving : ∃ s, Service.system.Reachable anyStep s ∧
    s.state.hub.clients = [] ∧
    Service.system.CanReach anyStep (fun t => t.state.panicked = true) s := by
  have ⟨s, reachable, done, uncalled, running, empty⟩ :
      ∃ s, Service.system.Reachable anyStep s ∧ s.ctxDone = true ∧ s.shutdown = .uncalled ∧
        s.state.hub.run ≠ .returned ∧ s.state.hub.clients = [] :=
    Transition.System.exists_reachable_of_exec [.cancel] rfl (by decide)
  exact ⟨s, reachable, empty, (shutdown_panics_iff reachable done uncalled).mpr running⟩

/-- If `Hub.Run` had returned when `Shutdown` was called, then when `Shutdown` returns the map is
empty, and of every connection the channel is closed, by one close that was its last use, exactly
if the hub had come to its registration. -/
theorem shutdown_closes_each {s t : Service} (reachable : Service.system.Reachable anyStep s)
    (uncalled : s.shutdown = .uncalled) (returned : s.state.hub.run = .returned)
    (reaches : Service.system.Reaches anyStep s t) (ended : t.shutdown = .returned) :
    t.state.panicked = false ∧ t.state.hub.clients = [] ∧
      ∀ i c, t.state.clients[i]? = some c →
        if c.serveWS = .registering ∨ i ∈ t.state.hub.register.buffer then .closed ∉ c.uses
        else ∃ before, .closed ∉ before ∧ c.uses = before ++ [.closed] := by
  have serves := Service.serves_of_reachable reachable uncalled
  obtain ⟨_, sound, covers⟩ := (serves.orderly returned).reaches reaches
  simp only [Service.remaining, Service.Covers, ended] at sound covers
  have alive : t.state.panicked = false := sound.alive
  refine ⟨alive, covers, fun i c known => ?_⟩
  have standing : Standing c (i ∈ t.state.hub.clients) (i ∈ t.state.hub.register.buffer)
    (i ∈ t.state.hub.unregister.buffer) := sound.each i c known
  split
  case isTrue awaits => exact standing.fine.whileOpen (standing.unused awaits).2.1
  case isFalse handled =>
    refine standing.fine.onceClosed ?_
    simpa [covers] using standing.known handled

theorem shutdown_closes_each_registered : ∃ s t, Service.system.Reaches anyStep s t ∧
    s.state.hub.clients = [0] ∧ t.shutdown = .returned ∧ t.state.hub.clients = [] := by
  have ⟨s, reachable, uncalled, returned, clients, executed⟩ :
      ∃ s, Service.system.Reachable anyStep s ∧ s.shutdown = .uncalled ∧
        s.state.hub.run = .returned ∧ s.state.hub.clients = [0] ∧
        (Service.system.exec anyStep s [.call, .close 0, .delete, .returns]).any
          (fun t => t.shutdown = .returned) = true :=
    Transition.System.exists_reachable_of_exec
      [.run .accept, .run (.serve 0), .run .register, .cancel, .run .cancel] rfl (by decide)
  simp only [Option.any_eq_true, decide_eq_true_eq] at executed
  obtain ⟨t, executed, ended⟩ := executed
  have reaches := Transition.System.reaches_of_exec executed
  exact ⟨s, t, reaches, clients, ended,
    (shutdown_closes_each reachable uncalled returned reaches ended).2.1⟩

end GoQueue.Dashboard
