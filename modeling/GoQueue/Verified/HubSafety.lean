import Mathlib.Data.List.Nodup
import GoQueue.Dashboard.Hub

/-! # The hub never uses a closed channel and keeps no client that is gone

A client's messages reach the hub through two channels, so its unregister messages may be
handled before its register message; a broadcast may drop it in between.  What the hub knows of
a client is therefore described by three facts only: whether it is in the map, and whether a
register or an unregister message of it is pending.  `Standing` ties them to the client's own
state, and each kind of step changes them in one way.

The point on which everything rests is `Standing.unused`: until the hub has handled the register
message nothing has been sent to the client, so its `writePump` still waits and cannot have
ended.  The unregister message of `writePump` is thus always handled after the client was
registered.
-/

namespace GoQueue.Dashboard

/-! ## One client -/

/-- The send channel was closed once, by its last use, or not at all. -/
structure Client.Sealed (c : Client) : Prop where
  whileOpen : c.send.closed = false → .closed ∉ c.uses
  onceClosed : c.send.closed = true → ∃ before, .closed ∉ before ∧ c.uses = before ++ [.closed]

/-- The register message of a client has not been handled. -/
def Client.Awaits (c : Client) (waiting : Prop) : Prop := c.serveWS = .registering ∨ waiting

/-- How a client stands that is in the hub's map (`member`), or has a message in the register
channel (`waiting`) or in the unregister channel (`leaving`). -/
structure Standing (c : Client) (member waiting leaving : Prop) : Prop where
  unsent : c.serveWS = .registering → c.writePump = .unstarted ∧ ¬ waiting
  unused : c.Awaits waiting → ¬ member ∧ c.send.closed = false ∧ c.send.buffer = [] ∧
    (c.writePump = .unstarted ∨ c.writePump = .selecting)
  known : ¬ c.Awaits waiting → (member ↔ c.send.closed = false)
  ended : c.writePump = .ended → leaving ∨ c.send.closed = true
  fine : c.Sealed

namespace Standing

variable {c c' : Client} {member waiting leaving : Prop}

theorem new {leaving : Prop} : Standing .new False False leaving where
  unsent _ := ⟨rfl, id⟩
  unused _ := ⟨id, rfl, rfl, .inl rfl⟩
  known handled := absurd (.inl rfl) handled
  ended finished := nomatch finished
  fine := ⟨fun _ => by simp [Client.new], nofun⟩

theorem registered (standing : Standing c member waiting leaving)
    (registering : c.serveWS = .registering) :
    Standing { c with serveWS := .startingWrite } member True leaving where
  unsent := nofun
  unused _ := standing.unused (.inl registering)
  known handled := absurd (.inr trivial) handled
  ended := standing.ended
  fine := ⟨standing.fine.whileOpen, standing.fine.onceClosed⟩

/-- A client whose register message is pending has nothing to receive. -/
theorem handled_of_receive (standing : Standing c member waiting leaving) {result}
    (received : c.send.receive = .done result) : ¬ c.Awaits waiting := by
  intro awaits
  obtain ⟨-, isOpen, empty, -⟩ := standing.unused awaits
  simp [Channel.receive, isOpen, empty] at received

/-- A client whose `writePump` is past its first message has been registered. -/
theorem handled_of_writePump (standing : Standing c member waiting leaving)
    (started : c.writePump ≠ .unstarted) (left : c.writePump ≠ .selecting) :
    ¬ c.Awaits waiting := by
  intro awaits
  obtain ⟨-, -, -, still⟩ := standing.unused awaits
  cases still with
  | inl still => exact started still
  | inr still => exact left still

/-- A step of `writePump` that leaves the channel open or closed as it was. -/
theorem writes (standing : Standing c member waiting leaving) (handled : ¬ c.Awaits waiting)
    {send : Channel Message} {connClosed : Bool} {writePump : WritePump}
    (same : send.closed = c.send.closed) (going : writePump ≠ .ended) :
    Standing { c with send := send, connClosed := connClosed, writePump := writePump }
      member waiting leaving where
  unsent registering := absurd (.inl registering) handled
  unused awaits := absurd awaits handled
  known _ := by
    simp only [same]
    exact standing.known handled
  ended finished := absurd finished going
  fine := by
    constructor <;> simp only [same]
    · exact standing.fine.whileOpen
    · exact standing.fine.onceClosed

/-- Nothing depends on what `readPump` does. -/
theorem reads (standing : Standing c member waiting leaving) {connClosed : Bool}
    {readPump : ReadPump} :
    Standing { c with connClosed := connClosed, readPump := readPump } member waiting leaving :=
  ⟨standing.unsent, standing.unused, standing.known, standing.ended,
    standing.fine.whileOpen, standing.fine.onceClosed⟩

theorem moved (standing : Standing c member waiting leaving) (moves : c.Moves c') :
    Standing c' member waiting leaving := by
  have handled (started : c.writePump ≠ .unstarted) (left : c.writePump ≠ .selecting) :=
    standing.handled_of_writePump started left
  cases moves with
  | startsWrite place =>
    refine ⟨nofun, fun awaits => ?_, fun notYet => ?_, nofun,
      standing.fine.whileOpen, standing.fine.onceClosed⟩
    · obtain ⟨unknown, isOpen, empty, -⟩ := standing.unused (awaits.imp nofun id)
      exact ⟨unknown, isOpen, empty, .inr rfl⟩
    · refine standing.known fun awaits => notYet (awaits.imp (fun registering => ?_) id)
      cases place.symm.trans registering
  | startsRead place =>
    refine ⟨nofun, fun awaits => standing.unused (awaits.imp nofun id), fun notYet => ?_,
      standing.ended, standing.fine.whileOpen, standing.fine.onceClosed⟩
    refine standing.known fun awaits => notYet (awaits.imp (fun registering => ?_) id)
    cases place.symm.trans registering
  | receives place received =>
    have := (Channel.receive_eq_some received).2
    exact standing.writes (standing.handled_of_receive received) (by rw [this]) nofun
  | seesClosed place received =>
    exact standing.writes (standing.handled_of_receive received) rfl nofun
  | written place => exact standing.writes (handled (by simp [place]) (by simp [place])) rfl nofun
  | unwritten place => exact standing.writes (handled (by simp [place]) (by simp [place])) rfl nofun
  | writeCloses place =>
    exact standing.writes (handled (by simp [place]) (by simp [place])) rfl nofun
  | unread place => exact standing.reads
  | readCloses place => exact standing.reads

theorem left (standing : Standing c member waiting leaving) (leaves : c.Leaves c') :
    Standing c' member waiting True := by
  cases leaves with
  | write place =>
    have handled := standing.handled_of_writePump (by simp [place]) (by simp [place])
    exact ⟨fun registering => absurd (.inl registering) handled,
      fun awaits => absurd awaits handled, standing.known, fun _ => .inl trivial,
      standing.fine.whileOpen, standing.fine.onceClosed⟩
  | read place =>
    exact ⟨standing.unsent, standing.unused, standing.known, fun _ => .inl trivial,
      standing.fine.whileOpen, standing.fine.onceClosed⟩

theorem admitted (standing : Standing c member True leaving) : Standing c True False leaving := by
  obtain ⟨-, isOpen, -, -⟩ := standing.unused (.inr trivial)
  have sent : c.serveWS ≠ .registering := fun registering =>
    (standing.unsent registering).2 trivial
  exact ⟨fun registering => absurd registering sent,
    fun awaits => absurd awaits (by simp [Client.Awaits, sent]),
    fun _ => by simp [isOpen], standing.ended, standing.fine⟩

/-- A client of the map is registered and its channel is open. -/
theorem open_of_member (standing : Standing c member waiting leaving) (inMap : member) :
    ¬ c.Awaits waiting ∧ c.send.closed = false := by
  have handled : ¬ c.Awaits waiting := fun awaits => (standing.unused awaits).1 inMap
  exact ⟨handled, (standing.known handled).mp inMap⟩

theorem dropped (standing : Standing c member waiting leaving) (inMap : member)
    {leaving' : Prop} :
    Standing { c with send := { c.send with closed := true }, uses := c.uses ++ [.closed] }
      False waiting leaving' := by
  obtain ⟨handled, isOpen⟩ := standing.open_of_member inMap
  exact ⟨fun registering => absurd (.inl registering) handled, fun awaits => absurd awaits handled,
    fun _ => by simp, fun _ => .inr rfl,
    nofun, fun _ => ⟨c.uses, standing.fine.whileOpen isOpen, rfl⟩⟩

/-- An unregister message of a client that is not in the map can be forgotten. -/
theorem forgotten (standing : Standing c member waiting leaving) (unknown : ¬ member)
    {leaving' : Prop} : Standing c member waiting leaving' where
  unsent := standing.unsent
  unused := standing.unused
  known := standing.known
  ended finished := by
    have handled := standing.handled_of_writePump (by simp [finished]) (by simp [finished])
    right
    simpa [unknown] using standing.known handled
  fine := standing.fine

theorem sent (standing : Standing c member waiting leaving) (inMap : member) (message : Message) :
    Standing { c with send := { c.send with buffer := c.send.buffer ++ [message] },
                      uses := c.uses ++ [.sent] } member waiting leaving := by
  obtain ⟨handled, isOpen⟩ := standing.open_of_member inMap
  exact ⟨fun registering => absurd (.inl registering) handled, fun awaits => absurd awaits handled,
    standing.known, standing.ended, fun _ => by simpa using standing.fine.whileOpen isOpen,
    fun closed => by simp [isOpen] at closed⟩

end Standing

/-! ## The hub -/

/-- Every client stands as the hub's map and channels say. -/
def Accounted (h : Hub) (clients : List Client) : Prop :=
  ∀ i c, clients[i]? = some c →
    Standing c (i ∈ h.clients) (i ∈ h.register.buffer) (i ∈ h.unregister.buffer)

structure Hub.Sound (h : Hub) (accepted : Nat) : Prop where
  opened : h.register.closed = false ∧ h.unregister.closed = false ∧ h.broadcast.closed = false
  distinct : h.clients.Nodup
  once : h.register.buffer.Nodup
  members : ∀ i ∈ h.clients, i < accepted
  waiting : ∀ i ∈ h.register.buffer, i < accepted
  visiting : ∀ {message rest}, h.run = .broadcasting message rest → rest.Nodup ∧ rest ⊆ h.clients

structure State.Sound (s : State) : Prop where
  alive : s.panicked = false
  hub : s.hub.Sound s.clients.length
  each : Accounted s.hub s.clients

/-! ## The steps -/

/-- The map and the channels say the same of every client but one. -/
def Hub.AgreesOff (h h' : Hub) (i : Nat) : Prop :=
  ∀ k, k ≠ i → (k ∈ h'.clients ↔ k ∈ h.clients) ∧
    (k ∈ h'.register.buffer ↔ k ∈ h.register.buffer) ∧
    (k ∈ h'.unregister.buffer ↔ k ∈ h.unregister.buffer)

theorem Hub.AgreesOff.same {h : Hub} {i : Nat} : h.AgreesOff h i := fun _ _ => ⟨.rfl, .rfl, .rfl⟩

/-- A step that concerns one client: only its own standing is at stake. -/
theorem Accounted.change {h h' : Hub} {clients clients' : List Client} {i : Nat}
    (accounted : Accounted h clients) (agrees : h.AgreesOff h' i)
    (others : ∀ k, k ≠ i → clients'[k]? = clients[k]?)
    (own : ∀ c', clients'[i]? = some c' →
      Standing c' (i ∈ h'.clients) (i ∈ h'.register.buffer) (i ∈ h'.unregister.buffer)) :
    Accounted h' clients' := by
  intro k c found
  by_cases same : k = i
  · subst same
    exact own c found
  · obtain ⟨inMap, inRegister, inUnregister⟩ := agrees k same
    rw [others k same] at found
    rw [inMap, inRegister, inUnregister]
    exact accounted k c found

theorem Accounted.set {h h' : Hub} {clients : List Client} {i : Nat} {c' : Client}
    (accounted : Accounted h clients) (agrees : h.AgreesOff h' i)
    (own : Standing c' (i ∈ h'.clients) (i ∈ h'.register.buffer) (i ∈ h'.unregister.buffer)) :
    Accounted h' (clients.set i c') := by
  refine accounted.change agrees (fun k different => List.getElem?_set_ne different.symm) ?_
  intro c found
  rw [List.getElem?_set_self'] at found
  obtain ⟨_, -, rfl⟩ := Option.map_eq_some_iff.mp found
  exact own

namespace State

variable {s t : State} {a : Action}

theorem drop_of_open {i : Nat} {c : Client} (isOpen : c.send.closed = false) :
    s.drop i c =
      { s with hub := { s.hub with clients := s.hub.clients.erase i },
               clients := s.clients.set i { c with
                 send := { c.send with closed := true }, uses := c.uses ++ [.closed] } } := by
  simp [drop, Channel.close_of_open isOpen]

/-- A client of the map is dropped without a panic, whatever the loop has left to visit. -/
theorem Sound.drop (sound : s.Sound) (run : Run) {i : Nat} {c : Client}
    (found : s.clients[i]? = some c) (inMap : i ∈ s.hub.clients) {unregister : Channel Nat}
    (opened : unregister.closed = false)
    (agrees : ∀ k, k ≠ i → (k ∈ unregister.buffer ↔ k ∈ s.hub.unregister.buffer))
    (visiting : ∀ {message rest}, run = .broadcasting message rest →
      rest.Nodup ∧ rest ⊆ s.hub.clients.erase i) :
    (State.drop { s with hub := { s.hub with unregister := unregister, run := run } } i c).Sound := by
  have standing := sound.each i c found
  rw [drop_of_open (standing.open_of_member inMap).2]
  refine ⟨sound.alive, ?_, ?_⟩
  · have old := sound.hub
    refine ⟨⟨old.opened.1, opened, old.opened.2.2⟩, old.distinct.erase i, old.once, ?_, ?_, visiting⟩
    · simp only [List.length_set]
      exact fun k member => old.members k (List.mem_of_mem_erase member)
    · simpa only [List.length_set] using old.waiting
  · refine sound.each.set (fun k different => ⟨?_, .rfl, agrees k different⟩) ?_
    · exact List.mem_erase_of_ne different
    · have gone : (i ∈ s.hub.clients.erase i) = False := by
        simp [sound.hub.distinct.mem_erase_iff]
      simp only [gone]
      exact standing.dropped inMap

theorem Sound.accepted (sound : s.Sound) :
    State.Sound { s with clients := s.clients ++ [.new] } := by
  have old := sound.hub
  refine ⟨sound.alive, ?_, ?_⟩
  · rw [List.length_append]
    exact { old with
      members := fun k member => Nat.lt_add_right _ (old.members k member)
      waiting := fun k later => Nat.lt_add_right _ (old.waiting k later) }
  · refine sound.each.change (i := s.clients.length) .same ?_ ?_
    · intro k different
      grind
    · intro c found
      obtain rfl : c = .new := by simpa using found.symm
      have unknown := mt (old.members s.clients.length) (Nat.lt_irrefl _)
      have unheard := mt (old.waiting s.clients.length) (Nat.lt_irrefl _)
      simpa only [unknown, unheard] using Standing.new

/-- The identifier is new to the buffer, since a client registers once. -/
theorem Sound.registered (sound : s.Sound) {i : Nat} {c : Client}
    (found : s.clients[i]? = some c) (registering : c.serveWS = .registering)
    {register : Channel Nat} (sent : s.hub.register.send i = .done register) :
    State.Sound
      { s with hub := { s.hub with register := register },
               clients := s.clients.set i { c with serveWS := .startingWrite } } := by
  obtain ⟨isOpen, rfl⟩ := Channel.send_eq_done sent
  have old := sound.hub
  have standing := sound.each i c found
  have fresh := (standing.unsent registering).2
  obtain ⟨bound, -⟩ := List.getElem?_eq_some_iff.mp found
  refine ⟨sound.alive, ?_, ?_⟩
  · simp only [List.length_set]
    refine { old with once := ?_, waiting := ?_ }
    · exact List.nodup_append.mpr ⟨old.once, List.nodup_singleton i, by grind⟩
    · intro k later
      obtain later | rfl : k ∈ s.hub.register.buffer ∨ k = i := by simpa using later
      · exact old.waiting k later
      · exact bound
  · refine sound.each.set (fun k different => ⟨.rfl, by simp [different], .rfl⟩) ?_
    simpa using standing.registered registering

/-- The body of the loop finds the channel open: it sends, or drops the client. -/
theorem Sound.visited (sound : s.Sound) {i : Nat} {c : Client} {message : Message}
    {rest : List Nat} (running : s.hub.run = .broadcasting message rest) (unvisited : i ∈ rest)
    (found : s.clients[i]? = some c) : (s.stepVisit message rest i c).Sound := by
  obtain ⟨nodup, inMap⟩ := sound.hub.visiting running
  have standing := sound.each i c found
  have isOpen := (standing.open_of_member (inMap unvisited)).2
  simp only [stepVisit]
  split
  case h_1 sent =>
    obtain ⟨-, rfl⟩ := Channel.send_eq_done sent
    refine ⟨sound.alive, ?_, ?_⟩
    · simp only [setClient, List.length_set]
      refine { sound.hub with visiting := ?_ }
      rintro _ _ ⟨⟩
      exact ⟨nodup.erase i, fun k later => inMap (List.mem_of_mem_erase later)⟩
    · exact sound.each.set .same (standing.sent (inMap unvisited) message)
  case h_2 =>
    refine sound.drop _ found (inMap unvisited) sound.hub.opened.2.1 (fun _ _ => .rfl) ?_
    rintro _ _ ⟨⟩
    refine ⟨nodup.erase i, fun k later => ?_⟩
    rw [nodup.mem_erase_iff] at later
    exact (List.mem_erase_of_ne later.1).mpr (inMap later.2)
  case h_3 panicked =>
    have closed := Channel.send_eq_panics panicked
    simp [isOpen] at closed

theorem Sound.admitted (sound : s.Sound) {i : Nat} {register : Channel Nat}
    (received : s.hub.register.receive = .done (some i, register)) :
    State.Sound
      { s with hub := { s.hub with register := register, clients := s.hub.clients.insert i } } := by
  obtain ⟨stored, kept⟩ := Channel.receive_eq_some received
  have old := sound.hub
  obtain ⟨notAgain, once⟩ := List.nodup_cons.mp (stored ▸ old.once)
  have there (k : Nat) (later : k ∈ register.buffer) : k ∈ s.hub.register.buffer := by
    simp [stored, later]
  refine ⟨sound.alive, ⟨⟨by rw [kept]; exact old.opened.1, old.opened.2⟩,
    old.distinct.insert, once, ?_, fun k later => old.waiting k (there k later), ?_⟩, ?_⟩
  · intro k member
    obtain rfl | member := List.mem_insert_iff.mp member
    · exact old.waiting k (by simp [stored])
    · exact old.members k member
  · intro message rest running
    obtain ⟨nodup, inMap⟩ := old.visiting running
    exact ⟨nodup, fun k later => List.mem_insert_of_mem (inMap later)⟩
  · refine sound.each.change (i := i) (fun k different => ⟨?_, ?_, .rfl⟩) (fun _ _ => rfl) ?_
    · simp [different]
    · simp [stored, different]
    · intro c found
      have standing := sound.each i c found
      simp only [stored, List.mem_cons, true_or] at standing
      simpa [notAgain] using standing.admitted

theorem Sound.step (sound : s.Sound) (taken : s.step a = some t) : t.Sound := by
  have old := sound.hub
  cases step_cases taken with
  | accepts => exact sound.accepted
  | registers found registering sent => exact sound.registered found registering sent
  | moves _ found moves =>
    refine ⟨sound.alive, by simpa [setClient] using old, ?_⟩
    exact sound.each.set .same ((sound.each _ _ found).moved moves)
  | reads => exact sound
  | leaves _ found leaves sent =>
    obtain ⟨isOpen, rfl⟩ := Channel.send_eq_done sent
    refine ⟨sound.alive, ?_, ?_⟩
    · simp only [List.length_set]
      exact { old with }
    · refine sound.each.set (fun k different => ⟨.rfl, .rfl, by simp [different]⟩) ?_
      simpa using (sound.each _ _ found).left leaves
  | publishes sent =>
    obtain ⟨isOpen, rfl⟩ := Channel.send_eq_done sent
    exact ⟨sound.alive, { old with }, sound.each⟩
  | admits selecting received => exact sound.admitted received
  | @removes i c unregister selecting received inMap found =>
    obtain ⟨stored, kept⟩ := Channel.receive_eq_some received
    refine sound.drop s.hub.run found inMap (by rw [kept]; exact old.opened.2.1) ?_ ?_
    · intro k different
      simp [stored, different]
    · intro message rest running
      cases selecting.symm.trans running
  -- the run loop closes the channel only for a client in its map, so a second request is ignored
  | @ignores i unregister selecting received unknown =>
    obtain ⟨stored, kept⟩ := Channel.receive_eq_some received
    refine ⟨sound.alive, { old with opened := ⟨old.opened.1, ?_, old.opened.2.2⟩ }, ?_⟩
    · rw [kept]
      exact old.opened.2.1
    · refine sound.each.change (i := i) (fun k different => ⟨.rfl, .rfl, by simp [stored, different]⟩)
        (fun _ _ => rfl) ?_
      exact fun c found => (sound.each i c found).forgotten unknown
  | takes selecting received =>
    obtain ⟨stored, kept⟩ := Channel.receive_eq_some received
    refine ⟨sound.alive, { old with opened := ⟨old.opened.1, old.opened.2.1, ?_⟩, visiting := ?_ },
      sound.each⟩
    · rw [kept]
      exact old.opened.2.2
    · rintro _ _ ⟨⟩
      exact ⟨old.distinct, List.Subset.refl _⟩
  | visits running unvisited found => exact sound.visited running unvisited found
  | finishes running => exact ⟨sound.alive, { old with visiting := nofun }, sound.each⟩
  | cancels => exact ⟨sound.alive, { old with visiting := nofun }, sound.each⟩
  -- the channels of the hub itself are never closed
  | breaks _ closed => simp [old.opened] at closed

theorem sound_of_reachable (reachable : system.Reachable (fun _ _ => True) s) : s.Sound := by
  refine reachable.invariant ?_ fun _ _ taken sound => sound.step taken
  rintro _ rfl
  exact ⟨rfl, ⟨⟨rfl, rfl, rfl⟩, List.nodup_nil, List.nodup_nil, nofun, nofun, nofun⟩, nofun⟩

end State

/-! ## Safety -/

/-- Nothing follows the closing of the channel among its uses. -/
theorem Client.Sealed.last {c : Client} (sealed : c.Sealed) {before after : List Use}
    (uses : c.uses = before ++ .closed :: after) : after = [] := by
  cases closed : c.send.closed with
  | false => exact absurd (by simp [uses]) (sealed.whileOpen closed)
  | true =>
    obtain ⟨earlier, unclosed, same⟩ := sealed.onceClosed closed
    by_contra more
    obtain ⟨init, use, rfl⟩ := (List.eq_nil_or_concat after).resolve_left more
    rw [same, List.concat_eq_append, ← List.cons_append, ← List.append_assoc] at uses
    obtain ⟨rfl, -⟩ := List.append_inj' uses rfl
    simp at unclosed

/-- In every reachable state nothing has panicked; nothing was sent on a client's channel after
it was closed, and it was closed at most once; and a client both of whose pumps have ended, and
of which no message is pending, is out of the map with its channel closed. -/
theorem hub_safe {s : State} (reachable : system.Reachable (fun _ _ => True) s) :
    s.panicked = false ∧ ∀ i c, s.clients[i]? = some c →
      (∀ before after, c.uses = before ++ .closed :: after → after = []) ∧
      (c.writePump = .ended → c.readPump = .ended → i ∉ s.hub.register.buffer →
        i ∉ s.hub.unregister.buffer → i ∉ s.hub.clients ∧ c.send.closed = true) := by
  have sound := State.sound_of_reachable reachable
  refine ⟨sound.alive, fun i c found => ?_⟩
  have standing := sound.each i c found
  refine ⟨fun before after uses => standing.fine.last uses, fun ended _ _ unheard => ?_⟩
  have handled := standing.handled_of_writePump (by simp [ended]) (by simp [ended])
  have closed := (standing.ended ended).resolve_left unheard
  exact ⟨fun inMap => by simp [(standing.known handled).mp inMap] at closed, closed⟩

/-- The hub handles the message of `readPump` before the register message, so that the client is
in the map although it is gone; the next broadcast makes `writePump` end. -/
def overtakenRun : List Action :=
  [.accept, .serve 0, .serve 0, .serve 0, .read 0 false, .read 0 true, .unregister, .register,
    .read 0 true, .publish "stats", .broadcast, .visit 0, .finish, .write 0 true, .write 0 false,
    .write 0 true, .write 0 true, .unregister]

theorem overtakenRun_safe : ∃ s c, system.Reachable (fun _ _ => True) s ∧ s.clients[0]? = some c ∧
    c.uses = [.sent, .closed] ∧ c.writePump = .ended ∧ c.readPump = .ended ∧
    0 ∉ s.hub.clients ∧ c.send.closed = true := by
  have ⟨s, reachable, evaluated⟩ : ∃ s, system.Reachable (fun _ _ => True) s ∧
      s.clients[0]?.any (fun c => c.uses = [.sent, .closed] ∧ c.writePump = .ended ∧
        c.readPump = .ended) = true ∧
      0 ∉ s.hub.register.buffer ∧ 0 ∉ s.hub.unregister.buffer :=
    Transition.System.exists_reachable_of_exec overtakenRun rfl (by decide)
  obtain ⟨found, unregistered, unheard⟩ := evaluated
  simp only [Option.any_eq_true, decide_eq_true_eq] at found
  obtain ⟨c, found, uses, writeEnded, readEnded⟩ := found
  obtain ⟨_, each⟩ := hub_safe reachable
  exact ⟨s, c, reachable, found, uses, writeEnded, readEnded,
    (each 0 c found).2 writeEnded readEnded unregistered unheard⟩

end GoQueue.Dashboard
