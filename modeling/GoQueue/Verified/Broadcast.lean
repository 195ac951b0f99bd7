import GoQueue.Verified.HubSafety

/-! # What a client gets is a block of what was broadcast

The history of a run of the hub is read off its channels, from the states before and after each
step: the messages that have left the broadcast channel and, for each client, those that were
added to its send channel, those that have left it, and how many the hub had taken when the client
came into the map.

In the loop over the clients those that were not visited lack the present message, and only they.
`Record.Kept` therefore speaks of what the loop still owes a client; everything else follows from
the way one step changes the map, the loop and one client.
-/

namespace GoQueue.Dashboard

/-! ## The history of a run -/

/-- What was seen of one client. -/
structure Record where
  /-- How many messages had been taken when the client came into the map. -/
  joined : Option Nat
  /-- The messages placed on the send channel, the oldest first. -/
  placed : List Message
  /-- The messages received from it. -/
  received : List Message
deriving DecidableEq

def Record.fresh : Record := ⟨none, [], []⟩

/-- A client that may come into the map, after `n` messages, and whose channel may change. -/
def Record.note (r : Record) (joins : Prop) [Decidable joins] (n : Nat)
    (before after : Channel Message) : Record where
  joined := if joins then some n else r.joined
  placed := r.placed ++ before.gained after
  received := r.received ++ before.lost after

structure History where
  /-- The messages taken from the broadcast channel, the oldest first. -/
  taken : List Message
  record : Nat → Record

/-- The channel of a client, which is empty before the connection is accepted. -/
def State.send (s : State) (i : Nat) : Channel Message := (s.clients[i]?.getD .new).send

namespace History

def new : History := ⟨[], fun _ => .fresh⟩

/-- What is noted of a step from one state to the next. -/
def note (s t : State) (h : History) : History where
  taken := h.taken ++ s.hub.broadcast.lost t.hub.broadcast
  record i := (h.record i).note (i ∉ s.hub.clients ∧ i ∈ t.hub.clients) h.taken.length
    (s.send i) (t.send i)

end History

/-- The hub with the history of its run. -/
def recorded : Transition.System (State × History) Action :=
  system.withHistory .new fun s _ t h => h.note s t

theorem recorded_start : recorded.initial (⟨newHub, [], false⟩, .new) := ⟨rfl, rfl⟩

/-! ## One client -/

/-- The message of the loop if it has not come to this client. -/
def Run.owes (run : Run) (i : Nat) : List Message :=
  match run with
  | .broadcasting message rest => if i ∈ rest then [message] else []
  | .selecting | .returned => []

/-- How a record stands to the messages taken so far, for a client that is in the map (`member`)
or has a message in the register channel (`waiting`). -/
structure Record.Kept (r : Record) (taken owed : List Message) (c : Client)
    (member waiting : Prop) : Prop where
  fresh : c.Awaits waiting → r = .fresh
  unjoined : r.joined = none → r.placed = [] ∧ ¬ member
  block : ∀ n, r.joined = some n → n ≤ taken.length ∧ r.placed <+: taken.drop n ∧
    (member → r.placed ++ owed = taken.drop n)
  held : r.received ++ c.send.buffer = r.placed

section Note

variable {r : Record} {joins : Prop} [Decidable joins] {n : Nat} {before after : Channel Message}
  {message : Message}

theorem Record.note_quiet (stays : ¬ joins) (same : after.buffer = before.buffer) :
    r.note joins n before after = r := by
  simp [note, stays, Channel.gained_of_buffer_eq same, Channel.lost_of_buffer_eq same]

theorem Record.note_joined (comes : joins) :
    r.note joins n before before = { r with joined := some n } := by
  simp [note, comes, Channel.gained_of_buffer_eq, Channel.lost_of_buffer_eq]

theorem Record.note_sent (stays : ¬ joins) (sent : before.send message = .done after) :
    r.note joins n before after = { r with placed := r.placed ++ [message] } := by
  obtain ⟨gained, lost⟩ := Channel.gained_send sent
  simp [note, stays, gained, lost]

theorem Record.note_received (stays : ¬ joins) (received : before.receive = .done (some message, after)) :
    r.note joins n before after = { r with received := r.received ++ [message] } := by
  obtain ⟨gained, lost⟩ := Channel.lost_receive received
  simp [note, stays, gained, lost]

end Note

theorem Client.Moves.awaits {c c' : Client} (moves : c.Moves c') {waiting : Prop}
    (awaits : c'.Awaits waiting) : c.Awaits waiting := by
  cases moves <;> first | exact awaits | exact awaits.imp nofun id

namespace Record.Kept

variable {r : Record} {taken owed owed' : List Message} {c c' : Client}
  {member member' waiting waiting' : Prop}

theorem new {member : Prop} (unknown : ¬ member) :
    Record.Kept .fresh taken owed .new member waiting where
  fresh _ := rfl
  unjoined _ := ⟨rfl, unknown⟩
  block := nofun
  held := rfl

/-- A step that leaves the channel as it is: the client may leave the map. -/
theorem weaken (kept : r.Kept taken owed c member waiting)
    (awaits : c'.Awaits waiting' → c.Awaits waiting) (same : c'.send.buffer = c.send.buffer)
    (stays : member' → member ∧ owed' = owed) : r.Kept taken owed' c' member' waiting' where
  fresh awaiting := kept.fresh (awaits awaiting)
  unjoined early := ⟨(kept.unjoined early).1, fun inMap => (kept.unjoined early).2 (stays inMap).1⟩
  block n joined := by
    obtain ⟨early, isPrefix, current⟩ := kept.block n joined
    refine ⟨early, isPrefix, fun inMap => ?_⟩
    rw [(stays inMap).2]
    exact current (stays inMap).1
  held := same ▸ kept.held

/-- The client receives a message. -/
theorem received {message : Message} (kept : r.Kept taken owed c member waiting)
    (awaits : c'.Awaits waiting → c.Awaits waiting)
    (stored : c.send.buffer = message :: c'.send.buffer) :
    Record.Kept { r with received := r.received ++ [message] } taken owed c' member waiting where
  fresh awaiting := by
    -- nothing was placed for a client that is not registered yet
    have empty := kept.held
    rw [kept.fresh (awaits awaiting), stored] at empty
    cases empty
  unjoined := kept.unjoined
  block := kept.block
  held := by
    rw [List.append_assoc, List.singleton_append, ← stored]
    exact kept.held

/-- The steps of a client's goroutines. -/
theorem moved (kept : r.Kept taken owed c member waiting) (moves : c.Moves c') {joins : Prop}
    [Decidable joins] (stays : ¬ joins) (n : Nat) :
    (r.note joins n c.send c'.send).Kept taken owed c' member waiting := by
  have quiet (same : c'.send.buffer = c.send.buffer) :
      (r.note joins n c.send c'.send).Kept taken owed c' member waiting := by
    rw [Record.note_quiet stays same]
    exact kept.weaken moves.awaits same fun inMap => ⟨inMap, rfl⟩
  cases moves with
  | receives selecting taken =>
    rw [Record.note_received stays taken]
    exact kept.received (Client.Moves.receives selecting taken).awaits (Channel.receive_eq_some taken).1
  | _ => exact quiet rfl

/-- The hub handles the registration between two messages. -/
theorem admitted (kept : r.Kept taken owed c member waiting) (waits : waiting)
    (handled : ¬ c.Awaits waiting') :
    Record.Kept { r with joined := some taken.length } taken [] c True waiting' := by
  have unused := kept.fresh (.inr waits)
  subst unused
  refine ⟨fun awaits => absurd awaits handled, nofun, ?_, kept.held⟩
  rintro _ ⟨⟩
  simp [Record.fresh]

/-- The hub takes a message: it owes it to the clients of the map. -/
theorem extended (kept : r.Kept taken [] c member waiting) (message : Message)
    (due : member → owed = [message]) : r.Kept (taken ++ [message]) owed c member waiting where
  fresh := kept.fresh
  unjoined := kept.unjoined
  block n joined := by
    obtain ⟨early, isPrefix, current⟩ := kept.block n joined
    rw [List.drop_append_of_le_length early, List.length_append]
    refine ⟨Nat.le_add_right_of_le early, isPrefix.trans (List.prefix_append _ _), fun inMap => ?_⟩
    rw [due inMap, ← current inMap, List.append_nil]
  held := kept.held

/-- The loop places the message it owes. -/
theorem placed {message : Message} (kept : r.Kept taken [message] c member waiting)
    (inMap : member) {uses : List Use} :
    Record.Kept { r with placed := r.placed ++ [message] } taken []
      { c with send := { c.send with buffer := c.send.buffer ++ [message] }, uses := uses }
      member waiting where
  fresh awaits := by
    have unused := kept.fresh awaits
    exact absurd inMap (kept.unjoined (by rw [unused]; rfl)).2
  unjoined early := absurd inMap (kept.unjoined early).2
  block n joined := by
    obtain ⟨early, -, current⟩ := kept.block n joined
    have complete := current inMap
    rw [← List.append_nil (_ ++ [message])] at complete
    exact ⟨early, ⟨[], complete⟩, fun _ => complete⟩
  held := by rw [← List.append_assoc, kept.held]

end Record.Kept

/-! ## The steps -/

/-- What the loop does for a client.  The channel of a client that is still to be visited is open,
so that no send panics. -/
theorem State.Sound.visit_eq {s : State} (sound : s.Sound) {i : Nat} {c : Client}
    {message : Message} {rest : List Nat} (running : s.hub.run = .broadcasting message rest)
    (unvisited : i ∈ rest) (found : s.clients[i]? = some c) :
    (∃ send, c.send.send message = .done send) ∧
      s.stepVisit message rest i c =
        { s with hub.run := .broadcasting message (rest.erase i),
                 clients := s.clients.set i { c with
                   send := { c.send with buffer := c.send.buffer ++ [message] },
                   uses := c.uses ++ [.sent] } } ∨
    c.send.send message = .blocks ∧
      s.stepVisit message rest i c =
        { s with hub := { s.hub with run := .broadcasting message (rest.erase i),
                                     clients := s.hub.clients.erase i },
                 clients := s.clients.set i { c with
                   send := { c.send with closed := true }, uses := c.uses ++ [.closed] } } := by
  have isOpen :=
    ((sound.each i c found).open_of_member ((sound.hub.visiting running).2 unvisited)).2
  simp only [State.stepVisit]
  cases sent : c.send.send message with
  | done send =>
    obtain ⟨-, rfl⟩ := Channel.send_eq_done sent
    exact .inl ⟨⟨_, rfl⟩, rfl⟩
  | blocks => exact .inr ⟨rfl, State.drop_of_open isOpen⟩
  | panics =>
    have closed := Channel.send_eq_panics sent
    simp [isOpen] at closed

theorem State.send_eq {s : State} {i : Nat} {c : Client} (found : s.clients[i]? = some c) :
    s.send i = c.send := by simp [State.send, found]

theorem History.record_note (h : History) {s t : State} {i : Nat} {c c' : Client}
    (found : s.clients[i]? = some c) (after : t.clients[i]? = some c') :
    (h.note s t).record i = (h.record i).note (i ∉ s.hub.clients ∧ i ∈ t.hub.clients)
      h.taken.length c.send c'.send := by
  rw [← State.send_eq found, ← State.send_eq after]
  rfl

theorem History.taken_note (h : History) {s t : State}
    (untaken : s.hub.broadcast.lost t.hub.broadcast = []) : (h.note s t).taken = h.taken := by
  simp [note, untaken]

theorem History.record_note_quiet (h : History) {s t : State} {i : Nat}
    (stays : i ∈ t.hub.clients → i ∈ s.hub.clients)
    (same : (t.send i).buffer = (s.send i).buffer) : (h.note s t).record i = h.record i :=
  Record.note_quiet (fun joins => joins.1 (stays joins.2)) same

/-- Every client has got what its record says, and no record runs ahead of the connections. -/
structure History.Recorded (h : History) (s : State) : Prop where
  each : ∀ i c, s.clients[i]? = some c →
    (h.record i).Kept h.taken (s.hub.run.owes i) c (i ∈ s.hub.clients) (i ∈ s.hub.register.buffer)
  later : ∀ i, s.clients.length ≤ i → h.record i = .fresh

namespace History.Recorded

variable {s t : State} {a : Action} {h : History}

/-- A step that concerns one client: only its own record is at stake. -/
theorem change {i : Nat} {c c' : Client} (recorded : h.Recorded s)
    (found : s.clients[i]? = some c) (clients : t.clients = s.clients.set i c')
    (untaken : s.hub.broadcast.lost t.hub.broadcast = []) (others : ∀ k, k ≠ i →
      t.hub.run.owes k = s.hub.run.owes k ∧ (k ∈ t.hub.clients ↔ k ∈ s.hub.clients) ∧
      (k ∈ t.hub.register.buffer ↔ k ∈ s.hub.register.buffer))
    (own : ((h.record i).note (i ∉ s.hub.clients ∧ i ∈ t.hub.clients) h.taken.length
      c.send c'.send).Kept h.taken (t.hub.run.owes i) c' (i ∈ t.hub.clients)
      (i ∈ t.hub.register.buffer)) : (h.note s t).Recorded t := by
  obtain ⟨bound, -⟩ := List.getElem?_eq_some_iff.mp found
  have record (k : Nat) (different : k ≠ i) : (h.note s t).record k = h.record k := by
    refine h.record_note_quiet (others k different).2.1.mp ?_
    rw [State.send, State.send, clients, List.getElem?_set_ne (Ne.symm different)]
  constructor
  · intro k d foundAfter
    rw [h.taken_note untaken]
    by_cases same : k = i
    · subst same
      obtain rfl : c' = d := by simpa [clients, bound] using foundAfter
      rw [h.record_note found foundAfter]
      exact own
    · obtain ⟨owes, inMap, waits⟩ := others k same
      rw [clients, List.getElem?_set_ne (Ne.symm same)] at foundAfter
      rw [record k same, owes, inMap, waits]
      exact recorded.each k d foundAfter
  · intro k beyond
    rw [clients, List.length_set] at beyond
    rw [record k (by omega)]
    exact recorded.later k beyond

/-- Such a step that leaves the channel of the client as it is. -/
theorem quiet {i : Nat} {c c' : Client} (recorded : h.Recorded s)
    (found : s.clients[i]? = some c) (clients : t.clients = s.clients.set i c')
    (untaken : s.hub.broadcast.lost t.hub.broadcast = []) (others : ∀ k, k ≠ i →
      t.hub.run.owes k = s.hub.run.owes k ∧ (k ∈ t.hub.clients ↔ k ∈ s.hub.clients) ∧
      (k ∈ t.hub.register.buffer ↔ k ∈ s.hub.register.buffer))
    (buffer : c'.send.buffer = c.send.buffer)
    (awaits : c'.Awaits (i ∈ t.hub.register.buffer) → c.Awaits (i ∈ s.hub.register.buffer))
    (stays : i ∈ t.hub.clients → i ∈ s.hub.clients ∧ t.hub.run.owes i = s.hub.run.owes i) :
    (h.note s t).Recorded t := by
  refine recorded.change found clients untaken others ?_
  rw [Record.note_quiet (fun joins => joins.1 (stays joins.2).1) buffer]
  exact (recorded.each i c found).weaken awaits buffer stays

/-- A step that changes nothing of what the records speak of. -/
theorem same (recorded : h.Recorded s) (clients : t.clients = s.clients)
    (owes : ∀ i, t.hub.run.owes i = s.hub.run.owes i) (map : t.hub.clients = s.hub.clients)
    (register : t.hub.register = s.hub.register)
    (untaken : s.hub.broadcast.lost t.hub.broadcast = []) : (h.note s t).Recorded t := by
  have record (i : Nat) : (h.note s t).record i = h.record i := by
    refine h.record_note_quiet (fun inMap => map ▸ inMap) ?_
    rw [State.send, State.send, clients]
  constructor
  · intro i c found
    rw [clients] at found
    rw [h.taken_note untaken, record, owes, map, register]
    exact recorded.each i c found
  · intro i beyond
    rw [clients] at beyond
    rw [record]
    exact recorded.later i beyond

theorem accepted (recorded : h.Recorded s) (sound : s.Sound) :
    (h.note s { s with clients := s.clients ++ [.new] }).Recorded
      { s with clients := s.clients ++ [.new] } := by
  have taken : (h.note s { s with clients := s.clients ++ [.new] }).taken = h.taken :=
    h.taken_note (Channel.lost_of_buffer_eq rfl)
  have record (i : Nat) : (h.note s { s with clients := s.clients ++ [.new] }).record i =
      h.record i := by
    refine h.record_note_quiet (fun inMap => inMap) (congrArg (fun c : Client => c.send.buffer) ?_)
    grind
  constructor
  · intro i c found
    rw [taken, record]
    by_cases last : i = s.clients.length
    · subst last
      obtain rfl : Client.new = c := by simpa using found
      have unknown := mt (sound.hub.members s.clients.length) (Nat.lt_irrefl _)
      have fresh := recorded.later s.clients.length (Nat.le_refl _)
      simpa [fresh] using Record.Kept.new unknown
    · have before : s.clients[i]? = some c := by grind
      exact recorded.each i c before
  · intro i beyond
    rw [List.length_append] at beyond
    rw [record]
    exact recorded.later i (by omega)

/-- The hub admits a client between two messages. -/
theorem admitted (recorded : h.Recorded s) (sound : s.Sound) (selecting : s.hub.run = .selecting)
    {i : Nat} {register : Channel Nat}
    (received : s.hub.register.receive = .done (some i, register)) :
    (h.note s { s with hub := { s.hub with
      register := register, clients := s.hub.clients.insert i } }).Recorded
      { s with hub := { s.hub with register := register, clients := s.hub.clients.insert i } } := by
  obtain ⟨stored, -⟩ := Channel.receive_eq_some received
  have waits : i ∈ s.hub.register.buffer := by simp [stored]
  have bound := sound.hub.waiting i waits
  have found := List.getElem?_eq_getElem bound
  have unknown := ((sound.each i _ found).unused (.inr waits)).1
  have handled := ((sound.admitted received).each i _ found).open_of_member (by simp)
  have owes (k : Nat) : s.hub.run.owes k = [] := by simp [selecting, Run.owes]
  refine recorded.change found (List.set_getElem_self bound).symm (Channel.lost_of_buffer_eq rfl)
    (fun k different => ⟨rfl, by simp [different], by simp [stored, different]⟩) ?_
  rw [Record.note_joined ⟨unknown, by simp⟩]
  have admitted := (recorded.each i _ found).admitted waits handled.1
  simpa [owes] using admitted

/-- The loop comes to a client and finds room, or drops it. -/
theorem visited (recorded : h.Recorded s) (sound : s.Sound) {i : Nat} {c : Client}
    {message : Message} {rest : List Nat} (running : s.hub.run = .broadcasting message rest)
    (unvisited : i ∈ rest) (found : s.clients[i]? = some c) :
    (h.note s (s.stepVisit message rest i c)).Recorded (s.stepVisit message rest i c) := by
  obtain ⟨nodup, inMap⟩ := sound.hub.visiting running
  have kept := recorded.each i c found
  have gone : i ∉ rest.erase i := nodup.not_mem_erase
  have owed : s.hub.run.owes i = [message] := by simp [running, Run.owes, unvisited]
  have others (k : Nat) (different : k ≠ i) :
      (Run.broadcasting message (rest.erase i)).owes k = s.hub.run.owes k := by
    simp [running, Run.owes, List.mem_erase_of_ne different]
  obtain ⟨⟨send, sent⟩, visited⟩ | ⟨_, visited⟩ := sound.visit_eq running unvisited found
  · rw [visited]
    obtain ⟨-, rfl⟩ := Channel.send_eq_done sent
    refine recorded.change found rfl (Channel.lost_of_buffer_eq rfl)
      (fun k different => ⟨others k different, .rfl, .rfl⟩) ?_
    rw [Record.note_sent (fun joins => joins.1 joins.2) sent]
    rw [owed] at kept
    simpa [Run.owes, gone] using kept.placed (inMap unvisited)
  · rw [visited]
    refine recorded.quiet found rfl (Channel.lost_of_buffer_eq rfl) (fun k different => ?_) rfl
      (fun awaits => awaits) fun still => absurd still sound.hub.distinct.not_mem_erase
    exact ⟨others k different, List.mem_erase_of_ne different, .rfl⟩

theorem step (recorded : h.Recorded s) (sound : s.Sound) (taken : s.step a = some t) :
    (h.note s t).Recorded t := by
  have untaken : s.hub.broadcast.lost s.hub.broadcast = [] := Channel.lost_of_buffer_eq rfl
  cases State.step_cases taken with
  | accepts => exact recorded.accepted sound
  | @registers i c register found registering sent =>
    obtain ⟨-, rfl⟩ := Channel.send_eq_done sent
    exact recorded.quiet found rfl untaken (fun k different => ⟨rfl, .rfl, by simp [different]⟩) rfl
      (fun _ => .inl registering) fun inMap => ⟨inMap, rfl⟩
  | moves ofClient found moves =>
    refine recorded.change found rfl untaken (fun k different => ⟨rfl, .rfl, .rfl⟩) ?_
    exact (recorded.each _ _ found).moved moves (fun joins => joins.1 joins.2) _
  | reads ofClient => exact recorded.same rfl (fun _ => rfl) rfl rfl untaken
  | leaves ofClient found leaves sent =>
    cases leaves <;>
      exact recorded.quiet found rfl untaken (fun k different => ⟨rfl, .rfl, .rfl⟩) rfl
        (fun awaits => awaits) fun inMap => ⟨inMap, rfl⟩
  | publishes sent =>
    exact recorded.same rfl (fun _ => rfl) rfl rfl (Channel.gained_send sent).2
  | admits selecting received => exact recorded.admitted sound selecting received
  | @removes i c unregister selecting received inMap found =>
    rw [State.drop_of_open ((sound.each i c found).open_of_member inMap).2]
    exact recorded.quiet found rfl untaken
      (fun k different => ⟨rfl, List.mem_erase_of_ne different, .rfl⟩) rfl (fun awaits => awaits)
      fun still => absurd still sound.hub.distinct.not_mem_erase
  | ignores selecting received unknown =>
    exact recorded.same rfl (fun _ => rfl) rfl rfl untaken
  | @takes message broadcast selecting received =>
    have record (i : Nat) : (h.record i).note (i ∉ s.hub.clients ∧ i ∈ s.hub.clients)
        h.taken.length (s.send i) (s.send i) = h.record i :=
      Record.note_quiet (fun joins => joins.1 joins.2) rfl
    refine ⟨fun i c found => ?_, fun i beyond => (record i).trans (recorded.later i beyond)⟩
    have kept := recorded.each i c found
    rw [selecting, ← record i] at kept
    simp only [note, (Channel.lost_receive received).2]
    exact kept.extended message fun inMap => by simp [Run.owes, inMap]
  | visits running unvisited found => exact recorded.visited sound running unvisited found
  | finishes running =>
    exact recorded.same rfl (fun i => by simp [running, Run.owes]) rfl rfl untaken
  | cancels selecting =>
    exact recorded.same rfl (fun i => by simp [selecting, Run.owes]) rfl rfl untaken
  | breaks _ closed => simp [sound.hub.opened] at closed

end History.Recorded

/-- Only a client whose registration waits comes into the map. -/
theorem State.Step.waiting_of_joins {s t : State} {a : Action} (step : s.Step a t) {i : Nat}
    (joins : i ∉ s.hub.clients ∧ i ∈ t.hub.clients) : i ∈ s.hub.register.buffer := by
  obtain ⟨unknown, member⟩ := joins
  have dropped {s : State} {k : Nat} {c : Client} (left : i ∈ (s.drop k c).hub.clients) :
      i ∈ s.hub.clients := by
    unfold State.drop at left
    split at left
    · exact List.mem_of_mem_erase left
    · exact left
    · exact left
  cases step with
  | @admits k register _ received =>
    have stored := (Channel.receive_eq_some received).1
    obtain rfl | before := List.mem_insert_iff.mp member
    · simp [stored]
    · exact absurd before unknown
  | removes => exact absurd (dropped member) unknown
  | visits =>
    unfold State.stepVisit at member
    split at member
    · exact absurd member unknown
    · exact absurd (dropped member) unknown
    · exact absurd member unknown
  | _ => exact absurd member unknown

/-- A registration is handled once. -/
theorem History.Recorded.joined_once {s t : State} {a : Action} {h : History}
    (recorded : h.Recorded s) (step : s.Step a t) {i n : Nat} {c : Client}
    (found : s.clients[i]? = some c) (joined : (h.record i).joined = some n) :
    ((h.note s t).record i).joined = some n := by
  have stays : ¬ (i ∉ s.hub.clients ∧ i ∈ t.hub.clients) := by
    intro joins
    -- the client would still be waiting, so that its record would be fresh
    rw [(recorded.each i c found).fresh (.inr (step.waiting_of_joins joins))] at joined
    cases joined
  simp only [History.note, Record.note, if_neg stays]
  exact joined

/-! ## Delivery -/

theorem recorded_of_reachable {p : State × History}
    (reachable : recorded.Reachable (fun _ _ => True) p) : p.1.Sound ∧ p.2.Recorded p.1 := by
  have sound {p : State × History} (reachable : recorded.Reachable (fun _ _ => True) p) :
      p.1.Sound := State.sound_of_reachable (.of_withHistory reachable)
  refine ⟨sound reachable, reachable.invariant (P := fun p => p.2.Recorded p.1) ?_ ?_⟩
  · rintro ⟨_, _⟩ ⟨rfl, rfl⟩
    exact ⟨nofun, fun _ _ => rfl⟩
  · rintro p a ⟨t, h⟩ reached - taken kept
    obtain ⟨stepped, rfl⟩ := Transition.System.step_withHistory.mp taken
    exact kept.step (sound reached) stepped

/-- The body of the loop places its message, or removes the client whose channel is full. -/
theorem State.Sound.visit_cases {s : State} (sound : s.Sound) (h : History) {i : Nat} {c : Client}
    {message : Message} {rest : List Nat} (running : s.hub.run = .broadcasting message rest)
    (unvisited : i ∈ rest) (found : s.clients[i]? = some c) {t : State}
    (visited : t = s.stepVisit message rest i c) :
    (∃ send, c.send.send message = .done send) ∧ i ∈ t.hub.clients ∧
        (∃ c', t.clients[i]? = some c' ∧ c'.send.buffer = c.send.buffer ++ [message]) ∧
        ((h.note s t).record i).placed = (h.record i).placed ++ [message] ∨
      c.send.send message = .blocks ∧ i ∉ t.hub.clients ∧
        (∃ c', t.clients[i]? = some c' ∧ c'.send.closed = true) ∧
        ((h.note s t).record i).placed = (h.record i).placed := by
  obtain ⟨bound, -⟩ := List.getElem?_eq_some_iff.mp found
  have placed {c' : Client} (after : t.clients[i]? = some c') :
      ((h.note s t).record i).placed = (h.record i).placed ++ c.send.gained c'.send :=
    congrArg Record.placed (h.record_note found after)
  obtain ⟨⟨send, sent⟩, shape⟩ | ⟨full, shape⟩ := sound.visit_eq running unvisited found
  · rw [shape] at visited
    have after := (congrArg (·.clients[i]?) visited).trans (List.getElem?_set_self bound)
    refine .inl ⟨⟨send, sent⟩, ?_, ⟨_, after, rfl⟩, ?_⟩
    · rw [visited]
      exact (sound.hub.visiting running).2 unvisited
    · rw [placed after]
      simp [Channel.gained]
  · rw [shape] at visited
    have after := (congrArg (·.clients[i]?) visited).trans (List.getElem?_set_self bound)
    refine .inr ⟨full, ?_, ⟨_, after, rfl⟩, ?_⟩
    · rw [visited]
      exact sound.hub.distinct.not_mem_erase
    · rw [placed after]
      simp [Channel.gained]

/-- Every run of the hub has a history. -/
theorem exists_history {s : State} (reachable : system.Reachable (fun _ _ => True) s) :
    ∃ h, recorded.Reachable (fun _ _ => True) (s, h) :=
  reachable.withHistory

/-- In every reachable state, the messages placed on a client's channel are a block of those
taken from the broadcast channel: it begins with the first one taken after the registration was
handled, and while the client is in the map it lacks only the message that the loop has not
brought to it.  What was placed is what was received and what is still in the channel.  A client
out of the map has its channel closed.  The loop either places its message on the channel of a
client or removes the client. -/
theorem broadcast_without_gaps {s : State} {h : History}
    (reachable : recorded.Reachable (fun _ _ => True) (s, h)) {i : Nat} {c : Client}
    (found : s.clients[i]? = some c) :
    ((h.record i).joined = none → (h.record i).placed = [] ∧ i ∉ s.hub.clients) ∧
    (∀ n, (h.record i).joined = some n →
      n ≤ h.taken.length ∧ (h.record i).placed <+: h.taken.drop n ∧
      (i ∈ s.hub.clients ∧ c.send.closed = false ∧
          (h.record i).placed ++ s.hub.run.owes i = h.taken.drop n ∨
        i ∉ s.hub.clients ∧ c.send.closed = true) ∧
      ∀ a t, recorded.step (s, h) a = some t → (t.2.record i).joined = some n) ∧
    (h.record i).received ++ c.send.buffer = (h.record i).placed ∧
    (∀ message rest t, s.hub.run = .broadcasting message rest →
      recorded.step (s, h) (.visit i) = some t →
        (∃ send, c.send.send message = .done send) ∧ i ∈ t.1.hub.clients ∧
            (∃ c', t.1.clients[i]? = some c' ∧ c'.send.buffer = c.send.buffer ++ [message]) ∧
            (t.2.record i).placed = (h.record i).placed ++ [message] ∨
          c.send.send message = .blocks ∧ i ∉ t.1.hub.clients ∧
            (∃ c', t.1.clients[i]? = some c' ∧ c'.send.closed = true) ∧
            (t.2.record i).placed = (h.record i).placed) := by
  obtain ⟨sound, records⟩ := recorded_of_reachable reachable
  have kept := records.each i c found
  refine ⟨kept.unjoined, fun n joined => ?_, kept.held, fun message rest t running taken => ?_⟩
  · obtain ⟨early, isPrefix, current⟩ := kept.block n joined
    refine ⟨early, isPrefix, ?_, fun a t taken => ?_⟩
    · have standing := sound.each i c found
      have handled : ¬ c.Awaits (i ∈ s.hub.register.buffer) := by
        intro awaits
        rw [kept.fresh awaits] at joined
        cases joined
      by_cases inMap : i ∈ s.hub.clients
      · exact .inl ⟨inMap, (standing.known handled).mp inMap, current inMap⟩
      · exact .inr ⟨inMap, by simpa [inMap] using standing.known handled⟩
    · obtain ⟨t, h'⟩ := t
      obtain ⟨stepped, rfl⟩ := Transition.System.step_withHistory.mp taken
      exact records.joined_once (State.step_cases stepped) found joined
  · obtain ⟨t, h'⟩ := t
    obtain ⟨stepped, rfl⟩ := Transition.System.step_withHistory.mp taken
    have step : s.Step (.visit i) t := State.step_cases stepped
    cases step with
    | visits running' unvisited found' =>
      cases running.symm.trans running'
      cases found.symm.trans found'
      exact sound.visit_cases h running unvisited found rfl
    | moves ofRun _ _ | reads ofRun | leaves ofRun _ _ _ | breaks ofRun _ => cases ofRun

/-- The second client joins after the first message; the loop has brought the second message to
the first client only, which has received the first one. -/
def lateClientRun : List Action :=
  [.accept, .serve 0, .register, .publish "stats", .broadcast, .visit 0, .finish, .accept, .serve 1,
    .register, .publish "jobs", .broadcast, .visit 0, .serve 0, .write 0 true]

theorem lateClientRun_block : ∃ s h c,
    recorded.Reachable (fun _ _ => True) (s, h) ∧ s.clients[1]? = some c ∧
    h.taken = ["stats", "jobs"] ∧ h.record 0 = ⟨some 0, ["stats", "jobs"], ["stats"]⟩ ∧
    h.record 1 = ⟨some 1, [], []⟩ ∧ (h.record 1).placed ++ s.hub.run.owes 1 = h.taken.drop 1 := by
  have ⟨⟨s, h⟩, reachable, evaluated⟩ : ∃ p, recorded.Reachable (fun _ _ => True) p ∧
      p.1.clients[1]?.isSome = true ∧ 1 ∈ p.1.hub.clients ∧ p.2.taken = ["stats", "jobs"] ∧
      p.2.record 0 = ⟨some 0, ["stats", "jobs"], ["stats"]⟩ ∧ p.2.record 1 = ⟨some 1, [], []⟩ :=
    Transition.System.exists_reachable_of_exec lateClientRun recorded_start (by decide)
  obtain ⟨found, inMap, taken, first, second⟩ := evaluated
  obtain ⟨c, found⟩ := Option.isSome_iff_exists.mp found
  obtain ⟨-, block, -⟩ := broadcast_without_gaps reachable found
  obtain ⟨-, -, current, -⟩ := block 1 (congrArg Record.joined second)
  obtain ⟨-, -, complete⟩ := current.resolve_right fun gone => gone.1 inMap
  exact ⟨s, h, c, reachable, found, taken, first, second, complete⟩

end GoQueue.Dashboard
