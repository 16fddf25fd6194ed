/-
The mute flag of the roster, and the microphone behind it.

A participant's `is_muted` is written by its own `state.update` frames, by
`host.mute` and `host.mute_all`, and by a `PATCH` of the host; its microphone is
switched by its own button and by `host.muted_you`.  Frames of the two directions
may cross, and the `PATCH` sends no frame at all.

* `MicRoom.next` — the browser of one participant, its socket, and the handlers and
  requests that touch its flag;
* `MicRoom.Agrees` — what the row will be once the server has read everything, and
  what the microphone will be once the browser has;
* `mute_flag_truthful` — they agree in every run without the three crossings.
-/
import ZoomClone.Admission
import ZoomClone.Broadcasts
import ZoomClone.Microphone

namespace ZoomClone

/-! ### The browser's side of the socket -/

/-- The mute flag a `state.update` reports. -/
def OutboundFrame.muted? (f : OutboundFrame) : Option Bool :=
  match Json.get f.payload "is_muted" with
  | .bool b => some b
  | _ => none

def Effect.frame? : Effect → Option OutboundFrame
  | .send f => some f
  | _ => none

/-- The item tells the browser to mute. -/
def WireItem.IsOrder : WireItem → Prop
  | .frame f => ∃ sentBy, f.body = .hostMutedYou sentBy
  | .close _ => False

namespace MeetingRoom

/-- Something arrives, with what the room sends in reply. -/
def answer (room : MeetingRoom) : WireItem → MeetingRoom × List OutboundFrame
  | .frame f =>
    let (room, effects) := room.opened.handleFrame f
    (room, effects.filterMap Effect.frame?)
  | .close _ => (room.closed, [])

/-- The local audio tracks are disabled. -/
def MicOff (room : MeetingRoom) : Prop :=
  ∀ track ∈ audioTracksOf room.localStream, track.enabled = false

instance (room : MeetingRoom) : Decidable room.MicOff :=
  inferInstanceAs (Decidable (∀ track ∈ audioTracksOf room.localStream, _))

end MeetingRoom

/-! ### The two ends -/

/-- The browser of a socket has taken all but the rest. -/
def MediaRoom.take (m : MediaRoom) (c : ConnectionId) (rest : List WireItem) : MediaRoom :=
  { m with wires := Function.update m.wires c rest }

/-- A participant's browser and its socket, over the handlers of media state. -/
structure MicRoom where
  media : MediaRoom
  connection : Connection
  room : MeetingRoom
  /-- What the browser sent and the server has not read. -/
  up : List OutboundFrame := []

inductive MicEvent where
  /-- The user presses the mute button. -/
  | press
  /-- The browser takes the next item off its socket. -/
  | deliver
  /-- The handler of the socket reads the next frame. -/
  | handle (id : String) (now : DateTime)
  /-- The handler of another participant's socket takes a message. -/
  | message (d : Connection) (message : Json) (id : String) (now : DateTime)
  /-- A handler goes on to its next send. -/
  | resume (d : ConnectionId)
  /-- `PATCH /participants/{id}` with `is_muted` true. -/
  | patch (userId : UserId) (changes : MediaPatch)

/-- The row of the participant is muted. -/
def Db.MutedRow (db : Db) (p : ParticipantId) : Prop :=
  ∃ q ∈ db.participants, q.id = p ∧ q.isMuted = true

/-- The operation mutes the row of the participant for the host. -/
def Operation.Mutes (db : Db) (p : ParticipantId) : Operation → Prop
  | .hostMute _ targetId => targetId = p
  | .hostMuteAll actorId => p ≠ actorId ∧ ∃ q ∈ db.participants, q.id = p ∧ q.leftAt = none ∧
      ∃ actor, db.getParticipant actorId = some actor ∧ q.meetingId = actor.meetingId
  | _ => False

/-- The action orders the socket to mute. -/
def Action.Orders (c : Connection) (a : Action) : Prop :=
  ∃ d : Connection, d.meetingId = c.meetingId ∧ a = mutedYou d c.participantId

namespace MicRoom

/-- What was put on the socket of the participant and not yet taken. -/
def down (n : MicRoom) : List WireItem := n.media.wires n.connection.connectionId

/-- One event.  An event that cannot happen changes nothing. -/
def next (n : MicRoom) : MicEvent → MicRoom
  | .press =>
    if n.room.phase = .live then
      let (room, effects) := n.room.toggleMute
      { n with room, up := n.up ++ effects.filterMap Effect.frame? }
    else n
  | .deliver =>
    match n.down with
    | [] => n
    | item :: rest =>
      let (room, sent) := n.room.answer item
      { n with media := n.media.take n.connection.connectionId rest, room, up := n.up ++ sent }
  | .handle id now =>
    match n.up with
    | [] => n
    | f :: up =>
      if n.media.scripts n.connection.connectionId = [] then
        { n with media := n.media.next (.message n.connection f.json id now), up }
      else n
  | .message d message id now =>
    if d.participantId = n.connection.participantId then n
    else { n with media := n.media.next (.message d message id now) }
  | .resume d => { n with media := n.media.next (.resume d) }
  | .patch userId changes =>
    if changes.isMuted = some true then
      let server := { n.media.server with
        db := n.media.server.db.apply
          (.request (.updateParticipant userId n.connection.participantId changes)) }
      { n with media := { n.media with server } }
    else n

/-- A mute order for the participant is on its way. -/
def Ordered (n : MicRoom) : Prop :=
  (∃ i ∈ n.down, i.IsOrder) ∨ ∃ d, ∃ a ∈ n.media.scripts d, a.Orders n.connection

/-- The last mute flag the browser has reported and the server has not read.  Until
its first `room.state` is there, it is about to report the flag it joined with. -/
def reports (n : MicRoom) : Option Bool :=
  if n.room.phase = .live then n.up.getLast?.bind OutboundFrame.muted?
  else some n.room.initialMedia.isMuted

/-- The message goes through, and mutes the participant for the host. -/
def Mutes (n : MicRoom) (d : Connection) (message : Json) (id : String) (now : DateTime) : Prop :=
  ∃ inbound op db', readMessage message = .ok inbound ∧ inbound.operation d id now = some op ∧
    op.Mutes n.media.server.db n.connection.participantId ∧
      runOperation n.media.server.db op = .ok db'

/-- No crossing: nobody unmutes while an order is on its way, the host mutes nobody
whose unmuting is on its way, and it patches nobody who is not muted already or
about to report. -/
def Uncrossed (n : MicRoom) : MicEvent → Prop
  | .press => n.room.store.isMuted = true → ¬ n.Ordered
  | .message d message id now => n.Mutes d message id now → n.reports ≠ some false
  | .patch userId changes => n.reports = none →
      (∃ db', runOperation n.media.server.db
        (.request (.updateParticipant userId n.connection.participantId changes)) = .ok db') →
        n.media.server.db.MutedRow n.connection.participantId
  | _ => True

/-- The participant is in the room, no frame is in flight, and no handler is about to
send one. -/
def Settled (n : MicRoom) : Prop :=
  n.room.phase = .live ∧ n.up = [] ∧ n.down = [] ∧ ∀ d, n.media.scripts d = []

/-- The flag of the row tells the truth about the microphone. -/
def Truthful (n : MicRoom) : Prop :=
  ∀ q ∈ n.media.server.db.participants, q.id = n.connection.participantId →
    (q.isMuted = true ↔ n.room.MicOff)

/-- The participant's socket was accepted, and its first `room.state` is on the way. -/
def start (s : Server) (number : String) (inviteToken : Option String) (stream : MediaStream)
    (response : JoinResponse) (c : ConnectionId) (meeting : Meeting) (participant : Participant) :
    MicRoom where
  media :=
    { server := (s.step (.connect number response.sessionId c)).1
      wires := fun d => itemsFor d (s.step (.connect number response.sessionId c)).2 }
  connection := ⟨c, participant.id, meeting.id⟩
  room := ((MeetingRoom.mount number inviteToken).join (some stream)).1.joined response c

end MicRoom

/-! ### What the server's handlers do to the flag -/

/-- The frame is nothing to a microphone. -/
def FrameBody.mild : FrameBody → Bool
  | .peerUpdated _ _ _ _ => true
  | .peerJoined _ => true
  | .error _ _ _ => true
  | _ => false

/-- What a handler of media state has left to send. -/
inductive Action.MediaSend : Action → Prop
  | order (d : Connection) (t : ParticipantId) : MediaSend (mutedYou d t)
  | other (a : Action) (f : Frame) (hf : a.frame = some f)
      (hmild : f.body.mild = true) : MediaSend a

/-- What may be on the socket after its first `room.state`. -/
def WireItem.Mild (i : WireItem) : Prop := i.IsOrder ∨ ∃ f, i = .frame f ∧ f.body.mild = true

section Handlers

variable {db db' : Db} {p : ParticipantId} {c d : Connection}

/-- An order is a `host.muted_you` frame. -/
theorem not_orders_of_mild {a : Action} {f : Frame} (hf : a.frame = some f)
    (hmild : f.body.mild = true) : ¬ a.Orders c := by
  rintro ⟨d, -, rfl⟩
  obtain rfl := Option.some.inj hf
  cases hmild

theorem target_of_orders {t : ParticipantId} (h : (mutedYou d t).Orders c) :
    t = c.participantId := by
  obtain ⟨d', -, heq⟩ := h
  exact (Action.sendToParticipant.inj heq).2.1

theorem mutedRow_iff {q : Participant} (hq : q ∈ db.participants) (hid : q.id = p) :
    db.MutedRow p ↔ q.isMuted = true := by
  constructor
  · rintro ⟨q', hq', hid', hmuted⟩
    rwa [Keyed.eq_of_key_eq hq hq' (hid.trans hid'.symm)]
  · exact fun hmuted => ⟨q, hq, hid, hmuted⟩

/-- The flag after an update of rows. -/
theorem mutedRow_updateRows {P : Participant → Prop} [DecidablePred P]
    {f : Participant → Participant} (hf : ∀ p, (f p).id = p.id) {q : Participant}
    (hq : q ∈ db.participants) (hid : q.id = p) :
    (db.updateRows P f hf).MutedRow p ↔ (if P q then f q else q).isMuted = true := by
  refine mutedRow_iff (Db.mem_updateRows.mpr ⟨q, hq, rfl⟩) ?_
  split
  · exact (hf q).trans hid
  · exact hid

/-- What a message of another participant does to the flag: nothing, or it mutes the
row and orders the socket to mute. -/
structure HandledFlag (db db' : Db) (c : Connection) (actions : List Action) (mutes : Prop) :
    Prop where
  sends : ∀ a ∈ actions, a.MediaSend
  flag : (db'.MutedRow c.participantId ↔ db.MutedRow c.participantId) ∧
    (∀ a ∈ actions, ¬ a.Orders c) ∨
    mutes ∧ db'.MutedRow c.participantId ∧ ∃ a ∈ actions, a.Orders c

theorem handledFlag_mild {mutes : Prop} {actions : List Action}
    (hflag : db'.MutedRow c.participantId ↔ db.MutedRow c.participantId)
    (h : ∀ a ∈ actions, ∃ f, a.frame = some f ∧ f.body.mild = true) :
    HandledFlag db db' c actions mutes where
  sends := by
    intro a ha
    obtain ⟨f, hf, hmild⟩ := h a ha
    exact .other a f hf hmild
  flag := by
    refine .inl ⟨hflag, ?_⟩
    intro a ha
    obtain ⟨f, hf, hmild⟩ := h a ha
    exact not_orders_of_mild hf hmild

theorem failureFrame_mild (e : Raised) : (failureFrame e).body.mild = true := by
  cases e <;> rfl

/-- Two sockets of one meeting, and the rows they belong to. -/
theorem meetingId_of_actor {s : Server} (hv : s.Valid) (hd : d ∈ s.sockets) {actor : Participant}
    (hactor : s.db.getParticipant d.participantId = some actor) :
    actor.meetingId = d.meetingId := by
  obtain ⟨q, hq, hid, hm⟩ := hv.row d hd
  rwa [Keyed.eq_of_key_eq (getParticipant_mem hactor) hq
    ((Keyed.key_of_find? hactor).trans hid.symm)]

theorem HandledFlag.imp {actions : List Action} {mutes mutes' : Prop}
    (h : HandledFlag db db' c actions mutes) (himp : mutes → mutes') :
    HandledFlag db db' c actions mutes' where
  sends := h.sends
  flag := h.flag.imp_right fun hmuted => ⟨himp hmuted.1, hmuted.2⟩

section Message

variable {s : Server} (hv : s.Valid) (hc : c ∈ s.sockets)
  {inbound : Inbound} {actions : List Action}
  {id : String} {now : DateTime}

include hv hc

/-- Another participant reports its own flags. -/
theorem flag_of_stateUpdate (hne : d.participantId ≠ c.participantId)
    (h : handleStateUpdate s.db d inbound = .ok (db', actions)) {mutes : Prop} :
    HandledFlag s.db db' c actions mutes := by
  obtain ⟨q, hq, hqid, -⟩ := hv.row c hc
  obtain ⟨v, hv', rfl⟩ := handleStateUpdate_eq_ok.mp h
  obtain ⟨t, ht, rfl, rfl⟩ := applyStateUpdate_eq_ok.mp hv'
  have hqt : q.id ≠ t.id := by
    rw [hqid, Keyed.key_of_find? ht]
    exact hne.symm
  refine handledFlag_mild ?_ ?_
  · rw [Db.updateRow, mutedRow_updateRows _ hq hqid, if_neg hqt, mutedRow_iff hq hqid]
  · intro a ha
    obtain rfl := List.mem_singleton.mp ha
    exact ⟨_, rfl, rfl⟩

/-- The host mutes one participant: this one, or another. -/
theorem flag_of_hostMute (hd : d ∈ s.sockets) (hhandler : inbound.handler = .hostMute)
    (h : handleHostMute s.db d inbound = .ok (db', actions)) :
    HandledFlag s.db db' c actions (∃ op db', inbound.operation d id now = some op ∧
      op.Mutes s.db c.participantId ∧ runOperation s.db op = .ok db') := by
  obtain ⟨q, hq, hqid, hqm⟩ := hv.row c hc
  obtain ⟨t, actor, v, htarget, hactor, hv', rfl⟩ := handleHostMute_eq_ok.mp h
  obtain ⟨-, r, hr, rfl, rfl⟩ := hostMute_eq_ok.mp hv'
  obtain ⟨hget, hsame⟩ := targetRow_eq_ok.mp hr
  have hrt : r.id = t := Keyed.key_of_find? hget
  have hsends : ∀ a ∈ [mutedYou d t, peerUpdated d (serializeParticipant r.mute)], a.MediaSend := by
    intro a ha
    rcases List.mem_cons.mp ha with rfl | ha
    · exact .order d t
    · obtain rfl := List.mem_singleton.mp ha
      exact .other _ _ rfl rfl
  refine ⟨hsends, ?_⟩
  by_cases ht : t = c.participantId
  · -- The target is the participant: its row is muted, and the order goes to its room.
    obtain rfl := Keyed.eq_of_key_eq (getParticipant_mem hget) hq (hrt.trans (ht.trans hqid.symm))
    refine .inr ⟨⟨.hostMute d.participantId t, _, ?_, ht, runOperation_hostMute hactor hv'⟩, ?_,
      mutedYou d t, List.mem_cons_self, d, ?_, by rw [ht]⟩
    · rw [Inbound.operation, hhandler, htarget]
      rfl
    · rw [Db.updateRow, mutedRow_updateRows _ hq hqid, if_pos rfl]
      rfl
    · rw [← hqm, hsame, meetingId_of_actor hv hd hactor]
  · refine .inl ⟨?_, ?_⟩
    · have hqr : q.id ≠ r.id := by
        rw [hqid, hrt]
        exact fun h => ht h.symm
      rw [Db.updateRow, mutedRow_updateRows _ hq hqid, if_neg hqr, mutedRow_iff hq hqid]
    · intro a ha
      rcases List.mem_cons.mp ha with rfl | ha
      · exact fun h => ht (target_of_orders h)
      · obtain rfl := List.mem_singleton.mp ha
        exact not_orders_of_mild rfl rfl

/-- The host mutes everybody else who is there. -/
theorem flag_of_hostMuteAll (hd : d ∈ s.sockets) (hne : d.participantId ≠ c.participantId)
    (hhandler : inbound.handler = .hostMuteAll)
    (h : handleHostMuteAll s.db d = .ok (db', actions)) :
    HandledFlag s.db db' c actions (∃ op db', inbound.operation d id now = some op ∧
      op.Mutes s.db c.participantId ∧ runOperation s.db op = .ok db') := by
  obtain ⟨q, hq, hqid, hqm⟩ := hv.row c hc
  obtain ⟨actor, vs, hactor, hv', rfl⟩ := handleHostMuteAll_eq_ok.mp h
  obtain ⟨-, rfl, rfl⟩ := hostMuteAll_eq_ok.mp hv'
  refine ⟨?_, ?_⟩
  · intro a ha
    obtain ⟨p, -, -, rfl | rfl⟩ := mem_muteAll.mp ha
    · exact .order d p.id
    · exact .other _ _ rfl rfl
  by_cases hP : q.meetingId = actor.meetingId ∧ q.leftAt = none ∧ q.id ≠ actor.id
  · -- The participant is among them.
    refine .inr ⟨⟨.hostMuteAll d.participantId, _, ?_,
      ⟨hne.symm, q, hq, hqid, hP.2.1, actor, hactor, hP.1⟩,
      runOperation_hostMuteAll hactor hv'⟩, ?_, mutedYou d q.id,
        mem_muteAll.mpr ⟨q, hq, hP, .inl rfl⟩,
      d, ?_, by rw [hqid]⟩
    · rw [Inbound.operation, hhandler]
    · rw [mutedRow_updateRows _ hq hqid, if_pos hP]
      rfl
    · rw [← hqm, hP.1, meetingId_of_actor hv hd hactor]
  · refine .inl ⟨?_, ?_⟩
    · rw [mutedRow_updateRows _ hq hqid, if_neg hP, mutedRow_iff hq hqid]
    · intro a ha
      obtain ⟨p, hp, hPp, rfl | rfl⟩ := mem_muteAll.mp ha
      · intro h
        have hpq := Keyed.eq_of_key_eq hp hq ((target_of_orders h).trans hqid.symm)
        exact hP (hpq ▸ hPp)
      · exact not_orders_of_mild rfl rfl

/-- **A message of another participant.** -/
theorem onMessage_flag (hd : d ∈ s.sockets) (hne : d.participantId ≠ c.participantId)
    {message : Json}
    (hmedia : IsMedia message) (id : String) (now : DateTime) :
    HandledFlag s.db (onMessage s.db s.registry d message id now).1 c
      (onMessage s.db s.registry d message id now).2
      (∃ inbound op db', readMessage message = .ok inbound ∧ inbound.operation d id now = some op ∧
        op.Mutes s.db c.participantId ∧ runOperation s.db op = .ok db') := by
  obtain ⟨inbound, hread, hmedia⟩ := hmedia.read
  rw [onMessage, hread]
  dsimp only
  cases hhandle : handle s.db s.registry d inbound id now with
  | error e =>
    refine handledFlag_mild Iff.rfl ?_
    intro a ha
    obtain rfl := List.mem_singleton.mp ha
    exact ⟨_, rfl, failureFrame_mild e⟩
  | ok result =>
    obtain ⟨db', actions⟩ := result
    rw [handle] at hhandle
    -- The three handlers of media state.
    rcases hmedia with hhandler | hhandler | hhandler <;> rw [hhandler] at hhandle
    · exact flag_of_stateUpdate hv hc hne hhandle
    · exact (flag_of_hostMute hv hc hd hhandler hhandle).imp (by
        rintro ⟨op, db', hop⟩
        exact ⟨inbound, op, db', rfl, hop⟩)
    · exact (flag_of_hostMuteAll hv hc hd hne hhandler hhandle).imp (by
        rintro ⟨op, db', hop⟩
        exact ⟨inbound, op, db', rfl, hop⟩)

end Message

/-- A send reaches the participant's socket as an order exactly when it is an order
for it. -/
theorem items_of_mediaSend {s : Server} (hv : s.Valid) {a : Action} (ha : a.MediaSend)
    (hc : s.registry.find c.meetingId c.participantId = some c) :
    (∀ i ∈ itemsFor c.connectionId (perform s.registry a).2, i.Mild) ∧
      ((∃ i ∈ itemsFor c.connectionId (perform s.registry a).2, i.IsOrder) ↔ a.Orders c) := by
  have hsocket := (hv.registered _ c (RoomRegistry.find_mem hc).1).2
  cases ha with
  | order d t =>
    -- An order goes to the socket that the registry finds for its target.
    have horder {i : WireItem}
        (hi : i ∈ itemsFor c.connectionId (perform s.registry (mutedYou d t)).2) :
        i.IsOrder ∧ (mutedYou d t).Orders c := by
      obtain ⟨delivery, hdelivery, hcid, rfl⟩ := mem_itemsFor.mp hi
      obtain ⟨w, hw, rfl⟩ := List.mem_map.mp hdelivery
      obtain ⟨hmem, hpid⟩ := RoomRegistry.find_mem (Option.mem_toList.mp hw)
      obtain ⟨hwm, hws⟩ := hv.registered _ w hmem
      obtain rfl := Keyed.eq_of_key_eq hws hsocket hcid
      exact ⟨⟨_, rfl⟩, d, hwm.symm, by rw [hpid]⟩
    refine ⟨fun i hi => .inl (horder hi).1, fun ⟨i, hi, _⟩ => (horder hi).2, ?_⟩
    rintro ⟨d', hm, heq⟩
    obtain ⟨hroom, ht, -⟩ := Action.sendToParticipant.inj heq
    refine ⟨_, mem_itemsFor.mpr ⟨⟨c, _⟩, List.mem_map.mpr ⟨c, ?_, rfl⟩, rfl, rfl⟩, _, rfl⟩
    rw [Option.mem_toList, hroom, ht, hm]
    exact hc
  | other _ f hf hmild =>
    have hitem {i : WireItem} (hi : i ∈ itemsFor c.connectionId (perform s.registry a).2) :
        i = .frame f := by
      obtain ⟨delivery, hdelivery, -, rfl⟩ := mem_itemsFor.mp hi
      exact (perform_frame hf s.registry).2 delivery hdelivery
    refine ⟨fun i hi => .inr ⟨f, hitem hi, hmild⟩, ?_,
      fun h => absurd h (not_orders_of_mild hf hmild)⟩
    rintro ⟨i, hi, horder⟩
    rw [hitem hi] at horder
    obtain ⟨sentBy, hbody⟩ := horder
    rw [hbody] at hmild
    cases hmild

end Handlers

/-! ### The handlers, as the participant sees them -/

/-- What a `state.update` of the browser is read as. -/
theorem readMessage_stateUpdate (b : Bool) (v : Option Bool) :
    ∃ inbound, readMessage (MeetingRoom.stateUpdate (some b) v).json = .ok inbound ∧
      inbound.handler = .stateUpdate ∧
      (MediaPatch.ofPayload inbound.payload).isMuted = some b := by
  cases v with
  | none => exact ⟨_, rfl, rfl, by cases b <;> rfl⟩
  | some b' => exact ⟨_, rfl, rfl, by cases b <;> rfl⟩

theorem muted?_stateUpdate (b : Bool) (v : Option Bool) :
    (MeetingRoom.stateUpdate (some b) v).muted? = some b := by
  cases v <;> rfl

namespace MediaRoom

variable {m : MediaRoom} {c : Connection}

/-- A mute order for the socket is on its way. -/
def OrderedFor (m : MediaRoom) (c : Connection) : Prop :=
  (∃ i ∈ m.wires c.connectionId, i.IsOrder) ∨ ∃ d, ∃ a ∈ m.scripts d, a.Orders c

/-- The socket is the one that the server finds for its participant. -/
structure ServesMic (m : MediaRoom) (c : Connection) : Prop where
  server : m.server.Valid
  socket : m.server.registry.find c.meetingId c.participantId = some c
  sends : ∀ d, ∀ a ∈ m.scripts d, a.MediaSend

theorem ServesMic.take (h : m.ServesMic c) (rest : List WireItem) :
    (m.take c.connectionId rest).ServesMic c := ⟨h.server, h.socket, h.sends⟩

/-- What is on its way before an item is taken, and after. -/
theorem orderedFor_take {item : WireItem} {rest : List WireItem}
    (h : m.wires c.connectionId = item :: rest) :
    m.OrderedFor c ↔ item.IsOrder ∨ (m.take c.connectionId rest).OrderedFor c := by
  have hrest : (m.take c.connectionId rest).wires c.connectionId = rest := Function.update_self ..
  rw [OrderedFor, OrderedFor, h, hrest, List.exists_mem_cons_iff, or_assoc]
  rfl

/-- What a step of the handlers puts on the socket is mild. -/
def Extends (m m' : MediaRoom) (c : Connection) : Prop :=
  ∃ items, (∀ i ∈ items, i.Mild) ∧ m'.wires c.connectionId = m.wires c.connectionId ++ items

theorem frame_of_mediaSend {a : Action} (ha : a.MediaSend) : ∃ f, a.frame = some f := by
  cases ha with
  | order d t => exact ⟨_, rfl⟩
  | other _ f hf hmild => exact ⟨f, hf⟩

theorem ServesMic.mem_sockets (h : m.ServesMic c) : c ∈ m.server.sockets :=
  (h.server.registered _ c (RoomRegistry.find_mem h.socket).1).2

/-- **The next send.**  An order stays on its way. -/
theorem ServesMic.resume (h : m.ServesMic c) (d : ConnectionId) :
    (m.resume d).ServesMic c ∧ (m.resume d).server = m.server ∧ m.Extends (m.resume d) c ∧
      ((m.resume d).OrderedFor c ↔ m.OrderedFor c) := by
  cases hscript : m.scripts d with
  | nil =>
    rw [resume_nil hscript]
    exact ⟨h, rfl, ⟨[], List.forall_mem_nil _, (List.append_nil _).symm⟩, Iff.rfl⟩
  | cons a script =>
  have ha : a.MediaSend := h.sends d a (hscript ▸ List.mem_cons_self)
  obtain ⟨f, hf⟩ := frame_of_mediaSend ha
  obtain ⟨hmild, horder⟩ := items_of_mediaSend h.server ha h.socket
  -- What was left to send is what is left now, and the action that was sent.
  have hmem {d' : ConnectionId} {b : Action} :
      b ∈ m.scripts d' ↔ b ∈ Function.update m.scripts d script d' ∨ (d' = d ∧ b = a) := by
    by_cases hd : d' = d
    · subst hd
      rw [Function.update_self, hscript, List.mem_cons, or_comm, and_iff_right rfl]
    · rw [Function.update_of_ne hd]
      exact (or_iff_left fun hboth => hd hboth.1).symm
  rw [resume_cons hscript hf]
  refine ⟨⟨h.server, h.socket, fun d' b hb => h.sends d' b (hmem.mpr (.inl hb))⟩, rfl,
    ⟨_, hmild, rfl⟩, ?_⟩
  have hwire : (∃ i ∈ m.wires c.connectionId ++ itemsFor c.connectionId
      (perform m.server.registry a).2, i.IsOrder) ↔
      (∃ i ∈ m.wires c.connectionId, i.IsOrder) ∨ a.Orders c := by
    rw [← horder]
    simp only [List.mem_append, or_and_right, exists_or]
  have hscripts : (∃ d', ∃ b ∈ m.scripts d', b.Orders c) ↔
      (∃ d', ∃ b ∈ Function.update m.scripts d script d', b.Orders c) ∨ a.Orders c := by
    constructor
    · rintro ⟨d', b, hb, hborder⟩
      rcases hmem.mp hb with hb | ⟨-, rfl⟩
      · exact .inl ⟨d', b, hb, hborder⟩
      · exact .inr hborder
    · rintro (⟨d', b, hb, hborder⟩ | haorder)
      · exact ⟨d', b, hmem.mpr (.inl hb), hborder⟩
      · exact ⟨d, a, hmem.mpr (.inr ⟨rfl, rfl⟩), haorder⟩
  rw [OrderedFor, OrderedFor, hwire, hscripts, or_assoc, or_comm (a := a.Orders c)]

theorem commit_scripts (m : MediaRoom) (d : Connection) (message : Json)
    (id : String) (now : DateTime) :
    (m.commit d message id now).scripts = Function.update m.scripts d.connectionId
      (onMessage m.server.db m.server.registry d message id now).2 := rfl

theorem commit_server (m : MediaRoom) (d : Connection) (message : Json)
    (id : String) (now : DateTime) :
    (m.commit d message id now).server = { m.server with
      db := (onMessage m.server.db m.server.registry d message id now).1 } := rfl

/-- What an idle handler leaves to send is what it adds to the orders. -/
theorem orderedFor_commit {d : Connection} (hidle : m.scripts d.connectionId = []) (message : Json)
    (id : String) (now : DateTime) : (m.commit d message id now).OrderedFor c ↔ m.OrderedFor c ∨
      ∃ a ∈ (onMessage m.server.db m.server.registry d message id now).2, a.Orders c := by
  have hscripts : (∃ d', ∃ a ∈ (m.commit d message id now).scripts d', a.Orders c) ↔
      (∃ d', ∃ a ∈ m.scripts d', a.Orders c) ∨
        ∃ a ∈ (onMessage m.server.db m.server.registry d message id now).2, a.Orders c := by
    constructor
    · rintro ⟨d', a, ha, horder⟩
      -- Only the script of this handler is new.
      by_cases hd : d' = d.connectionId
      · rw [hd, commit_scripts, Function.update_self] at ha
        exact .inr ⟨a, ha, horder⟩
      · rw [commit_scripts, Function.update_of_ne hd] at ha
        exact .inl ⟨d', a, ha, horder⟩
    · rintro (⟨d', a, ha, horder⟩ | ⟨a, ha, horder⟩)
      · have hd : d' ≠ d.connectionId := by
          rintro rfl
          rw [hidle] at ha
          cases ha
        exact ⟨d', a, by rwa [commit_scripts, Function.update_of_ne hd], horder⟩
      · exact ⟨d.connectionId, a, by rwa [commit_scripts, Function.update_self], horder⟩
  rw [OrderedFor, OrderedFor, hscripts, or_assoc]
  rfl

theorem ServesMic.commit (h : m.ServesMic c) {d : Connection} {message : Json} {id : String}
    {now : DateTime}
    (hsends : ∀ a ∈ (onMessage m.server.db m.server.registry d message id now).2, a.MediaSend) :
    (m.commit d message id now).ServesMic c where
  server := by
    rcases onMessage_db m.server.db m.server.registry d message id now with hdb | ⟨op, -, hdb⟩
    · rw [commit_server, hdb]
      exact h.server
    · rw [commit_server, hdb]
      exact h.server.apply op
  socket := h.socket
  sends := by
    intro d' a ha
    by_cases hd : d' = d.connectionId
    · rw [hd, commit_scripts, Function.update_self] at ha
      exact hsends a ha
    · rw [commit_scripts, Function.update_of_ne hd] at ha
      exact h.sends d' a ha

/-- **A message of another participant.**  Nothing changes for the socket, or its row
is muted and an order is on its way. -/
theorem ServesMic.message (h : m.ServesMic c) {d : Connection}
    (hne : d.participantId ≠ c.participantId)
    (message : Json) (id : String) (now : DateTime) :
    (m.next (.message d message id now)).ServesMic c ∧
      m.Extends (m.next (.message d message id now)) c ∧
      (((m.next (.message d message id now)).server.db.MutedRow c.participantId ↔
            m.server.db.MutedRow c.participantId) ∧
          ((m.next (.message d message id now)).OrderedFor c ↔ m.OrderedFor c) ∨
        (∃ inbound op db', readMessage message = .ok inbound ∧
      inbound.operation d id now = some op ∧
            op.Mutes m.server.db c.participantId ∧ runOperation m.server.db op = .ok db') ∧
          (m.next (.message d message id now)).server.db.MutedRow c.participantId ∧
          (m.next (.message d message id now)).OrderedFor c) := by
  rw [MediaRoom.next]
  split
  · next hguard =>
    obtain ⟨⟨hd, hidle⟩, hmedia⟩ := hguard
    have hflag := onMessage_flag h.server h.mem_sockets
      (h.server.registered _ d hd).2 hne hmedia id now
    obtain ⟨hserves, hserver, hextends, hordered⟩ := (h.commit hflag.sends).resume d.connectionId
    refine ⟨hserves, hextends, ?_⟩
    rw [hserver, hordered, orderedFor_commit hidle]
    rcases hflag.flag with ⟨hsame, hnone⟩ | ⟨hmutes, hmuted, horder⟩
    · refine .inl ⟨hsame, ?_⟩
      constructor
      · rintro (hbefore | ⟨a, ha, horder⟩)
        · exact hbefore
        · exact absurd horder (hnone a ha)
      · exact .inl
    · exact .inr ⟨hmutes, hmuted, .inr horder⟩
  · exact ⟨h, ⟨[], List.forall_mem_nil _, (List.append_nil _).symm⟩, .inl ⟨Iff.rfl, Iff.rfl⟩⟩

/-- **A report of the participant itself.**  Its row takes the flag. -/
theorem ServesMic.report (h : m.ServesMic c) (hidle : m.scripts c.connectionId = []) (b : Bool)
    (v : Option Bool) (id : String) (now : DateTime) :
    let m' := m.next (.message c (MeetingRoom.stateUpdate (some b) v).json id now)
    m'.ServesMic c ∧ m.Extends m' c ∧ (m'.server.db.MutedRow c.participantId ↔ b = true) ∧
      (m'.OrderedFor c ↔ m.OrderedFor c) := by
  obtain ⟨hmem, -⟩ := RoomRegistry.find_mem h.socket
  obtain ⟨inbound, hread, hhandler, hflag⟩ := readMessage_stateUpdate b v
  have hmedia : IsMedia (MeetingRoom.stateUpdate (some b) v).json := by
    rw [IsMedia, hread]
    exact .inl hhandler
  obtain ⟨q, hq, hqid, -⟩ := h.server.row c h.mem_sockets
  have hget : m.server.db.getParticipant c.participantId = some q := hqid ▸ Keyed.find?_of_mem hq
  -- The handler writes the flag and broadcasts the row.
  have hmessage : onMessage m.server.db m.server.registry c
      (MeetingRoom.stateUpdate (some b) v).json id now =
        (m.server.db.updateRow q.id (·.applyMedia (.ofPayload inbound.payload))
          (Participant.applyMedia_id · _),
          [peerUpdated c (serializeParticipant (q.applyMedia (.ofPayload inbound.payload)))]) := by
    have hstate : handleStateUpdate m.server.db c inbound = .ok _ :=
      handleStateUpdate_eq_ok.mpr ⟨_, applyStateUpdate_eq_ok.mpr ⟨q, hget, rfl, rfl⟩, rfl⟩
    rw [onMessage, hread]
    dsimp only
    rw [handle, hhandler]
    dsimp only
    rw [hstate]
  have hsends : ∀ a ∈ (onMessage m.server.db m.server.registry c
      (MeetingRoom.stateUpdate (some b) v).json id now).2, a.MediaSend ∧ ¬ a.Orders c := by
    rw [hmessage]
    intro a ha
    obtain rfl := List.mem_singleton.mp ha
    exact ⟨.other _ _ rfl rfl, not_orders_of_mild rfl rfl⟩
  dsimp only
  rw [MediaRoom.next, if_pos ⟨⟨hmem, hidle⟩, hmedia⟩]
  obtain ⟨hserves, hserver, hextends, hordered⟩ :=
    (h.commit fun a ha => (hsends a ha).1).resume c.connectionId
  refine ⟨hserves, hextends, ?_, ?_⟩
  · rw [hserver, commit_server, hmessage]
    dsimp only
    rw [Db.updateRow, mutedRow_updateRows _ hq hqid, if_pos rfl, Participant.applyMedia, hflag]
    rfl
  · rw [hordered, orderedFor_commit hidle]
    constructor
    · rintro (hbefore | ⟨a, ha, horder⟩)
      · exact hbefore
      · exact absurd horder (hsends a ha).2
    · exact .inl

end MediaRoom

/-! ### The browser -/

namespace MeetingRoom

variable {room : MeetingRoom}

/-- The room has a socket and a microphone. -/
structure HasMic (room : MeetingRoom) : Prop where
  signaling : room.signaling.isSome
  tracks : audioTracksOf room.localStream ≠ []

/-- The control bar shows what the tracks are. -/
def MicShown (room : MeetingRoom) : Prop := room.store.isMuted = true ↔ room.MicOff

theorem audioTracksOf_applyAudioEnabled_ne_nil {stream : Option MediaStream}
    (h : audioTracksOf stream ≠ []) (enabled : Bool) :
    audioTracksOf (applyAudioEnabled stream enabled) ≠ [] := by
  cases stream with
  | none => exact h
  | some s => exact fun hnil => h (List.map_eq_nil_iff.mp hnil)

/-- Switched tracks are off exactly when they were switched off. -/
theorem micOff_of_applied {stream : Option MediaStream} {enabled : Bool}
    (h : room.localStream = applyAudioEnabled stream enabled)
    (htracks : audioTracksOf stream ≠ []) :
    room.MicOff ↔ enabled = false := by
  have hall := audioTracksOf_applyAudioEnabled stream enabled
  rw [← h] at hall
  constructor
  · intro hoff
    obtain ⟨track, htrack⟩ := List.exists_mem_of_ne_nil _
      (h ▸ audioTracksOf_applyAudioEnabled_ne_nil htracks enabled)
    rw [← hall track htrack, hoff track htrack]
  · rintro rfl
    exact hall

/-- **The mute button.** -/
theorem HasMic.toggleMute (h : room.HasMic) :
    room.toggleMute.1.HasMic ∧ room.toggleMute.1.phase = room.phase ∧ room.toggleMute.1.MicShown ∧
      (room.toggleMute.1.MicOff ↔ room.store.isMuted = false) ∧
      room.toggleMute.2.filterMap Effect.frame? =
        [stateUpdate (some !room.store.isMuted) none] := by
  have hoff : room.toggleMute.1.MicOff ↔ (!!room.store.isMuted) = false :=
    micOff_of_applied rfl h.tracks
  rw [Bool.not_not] at hoff
  refine ⟨⟨h.signaling, audioTracksOf_applyAudioEnabled_ne_nil h.tracks _⟩, rfl, ?_, hoff, ?_⟩
  · rw [MicShown, hoff]
    show (!room.store.isMuted) = true ↔ _
    rw [Bool.not_eq_true']
  · rw [MeetingRoom.toggleMute]
    dsimp only
    rw [sends, if_pos h.signaling]
    rfl

theorem HasMic.opened (h : room.HasMic) : room.opened.HasMic where
  signaling := by
    rw [MeetingRoom.opened, Option.isSome_map]
    exact h.signaling
  tracks := h.tracks

/-- **What follows the first `room.state`.**  An order switches the microphone off,
anything else leaves it. -/
theorem HasMic.answer_mild (h : room.HasMic) (hshown : room.MicShown) {item : WireItem}
    (hmild : item.Mild) :
    (room.answer item).1.HasMic ∧ (room.answer item).1.phase = room.phase ∧
      (room.answer item).1.MicShown ∧
      ((room.answer item).1.MicOff ↔ item.IsOrder ∨ room.MicOff) ∧ (room.answer item).2 = [] := by
  have hopened := h.opened
  rcases hmild with horder | ⟨f, rfl, hmild⟩
  · cases item with
    | close code => exact horder.elim
    | frame f =>
      have horder' := horder
      obtain ⟨sentBy, hbody⟩ := horder
      rw [answer, handleFrame, hbody]
      dsimp only
      -- `applyAudioEnabled(stream, false)`, whatever it was before.
      have hoff : MicOff { room.opened with
          localStream := applyAudioEnabled room.opened.localStream false
          store := room.opened.store.setMuted true } :=
        (micOff_of_applied rfl h.tracks).mpr rfl
      exact ⟨⟨hopened.signaling, audioTracksOf_applyAudioEnabled_ne_nil h.tracks _⟩, rfl,
        iff_of_true rfl hoff, iff_of_true hoff (.inl horder'), rfl⟩
  · have hnone : ¬ WireItem.IsOrder (.frame f) := by
      rintro ⟨sentBy, hbody⟩
      rw [hbody] at hmild
      cases hmild
    rw [answer, handleFrame]
    cases hbody : f.body with
    | peerUpdated participantId isMuted isVideoOn isHandRaised =>
      refine ⟨⟨hopened.signaling, h.tracks⟩, rfl, ?_, (or_iff_right hnone).symm, rfl⟩
      rw [MicShown, MeetingStore.isMuted_patchParticipant]
      exact hshown
    | peerJoined participant =>
      exact ⟨⟨hopened.signaling, h.tracks⟩, rfl, hshown, (or_iff_right hnone).symm, rfl⟩
    | error code message details =>
      exact ⟨hopened, rfl, hshown, (or_iff_right hnone).symm, rfl⟩
    | _ =>
      rw [hbody] at hmild
      cases hmild

/-- **The first `room.state`.**  The flag of the join is shown and reported. -/
theorem HasMic.answer_roomState (h : room.HasMic) {f : Frame} {snapshot : RoomSnapshot}
    (hbody : f.body = .roomState snapshot)
    (hjoin : room.initialMedia.isMuted = true ↔ room.MicOff) :
    (room.answer (.frame f)).1.HasMic ∧ (room.answer (.frame f)).1.phase = .live ∧
      (room.answer (.frame f)).1.MicShown ∧ ((room.answer (.frame f)).1.MicOff ↔ room.MicOff) ∧
      (room.answer (.frame f)).2 =
        [stateUpdate (some room.initialMedia.isMuted) (some room.initialMedia.isVideoOn)] := by
  have hopened := h.opened
  rw [answer, handleFrame, hbody]
  dsimp only [onRoomState]
  refine ⟨⟨hopened.signaling, h.tracks⟩, rfl, ?_, Iff.rfl, ?_⟩
  · rw [MicShown, MeetingStore.isMuted_patchParticipant]
    exact hjoin
  · rw [sends, if_pos hopened.signaling]
    rfl

end MeetingRoom

/-! ### What both ends agree on -/

namespace MicRoom

variable {n : MicRoom}

/-- What the flag of the row will be once the server has read all that was sent. -/
def Flag (n : MicRoom) : Prop :=
  n.reports = some true ∨ n.reports = none ∧ n.media.server.db.MutedRow n.connection.participantId

/-- The flag that the row will have is the one that the microphone will have once the
orders on their way have arrived. -/
def Agrees (n : MicRoom) : Prop := n.Flag ↔ n.Ordered ∨ n.room.MicOff

/-- The first `room.state` is still to come, and everything sent after it is mild. -/
structure Waiting (n : MicRoom) : Prop where
  phase : n.room.phase ≠ .live
  up : n.up = []
  join : n.room.initialMedia.isMuted = true ↔ n.room.MicOff
  down : ∃ f snapshot rest, f.body = .roomState snapshot ∧ n.down = .frame f ::
    rest ∧ ∀ i ∈ rest, i.Mild

/-- The participant is in the room. -/
structure Live (n : MicRoom) : Prop where
  phase : n.room.phase = .live
  shown : n.room.MicShown
  down : ∀ i ∈ n.down, i.Mild

structure Sound (n : MicRoom) : Prop where
  serves : n.media.ServesMic n.connection
  mic : n.room.HasMic
  flags : ∀ f ∈ n.up, ∃ b v, f = MeetingRoom.stateUpdate (some b) v
  stage : n.Waiting ∨ n.Live
  agrees : n.Agrees

/-- A room that is not live has nothing on the way to the server. -/
theorem Sound.live_of_up (h : n.Sound) {f : OutboundFrame} {up : List OutboundFrame}
    (hup : n.up = f :: up) : n.Live := by
  rcases h.stage with hwait | hlive
  · rw [hwait.up] at hup
    cases hup
  · exact hlive

theorem down_take {rest : List WireItem} {room : MeetingRoom} {up : List OutboundFrame} :
    down { n with media := n.media.take n.connection.connectionId rest, room, up } = rest :=
  Function.update_self ..

theorem reports_of_live (h : n.room.phase = .live) :
    n.reports = n.up.getLast?.bind OutboundFrame.muted? := if_pos h

theorem flag_congr {n' : MicRoom} (hreports : n'.reports = n.reports)
    (hrow : n'.media.server.db.MutedRow n'.connection.participantId ↔
      n.media.server.db.MutedRow n.connection.participantId) : n'.Flag ↔ n.Flag := by
  rw [Flag, Flag, hreports, hrow]

/-- A step of the handlers leaves the browser alone. -/
theorem Sound.stage_media (h : n.Sound) {m : MediaRoom}
    (hextends : n.media.Extends m n.connection) :
    Waiting { n with media := m } ∨ Live { n with media := m } := by
  obtain ⟨items, hmild, hwires⟩ := hextends
  rcases h.stage with ⟨hphase, hup, hjoin, f, snapshot, rest, hbody, hdown, hrest⟩ |
    ⟨hphase, hshown, hdown⟩
  · refine .inl ⟨hphase, hup, hjoin, f, snapshot, rest ++ items, hbody, ?_,
      List.forall_mem_append.mpr
      ⟨hrest, hmild⟩⟩
    have hdown : n.media.wires n.connection.connectionId = .frame f :: rest := hdown
    rw [down, hwires, hdown, List.cons_append]
  · refine .inr ⟨hphase, hshown, ?_⟩
    rw [down, hwires]
    exact List.forall_mem_append.mpr ⟨hdown, hmild⟩

/-- A step of the handlers, with what it does to the row and to the orders. -/
theorem Sound.media (h : n.Sound) {m : MediaRoom} (hserves : m.ServesMic n.connection)
    (hextends : n.media.Extends m n.connection)
    (hagrees : (n.reports = some true ∨ n.reports = none ∧
      m.server.db.MutedRow n.connection.participantId) ↔ m.OrderedFor n.connection ∨
        n.room.MicOff) :
    Sound { n with media := m } :=
  ⟨hserves, h.mic, h.flags, h.stage_media hextends, hagrees⟩

/-- A step of the handlers that concerns neither. -/
theorem Sound.media_same (h : n.Sound) {m : MediaRoom} (hserves : m.ServesMic n.connection)
    (hextends : n.media.Extends m n.connection)
    (hrow : m.server.db.MutedRow n.connection.participantId ↔
      n.media.server.db.MutedRow n.connection.participantId)
    (hordered : m.OrderedFor n.connection ↔ n.media.OrderedFor n.connection) :
    Sound { n with media := m } := by
  refine h.media hserves hextends ?_
  rw [hrow, hordered]
  exact h.agrees

/-- **The mute button.**  Nothing is on its way when it unmutes. -/
theorem Sound.press (h : n.Sound) (hc : n.Uncrossed .press) : (n.next .press).Sound := by
  rw [next]
  split
  · next hphase =>
    obtain ⟨hmic, hphase', hshown, hoff, hsent⟩ := h.mic.toggleMute
    have hdown : ∀ i ∈ n.down, i.Mild := by
      rcases h.stage with hwait | hlive
      · exact absurd hphase hwait.phase
      · exact hlive.down
    dsimp only
    rw [hsent]
    refine ⟨h.serves, hmic, ?_, .inr ⟨hphase'.trans hphase, hshown, hdown⟩, ?_⟩
    · intro f hf
      rcases List.mem_append.mp hf with hf | hf
      · exact h.flags f hf
      · exact ⟨_, _, List.mem_singleton.mp hf⟩
    · have hreports : reports { n with room := n.room.toggleMute.1, up := n.up ++
          [MeetingRoom.stateUpdate (some !n.room.store.isMuted) none] } =
              some !n.room.store.isMuted := by
        rw [reports, if_pos (hphase'.trans hphase), List.getLast?_append, List.getLast?_singleton]
        exact muted?_stateUpdate _ none
      rw [Agrees, Flag, hreports, hoff]
      -- Muting agrees with any order; unmuting only with none.
      show _ ↔ n.Ordered ∨ _
      cases hmuted : n.room.store.isMuted with
      | false => simp
      | true =>
        have hnone := hc hmuted
        simp [hnone]
  · exact h

/-- **The browser takes an item.**  An order moves from the wire to the microphone. -/
theorem Sound.deliver (h : n.Sound) : (n.next .deliver).Sound := by
  rw [next]
  cases hitems : n.down with
  | nil => exact h
  | cons item rest =>
    have hordered : n.Ordered ↔ item.IsOrder ∨
        (n.media.take n.connection.connectionId rest).OrderedFor n.connection :=
      MediaRoom.orderedFor_take hitems
    have hagrees := h.agrees
    rw [Agrees, hordered] at hagrees
    dsimp only
    rcases h.stage with hwait | hlive
    · obtain ⟨hphase, hup, hjoin, f, snapshot, rest', hbody, hdown, hrest⟩ := hwait
      obtain ⟨rfl, rfl⟩ := List.cons.inj (hitems.symm.trans hdown)
      obtain ⟨hmic, hphase', hshown, hoff, hsent⟩ := h.mic.answer_roomState hbody hjoin
      have hnone : ¬ WireItem.IsOrder (.frame f) := by
        rintro ⟨sentBy, horder⟩
        rw [hbody] at horder
        cases horder
      rw [hsent, hup, List.nil_append]
      refine ⟨h.serves.take rest, hmic, ?_, .inr ⟨hphase', hshown, ?_⟩, ?_⟩
      · intro f hf
        exact ⟨_, _, List.mem_singleton.mp hf⟩
      · rwa [down_take]
      · rw [or_iff_right hnone, ← hoff] at hagrees
        refine (flag_congr ?_ ?_).trans hagrees
        · rw [reports, if_pos hphase', reports, if_neg hphase]
          exact muted?_stateUpdate _ (some n.room.initialMedia.isVideoOn)
        · exact Iff.rfl
    · obtain ⟨hmic, hphase', hshown, hoff, hsent⟩ :=
        h.mic.answer_mild hlive.shown (hlive.down item (hitems ▸ List.mem_cons_self))
      rw [hsent, List.append_nil]
      refine ⟨h.serves.take rest, hmic, h.flags, .inr ⟨hphase'.trans hlive.phase, hshown, ?_⟩, ?_⟩
      · rw [down_take]
        exact fun i hi => hlive.down i (hitems ▸ List.mem_cons_of_mem _ hi)
      · have hmoved : n.Flag ↔
          (n.media.take n.connection.connectionId rest).OrderedFor n.connection ∨
            (n.room.answer item).1.MicOff := by
          rw [hagrees, hoff, or_assoc, or_left_comm]
        refine (flag_congr ?_ ?_).trans hmoved
        · rw [reports, if_pos (hphase'.trans hlive.phase), reports, if_pos hlive.phase]
        · exact Iff.rfl

/-- **The handler of the participant's own socket.**  The row takes the flag of the
oldest report, which is the last one if it is the only one. -/
theorem Sound.handle (h : n.Sound) (id : String) (now : DateTime) :
    (n.next (.handle id now)).Sound := by
  rw [next]
  cases hup : n.up with
  | nil => exact h
  | cons f up =>
    dsimp only
    split
    · next hidle =>
      obtain ⟨b, v, rfl⟩ := h.flags f (hup ▸ List.mem_cons_self)
      have hlive := h.live_of_up hup
      obtain ⟨hserves, hextends, hrow, hordered⟩ := h.serves.report hidle b v id now
      obtain ⟨items, hmild, hwires⟩ := hextends
      refine ⟨hserves, h.mic, fun f hf => h.flags f (hup ▸ List.mem_cons_of_mem _ hf),
        .inr ⟨hlive.phase, hlive.shown, ?_⟩, ?_⟩
      · rw [down, hwires]
        exact List.forall_mem_append.mpr ⟨hlive.down, hmild⟩
      · have hagrees : n.Flag ↔ _ ∨ n.room.MicOff := h.agrees.trans (or_congr_left hordered.symm)
        have hreports : n.reports = (MeetingRoom.stateUpdate (some b) v :: up).getLast?.bind
            OutboundFrame.muted? := by rw [reports_of_live hlive.phase, hup]
        refine Iff.trans ?_ hagrees
        cases up with
        | nil =>
          rw [List.getLast?_singleton, Option.bind_some, muted?_stateUpdate] at hreports
          rw [Flag, Flag, hreports, reports, if_pos hlive.phase, hrow]
          cases b <;> simp
        | cons f' up =>
          -- The last report is still on its way.
          rw [List.getLast?_cons_cons] at hreports
          obtain ⟨last, hlast⟩ :=
            Option.isSome_iff_exists.mp (List.getLast?_isSome.mpr (List.cons_ne_nil f' up))
          obtain ⟨b', v', rfl⟩ :=
            h.flags last (hup ▸ List.mem_cons_of_mem _ (List.mem_of_getLast? hlast))
          rw [hlast, Option.bind_some, muted?_stateUpdate] at hreports
          rw [Flag, Flag, hreports, reports, if_pos hlive.phase, hlast,
            Option.bind_some, muted?_stateUpdate]
          simp
    · exact h

/-- **The handler of another participant's socket.**  The host mutes nobody whose
unmuting is on its way. -/
theorem Sound.message (h : n.Sound) {d : Connection} {message : Json} {id : String} {now : DateTime}
    (hc : n.Uncrossed (.message d message id now)) :
    (n.next (.message d message id now)).Sound := by
  rw [next]
  split
  · exact h
  · next hne =>
    obtain ⟨hserves, hextends, hcases⟩ := h.serves.message hne message id now
    rcases hcases with ⟨hrow, hordered⟩ | ⟨hmutes, hrow, hordered⟩
    · exact h.media_same hserves hextends hrow hordered
    · refine h.media hserves hextends (iff_of_true ?_ (.inl hordered))
      have hreports : n.reports ≠ some false := hc hmutes
      cases hflag : n.reports with
      | none => exact .inr ⟨rfl, hrow⟩
      | some b =>
        cases b with
        | true => exact .inl rfl
        | false => exact absurd hflag hreports

/-- **A send completes.** -/
theorem Sound.resume (h : n.Sound) (d : ConnectionId) : (n.next (.resume d)).Sound := by
  obtain ⟨hserves, hserver, hextends, hordered⟩ := h.serves.resume d
  exact h.media_same hserves hextends (by rw [MediaRoom.next, hserver]) hordered

/-- The row that the host patches is muted. -/
theorem mutedRow_patch {db db' : Db} {userId : UserId} {p : ParticipantId} {changes : MediaPatch}
    (hchanges : changes.isMuted = some true)
    (h : runOperation db (.request (.updateParticipant userId p changes)) = .ok db') :
    db'.MutedRow p := by
  obtain ⟨user, -, h⟩ := Service.bind_eq_ok.mp h
  obtain ⟨v, h⟩ := Service.commit_eq_ok.mp h
  obtain ⟨q, m, hq, -, -, rfl⟩ := updateParticipant_ok h
  rw [Db.updateRow, mutedRow_updateRows _ (getParticipant_mem hq)
    (Keyed.key_of_find? hq), if_pos rfl,
    Participant.applyMedia, hchanges]
  rfl

/-- **The host's request.**  It sends no frame, so it may only mute a row that is muted
already, or about to be written. -/
theorem Sound.patch (h : n.Sound) {userId : UserId} {changes : MediaPatch}
    (hc : n.Uncrossed (.patch userId changes)) : (n.next (.patch userId changes)).Sound := by
  rw [next]
  split
  · next hchanges =>
    refine h.media ⟨h.serves.server.apply _, h.serves.socket, h.serves.sends⟩
      ⟨[], List.forall_mem_nil _, (List.append_nil _).symm⟩ ?_
    have hagrees : n.Flag ↔ n.Ordered ∨ n.room.MicOff := h.agrees
    refine Iff.trans ?_ hagrees
    rw [Flag]
    dsimp only
    cases hrun : runOperation n.media.server.db
        (.request (.updateParticipant userId n.connection.participantId changes)) with
    | error e => rw [Db.apply, hrun]
    | ok db' =>
      rw [apply_of_ok hrun]
      have hrow := mutedRow_patch hchanges hrun
      refine or_congr_right (and_congr_right fun hnone => ?_)
      exact iff_of_true hrow (hc hnone ⟨db', hrun⟩)
  · exact h

/-- **One event without a crossing.** -/
theorem Sound.next (h : n.Sound) (e : MicEvent) (hc : n.Uncrossed e) : (n.next e).Sound := by
  cases e with
  | press => exact h.press hc
  | deliver => exact h.deliver
  | handle id now => exact h.handle id now
  | message d message id now => exact h.message hc
  | resume d => exact h.resume d
  | patch userId changes => exact h.patch hc

/-- Once nothing is on its way, the flag is the row's and the microphone is as it is. -/
theorem Sound.truthful (h : n.Sound) (hsettled : n.Settled) : n.Truthful := by
  obtain ⟨hphase, hup, hdown, hscripts⟩ := hsettled
  have hnone : ¬ n.Ordered := by
    rintro (⟨i, hi, -⟩ | ⟨d, a, ha, -⟩)
    · rw [hdown] at hi
      cases hi
    · rw [hscripts d] at ha
      cases ha
  have hreports : n.reports = none := by
    rw [reports_of_live hphase, hup]
    rfl
  have hagrees := h.agrees
  rw [Agrees, Flag, hreports, or_iff_right hnone] at hagrees
  intro q hq hid
  rw [← mutedRow_iff hq hid, ← hagrees]
  simp

/-- The room that a participant opens shows the microphone it joined with. -/
theorem join_flag (number : String) (inviteToken : Option String) (stream : MediaStream)
    (response : JoinResponse) (c : ConnectionId) :
    let room := ((MeetingRoom.mount number inviteToken).join (some stream)).1.joined response c
    room.initialMedia.isMuted = true ↔ room.MicOff := by
  show (stream.audioTracks.all fun track => !track.enabled) = true ↔
    ∀ track ∈ stream.audioTracks, track.enabled = false
  simp

/-- **The start.**  A fresh socket of an open row is sent its `room.state` first. -/
theorem sound_start {s : Server} (hv : s.Valid) {number : String} (inviteToken : Option String)
    {stream : MediaStream} {response : JoinResponse} {c : ConnectionId} {meeting : Meeting}
    {participant : Participant} (hfresh : c ∉ s.sockets.keys)
    (hauth : authenticate s.db number response.sessionId = .ok (meeting, participant))
    (htracks : stream.audioTracks ≠ []) :
    (start s number inviteToken stream response c meeting participant).Sound := by
  have hvalid := hv.next (.connect number response.sessionId c)
  obtain ⟨snapshot, -, -, hstep⟩ := Network.connect_eq hv hfresh hauth
  have hmember : c ∉ (s.registry.members meeting.id).keys := by
    intro hmem
    obtain ⟨d, hd, hid⟩ := Keyed.mem_keys.mp hmem
    exact hfresh (Keyed.mem_keys.mpr ⟨d, (hv.registered meeting.id d hd).2, hid⟩)
  have hwire : itemsFor c (s.step (.connect number response.sessionId c)).2 =
      [.frame { body := .roomState snapshot, recipient := some participant.id }] := by
    rw [hstep]
    exact Network.itemsFor_welcome _ _ ⟨c, participant.id, meeting.id⟩ _ _
  have hjoin := join_flag number inviteToken stream response c
  refine ⟨⟨hvalid, ?_, ?_⟩, ⟨rfl, htracks⟩, ?_,
    .inl ⟨nofun, rfl, hjoin, _, snapshot, [], rfl, hwire,
    List.forall_mem_nil _⟩, ?_⟩
  · show (s.step (.connect number response.sessionId c)).1.registry.find
      meeting.id participant.id = _
    rw [hstep]
    exact RoomRegistry.find_add hmember
  · intro d a ha
    cases ha
  · intro f hf
    cases hf
  · have hnone : ¬ (start s number inviteToken stream response c meeting participant).Ordered := by
      rintro (⟨i, hi, horder⟩ | ⟨d, a, ha, -⟩)
      · have hi : i ∈ itemsFor c (s.step (.connect number response.sessionId c)).2 := hi
        rw [hwire] at hi
        obtain rfl := List.mem_singleton.mp hi
        obtain ⟨sentBy, hbody⟩ := horder
        cases hbody
      · cases ha
    rw [Agrees, or_iff_right hnone, Flag]
    refine Iff.trans ?_ hjoin
    constructor
    · rintro (h | ⟨h, -⟩)
      · exact Option.some.inj h
      · cases h
    · exact fun h => .inl (congrArg some h)

end MicRoom

/-- **The flag and the microphone.**  A participant with a microphone joins a meeting
and stays on one socket; its button, the host's frames and the host's requests come in
any order, and every frame is handled at any later time.  In a run without a crossing,
whenever nothing is on its way, the row says what the microphone does. -/
theorem mute_flag_truthful (pre : List Event) (number : String) (inviteToken : Option String)
    (stream : MediaStream) (response : JoinResponse) (c : ConnectionId) (meeting : Meeting)
    (participant : Participant) (hfresh : c ∉ (Runs.run Server.next {} pre).sockets.keys)
    (hauth : authenticate (Runs.run Server.next {} pre).db number response.sessionId =
      .ok (meeting, participant))
    (htracks : stream.audioTracks ≠ []) (events : List MicEvent)
    (hcrossed : Runs.Guarded MicRoom.next MicRoom.Uncrossed
      (.start (Runs.run Server.next {} pre) number inviteToken stream response c
      meeting participant) events) :
    Runs.Always MicRoom.next (fun n => n.Settled → n.Truthful)
      (.start (Runs.run Server.next {} pre) number inviteToken stream
      response c meeting participant)
      events := by
  have hstart := MicRoom.sound_start (Server.always_valid pre).last inviteToken hfresh hauth htracks
  have hsound := Runs.Guarded.always hstart (fun _ e h hc => h.next e hc) hcrossed
  exact hsound.mono fun _ h => h.truthful

/-- The host is in the room, and a guest has joined. -/
def guestJoined : List Event :=
  openMeeting ++ enterAs "host" "h" ++
    [.request (.joinMeeting "guest" "10000000003" { inviteToken := some "tok" }
      { id := "1", sessionId := "s1" } 20)]

def openedMeeting : Meeting :=
  { id := "m", meetingNumber := "10000000003", hostId := "host", topic := "ada's Zoom Meeting"
    passcode := "hRtz4K", inviteToken := "tok", status := .live,
      startedAt := some 10, createdAt := 10 }

def guestRow : Participant :=
  { id := "1", meetingId := "m", userId := some "guest", displayName := "Bob", role := .participant
    sessionId := "s1", joinedAt := 20 }

/-- The guest joins with a live microphone. -/
def guestMic : MicRoom :=
  .start (Runs.run Server.next {} guestJoined) "10000000003" none ⟨[⟨true⟩], []⟩
    { sessionId := "s1", participant := bob, meeting := bobsMeeting } "c1" openedMeeting guestRow

theorem guestRow_authenticated :
    authenticate (Runs.run Server.next {} guestJoined).db "10000000003" "s1" =
      .ok (openedMeeting, guestRow) :=
  rfl

/-- The host mutes the guest, and patches it once the order has arrived. -/
def mutedThenPatched : List MicEvent :=
  [.deliver, .handle "" 30, .message hostSocket MediaRoom.muteGuest "" 40, .resume "ch",
   .deliver, .deliver, .deliver, .patch "host" { isMuted := some true }]

/-- Such a run has no crossing. -/
theorem mute_flag_truthful_guest :
    Runs.Always MicRoom.next (fun n => n.Settled → n.Truthful) guestMic mutedThenPatched := by
  refine mute_flag_truthful guestJoined "10000000003" none ⟨[⟨true⟩], []⟩
    { sessionId := "s1", participant := bob, meeting := bobsMeeting } "c1" openedMeeting guestRow
    (by decide +kernel) guestRow_authenticated (List.cons_ne_nil _ _) mutedThenPatched ?_
  have hreports : (Runs.run MicRoom.next guestMic [.deliver, .handle "" 30]).reports = none := by
    decide +kernel
  have hmuted : ∃ q ∈ (Runs.run MicRoom.next guestMic
    (mutedThenPatched.take 7)).media.server.db.participants.rows,
      q.id = "1" ∧ q.isMuted = true := by decide +kernel
  refine Runs.guarded_cons.mpr
    ⟨trivial, Runs.guarded_cons.mpr ⟨trivial, Runs.guarded_cons.mpr ⟨?_, ?_⟩⟩⟩
  · intro _ h
    have hnone : none = some false := hreports.symm.trans h
    cases hnone
  · refine Runs.guarded_cons.mpr
      ⟨trivial, Runs.guarded_cons.mpr ⟨trivial, Runs.guarded_cons.mpr ⟨trivial,
      Runs.guarded_cons.mpr ⟨trivial, Runs.guarded_cons.mpr ⟨?_, Runs.guarded_nil⟩⟩⟩⟩⟩
    exact fun _ _ => hmuted

namespace MicRoom

/-- The socket whose handler an event concerns. -/
def socketOf (n : MicRoom) : MicEvent → Option ConnectionId
  | .handle _ _ => some n.connection.connectionId
  | .message d _ _ _ => some d.connectionId
  | .resume d => some d
  | _ => none

theorem scripts_next (n : MicRoom) {e : MicEvent} {d : ConnectionId} (hne : some d ≠ n.socketOf e) :
    (n.next e).media.scripts d = n.media.scripts d := by
  cases e with
  | press =>
    rw [next]
    split <;> rfl
  | deliver =>
    rw [next]
    cases n.down <;> rfl
  | handle id now =>
    have hd : d ≠ n.connection.connectionId := fun h => hne (congrArg some h)
    rw [next]
    cases n.up with
    | nil => rfl
    | cons f up =>
      dsimp only
      split
      · exact MediaRoom.scripts_next hd
      · rfl
  | message d' message id now =>
    have hd : d ≠ d'.connectionId := fun h => hne (congrArg some h)
    rw [next]
    split
    · rfl
    · exact MediaRoom.scripts_next hd
  | resume d' => exact MediaRoom.scripts_next fun h => hne (congrArg some h)
  | patch userId changes =>
    rw [next]
    split <;> rfl

end MicRoom

/-- The host patches the guest, whose microphone is live. -/
def patched : List MicEvent :=
  [.deliver, .handle "" 30, .deliver, .patch "host" { isMuted := some true }]

/-- **The request that tells nobody.**  The row says that the guest is muted, and its
microphone stays live. -/
theorem mute_flag_lies : ¬ ∀ (pre : List Event) (number : String) (inviteToken : Option String)
    (stream : MediaStream) (response : JoinResponse) (c : ConnectionId) (meeting : Meeting)
    (participant : Participant), c ∉ (Runs.run Server.next {} pre).sockets.keys →
    authenticate (Runs.run Server.next {} pre).db number response.sessionId =
      .ok (meeting, participant) →
    stream.audioTracks ≠ [] → ∀ events : List MicEvent,
      Runs.Always MicRoom.next (fun n => n.Settled → n.Truthful)
        (.start (Runs.run Server.next {} pre) number inviteToken stream
      response c meeting participant)
        events := by
  intro h
  have hlast := (h guestJoined "10000000003" none ⟨[⟨true⟩], []⟩
    { sessionId := "s1", participant := bob, meeting := bobsMeeting } "c1" openedMeeting guestRow
    (by decide +kernel) guestRow_authenticated (List.cons_ne_nil _ _) patched).last
  have hscripts : ∀ d, (Runs.run MicRoom.next guestMic patched).media.scripts d = [] := by
    intro d
    by_cases hd : d = "c1"
    · subst hd
      decide +kernel
    have hne : some d ≠ some "c1" := fun heq => hd (Option.some.inj heq)
    have hnone : some d ≠ none := Option.some_ne_none d
    rw [patched, Runs.run_cons, Runs.run_cons, Runs.run_cons, Runs.run_cons, Runs.run_nil,
      MicRoom.scripts_next _ hnone, MicRoom.scripts_next _ hnone, MicRoom.scripts_next _ hne,
      MicRoom.scripts_next _ hnone]
    rfl
  -- Everything sent has arrived.
  have hsettled : (Runs.run MicRoom.next guestMic patched).Settled :=
    ⟨by decide +kernel, by decide +kernel, by decide +kernel, hscripts⟩
  have hlies : ∃ q ∈ (Runs.run MicRoom.next guestMic patched).media.server.db.participants.rows,
      q.id = "1" ∧ q.isMuted = true ∧ ¬ (Runs.run MicRoom.next guestMic patched).room.MicOff := by
    decide +kernel
  obtain ⟨q, hq, hid, hmuted, hlive⟩ := hlies
  exact hlive ((hlast hsettled q hq hid).mp hmuted)

end ZoomClone
