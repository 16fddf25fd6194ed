/-
The signaling WebSocket route (`router.py`).

A handler runs one short database transaction and then a list of sends, each of
them awaited.  `handle` is the transaction; what is left to do is its list of
`Action`s, and `perform` says what one action does when its turn comes: it looks
the targets up in the registry at that moment.

Two systems are built on this.  `Server.step` runs every handler to its end
before the next event (the serialized system); `Network` interleaves the actions
of different sockets at the await points.
-/
import ZoomClone.Protocol

namespace ZoomClone

/-! ### Sends -/

inductive Action where
  | send (connection : Connection) (frame : Frame)
  | sendToParticipant (meetingId : MeetingId) (participantId : ParticipantId) (frame : Frame)
  | broadcast (meetingId : MeetingId) (frame : Frame) (exclude : Option ConnectionId)
  | closeConnection (connection : Connection) (code : ℕ)
  | closeParticipant (meetingId : MeetingId) (participantId : ParticipantId) (code : ℕ)
  | closePeers (meetingId : MeetingId) (exclude : ConnectionId) (code : ℕ)

/-- `_close_connection`: out of the registry, then close the socket. -/
def closeConnection (r : RoomRegistry) (c : Connection) (code : ℕ) :
    RoomRegistry × List Delivery :=
  (r.remove c, [⟨c, .close code⟩])

/-- `registry.broadcast`: the connections of the room at this moment. -/
def broadcastTargets (r : RoomRegistry) (meetingId : MeetingId) (exclude : Option ConnectionId) :
    List Connection :=
  (r.connections meetingId).filter fun c => some c.connectionId ≠ exclude

@[simp] theorem broadcastTargets_none (r : RoomRegistry) (m : MeetingId) :
    broadcastTargets r m none = r.connections m := by
  simp [broadcastTargets]

/-- The sockets `_handle_host_end` closes: all of the room but the host's own. -/
def peersToClose (r : RoomRegistry) (meetingId : MeetingId) (exclude : ConnectionId) :
    List Connection :=
  (r.connections meetingId).filter fun c => c.connectionId ≠ exclude

/-- What one action does. -/
def perform (r : RoomRegistry) : Action → RoomRegistry × List Delivery
  | .send c f => (r, [⟨c, .frame f⟩])
  | .sendToParticipant m p f => (r, (r.find m p).toList.map fun c => ⟨c, .frame f⟩)
  | .broadcast m f exclude => (r, (broadcastTargets r m exclude).map fun c => ⟨c, .frame f⟩)
  | .closeConnection c code => closeConnection r c code
  | .closeParticipant m p code =>
    match r.find m p with
    | none => (r, [])
    | some c => closeConnection r c code
  | .closePeers m exclude code =>
    ((peersToClose r m exclude).foldl RoomRegistry.remove r,
      (peersToClose r m exclude).map fun c => ⟨c, .close code⟩)

/-- The actions one after the other. -/
def performAll (r : RoomRegistry) : List Action → RoomRegistry × List Delivery
  | [] => (r, [])
  | a :: as =>
    let (r', sent) := perform r a
    let (r'', rest) := performAll r' as
    (r'', sent ++ rest)

/-! ### Handlers -/

def badFrame (message : String) : AppError :=
  { statusCode := 400, code := "BAD_FRAME", message }

def peerNotInRoom : AppError :=
  { statusCode := 400, code := "PEER_NOT_IN_ROOM", message := "That peer is not in this meeting." }

def peerUpdated (connection : Connection) (p : ParticipantView) : Action :=
  .broadcast connection.meetingId
    { body := .peerUpdated p.id p.isMuted p.isVideoOn p.isHandRaised
      sender := some connection.participantId } none

/-- The `host.muted_you` frame to one participant. -/
def mutedYou (connection : Connection) (targetId : ParticipantId) : Action :=
  .sendToParticipant connection.meetingId targetId
    { body := .hostMutedYou connection.participantId
      sender := some connection.participantId, recipient := some targetId }

/-- `_broadcast peer.left`. -/
def peerLeft (connection : Connection) (participantId : ParticipantId) : Action :=
  .broadcast connection.meetingId
    { body := .peerLeft participantId, sender := some connection.participantId } none

/-- The relayed frame: the payload without its `to`. -/
def relayed (connection : Connection) (kind : SignalKind) (inbound : Inbound)
    (target : ParticipantId) : Frame :=
  { body := .signal kind (inbound.payload.filter fun field => field.1 ≠ "to")
    sender := some connection.participantId, recipient := some target }

/-- Relay a signal verbatim, to a participant of this room only. -/
def handleSignal (db : Db) (r : RoomRegistry) (connection : Connection) (kind : SignalKind)
    (inbound : Inbound) : Service (Db × List Action) := do
  let target ← .getOrRaise (signalTarget inbound)
    (badFrame "A signal frame must name a `to` participant.")
  .require (r.isInRoom connection.meetingId target) peerNotInRoom
  return (db, [.sendToParticipant connection.meetingId target
    (relayed connection kind inbound target)])

def handleStateUpdate (db : Db) (connection : Connection) (inbound : Inbound) :
    Service (Db × List Action) := do
  let (updated, db) ← applyStateUpdate db connection.participantId (.ofPayload inbound.payload)
  return (db, [peerUpdated connection updated])

/-- The `chat.message` frame to the room. -/
def chatMessage (connection : Connection) (saved : MessageView) : Action :=
  .broadcast connection.meetingId
    { body := .chatMessage saved, sender := some connection.participantId } none

/-- Persist, then broadcast. -/
def handleChatSend (db : Db) (connection : Connection) (inbound : Inbound) (id : String)
    (now : DateTime) : Service (Db × List Action) :=
  match Json.get inbound.payload "body" with
  | .str body => do
    let (saved, db) ← postMessage db connection.meetingId connection.participantId
      (PyStr.take body maxChatBodyLength) id now
    return (db, [chatMessage connection saved])
  | _ => .error (.app (badFrame "`body` must be a string."))

def requiredTarget (inbound : Inbound) : Service ParticipantId :=
  .getOrRaise (hostTarget inbound) (badFrame "`participant_id` is required.")

def handleHostMute (db : Db) (connection : Connection) (inbound : Inbound) :
    Service (Db × List Action) := do
  let targetId ← requiredTarget inbound
  let actor ← actorRow db connection.participantId
  let (updated, db) ← hostMute db actor targetId
  return (db, [mutedYou connection targetId, peerUpdated connection updated])

def handleHostMuteAll (db : Db) (connection : Connection) : Service (Db × List Action) := do
  let actor ← actorRow db connection.participantId
  let (updatedRows, db) ← hostMuteAll db actor
  return (db, updatedRows.flatMap fun row =>
    [mutedYou connection row.id, peerUpdated connection row])

/-- What an eviction sends: tell the target first, then the room, then close the
target's socket. -/
def removal (connection : Connection) (targetId : ParticipantId) : List Action :=
  [.sendToParticipant connection.meetingId targetId
    { body := .hostRemovedYou connection.participantId
      sender := some connection.participantId, recipient := some targetId },
   peerLeft connection targetId,
   .closeParticipant connection.meetingId targetId closeRemoved]

def handleHostRemove (db : Db) (connection : Connection) (inbound : Inbound) (now : DateTime) :
    Service (Db × List Action) := do
  let targetId ← requiredTarget inbound
  let actor ← actorRow db connection.participantId
  let (_, db) ← hostRemove db actor targetId now
  return (db, removal connection targetId)

/-- What ending for all sends: tell the room, then close the other sockets. -/
def ending (connection : Connection) : List Action :=
  [.broadcast connection.meetingId
    { body := .meetingEnded connection.participantId,
      sender := some connection.participantId } none,
   .closePeers connection.meetingId connection.connectionId closeMeetingEnded]

def handleHostEnd (db : Db) (connection : Connection) (now : DateTime) :
    Service (Db × List Action) := do
  let actor ← actorRow db connection.participantId
  let (_, db) ← hostEndMeeting db actor now
  return (db, ending connection)

/-- The dispatch table. -/
def handle (db : Db) (r : RoomRegistry) (connection : Connection) (inbound : Inbound)
    (id : String) (now : DateTime) : Service (Db × List Action) :=
  match inbound.handler with
  | .ping =>
    .ok (db, [.send connection { body := .pong, recipient := some connection.participantId }])
  | .signal kind => handleSignal db r connection kind inbound
  | .stateUpdate => handleStateUpdate db connection inbound
  | .chatSend => handleChatSend db connection inbound id now
  | .hostMute => handleHostMute db connection inbound
  | .hostMuteAll => handleHostMuteAll db connection
  | .hostRemove => handleHostRemove db connection inbound now
  | .hostEnd => handleHostEnd db connection now

/-! ### When a handler succeeds, and with what -/

section Handlers

variable {db db' : Db} {r : RoomRegistry} {c : Connection} {inbound : Inbound}
  {actions : List Action}

theorem handleSignal_eq_ok {kind : SignalKind} :
    handleSignal db r c kind inbound = .ok (db', actions) ↔
      ∃ t, signalTarget inbound = some t ∧ r.isInRoom c.meetingId t ∧ db' = db ∧
        actions = [.sendToParticipant c.meetingId t (relayed c kind inbound t)] := by
  simp only [handleSignal, Service.bind_eq_ok, Service.pure_eq_ok, Service.getOrRaise_eq_ok,
    Service.require_eq_ok]
  constructor
  · rintro ⟨t, ht, -, hroom, h⟩
    obtain ⟨rfl, rfl⟩ := Prod.mk.inj h
    exact ⟨t, ht, hroom, rfl, rfl⟩
  · rintro ⟨t, ht, hroom, rfl, rfl⟩
    exact ⟨t, ht, (), hroom, rfl⟩

theorem handleStateUpdate_eq_ok :
    handleStateUpdate db c inbound = .ok (db', actions) ↔
      ∃ v, applyStateUpdate db c.participantId (.ofPayload inbound.payload) = .ok (v, db') ∧
        actions = [peerUpdated c v] := by
  simp only [handleStateUpdate, Service.bind_eq_ok, Service.pure_eq_ok]
  constructor
  · rintro ⟨⟨v, db₁⟩, hv, h⟩
    obtain ⟨rfl, rfl⟩ := Prod.mk.inj h
    exact ⟨v, hv, rfl⟩
  · rintro ⟨v, hv, rfl⟩
    exact ⟨(v, db'), hv, rfl⟩

theorem handleChatSend_eq_ok {id : String} {now : DateTime} :
    handleChatSend db c inbound id now = .ok (db', actions) ↔
      ∃ body v, Json.get inbound.payload "body" = .str body ∧
        postMessage db c.meetingId c.participantId (PyStr.take body maxChatBodyLength) id now =
          .ok (v, db') ∧ actions = [chatMessage c v] := by
  unfold handleChatSend
  split
  · next body hbody =>
    simp only [Service.bind_eq_ok, Service.pure_eq_ok]
    constructor
    · rintro ⟨⟨v, db₁⟩, hv, h⟩
      obtain ⟨rfl, rfl⟩ := Prod.mk.inj h
      exact ⟨body, v, hbody, hv, rfl⟩
    · rintro ⟨body', v, hbody', hv, rfl⟩
      rw [hbody] at hbody'
      obtain rfl := Json.str.inj hbody'
      exact ⟨(v, db'), hv, rfl⟩
  · next hbody =>
    constructor
    · intro h
      cases h
    · rintro ⟨body, v, hbody', -⟩
      exact absurd hbody' (hbody body)

theorem requiredTarget_eq_ok {t : ParticipantId} :
    requiredTarget inbound = .ok t ↔ hostTarget inbound = some t :=
  Service.getOrRaise_eq_ok

theorem handleHostMute_eq_ok :
    handleHostMute db c inbound = .ok (db', actions) ↔
      ∃ targetId actor v, hostTarget inbound = some targetId ∧
        db.getParticipant c.participantId = some actor ∧
        hostMute db actor targetId = .ok (v, db') ∧
        actions = [mutedYou c targetId, peerUpdated c v] := by
  simp only [handleHostMute, Service.bind_eq_ok, Service.pure_eq_ok, requiredTarget_eq_ok,
    actorRow_eq_ok]
  constructor
  · rintro ⟨t, ht, actor, hactor, ⟨v, db₁⟩, hv, h⟩
    obtain ⟨rfl, rfl⟩ := Prod.mk.inj h
    exact ⟨t, actor, v, ht, hactor, hv, rfl⟩
  · rintro ⟨t, actor, v, ht, hactor, hv, rfl⟩
    exact ⟨t, ht, actor, hactor, (v, db'), hv, rfl⟩

theorem handleHostMuteAll_eq_ok :
    handleHostMuteAll db c = .ok (db', actions) ↔
      ∃ actor vs, db.getParticipant c.participantId = some actor ∧
        hostMuteAll db actor = .ok (vs, db') ∧
        actions = vs.flatMap fun v => [mutedYou c v.id, peerUpdated c v] := by
  simp only [handleHostMuteAll, Service.bind_eq_ok, Service.pure_eq_ok, actorRow_eq_ok]
  constructor
  · rintro ⟨actor, hactor, ⟨vs, db₁⟩, hv, h⟩
    obtain ⟨rfl, rfl⟩ := Prod.mk.inj h
    exact ⟨actor, vs, hactor, hv, rfl⟩
  · rintro ⟨actor, vs, hactor, hv, rfl⟩
    exact ⟨actor, hactor, (vs, db'), hv, rfl⟩

theorem handleHostRemove_eq_ok {now : DateTime} :
    handleHostRemove db c inbound now = .ok (db', actions) ↔
      ∃ targetId actor v, hostTarget inbound = some targetId ∧
        db.getParticipant c.participantId = some actor ∧
        hostRemove db actor targetId now = .ok (v, db') ∧ actions = removal c targetId := by
  simp only [handleHostRemove, Service.bind_eq_ok, Service.pure_eq_ok, requiredTarget_eq_ok,
    actorRow_eq_ok]
  constructor
  · rintro ⟨t, ht, actor, hactor, ⟨v, db₁⟩, hv, h⟩
    obtain ⟨rfl, rfl⟩ := Prod.mk.inj h
    exact ⟨t, actor, v, ht, hactor, hv, rfl⟩
  · rintro ⟨t, actor, v, ht, hactor, hv, rfl⟩
    exact ⟨t, ht, actor, hactor, (v, db'), hv, rfl⟩

theorem handleHostEnd_eq_ok {now : DateTime} :
    handleHostEnd db c now = .ok (db', actions) ↔
      ∃ actor v, db.getParticipant c.participantId = some actor ∧
        hostEndMeeting db actor now = .ok (v, db') ∧ actions = ending c := by
  simp only [handleHostEnd, Service.bind_eq_ok, Service.pure_eq_ok, actorRow_eq_ok]
  constructor
  · rintro ⟨actor, hactor, ⟨v, db₁⟩, hv, h⟩
    obtain ⟨rfl, rfl⟩ := Prod.mk.inj h
    exact ⟨actor, v, hactor, hv, rfl⟩
  · rintro ⟨actor, v, hactor, hv, rfl⟩
    exact ⟨actor, hactor, (v, db'), hv, rfl⟩

end Handlers

/-! ### The message loop -/

/-- The frame a handler's failure is answered with. -/
def failureFrame : Raised → Frame
  | .app e => e.frame
  | _ => errorFrame "INTERNAL_ERROR" "That action could not be completed."

/-- One turn of the message loop: the committed database and the sends. -/
def onMessage (db : Db) (r : RoomRegistry) (connection : Connection) (message : Json)
    (id : String) (now : DateTime) : Db × List Action :=
  match readMessage message with
  | .error answer => (db, [.send connection answer])
  | .ok inbound =>
    match handle db r connection inbound id now with
    | .ok result => result
    | .error e => (db, [.send connection (failureFrame e)])

/-! ### Connecting and disconnecting -/

/-- The database, the live sockets, and every socket that was ever registered. -/
structure Server where
  db : Db := .empty
  registry : RoomRegistry := .empty
  sockets : Keyed Connection.connectionId := .empty

/-- What a socket whose session is refused is sent. -/
def refusal : List WireItem :=
  [.frame (errorFrame "INVALID_SESSION" "That session is not valid."), .close closeUnauthorized]

/-- What an accepted socket does up to its first await: register, check the
space, bind the row and send `room.state`.  Returns the sends that are left, or
`none` when the meeting is full.  `meeting` and `participant` are the rows that
`authenticate` read. -/
def acceptSocket (s : Server) (meeting : Meeting) (participant : Participant) (c : ConnectionId) :
    Server × List Delivery × Option (List Action) :=
  let connection : Connection := ⟨c, participant.id, meeting.id⟩
  let registry := s.registry.add connection
  let sockets := s.sockets.set connection
  match assertRoomHasSpace s.db meeting.id with
  | .error e =>
    ({ s with registry := registry.remove connection, sockets },
      [⟨connection, .frame (failureFrame e)⟩, ⟨connection, .close closeMeetingFull⟩], none)
  | .ok _ =>
    let db := bindConnection s.db participant.id c
    -- The commit refreshes the row that `authenticate` read, but not the meeting.
    let participant := (db.getParticipant participant.id).getD participant
    let snapshot := roomSnapshot db meeting participant
    ({ db, registry, sockets },
      [⟨connection, .frame { body := .roomState snapshot, recipient := some participant.id }⟩],
      some [.broadcast meeting.id
        { body := .peerJoined snapshot.you, sender := some participant.id } (some c)])

/-- `_teardown`: out of the registry, close the row if this socket owns it, and
only then tell the room. -/
def teardown (s : Server) (connection : Connection) (now : DateTime) : Server × List Action :=
  let (closed, db) := releaseConnection s.db connection.participantId connection.connectionId now
  ({ s with db, registry := s.registry.remove connection },
    if closed.isSome then [peerLeft connection connection.participantId] else [])

end ZoomClone
