/-
Server and browsers together, at the granularity of the awaits.

The handler of a socket is a task that stops at each await: while the handshake
completes, and before each send.  Between two stops it runs alone.  What the
server puts on a socket arrives there in order, whenever the browser gets to it;
a broadcast puts its frame on all its targets in the step that calls it.  A
socket that drops is noticed by the two sides independently.

A participant has one browser, a `MeetingRoom`, whose `SignalingClient` opens one
socket after the other.  What it sends is any message at all.

* `Network.next` — one event;
* `Network.Step` — what an event can do, stated once (`next_cases`).
-/
import ZoomClone.MeetingRoom
import ZoomClone.Server

namespace ZoomClone

/-! ### Sockets and browsers -/

/-- Where the handler of a socket stands. -/
inductive SocketTask where
  /-- The browser asked for the socket. -/
  | requested (url : SignalingUrl)
  /-- `authenticate` returned these rows, and the handshake is awaited. -/
  | accepting (meeting : Meeting) (participant : Participant)
  /-- Registered, with the sends that are left; `down` once it was torn down. -/
  | handling (connection : Connection) (down : Bool) (script : List Action)
  | finished

/-- What the server put on a socket, oldest first. -/
structure Wire where
  taken : List WireItem := []
  pending : List WireItem := []

/-- The items of some deliveries that go to one socket. -/
def itemsFor (c : ConnectionId) (sent : List Delivery) : List WireItem :=
  (sent.filter fun d => d.connection.connectionId = c).map Delivery.item

def Wire.push (w : Wire) (items : List WireItem) : Wire := { w with pending := w.pending ++ items }

namespace MeetingRoom

/-- The connection of the room's socket, while it is open. -/
def socket (room : MeetingRoom) : Option ConnectionId := room.signaling.bind SignalingClient.live

/-- The handshake of the socket completed, at the latest when its first frame
arrives. -/
def opened (room : MeetingRoom) : MeetingRoom :=
  { room with signaling := room.signaling.map SignalingClient.onOpen }

/-- The socket closed. -/
def closed (room : MeetingRoom) : MeetingRoom :=
  { room with signaling := room.signaling.map SignalingClient.onClose }

/-- Something arrived on the socket. -/
def receive (room : MeetingRoom) : WireItem → MeetingRoom
  | .frame f => (room.opened.handleFrame f).1
  | .close _ => room.closed

end MeetingRoom

structure Network where
  server : Server := {}
  tasks : ConnectionId → Option SocketTask := fun _ => none
  wires : ConnectionId → Wire := fun _ => {}
  /-- The browser of a participant. -/
  clients : ParticipantId → MeetingRoom := fun _ => .mount "" none

inductive NetEvent where
  /-- A request that is not made by a room. -/
  | request (r : Request)
  /-- A room joins, and asks for its first socket. -/
  | join (userId : UserId) (meetingNumber : String) (inviteToken : Option String)
      (stream : Option MediaStream) (draws : JoinDraws) (now : DateTime) (c : ConnectionId)
  /-- The retry timer of a client fires. -/
  | reconnect (p : ParticipantId) (c : ConnectionId)
  /-- The server looks at the session of a socket. -/
  | authenticate (c : ConnectionId)
  /-- The handshake is through, and the handler registers the socket. -/
  | register (c : ConnectionId)
  /-- The handler of a socket makes its next send. -/
  | act (c : ConnectionId)
  | message (c : ConnectionId) (message : Json) (id : String) (now : DateTime)
  /-- The server notices that a socket is gone. -/
  | disconnect (c : ConnectionId) (now : DateTime)
  /-- The browser takes the next item off its socket. -/
  | deliver (p : ParticipantId)
  /-- The browser notices that its socket is gone. -/
  | drop (p : ParticipantId)
  | leave (p : ParticipantId)

/-- The next send of a script, and what is left of it.  The sockets that end with
a meeting are listed at the first of their closes, each of which is awaited. -/
def performNext (r : RoomRegistry) (a : Action) (script : List Action) :
    RoomRegistry × List Delivery × List Action :=
  match a with
  | .closePeers m exclude code =>
    match peersToClose r m exclude with
    | [] => (r, [], script)
    | peer :: peers =>
      let (r', sent) := closeConnection r peer code
      (r', sent, peers.map (.closeConnection · code) ++ script)
  | a =>
    let (r', sent) := perform r a
    (r', sent, script)

namespace Network

def setTask (n : Network) (c : ConnectionId) (t : SocketTask) : Network :=
  { n with tasks := Function.update n.tasks c (some t) }

def setClient (n : Network) (p : ParticipantId) (room : MeetingRoom) : Network :=
  { n with clients := Function.update n.clients p room }

/-- A socket is asked for; nothing is on it yet. -/
def openSocket (n : Network) (c : ConnectionId) (url : SignalingUrl) : Network :=
  { n.setTask c (.requested url) with wires := Function.update n.wires c {} }

/-- Put deliveries on their sockets. -/
def push (n : Network) (sent : List Delivery) : Network :=
  { n with wires := fun c => (n.wires c).push (itemsFor c sent) }

/-- The request of a joining room; the response, and the database. -/
def postJoin (n : Network) (userId : UserId) (meetingNumber : String) (req : JoinRequest)
    (draws : JoinDraws) (now : DateTime) : Service (JoinResponse × Db) := do
  let user ← currentUser n.server.db userId
  joinMeeting n.server.db meetingNumber user req draws now

/-- One event.  An event that cannot happen changes nothing. -/
def next (n : Network) : NetEvent → Network
  | .request r => { n with server := n.server.next (.request r) }
  | .join userId meetingNumber inviteToken stream draws now c =>
    let (room, req) := (MeetingRoom.mount meetingNumber inviteToken).join stream
    match n.tasks c, n.postJoin userId meetingNumber req draws now with
    | none, .ok (response, db) =>
      ({ n with server := { n.server with db } }.openSocket c
        ⟨meetingNumber, response.sessionId⟩).setClient draws.id (room.joined response c)
    | _, _ => n
  | .reconnect p c =>
    match n.tasks c, (n.clients p).signaling with
    | none, some client =>
      if client.reconnectTimer.isSome then
        (n.openSocket c client.url).setClient p
          { n.clients p with signaling := some (client.onTimer c) }
      else n
    | _, _ => n
  | .authenticate c =>
    match n.tasks c with
    | some (.requested url) =>
      match ZoomClone.authenticate n.server.db url.meetingNumber url.sessionId with
      | .error _ =>
        { n.setTask c .finished with wires := Function.update n.wires c ((n.wires c).push refusal) }
      | .ok (meeting, participant) => n.setTask c (.accepting meeting participant)
    | _ => n
  | .register c =>
    match n.tasks c with
    | some (.accepting meeting participant) =>
      match acceptSocket n.server meeting participant c with
      | (server, sent, none) => ({ n with server }.push sent).setTask c .finished
      | (server, sent, some script) =>
        ({ n with server }.push sent).setTask c
          (.handling ⟨c, participant.id, meeting.id⟩ false script)
    | _ => n
  | .act c =>
    match n.tasks c with
    | some (.handling connection down (a :: script)) =>
      let (registry, sent, script) := performNext n.server.registry a script
      ({ n with server := { n.server with registry } }.push sent).setTask c
        (.handling connection down script)
    | _ => n
  | .message c message id now =>
    match n.tasks c with
    | some (.handling connection false []) =>
      if connection ∈ n.server.registry.connections connection.meetingId then
        let (db, actions) := onMessage n.server.db n.server.registry connection message id now
        { n with server := { n.server with db } }.setTask c (.handling connection false actions)
      else n
    | _ => n
  | .disconnect c now =>
    match n.tasks c with
    | some (.handling connection false []) =>
      let (server, actions) := teardown n.server connection now
      { n with server }.setTask c (.handling connection true actions)
    | some (.requested _) => n.setTask c .finished
    | some (.accepting _ _) => n.setTask c .finished
    | _ => n
  | .deliver p =>
    match (n.clients p).socket with
    | none => n
    | some c =>
      match (n.wires c).pending with
      | [] => n
      | item :: rest =>
        { n.setClient p ((n.clients p).receive item) with
          wires := Function.update n.wires c ⟨(n.wires c).taken ++ [item], rest⟩ }
  | .drop p => if (n.clients p).socket.isSome then n.setClient p (n.clients p).closed else n
  | .leave p => if (n.clients p).phase = .live then n.setClient p (n.clients p).leave.1 else n

/-! ### What an event can do -/

/-- **An accepted socket.**  Under the cap there is always space for a row of the
meeting; the socket is registered and bound, and is sent a snapshot first. -/
theorem acceptSocket_eq {s : Server} (hv : s.Valid) (meeting : Meeting) (p : Participant)
    (c : ConnectionId) :
    ∃ snapshot : RoomSnapshot, snapshot.you.id = p.id ∧
      snapshot.participants = activeRoster (bindConnection s.db p.id c) meeting.id ∧
      acceptSocket s meeting p c =
        ({ db := bindConnection s.db p.id c
           registry := s.registry.add ⟨c, p.id, meeting.id⟩
           sockets := s.sockets.set ⟨c, p.id, meeting.id⟩ },
          [⟨⟨c, p.id, meeting.id⟩,
            .frame { body := .roomState snapshot, recipient := some p.id }⟩],
          some [.broadcast meeting.id
            { body := .peerJoined snapshot.you, sender := some p.id } (some c)]) := by
  have hspace : assertRoomHasSpace s.db meeting.id = .ok () :=
    Service.require_eq_ok.mpr (hv.db.capped meeting.id)
  have hid : (((bindConnection s.db p.id c).getParticipant p.id).getD p).id = p.id := by
    cases h : (bindConnection s.db p.id c).getParticipant p.id with
    | none => rfl
    | some q => exact Keyed.key_of_find? h
  refine ⟨roomSnapshot (bindConnection s.db p.id c) meeting
    (((bindConnection s.db p.id c).getParticipant p.id).getD p), hid, rfl, ?_⟩
  rw [acceptSocket]
  rw [hspace]
  simp only [hid]

/-- **A fresh socket of an open row.**  It is sent a snapshot, and the room is told. -/
theorem connect_eq {s : Server} (hv : s.Valid) {meetingNumber : String} {sessionId : SessionId}
    {c : ConnectionId} {meeting : Meeting} {p : Participant} (hfresh : c ∉ s.sockets.keys)
    (hauth : authenticate s.db meetingNumber sessionId = .ok (meeting, p)) :
    ∃ snapshot : RoomSnapshot, snapshot.you.id = p.id ∧
      snapshot.participants = activeRoster (bindConnection s.db p.id c) meeting.id ∧
      s.step (.connect meetingNumber sessionId c) =
        ({ db := bindConnection s.db p.id c
           registry := s.registry.add ⟨c, p.id, meeting.id⟩
           sockets := s.sockets.set ⟨c, p.id, meeting.id⟩ },
          ⟨⟨c, p.id, meeting.id⟩, .frame { body := .roomState snapshot, recipient := some p.id }⟩ ::
            (broadcastTargets (s.registry.add ⟨c, p.id, meeting.id⟩) meeting.id (some c)).map
              fun d => ⟨d, .frame { body := .peerJoined snapshot.you, sender := some p.id }⟩) := by
  obtain ⟨snapshot, hyou, hroster, haccept⟩ := acceptSocket_eq hv meeting p c
  refine ⟨snapshot, hyou, hroster, ?_⟩
  rw [Server.step, if_neg hfresh, Server.connect, hauth]
  dsimp only
  rw [haccept]
  simp only [Server.send, performAll, perform, List.append_nil, List.cons_append, List.nil_append]

theorem tasks_setTask (n : Network) (c : ConnectionId) (t : SocketTask) :
    (n.setTask c t).tasks = Function.update n.tasks c (some t) := rfl

/-- The effect of an event that happens. -/
inductive Step (n : Network) : NetEvent → Network → Prop
  | asked {r : Request} :
      Step n (.request r) { n with
        server := { n.server with db := n.server.db.apply (.request r) } }
  | joined {userId : UserId} {meetingNumber : String} {inviteToken : Option String}
      {stream : Option MediaStream} {draws : JoinDraws} {now : DateTime} {c : ConnectionId}
      (response : JoinResponse) (db : Db) (room : MeetingRoom) (req : JoinRequest)
      (hroom : (MeetingRoom.mount meetingNumber inviteToken).join stream = (room, req))
      (hfresh : n.tasks c = none)
      (hpost : n.postJoin userId meetingNumber req draws now = .ok (response, db)) :
      Step n (.join userId meetingNumber inviteToken stream draws now c)
        (({ n with server := { n.server with db } }.openSocket c
          ⟨meetingNumber, response.sessionId⟩).setClient draws.id (room.joined response c))
  | reconnected {p : ParticipantId} {c : ConnectionId} (client : SignalingClient)
      (hfresh : n.tasks c = none) (hclient : (n.clients p).signaling = some client)
      (htimer : client.reconnectTimer.isSome) :
      Step n (.reconnect p c) ((n.openSocket c client.url).setClient p
        { n.clients p with signaling := some (client.onTimer c) })
  | refused {c : ConnectionId} (url : SignalingUrl) (e : Raised)
      (htask : n.tasks c = some (.requested url))
      (hauth : ZoomClone.authenticate n.server.db url.meetingNumber url.sessionId = .error e) :
      Step n (.authenticate c)
        { n.setTask c .finished with wires := Function.update n.wires c ((n.wires c).push refusal) }
  | admitted {c : ConnectionId} (url : SignalingUrl) (meeting : Meeting) (participant : Participant)
      (htask : n.tasks c = some (.requested url))
      (hauth : ZoomClone.authenticate n.server.db url.meetingNumber url.sessionId =
        .ok (meeting, participant)) :
      Step n (.authenticate c) (n.setTask c (.accepting meeting participant))
  | registered {c : ConnectionId} (meeting : Meeting) (participant : Participant)
      (snapshot : RoomSnapshot) (hyou : snapshot.you.id = participant.id)
      (hroster : snapshot.participants =
        activeRoster (bindConnection n.server.db participant.id c) meeting.id)
      (htask : n.tasks c = some (.accepting meeting participant)) :
      Step n (.register c)
        (({ n with
            server :=
              { db := bindConnection n.server.db participant.id c
                registry := n.server.registry.add ⟨c, participant.id, meeting.id⟩
                sockets := n.server.sockets.set ⟨c, participant.id, meeting.id⟩ } }.push
          [⟨⟨c, participant.id, meeting.id⟩,
            .frame { body := .roomState snapshot, recipient := some participant.id }⟩]).setTask c
          (.handling ⟨c, participant.id, meeting.id⟩ false
            [.broadcast meeting.id
              { body := .peerJoined snapshot.you, sender := some participant.id } (some c)]))
  | acted {c : ConnectionId} (connection : Connection) (down : Bool) (a : Action)
      (script left : List Action) (registry : RoomRegistry) (sent : List Delivery)
      (htask : n.tasks c = some (.handling connection down (a :: script)))
      (hperform : performNext n.server.registry a script = (registry, sent, left)) :
      Step n (.act c) (({ n with server := { n.server with registry } }.push sent).setTask c
        (.handling connection down left))
  | handled {c : ConnectionId} {message : Json} {id : String} {now : DateTime}
      (connection : Connection) (db : Db) (actions : List Action)
      (htask : n.tasks c = some (.handling connection false []))
      (hlive : connection ∈ n.server.registry.connections connection.meetingId)
      (hmessage : onMessage n.server.db n.server.registry connection message id now =
        (db, actions)) :
      Step n (.message c message id now)
        ({ n with server := { n.server with db } }.setTask c (.handling connection false actions))
  | tornDown {c : ConnectionId} {now : DateTime} (connection : Connection) (server : Server)
      (actions : List Action) (htask : n.tasks c = some (.handling connection false []))
      (hteardown : teardown n.server connection now = (server, actions)) :
      Step n (.disconnect c now)
        ({ n with server }.setTask c (.handling connection true actions))
  | abandoned {c : ConnectionId} {now : DateTime}
      (htask : (∃ url, n.tasks c = some (.requested url)) ∨
        ∃ meeting participant, n.tasks c = some (.accepting meeting participant)) :
      Step n (.disconnect c now) (n.setTask c .finished)
  | delivered {p : ParticipantId} (c : ConnectionId) (item : WireItem) (rest : List WireItem)
      (hsocket : (n.clients p).socket = some c) (hpending : (n.wires c).pending = item :: rest) :
      Step n (.deliver p)
        { n.setClient p ((n.clients p).receive item) with
          wires := Function.update n.wires c ⟨(n.wires c).taken ++ [item], rest⟩ }
  | dropped {p : ParticipantId} (hsocket : (n.clients p).socket.isSome) :
      Step n (.drop p) (n.setClient p (n.clients p).closed)
  | left {p : ParticipantId} (hphase : (n.clients p).phase = .live) :
      Step n (.leave p) (n.setClient p (n.clients p).leave.1)

/-- **What an event can do.**  It changes nothing, or has one of the effects of
`Step`. -/
theorem next_cases {n : Network} (hv : n.server.Valid) (e : NetEvent) :
    n.next e = n ∨ n.Step e (n.next e) := by
  cases e with
  | request r => exact .inr .asked
  | join userId meetingNumber inviteToken stream draws now c =>
    simp only [next]
    split
    · next response db hfresh hpost => exact .inr (.joined response db _ _ rfl hfresh hpost)
    · exact .inl rfl
  | reconnect p c =>
    simp only [next]
    split
    · next client hfresh hclient =>
      split
      · next htimer => exact .inr (.reconnected client hfresh hclient htimer)
      · exact .inl rfl
    · exact .inl rfl
  | authenticate c =>
    simp only [next]
    split
    · next url htask =>
      split
      · next e hauth => exact .inr (.refused url e htask hauth)
      · next meeting participant hauth => exact .inr (.admitted url meeting participant htask hauth)
    · exact .inl rfl
  | register c =>
    simp only [next]
    split
    · next meeting participant htask =>
      obtain ⟨snapshot, hyou, hroster, heq⟩ := acceptSocket_eq hv meeting participant c
      rw [heq]
      exact .inr (.registered meeting participant snapshot hyou hroster htask)
    · exact .inl rfl
  | act c =>
    simp only [next]
    split
    · next connection down a script htask =>
      exact .inr (.acted connection down a script _ _ _ htask rfl)
    · exact .inl rfl
  | message c message id now =>
    simp only [next]
    split
    · next connection htask =>
      split
      · next hlive => exact .inr (.handled connection _ _ htask hlive rfl)
      · exact .inl rfl
    · exact .inl rfl
  | disconnect c now =>
    simp only [next]
    split
    · next connection htask => exact .inr (.tornDown connection _ _ htask rfl)
    · next url htask => exact .inr (.abandoned (.inl ⟨url, htask⟩))
    · next meeting participant htask => exact .inr (.abandoned (.inr ⟨meeting, participant, htask⟩))
    · exact .inl rfl
  | deliver p =>
    simp only [next]
    split
    · exact .inl rfl
    · next c hsocket =>
      split
      · exact .inl rfl
      · next item rest hpending => exact .inr (.delivered c item rest hsocket hpending)
  | drop p =>
    simp only [next]
    split
    · next hsocket => exact .inr (.dropped hsocket)
    · exact .inl rfl
  | leave p =>
    simp only [next]
    split
    · next hphase => exact .inr (.left hphase)
    · exact .inl rfl

end Network

end ZoomClone
