/-
The handlers of the sockets, from one await to the next, with a log of what each socket
of a room goes through (`router.py`, `registry.py`).

A handler commits, and has a script of sends left, each of them awaited; a cancelled
handler drops the rest of its script and goes on to its teardown.

* `RoomLog.next` — one event of a handler, or a request;
* `RoomLog.register_cases` — the registration of a socket, which is refused or accepted;
* `RoomLog.Valid.next` — the invariant that ties handlers, registry and logs together.
-/
import ZoomClone.ConcurrentJoins
import ZoomClone.Isolation
import ZoomClone.Scripts

namespace ZoomClone

/-! ### The handlers -/

/-- An entry in the log of a socket. -/
inductive Moment where
  /-- The socket is registered, while these rows are open. -/
  | registered (present : List ParticipantId)
  /-- A participant binds a connection. -/
  | bound (participantId : ParticipantId) (connectionId : ConnectionId)
  /-- A teardown or `host.remove` closes a row. -/
  | closed (participantId : ParticipantId)
  /-- Something is put on the socket. -/
  | sent (item : WireItem)

namespace Moment

def bound? : Moment → Option (ParticipantId × ConnectionId)
  | bound p c => some (p, c)
  | _ => none

def closed? : Moment → Option ParticipantId
  | closed p => some p
  | _ => none

/-- Whom a `peer.joined` on the socket announces. -/
def joins : Moment → Option ParticipantId
  | sent item => item.joins
  | _ => none

/-- Whom a `peer.left` on the socket names. -/
def parts : Moment → Option ParticipantId
  | sent item => item.parts
  | _ => none

end Moment

namespace Action

/-- Whom a broadcast to the meeting announces. -/
def joins (m : MeetingId) : Action → Option ParticipantId
  | broadcast m' f _ => if m' = m then (WireItem.frame f).joins else none
  | _ => none

/-- Whom a broadcast to the whole meeting says goodbye to. -/
def parts (m : MeetingId) : Action → Option ParticipantId
  | broadcast m' f none => if m' = m then (WireItem.frame f).parts else none
  | _ => none

end Action

/-- Where the handler of a socket stands. -/
inductive HandlerTask where
  /-- The session is valid, and the handshake is awaited. -/
  | accepting (meeting : Meeting) (participant : Participant)
  /-- `room.state` was sent; `peer.joined` is left. -/
  | greeting (connection : Connection) (script : List Action)
  /-- In the message loop, with what is left to send for the last message. -/
  | serving (connection : Connection) (script : List Action)
  /-- In the `finally`, before the teardown. -/
  | leaving (connection : Connection)
  | finished

namespace HandlerTask

/-- The connection of a handler that was not refused and has not ended. -/
def connection : HandlerTask → Option Connection
  | greeting d _ => some d
  | serving d _ => some d
  | leaving d => some d
  | _ => none

/-- The connection of a handler, and what it has left to send. -/
def running : HandlerTask → Option (Connection × List Action)
  | greeting d script => some (d, script)
  | serving d script => some (d, script)
  | _ => none

end HandlerTask

/-- How the await of a send ends. -/
inductive Outcome where
  | completes
  /-- The task is cancelled.  Of the frames that it was sending, those to these sockets
  went out. -/
  | cancelled (went : List ConnectionId)

/-- The frame to the socket goes out. -/
def Outcome.lets : Outcome → ConnectionId → Bool
  | completes, _ => true
  | cancelled went, c => c ∈ went

/-- Where the handler stands after the await. -/
def Outcome.after (d : Connection) (script : List Action) : Outcome → HandlerTask
  | completes => .serving d script
  | cancelled _ => .leaving d

structure RoomLog where
  server : Server := {}
  tasks : ConnectionId → Option HandlerTask := fun _ => none
  log : ConnectionId → List Moment := fun _ => []

inductive TaskEvent where
  | request (r : Request)
  /-- A socket presents a session. -/
  | authenticate (meetingNumber : String) (sessionId : SessionId) (c : ConnectionId)
  /-- The handshake is through. -/
  | register (c : ConnectionId)
  /-- The handler of a socket takes a message, up to its first await. -/
  | message (c : ConnectionId) (message : Json) (id : String) (now : DateTime) (outcome : Outcome)
  /-- The send that a handler awaited is done, and it goes on to the next. -/
  | resume (c : ConnectionId) (outcome : Outcome)
  /-- The message loop of an idle socket ends. -/
  | hangUp (c : ConnectionId)
  | teardown (c : ConnectionId) (now : DateTime)

/-- The rows of the meeting that a transaction closes. -/
def closings (db db' : Db) (m : MeetingId) : List ParticipantId :=
  ((db.activeRows m).filter fun p => !db'.isOpen p.id).map Participant.id

/-- The message asks to remove a participant. -/
def IsRemoval (message : Json) : Prop :=
  match readMessage message with
  | .ok inbound => inbound.handler = .hostRemove
  | .error _ => False

instance (message : Json) : Decidable (IsRemoval message) :=
  match h : readMessage message with
  | .ok inbound => decidable_of_iff (inbound.handler = .hostRemove) (by simp [IsRemoval, h])
  | .error _ => isFalse (by simp [IsRemoval, h])

namespace RoomLog

def setTask (n : RoomLog) (c : ConnectionId) (t : HandlerTask) : RoomLog :=
  { n with tasks := Function.update n.tasks c (some t) }

/-- Something happens in a room: the sockets that are registered there take note. -/
def note (n : RoomLog) (m : MeetingId) (moments : List Moment) : RoomLog :=
  { n with
    log := fun b =>
      if b ∈ (n.server.registry.connections m).map Connection.connectionId then n.log b ++ moments
      else n.log b }

def deliver (n : RoomLog) (sent : List Delivery) : RoomLog :=
  { n with log := fun b => n.log b ++ (itemsFor b sent).map .sent }

def connection (n : RoomLog) (c : ConnectionId) : Option Connection :=
  (n.tasks c).bind HandlerTask.connection

def running (n : RoomLog) (c : ConnectionId) : Option (Connection × List Action) :=
  (n.tasks c).bind HandlerTask.running

/-- What the handler has left to send. -/
def script (n : RoomLog) (c : ConnectionId) : List Action := ((n.running c).map Prod.snd).getD []

/-- The next send of a handler.  A cancelled handler drops the others. -/
def resume (n : RoomLog) (c : ConnectionId) (outcome : Outcome) : RoomLog :=
  match n.running c with
  | some (d, a :: script) =>
    let (registry, sent, script) := performNext n.server.registry a script
    ({ n with server := { n.server with registry } }.deliver
      (sent.filter fun delivery => outcome.lets delivery.connection.connectionId)).setTask c
      (outcome.after d script)
  | _ => n

/-- What the handler of a message commits, and what it has left to send. -/
def commit (n : RoomLog) (d : Connection) (message : Json) (id : String) (now : DateTime) :
    RoomLog :=
  let (db, actions) := onMessage n.server.db n.server.registry d message id now
  ({ n with server := { n.server with db } }.note d.meetingId
    (if IsRemoval message then (closings n.server.db db d.meetingId).map .closed else [])).setTask
    d.connectionId (.serving d actions)

/-- The teardown of a handler, and the `peer.left` that follows it without an await. -/
def tearDown (n : RoomLog) (d : Connection) (now : DateTime) : RoomLog :=
  let (server, actions) := ZoomClone.teardown n.server d now
  let (registry, sent) := performAll server.registry actions
  (({ n with server := { server with registry } }.note d.meetingId
    ((closings n.server.db server.db d.meetingId).map .closed)).deliver sent).setTask
      d.connectionId .finished

/-- One event.  An event that cannot happen changes nothing; a handler is not cancelled
before its message loop. -/
def next (n : RoomLog) : TaskEvent → RoomLog
  | .request r => { n with server := n.server.next (.request r) }
  | .authenticate meetingNumber sessionId c =>
    match n.tasks c with
    | none =>
      match ZoomClone.authenticate n.server.db meetingNumber sessionId with
      | .error _ =>
        { n with log := Function.update n.log c (refusal.map .sent) }.setTask c .finished
      | .ok (meeting, participant) => n.setTask c (.accepting meeting participant)
    | some _ => n
  | .register c =>
    match n.tasks c with
    | some (.accepting meeting participant) =>
      match acceptSocket n.server meeting participant c with
      | (server, sent, none) => ({ n with server }.deliver sent).setTask c .finished
      | (server, sent, some script) =>
        -- Only the others hear of the binding; the socket itself has `room.state`.
        let n' := n.note meeting.id [.bound participant.id c]
        let present := (n.server.db.activeRows meeting.id).map Participant.id
        ({ n' with
            server
            log := Function.update n'.log c
              (n'.log c ++ [Moment.registered present]) }.deliver sent).setTask c
          (.greeting ⟨c, participant.id, meeting.id⟩ script)
    | _ => n
  | .message c message id now outcome =>
    match n.tasks c with
    -- There is no await between the commit and the first send.
    | some (.serving d []) => (n.commit d message id now).resume c outcome
    | _ => n
  | .resume c outcome =>
    match n.tasks c, outcome with
    -- `peer.joined` is sent before the message loop.
    | some (.greeting _ _), .cancelled _ => n
    | _, outcome => n.resume c outcome
  | .hangUp c =>
    match n.tasks c with
    | some (.serving d []) => n.setTask c (.leaving d)
    | _ => n
  | .teardown c now =>
    match n.tasks c with
    | some (.leaving d) => n.tearDown d now
    | _ => n

end RoomLog

/-! ### What an action puts on sockets -/

namespace Action

/-- The connection that an action is for. -/
def addressee : Action → Option Connection
  | send c _ => some c
  | closeConnection c _ => some c
  | _ => none

variable {r : RoomRegistry} {a a' : Action} {script : List Action}
  {m : MeetingId} {p : ParticipantId}

theorem exists_broadcast_of_joins (h : a.joins m = some p) :
    ∃ f exclude, a = .broadcast m f exclude ∧ (WireItem.frame f).joins = some p := by
  cases a with
  | broadcast m' f exclude =>
    rw [joins] at h
    split at h
    · next hm => exact ⟨f, exclude, hm ▸ rfl, h⟩
    · cases h
  | _ => cases h

theorem exists_broadcast_of_parts (h : a.parts m = some p) :
    ∃ f, a = .broadcast m f none ∧ (WireItem.frame f).parts = some p := by
  cases a with
  | broadcast m' f exclude =>
    cases exclude with
    | some c => cases h
    | none =>
      rw [parts] at h
      split at h
      · next hm => exact ⟨f, hm ▸ rfl, h⟩
      · cases h
  | _ => cases h

theorem parts_peerLeft (d : Connection) (p : ParticipantId) :
    (peerLeft d p).parts d.meetingId = some p := by
  simp [peerLeft, parts, WireItem.parts]

theorem joins_announce (d : Connection) (you : ParticipantView) :
    (announce d you).joins d.meetingId = some you.id := by
  simp [announce, joins, WireItem.joins]

/-- A reply announces nobody. -/
theorem Reply.joins {db : Db} {d : Connection} (h : a.Reply db d) (m : MeetingId) :
    a.joins m = none := by
  by_contra hne
  obtain ⟨p, hp⟩ := Option.ne_none_iff_exists'.mp hne
  obtain ⟨f, exclude, rfl, hjoins⟩ := exists_broadcast_of_joins hp
  -- A broadcast that is a reply puts a reply on any socket, which announces nobody.
  have hitem : (WireItem.frame f).Reply db .empty d "" := by
    cases h with
    | farewell t hclosed => exact .farewell t _ rfl hclosed
    | evict a ha hclosed => exact .evict _ (ha f rfl) hclosed
    | plain a ha =>
      obtain ⟨f', hf', hplain⟩ := ha
      obtain rfl := Option.some.inj hf'
      exact .plain _ hplain
  rw [hitem.joins] at hjoins
  cases hjoins

theorem joins_of_frame_none (h : a.frame = none) (m : MeetingId) : a.joins m = none := by
  cases a with
  | broadcast m' f exclude => cases h
  | _ => rfl

/-- What is left of a script contains it. -/
theorem mem_performNext_left (h : a' ∈ script) : a' ∈ (performNext r a script).2.2 := by
  cases a with
  | closePeers m' exclude code =>
    simp only [performNext]
    split
    · exact h
    · exact List.mem_append_right _ h
  | _ => exact h

/-- What is left of a script is for whom it was, or closes registered sockets. -/
theorem addressee_performNext_left (h : a' ∈ (performNext r a script).2.2) {c : Connection}
    (hc : a'.addressee = some c) : a' ∈ script ∨ ∃ m, c ∈ r.connections m := by
  cases a with
  | closePeers m' exclude code =>
    simp only [performNext] at h
    split at h
    · exact .inl h
    · next peer peers hpeers =>
      rcases List.mem_append.mp h with h | h
      · obtain ⟨d, hd, rfl⟩ := List.mem_map.mp h
        obtain rfl := Option.some.inj hc
        have hmem : d ∈ peersToClose r m' exclude := hpeers ▸ List.mem_cons_of_mem _ hd
        exact .inr ⟨m', (List.mem_filter.mp hmem).1⟩
      · exact .inl h
  | _ => exact .inl h

/-- What is sent goes to registered sockets, or to the one it is for. -/
theorem performNext_connection {delivery : Delivery} (h : delivery ∈ (performNext r a script).2.1) :
    a.addressee = some delivery.connection ∨ ∃ m, delivery.connection ∈ r.connections m := by
  cases a with
  | send c f =>
    obtain rfl := List.mem_singleton.mp h
    exact .inl rfl
  | sendToParticipant m p f =>
    obtain ⟨c, hc, rfl⟩ := List.mem_map.mp h
    exact .inr ⟨m, (RoomRegistry.find_mem (Option.mem_toList.mp hc)).1⟩
  | broadcast m f exclude =>
    obtain ⟨c, hc, rfl⟩ := List.mem_map.mp h
    exact .inr ⟨m, (List.mem_filter.mp hc).1⟩
  | closeConnection c code =>
    obtain rfl := List.mem_singleton.mp h
    exact .inl rfl
  | closeParticipant m p code =>
    simp only [performNext, perform] at h
    split at h
    · cases h
    · next c hfind =>
      obtain rfl := List.mem_singleton.mp h
      exact .inr ⟨m, (RoomRegistry.find_mem hfind).1⟩
  | closePeers m exclude code =>
    simp only [performNext] at h
    split at h
    · cases h
    · next peer peers hpeers =>
      obtain rfl := List.mem_singleton.mp h
      have hmem : peer ∈ peersToClose r m exclude := hpeers ▸ List.mem_cons_self
      exact .inr ⟨m, (List.mem_filter.mp hmem).1⟩

/-- A broadcast reaches the registered sockets that it does not exclude. -/
theorem mem_itemsFor_broadcast (script : List Action) (f : Frame) {exclude : Option ConnectionId}
    {b : Connection} (hb : b ∈ r.connections m) (hexclude : some b.connectionId ≠ exclude)
    {outcome : Outcome}
    (hlets : outcome.lets b.connectionId) :
    WireItem.frame f ∈ itemsFor b.connectionId
      ((performNext r (.broadcast m f exclude) script).2.1.filter
      fun delivery => outcome.lets delivery.connection.connectionId) := by
  refine mem_itemsFor.mpr ⟨⟨b, .frame f⟩, List.mem_filter.mpr ⟨?_, hlets⟩, rfl, rfl⟩
  exact List.mem_map.mpr ⟨b, List.mem_filter.mpr ⟨hb, decide_eq_true hexclude⟩, rfl⟩

end Action

/-! ### What a socket is handed -/

/-- The roster that is read after the bind lists the rows that were open before it. -/
theorem mem_activeRoster_bind {db : Db} {m : MeetingId} {q : ParticipantId} {c : ConnectionId}
    {x : ParticipantId} (h : x ∈ (db.activeRows m).map Participant.id) :
    x ∈ (activeRoster (bindConnection db q c) m).map ParticipantView.id := by
  obtain ⟨p, hp, rfl⟩ := List.mem_map.mp h
  obtain ⟨hmem, hm, hopen⟩ := Db.mem_activeRows.mp hp
  refine List.mem_map.mpr ⟨_, mem_activeRoster.mpr ⟨_, Db.mem_activeRows.mpr
    ⟨Db.mem_updateRow.mpr ⟨p, hmem, rfl⟩, ?_, ?_⟩, rfl⟩, ?_⟩
  · split
    · exact hm
    · exact hm
  · split
    · exact hopen
    · exact hopen
  · split <;> rfl

/-- **A socket that is registered**: it is refused and forgotten, or bound and sent the
roster first. -/
theorem acceptSocket_cases (s : Server) (meeting : Meeting) (p : Participant) (c : ConnectionId) :
    let d : Connection := ⟨c, p.id, meeting.id⟩
    (∃ sent, acceptSocket s meeting p c =
        ({ s with registry := (s.registry.add d).remove d, sockets := s.sockets.set d },
          sent, none) ∧
      ∀ delivery ∈ sent, delivery.connection = d) ∨
    ∃ snapshot f, acceptSocket s meeting p c =
        ({ db := bindConnection s.db p.id c, registry := s.registry.add d,
           sockets := s.sockets.set d },
          [⟨d, .frame f⟩], some [announce d snapshot.you]) ∧
      f.body = .roomState snapshot ∧ snapshot.you.id = p.id ∧
        snapshot.participants = activeRoster (bindConnection s.db p.id c) meeting.id := by
  intro d
  rw [acceptSocket]
  cases assertRoomHasSpace s.db meeting.id with
  | error e =>
    refine .inl ⟨_, rfl, ?_⟩
    intro delivery hdelivery
    rcases List.mem_cons.mp hdelivery with rfl | hdelivery
    · rfl
    · rw [List.mem_singleton.mp hdelivery]
  | ok u =>
    have hid : (((bindConnection s.db p.id c).getParticipant p.id).getD p).id = p.id := by
      cases hrow : (bindConnection s.db p.id c).getParticipant p.id with
      | none => rfl
      | some q => exact Keyed.key_of_find? hrow
    refine .inr ⟨roomSnapshot (bindConnection s.db p.id c) meeting
      (((bindConnection s.db p.id c).getParticipant p.id).getD p),
      { body := .roomState _, recipient := some p.id }, ?_, rfl, hid, rfl⟩
    simp only [hid]
    rfl

namespace RoomLog

section Register

variable {n : RoomLog} {c : ConnectionId} {meeting : Meeting} {participant : Participant}

/-- A socket whose session is refused. -/
def rejected (n : RoomLog) (c : ConnectionId) : RoomLog :=
  { n with log := Function.update n.log c (refusal.map .sent) }.setTask c .finished

/-- A socket that is refused is registered and forgotten without an await. -/
def refused (n : RoomLog) (meeting : Meeting) (participant : Participant) (c : ConnectionId)
    (sent : List Delivery) : RoomLog :=
  let d : Connection := ⟨c, participant.id, meeting.id⟩
  ({ n with server :=
      { n.server with
        registry := (n.server.registry.add d).remove d,
        sockets := n.server.sockets.set d } }.deliver
    sent).setTask c .finished

/-- A socket that is accepted is bound and sent the roster. -/
def accepted (n : RoomLog) (meeting : Meeting) (participant : Participant) (c : ConnectionId)
    (you : ParticipantView) (f : Frame) : RoomLog :=
  let d : Connection := ⟨c, participant.id, meeting.id⟩
  let n' := n.note meeting.id [.bound participant.id c]
  let present := (n.server.db.activeRows meeting.id).map Participant.id
  ({ n' with
      server :=
        { db := bindConnection n.server.db participant.id c
          registry := n.server.registry.add d
          sockets := n.server.sockets.set d }
      log := Function.update n'.log c
        (n'.log c ++ [Moment.registered present]) }.deliver [⟨d, .frame f⟩]).setTask c
    (.greeting d [announce d you])

/-- **The registration of a socket.** -/
theorem register_cases (htask : n.tasks c = some (.accepting meeting participant)) :
    (∃ sent, n.next (.register c) = n.refused meeting participant c sent ∧
      ∀ delivery ∈ sent, delivery.connection = ⟨c, participant.id, meeting.id⟩) ∨
    ∃ snapshot f, n.next (.register c) = n.accepted meeting participant c snapshot.you f ∧
      f.body = .roomState snapshot ∧ snapshot.you.id = participant.id ∧
        ∀ p ∈ (n.server.db.activeRows meeting.id).map Participant.id,
          p ∈ snapshot.participants.map ParticipantView.id := by
  rw [next, htask]
  dsimp only
  rcases acceptSocket_cases n.server meeting participant c with ⟨sent, haccept, hsent⟩ |
    ⟨snapshot, f, haccept, hf, hyou, hroster⟩
  · rw [haccept]
    exact .inl ⟨sent, rfl, hsent⟩
  · rw [haccept]
    refine .inr ⟨snapshot, f, rfl, hf, hyou, fun p hp => ?_⟩
    rw [hroster]
    exact mem_activeRoster_bind hp

/-- A handler that announces its participant is not cancelled; another goes on. -/
theorem next_resume (n : RoomLog) (c : ConnectionId) (outcome : Outcome) :
    n.next (.resume c outcome) = n ∨ (n.next (.resume c outcome) = n.resume c outcome ∧
      ∀ d script, n.tasks c = some (.greeting d script) → outcome = .completes) := by
  cases outcome with
  | completes =>
    refine .inr ⟨?_, fun _ _ _ => rfl⟩
    rw [next]
    exact nofun
  | cancelled went =>
    cases htask : n.tasks c with
    | none => exact .inr ⟨by simp only [next, htask], nofun⟩
    | some t =>
      cases t with
      | greeting d script => exact .inl (by simp only [next, htask])
      | _ => exact .inr ⟨by simp only [next, htask], nofun⟩

end Register

end RoomLog

/-! ### The invariant -/

/-- The socket is not registered yet. -/
def HandlerTask.Waits : Option HandlerTask → Prop
  | none => True
  | some (.accepting _ _) => True
  | _ => False

/-- What a handler may be about to do. -/
inductive HandlerTask.Fits (sockets : Keyed Connection.connectionId) (c : ConnectionId) :
    HandlerTask → Prop
  | accepting (meeting : Meeting) (participant : Participant) :
    Fits sockets c (.accepting meeting participant)
  | greeting (d : Connection) (you : ParticipantView) (hid : d.connectionId = c)
      (hd : d ∈ sockets) :
      Fits sockets c (.greeting d [announce d you])
  | serving (d : Connection) (script : List Action) (hid : d.connectionId = c) (hd : d ∈ sockets)
      (hjoins : ∀ a ∈ script, ∀ m, a.joins m = none)
      (haddressee : ∀ a ∈ script, ∀ x, a.addressee = some x → x ∈ sockets) :
        Fits sockets c (.serving d script)
  | leaving (d : Connection) (hid : d.connectionId = c) (hd : d ∈ sockets) :
    Fits sockets c (.leaving d)
  | finished : Fits sockets c .finished

theorem HandlerTask.Fits.mono {sockets sockets' : Keyed Connection.connectionId} {c : ConnectionId}
    {t : HandlerTask} (h : t.Fits sockets c) (hsub : ∀ d ∈ sockets, d ∈ sockets') :
    t.Fits sockets' c := by
  cases h with
  | accepting meeting participant => exact .accepting meeting participant
  | greeting d you hid hd => exact .greeting d you hid (hsub d hd)
  | serving d script hid hd hjoins haddressee =>
    exact .serving d script hid (hsub d hd) hjoins fun a ha x hx => hsub x (haddressee a ha x hx)
  | leaving d hid hd => exact .leaving d hid (hsub d hd)
  | finished => exact .finished

/-- Every send of a handler that runs is for a socket that was registered. -/
theorem HandlerTask.Fits.running {sockets : Keyed Connection.connectionId} {c : ConnectionId}
    {t : HandlerTask} (h : t.Fits sockets c) {d : Connection} {script : List Action}
    (hrun : t.running = some (d, script)) : d.connectionId = c ∧ d ∈ sockets ∧
      (∀ a ∈ script, ∀ x, a.addressee = some x → x ∈ sockets) ∧
        ((∃ you, t = .greeting d script ∧ script = [announce d you]) ∨
          (t = .serving d script ∧ ∀ a ∈ script, ∀ m, a.joins m = none)) := by
  cases h with
  | greeting d' you hid hd =>
    obtain ⟨rfl, rfl⟩ := Prod.mk.inj (Option.some.inj hrun)
    refine ⟨hid, hd, fun a ha x hx => ?_, .inl ⟨you, rfl, rfl⟩⟩
    obtain rfl := List.mem_singleton.mp ha
    cases hx
  | serving d' script' hid hd hjoins haddressee =>
    obtain ⟨rfl, rfl⟩ := Prod.mk.inj (Option.some.inj hrun)
    exact ⟨hid, hd, haddressee, .inr ⟨rfl, hjoins⟩⟩
  | _ => cases hrun

namespace RoomLog

/-- What ties the handlers, the registry and the logs together. -/
structure Valid (n : RoomLog) : Prop where
  registered : ∀ m, ∀ b ∈ n.server.registry.connections m, b.meetingId = m ∧ b ∈ n.server.sockets
  tasks : ∀ c t, n.tasks c = some t → t.Fits n.server.sockets c
  fresh : ∀ c, HandlerTask.Waits (n.tasks c) → c ∉ n.server.sockets.keys ∧ n.log c = []
  bound : ∀ b, ∀ i ∈ n.log b, ∀ p, i.bound? ≠ some (p, b)

theorem valid_init : Valid {} where
  registered := fun _ _ hb => nomatch hb
  tasks := fun _ _ ht => nomatch ht
  fresh := fun _ _ => ⟨List.not_mem_nil, rfl⟩
  bound := fun _ _ hi => nomatch hi

section Parts

variable {n : RoomLog} {c b : ConnectionId} {m : MeetingId}

@[simp] theorem server_setTask (t : HandlerTask) : (n.setTask c t).server = n.server := rfl

@[simp] theorem log_setTask (t : HandlerTask) : (n.setTask c t).log = n.log := rfl

theorem tasks_setTask_self (t : HandlerTask) : (n.setTask c t).tasks c = some t :=
  Function.update_self ..

theorem tasks_setTask_of_ne (t : HandlerTask) (h : b ≠ c) : (n.setTask c t).tasks b = n.tasks b :=
  Function.update_of_ne h ..

theorem script_setTask_self (t : HandlerTask) :
    (n.setTask c t).script c = (t.running.map Prod.snd).getD [] := by
  simp [script, running, setTask]

theorem script_setTask_of_ne (t : HandlerTask) (h : b ≠ c) :
    (n.setTask c t).script b = n.script b := by
  simp [script, running, setTask, h]

theorem connection_setTask_self (t : HandlerTask) :
    (n.setTask c t).connection c = t.connection := by
  simp [connection, setTask]

theorem connection_setTask_of_ne (t : HandlerTask) (h : b ≠ c) :
    (n.setTask c t).connection b = n.connection b := by
  simp [connection, setTask, h]

/-- A socket whose handler has not ended is another than the one whose handler ends. -/
theorem connection_finished (h : (n.setTask c .finished).connection b ≠ none) :
    b ≠ c ∧ n.connection b ≠ none := by
  have hne : b ≠ c := by
    rintro rfl
    exact h (connection_setTask_self _)
  rw [connection_setTask_of_ne _ hne] at h
  exact ⟨hne, h⟩

theorem waits_none (htask : n.tasks c = none) : HandlerTask.Waits (n.tasks c) := by
  rw [htask]
  trivial

theorem waits_accepting {meeting : Meeting} {participant : Participant}
    (htask : n.tasks c = some (.accepting meeting participant)) :
    HandlerTask.Waits (n.tasks c) := by
  rw [htask]
  trivial

theorem Valid.setTask (hv : n.Valid) {t : HandlerTask} (ht : t.Fits n.server.sockets c)
    (hwaits : HandlerTask.Waits (some t) → HandlerTask.Waits (n.tasks c)) :
    (n.setTask c t).Valid where
  registered := hv.registered
  tasks := by
    intro c' t' htask
    by_cases hc : c' = c
    · subst hc
      rw [tasks_setTask_self] at htask
      obtain rfl := Option.some.inj htask
      exact ht
    · rw [tasks_setTask_of_ne t hc] at htask
      exact hv.tasks c' t' htask
  fresh := by
    intro c' hw
    by_cases hc : c' = c
    · subst hc
      rw [tasks_setTask_self] at hw
      exact hv.fresh c' (hwaits hw)
    · rw [tasks_setTask_of_ne t hc] at hw
      exact hv.fresh c' hw
  bound := hv.bound

/-- The server goes on, with no more sockets in the registry. -/
theorem Valid.withServer (hv : n.Valid) {s : Server} (hsockets : s.sockets = n.server.sockets)
    (hsub : ∀ m, ∀ b ∈ s.registry.connections m, b ∈ n.server.registry.connections m) :
    Valid { n with server := s } where
  registered := fun m b hb => hsockets ▸ hv.registered m b (hsub m b hb)
  tasks := fun c t ht => hsockets ▸ hv.tasks c t ht
  fresh := fun c hw => hsockets ▸ hv.fresh c hw
  bound := hv.bound

/-- The logs grow, but not those of sockets that are not registered yet. -/
theorem Valid.withLog (hv : n.Valid) (log : ConnectionId → List Moment)
    (h : ∀ b, ∃ more, log b = n.log b ++ more ∧ (HandlerTask.Waits (n.tasks b) → more = []) ∧
      ∀ i ∈ more, ∀ p, i.bound? ≠ some (p, b)) : Valid { n with log } where
  registered := hv.registered
  tasks := hv.tasks
  fresh := by
    intro c hw
    obtain ⟨more, hlog, hnone, -⟩ := h c
    obtain ⟨hnew, hempty⟩ := hv.fresh c hw
    refine ⟨hnew, ?_⟩
    show log c = []
    rw [hlog, hempty, hnone hw, List.append_nil]
  bound := by
    intro b i hi p
    obtain ⟨more, hlog, -, hmore⟩ := h b
    have hi : i ∈ log b := hi
    rw [hlog, List.mem_append] at hi
    rcases hi with hi | hi
    · exact hv.bound b i hi p
    · exact hmore i hi p

/-- What is put on registered sockets is put in their logs. -/
theorem Valid.deliver (hv : n.Valid) {sent : List Delivery}
    (hsent : ∀ delivery ∈ sent, delivery.connection ∈ n.server.sockets) :
    (n.deliver sent).Valid := by
  refine hv.withLog _ fun b => ⟨_, rfl, fun hw => ?_, fun i hi p => ?_⟩
  · rw [List.map_eq_nil_iff, List.eq_nil_iff_forall_not_mem]
    intro item hitem
    obtain ⟨delivery, hdelivery, rfl, -⟩ := mem_itemsFor.mp hitem
    exact (hv.fresh _ hw).1 (Keyed.key_mem_keys (hsent delivery hdelivery))
  · obtain ⟨item, -, rfl⟩ := List.mem_map.mp hi
    exact nofun

/-- The sockets of a room take note of what binds no connection of theirs. -/
theorem Valid.note (hv : n.Valid) {moments : List Moment}
    (hmoments : ∀ b ∈ n.server.registry.connections m, ∀ i ∈ moments, ∀ p,
      i.bound? ≠ some (p, b.connectionId)) : (n.note m moments).Valid := by
  refine hv.withLog _ fun b => ?_
  by_cases hb : b ∈ (n.server.registry.connections m).map Connection.connectionId
  · obtain ⟨d, hd, rfl⟩ := List.mem_map.mp hb
    refine ⟨moments, if_pos hb, fun hw => ?_, hmoments d hd⟩
    exact absurd (Keyed.key_mem_keys (hv.registered m d hd).2) (hv.fresh _ hw).1
  · exact ⟨[], (if_neg hb).trans (List.append_nil _).symm, fun _ => rfl, fun _ hi => nomatch hi⟩

end Parts

/-! ### What an event keeps -/

section Events

variable {n : RoomLog} {c b : ConnectionId} {d : Connection} {m m' : MeetingId} {a : Action}
  {script : List Action} {message : Json} {id : String} {now : DateTime}

theorem script_eq (hrun : n.running c = some (d, script)) : n.script c = script := by
  simp [RoomLog.script, hrun]

theorem resume_eq (hrun : n.running c = some (d, a :: script)) (outcome : Outcome) :
    n.resume c outcome = ({ n with
        server := { n.server with registry := (performNext n.server.registry a script).1 } }.deliver
      ((performNext n.server.registry a script).2.1.filter
        fun delivery => outcome.lets delivery.connection.connectionId)).setTask c
      (outcome.after d (performNext n.server.registry a script).2.2) := by
  rw [RoomLog.resume, hrun]

theorem resume_idle (hidle : ∀ d a script, n.running c ≠ some (d, a :: script))
    (outcome : Outcome) :
    n.resume c outcome = n := by
  rw [RoomLog.resume]
  split
  · next d a script h => exact absurd h (hidle d a script)
  · rfl

theorem Valid.resume (hv : n.Valid) (c : ConnectionId) (outcome : Outcome) :
    (n.resume c outcome).Valid := by
  by_cases hidle : ∀ d a script, n.running c ≠ some (d, a :: script)
  · rw [resume_idle hidle]
    exact hv
  · push Not at hidle
    obtain ⟨d, a, script, hrun⟩ := hidle
    obtain ⟨t, htask, ht⟩ := Option.bind_eq_some_iff.mp hrun
    obtain ⟨hid, hd, haddressee, hkind⟩ := (hv.tasks c t htask).running ht
    rw [resume_eq hrun]
    have hserver := hv.withServer (s := { n.server with
      registry := (performNext n.server.registry a script).1 }) rfl fun m b hb => performNext_sub hb
    refine Valid.setTask (hserver.deliver fun delivery hdelivery => ?_) ?_ ?_
    · rcases Action.performNext_connection (List.mem_filter.mp hdelivery).1 with hself | ⟨m, hmem⟩
      · exact haddressee a List.mem_cons_self _ hself
      · exact (hv.registered m _ hmem).2
    · cases outcome with
      | cancelled went => exact .leaving d hid hd
      | completes =>
        -- What is left was in the script, or closes a registered socket.
        refine .serving d _ hid hd (fun a' ha' m => ?_) (fun a' ha' x hx => ?_)
        · rcases performNext_left ha' with hmem | ⟨-, hnone⟩
          · rcases hkind with ⟨you, -, hgreeting⟩ | ⟨-, hjoins⟩
            · rw [(List.cons.inj hgreeting).2] at hmem
              cases hmem
            · exact hjoins a' (List.mem_cons_of_mem _ hmem) m
          · exact Action.joins_of_frame_none hnone m
        · rcases Action.addressee_performNext_left ha' hx with hmem | ⟨m, hmem⟩
          · exact haddressee a' (List.mem_cons_of_mem _ hmem) x hx
          · exact (hv.registered m x hmem).2
    · cases outcome <;> exact False.elim

theorem Valid.commit (hv : n.Valid) (hd : d ∈ n.server.sockets) :
    (n.commit d message id now).Valid := by
  have hserver := hv.withServer (s := { n.server with
    db := (onMessage n.server.db n.server.registry d message id now).1 }) rfl fun m b hb => hb
  refine Valid.setTask (hserver.note fun b _ i hi p => ?_) ?_ False.elim
  · split at hi
    · obtain ⟨x, -, rfl⟩ := List.mem_map.mp hi
      exact nofun
    · cases hi
  · refine .serving d _ rfl hd (fun a ha m => ?_) (fun a ha x hx => ?_)
    · exact (onMessage_reply _ _ _ _ _ _ a ha).joins m
    · have hroom := onMessage_inRoom a ha
      cases a with
      | send c f =>
        obtain rfl := Option.some.inj hx
        rw [hroom.1]
        exact hd
      | closeConnection c code =>
        obtain rfl := Option.some.inj hx
        rw [show c = d from hroom]
        exact hd
      | _ => cases hx

/-- What follows a teardown goes to the sockets that are left, and a row that the
teardown closed is in it. -/
theorem performAll_teardown {s : Server} {delivery : Delivery}
    (h : delivery ∈ (performAll (teardown s d now).1.registry (teardown s d now).2).2) :
    delivery.connection ∈ (teardown s d now).1.registry.connections d.meetingId := by
  simp only [teardown] at h ⊢
  split at h
  · simp only [performAll, peerLeft, perform, broadcastTargets_none, List.append_nil] at h
    obtain ⟨c, hc, rfl⟩ := List.mem_map.mp h
    exact hc
  · cases h

theorem tearDown_sub {s : Connection} (hs : s ∈ (n.tearDown d now).server.registry.connections m) :
    s ∈ (teardown n.server d now).1.registry.connections m ∧
      s ∈ n.server.registry.connections m := by
  have hs' : s ∈ (teardown n.server d now).1.registry.connections m := performAll_sub hs
  exact ⟨hs', (RoomRegistry.mem_connections_remove.mp hs').1⟩

theorem Valid.tearDown (hv : n.Valid) (d : Connection) (now : DateTime) :
    (n.tearDown d now).Valid := by
  have hserver := hv.withServer (s := (n.tearDown d now).server) rfl fun m b hb =>
    (tearDown_sub hb).2
  refine Valid.setTask
    (Valid.deliver (hserver.note fun b _ i hi p => ?_) fun delivery hdelivery => ?_)
    .finished False.elim
  · obtain ⟨x, -, rfl⟩ := List.mem_map.mp hi
    exact nofun
  · have hmem := performAll_teardown hdelivery
    exact (hv.registered _ _ (RoomRegistry.mem_connections_remove.mp hmem).1).2

/-- A new socket is in no registry, and nothing happened to it. -/
theorem Valid.unregistered (hv : n.Valid) (hw : HandlerTask.Waits (n.tasks c)) {s : Connection}
    (hs : s ∈ n.server.registry.connections m) : s.connectionId ≠ c := by
  rintro rfl
  exact (hv.fresh _ hw).1 (Keyed.key_mem_keys (hv.registered m s hs).2)

theorem mem_set_fresh (hv : n.Valid) (hw : HandlerTask.Waits (n.tasks c)) {d : Connection}
    (hid : d.connectionId = c) : ∀ s ∈ n.server.sockets, s ∈ n.server.sockets.set d := by
  intro s hs
  refine Keyed.mem_set.mpr (.inr ⟨hs, ?_⟩)
  rw [hid]
  rintro rfl
  exact (hv.fresh _ hw).1 (Keyed.key_mem_keys hs)

/-- A socket leaves the handshake. -/
theorem Valid.enter (hv : n.Valid) (hw : HandlerTask.Waits (n.tasks c)) {d : Connection}
    (hid : d.connectionId = c) {t : HandlerTask} (ht : t.Fits (n.server.sockets.set d) c)
    (hleft : ¬ HandlerTask.Waits (some t)) {s : Server}
    (hsockets : s.sockets = n.server.sockets.set d)
    (hregistry : ∀ m, ∀ b ∈ s.registry.connections m,
      (b = d ∧ d.meetingId = m) ∨ b ∈ n.server.registry.connections m) :
    (RoomLog.setTask { n with server := s } c t).Valid where
  registered := by
    intro m b hb
    have hsockets : b ∈ n.server.sockets.set d → b ∈ s.sockets := fun h => hsockets ▸ h
    rcases hregistry m b hb with ⟨rfl, hm⟩ | hb
    · exact ⟨hm, hsockets (Keyed.mem_set.mpr (.inl rfl))⟩
    · obtain ⟨hm, hmem⟩ := hv.registered m b hb
      exact ⟨hm, hsockets (mem_set_fresh hv hw hid b hmem)⟩
  tasks := by
    intro c' t' htask
    show t'.Fits s.sockets c'
    rw [hsockets]
    by_cases hsame : c' = c
    · subst hsame
      rw [tasks_setTask_self] at htask
      obtain rfl := Option.some.inj htask
      exact ht
    · rw [tasks_setTask_of_ne _ hsame] at htask
      exact (hv.tasks c' t' htask).mono (mem_set_fresh hv hw hid)
  fresh := by
    intro c' hw'
    by_cases hsame : c' = c
    · subst hsame
      rw [tasks_setTask_self] at hw'
      exact absurd hw' hleft
    · rw [tasks_setTask_of_ne _ hsame] at hw'
      obtain ⟨hkeys, hlog⟩ := hv.fresh c' hw'
      refine ⟨fun hmem => ?_, hlog⟩
      -- The only new socket is that of `c`.
      obtain ⟨b, hb, rfl⟩ := Keyed.mem_keys.mp hmem
      rcases Keyed.mem_set.mp (hsockets ▸ hb) with rfl | ⟨hb, -⟩
      · exact hsame hid
      · exact hkeys (Keyed.key_mem_keys hb)
  bound := hv.bound

variable {meeting : Meeting} {participant : Participant} {sent : List Delivery}
  {you : ParticipantView} {f : Frame}
  {moments : List Moment}

theorem refused_sub {s : Connection}
    (hs : s ∈ (n.refused meeting participant c sent).server.registry.connections m) :
    s ∈ n.server.registry.connections m := by
  obtain ⟨hs, hne⟩ := RoomRegistry.mem_connections_remove.mp hs
  rcases RoomRegistry.mem_connections_add.mp hs with ⟨rfl, hm⟩ | ⟨hs, -⟩
  · exact absurd rfl (hne hm)
  · exact hs

theorem Valid.refused (hv : n.Valid) (hw : HandlerTask.Waits (n.tasks c))
    (hsent : ∀ delivery ∈ sent, delivery.connection = ⟨c, participant.id, meeting.id⟩) :
    (n.refused meeting participant c sent).Valid := by
  have henter := hv.enter hw (d := ⟨c, participant.id, meeting.id⟩) rfl .finished id
    (s := (n.refused meeting participant c sent).server) rfl fun m b hb => .inr (refused_sub hb)
  refine henter.deliver fun delivery hdelivery => ?_
  rw [hsent delivery hdelivery]
  exact Keyed.mem_set.mpr (.inl rfl)

/-- The log of a socket after something happened in a room. -/
theorem log_note (b : ConnectionId) :
    (n.note m moments).log b = n.log b ∨
      (b ∈ (n.server.registry.connections m).map Connection.connectionId ∧
        (n.note m moments).log b = n.log b ++ moments) := by
  by_cases hb : b ∈ (n.server.registry.connections m).map Connection.connectionId
  · exact .inr ⟨hb, if_pos hb⟩
  · exact .inl (if_neg hb)

theorem log_note_unregistered (hv : n.Valid) (hw : HandlerTask.Waits (n.tasks c)) :
    (n.note m moments).log c = [] := by
  rcases log_note c with hlog | ⟨hmem, -⟩
  · rw [hlog, (hv.fresh c hw).2]
  · obtain ⟨s, hs, hid⟩ := List.mem_map.mp hmem
    exact absurd hid (hv.unregistered hw hs)

theorem log_accepted_self (hv : n.Valid) (hw : HandlerTask.Waits (n.tasks c)) :
    (n.accepted meeting participant c you f).log c =
      [.registered ((n.server.db.activeRows meeting.id).map Participant.id), .sent (.frame f)] := by
  simp [accepted, deliver, log_note_unregistered hv hw, itemsFor]

theorem log_accepted_of_ne (hne : b ≠ c) : (n.accepted meeting participant c you f).log b =
    (n.note meeting.id [.bound participant.id c]).log b := by
  simp [accepted, deliver, hne, hne.symm, itemsFor]

theorem Valid.accepted (hv : n.Valid) (hw : HandlerTask.Waits (n.tasks c)) :
    (n.accepted meeting participant c you f).Valid := by
  -- Those who take note are registered, so none of them is the new socket.
  have hnote : (n.note meeting.id [.bound participant.id c]).Valid := by
    refine hv.note fun b hb i hi p hbound => ?_
    obtain rfl := List.mem_singleton.mp hi
    exact hv.unregistered hw hb (congrArg Prod.snd (Option.some.inj hbound)).symm
  have henter := hnote.enter hw (d := ⟨c, participant.id, meeting.id⟩) rfl
    (.greeting _ you rfl (Keyed.mem_set.mpr (.inl rfl))) id
    (s := (n.accepted meeting participant c you f).server) rfl
    fun m b hb => (RoomRegistry.mem_connections_add.mp hb).imp_right And.left
  refine henter.withLog (n.accepted meeting participant c you f).log fun b => ?_
  rw [log_setTask]
  dsimp only
  by_cases hsame : b = c
  · subst hsame
    rw [log_accepted_self hv hw, log_note_unregistered hv hw]
    refine ⟨_, rfl, fun hleft => ?_, fun i hi p => ?_⟩
    · rw [tasks_setTask_self] at hleft
      exact hleft.elim
    · simp only [List.mem_cons, List.not_mem_nil, or_false] at hi
      rcases hi with rfl | rfl <;> exact nofun
  · rw [log_accepted_of_ne hsame]
    exact ⟨[], (List.append_nil _).symm, fun _ => rfl, fun i hi => nomatch hi⟩

theorem log_rejected_of_ne {b c : ConnectionId} (hne : b ≠ c) : (n.rejected c).log b = n.log b :=
  Function.update_of_ne hne ..

theorem Valid.rejected {c : ConnectionId} (hv : n.Valid) (hw : HandlerTask.Waits (n.tasks c)) :
    (n.rejected c).Valid := by
  refine (hv.setTask .finished False.elim).withLog _ fun b => ?_
  by_cases hsame : b = c
  · subst hsame
    refine ⟨refusal.map .sent, ?_, fun hleft => ?_, fun i hi p => ?_⟩
    · rw [log_setTask, (hv.fresh b hw).2]
      exact Function.update_self ..
    · rw [tasks_setTask_self] at hleft
      exact hleft.elim
    · obtain ⟨item, -, rfl⟩ := List.mem_map.mp hi
      exact nofun
  · refine ⟨[], ?_, fun _ => rfl, fun i hi => nomatch hi⟩
    rw [log_setTask, List.append_nil]
    exact log_rejected_of_ne hsame

/-- **An event keeps the invariant.** -/
theorem Valid.next (hv : n.Valid) (e : TaskEvent) : (n.next e).Valid := by
  cases e with
  | request r => exact hv.withServer rfl fun _ _ hb => hb
  | authenticate meetingNumber sessionId c =>
    rw [RoomLog.next]
    split
    · next htask =>
      split
      · exact hv.rejected (waits_none htask)
      · next meeting participant hauth =>
        exact hv.setTask (.accepting meeting participant) fun _ => waits_none htask
    · exact hv
  | register c =>
    by_cases htask : ∃ meeting participant, n.tasks c = some (.accepting meeting participant)
    · obtain ⟨meeting, participant, htask⟩ := htask
      rcases register_cases htask with ⟨sent, hnext, hsent⟩ | ⟨snapshot, f, hnext, -⟩
      · rw [hnext]
        exact hv.refused (waits_accepting htask) hsent
      · rw [hnext]
        exact hv.accepted (waits_accepting htask)
    · rw [RoomLog.next]
      split
      · next meeting participant h => exact absurd ⟨meeting, participant, h⟩ htask
      · exact hv
  | message c message id now outcome =>
    rw [RoomLog.next]
    split
    · next d htask =>
      obtain ⟨hid, hd, -⟩ := (hv.tasks c _ htask).running rfl
      exact (hv.commit hd).resume c outcome
    · exact hv
  | resume c outcome =>
    rcases n.next_resume c outcome with hnext | ⟨hnext, -⟩
    · rw [hnext]
      exact hv
    · rw [hnext]
      exact hv.resume c outcome
  | hangUp c =>
    rw [RoomLog.next]
    split
    · next d htask =>
      obtain ⟨hid, hd, -⟩ := (hv.tasks c _ htask).running rfl
      exact hv.setTask (.leaving d hid hd) False.elim
    · exact hv
  | teardown c now =>
    rw [RoomLog.next]
    split
    · next d htask => exact hv.tearDown d now
    · exact hv

end Events

end RoomLog

end ZoomClone
