/-
The serialized server: requests, sockets and frames, one event at a time.

An event runs to its end, with all its sends, before the next one.  A connection
id is drawn fresh for every socket, a message comes from a registered socket, and
a socket that was registered once may drop at any time.

* `Server.step` — one event, with what it sends;
* `Server.Valid` — what ties the registry to the database, kept by every event
  (`always_valid`);
* `Server.next_operation` — an event runs at most one operation on the database.
-/
import ZoomClone.Router
import ZoomClone.Rows
import ZoomClone.Runs

namespace ZoomClone

inductive Event where
  | request (r : Request)
  | connect (meetingNumber : String) (sessionId : SessionId) (connectionId : ConnectionId)
  | message (connection : Connection) (message : Json) (id : String) (now : DateTime)
  | disconnect (connection : Connection) (now : DateTime)

/-- Run the sends that a handler left. -/
def Server.send (s : Server) (actions : List Action) : Server × List Delivery :=
  let (registry, sent) := performAll s.registry actions
  ({ s with registry }, sent)

/-- A socket that presents a session.  One that is refused never belongs to a
room (see `refusal` for what it is sent). -/
def Server.connect (s : Server) (meetingNumber : String) (sessionId : SessionId)
    (connectionId : ConnectionId) : Server × List Delivery :=
  match authenticate s.db meetingNumber sessionId with
  | .error _ => (s, [])
  | .ok (meeting, participant) =>
    match acceptSocket s meeting participant connectionId with
    | (s', sent, none) => (s', sent)
    | (s', sent, some actions) =>
      let (s'', rest) := s'.send actions
      (s'', sent ++ rest)

def Server.receive (s : Server) (connection : Connection) (message : Json) (id : String)
    (now : DateTime) : Server × List Delivery :=
  let (db, actions) := onMessage s.db s.registry connection message id now
  { s with db }.send actions

def Server.disconnect (s : Server) (connection : Connection) (now : DateTime) :
    Server × List Delivery :=
  let (s', actions) := teardown s connection now
  s'.send actions

/-- One event.  An event that cannot happen changes nothing. -/
def Server.step (s : Server) : Event → Server × List Delivery
  | .request r => ({ s with db := s.db.apply (.request r) }, [])
  | .connect meetingNumber sessionId connectionId =>
    if connectionId ∈ s.sockets.keys then (s, [])
    else s.connect meetingNumber sessionId connectionId
  | .message connection message id now =>
    if connection ∈ s.registry.connections connection.meetingId then
      s.receive connection message id now
    else (s, [])
  | .disconnect connection now =>
    if connection ∈ s.sockets then s.disconnect connection now else (s, [])

/-- The state after an event. -/
def Server.next (s : Server) (e : Event) : Server := (s.step e).1

/-! ### Sends only remove sockets -/

theorem mem_foldl_remove {cs : List Connection} {r : RoomRegistry} {m : MeetingId}
    {c : Connection} : c ∈ (cs.foldl RoomRegistry.remove r).connections m ↔
      c ∈ r.connections m ∧ ∀ d ∈ cs, d.meetingId = m → c.connectionId ≠ d.connectionId := by
  induction cs generalizing r with
  | nil => simp
  | cons d cs ih =>
    rw [List.foldl_cons, ih, RoomRegistry.mem_connections_remove, List.forall_mem_cons, and_assoc]

theorem perform_sub {r : RoomRegistry} {a : Action} {m : MeetingId} {c : Connection}
    (h : c ∈ (perform r a).1.connections m) : c ∈ r.connections m := by
  cases a with
  | send d f => exact h
  | sendToParticipant m' p f => exact h
  | broadcast m' f exclude => exact h
  | closeConnection d code => exact (RoomRegistry.mem_connections_remove.mp h).1
  | closeParticipant m' p code =>
    simp only [perform] at h
    split at h
    · exact h
    · exact (RoomRegistry.mem_connections_remove.mp h).1
  | closePeers m' exclude code => exact (mem_foldl_remove.mp h).1

theorem performAll_sub {as : List Action} {r : RoomRegistry} {m : MeetingId} {c : Connection}
    (h : c ∈ (performAll r as).1.connections m) : c ∈ r.connections m := by
  induction as generalizing r with
  | nil => exact h
  | cons a as ih => exact perform_sub (ih h)

theorem send_sub {s : Server} {actions : List Action} {m : MeetingId} {c : Connection}
    (h : c ∈ (s.send actions).1.registry.connections m) : c ∈ s.registry.connections m :=
  performAll_sub h

/-! ### An event runs at most one operation -/

/-- The operation is what a handler runs for a message on that socket. -/
def Operation.SentBy (c : Connection) (handler : Handler) : Operation → Prop
  | .applyStateUpdate participantId _ => handler = .stateUpdate ∧ participantId = c.participantId
  | .postMessage meetingId participantId _ _ _ =>
    handler = .chatSend ∧ meetingId = c.meetingId ∧ participantId = c.participantId
  | .hostMute actorId _ => handler = .hostMute ∧ actorId = c.participantId
  | .hostMuteAll actorId => handler = .hostMuteAll ∧ actorId = c.participantId
  | .hostRemove actorId _ _ => handler = .hostRemove ∧ actorId = c.participantId
  | .hostEndMeeting actorId _ => handler = .hostEnd ∧ actorId = c.participantId
  | _ => False

theorem handle_operation {db db' : Db} {r : RoomRegistry} {c : Connection} {inbound : Inbound}
    {id : String} {now : DateTime} {actions : List Action}
    (h : handle db r c inbound id now = .ok (db', actions)) :
    db' = db ∨ ∃ op, op.SentBy c inbound.handler ∧ runOperation db op = .ok db' := by
  unfold handle at h
  split at h
  · obtain ⟨rfl, -⟩ := Prod.mk.inj (Except.ok.inj h)
    exact .inl rfl
  · obtain ⟨-, -, -, hdb, -⟩ := handleSignal_eq_ok.mp h
    exact .inl hdb
  · next hhandler =>
    obtain ⟨v, hv, -⟩ := handleStateUpdate_eq_ok.mp h
    exact .inr ⟨.applyStateUpdate _ _, ⟨hhandler, rfl⟩, Service.commit_eq_ok.mpr ⟨v, hv⟩⟩
  · next hhandler =>
    obtain ⟨body, v, -, hv, -⟩ := handleChatSend_eq_ok.mp h
    exact .inr ⟨.postMessage _ _ _ _ _, ⟨hhandler, rfl, rfl⟩, Service.commit_eq_ok.mpr ⟨v, hv⟩⟩
  · next hhandler =>
    obtain ⟨t, actor, v, -, hactor, hv, -⟩ := handleHostMute_eq_ok.mp h
    exact .inr ⟨.hostMute _ _, ⟨hhandler, rfl⟩, runOperation_hostMute hactor hv⟩
  · next hhandler =>
    obtain ⟨actor, vs, hactor, hv, -⟩ := handleHostMuteAll_eq_ok.mp h
    exact .inr ⟨.hostMuteAll _, ⟨hhandler, rfl⟩, runOperation_hostMuteAll hactor hv⟩
  · next hhandler =>
    obtain ⟨t, actor, v, -, hactor, hv, -⟩ := handleHostRemove_eq_ok.mp h
    exact .inr ⟨.hostRemove _ _ _, ⟨hhandler, rfl⟩, runOperation_hostRemove hactor hv⟩
  · next hhandler =>
    obtain ⟨actor, v, hactor, hv, -⟩ := handleHostEnd_eq_ok.mp h
    exact .inr ⟨.hostEndMeeting _ _, ⟨hhandler, rfl⟩, runOperation_hostEndMeeting hactor hv⟩

/-- The database after a message is the old one, or that of the one operation its
handler runs. -/
theorem onMessage_operation (db : Db) (r : RoomRegistry) (c : Connection) (message : Json)
    (id : String) (now : DateTime) : (onMessage db r c message id now).1 = db ∨
      ∃ inbound op, readMessage message = .ok inbound ∧ op.SentBy c inbound.handler ∧
        (onMessage db r c message id now).1 = db.apply op := by
  unfold onMessage
  split
  · exact .inl rfl
  · next inbound hread =>
    split
    · next db' actions h =>
      rcases handle_operation h with h | ⟨op, hop, h⟩
      · exact .inl h
      · exact .inr ⟨inbound, op, hread, hop, (apply_of_ok h).symm⟩
    · exact .inl rfl

/-- No handler ties a socket to a row. -/
theorem onMessage_db (db : Db) (r : RoomRegistry) (c : Connection) (message : Json) (id : String)
    (now : DateTime) : (onMessage db r c message id now).1 = db ∨
      ∃ op, (∀ p d, op ≠ .bindConnection p d) ∧
        (onMessage db r c message id now).1 = db.apply op := by
  rcases onMessage_operation db r c message id now with h | ⟨inbound, op, -, hop, h⟩
  · exact .inl h
  · refine .inr ⟨op, ?_, h⟩
    rintro p d rfl
    exact hop

/-- What an event runs in the database. -/
inductive Event.Performs (s : Server) : Event → Operation → Prop
  | request (r : Request) : Performs s (.request r) (.request r)
  | connect (meetingNumber : String) (sessionId : SessionId) (c : ConnectionId) (m : Meeting)
      (p : Participant) (hauth : authenticate s.db meetingNumber sessionId = .ok (m, p)) :
      Performs s (.connect meetingNumber sessionId c) (.bindConnection p.id c)
  | message (c : Connection) (message : Json) (id : String) (now : DateTime) (inbound : Inbound)
      (op : Operation) (hc : c ∈ s.registry.connections c.meetingId)
      (hread : readMessage message = .ok inbound) (hop : op.SentBy c inbound.handler) :
      Performs s (.message c message id now) op
  | disconnect (c : Connection) (now : DateTime) (hc : c ∈ s.sockets) :
      Performs s (.disconnect c now) (.releaseConnection c.participantId c.connectionId now)

theorem acceptSocket_db (s : Server) (m : Meeting) (p : Participant) (c : ConnectionId) :
    (acceptSocket s m p c).1.db = s.db ∨
      (acceptSocket s m p c).1.db = s.db.apply (.bindConnection p.id c) := by
  rw [acceptSocket]
  split
  · exact .inl rfl
  · exact .inr rfl

/-- **An event runs at most one operation.** -/
theorem Server.next_operation (s : Server) (e : Event) :
    (s.next e).db = s.db ∨ ∃ op, e.Performs s op ∧ (s.next e).db = s.db.apply op := by
  cases e with
  | request r => exact .inr ⟨_, .request r, rfl⟩
  | connect number sessionId c =>
    rw [Server.next, Server.step]
    split
    · exact .inl rfl
    · rw [Server.connect]
      split
      · exact .inl rfl
      · next m p hauth =>
        have haccept := acceptSocket_db s m p c
        have hperforms := Event.Performs.connect number sessionId c m p hauth
        split
        · next s' sent h =>
          rw [h] at haccept
          exact haccept.imp_right fun h => ⟨_, hperforms, h⟩
        · next s' sent actions h =>
          rw [h] at haccept
          exact haccept.imp_right fun h => ⟨_, hperforms, h⟩
  | message c message id now =>
    rw [Server.next, Server.step]
    split
    · next hc =>
      rcases onMessage_operation s.db s.registry c message id now with h |
        ⟨inbound, op, hread, hop, h⟩
      · exact .inl h
      · exact .inr ⟨op, .message c message id now inbound op hc hread hop, h⟩
    · exact .inl rfl
  | disconnect c now =>
    rw [Server.next, Server.step]
    split
    · next hc => exact .inr ⟨_, .disconnect c now hc, rfl⟩
    · exact .inl rfl

/-! ### The invariant -/

/-- The database is valid; a registered socket is registered under its own
meeting; and every socket belongs to a row of that meeting. -/
structure Server.Valid (s : Server) : Prop where
  db : s.db.Valid
  registered : ∀ m, ∀ c ∈ s.registry.connections m, c.meetingId = m ∧ c ∈ s.sockets
  row : ∀ c ∈ s.sockets, ∃ p ∈ s.db.participants, p.id = c.participantId ∧ p.meetingId = c.meetingId

/-- Rows keep their id and their meeting through every operation. -/
theorem row_apply {db : Db} {p : Participant} (hp : p ∈ db.participants) (op : Operation) :
    ∃ q ∈ (db.apply op).participants, p.Evolves q := by
  rcases apply_change db op with h | h
  · rw [h]
    exact ⟨p, hp, .refl p⟩
  · obtain ⟨f, added, hf, -⟩ := h.rows
    exact ⟨f p, hf.mem.mpr (.inl ⟨p, hp, rfl⟩), hf.evolves p hp⟩

theorem Server.Valid.apply {s : Server} (hv : s.Valid) (op : Operation) :
    Server.Valid { s with db := s.db.apply op } where
  db := valid_apply hv.db op
  registered := hv.registered
  row := by
    intro c hc
    obtain ⟨p, hp, hid, hmeeting⟩ := hv.row c hc
    obtain ⟨q, hq, he⟩ := row_apply hp op
    exact ⟨q, hq, he.id.trans hid, he.meetingId.trans hmeeting⟩

theorem Server.Valid.send {s : Server} (hv : s.Valid) (actions : List Action) :
    (s.send actions).1.Valid where
  db := hv.db
  registered := fun m _ hc => hv.registered m _ (send_sub hc)
  row := hv.row

theorem Server.Valid.receive {s : Server} (hv : s.Valid) (c : Connection) (message : Json)
    (id : String) (now : DateTime) : (s.receive c message id now).1.Valid := by
  have hdb : Server.Valid { s with db := (onMessage s.db s.registry c message id now).1 } := by
    rcases onMessage_db s.db s.registry c message id now with h | ⟨op, -, h⟩
    · rw [h]
      exact hv
    · rw [h]
      exact hv.apply op
  exact hdb.send _

theorem Server.Valid.teardown {s : Server} (hv : s.Valid) (c : Connection) (now : DateTime) :
    (teardown s c now).1.Valid := by
  have happly := hv.apply (.releaseConnection c.participantId c.connectionId now)
  exact ⟨happly.db, fun m d hd => hv.registered m d (RoomRegistry.mem_connections_remove.mp hd).1,
    happly.row⟩

/-- Registering a new socket for a row of its meeting. -/
theorem Server.Valid.register {s : Server} (hv : s.Valid) {c : Connection} {p : Participant}
    (hfresh : c.connectionId ∉ s.sockets.keys) (hp : p ∈ s.db.participants)
    (hid : p.id = c.participantId) (hmeeting : p.meetingId = c.meetingId) :
    Server.Valid { s with registry := s.registry.add c, sockets := s.sockets.set c } where
  db := hv.db
  registered := by
    intro m d hd
    rcases RoomRegistry.mem_connections_add.mp hd with ⟨rfl, hm⟩ | ⟨hd, -⟩
    · exact ⟨hm, Keyed.mem_set.mpr (.inl rfl)⟩
    · obtain ⟨hm, hsocket⟩ := hv.registered m d hd
      refine ⟨hm, Keyed.mem_set.mpr (.inr ⟨hsocket, ?_⟩)⟩
      exact fun h => hfresh (h ▸ Keyed.key_mem_keys hsocket)
  row := by
    intro d hd
    rcases Keyed.mem_set.mp hd with rfl | ⟨hd, -⟩
    · exact ⟨p, hp, hid, hmeeting⟩
    · exact hv.row d hd

theorem Server.Valid.acceptSocket {s : Server} (hv : s.Valid)
    {meeting : Meeting} {p q : Participant}
    {c : ConnectionId} (hfresh : c ∉ s.sockets.keys) (hp : p ∈ s.db.participants)
    (hid : p.id = q.id) (hmeeting : p.meetingId = meeting.id) :
    (acceptSocket s meeting q c).1.Valid := by
  have hreg := hv.register (c := ⟨c, q.id, meeting.id⟩) hfresh hp hid hmeeting
  unfold ZoomClone.acceptSocket
  split
  · refine ⟨hreg.db, ?_, hreg.row⟩
    intro m d hd
    exact hreg.registered m d (RoomRegistry.mem_connections_remove.mp hd).1
  · exact hreg.apply (.bindConnection q.id c)

theorem Server.Valid.connect {s : Server} (hv : s.Valid) {number : String} {sessionId : SessionId}
    {c : ConnectionId} (hfresh : c ∉ s.sockets.keys) : (s.connect number sessionId c).1.Valid := by
  unfold Server.connect
  split
  · exact hv
  · next meeting p hauth =>
    obtain ⟨hp, hm, -, -, -⟩ := authenticate_eq_ok.mp hauth
    have haccept := hv.acceptSocket hfresh (participantBySession_mem hp) rfl
      (Keyed.key_of_find? hm).symm
    split
    · next s' sent h =>
      rw [h] at haccept
      exact haccept
    · next s' sent actions h =>
      rw [h] at haccept
      exact haccept.send actions

theorem Server.Valid.next {s : Server} (hv : s.Valid) (e : Event) : (s.next e).Valid := by
  cases e with
  | request r => exact hv.apply (.request r)
  | connect number sessionId c =>
    unfold Server.next Server.step
    dsimp only
    split
    · exact hv
    · next hfresh => exact hv.connect hfresh
  | message c message id now =>
    unfold Server.next Server.step
    dsimp only
    split
    · exact hv.receive c message id now
    · exact hv
  | disconnect c now =>
    unfold Server.next Server.step
    dsimp only
    split
    · exact (hv.teardown c now).send _
    · exact hv

theorem Server.valid_init : Server.Valid {} where
  db := valid_empty
  registered := by
    intro m c hc
    cases hc
  row := by
    intro c hc
    exact absurd hc (Keyed.not_mem_empty c)

/-- **The invariant holds in every reachable state.** -/
theorem Server.always_valid (events : List Event) :
    Runs.Always Server.next Server.Valid {} events :=
  Runs.always_of_step Server.valid_init (fun _ e hv => hv.next e) events

/-! ### A small meeting, for concrete runs -/

/-- The requests by which a host opens a meeting that a guest can join. -/
def openRequests : List Request :=
  [.signInGoogle { sub := "g-host", email := some "ada@example.com" }
      ⟨"host", "", fun _ => (0, 1)⟩,
   .signInGuest "Bob" ⟨"guest", "b0b", fun _ => (0, 2)⟩,
   .createMeeting "host" {}
      { passcode := "hRtz4K", inviteToken := "tok", ids := fun _ => "m"
        numbers := fun _ => (0, 3), inviteeIds := fun _ => "" } 10]

/-- A host opens a meeting that a guest can join. -/
def openMeeting : List Event := openRequests.map .request

/-- The user joins as participant `p` and connects. -/
def enterAs (userId : UserId) (p : String) : List Event :=
  [.request (.joinMeeting userId "10000000003" { inviteToken := some "tok" }
      { id := p, sessionId := "s" ++ p } 20),
   .connect "10000000003" ("s" ++ p) ("c" ++ p)]

/-- The guest joins as participant `p` and connects. -/
def enter (p : String) : List Event := enterAs "guest" p

end ZoomClone
