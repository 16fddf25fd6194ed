/-
What ties tasks, sockets, rows and browsers together in every reachable state.

* `Network.Step.db` — an event runs at most one operation on the database;
* `Network.Valid` — the invariant, kept by every event (`always_valid`).
-/
import ZoomClone.Network

namespace ZoomClone

theorem performNext_sub {r : RoomRegistry} {a : Action} {script : List Action} {m : MeetingId}
    {d : Connection} (h : d ∈ (performNext r a script).1.connections m) : d ∈ r.connections m := by
  unfold performNext at h
  split at h
  · split at h
    · exact h
    · exact (RoomRegistry.mem_connections_remove.mp h).1
  · exact perform_sub h

/-- The task serves a socket of participant `p`, whose session is `s`. -/
def SocketTask.Serves (t : SocketTask) (p : ParticipantId) (s : SessionId) : Prop :=
  match t with
  | .requested url => url.sessionId = s
  | .accepting _ participant => participant.id = p
  | .handling connection _ _ => connection.participantId = p
  | .finished => True

/-- `room'` has the client of `room`, or none, and holds no other socket. -/
def MeetingRoom.Follows (room room' : MeetingRoom) : Prop :=
  ∀ client', room'.signaling = some client' → ∃ client, room.signaling = some client ∧
    client'.url = client.url ∧ ∀ c, client'.live = some c → client.live = some c

theorem MeetingRoom.follows_of_signaling {room room' : MeetingRoom}
    (h : room'.signaling = room.signaling ∨ room'.signaling = none) : room.Follows room' := by
  intro client' hclient'
  rcases h with h | h
  · exact ⟨client', h ▸ hclient', rfl, fun _ hlive => hlive⟩
  · rw [h] at hclient'
    cases hclient'

theorem MeetingRoom.follows_closed (room : MeetingRoom) : room.Follows room.closed := by
  intro client' hclient'
  obtain ⟨client, hclient, rfl⟩ := Option.map_eq_some_iff.mp hclient'
  refine ⟨client, hclient, client.url_onClose, ?_⟩
  intro c hlive
  rw [SignalingClient.live_onClose] at hlive
  cases hlive

theorem MeetingRoom.follows_receive {room : MeetingRoom} {c : ConnectionId}
    (hsocket : room.socket = some c) (item : WireItem) : room.Follows (room.receive item) := by
  cases item with
  | close code => exact room.follows_closed
  | frame f =>
    obtain ⟨client, hclient, hlive⟩ := Option.bind_eq_some_iff.mp hsocket
    have hopened : room.opened.signaling = some client.onOpen := by
      rw [opened, hclient]
      rfl
    intro client' hclient'
    rcases room.opened.handleFrame_signaling f with h | h
    · rw [receive, h, hopened] at hclient'
      obtain rfl := Option.some.inj hclient'
      refine ⟨client, hclient, rfl, ?_⟩
      intro c' hc'
      rw [SignalingClient.live_onOpen hlive] at hc'
      rw [hlive, hc']
    · rw [receive, h] at hclient'
      cases hclient'

/-! ### The row a socket is opened for -/

/-- The url carries the session of the row of `p`, and the number of its meeting. -/
def SignalingUrl.Names (url : SignalingUrl) (db : Db) (p : ParticipantId) : Prop :=
  ∃ q ∈ db.participants, q.id = p ∧ q.sessionId = url.sessionId ∧
    ∃ m ∈ db.meetings, m.id = q.meetingId ∧
      m.meetingNumber = normalizeMeetingNumber url.meetingNumber

theorem SignalingUrl.Names.apply {url : SignalingUrl} {db : Db} {p : ParticipantId}
    (h : url.Names db p) (op : Operation) : url.Names (db.apply op) p := by
  obtain ⟨q, hq, hid, hsession, m, hm, hmeeting, hnumber⟩ := h
  obtain ⟨q', hq', he⟩ := row_apply hq op
  obtain ⟨m', hm', hid', hnumber'⟩ := meeting_apply hm op
  exact ⟨q', hq', he.id.trans hid, he.sessionId.trans hsession, m', hm',
    hid'.trans (hmeeting.trans he.meetingId.symm), hnumber'.trans hnumber⟩

/-! ### The database and the registry over one event -/

namespace Network

variable {n n' : Network} {e : NetEvent}

theorem postJoin_apply {userId : UserId} {meetingNumber : String} {req : JoinRequest}
    {draws : JoinDraws} {now : DateTime} {response : JoinResponse} {db : Db}
    (h : n.postJoin userId meetingNumber req draws now = .ok (response, db)) :
    db = n.server.db.apply (.request (.joinMeeting userId meetingNumber req draws now)) := by
  obtain ⟨user, huser, hjoin⟩ := Service.bind_eq_ok.mp h
  symm
  refine apply_of_ok ?_
  exact Service.bind_eq_ok.mpr ⟨user, huser, Service.commit_eq_ok.mpr ⟨response, hjoin⟩⟩

/-- The socket of a join that succeeds is opened for its new row. -/
theorem postJoin_names {userId : UserId} {meetingNumber : String} {req : JoinRequest}
    {draws : JoinDraws} {now : DateTime} {response : JoinResponse} {db : Db}
    (h : n.postJoin userId meetingNumber req draws now = .ok (response, db)) :
    draws.id ∉ n.server.db.participants.keys ∧
      (⟨meetingNumber, response.sessionId⟩ : SignalingUrl).Names db draws.id := by
  have hdb := postJoin_apply h
  obtain ⟨user, -, hjoin⟩ := Service.bind_eq_ok.mp h
  obtain ⟨m, hcheck, hcommit⟩ := joinMeeting_ok hjoin
  obtain ⟨hid, hp, -, -⟩ := commitJoin_ok hcommit
  have hresponse : response.sessionId = draws.sessionId := by
    obtain ⟨db₁, -, hret⟩ := Service.bind_eq_ok.mp hcommit
    obtain ⟨rfl, -⟩ := Prod.mk.inj (Service.pure_eq_ok.mp hret)
    rfl
  have hm : m ∈ n.server.db.meetings ∧ m.meetingNumber = normalizeMeetingNumber meetingNumber := by
    obtain ⟨hfind, -⟩ := checkJoin_eq_ok.mp hcheck
    exact ⟨mem_of_meetingByNumber hfind, by simpa using List.find?_some hfind⟩
  obtain ⟨m', hm', hid', hnumber⟩ := meeting_apply hm.1
    (.request (.joinMeeting userId meetingNumber req draws now))
  rw [← hdb] at hm'
  refine ⟨hid, joinRow n.server.db m user req draws now, ?_, rfl, hresponse.symm, m', hm', hid',
    hnumber.trans hm.2⟩
  rw [hp]
  exact Keyed.mem_insert.mpr (.inr rfl)

/-- **An event runs at most one operation.**  The one that ties a socket to a row
is run when that socket is registered. -/
theorem Step.db (h : n.Step e n') :
    n'.server.db = n.server.db ∨ ∃ op, n'.server.db = n.server.db.apply op ∧
      ∀ p c, op = .bindConnection p c → e = .register c ∧
        ∃ m q, n.tasks c = some (.accepting m q) ∧ q.id = p := by
  cases h with
  | asked =>
    refine .inr ⟨_, rfl, ?_⟩
    intro p c hop
    cases hop
  | joined response db room req hroom hfresh hpost =>
    refine .inr ⟨_, postJoin_apply hpost, ?_⟩
    intro p c hop
    cases hop
  | registered meeting participant snapshot hyou hroster htask =>
    refine .inr ⟨.bindConnection _ _, (apply_of_ok rfl).symm, ?_⟩
    intro p c hop
    cases hop
    exact ⟨rfl, meeting, participant, htask, rfl⟩
  | @handled c message id now connection db actions htask hlive hmessage =>
    have h := onMessage_db n.server.db n.server.registry connection message id now
    rw [hmessage] at h
    rcases h with h | ⟨op, hop, h⟩
    · exact .inl h
    · exact .inr ⟨op, h, fun p c hbind => absurd hbind (hop p c)⟩
  | tornDown connection server actions htask hteardown =>
    cases hteardown
    refine .inr ⟨.releaseConnection _ _ _, (apply_of_ok rfl).symm, ?_⟩
    intro p c hop
    cases hop
  | _ => exact .inl rfl

/-! ### The invariant -/

/-- What ties sockets, tasks and browsers to each other and to the rows. -/
structure Valid (n : Network) : Prop where
  server : n.server.Valid
  socket : ∀ d ∈ n.server.sockets,
    ∃ down script, n.tasks d.connectionId = some (.handling d down script)
  handling : ∀ c d down script, n.tasks c = some (.handling d down script) →
    d.connectionId = c ∧ d ∈ n.server.sockets
  accepting : ∀ c m p, n.tasks c = some (.accepting m p) →
    ∃ q ∈ n.server.db.participants, q.id = p.id ∧ q.meetingId = m.id
  registered : ∀ m, ∀ d ∈ n.server.registry.connections m,
    ∃ script, n.tasks d.connectionId = some (.handling d false script)
  client : ∀ p client, (n.clients p).signaling = some client → client.url.Names n.server.db p
  serves : ∀ p client c, (n.clients p).signaling = some client → client.live = some c →
    ∃ t, n.tasks c = some t ∧ t.Serves p client.url.sessionId

section Valid

variable (hv : n.Valid)

include hv

/-- A socket that no task handles was never registered. -/
theorem Valid.not_mem_sockets {c : ConnectionId}
    (h : ∀ d down script, n.tasks c ≠ some (.handling d down script)) :
    c ∉ n.server.sockets.keys := by
  intro hc
  obtain ⟨d, hd, rfl⟩ := Keyed.mem_keys.mp hc
  obtain ⟨down, script, htask⟩ := hv.socket d hd
  exact h d down script htask

theorem Valid.push (sent : List Delivery) : (n.push sent).Valid :=
  ⟨hv.server, hv.socket, hv.handling, hv.accepting, hv.registered, hv.client, hv.serves⟩

theorem Valid.withWires (wires : ConnectionId → Wire) : Valid { n with wires } :=
  ⟨hv.server, hv.socket, hv.handling, hv.accepting, hv.registered, hv.client, hv.serves⟩

/-- The server moves on without touching its sockets. -/
theorem Valid.withServer {server : Server} (hserver : server.Valid)
    (hsockets : server.sockets = n.server.sockets)
    (hregistry : ∀ m, ∀ d ∈ server.registry.connections m, d ∈ n.server.registry.connections m)
    (hdb : server.db = n.server.db ∨ ∃ op, server.db = n.server.db.apply op) :
    Valid { n with server } where
  server := hserver
  socket := fun d hd => hv.socket d (hsockets ▸ hd)
  handling := by
    intro c d down script htask
    obtain ⟨hid, hd⟩ := hv.handling c d down script htask
    exact ⟨hid, hsockets.symm ▸ hd⟩
  accepting := by
    intro c m p htask
    obtain ⟨q, hq, hid, hm⟩ := hv.accepting c m p htask
    rcases hdb with heq | ⟨op, heq⟩
    · exact ⟨q, heq.symm ▸ hq, hid, hm⟩
    · obtain ⟨q', hq', he⟩ := row_apply hq op
      exact ⟨q', heq.symm ▸ hq', he.id.trans hid, he.meetingId.trans hm⟩
  registered := fun m d hd => hv.registered m d (hregistry m d hd)
  client := by
    intro p client hclient
    have hnames := hv.client p client hclient
    rcases hdb with heq | ⟨op, heq⟩
    · exact heq.symm ▸ hnames
    · exact heq.symm ▸ hnames.apply op
  serves := hv.serves

/-- A task moves on. -/
theorem Valid.setTask {c : ConnectionId} {t : SocketTask}
    (hsocket : ∀ d ∈ n.server.sockets, d.connectionId = c → ∃ down script,
      t = .handling d down script)
    (hhandling : ∀ d down script, t = .handling d down script →
      d.connectionId = c ∧ d ∈ n.server.sockets)
    (haccepting : ∀ m p, t = .accepting m p →
      ∃ q ∈ n.server.db.participants, q.id = p.id ∧ q.meetingId = m.id)
    (hregistered : ∀ m, ∀ d ∈ n.server.registry.connections m, d.connectionId = c →
      ∃ script, t = .handling d false script)
    (hserves : ∀ p client, (n.clients p).signaling = some client → client.live = some c →
      t.Serves p client.url.sessionId) : (n.setTask c t).Valid where
  server := hv.server
  socket := by
    intro d hd
    by_cases hc : d.connectionId = c
    · obtain ⟨down, script, rfl⟩ := hsocket d hd hc
      exact ⟨down, script, by simp [Network.setTask, hc]⟩
    · obtain ⟨down, script, htask⟩ := hv.socket d hd
      exact ⟨down, script, by simpa [Network.setTask, hc] using htask⟩
  handling := by
    intro c' d down script htask
    by_cases hc : c' = c
    · subst hc
      exact hhandling d down script (by simpa [Network.setTask] using htask)
    · exact hv.handling c' d down script (by simpa [Network.setTask, hc] using htask)
  accepting := by
    intro c' m p htask
    by_cases hc : c' = c
    · subst hc
      exact haccepting m p (by simpa [Network.setTask] using htask)
    · exact hv.accepting c' m p (by simpa [Network.setTask, hc] using htask)
  registered := by
    intro m d hd
    by_cases hc : d.connectionId = c
    · obtain ⟨script, rfl⟩ := hregistered m d hd hc
      exact ⟨script, by simp [Network.setTask, hc]⟩
    · obtain ⟨script, htask⟩ := hv.registered m d hd
      exact ⟨script, by simpa [Network.setTask, hc] using htask⟩
  client := hv.client
  serves := by
    intro p client c' hclient hlive
    by_cases hc : c' = c
    · subst hc
      exact ⟨t, by simp [Network.setTask], hserves p client hclient hlive⟩
    · obtain ⟨t', htask, hs⟩ := hv.serves p client c' hclient hlive
      exact ⟨t', by simpa [Network.setTask, hc] using htask, hs⟩

/-- A browser moves on. -/
theorem Valid.setClient {p : ParticipantId} {room : MeetingRoom}
    (hclient : ∀ client, room.signaling = some client → client.url.Names n.server.db p)
    (hserves : ∀ client c, room.signaling = some client → client.live = some c →
      ∃ t, n.tasks c = some t ∧ t.Serves p client.url.sessionId) : (n.setClient p room).Valid where
  server := hv.server
  socket := hv.socket
  handling := hv.handling
  accepting := hv.accepting
  registered := hv.registered
  client := by
    intro p' client h
    by_cases hp : p' = p
    · subst hp
      exact hclient client (by simpa [Network.setClient] using h)
    · exact hv.client p' client (by simpa [Network.setClient, hp] using h)
  serves := by
    intro p' client c h hlive
    by_cases hp : p' = p
    · subst hp
      exact hserves client c (by simpa [Network.setClient] using h) hlive
    · exact hv.serves p' client c (by simpa [Network.setClient, hp] using h) hlive

end Valid

/-! ### One event keeps it -/

/-- A browser that opens no new socket. -/
theorem Valid.setClient_follows (hv : n.Valid) {p : ParticipantId} {room : MeetingRoom}
    (h : (n.clients p).Follows room) : (n.setClient p room).Valid := by
  refine hv.setClient ?_ ?_
  · intro client' hclient'
    obtain ⟨client, hclient, hurl, -⟩ := h client' hclient'
    rw [hurl]
    exact hv.client p client hclient
  · intro client' c hclient' hlive'
    obtain ⟨client, hclient, hurl, hlive⟩ := h client' hclient'
    rw [hurl]
    exact hv.serves p client c hclient (hlive c hlive')

/-- Rows keep evolving over any event. -/
theorem Step.rows (h : n.Step e n') {p : Participant} (hp : p ∈ n.server.db.participants) :
    ∃ q ∈ n'.server.db.participants, p.Evolves q := by
  rcases h.db with heq | ⟨op, heq, -⟩
  · rw [heq]
    exact ⟨p, hp, .refl p⟩
  · rw [heq]
    exact row_apply hp op

/-- A task that handles no socket moves on to one that handles none. -/
theorem Valid.setTask_waiting (hv : n.Valid) {c : ConnectionId} {t : SocketTask}
    (hbefore : ∀ d down script, n.tasks c ≠ some (.handling d down script))
    (hafter : ∀ d down script, t ≠ .handling d down script)
    (haccepting : ∀ m p, t = .accepting m p →
      ∃ q ∈ n.server.db.participants, q.id = p.id ∧ q.meetingId = m.id)
    (hserves : ∀ p client, (n.clients p).signaling = some client → client.live = some c →
      t.Serves p client.url.sessionId) : (n.setTask c t).Valid := by
  refine hv.setTask ?_ ?_ haccepting ?_ hserves
  · intro d hd hc
    exact absurd (hc ▸ Keyed.key_mem_keys hd) (hv.not_mem_sockets hbefore)
  · intro d down script htask
    exact absurd htask (hafter d down script)
  · intro m d hd hc
    obtain ⟨script, htask⟩ := hv.registered m d hd
    exact absurd (hc ▸ htask) (hbefore d false script)

/-- A socket that was never registered is given up. -/
theorem Valid.finish (hv : n.Valid) {c : ConnectionId}
    (hbefore : ∀ d down script, n.tasks c ≠ some (.handling d down script)) :
    (n.setTask c .finished).Valid := by
  refine hv.setTask_waiting hbefore ?_ ?_ ?_
  · intro d down script h
    cases h
  · intro m p h
    cases h
  · intro p client hclient hlive
    trivial

/-- A task that handles a socket goes on with another script. -/
theorem Valid.setTask_handling (hv : n.Valid) {c : ConnectionId} {d : Connection}
    {down down' : Bool} {script : List Action} (htask : n.tasks c = some (.handling d down script))
    (hdown : ∀ m, d ∈ n.server.registry.connections m → down' = false) (script' : List Action) :
    (n.setTask c (.handling d down' script')).Valid := by
  obtain ⟨hid, hd⟩ := hv.handling c d down script htask
  have hsame (d' : Connection) (hd' : d' ∈ n.server.sockets) (hc : d'.connectionId = c) : d' = d :=
    Keyed.eq_of_key_eq hd' hd (hc.trans hid.symm)
  refine hv.setTask ?_ ?_ ?_ ?_ ?_
  · intro d' hd' hc
    rw [hsame d' hd' hc]
    exact ⟨down', script', rfl⟩
  · intro d' down'' script'' h
    cases h
    exact ⟨hid, hd⟩
  · intro m p h
    cases h
  · intro m d' hd' hc
    obtain rfl := hsame d' (hv.server.registered m d' hd').2 hc
    rw [hdown m hd']
    exact ⟨script', rfl⟩
  · intro p client hclient hlive
    obtain ⟨t, ht, hserves⟩ := hv.serves p client c hclient hlive
    rw [htask] at ht
    obtain rfl := Option.some.inj ht
    exact hserves

/-- A socket is asked for. -/
theorem Valid.openSocket (hv : n.Valid) {c : ConnectionId} (hfresh : n.tasks c = none)
    (url : SignalingUrl) : (n.openSocket c url).Valid := by
  refine (hv.setTask_waiting ?_ ?_ ?_ ?_).withWires _
  · intro d down script htask
    rw [hfresh] at htask
    cases htask
  · intro d down script htask
    cases htask
  · intro m p htask
    cases htask
  · intro p client hclient hlive
    obtain ⟨t, htask, -⟩ := hv.serves p client c hclient hlive
    rw [hfresh] at htask
    cases htask

/-- Two rows with one session are one row. -/
theorem eq_of_session {db : Db} (hv : db.Valid) {p q : Participant} (hp : p ∈ db.participants)
    (hq : q ∈ db.participants) (h : p.sessionId = q.sessionId) : p = q :=
  List.inj_on_of_nodup_map hv.sessions hp hq h

/-- The socket is registered, and its task is in the handler. -/
theorem Valid.register (hv : n.Valid) {c : ConnectionId} {meeting : Meeting}
    {participant : Participant} (htask : n.tasks c = some (.accepting meeting participant))
    (script : List Action) :
    Valid ({ n with
      server :=
        { db := bindConnection n.server.db participant.id c
          registry := n.server.registry.add ⟨c, participant.id, meeting.id⟩
          sockets := n.server.sockets.set ⟨c, participant.id, meeting.id⟩ } }.setTask c
      (.handling ⟨c, participant.id, meeting.id⟩ false script)) := by
  have hnew : c ∉ n.server.sockets.keys := by
    refine hv.not_mem_sockets ?_
    intro d down script h
    rw [htask] at h
    cases h
  have hrows (p : Participant) (hp : p ∈ n.server.db.participants) :
      ∃ q ∈ (bindConnection n.server.db participant.id c).participants, p.Evolves q :=
    row_apply hp (.bindConnection participant.id c)
  obtain ⟨q, hq, hid, hm⟩ := hv.accepting c meeting participant htask
  constructor
  · have hreg := hv.server.register (c := ⟨c, participant.id, meeting.id⟩) hnew hq hid hm
    exact hreg.apply (.bindConnection participant.id c)
  · intro d hd
    rcases Keyed.mem_set.mp hd with rfl | ⟨hd, hc⟩
    · exact ⟨false, script, Function.update_self ..⟩
    · obtain ⟨down, script', h⟩ := hv.socket d hd
      exact ⟨down, script', (Function.update_of_ne hc ..).trans h⟩
  · intro c' d down script' h
    by_cases hc : c' = c
    · subst hc
      have h : SocketTask.handling ⟨c', participant.id, meeting.id⟩ false script =
          .handling d down script' := by
        simpa [Network.setTask] using h
      cases h
      exact ⟨rfl, Keyed.mem_set.mpr (.inl rfl)⟩
    · obtain ⟨hid, hd⟩ := hv.handling c' d down script' ((Function.update_of_ne hc ..).symm.trans h)
      exact ⟨hid, Keyed.mem_set.mpr (.inr ⟨hd, fun hkey => hc (hid.symm.trans hkey)⟩)⟩
  · intro c' m p h
    by_cases hc : c' = c
    · subst hc
      simp [Network.setTask] at h
    · obtain ⟨q, hq, hid, hm⟩ := hv.accepting c' m p ((Function.update_of_ne hc ..).symm.trans h)
      obtain ⟨q', hq', he⟩ := hrows q hq
      exact ⟨q', hq', he.id.trans hid, he.meetingId.trans hm⟩
  · intro m d hd
    rcases RoomRegistry.mem_connections_add.mp hd with ⟨rfl, -⟩ | ⟨hd, -⟩
    · exact ⟨script, Function.update_self ..⟩
    · obtain ⟨script', h⟩ := hv.registered m d hd
      have hc : d.connectionId ≠ c := by
        intro hc
        rw [hc, htask] at h
        cases h
      exact ⟨script', (Function.update_of_ne hc ..).trans h⟩
  · intro p client hclient
    exact (hv.client p client hclient).apply (.bindConnection participant.id c)
  · intro p client c' hclient hlive
    obtain ⟨t, ht, hserves⟩ := hv.serves p client c' hclient hlive
    by_cases hc : c' = c
    · subst hc
      rw [htask] at ht
      obtain rfl := Option.some.inj ht
      exact ⟨_, Function.update_self .., hserves⟩
    · exact ⟨t, (Function.update_of_ne hc ..).trans ht, hserves⟩

/-- A browser opens a socket with the session of its own row. -/
theorem Valid.connect (hv : n.Valid) {c : ConnectionId} (hfresh : n.tasks c = none)
    {p : ParticipantId} {room : MeetingRoom} {client : SignalingClient} {url : SignalingUrl}
    (hroom : room.signaling = some client) (hlive : client.live = some c) (hurl : client.url = url)
    (hnames : url.Names n.server.db p) : ((n.openSocket c url).setClient p room).Valid := by
  subst hurl
  refine (hv.openSocket hfresh client.url).setClient ?_ ?_
  · intro client' hclient'
    obtain rfl := Option.some.inj (hroom.symm.trans hclient')
    exact hnames
  · intro client' c' hclient' hlive'
    obtain rfl := Option.some.inj (hroom.symm.trans hclient')
    obtain rfl := Option.some.inj (hlive.symm.trans hlive')
    exact ⟨_, Function.update_self .., rfl⟩

/-- A task that does not handle its socket. -/
theorem ne_handling {c : ConnectionId} {t : SocketTask} (htask : n.tasks c = some t)
    (ht : ∀ d down script, t ≠ .handling d down script) (d : Connection) (down : Bool)
    (script : List Action) : n.tasks c ≠ some (.handling d down script) := by
  intro h
  rw [htask] at h
  exact ht d down script (Option.some.inj h)

/-- The session of a socket is that of the participant it is let in as. -/
theorem Valid.admit (hv : n.Valid) {c : ConnectionId} {url : SignalingUrl} {meeting : Meeting}
    {participant : Participant} (htask : n.tasks c = some (.requested url))
    (hauth : authenticate n.server.db url.meetingNumber url.sessionId =
      .ok (meeting, participant)) :
    (n.setTask c (.accepting meeting participant)).Valid := by
  obtain ⟨hp, hm, -, -, -⟩ := authenticate_eq_ok.mp hauth
  have hmem := participantBySession_mem hp
  refine hv.setTask_waiting (ne_handling htask fun _ _ _ h => by cases h) ?_ ?_ ?_
  · intro d down script h
    cases h
  · intro m p h
    cases h
    exact ⟨participant, hmem, rfl, (Keyed.key_of_find? hm).symm⟩
  · intro p client hclient hlive
    obtain ⟨t, ht, hserves⟩ := hv.serves p client c hclient hlive
    rw [htask] at ht
    obtain rfl := Option.some.inj ht
    obtain ⟨q, hq, hid, hs, -⟩ := hv.client p client hclient
    have hsession : participant.sessionId = url.sessionId := by
      simpa using List.find?_some hp
    have heq : participant = q :=
      eq_of_session hv.server.db hmem hq (hsession.trans (Eq.trans hserves hs.symm))
    show participant.id = p
    rw [heq, hid]

/-- **One event.** -/
theorem Valid.step (hv : n.Valid) (h : n.Step e n') : n'.Valid := by
  have hdb : n'.server.db = n.server.db ∨ ∃ op, n'.server.db = n.server.db.apply op :=
    h.db.imp_right fun ⟨op, hop, _⟩ => ⟨op, hop⟩
  cases h with
  | asked =>
    exact hv.withServer (hv.server.apply _) rfl (fun _ _ hd => hd) hdb
  | @joined userId meetingNumber inviteToken stream draws now c response db room req hroom hfresh
      hpost =>
    obtain ⟨-, hnames⟩ := postJoin_names hpost
    obtain ⟨rfl, -⟩ := Prod.mk.inj hroom
    have hserver : Server.Valid { n.server with db } := by
      rw [postJoin_apply hpost]
      exact hv.server.apply _
    have hwith := hv.withServer hserver rfl (fun _ _ hd => hd) hdb
    exact hwith.connect hfresh rfl (SignalingClient.live_connect _ c) rfl hnames
  | @reconnected p c client hfresh hclient htimer =>
    exact hv.connect hfresh rfl (SignalingClient.live_onTimer client c) rfl
      (hv.client p client hclient)
  | @refused c url e htask hauth =>
    exact (hv.finish (ne_handling htask fun _ _ _ h => by cases h)).withWires _
  | @admitted c url meeting participant htask hauth => exact hv.admit htask hauth
  | @registered c meeting participant snapshot hyou hroster htask =>
    -- The one step that adds to the registry.
    exact (hv.register htask _).push _
  | @acted c connection down a script left registry sent htask hperform =>
    have hsub (m : MeetingId) (d : Connection) (hd : d ∈ registry.connections m) :
        d ∈ n.server.registry.connections m := by
      have hd' : d ∈ (performNext n.server.registry a script).1.connections m := by
        rw [hperform]
        exact hd
      exact performNext_sub hd'
    have hserver : Server.Valid { n.server with registry } :=
      ⟨hv.server.db, fun m d hd => hv.server.registered m d (hsub m d hd), hv.server.row⟩
    refine ((hv.withServer hserver rfl hsub hdb).push sent).setTask_handling htask ?_ left
    intro m hd
    obtain ⟨hid, -⟩ := hv.handling c connection down (a :: script) htask
    obtain ⟨script', h⟩ := hv.registered m connection (hsub m connection hd)
    rw [hid, htask] at h
    cases h
    rfl
  | @handled c message id now connection db actions htask hlive hmessage =>
    have hserver : Server.Valid { n.server with db } := by
      have hmessage' := onMessage_db n.server.db n.server.registry connection message id now
      rw [hmessage] at hmessage'
      rcases hmessage' with h | ⟨op, -, h⟩
      · rw [show db = n.server.db from h]
        exact hv.server
      · rw [show db = n.server.db.apply op from h]
        exact hv.server.apply op
    exact (hv.withServer hserver rfl (fun _ _ hd => hd) hdb).setTask_handling htask
      (fun _ _ => rfl) actions
  | @tornDown c now connection server actions htask hteardown =>
    -- The socket leaves every room at once, so no room still points at its task.
    cases hteardown
    have hserver := hv.server.teardown connection now
    refine (hv.withServer hserver rfl
      (fun m d hd => (RoomRegistry.mem_connections_remove.mp hd).1) hdb).setTask_handling htask ?_ _
    intro m hd
    obtain ⟨hd, hne⟩ := RoomRegistry.mem_connections_remove.mp hd
    exact absurd rfl (hne (hv.server.registered m connection hd).1)
  | @abandoned c now htask =>
    rcases htask with ⟨url, htask⟩ | ⟨meeting, participant, htask⟩
    · exact hv.finish (ne_handling htask fun _ _ _ h => by cases h)
    · exact hv.finish (ne_handling htask fun _ _ _ h => by cases h)
  | @delivered p c item rest hsocket hpending =>
    exact (hv.setClient_follows (MeetingRoom.follows_receive hsocket item)).withWires _
  | @dropped p hsocket => exact hv.setClient_follows (n.clients p).follows_closed
  | @left p hphase => exact hv.setClient_follows (MeetingRoom.follows_of_signaling (.inr rfl))

theorem valid_init : ({} : Network).Valid where
  server := Server.valid_init
  socket := fun d hd => absurd hd (Keyed.not_mem_empty d)
  handling := by
    intro c d down script h
    cases h
  accepting := by
    intro c m p h
    cases h
  registered := by
    intro m d hd
    cases hd
  client := by
    intro p client h
    cases h
  serves := by
    intro p client c h
    cases h

theorem Valid.next (hv : n.Valid) (e : NetEvent) : (n.next e).Valid := by
  rcases next_cases hv.server e with h | h
  · rw [h]
    exact hv
  · exact hv.step h

/-- **The invariant holds in every reachable state.** -/
theorem always_valid (events : List NetEvent) : Runs.Always Network.next Network.Valid {} events :=
  Runs.always_of_step valid_init (fun _ e hv => hv.next e) events

end Network

end ZoomClone
