/-
How often a departure is announced.

A row is closed by the socket that owns it, when it drops, or by `host.remove`.  Both
tell the room `peer.left`; the socket asks whether it closed the row, `host.remove`
does not.

* `owned_next` — a row that a socket owns is open;
* `not_closes_isOpen` — which operations close rows;
* `Departures.next` — the server, with what each socket heard while it was registered;
* `announced_once_iff` — every closing is heard once, and nothing else, exactly when no
  `host.remove` names somebody who has left.
-/
import ZoomClone.ConcurrentJoins
import ZoomClone.Rosters

namespace ZoomClone

/-! ### Rows and the sockets that own them -/

/-- A row that a socket owns is open. -/
def Db.Owned (db : Db) : Prop := ∀ p ∈ db.participants, p.connectionId ≠ none → p.leftAt = none

theorem owned_updateRows {db : Db} (h : db.Owned) (q : Participant → Prop) [DecidablePred q]
    (f : Participant → Participant) (hf : ∀ p, (f p).id = p.id)
    (hkeep : ∀ p ∈ db.participants, q p → (f p).connectionId ≠ none → (f p).leftAt = none) :
    (db.updateRows q f hf).Owned := by
  intro p' hp'
  obtain ⟨p, hp, rfl⟩ := Db.mem_updateRows.mp hp'
  split
  · next hq => exact hkeep p hp hq
  · exact h p hp

/-- Only a binding of a closed row would break it. -/
theorem owned_change {db db' : Db} {op : Operation} (h : db.Owned) (hc : Change db op db')
    (hbind : ∀ p c, op = .bindConnection p c → ∀ q ∈ db.participants, q.id = p → q.leftAt = none) :
    db'.Owned := by
  have hsame (heq : db'.participants = db.participants) : db'.Owned := by
    intro p hp
    rw [heq] at hp
    exact h p hp
  cases hc with
  | aside hs => exact hsame hs.participants
  | created m hid hs hm hp => exact hsame hp
  | edited id f hf hn hs => exact hsame rfl
  | cancelled m hm hs => exact hsame rfl
  | started m now hm hs => exact hsame rfl
  | ended m now hm =>
    have hmeeting : (db.updateMeetingRow m.id (·.finish now) (Meeting.finish_id · now)).Owned := h
    exact owned_updateRows hmeeting _ _ (Participant.evict_id · now) fun p _ _ hne => absurd rfl hne
  | joined m user req draws now hm hs hlt hid hsession hp hmeetings =>
    intro p hmem
    rw [hp, Keyed.mem_insert] at hmem
    rcases hmem with hmem | rfl
    · exact h p hmem
    · exact fun hne => absurd rfl hne
  | media q f hf he hl hcon =>
    refine owned_updateRows h q f hf fun p hp _ hne => ?_
    rw [hl]
    rw [hcon] at hne
    exact h p hp hne
  | closed p now hp =>
    exact owned_updateRows h _ _ (Participant.markLeft_id · now) fun p _ _ hne => absurd rfl hne
  | @bound participantId connectionId =>
    exact owned_updateRows h _ _ (Participant.bindTo_id · connectionId) fun p hp hid _ =>
      hbind _ _ rfl p hp hid

/-- Sockets come to own open rows only. -/
theorem owned_next {s : Server} (h : s.db.Owned) (e : Event) : (s.next e).db.Owned := by
  rcases s.next_operation e with hdb | ⟨op, hperforms, hdb⟩
  · rwa [hdb]
  rw [hdb]
  rcases apply_change s.db op with hdb | hchange
  · rwa [hdb]
  · refine owned_change h hchange ?_
    rintro p c rfl q hq hid
    cases hperforms with
    | connect number sessionId c m row hauth =>
      obtain ⟨hrow, -, -, -, hopen⟩ := authenticate_eq_ok.mp hauth
      rwa [Keyed.eq_of_key_eq hq (participantBySession_mem hrow) hid]
    | message c message id now inbound op hc hread hop => exact hop.elim

/-! ### What closes a row -/

/-- The operation may close a row. -/
def Operation.Closes : Operation → Prop
  | .request (.endMeeting _ _ _) => True
  | .request (.removeParticipant _ _ _) => True
  | .leaveMeeting _ _ => True
  | .releaseConnection _ _ _ => True
  | .hostRemove _ _ _ => True
  | .hostEndMeeting _ _ => True
  | _ => False

theorem isOpen_updateRows {db : Db} {p : ParticipantId} (h : db.isOpen p) (q : Participant → Prop)
    [DecidablePred q] (f : Participant → Participant) (hf : ∀ p, (f p).id = p.id)
    (hleft : ∀ p, (f p).leftAt = p.leftAt) : (db.updateRows q f hf).isOpen p := by
  obtain ⟨row, hrow, rfl, hopen⟩ := Db.isOpen_iff.mp h
  refine Db.isOpen_iff.mpr ⟨_, Db.mem_updateRows.mpr ⟨row, hrow, rfl⟩, ?_⟩
  split
  · exact ⟨hf row, (hleft row).trans hopen⟩
  · exact ⟨rfl, hopen⟩

theorem isOpen_of_participants {db db' : Db} (h : db'.participants = db.participants)
    (p : ParticipantId) :
    db'.isOpen p = db.isOpen p := by
  rw [Db.isOpen, Db.isOpen, Db.getParticipant, Db.getParticipant, h]

/-- Every other operation leaves the open rows open. -/
theorem not_closes_isOpen {db db' : Db} {op : Operation} (hop : ¬ op.Closes)
    (h : runOperation db op = .ok db')
    {p : ParticipantId} (hp : db.isOpen p) : db'.isOpen p := by
  cases runOperation_commits h with
  | signInGuest h => rwa [isOpen_of_participants (createGuest_ok h).participants]
  | signInGoogle h => rwa [isOpen_of_participants (upsertGoogleUser_ok h).participants]
  | updateProfile huser h => rwa [isOpen_of_participants (updateProfile_ok h).participants]
  | createMeeting hhost h =>
    obtain ⟨topic, start, duration, k, number, db₁, -, hins, hsame⟩ := createMeeting_ok h
    obtain ⟨hid, rfl, -⟩ := Db.insertMeeting_ok hins
    rwa [isOpen_of_participants hsame.participants]
  | joinMeeting user m huser hcheck h =>
    obtain ⟨hid, hrows, -, -⟩ := commitJoin_ok h
    obtain ⟨row, hrow, rfl, hopen⟩ := Db.isOpen_iff.mp hp
    exact Db.isOpen_iff.mpr ⟨row, hrows ▸ Keyed.mem_insert.mpr (.inl hrow), rfl, hopen⟩
  | updateParticipant => exact isOpen_updateRows hp _ _ (Participant.applyMedia_id · _) fun _ => rfl
  | bindConnection => exact isOpen_updateRows hp _ _ (Participant.bindTo_id · _) fun _ => rfl
  | applyStateUpdate => exact isOpen_updateRows hp _ _ (Participant.applyMedia_id · _) fun _ => rfl
  | postMessage h =>
    obtain ⟨-, p, -, -, hins, -⟩ := postMessage_eq_ok.mp h
    obtain ⟨hid, rfl⟩ := Db.insertMessage_eq_ok.mp hins
    exact hp
  | hostMute => exact isOpen_updateRows hp _ _ Participant.mute_id fun _ => rfl
  | hostMuteAll => exact isOpen_updateRows hp _ _ Participant.mute_id fun _ => rfl
  | endMeeting => exact absurd trivial hop
  | removeParticipant => exact absurd trivial hop
  | leaveMeeting => exact absurd trivial hop
  | staleConnection => exact hp
  | releaseConnection => exact absurd trivial hop
  | hostRemove => exact absurd trivial hop
  | hostEndMeeting => exact absurd trivial hop
  | _ => exact hp

theorem apply_isOpen {db : Db} {op : Operation} (hop : ¬ op.Closes)
    {p : ParticipantId} (hp : db.isOpen p) :
    (db.apply op).isOpen p := by
  cases h : runOperation db op with
  | error e => rwa [Db.apply, h]
  | ok db' =>
    rw [apply_of_ok h]
    exact not_closes_isOpen hop h hp

/-- The rows that were open and are not any more. -/
def nowClosed (db db' : Db) : List ParticipantId :=
  db.participants.keys.filter fun p => db.isOpen p && !db'.isOpen p

theorem mem_nowClosed {db db' : Db} {p : ParticipantId} :
    p ∈ nowClosed db db' ↔ db.isOpen p ∧ ¬ db'.isOpen p := by
  simp only [nowClosed, List.mem_filter, Bool.and_eq_true, Bool.not_eq_true']
  rw [Bool.not_eq_true, and_iff_right_of_imp]
  rintro ⟨hopen, -⟩
  obtain ⟨row, hrow, rfl, -⟩ := Db.isOpen_iff.mp hopen
  exact Keyed.key_mem_keys hrow

/-- `mark_left` closes its own row, if that is open. -/
theorem mem_nowClosed_markLeft {db : Db} {x : Participant} (hx : x ∈ db.participants)
    {now : DateTime}
    {p : ParticipantId} : p ∈ nowClosed db (markLeft db x now).2 ↔ p = x.id ∧ x.leftAt = none := by
  have hrows : RowsEvolve db (markLeft db x now).2
      (fun q => if q.id = x.id then q.markLeft now else q) none :=
    rowsEvolve_updateRows db (fun q => q.id = x.id) (·.markLeft now) (Participant.markLeft_id · now)
      fun q _ => q.evolves_markLeft now
  rw [mem_nowClosed]
  constructor
  · rintro ⟨hopen, hclosed⟩
    obtain ⟨row, hrow, rfl, hnone⟩ := Db.isOpen_iff.mp hopen
    rw [hrows.isOpen_iff hrow] at hclosed
    by_cases hid : row.id = x.id
    · obtain rfl := Keyed.eq_of_key_eq hrow hx hid
      exact ⟨rfl, hnone⟩
    · rw [if_neg hid] at hclosed
      exact absurd hnone hclosed
  · rintro ⟨rfl, hopen⟩
    refine ⟨Db.isOpen_iff.mpr ⟨x, hx, rfl, hopen⟩, ?_⟩
    rw [hrows.isOpen_iff hx, if_pos rfl]
    exact nofun

/-! ### What the sockets hear -/

/-- Whom an item says to have left. -/
def WireItem.left? : WireItem → Option ParticipantId
  | .frame f =>
    match f.body with
    | .peerLeft p => some p
    | _ => none
  | .close _ => none

/-- Whom the deliveries to a socket say to have left. -/
def leftIn (c : ConnectionId) (sent : List Delivery) : List ParticipantId :=
  (itemsFor c sent).filterMap WireItem.left?

/-- The server, and for each socket, while it was registered: whom it was told to have
left, and whose rows were closed. -/
structure Departures where
  server : Server
  heard : Connection → List ParticipantId := fun _ => []
  closed : Connection → List ParticipantId := fun _ => []

namespace Departures

/-- The socket is in the registry. -/
def Registered (n : Departures) (c : Connection) : Prop :=
  c ∈ n.server.registry.connections c.meetingId

instance (n : Departures) (c : Connection) : Decidable (n.Registered c) :=
  inferInstanceAs (Decidable (c ∈ n.server.registry.connections c.meetingId))

/-- One event. -/
def next (n : Departures) (e : Event) : Departures where
  server := n.server.next e
  heard c := if n.Registered c then n.heard c ++ leftIn c.connectionId (n.server.step e).2
    else n.heard c
  closed c := if n.Registered c then n.closed c ++ nowClosed n.server.db (n.server.next e).db
    else n.closed c

/-- Each socket was told once of every other participant of its meeting whose row was
closed while the socket was registered, and of nobody else. -/
def AnnouncedOnce (n : Departures) : Prop :=
  ∀ c, ∀ p ∈ n.server.db.participants, p.meetingId = c.meetingId → p.id ≠ c.participantId →
    (n.heard c).count p.id = if p.id ∈ n.closed c then 1 else 0

/-- No removal over REST, and no end of a meeting. -/
def Allowed (n : Departures) : Event → Prop
  | .request (.removeParticipant _ _ _) => False
  | .request (.endMeeting _ _ _) => False
  | .message c message _ now => ∀ inbound, readMessage message = .ok inbound →
    inbound.handler = .hostEnd →
      ∀ result, handleHostEnd n.server.db c now ≠ .ok result
  | _ => True

/-- A `host.remove` that goes through names somebody who is there. -/
def RemovesOpen (n : Departures) : Event → Prop
  | .message c message _ now => n.Registered c → ∀ inbound t result,
    readMessage message = .ok inbound →
      inbound.handler = .hostRemove → hostTarget inbound = some t →
        handleHostRemove n.server.db c inbound now = .ok result → n.server.db.isOpen t
  | _ => True

/-- What ties the lists to the database. -/
structure Tracked (n : Departures) : Prop where
  valid : n.server.Valid
  owned : n.server.db.Owned
  known : ∀ c, ∀ p ∈ n.heard c ++ n.closed c, p ∈ n.server.db.participants.keys
  closed : ∀ c, ∀ p ∈ n.closed c, ¬ n.server.db.isOpen p

/-- What an event does: nothing, or it tells the others that somebody has left, whose
row it closes if that is open. -/
inductive Effect (n : Departures) (e : Event) : Prop
  | quiet (hleft : ∀ c, n.Registered c → leftIn c.connectionId (n.server.step e).2 = [])
      (hclosed : ∀ p, p ∉ nowClosed n.server.db (n.server.next e).db) (hopen : n.RemovesOpen e)
  | announced (x : Participant) (hx : x ∈ n.server.db.participants)
      (hleft : ∀ c, n.Registered c → c.participantId ≠ x.id →
        leftIn c.connectionId (n.server.step e).2 = if c.meetingId = x.meetingId then
          [x.id] else [])
      (honly : ∀ c, ∀ p ∈ leftIn c (n.server.step e).2, p = x.id)
      (hclosed : ∀ p, p ∈ nowClosed n.server.db (n.server.next e).db ↔ p = x.id ∧ x.leftAt = none)
      (hopen : n.RemovesOpen e ↔ x.leftAt = none)
      (hlistener : x.leftAt ≠ none → ∃ c, n.Registered c ∧ c.meetingId = x.meetingId ∧
        c.participantId ≠ x.id)

/-! ### Every event -/

section Effects

variable {n : Departures}

theorem leftIn_eq_nil {c : ConnectionId} {sent : List Delivery}
    (h : ∀ d ∈ sent, d.item.left? = none) :
    leftIn c sent = [] := by
  rw [leftIn, List.filterMap_eq_nil_iff]
  intro i hi
  obtain ⟨d, hd, -, rfl⟩ := mem_itemsFor.mp hi
  exact h d hd

theorem leftIn_append (c : ConnectionId) (sent sent' : List Delivery) :
    leftIn c (sent ++ sent') = leftIn c sent ++ leftIn c sent' := by
  rw [leftIn, Rosters.itemsFor_append, List.filterMap_append]
  rfl

theorem left?_of_not_counts {i : WireItem} (h : i.counts = false) : i.left? = none := by
  cases i with
  | close code => rfl
  | frame f =>
    rw [WireItem.counts] at h
    rw [WireItem.left?]
    cases hbody : f.body with
    | peerLeft p =>
      rw [hbody] at h
      cases h
    | _ => rfl

/-- What a socket hears of a `peer.left` to a room. -/
theorem leftIn_room {s : Server} (hv : s.Valid) {r : RoomRegistry}
    {m m' : MeetingId} {d : Connection}
    (hsub : ∀ m, ∀ d ∈ r.connections m, d ∈ s.registry.connections m) (hd : d ∈ r.connections m)
    (c : Connection) (p : ParticipantId) :
    leftIn d.connectionId ((r.connections m').map fun c' => ⟨c', .frame (peerLeftFrame c p)⟩) =
      if m = m' then [p] else [] := by
  rw [leftIn, Rosters.itemsFor_room hv hsub hd]
  split <;> rfl

theorem mem_leftIn_room {r : RoomRegistry} {m : MeetingId} {c : Connection} {p q : ParticipantId}
    {d : ConnectionId}
    (h : q ∈ leftIn d ((r.connections m).map fun c' => ⟨c', .frame (peerLeftFrame c p)⟩)) :
    q = p := by
  rw [leftIn, List.mem_filterMap] at h
  obtain ⟨i, hi, hleft⟩ := h
  obtain ⟨delivery, hdelivery, -, rfl⟩ := mem_itemsFor.mp hi
  obtain ⟨c', -, rfl⟩ := List.mem_map.mp hdelivery
  exact (Option.some.inj hleft).symm

/-- Nothing is sent about who has left, and every open row stays open. -/
theorem Effect.of_quiet {e : Event} (hsent : ∀ d ∈ (n.server.step e).2, d.item.left? = none)
    (hopen : ∀ p, n.server.db.isOpen p → (n.server.next e).db.isOpen p) (he : n.RemovesOpen e) :
    n.Effect e :=
  .quiet (fun _ _ => leftIn_eq_nil hsent)
    (fun p hp => (mem_nowClosed.mp hp).2 (hopen p (mem_nowClosed.mp hp).1)) he

/-- An event that cannot happen. -/
theorem Effect.of_refused {e : Event} (hstep : n.server.step e = (n.server, []))
    (he : n.RemovesOpen e) :
    n.Effect e := by
  refine .of_quiet ?_ ?_ he
  · rw [hstep]
    exact List.forall_mem_nil _
  · rw [Server.next, hstep]
    exact fun _ h => h

theorem effect_request {r : Request} (he : n.Allowed (.request r)) : n.Effect (.request r) := by
  refine .of_quiet (List.forall_mem_nil _) (fun p hp => apply_isOpen ?_ hp) trivial
  cases r with
  | endMeeting => exact fun _ => he
  | removeParticipant => exact fun _ => he
  | _ => exact id

theorem effect_connect (hv : n.server.Valid) (number : String)
    (sessionId : SessionId) (c : ConnectionId) :
    n.Effect (.connect number sessionId c) := by
  by_cases hfresh : c ∈ n.server.sockets.keys
  · exact .of_refused (if_pos hfresh) trivial
  cases hauth : authenticate n.server.db number sessionId with
  | error err =>
    refine .of_refused ?_ trivial
    rw [Server.step, if_neg hfresh, Server.connect, hauth]
  | ok row =>
    obtain ⟨meeting, p⟩ := row
    obtain ⟨snapshot, -, -, hstep⟩ := Network.connect_eq hv hfresh hauth
    refine .of_quiet ?_ ?_ trivial
    · rw [hstep]
      intro d hd
      rcases List.mem_cons.mp hd with rfl | hd
      · rfl
      · obtain ⟨d', -, rfl⟩ := List.mem_map.mp hd
        rfl
    · rw [Server.next, hstep]
      exact fun q hq => isOpen_updateRows hq _ _ (Participant.bindTo_id · c) fun _ => rfl

theorem effect_disconnect (ht : n.Tracked) (c : Connection) (now : DateTime) :
    n.Effect (.disconnect c now) := by
  by_cases hc : c ∈ n.server.sockets
  swap
  · exact .of_refused (if_neg hc) trivial
  have hstep : n.server.step (.disconnect c now) = n.server.disconnect c now := if_pos hc
  have hdb : (n.server.next (.disconnect c now)).db =
      (releaseConnection n.server.db c.participantId c.connectionId now).2 := by
    rw [Server.next, hstep]
    rfl
  obtain ⟨row, hrow, hid, hmeeting⟩ := ht.valid.row c hc
  have hget : n.server.db.getParticipant c.participantId = some row := hid ▸ Keyed.find?_of_mem hrow
  by_cases howns : row.connectionId = some c.connectionId
  · have hopen : row.leftAt = none := ht.owned row hrow (by simp [howns])
    have hrelease : releaseConnection n.server.db c.participantId c.connectionId now =
        (some (markLeft n.server.db row now).1, (markLeft n.server.db row now).2) := by
      rw [releaseConnection, hget]
      dsimp only
      rw [if_pos howns]
    have hsent : (n.server.step (.disconnect c now)).2 =
        ((n.server.registry.remove c).connections c.meetingId).map
          fun d => ⟨d, .frame (peerLeftFrame c c.participantId)⟩ := by
      rw [hstep, Rosters.disconnect_sent, hrelease]
      rfl
    refine .announced row hrow ?_ ?_ ?_ (iff_of_true trivial hopen) (absurd hopen)
    · intro d hd hne
      have hd' : d ∈ (n.server.registry.remove c).connections d.meetingId := by
        refine RoomRegistry.mem_connections_remove.mpr ⟨hd, fun _ heq => hne ?_⟩
        rw [Keyed.eq_of_key_eq (ht.valid.registered _ d hd).2 hc heq, hid]
      rw [hsent, leftIn_room ht.valid
        (fun m d hd => (RoomRegistry.mem_connections_remove.mp hd).1) hd',
        hmeeting, hid]
    · intro d p hp
      rw [hsent] at hp
      rw [mem_leftIn_room hp, hid]
    · intro p
      rw [hdb, hrelease]
      exact mem_nowClosed_markLeft hrow
  · have hrelease : releaseConnection n.server.db c.participantId c.connectionId now =
        (none, n.server.db) := by
      rw [releaseConnection, hget]
      dsimp only
      rw [if_neg howns]
    refine .of_quiet ?_ ?_ trivial
    · rw [hstep, Rosters.disconnect_sent, hrelease]
      exact List.forall_mem_nil _
    · rw [hdb, hrelease]
      exact fun _ h => h

section Message

variable {c : Connection} {message : Json} {id : String} {now : DateTime}

/-- A message that is answered with a frame to its sender. -/
theorem Effect.of_answer (hc : n.Registered c) {f : Frame} (hf : f.IsReply)
    (hreply : onMessage n.server.db n.server.registry c message id now = (n.server.db, [.send c f]))
    (he : n.RemovesOpen (.message c message id now)) : n.Effect (.message c message id now) := by
  have hstep : n.server.step (.message c message id now) = (n.server, [⟨c, .frame f⟩]) := by
    refine (if_pos hc).trans ?_
    rw [Server.receive, hreply]
    rfl
  refine .of_quiet ?_ ?_ he
  · rw [hstep]
    intro d hd
    obtain rfl := List.mem_singleton.mp hd
    exact left?_of_not_counts (Rosters.counts_of_isReply hf)
  · rw [Server.next, hstep]
    exact fun _ h => h

theorem not_closes_of_sentBy {handler : Handler} {op : Operation} (h : op.SentBy c handler)
    (hremove : handler ≠ .hostRemove) (hend : handler ≠ .hostEnd) : ¬ op.Closes := by
  cases op with
  | hostRemove => exact absurd h.1 hremove
  | hostEndMeeting => exact absurd h.1 hend
  | request r => exact h.elim
  | leaveMeeting => exact h.elim
  | releaseConnection => exact h.elim
  | _ => exact fun h => h

/-- **An accepted `host.remove`.**  The room is told, whether or not the target was there. -/
theorem effect_removal (ht : n.Tracked) (hc : n.Registered c) {inbound : Inbound}
    (hread : readMessage message = .ok inbound) (hhandler : inbound.handler = .hostRemove)
    {db' : Db} {actions : List Action}
    (h : handleHostRemove n.server.db c inbound now = .ok (db', actions)) :
    n.Effect (.message c message id now) := by
  obtain ⟨t, actor, v, htarget, hactor, hremove, rfl⟩ := handleHostRemove_eq_ok.mp h
  obtain ⟨-, x, hx, hne, hleft⟩ := hostRemove_eq_ok.mp hremove
  obtain ⟨-, rfl⟩ := Prod.mk.inj hleft
  obtain ⟨hxget, hxmeeting⟩ := targetRow_eq_ok.mp hx
  obtain ⟨hxmem, rfl⟩ := Keyed.find?_eq_some.mp hxget
  -- the actor acts in the meeting of its socket
  obtain ⟨hactormem, hactorid⟩ := Keyed.find?_eq_some.mp hactor
  obtain ⟨row, hrow, hrowid, hrowmeeting⟩ := ht.valid.row c (ht.valid.registered _ c hc).2
  obtain rfl := Keyed.eq_of_key_eq hrow hactormem (hrowid.trans hactorid.symm)
  rw [hrowmeeting] at hxmeeting
  have hhandle : handle n.server.db n.server.registry c inbound id now =
      .ok ((markLeft n.server.db x now).2, removal c x.id) := by
    rw [handle, hhandler]
    exact h
  have hstep := step_message_of_ok hc hread hhandle
  have hdb : (n.server.next (.message c message id now)).db = (markLeft n.server.db x now).2 := by
    rw [Server.next, hstep]
    rfl
  have hheard (d : ConnectionId) : leftIn d (n.server.step (.message c message id now)).2 =
      leftIn d ((n.server.registry.connections c.meetingId).map
        fun e => ⟨e, .frame (peerLeftFrame c x.id)⟩) := by
    rw [hstep]
    show leftIn d (performAll n.server.registry (removal c x.id)).2 = _
    rw [performAll_removal]
    cases n.server.registry.find c.meetingId x.id with
    | none => rfl
    | some target =>
      have htold : leftIn d [⟨target, .frame (removedYouFrame c x.id)⟩] = [] :=
        leftIn_eq_nil fun e he => by rw [List.mem_singleton.mp he]; rfl
      have hclosed : leftIn d [⟨target, .close closeRemoved⟩] = [] :=
        leftIn_eq_nil fun e he => by rw [List.mem_singleton.mp he]; rfl
      dsimp only
      rw [leftIn_append, hclosed, List.append_nil, ← List.singleton_append, leftIn_append, htold,
        List.nil_append]
  refine .announced x hxmem ?_ ?_ ?_ ?_ ?_
  · intro d hd hne
    rw [hheard, leftIn_room ht.valid (fun _ _ h => h) hd, hxmeeting]
  · intro d p hp
    rw [hheard] at hp
    exact mem_leftIn_room hp
  · intro p
    rw [hdb]
    exact mem_nowClosed_markLeft hxmem
  · have hopen : n.server.db.isOpen x.id ↔ x.leftAt = none := by
      rw [Db.isOpen, hxget]
      exact decide_eq_true_iff
    rw [← hopen]
    constructor
    · exact fun hopen => hopen hc inbound x.id _ hread hhandler htarget h
    · intro hopen _ inbound' t' result hread' _ htarget' _
      obtain rfl := Except.ok.inj (hread.symm.trans hread')
      obtain rfl := Option.some.inj (htarget.symm.trans htarget')
      exact hopen
  · intro _
    exact ⟨c, hc, hxmeeting.symm, fun heq => hne (heq.symm.trans hrowid.symm)⟩

theorem effect_message (ht : n.Tracked) (he : n.Allowed (.message c message id now)) :
    n.Effect (.message c message id now) := by
  by_cases hc : n.Registered c
  swap
  · exact .of_refused (if_neg hc) fun h => absurd h hc
  cases hread : readMessage message with
  | error f =>
    refine .of_answer hc (readMessage_isReply hread) (by rw [onMessage, hread]) ?_
    intro _ inbound t result hread'
    rw [hread] at hread'
    cases hread'
  | ok inbound =>
  cases hhandle : handle n.server.db n.server.registry c inbound id now with
  | error err =>
    refine .of_answer hc (failureFrame_isReply err) ?_ ?_
    · rw [onMessage, hread]
      dsimp only
      rw [hhandle]
    · intro _ inbound' t result hread' hhandler htarget hok
      obtain rfl := Except.ok.inj (hread.symm.trans hread')
      rw [handle, hhandler] at hhandle
      dsimp only at hhandle
      rw [hok] at hhandle
      cases hhandle
  | ok result =>
  obtain ⟨db', actions⟩ := result
  by_cases hremove : inbound.handler = .hostRemove
  · rw [handle, hremove] at hhandle
    exact effect_removal ht hc hread hremove hhandle
  have hend : inbound.handler ≠ .hostEnd := by
    intro hend
    rw [handle, hend] at hhandle
    exact he inbound hread hend _ hhandle
  -- nobody else's handler says who has left
  have hcounts := Rosters.counts_performAll
    (Rosters.handle_not_counts hremove hend hhandle) n.server.registry
  have hstep := step_message_of_ok hc hread hhandle
  refine .of_quiet ?_ ?_ ?_
  · rw [hstep]
    exact fun d hd => left?_of_not_counts (hcounts.2 d hd)
  · rw [Server.next, hstep]
    intro p hp
    rcases handle_operation hhandle with rfl | ⟨op, hop, hok⟩
    · exact hp
    · exact not_closes_isOpen (not_closes_of_sentBy hop hremove hend) hok hp
  · intro _ inbound' t result hread' hhandler
    obtain rfl := Except.ok.inj (hread.symm.trans hread')
    exact absurd hhandler hremove

end Message

/-- **What an event does.** -/
theorem effect (ht : n.Tracked) {e : Event} (he : n.Allowed e) : n.Effect e := by
  cases e with
  | request r => exact effect_request he
  | connect number sessionId c => exact effect_connect ht.valid number sessionId c
  | message c message id now => exact effect_message ht he
  | disconnect c now => exact effect_disconnect ht c now

/-! ### Runs -/

/-- The rows of the database evolve in place. -/
theorem next_rows (s : Server) (e : Event) : ∃ f added, RowsEvolve s.db (s.next e).db f added := by
  rcases s.next_operation e with hdb | ⟨op, -, hdb⟩
  · exact ⟨_, _, .of_eq (by rw [hdb])⟩
  · rcases apply_change s.db op with hsame | hchange
    · exact ⟨_, _, .of_eq (by rw [hdb, hsame])⟩
    · obtain ⟨f, added, hrows, -⟩ := hchange.rows
      exact ⟨f, added, hdb ▸ hrows⟩

/-- What the lists of a socket gain, if it is registered. -/
theorem mem_heard_next {e : Event} {c : Connection} {p : ParticipantId} : p ∈ (n.next e).heard c ↔
    p ∈ n.heard c ∨ (n.Registered c ∧ p ∈ leftIn c.connectionId (n.server.step e).2) := by
  rw [next]
  dsimp only
  split
  · next hc => rw [List.mem_append, and_iff_right hc]
  · next hc => simp [hc]

theorem mem_closed_next {e : Event} {c : Connection} {p : ParticipantId} : p ∈ (n.next e).closed c ↔
    p ∈ n.closed c ∨ (n.Registered c ∧ p ∈ nowClosed n.server.db (n.server.next e).db) := by
  rw [next]
  dsimp only
  split
  · next hc => rw [List.mem_append, and_iff_right hc]
  · next hc => simp [hc]

theorem Tracked.next (ht : n.Tracked) {e : Event} (he : n.Allowed e) : (n.next e).Tracked where
  valid := ht.valid.next e
  owned := owned_next ht.owned e
  known := by
    obtain ⟨f, added, hrows⟩ := next_rows n.server e
    have hkeys {p : ParticipantId} (hp : p ∈ n.server.db.participants.keys) :
        p ∈ (n.server.next e).db.participants.keys := by
      obtain ⟨row, hrow, rfl⟩ := Keyed.mem_keys.mp hp
      exact Keyed.mem_keys.mpr ⟨f row, hrows.mem.mpr (.inl ⟨row, hrow, rfl⟩),
        (hrows.evolves row hrow).id⟩
    intro c p hp
    refine hkeys ?_
    rw [List.mem_append, mem_heard_next, mem_closed_next] at hp
    have hold (hp : p ∈ n.heard c ∨ p ∈ n.closed c) : p ∈ n.server.db.participants.keys :=
      ht.known c p (List.mem_append.mpr hp)
    have hnow (hp : p ∈ nowClosed n.server.db (n.server.next e).db) :
        p ∈ n.server.db.participants.keys := by
      obtain ⟨row, hrow, rfl, -⟩ := Db.isOpen_iff.mp (mem_nowClosed.mp hp).1
      exact Keyed.key_mem_keys hrow
    rcases hp with (hp | ⟨hc, hp⟩) | (hp | ⟨-, hp⟩)
    · exact hold (.inl hp)
    · cases effect ht he with
      | quiet hleft hclosed hopen =>
        rw [hleft c hc] at hp
        cases hp
      | announced x hx hleft honly hclosed hopen hlistener =>
        rw [honly _ p hp]
        exact Keyed.key_mem_keys hx
    · exact hold (.inr hp)
    · exact hnow hp
  closed := by
    obtain ⟨f, added, hrows⟩ := next_rows n.server e
    intro c p hp hopen
    rcases mem_closed_next.mp hp with hp | ⟨-, hp⟩
    · -- closed rows stay closed
      obtain ⟨row, hrow, rfl⟩ := Keyed.mem_keys.mp (ht.known c p (List.mem_append.mpr (.inr hp)))
      have hnone := (hrows.isOpen_iff hrow).mp hopen
      exact ht.closed c _ hp
        (Db.isOpen_iff.mpr ⟨row, hrow, rfl, (hrows.evolves row hrow).open_of_open hnone⟩)
    · exact (mem_nowClosed.mp hp).2 hopen

/-- What a socket heard of a row before the event. -/
theorem AnnouncedOnce.before (h : n.AnnouncedOnce) (ht : n.Tracked) {e : Event} {c : Connection}
    {p : Participant} (hp : p ∈ (n.server.next e).db.participants)
    (hmeeting : p.meetingId = c.meetingId)
    (hne : p.id ≠ c.participantId) : (n.heard c).count p.id = if p.id ∈ n.closed c then
      1 else 0 := by
  obtain ⟨f, added, hrows⟩ := next_rows n.server e
  by_cases hkey : p.id ∈ n.server.db.participants.keys
  · obtain ⟨row, hrow, hid⟩ := Keyed.mem_keys.mp hkey
    have hevolves := hrows.evolves row hrow
    obtain rfl : f row = p :=
      Keyed.eq_of_key_eq (hrows.mem.mpr (.inl ⟨row, hrow, rfl⟩)) hp (hevolves.id.trans hid)
    rw [← hid] at hne ⊢
    exact h c row hrow (hevolves.meetingId.symm.trans hmeeting) hne
  · -- a row that is new
    have hnew {l : List ParticipantId} (hl : l ⊆ n.heard c ++ n.closed c) : p.id ∉ l :=
      fun hmem => hkey (ht.known c p.id (hl hmem))
    rw [List.count_eq_zero.mpr (hnew (List.subset_append_left ..)),
      if_neg (hnew (List.subset_append_right ..))]

/-- What a socket was told of one participant, after the event. -/
theorem count_heard_next {e : Event} {c : Connection} {p : ParticipantId} :
    ((n.next e).heard c).count p =
    (n.heard c).count p +
      if n.Registered c then (leftIn c.connectionId (n.server.step e).2).count p else 0 := by
  rw [next]
  dsimp only
  split
  · exact List.count_append
  · rfl

/-- **One event.**  It keeps the announcements in step with the closings exactly if it
is no removal of somebody who has left. -/
theorem announcedOnce_next (ht : n.Tracked) (h : n.AnnouncedOnce) {e : Event} (he : n.Allowed e) :
    (n.next e).AnnouncedOnce ↔ n.RemovesOpen e := by
  cases effect ht he with
  | quiet hleft hclosed hopen =>
    refine iff_of_true ?_ hopen
    intro c p hp hmeeting hne
    have hsilent : (if n.Registered c then (leftIn c.connectionId (n.server.step e).2).count p.id
        else 0) = 0 := by
      split
      · next hc => rw [hleft c hc, List.count_nil]
      · rfl
    rw [count_heard_next, hsilent, Nat.add_zero, h.before ht hp hmeeting hne]
    simp only [mem_closed_next, hclosed, and_false, or_false]
  | announced x hx hleft honly hclosed hopen hlistener =>
    rw [hopen]
    obtain ⟨f, added, hrows⟩ := next_rows n.server e
    have hevolves := hrows.evolves x hx
    have hx' : f x ∈ (n.server.next e).db.participants := hrows.mem.mpr (.inl ⟨x, hx, rfl⟩)
    constructor
    · -- a second announcement reaches the host that asked for it
      intro honce
      by_contra hgone
      obtain ⟨c, hc, hmeeting, hne⟩ := hlistener hgone
      have hbefore := h c x hx hmeeting.symm hne.symm
      have hafter := honce c (f x) hx' (hevolves.meetingId.trans hmeeting.symm)
        (by rw [hevolves.id]; exact hne.symm)
      rw [count_heard_next, if_pos hc, hleft c hc hne, if_pos hmeeting, hevolves.id,
        List.count_singleton_self,
        hbefore] at hafter
      have hsame : x.id ∈ (n.next e).closed c ↔ x.id ∈ n.closed c := by
        rw [mem_closed_next, hclosed]
        simp [hgone]
      by_cases hmem : x.id ∈ n.closed c
      · simp [hsame, hmem] at hafter
      · simp [hsame, hmem] at hafter
    · intro hnone c p hp hmeeting hne
      have hbefore := h.before ht hp hmeeting hne
      rw [count_heard_next, hbefore]
      by_cases hc : n.Registered c
      · by_cases hpx : p.id = x.id
        · -- the row that closes: it was open, so nothing was said of it before
          obtain rfl : f x = p := Keyed.eq_of_key_eq hx' hp (hevolves.id.trans hpx.symm)
          have hopenx : n.server.db.isOpen (f x).id := Db.isOpen_iff.mpr ⟨x, hx, hpx.symm, hnone⟩
          have hnot : (f x).id ∉ n.closed c := fun hmem => ht.closed c _ hmem hopenx
          have hnow : (f x).id ∈ (n.next e).closed c :=
            mem_closed_next.mpr (.inr ⟨hc, (hclosed _).mpr ⟨hpx, hnone⟩⟩)
          rw [if_neg hnot, if_pos hc, if_pos hnow, hleft c hc (hpx ▸ hne.symm),
            if_pos (hmeeting.symm.trans hevolves.meetingId), hpx, List.count_singleton_self]
        · have hzero : (leftIn c.connectionId (n.server.step e).2).count p.id = 0 :=
            List.count_eq_zero.mpr fun hmem => hpx (honly _ _ hmem)
          rw [if_pos hc, hzero, Nat.add_zero]
          simp only [mem_closed_next, hclosed, hpx, false_and, and_false, or_false]
      · rw [if_neg hc, Nat.add_zero]
        simp only [mem_closed_next, hc, false_and, or_false]

end Effects

/-- Before anybody is connected, nobody was told anything. -/
theorem tracked_start {s : Server} (hv : s.Valid) (ho : s.db.Owned) : Tracked { server := s } where
  valid := hv
  owned := ho
  known := fun _ _ hp => absurd hp List.not_mem_nil
  closed := fun _ _ hp => absurd hp List.not_mem_nil

theorem announcedOnce_start (s : Server) : AnnouncedOnce { server := s } :=
  fun _ _ _ _ _ => rfl

end Departures

/-- **A departure is announced once.**  In a run from any reachable server, each socket
hears of every closing exactly once, and of no other, exactly if no accepted
`host.remove` names somebody who has left. -/
theorem announced_once_iff (pre events : List Event)
    (hallowed : Runs.Guarded Departures.next Departures.Allowed
      { server := Runs.run Server.next {} pre } events) :
    Runs.Always Departures.next Departures.AnnouncedOnce
      { server := Runs.run Server.next {} pre } events ↔
      Runs.Guarded Departures.next Departures.RemovesOpen
        { server := Runs.run Server.next {} pre } events := by
  have hv : (Runs.run Server.next {} pre).Valid := (Server.always_valid pre).last
  have ho : (Runs.run Server.next {} pre).db.Owned :=
    (Runs.always_of_step (I := fun s : Server => s.db.Owned)
      (fun p hp => absurd hp (Keyed.not_mem_empty p))
      (fun _ e h => owned_next h e) pre).last
  exact Runs.always_iff_guarded_of (I := Departures.Tracked) (Departures.tracked_start hv ho)
    (Departures.announcedOnce_start _) (fun n e ht he => ht.next he)
    (fun n e ht he h => Departures.announcedOnce_next ht h he) hallowed

/-- The host removes the guest. -/
def removesGuest (now : DateTime) : Event := .message hostSocket removeGuest "" now

theorem allowed_removesGuest (n : Departures) (now : DateTime) : n.Allowed (removesGuest now) := by
  intro inbound hread hend
  obtain rfl := Except.ok.inj hread
  cases hend

/-- Removing the guest once is announced once. -/
theorem announced_once_guest :
    Runs.Always Departures.next Departures.AnnouncedOnce
      { server := Runs.run Server.next {} hostAndGuest }
      [removesGuest 30] := by
  refine (announced_once_iff hostAndGuest [removesGuest 30]
    (Runs.guarded_cons.mpr ⟨allowed_removesGuest _ 30, Runs.guarded_nil⟩)).mpr ?_
  refine Runs.guarded_cons.mpr ⟨?_, Runs.guarded_nil⟩
  intro _ inbound t result hread _ htarget _
  obtain rfl := Except.ok.inj hread
  obtain rfl : "1" = t := Option.some.inj htarget
  show (Runs.run Server.next {} hostAndGuest).db.isOpen "1"
  decide +kernel

/-- A host who clicks twice hears twice that the guest has left. -/
theorem removed_twice_announced_twice : ¬ ∀ pre events : List Event,
    Runs.Guarded Departures.next Departures.Allowed
      { server := Runs.run Server.next {} pre } events →
      Runs.Always Departures.next Departures.AnnouncedOnce
        { server := Runs.run Server.next {} pre } events := by
  intro h
  have hallowed : Runs.Guarded Departures.next Departures.Allowed
      { server := Runs.run Server.next {} hostAndGuest } [removesGuest 30, removesGuest 40] :=
    Runs.guarded_cons.mpr
      ⟨allowed_removesGuest _ 30,
      Runs.guarded_cons.mpr ⟨allowed_removesGuest _ 40, Runs.guarded_nil⟩⟩
  have honce := (h hostAndGuest _ hallowed).last
  have hrow : ∃ p ∈ (Runs.run Departures.next { server := Runs.run Server.next {} hostAndGuest }
      [removesGuest 30, removesGuest 40]).server.db.participants.rows,
          p.id = "1" ∧ p.meetingId = "m" := by
    decide +kernel
  have hcount : ((Runs.run Departures.next { server := Runs.run Server.next {} hostAndGuest }
      [removesGuest 30, removesGuest 40]).heard hostSocket).count "1" = 2 := by
    decide +kernel
  obtain ⟨p, hp, hid, hmeeting⟩ := hrow
  have honce := honce hostSocket p hp hmeeting (by rw [hid]; decide)
  rw [hid, hcount] at honce
  split at honce <;> cases honce

end ZoomClone
