/-
Who may write what.

Every route and every socket handler has a check of its own.  Put together:

* `concerns_of_changed` — an operation that changes a participant row runs for the
  user of that row, for the host of its meeting, or for the socket of the row;
* `authenticatedAs_of_socket` — the socket of a row presented the session of that
  row when it connected;
* `authorization_sound` — whoever triggers a change is entitled to it, chat
  messages carry the identity of the socket that sent them, and no host is a guest.
-/
import ZoomClone.MeetingRows
import ZoomClone.People
import ZoomClone.Server

namespace ZoomClone

/-! ### One operation -/

/-- The user hosts the meeting of the row. -/
def Db.HostOf (db : Db) (userId : Option UserId) (p : Participant) : Prop :=
  ∃ m ∈ db.meetings, m.id = p.meetingId ∧ userId = some m.hostId

/-- The participant with that id belongs to the host of the row's meeting. -/
def Db.HostRowOf (db : Db) (actorId : ParticipantId) (p : Participant) : Prop :=
  ∃ actor ∈ db.participants, actor.id = actorId ∧ db.HostOf actor.userId p

/-- The grounds on which an operation may change a row. -/
def Operation.Concerns (db : Db) (p : Participant) : Operation → Prop
  | .request r => (∃ u, r.userId = some u ∧ p.userId = some u) ∨ db.HostOf r.userId p
  | .leaveMeeting sessionId _ => sessionId = p.sessionId
  | .bindConnection participantId _ => participantId = p.id
  | .releaseConnection participantId _ _ => participantId = p.id
  | .applyStateUpdate participantId _ => participantId = p.id
  | .postMessage _ _ _ _ _ => False
  | .hostMute actorId _ => db.HostRowOf actorId p
  | .hostMuteAll actorId => db.HostRowOf actorId p
  | .hostRemove actorId _ _ => db.HostRowOf actorId p
  | .hostEndMeeting actorId _ => db.HostRowOf actorId p

section Operation

variable {db db' : Db} {p : Participant}

theorem sessionId_of_participantBySession {sessionId : SessionId}
    (h : db.participantBySession sessionId = some p) : p.sessionId = sessionId := by
  have hfound := List.find?_some h
  exact of_decide_eq_true hfound

/-- An update changes only rows that it selects. -/
theorem selected_of_changed {P : Participant → Prop} [DecidablePred P]
    {f : Participant → Participant} (hf : ∀ p, (f p).id = p.id) (hp : p ∈ db.participants)
    (hchanged : p ∉ (db.updateRows P f hf).participants) : P p := by
  by_contra hP
  exact hchanged (Db.mem_updateRows.mpr ⟨p, hp, if_neg hP⟩)

/-- The row an update by id changes. -/
theorem eq_of_changed {q : Participant} {f : Participant → Participant}
    (hf : ∀ p, (f p).id = p.id) (hp : p ∈ db.participants) (hq : q ∈ db.participants)
    (hchanged : p ∉ (db.updateRow q.id f hf).participants) : p = q :=
  Keyed.eq_of_key_eq hp hq (selected_of_changed hf hp hchanged)

/-- A host that `require_host` accepts hosts every row of its meeting. -/
theorem hostRowOf_of_requireHost {actorId : ParticipantId} {actor : Participant} {m : Meeting}
    (hactor : actorRow db actorId = .ok actor) (hm : requireHost db actor = .ok m)
    (hmeeting : p.meetingId = actor.meetingId) : db.HostRowOf actorId p := by
  obtain ⟨hget, -, hhost⟩ := requireHost_eq_ok.mp hm
  have hrow := actorRow_eq_ok.mp hactor
  refine ⟨actor, getParticipant_mem hrow, Keyed.key_of_find? hrow, m,
    getMeeting_mem hget, ?_, hhost.symm⟩
  rw [hmeeting]
  exact Keyed.key_of_find? hget

/-- **Every change of a row has a ground.** -/
theorem concerns_of_changed {op : Operation} (hp : p ∈ db.participants)
    (hchanged : p ∉ (db.apply op).participants) : op.Concerns db p := by
  cases hrun : runOperation db op with
  | error e =>
    rw [Db.apply, hrun] at hchanged
    exact absurd hp hchanged
  | ok db' =>
  rw [apply_of_ok hrun] at hchanged
  have hsame (hsame : db'.participants = db.participants) : op.Concerns db p :=
    absurd (hsame ▸ hp) hchanged
  cases runOperation_commits hrun with
  | signInGuest h => exact hsame (createGuest_ok h).participants
  | signInGoogle h => exact hsame (upsertGoogleUser_ok h).participants
  | updateProfile huser h => exact hsame (updateProfile_ok h).participants
  | savePreferences => exact hsame rfl
  | createMeeting hhost h =>
    obtain ⟨topic, start, duration, k, number, db₁, -, hins, hrooms⟩ := createMeeting_ok h
    obtain ⟨hid, rfl, -⟩ := Db.insertMeeting_ok hins
    exact hsame hrooms.participants
  | updateMeeting => exact hsame rfl
  | cancelMeeting => exact hsame rfl
  | startMeeting => exact hsame rfl
  | @endMeeting userId _ now host m huser hm hhost =>
    -- Ending evicts the rows of the meeting, for its host.
    obtain ⟨hmeeting, -⟩ := selected_of_changed (Participant.evict_id · now) hp hchanged
    refine .inr ⟨m, mem_of_meetingByNumber hm, hmeeting.symm, ?_⟩
    show some userId = some m.hostId
    rw [hhost, id_of_currentFullUser huser]
  | joinMeeting user m huser hcheck hcommit =>
    obtain ⟨hid, hparticipants, -, -⟩ := commitJoin_ok hcommit
    -- A join adds a row and changes none.
    refine absurd ?_ hchanged
    rw [hparticipants]
    exact Keyed.mem_insert.mpr (.inl hp)
  | @updateParticipant userId _ changes user q m huser hq hm hallowed =>
    obtain rfl := eq_of_changed (Participant.applyMedia_id · changes) hp
      (getParticipant_mem hq) hchanged
    have hid := id_of_currentUser huser
    -- The row's own user, or the host.
    rcases hallowed with hself | hhost
    · exact .inl ⟨userId, rfl, by rw [hself, hid]⟩
    · refine .inr ⟨m, getMeeting_mem hm, Keyed.key_of_find? hm, ?_⟩
      show some userId = some m.hostId
      rw [hhost, hid]
  | @removeParticipant userId _ now user q m huser hq hm hhost =>
    obtain rfl := eq_of_changed (Participant.markLeft_id · now) hp (getParticipant_mem hq) hchanged
    refine .inr ⟨m, getMeeting_mem hm, Keyed.key_of_find? hm, ?_⟩
    show some userId = some m.hostId
    rw [hhost, id_of_currentUser huser]
  | @leaveMeeting _ now q hq =>
    obtain rfl := eq_of_changed (Participant.markLeft_id · now) hp
      (participantBySession_mem hq) hchanged
    exact (sessionId_of_participantBySession hq).symm
  | @bindConnection _ connectionId =>
    exact (selected_of_changed (Participant.bindTo_id · connectionId) hp hchanged).symm
  | staleConnection => exact hsame rfl
  | @releaseConnection _ _ now q hq =>
    obtain rfl := eq_of_changed (Participant.markLeft_id · now) hp (getParticipant_mem hq) hchanged
    exact (Keyed.key_of_find? hq).symm
  | @applyStateUpdate _ changes q hq =>
    obtain rfl := eq_of_changed (Participant.applyMedia_id · changes) hp
      (getParticipant_mem hq) hchanged
    exact (Keyed.key_of_find? hq).symm
  | postMessage h =>
    obtain ⟨-, q, -, -, hins, -⟩ := postMessage_eq_ok.mp h
    exact hsame (Db.insertMessage_ok hins).participants
  | hostMute actor t m hactor hm ht =>
    obtain ⟨hget, hmeeting⟩ := targetRow_eq_ok.mp ht
    obtain rfl := eq_of_changed Participant.mute_id hp (getParticipant_mem hget) hchanged
    exact hostRowOf_of_requireHost hactor hm hmeeting
  | hostMuteAll actor m hactor hm =>
    obtain ⟨hmeeting, -⟩ := selected_of_changed Participant.mute_id hp hchanged
    exact hostRowOf_of_requireHost hactor hm hmeeting
  | @hostRemove _ _ now actor t m hactor hm ht =>
    obtain ⟨hget, hmeeting⟩ := targetRow_eq_ok.mp ht
    obtain rfl := eq_of_changed (Participant.markLeft_id · now) hp
      (getParticipant_mem hget) hchanged
    exact hostRowOf_of_requireHost hactor hm hmeeting
  | @hostEndMeeting _ now actor m hactor hm =>
    obtain ⟨hmeeting, -⟩ := selected_of_changed (Participant.evict_id · now) hp hchanged
    -- The rows of the meeting that the actor is in.
    have hactorMeeting : m.id = actor.meetingId := Keyed.key_of_find? (requireHost_eq_ok.mp hm).1
    exact hostRowOf_of_requireHost hactor hm (hmeeting.trans hactorMeeting)

end Operation

/-! ### Sockets and sessions -/

/-- An invariant of the operations holds in every database the server reaches. -/
theorem Server.always_db {I : Db → Prop} (h0 : I .empty) (hstep : ∀ db op, I db → I (db.apply op))
    (events : List Event) : Runs.Always Server.next (fun s => I s.db) {} events := by
  refine Runs.always_of_step (I := fun s : Server => I s.db) h0 ?_ events
  intro s e h
  rcases s.next_operation e with hdb | ⟨op, -, hdb⟩
  · rw [hdb]
    exact h
  · rw [hdb]
    exact hstep s.db op h

/-- A row evolves through every event. -/
theorem Server.row_next {s : Server} {e : Event} {p q : Participant} (hp : p ∈ s.db.participants)
    (hq : q ∈ (s.next e).db.participants) (hid : q.id = p.id) : p.Evolves q := by
  rcases s.next_operation e with hdb | ⟨op, -, hdb⟩
  · rw [hdb] at hq
    rw [Keyed.eq_of_key_eq hq hp hid]
    exact .refl p
  · rw [hdb] at hq
    obtain ⟨q', hq', he⟩ := row_apply hp op
    rwa [Keyed.eq_of_key_eq hq hq' (hid.trans he.id.symm)]

/-- A socket is one that was there, or the one that was just accepted. -/
theorem Server.sockets_next {s : Server} {e : Event} {c : Connection}
    (hc : c ∈ (s.next e).sockets) :
    c ∈ s.sockets ∨ ∃ number sessionId d m p, e = .connect number sessionId d ∧
      authenticate s.db number sessionId = .ok (m, p) ∧ c = ⟨d, p.id, m.id⟩ := by
  cases e with
  | request r => exact .inl hc
  | connect number sessionId d =>
    rw [Server.next, Server.step] at hc
    split at hc
    · exact .inl hc
    rw [Server.connect] at hc
    split at hc
    · exact .inl hc
    · next m p hauth =>
      -- Refused for space or not, it is remembered.
      have haccept : c ∈ (acceptSocket s m p d).1.sockets →
          c = ⟨d, p.id, m.id⟩ ∨ c ∈ s.sockets := by
        intro h
        rw [acceptSocket] at h
        split at h <;> exact (Keyed.mem_set.mp h).imp_right And.left
      have hnew : c = ⟨d, p.id, m.id⟩ ∨ c ∈ s.sockets := by
        split at hc
        · next s' sent h =>
          rw [h] at haccept
          exact haccept hc
        · next s' sent actions h =>
          rw [h] at haccept
          exact haccept hc
      rcases hnew with rfl | hold
      · exact .inr ⟨number, sessionId, d, m, p, rfl, hauth, rfl⟩
      · exact .inl hold
  | message d message id now =>
    rw [Server.next, Server.step] at hc
    split at hc <;> exact .inl hc
  | disconnect d now =>
    rw [Server.next, Server.step] at hc
    split at hc <;> exact .inl hc

/-- In the run the socket presented the session of the row when it connected, and
was authenticated as that row. -/
def AuthenticatedAs (events : List Event) (c : ConnectionId) (p : Participant) : Prop :=
  ∃ pre number, pre ++ [.connect number p.sessionId c] <+: events ∧
    ∃ m q, authenticate (Runs.run Server.next {} pre).db number p.sessionId = .ok (m, q) ∧
      q.id = p.id

theorem authenticatedAs_of_socket (events : List Event) {c : Connection}
    (hc : c ∈ (Runs.run Server.next {} events).sockets) {p : Participant}
    (hp : p ∈ (Runs.run Server.next {} events).db.participants) (hid : p.id = c.participantId) :
    AuthenticatedAs events c.connectionId p := by
  induction events using List.reverseRecOn generalizing p with
  | nil => exact absurd hc (Keyed.not_mem_empty c)
  | append_singleton events e ih =>
    rw [Runs.run_concat] at hc hp
    rcases Server.sockets_next hc with hold | ⟨number, sessionId, d, m, q, rfl, hauth, rfl⟩
    · -- The socket was there before: so was its row, with the same session.
      obtain ⟨q, hq, hqid, -⟩ := (Server.always_valid events).last.row c hold
      obtain ⟨pre, number, hpre, hauth⟩ := ih hold hq hqid
      have he := Server.row_next hq hp (hid.trans hqid.symm)
      rw [AuthenticatedAs, he.sessionId, he.id]
      exact ⟨pre, number, hpre.trans (List.prefix_append _ _), hauth⟩
    · have hq := participantBySession_mem (authenticate_eq_ok.mp hauth).1
      have he := Server.row_next hq hp hid
      have hsession := sessionId_of_participantBySession (authenticate_eq_ok.mp hauth).1
      rw [AuthenticatedAs, he.sessionId, he.id, hsession]
      exact ⟨events, number, List.prefix_refl _, m, q, hauth, rfl⟩

/-! ### Hosts -/

/-- The host of every meeting is a user with a full account. -/
def Db.FullHosts (db : Db) : Prop :=
  ∀ m ∈ db.meetings, ∃ u ∈ db.users, u.id = m.hostId ∧ u.isGuest = false

theorem fullHosts_apply {db : Db} (h : db.FullHosts) (op : Operation) :
    (db.apply op).FullHosts := by
  intro m' hm'
  obtain ⟨f, added, hmove⟩ := apply_meetings db op
  obtain ⟨husers, -⟩ := apply_people db op
  have hkept (u : User) (hu : u ∈ db.users) (hid : u.id = m'.hostId) (hguest : u.isGuest = false) :
      ∃ v ∈ (db.apply op).users, v.id = m'.hostId ∧ v.isGuest = false := by
    obtain ⟨v, hv, he⟩ := husers.kept u hu
    exact ⟨v, hv, he.id.trans hid, he.isGuest hguest⟩
  rcases hmove.cases hm' with ⟨m, hm, hmoves⟩ | hcreates
  · obtain ⟨u, hu, hid, hguest⟩ := h m hm
    exact hkept u hu (hid.trans hmoves.hostId.symm) hguest
  · obtain ⟨host, hhost, hguest, -⟩ := hcreates.host
    exact hkept host (Keyed.mem_of_find? hhost) (Keyed.key_of_find? hhost) hguest

/-! ### One event -/

/-- The socket and its message: a frame, or the end of the socket. -/
def Event.SocketOf (c : Connection) : Event → Prop
  | .message d _ _ _ => d = c
  | .disconnect d _ => d = c
  | _ => False

/-- A frame of one of the host tools on that socket. -/
def Event.HostFrame (c : Connection) (handlers : List Handler) : Event → Prop
  | .message d frame _ _ => d = c ∧ ∃ inbound, readMessage frame = .ok inbound ∧
      inbound.handler ∈ handlers
  | _ => False

/-- The frames of the host tools. -/
def hostHandlers : List Handler := [.hostMute, .hostMuteAll, .hostRemove, .hostEnd]

section Entitled

variable (events : List Event) (e : Event)

/-- Who may change a participant row: its user and the host over REST, a frame or
the end of a socket authenticated with the session of the row, and a host frame
on a socket authenticated as a row of the host. -/
def RowEntitled (p : Participant) : Prop :=
  (∃ r u, e = .request r ∧ r.userId = some u ∧ p.userId = some u) ∨
    (∃ r, e = .request r ∧ (Runs.run Server.next {} events).db.HostOf r.userId p) ∨
    (∃ c, e.SocketOf c ∧ AuthenticatedAs events c.connectionId p) ∨
    ∃ c actor, e.HostFrame c hostHandlers ∧ AuthenticatedAs events c.connectionId actor ∧
      (Runs.run Server.next {} events).db.HostOf actor.userId p

/-- The connect of a socket that presents the session of the row. -/
def ConnectsTo (p : Participant) : Prop := ∃ number c, e = .connect number p.sessionId c

/-- Who may change a meeting row: its host over REST, and `host.end` on a socket
authenticated as a row of the host. -/
def MeetingEntitled (m : Meeting) : Prop :=
  (∃ r, e = .request r ∧ r.userId = some m.hostId) ∨
    ∃ c actor, e.HostFrame c [.hostEnd] ∧ AuthenticatedAs events c.connectionId actor ∧
      actor.userId = some m.hostId

/-- The message is stored under the participant and the meeting of the socket that
sent it. -/
def MessageFrom (message : ChatMessage) : Prop :=
  ∃ c frame id now, e = .message c frame id now ∧
    c ∈ (Runs.run Server.next {} events).registry.connections c.meetingId ∧
    message.participantId = c.participantId ∧ message.meetingId = c.meetingId

/-- Everything one event changes is changed by someone who may. -/
structure Authorized : Prop where
  rows : ∀ p ∈ (Runs.run Server.next {} events).db.participants,
    p ∉ (Runs.run Server.next {} (events ++ [e])).db.participants →
      RowEntitled events e p ∨ ConnectsTo e p
  meetings : ∀ m ∈ (Runs.run Server.next {} events).db.meetings,
    m ∉ (Runs.run Server.next {} (events ++ [e])).db.meetings → MeetingEntitled events e m
  messages : ∀ message ∈ (Runs.run Server.next {} (events ++ [e])).db.chatMessages,
    message ∉ (Runs.run Server.next {} events).db.chatMessages → MessageFrom events e message
  hosts : (Runs.run Server.next {} (events ++ [e])).db.FullHosts

end Entitled

section Event

variable {events : List Event} {e : Event} {op : Operation}

/-- A message comes from the socket of a row. -/
theorem authenticatedAs_of_registered {c : Connection}
    (hc : c ∈ (Runs.run Server.next {} events).registry.connections c.meetingId) {p : Participant}
    (hp : p ∈ (Runs.run Server.next {} events).db.participants) (hid : p.id = c.participantId) :
    AuthenticatedAs events c.connectionId p :=
  authenticatedAs_of_socket events
    ((Server.always_valid events).last.registered c.meetingId c hc).2 hp hid

theorem hostFrame_of_sentBy {c : Connection} {frame : Json} {id : String} {now : DateTime}
    {inbound : Inbound} {handler : Handler} {handlers : List Handler}
    (hread : readMessage frame = .ok inbound) (hhandler : inbound.handler = handler)
    (hmem : handler ∈ handlers) : (Event.message c frame id now).HostFrame c handlers :=
  ⟨rfl, inbound, hread, hhandler ▸ hmem⟩

theorem rowEntitled_of_concerns (hperforms : e.Performs (Runs.run Server.next {} events) op)
    {p : Participant} (hp : p ∈ (Runs.run Server.next {} events).db.participants)
    (h : op.Concerns (Runs.run Server.next {} events).db p) :
    RowEntitled events e p ∨ ConnectsTo e p := by
  cases hperforms with
  | request r =>
    left
    rcases h with ⟨u, hu, hpu⟩ | hhost
    · exact .inl ⟨r, u, rfl, hu, hpu⟩
    · exact .inr (.inl ⟨r, rfl, hhost⟩)
  | connect number sessionId c m q hauth =>
    right
    have hq := (authenticate_eq_ok.mp hauth).1
    obtain rfl : q = p := Keyed.eq_of_key_eq (participantBySession_mem hq) hp h
    rw [ConnectsTo, sessionId_of_participantBySession hq]
    exact ⟨number, c, rfl⟩
  | message c frame id now inbound op hc hread hop =>
    left
    right
    right
    have hown (hid : p.id = c.participantId) :
        ∃ d, (Event.message c frame id now).SocketOf d ∧ AuthenticatedAs events d.connectionId p :=
      ⟨c, rfl, authenticatedAs_of_registered hc hp hid⟩
    -- A host tool acts for the row that the socket was authenticated as.
    have hhost {actorId : ParticipantId} {handler : Handler} (hhandler : inbound.handler = handler)
        (hmem : handler ∈ hostHandlers) (hactor : actorId = c.participantId)
        (h : (Runs.run Server.next {} events).db.HostRowOf actorId p) :
        ∃ d actor, (Event.message c frame id now).HostFrame d hostHandlers ∧
          AuthenticatedAs events d.connectionId actor ∧
          (Runs.run Server.next {} events).db.HostOf actor.userId p := by
      obtain ⟨actor, hmemActor, hid, hof⟩ := h
      exact ⟨c, actor, hostFrame_of_sentBy hread hhandler hmem,
        authenticatedAs_of_registered hc hmemActor (hid.trans hactor), hof⟩
    cases op with
    | applyStateUpdate participantId changes => exact .inl (hown (h.symm.trans hop.2))
    | hostMute actorId targetId => exact .inr (hhost hop.1 (by decide) hop.2 h)
    | hostMuteAll actorId => exact .inr (hhost hop.1 (by decide) hop.2 h)
    | hostRemove actorId targetId now => exact .inr (hhost hop.1 (by decide) hop.2 h)
    | hostEndMeeting actorId now => exact .inr (hhost hop.1 (by decide) hop.2 h)
    | postMessage meetingId participantId body id now => exact h.elim
    | request r => exact hop.elim
    | leaveMeeting sessionId now => exact hop.elim
    | bindConnection participantId connectionId => exact hop.elim
    | releaseConnection participantId connectionId now => exact hop.elim
  | disconnect c now hc =>
    left
    right
    right
    left
    exact ⟨c, rfl, authenticatedAs_of_socket events hc hp h.symm⟩

theorem Meeting.Moves.organizer {db : Db} {m m' : Meeting} (h : m.Moves db op m') (hne : m' ≠ m) :
    op.organizer db = some m.hostId := by
  cases h with
  | kept => exact absurd rfl hne
  | edited changes topic start duration ha hs => exact ha
  | cancelled ha hs => exact ha
  | started now ha ht hs => exact ha
  | ended now ha ht hs => exact ha

theorem meetingEntitled_of_organizer (hperforms : e.Performs (Runs.run Server.next {} events) op)
    {m : Meeting} (h : op.organizer (Runs.run Server.next {} events).db = some m.hostId) :
    MeetingEntitled events e m := by
  cases hperforms with
  | request r => exact .inl ⟨r, rfl, h⟩
  | connect number sessionId c m' q hauth => cases h
  | message c frame id now inbound op hc hread hop =>
    right
    cases op with
    | hostEndMeeting actorId now' =>
      obtain ⟨actor, hactor, huser⟩ := Option.bind_eq_some_iff.mp h
      refine ⟨c, actor, hostFrame_of_sentBy hread hop.1 (by decide), ?_, huser⟩
      exact authenticatedAs_of_registered hc (getParticipant_mem hactor)
        ((Keyed.key_of_find? hactor).trans hop.2)
    | request r => exact hop.elim
    | leaveMeeting sessionId now => cases h
    | bindConnection participantId connectionId => cases h
    | releaseConnection participantId connectionId now => cases h
    | applyStateUpdate participantId changes => cases h
    | postMessage meetingId participantId body id now => cases h
    | hostMute actorId targetId => cases h
    | hostMuteAll actorId => cases h
    | hostRemove actorId targetId now => cases h
  | disconnect c now hc => cases h

end Event

/-- **Every change is made by someone who may make it.**  After any run, whatever
the next event is. -/
theorem authorization_sound (events : List Event) (e : Event) : Authorized events e := by
  have hhosts : Db.FullHosts (Runs.run Server.next {} (events ++ [e])).db :=
    (Server.always_db (I := Db.FullHosts) (fun m hm => absurd hm (Keyed.not_mem_empty m))
      (fun _ op h => fullHosts_apply h op) (events ++ [e])).last
  rw [Runs.run_concat] at hhosts
  refine ⟨?_, ?_, ?_, ?_⟩ <;> rw [Runs.run_concat]
  · intro p hp hchanged
    rcases (Runs.run Server.next {} events).next_operation e with hdb | ⟨op, hperforms, hdb⟩
    · exact absurd (hdb ▸ hp) hchanged
    · rw [hdb] at hchanged
      exact rowEntitled_of_concerns hperforms hp (concerns_of_changed hp hchanged)
  · intro m hm hchanged
    rcases (Runs.run Server.next {} events).next_operation e with hdb | ⟨op, hperforms, hdb⟩
    · exact absurd (hdb ▸ hm) hchanged
    · rw [hdb] at hchanged
      obtain ⟨f, added, hmove⟩ := apply_meetings (Runs.run Server.next {} events).db op
      have hnew := hmove.mem.mpr (.inl ⟨m, hm, rfl⟩)
      -- The row that changed is the one that the operation moved.
      have hne : f m ≠ m := fun heq => hchanged (heq ▸ hnew)
      exact meetingEntitled_of_organizer hperforms ((hmove.moves m hm).organizer hne)
  · intro message hmessage hnew
    rcases (Runs.run Server.next {} events).next_operation e with hdb | ⟨op, hperforms, hdb⟩
    · exact absurd (hdb ▸ hmessage) hnew
    · rw [hdb] at hmessage
      have hchange := (apply_people (Runs.run Server.next {} events).db op).2
      generalize (Runs.run Server.next {} events).db.apply op = db' at hmessage hchange
      cases hchange with
      | kept h => exact absurd (h ▸ hmessage) hnew
      | posted c hid hp h =>
        rw [h, Keyed.mem_insert] at hmessage
        rcases hmessage with hold | rfl
        · exact absurd hold hnew
        · cases hperforms with
          | message d frame id now inbound op hd hread hop =>
            exact ⟨d, frame, id, now, rfl, hd, hop.2.2, hop.2.1⟩
  · exact hhosts

/-- A guest joins an open meeting and has not connected yet. -/
def guestJoins : List Event :=
  openMeeting ++
    [.request (.joinMeeting "guest" "10000000003" { inviteToken := some "tok" } ⟨"1", "s1"⟩ 20)]

/-- A connect writes the row of its session, and is neither a frame nor the end of
a socket. -/
theorem connect_writes : ¬ ∀ (events : List Event) (e : Event),
    ∀ p ∈ (Runs.run Server.next {} events).db.participants,
      p ∉ (Runs.run Server.next {} (events ++ [e])).db.participants → RowEntitled events e p := by
  intro h
  have hrow : ∃ p ∈ (Runs.run Server.next {} guestJoins).db.participants.rows,
      p ∉ (Runs.run Server.next {}
          (guestJoins ++ [.connect "10000000003" "s1" "c1"])).db.participants := by
    decide +kernel
  obtain ⟨p, hp, hchanged⟩ := hrow
  rcases h _ _ p hp hchanged with ⟨r, u, he, -⟩ | ⟨r, he, -⟩ | ⟨c, hc, -⟩ | ⟨c, actor, hc, -⟩
  · cases he
  · cases he
  · exact hc
  · exact hc

end ZoomClone
