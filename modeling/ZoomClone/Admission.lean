/-
Sockets admitted on a session that is still valid.

`meeting_socket` checks the session in one transaction, awaits the handshake, and
binds the socket in another; nothing is checked again.  So a socket is admitted on
a valid session exactly when nothing that ends the session happens in between:

* `Operation.Ends` — the operations that close a row, or end or cancel its
  meeting, when they go through; `admits_apply_iff` says that these are all;
* `NetEvent.operation` — the operation an event runs (`next_db`);
* `admitted_iff` — the events between the two steps of a connecting socket.
-/
import ZoomClone.Authorization
import ZoomClone.NetworkValid
import ZoomClone.TwoEndings

namespace ZoomClone

/-! ### What ends a session -/

/-- What `authenticate` checks of a row: it is open, and its meeting is neither
ended nor cancelled. -/
def Db.Admits (db : Db) (p : ParticipantId) : Prop :=
  ∃ q ∈ db.participants, q.id = p ∧ q.leftAt = none ∧
    ∃ m ∈ db.meetings, m.id = q.meetingId ∧ m.status ≠ .ended ∧ m.status ≠ .cancelled

/-- The meeting with that number is the one of the row. -/
def Db.Numbers (db : Db) (meetingNumber : String) (q : Participant) : Prop :=
  ∃ m, db.meetingByNumber meetingNumber = some m ∧ m.id = q.meetingId

/-- The operation ends the session of row `q` when it goes through: the end or the
cancellation of its meeting, its removal, and the end of the socket that owns it. -/
def Operation.Ends (db : Db) (q : Participant) : Operation → Prop
  | .request (.cancelMeeting _ meetingNumber) => db.Numbers meetingNumber q
  | .request (.endMeeting _ meetingNumber _) => db.Numbers meetingNumber q
  | .request (.removeParticipant _ participantId _) => participantId = q.id
  | .leaveMeeting sessionId _ => sessionId = q.sessionId
  | .releaseConnection participantId c _ => participantId = q.id ∧ q.connectionId = some c
  | .hostRemove _ targetId _ => targetId = q.id
  | .hostEndMeeting actorId _ => ∃ actor, db.getParticipant actorId = some actor ∧
      actor.meetingId = q.meetingId
  | _ => False

section Operation

variable {db db' : Db} {q : Participant} {m : Meeting}

/-- The session of a row, read off what its row and its meeting have become. -/
theorem admits_iff {p : ParticipantId} (hq : q ∈ db.participants) (hid : q.id = p)
    (hm : m ∈ db.meetings) (hmid : m.id = q.meetingId) :
    db.Admits p ↔ q.leftAt = none ∧ m.status ≠ .ended ∧ m.status ≠ .cancelled := by
  constructor
  · rintro ⟨q', hq', hid', hopen, m', hm', hmid', hs⟩
    obtain rfl := Keyed.eq_of_key_eq hq hq' (hid.trans hid'.symm)
    obtain rfl := Keyed.eq_of_key_eq hm hm' (hmid.trans hmid'.symm)
    exact ⟨hopen, hs⟩
  · rintro ⟨hopen, hs⟩
    exact ⟨q, hq, hid, hopen, m, hm, hmid, hs⟩

/-- Nothing happened to the row or to its meeting. -/
theorem admits_of_kept (hopen : q.leftAt = none) (hmid : m.id = q.meetingId)
    (hs : m.status ≠ .ended ∧ m.status ≠ .cancelled) (hq' : q ∈ db'.participants)
    (hm' : m ∈ db'.meetings) : db'.Admits q.id :=
  (admits_iff hq' rfl hm' hmid).mpr ⟨hopen, hs⟩

variable (hq : q ∈ db.participants) (hopen : q.leftAt = none) (hm : m ∈ db.meetings)
  (hmid : m.id = q.meetingId) (hs : m.status ≠ .ended ∧ m.status ≠ .cancelled)

include hq hopen hm hmid hs

theorem admits_of_sameRooms (h : db.SameRooms db') : db'.Admits q.id :=
  admits_of_kept hopen hmid hs (h.participants ▸ hq) (h.meetings ▸ hm)

/-- An update of rows ends the session exactly when it closes the row. -/
theorem admits_updateRows_iff {P : Participant → Prop} [DecidablePred P]
    {f : Participant → Participant} (hf : ∀ p, (f p).id = p.id)
    (hmeeting : ∀ p, (f p).meetingId = p.meetingId) :
    (db.updateRows P f hf).Admits q.id ↔ ¬ (P q ∧ (f q).leftAt ≠ none) := by
  have hmem : (if P q then f q else q) ∈ (db.updateRows P f hf).participants :=
    Db.mem_updateRows.mpr ⟨q, hq, rfl⟩
  by_cases hP : P q
  · rw [if_pos hP] at hmem
    rw [admits_iff hmem (hf q) hm (hmid.trans (hmeeting q).symm)]
    simp [hP, hs]
  · rw [if_neg hP] at hmem
    rw [admits_iff hmem rfl hm hmid]
    simp [hP, hs, hopen]

/-- An update that closes no row ends no session. -/
theorem admits_updateRows {P : Participant → Prop} [DecidablePred P] {f : Participant → Participant}
    (hf : ∀ p, (f p).id = p.id) (hmeeting : ∀ p, (f p).meetingId = p.meetingId)
    (hleft : ∀ p, (f p).leftAt = p.leftAt) : (db.updateRows P f hf).Admits q.id := by
  rw [admits_updateRows_iff hq hopen hm hmid hs hf hmeeting]
  rintro ⟨-, hclosed⟩
  exact hclosed ((hleft q).trans hopen)

/-- Marking a row left ends the session of that row. -/
theorem admits_markLeft_iff (t : Participant) (now : DateTime) :
    (markLeft db t now).2.Admits q.id ↔ q.id ≠ t.id := by
  rw [markLeft, Db.updateRow,
    admits_updateRows_iff hq hopen hm hmid hs (Participant.markLeft_id · now) fun _ => rfl]
  simp [Participant.markLeft]

/-- An update of one meeting row ends the session exactly when it ends or cancels
the row's meeting. -/
theorem admits_updateMeetingRow_iff {n : Meeting} {f : Meeting → Meeting}
    (hf : ∀ m, (f m).id = m.id)
    (hn : n ∈ db.meetings) : (db.updateMeetingRow n.id f hf).Admits q.id ↔
      ¬ (n.id = q.meetingId ∧ ((f n).status = .ended ∨ (f n).status = .cancelled)) := by
  have hrow : q ∈ (db.updateMeetingRow n.id f hf).participants := hq
  by_cases hid : n.id = q.meetingId
  · have hmem : f n ∈ (db.updateMeetingRow n.id f hf).meetings :=
      Db.mem_updateMeetingRow.mpr ⟨n, hn, if_pos rfl⟩
    rw [admits_iff hrow rfl hmem ((hf n).trans hid)]
    simp [hid, hopen]
  · have hmem : m ∈ (db.updateMeetingRow n.id f hf).meetings := by
      refine Db.mem_updateMeetingRow.mpr ⟨m, hm, if_neg ?_⟩
      exact fun h => hid (h.symm.trans hmid)
    rw [admits_iff hrow rfl hmem hmid]
    simp [hid, hopen, hs]

/-- Ending a meeting ends the sessions of its rows. -/
theorem admits_endAll_iff {n : Meeting} (now : DateTime) (hn : n ∈ db.meetings) :
    (db.endAll n.id now).Admits q.id ↔ n.id ≠ q.meetingId := by
  by_cases hid : n.id = q.meetingId
  · have hrow : q.evict now ∈ (db.endAll n.id now).participants :=
      mem_participants_endAll.mpr ⟨q, hq, if_pos ⟨hid.symm, hopen⟩⟩
    rw [admits_iff hrow (q.evict_id now) (mem_meetings_endAll.mpr ⟨n, hn, if_pos rfl⟩) hid]
    simp [hid, Participant.evict]
  · have hrow : q ∈ (db.endAll n.id now).participants :=
      mem_participants_endAll.mpr ⟨q, hq, if_neg fun h => hid h.1.symm⟩
    have hkeep : (if m.id = n.id then m.finish now else m) = m :=
      if_neg fun h => hid (h.symm.trans hmid)
    rw [admits_iff hrow rfl (mem_meetings_endAll.mpr ⟨m, hm, hkeep⟩) hmid]
    simp [hid, hopen, hs]

/-- A join ends no session; the host's may take the row's meeting live. -/
theorem admits_commitJoin {n : Meeting} {user : User} {req : JoinRequest}
    {draws : JoinDraws} {now : DateTime}
    {r : JoinResponse} (hn : n ∈ db.meetings)
    (h : commitJoin db n user req draws now = .ok (r, db')) :
    db'.Admits q.id := by
  obtain ⟨hid, hparticipants, hmeetings, -⟩ := commitJoin_ok h
  have hq' : q ∈ db'.participants := by
    rw [hparticipants]
    exact Keyed.mem_insert.mpr (.inl hq)
  rw [Db.welcomeHost] at hmeetings
  split at hmeetings
  · have hwelcome :=
      (admits_updateMeetingRow_iff hq hopen hm hmid hs (Meeting.goLive_id · now) hn).mpr
      (by simp [Meeting.goLive])
    obtain ⟨q', hmem, hkey, hleft, n', hn', hrest⟩ := hwelcome
    obtain rfl := Keyed.eq_of_key_eq hmem hq hkey
    exact ⟨q', hq', rfl, hleft, n', hmeetings ▸ hn', hrest⟩
  · exact admits_of_kept hopen hmid hs hq' (hmeetings ▸ hm)

/-- **What ends a session.**  Of the operations that go through, exactly those of
`Operation.Ends`. -/
theorem admits_iff_not_ends (hv : db.Valid) {op : Operation} (h : runOperation db op = .ok db') :
    db'.Admits q.id ↔ ¬ op.Ends db q := by
  have hsame (h : db.SameRooms db') : db'.Admits q.id ↔ ¬ False :=
    iff_of_true (admits_of_sameRooms hq hopen hm hmid hs h) id
  cases runOperation_commits h with
  | signInGuest h => exact hsame (createGuest_ok h)
  | signInGoogle h => exact hsame (upsertGoogleUser_ok h)
  | updateProfile huser h => exact hsame (updateProfile_ok h)
  | savePreferences user => exact hsame (upsertPreferences_sameRooms db user ..)
  | createMeeting hhost h =>
    obtain ⟨topic, start, duration, k, number, db₁, -, hins, hrooms⟩ := createMeeting_ok h
    -- A new meeting is none that the row could belong to.
    obtain ⟨hid, rfl, -⟩ := Db.insertMeeting_ok hins
    refine iff_of_true (admits_of_kept hopen hmid hs (hrooms.participants ▸ hq) ?_) id
    rw [hrooms.meetings]
    exact (Keyed.mem_insert (h := hid)).mpr (.inl hm)
  | updateMeeting host n topic start duration huser hn hhost hstatus =>
    -- The status of an edit is never a closing one.
    rw [admits_updateMeetingRow_iff hq hopen hm hmid hs (fun m => m.edit_id ..)
      (mem_of_meetingByNumber hn)]
    simp [Meeting.edit, hstatus, Operation.Ends]
  | cancelMeeting host n huser hn =>
    rw [admits_updateMeetingRow_iff hq hopen hm hmid hs Meeting.cancel_id
      (mem_of_meetingByNumber hn)]
    simp [Meeting.cancel, Operation.Ends, Db.Numbers, hn]
  | @startMeeting _ _ now host n huser hn =>
    rw [admits_updateMeetingRow_iff hq hopen hm hmid hs (Meeting.goLive_id · now)
      (mem_of_meetingByNumber hn)]
    simp [Meeting.goLive, Operation.Ends]
  | @endMeeting _ _ now host n huser hn =>
    refine (admits_endAll_iff hq hopen hm hmid hs now (mem_of_meetingByNumber hn)).trans ?_
    simp [Operation.Ends, Db.Numbers, hn]
  | @joinMeeting _ _ _ _ now _ _ user n huser hcheck hcommit =>
    have hn := mem_of_meetingByNumber (checkJoin_eq_ok.mp hcheck).1
    exact iff_of_true (admits_commitJoin hq hopen hm hmid hs hn hcommit) id
  | @updateParticipant _ _ changes =>
    exact iff_of_true (admits_updateRows hq hopen hm hmid hs (Participant.applyMedia_id · changes)
      (fun _ => rfl) fun _ => rfl) id
  | @removeParticipant _ _ now user t n huser ht =>
    rw [admits_markLeft_iff hq hopen hm hmid hs, Keyed.key_of_find? ht]
    exact not_congr eq_comm
  | @leaveMeeting _ now t ht =>
    obtain rfl := sessionId_of_participantBySession ht
    -- Sessions are unique, so the session names the row.
    have hkey : q.id = t.id ↔ t.sessionId = q.sessionId := by
      constructor
      · intro hid
        rw [Keyed.eq_of_key_eq hq (participantBySession_mem ht) hid]
      · intro hsession
        rw [List.inj_on_of_nodup_map hv.sessions (participantBySession_mem ht) hq hsession]
    exact (admits_markLeft_iff hq hopen hm hmid hs t now).trans (not_congr hkey)
  | @bindConnection _ connectionId =>
    exact iff_of_true (admits_updateRows hq hopen hm hmid hs (Participant.bindTo_id · connectionId)
      (fun _ => rfl) fun _ => rfl) id
  | staleConnection hnone =>
    -- The socket does not own the row.
    refine iff_of_true (admits_of_kept hopen hmid hs hq hm) ?_
    rintro ⟨rfl, hc⟩
    rw [Db.getParticipant, Keyed.find?_of_mem hq] at hnone
    simp [Option.filter, hc] at hnone
  | @releaseConnection participantId connectionId now t ht hc =>
    obtain rfl : t.id = participantId := Keyed.key_of_find? ht
    have hkey : q.id = t.id ↔ t.id = q.id ∧ q.connectionId = some connectionId := by
      constructor
      · intro hid
        rw [Keyed.eq_of_key_eq hq (getParticipant_mem ht) hid]
        exact ⟨rfl, hc⟩
      · exact fun h => h.1.symm
    exact (admits_markLeft_iff hq hopen hm hmid hs t now).trans (not_congr hkey)
  | @applyStateUpdate _ changes =>
    exact iff_of_true (admits_updateRows hq hopen hm hmid hs (Participant.applyMedia_id · changes)
      (fun _ => rfl) fun _ => rfl) id
  | postMessage h =>
    obtain ⟨-, t, -, -, hins, -⟩ := postMessage_eq_ok.mp h
    exact hsame (Db.insertMessage_ok hins)
  | hostMute =>
    exact iff_of_true (admits_updateRows hq hopen hm hmid hs Participant.mute_id
      (fun _ => rfl) fun _ => rfl) id
  | hostMuteAll =>
    exact iff_of_true (admits_updateRows hq hopen hm hmid hs Participant.mute_id
      (fun _ => rfl) fun _ => rfl) id
  | @hostRemove _ _ now actor t n hactor hn ht =>
    rw [admits_markLeft_iff hq hopen hm hmid hs, Keyed.key_of_find? (targetRow_eq_ok.mp ht).1]
    exact not_congr eq_comm
  | @hostEndMeeting _ now actor n hactor hn =>
    have hget := (requireHost_eq_ok.mp hn).1
    refine (admits_endAll_iff hq hopen hm hmid hs now (getMeeting_mem hget)).trans ?_
    rw [Keyed.key_of_find? hget]
    simp [Operation.Ends, actorRow_eq_ok.mp hactor]

end Operation

/-! ### The operation of an event -/

/-- The operation a handler runs for a message. -/
def Inbound.operation (inbound : Inbound) (c : Connection) (id : String) (now : DateTime) :
    Option Operation :=
  match inbound.handler with
  | .ping => none
  | .signal _ => none
  | .stateUpdate => some (.applyStateUpdate c.participantId (.ofPayload inbound.payload))
  | .chatSend =>
    match Json.get inbound.payload "body" with
    | .str body => some (.postMessage c.meetingId c.participantId
      (PyStr.take body maxChatBodyLength) id now)
    | _ => none
  | .hostMute => (hostTarget inbound).map (.hostMute c.participantId)
  | .hostMuteAll => some (.hostMuteAll c.participantId)
  | .hostRemove => (hostTarget inbound).map (.hostRemove c.participantId · now)
  | .hostEnd => some (.hostEndMeeting c.participantId now)

/-- The operation an event runs, if any. -/
def NetEvent.operation (n : Network) : NetEvent → Option Operation
  | .request r => some (.request r)
  | .join userId meetingNumber inviteToken stream draws now c =>
    match n.tasks c with
    | none => some (.request (.joinMeeting userId meetingNumber
        ((MeetingRoom.mount meetingNumber inviteToken).join stream).2 draws now))
    | _ => none
  | .register c =>
    match n.tasks c with
    | some (.accepting _ participant) => some (.bindConnection participant.id c)
    | _ => none
  | .message c frame id now =>
    match n.tasks c with
    | some (.handling connection false []) =>
      if connection ∈ n.server.registry.connections connection.meetingId then
        match readMessage frame with
        | .ok inbound => inbound.operation connection id now
        | .error _ => none
      else none
    | _ => none
  | .disconnect c now =>
    match n.tasks c with
    | some (.handling connection false []) =>
      some (.releaseConnection connection.participantId connection.connectionId now)
    | _ => none
  | _ => none

/-- The database after an optional operation. -/
def Db.applyAny (db : Db) (op : Option Operation) : Db := (op.map db.apply).getD db

section Handlers

variable {db : Db} {r : RoomRegistry} {c : Connection} {inbound : Inbound} {id : String}
  {now : DateTime}

/-- A host tool run for the acting row: the database is what it commits. -/
theorem map_fst_bind_actor {α β : Type} (x : Service α) (tool : α → Service (β × Db))
    (sends : β → List Action) :
    (x >>= fun a => tool a >>= fun r => pure (r.2, sends r.1)).map Prod.fst =
      x >>= fun a => (tool a).commit := by
  cases x with
  | error e => rfl
  | ok a =>
    show Except.map Prod.fst (tool a >>= fun r => pure (r.2, sends r.1)) = (tool a).commit
    cases tool a <;> rfl

/-- A handler commits what its operation commits. -/
theorem handle_fst {op : Operation} (hop : inbound.operation c id now = some op) :
    (handle db r c inbound id now).map Prod.fst = runOperation db op := by
  rw [Inbound.operation] at hop
  rw [handle]
  cases hhandler : inbound.handler with
  | ping =>
    rw [hhandler] at hop
    cases hop
  | signal kind =>
    rw [hhandler] at hop
    cases hop
  | stateUpdate =>
    rw [hhandler] at hop
    obtain rfl := Option.some.inj hop
    dsimp only
    rw [handleStateUpdate, runOperation]
    cases applyStateUpdate db c.participantId (.ofPayload inbound.payload) <;> rfl
  | chatSend =>
    rw [hhandler] at hop
    cases hbody : Json.get inbound.payload "body" with
    | str body =>
      rw [hbody] at hop
      obtain rfl := Option.some.inj hop
      dsimp only
      rw [handleChatSend, hbody, runOperation]
      dsimp only
      cases postMessage db c.meetingId c.participantId
        (PyStr.take body maxChatBodyLength) id now <;> rfl
    | _ =>
      rw [hbody] at hop
      cases hop
  | hostMute =>
    rw [hhandler] at hop
    obtain ⟨t, ht, rfl⟩ := Option.map_eq_some_iff.mp hop
    dsimp only
    rw [handleHostMute, requiredTarget, ht, runOperation]
    exact map_fst_bind_actor (actorRow db c.participantId) (hostMute db · t)
      fun v => [mutedYou c t, peerUpdated c v]
  | hostMuteAll =>
    rw [hhandler] at hop
    obtain rfl := Option.some.inj hop
    dsimp only
    rw [handleHostMuteAll, runOperation]
    exact map_fst_bind_actor (actorRow db c.participantId) (hostMuteAll db)
      fun vs => vs.flatMap fun v => [mutedYou c v.id, peerUpdated c v]
  | hostRemove =>
    rw [hhandler] at hop
    obtain ⟨t, ht, rfl⟩ := Option.map_eq_some_iff.mp hop
    dsimp only
    rw [handleHostRemove, requiredTarget, ht, runOperation]
    exact map_fst_bind_actor (actorRow db c.participantId) (hostRemove db · t now)
      fun _ => removal c t
  | hostEnd =>
    rw [hhandler] at hop
    obtain rfl := Option.some.inj hop
    dsimp only
    rw [handleHostEnd, runOperation]
    exact map_fst_bind_actor (actorRow db c.participantId) (hostEndMeeting db · now)
      fun _ => ending c

/-- A handler without an operation commits nothing. -/
theorem handle_none {db' : Db} {actions : List Action} (hop : inbound.operation c id now = none)
    (h : handle db r c inbound id now = .ok (db', actions)) : db' = db := by
  rcases handle_operation h with h | ⟨op, hsent, hrun⟩
  · exact h
  exfalso
  rw [Inbound.operation] at hop
  rw [handle] at h
  cases hhandler : inbound.handler with
  | ping =>
    rw [hhandler] at hsent
    cases op <;> simp [Operation.SentBy] at hsent
  | signal kind =>
    rw [hhandler] at hsent
    cases op <;> simp [Operation.SentBy] at hsent
  | chatSend =>
    rw [hhandler] at h hop
    obtain ⟨body, v, hbody, -⟩ := handleChatSend_eq_ok.mp h
    rw [hbody] at hop
    cases hop
  | hostMute =>
    rw [hhandler] at h hop
    obtain ⟨t, actor, v, ht, -⟩ := handleHostMute_eq_ok.mp h
    rw [ht] at hop
    cases hop
  | hostRemove =>
    rw [hhandler] at h hop
    obtain ⟨t, actor, v, ht, -⟩ := handleHostRemove_eq_ok.mp h
    rw [ht] at hop
    cases hop
  | _ =>
    rw [hhandler] at hop
    cases hop

theorem onMessage_fst {message : Json} : (onMessage db r c message id now).1 =
    db.applyAny (match readMessage message with
      | .ok inbound => inbound.operation c id now
      | .error _ => none) := by
  rw [onMessage]
  cases readMessage message with
  | error f => rfl
  | ok inbound =>
    dsimp only
    cases hop : inbound.operation c id now with
    | none =>
      cases h : handle db r c inbound id now with
      | error e => rfl
      | ok result => exact handle_none hop h
    | some op =>
      have hfst : (handle db r c inbound id now).map Prod.fst = runOperation db op := handle_fst hop
      show _ = db.apply op
      rw [Db.apply, ← hfst]
      cases handle db r c inbound id now <;> rfl

end Handlers

/-- A room's join commits what the request commits. -/
theorem postJoin_snd (n : Network) (userId : UserId) (meetingNumber : String) (req : JoinRequest)
    (draws : JoinDraws) (now : DateTime) :
    (n.postJoin userId meetingNumber req draws now).map Prod.snd =
      runOperation n.server.db (.request (.joinMeeting userId meetingNumber req draws now)) := by
  rw [Network.postJoin]
  show _ = currentUser n.server.db userId >>= _
  cases currentUser n.server.db userId with
  | error e => rfl
  | ok user =>
    show Except.map Prod.snd (joinMeeting n.server.db meetingNumber user req draws now) =
      (joinMeeting n.server.db meetingNumber user req draws now).commit
    cases joinMeeting n.server.db meetingNumber user req draws now <;> rfl

/-- **The database over an event.** -/
theorem Network.next_db {n : Network} (hv : n.server.Valid) (e : NetEvent) :
    (n.next e).server.db = n.server.db.applyAny (e.operation n) := by
  cases e with
  | request r => rfl
  | join userId meetingNumber inviteToken stream draws now c =>
    simp only [Network.next, NetEvent.operation]
    cases htask : n.tasks c with
    | some t => rfl
    | none =>
      cases hpost : n.postJoin userId meetingNumber
          ((MeetingRoom.mount meetingNumber inviteToken).join stream).2 draws now with
      | ok result => exact Network.postJoin_apply hpost
      | error e =>
        -- A join that is refused commits nothing.
        have hrun := postJoin_snd n userId meetingNumber
          ((MeetingRoom.mount meetingNumber inviteToken).join stream).2 draws now
        rw [hpost] at hrun
        show n.server.db = n.server.db.apply _
        rw [Db.apply, ← hrun]
        rfl
  | register c =>
    simp only [Network.next, NetEvent.operation]
    cases n.tasks c with
    | none => rfl
    | some t =>
      cases t with
      | accepting meeting participant =>
        obtain ⟨snapshot, -, -, heq⟩ := Network.acceptSocket_eq hv meeting participant c
        dsimp only
        rw [heq]
        rfl
      | _ => rfl
  | message c frame id now =>
    simp only [Network.next, NetEvent.operation]
    cases n.tasks c with
    | none => rfl
    | some t =>
      cases t with
      | handling connection down script =>
        cases down with
        | true => rfl
        | false =>
          cases script with
          | cons a script => rfl
          | nil =>
            dsimp only
            by_cases hc : connection ∈ n.server.registry.connections connection.meetingId
            · rw [if_pos hc, if_pos hc]
              exact onMessage_fst
            · rw [if_neg hc, if_neg hc]
              rfl
      | _ => rfl
  | disconnect c now =>
    simp only [Network.next, NetEvent.operation]
    cases n.tasks c with
    | none => rfl
    | some t =>
      cases t with
      | handling connection down script =>
        cases down with
        | true => rfl
        | false => cases script <;> rfl
      | _ => rfl
  -- The others only move tasks, wires and browsers.
  | reconnect p c =>
    simp only [Network.next, NetEvent.operation]
    split
    · split <;> rfl
    · rfl
  | authenticate c =>
    simp only [Network.next, NetEvent.operation]
    split
    · split <;> rfl
    · rfl
  | act c =>
    simp only [Network.next, NetEvent.operation]
    split <;> rfl
  | deliver p =>
    simp only [Network.next, NetEvent.operation]
    split
    · rfl
    · split <;> rfl
  | drop p =>
    simp only [Network.next, NetEvent.operation]
    split <;> rfl
  | leave p =>
    simp only [Network.next, NetEvent.operation]
    split <;> rfl

/-! ### Closed rows and cancelled meetings stay so -/

/-- The open rows belong to meetings that have not ended. -/
def Db.Vacated (db : Db) : Prop :=
  ∀ p ∈ db.participants, p.leftAt = none → ∀ m ∈ db.meetings, m.id = p.meetingId → m.status ≠ .ended

/-- A meeting that has ended had ended before, or all its rows are evicted. -/
theorem Change.ended_cases {db db' : Db} {op : Operation} (h : Change db op db') {m' : Meeting}
    (hm' : m' ∈ db'.meetings) (hended : m'.status = .ended) :
    (∃ m ∈ db.meetings, m.id = m'.id ∧ m.status = .ended) ∨ ∃ now, db' = db.endAll m'.id now := by
  have hsame (hmem : m' ∈ db.meetings) : ∃ m ∈ db.meetings, m.id = m'.id ∧ m.status = .ended :=
    ⟨m', hmem, rfl, hended⟩
  cases h with
  | aside h => exact .inl (hsame (h.meetings ▸ hm'))
  -- A meeting starts out scheduled or live.
  | created m hid hs hmeetings hp =>
    rw [hmeetings, Keyed.mem_insert] at hm'
    rcases hm' with hm' | rfl
    · exact .inl (hsame hm')
    · rcases hs with hs | hs <;> rw [hs] at hended <;> cases hended
  | edited id f hf hn hs =>
    obtain ⟨m, hm, rfl⟩ := Db.mem_updateMeetingRow.mp hm'
    refine .inl ⟨m, hm, ?_⟩
    split at hended
    · exact ⟨by rw [if_pos ‹_›, hf], (hs m).symm.trans hended⟩
    · exact ⟨by rw [if_neg ‹_›], hended⟩
  | cancelled n hn hs =>
    obtain ⟨m, hm, rfl⟩ := Db.mem_updateMeetingRow.mp hm'
    split at hended
    · cases hended
    · exact .inl ⟨m, hm, by rw [if_neg ‹_›], hended⟩
  | started n now hn hs =>
    obtain ⟨m, hm, rfl⟩ := Db.mem_updateMeetingRow.mp hm'
    split at hended
    · cases hended
    · exact .inl ⟨m, hm, by rw [if_neg ‹_›], hended⟩
  | ended n now hn =>
    obtain ⟨m, hm, rfl⟩ := mem_meetings_endAll.mp hm'
    split at hended
    -- The meeting that this very operation ends.
    · next hid => exact .inr ⟨now, by rw [if_pos hid, Meeting.finish_id, hid]; rfl⟩
    · exact .inl ⟨m, hm, by rw [if_neg ‹_›], hended⟩
  | joined n user req draws now hn hs hlt hid hsession hp hmeetings =>
    rw [hmeetings, Db.welcomeHost] at hm'
    split at hm'
    · obtain ⟨m, hm, rfl⟩ := Db.mem_updateMeetingRow.mp hm'
      split at hended
      · cases hended
      · exact .inl ⟨m, hm, by rw [if_neg ‹_›], hended⟩
    · exact .inl (hsame hm')
  | media P f hf he hl hc => exact .inl (hsame hm')
  | closed p now hp => exact .inl (hsame hm')
  | bound => exact .inl (hsame hm')

theorem vacated_apply {db : Db} (h : db.Vacated) (op : Operation) :
    (db.apply op).Vacated := by
  intro q hq hopen m' hm' hid hended
  rcases apply_change db op with heq | hchange
  · rw [heq] at hq hm'
    exact h q hq hopen m' hm' hid hended
  rcases hchange.ended_cases hm' hended with ⟨m, hm, hmid, hmended⟩ | ⟨now, heq⟩
  · rcases hchange.row_cases hq with ⟨p, hp, he⟩ | ⟨n, user, req, draws, now, hn, hs, rfl, -⟩
    · have hmeeting : m.id = p.meetingId := (hmid.trans hid).trans he.meetingId
      exact h p hp (he.open_of_open hopen) m hm hmeeting hmended
    · -- Nobody joins a meeting that has ended.
      obtain rfl := Keyed.eq_of_key_eq hm hn (hmid.trans hid)
      exact hs.1 hmended
  · rw [heq] at hq
    obtain ⟨p, -, rfl⟩ := mem_participants_endAll.mp hq
    split at hopen
    · cases hopen
    · next hkeep =>
      rw [if_neg hkeep] at hid
      exact hkeep ⟨hid.symm, hopen⟩

theorem vacated_empty : Db.empty.Vacated :=
  fun p hp => absurd hp (Keyed.not_mem_empty p)

/-- A session that is valid after an operation was valid before it. -/
theorem admits_of_apply {db : Db} {op : Operation} {p : ParticipantId} (hv : db.Valid)
    (hhosted : db.Hosted) (hvacated : db.Vacated) (hrow : p ∈ db.participants.keys)
    (h : (db.apply op).Admits p) : db.Admits p := by
  obtain ⟨q', hq', hid', hopen', m', hm', hmid', -, hcancelled'⟩ := h
  obtain ⟨q, hq, hid⟩ := Keyed.mem_keys.mp hrow
  obtain ⟨q₁, hq₁, he⟩ := row_apply hq op
  obtain rfl := Keyed.eq_of_key_eq hq' hq₁ (hid'.trans (hid.symm.trans he.id.symm))
  obtain ⟨m, hm, hmid⟩ := Keyed.mem_keys.mp (hv.meeting q hq)
  have hopen := he.open_of_open hopen'
  refine ⟨q, hq, hid, hopen, m, hm, hmid, hvacated q hq hopen m hm hmid, ?_⟩
  intro hcancelled
  have hmoves := moves_apply hm hm' (hmid'.trans (he.meetingId.trans hmid.symm))
  rcases hmoves.legal hhosted hm with hsame | htarget
  · exact hcancelled' (hsame.trans hcancelled)
  · -- Nothing follows `cancelled` in `TRANSITIONS`.
    rw [hcancelled] at htarget
    cases htarget

/-! ### From the check of a session to its use -/

/-- The operation goes through and ends the session of the participant. -/
def Operation.EndsSession (db : Db) (p : ParticipantId) (op : Operation) : Prop :=
  (∃ q ∈ db.participants, q.id = p ∧ op.Ends db q) ∧ ∃ db', runOperation db op = .ok db'

/-- **What ends a valid session.** -/
theorem admits_apply_iff {db : Db} (hv : db.Valid) {p : ParticipantId} (h : db.Admits p)
    (op : Operation) : (db.apply op).Admits p ↔ ¬ op.EndsSession db p := by
  have hadmits := h
  obtain ⟨q, hq, rfl, hopen, m, hm, hmid, hs⟩ := h
  cases hrun : runOperation db op with
  | error e =>
    rw [Db.apply, hrun]
    refine iff_of_true hadmits ?_
    rintro ⟨-, db', hok⟩
    rw [hrun] at hok
    cases hok
  | ok db' =>
    rw [apply_of_ok hrun, admits_iff_not_ends hq hopen hm hmid hs hv hrun]
    refine not_congr ⟨fun hends => ⟨⟨q, hq, rfl, hends⟩, db', hrun⟩, ?_⟩
    rintro ⟨⟨q', hq', hid, hends⟩, -⟩
    rwa [Keyed.eq_of_key_eq hq hq' hid.symm]

namespace Network

/-- The event ends the session of the participant. -/
def Interrupts (n : Network) (e : NetEvent) (p : ParticipantId) : Prop :=
  ∃ op, e.operation n = some op ∧ op.EndsSession n.server.db p

/-- The invariants under which a session that ended stays so. -/
structure Sound (n : Network) : Prop where
  valid : n.Valid
  hosted : n.server.db.Hosted
  vacated : n.server.db.Vacated

theorem sound_init : ({} : Network).Sound := ⟨valid_init, hosted_empty, vacated_empty⟩

theorem Sound.next {n : Network} (h : n.Sound) (e : NetEvent) : (n.next e).Sound := by
  have hdb := next_db h.valid.server e
  cases hop : e.operation n with
  | none =>
    rw [hop] at hdb
    refine ⟨h.valid.next e, ?_, ?_⟩ <;> rw [hdb]
    · exact h.hosted
    · exact h.vacated
  | some op =>
    rw [hop] at hdb
    refine ⟨h.valid.next e, ?_, ?_⟩ <;> rw [hdb]
    · exact hosted_apply h.valid.server.db h.hosted op
    · exact vacated_apply h.vacated op

theorem always_sound (events : List NetEvent) : Runs.Always next Sound {} events :=
  Runs.always_of_step sound_init (fun _ e h => h.next e) events

section Session

variable {n : Network} {p : ParticipantId}

theorem admits_next_iff (hn : n.Sound) (h : n.server.db.Admits p) (e : NetEvent) :
    (n.next e).server.db.Admits p ↔ ¬ n.Interrupts e p := by
  rw [next_db hn.valid.server, Interrupts]
  cases hop : e.operation n with
  | none => exact iff_of_true h (by rintro ⟨op, hop, -⟩; cases hop)
  | some op =>
    refine (admits_apply_iff hn.valid.server.db h op).trans
      (not_congr ⟨fun hends => ⟨op, rfl, hends⟩, ?_⟩)
    rintro ⟨op', hop', hends⟩
    cases hop'
    exact hends

theorem admits_of_next (hn : n.Sound) (hrow : p ∈ n.server.db.participants.keys) {e : NetEvent}
    (h : (n.next e).server.db.Admits p) : n.server.db.Admits p := by
  rw [next_db hn.valid.server] at h
  cases hop : e.operation n with
  | none => rwa [hop] at h
  | some op =>
    rw [hop] at h
    exact admits_of_apply hn.valid.server.db hn.hosted hn.vacated hrow h

theorem mem_keys_next (hn : n.Sound) (hrow : p ∈ n.server.db.participants.keys) (e : NetEvent) :
    p ∈ (n.next e).server.db.participants.keys := by
  obtain ⟨q, hq, rfl⟩ := Keyed.mem_keys.mp hrow
  rcases next_cases hn.valid.server e with h | h
  · rwa [h]
  · obtain ⟨q', hq', he⟩ := h.rows hq
    exact he.id ▸ Keyed.key_mem_keys hq'

/-- **A session stays valid exactly while nothing ends it.** -/
theorem admits_run_iff (hn : n.Sound) (h : n.server.db.Admits p) (mid : List NetEvent) :
    (Runs.run next n mid).server.db.Admits p ↔
      Runs.Guarded next (fun n e => ¬ n.Interrupts e p) n mid := by
  have hrow : p ∈ n.server.db.participants.keys := by
    obtain ⟨q, hq, rfl, -⟩ := h
    exact Keyed.key_mem_keys hq
  induction mid using List.reverseRecOn with
  | nil => exact iff_of_true h Runs.guarded_nil
  | append_singleton mid e ih =>
    have hmid : (Runs.run next n mid).Sound ∧
        p ∈ (Runs.run next n mid).server.db.participants.keys :=
      (Runs.always_of_step (I := fun n : Network => n.Sound ∧ p ∈ n.server.db.participants.keys)
        ⟨hn, hrow⟩ (fun n e h => ⟨h.1.next e, mem_keys_next h.1 h.2 e⟩) mid).last
    rw [Runs.guarded_concat, Runs.run_concat]
    constructor
    · intro hlast
      have hbefore := admits_of_next hmid.1 hmid.2 hlast
      exact ⟨ih.mp hbefore, (admits_next_iff hmid.1 hbefore e).mp hlast⟩
    · rintro ⟨hguarded, he⟩
      exact (admits_next_iff hmid.1 (ih.mpr hguarded) e).mpr he

/-- `authenticate` lets through valid sessions only. -/
theorem admits_of_accepting {c : ConnectionId} {url : SignalingUrl} {meeting : Meeting}
    {participant : Participant} (hrequested : n.tasks c = some (.requested url))
    (hchecked : (n.next (.authenticate c)).tasks c = some (.accepting meeting participant)) :
    (n.next (.authenticate c)).server.db.Admits participant.id := by
  simp only [next, hrequested] at hchecked ⊢
  cases hauth : ZoomClone.authenticate n.server.db url.meetingNumber url.sessionId with
  | error e => simp [hauth, setTask] at hchecked
  | ok result =>
    obtain ⟨m, q⟩ := result
    simp only [hauth, setTask, Function.update_self] at hchecked
    cases hchecked
    obtain ⟨hp, hm, -, hs, hopen⟩ := authenticate_eq_ok.mp hauth
    exact ⟨_, participantBySession_mem hp, rfl, hopen, _, getMeeting_mem hm,
      Keyed.key_of_find? hm, hs⟩

/-- A waiting socket is bound to its row, and nothing else changes. -/
theorem register_admits {c : ConnectionId} {meeting : Meeting} {participant : Participant}
    (hn : n.Sound) (hwaiting : n.tasks c = some (.accepting meeting participant)) :
    (∃ q ∈ (n.next (.register c)).server.db.participants,
        q.id = participant.id ∧ q.connectionId = some c) ∧
      ((n.next (.register c)).server.db.Admits participant.id ↔
      n.server.db.Admits participant.id) := by
  have hop : NetEvent.operation n (.register c) = some (.bindConnection participant.id c) := by
    rw [NetEvent.operation, hwaiting]
  have hdb : (n.next (.register c)).server.db = bindConnection n.server.db participant.id c := by
    rw [next_db hn.valid.server, hop]
    rfl
  obtain ⟨q, hq, hid, -⟩ := hn.valid.accepting c meeting participant hwaiting
  constructor
  · have hmem {r : Participant} : r ∈ (bindConnection n.server.db participant.id c).participants ↔
        ∃ q ∈ n.server.db.participants, (if q.id = participant.id then q.bindTo c else q) = r :=
      List.mem_map
    exact ⟨q.bindTo c, hdb ▸ hmem.mpr ⟨q, hq, if_pos hid⟩, hid, rfl⟩
  · constructor
    · exact admits_of_next hn (hid ▸ Keyed.key_mem_keys hq)
    · intro h
      refine (admits_next_iff hn h (.register c)).mpr ?_
      rintro ⟨op, hop', ⟨q', -, -, hends⟩, -⟩
      rw [hop] at hop'
      cases hop'
      exact hends

end Session

/-- **Sockets admitted on a valid session.**  A socket that passed `authenticate`
and is still waiting for its handshake is bound to its row, whatever has become of
the row; the session is valid then exactly when nothing has ended it since. -/
theorem admitted_iff (pre mid : List NetEvent) (c : ConnectionId) (url : SignalingUrl)
    (meeting : Meeting) (participant : Participant)
    (hrequested : (Runs.run next {} pre).tasks c = some (.requested url))
    (hchecked : (Runs.run next {} (pre ++ [.authenticate c])).tasks c =
      some (.accepting meeting participant))
    (hwaiting : (Runs.run next {} (pre ++ .authenticate c :: mid)).tasks c =
      some (.accepting meeting participant)) :
    (∃ q ∈ (Runs.run next {}
      (pre ++ .authenticate c :: mid ++ [.register c])).server.db.participants,
        q.id = participant.id ∧ q.connectionId = some c) ∧
      ((Runs.run next {} (pre ++ .authenticate c :: mid ++ [.register c])).server.db.Admits
          participant.id ↔
        Runs.Guarded next (fun n e => ¬ n.Interrupts e participant.id)
          (Runs.run next {} (pre ++ [.authenticate c])) mid) := by
  have hsound := (always_sound (pre ++ .authenticate c :: mid)).last
  have hadmits : (Runs.run next {} (pre ++ [.authenticate c])).server.db.Admits participant.id := by
    rw [Runs.run_concat] at hchecked ⊢
    exact admits_of_accepting hrequested hchecked
  have hstays := admits_run_iff (always_sound (pre ++ [.authenticate c])).last hadmits mid
  have hmid : Runs.run next (Runs.run next {} (pre ++ [.authenticate c])) mid =
      Runs.run next {} (pre ++ .authenticate c :: mid) := by
    rw [Runs.run_append, Runs.run_append, Runs.run_cons, Runs.run_cons, Runs.run_nil]
  rw [hmid] at hstays
  rw [Runs.run_concat, ← hstays]
  exact register_admits hsound hwaiting

/-- The guest asks for a socket. -/
def guestAsks : List NetEvent :=
  openRequests.map .request ++ [.join "guest" "10000000003" (some "tok") none ⟨"1", "s1"⟩ 20 "c1"]

/-- The rows a task waits with. -/
def waitsWith : Option SocketTask → Option (Meeting × Participant)
  | some (.accepting meeting participant) => some (meeting, participant)
  | _ => none

theorem accepting_of_waitsWith {t : Option SocketTask} {m : Meeting} {p : Participant}
    (h : waitsWith t = some (m, p)) : t = some (.accepting m p) := by
  unfold waitsWith at h
  split at h
  · cases h
    rfl
  · cases h

/-- The socket of the guest passes `authenticate`, and waits with its row. -/
theorem guest_waits : ∃ url m p, (Runs.run next {} guestAsks).tasks "c1" = some (.requested url) ∧
    (Runs.run next {} (guestAsks ++ [.authenticate "c1"])).tasks "c1" = some (.accepting m p) ∧
    p.id = "1" := by
  have h : ((waitsWith ((Runs.run next {} (guestAsks ++ [.authenticate "c1"])).tasks "c1")).map
      fun rows => rows.2.id) = some "1" := by decide +kernel
  obtain ⟨⟨m, p⟩, hrows, hid⟩ := Option.map_eq_some_iff.mp h
  exact ⟨⟨"10000000003", "s1"⟩, m, p, by rfl, accepting_of_waitsWith hrows, hid⟩

/-- Another guest signs in while the socket waits. -/
theorem admitted_iff_guest : ∃ p : Participant, p.id = "1" ∧
    (∃ q ∈ (Runs.run next {} (guestAsks ++ .authenticate "c1" ::
        [.request (.signInGuest "Eve" ⟨"eve", "e5e", fun _ => (0, 4)⟩)] ++
          [.register "c1"])).server.db.participants, q.id = p.id ∧ q.connectionId = some "c1") ∧
      ((Runs.run next {} (guestAsks ++ .authenticate "c1" ::
          [.request (.signInGuest "Eve" ⟨"eve", "e5e", fun _ => (0, 4)⟩)] ++
            [.register "c1"])).server.db.Admits p.id ↔
        Runs.Guarded next (fun n e => ¬ n.Interrupts e p.id)
          (Runs.run next {} (guestAsks ++ [.authenticate "c1"]))
          [.request (.signInGuest "Eve" ⟨"eve", "e5e", fun _ => (0, 4)⟩)]) := by
  obtain ⟨url, m, p, hrequested, hchecked, hid⟩ := guest_waits
  refine ⟨p, hid, admitted_iff guestAsks _ "c1" url m p hrequested hchecked ?_⟩
  have hsplit (tail : List NetEvent) : guestAsks ++ .authenticate "c1" :: tail =
      guestAsks ++ [.authenticate "c1"] ++ tail := by simp
  rw [hsplit, Runs.run_append]
  exact hchecked

/-- The host removes the guest while its socket waits: the socket is bound to a
closed row. -/
theorem admitted_removed : ¬ ∀ (pre mid : List NetEvent) (c : ConnectionId) (url : SignalingUrl)
    (meeting : Meeting) (participant : Participant),
    (Runs.run next {} pre).tasks c = some (.requested url) →
    (Runs.run next {} (pre ++ [.authenticate c])).tasks c = some (.accepting meeting participant) →
    (Runs.run next {} (pre ++ .authenticate c :: mid)).tasks c =
      some (.accepting meeting participant) →
    (Runs.run next {} (pre ++ .authenticate c :: mid ++ [.register c])).server.db.Admits
      participant.id := by
  intro h
  obtain ⟨url, m, p, hrequested, hchecked, hid⟩ := guest_waits
  have hsplit (tail : List NetEvent) : guestAsks ++ .authenticate "c1" :: tail =
      guestAsks ++ [.authenticate "c1"] ++ tail := by simp
  obtain ⟨q, hq, hqid, hopen, -⟩ := h guestAsks [.request (.removeParticipant "host" "1" 30)] "c1"
    url m p hrequested hchecked (by rw [hsplit, Runs.run_append]; exact hchecked)
  have hclosed : ∀ q ∈ (Runs.run next {} (guestAsks ++ .authenticate "c1" ::
      [.request (.removeParticipant "host" "1" 30)] ++ [.register "c1"])).server.db.participants,
      q.id = "1" → q.leftAt ≠ none := by decide +kernel
  exact hclosed q hq (hqid.trans hid) hopen

end Network

end ZoomClone
