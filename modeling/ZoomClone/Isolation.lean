/-
Rooms are isolated.

A handler takes ids that the client chose, and each kind of id is checked in its
own place: signal targets in the registry of the room, host targets against the
actor's meeting, a chat post against the membership of its sender.  Together with
the invariant that a socket and its row belong to one meeting:

* `sentBy_sameOutside` — what a handler writes stays in the meeting of its socket;
* `onMessage_inRoom`, `performAll_inRoom` — so does what it sends;
* `rooms_isolated` — both, for every frame in every reachable state.
-/
import ZoomClone.Server

namespace ZoomClone

/-! ### What a message writes -/

/-- The two databases agree on the rows of all meetings but one. -/
structure Db.SameOutside (m : MeetingId) (db db' : Db) : Prop where
  meetings : (db'.meetings.rows.filter fun n => n.id ≠ m) = db.meetings.rows.filter
    fun n => n.id ≠ m
  participants : (db'.participants.rows.filter fun p => p.meetingId ≠ m) =
    db.participants.rows.filter fun p => p.meetingId ≠ m
  chatMessages : (db'.chatMessages.rows.filter fun c => c.meetingId ≠ m) =
    db.chatMessages.rows.filter fun c => c.meetingId ≠ m

theorem Db.SameOutside.refl (m : MeetingId) (db : Db) : SameOutside m db db := ⟨rfl, rfl, rfl⟩

/-- Rows that are changed in place, all of them under one key, leave the rows under
the other keys as they are. -/
theorem filter_map_eq {α κ : Type} [DecidableEq κ] {key : α → κ} {k : κ} {f : α → α} {rows : List α}
    (hkey : ∀ a ∈ rows, key (f a) = key a) (hf : ∀ a ∈ rows, key a ≠ k → f a = a) :
    ((rows.map f).filter fun a => key a ≠ k) = rows.filter fun a => key a ≠ k := by
  induction rows with
  | nil => rfl
  | cons a rows ih =>
    have ih := ih (fun b hb => hkey b (List.mem_cons_of_mem a hb))
      fun b hb => hf b (List.mem_cons_of_mem a hb)
    have hsame := hkey a List.mem_cons_self
    rw [List.map_cons, List.filter_cons, List.filter_cons, ih, hsame]
    by_cases hk : key a = k
    · simp [hk]
    · rw [hf a List.mem_cons_self hk]

section Writes

variable {db db' : Db} {m : MeetingId}

theorem sameOutside_updateRows {P : Participant → Prop} [DecidablePred P]
    {f : Participant → Participant} (hf : ∀ p, (f p).id = p.id)
    (hmeeting : ∀ p, (f p).meetingId = p.meetingId)
    (hP : ∀ p ∈ db.participants, P p → p.meetingId = m) :
    db.SameOutside m (db.updateRows P f hf) := by
  refine ⟨rfl, filter_map_eq ?_ ?_, rfl⟩
  · intro p _
    split
    · exact hmeeting p
    · rfl
  · intro p hp hne
    exact if_neg fun h => hne (hP p hp h)

theorem sameOutside_updateRow {f : Participant → Participant} (hf : ∀ p, (f p).id = p.id)
    (hmeeting : ∀ p, (f p).meetingId = p.meetingId) {q : Participant} (hq : q ∈ db.participants)
    (hqm : q.meetingId = m) : db.SameOutside m (db.updateRow q.id f hf) := by
  refine sameOutside_updateRows hf hmeeting ?_
  intro p hp hid
  rw [Keyed.eq_of_key_eq hp hq hid]
  exact hqm

theorem sameOutside_endAll (now : DateTime) :
    db.SameOutside m
      ((db.updateMeetingRow m (·.finish now) (Meeting.finish_id · now)).evictAll m now) := by
  have hrows : Db.SameOutside m (db.updateMeetingRow m (·.finish now) (Meeting.finish_id · now))
      ((db.updateMeetingRow m (·.finish now) (Meeting.finish_id · now)).evictAll m now) :=
    sameOutside_updateRows (Participant.evict_id · now) (fun _ => rfl) fun p _ h => h.1
  refine ⟨filter_map_eq ?_ ?_, hrows.participants, rfl⟩
  · intro n _
    split <;> rfl
  · intro n _ hne
    exact if_neg hne

theorem sameOutside_insertMessage {c : ChatMessage} (h : db.insertMessage c = .ok db')
    (hm : c.meetingId = m) : db.SameOutside m db' := by
  obtain ⟨hid, rfl⟩ := Db.insertMessage_eq_ok.mp h
  refine ⟨rfl, rfl, ?_⟩
  rw [Keyed.rows_insert, List.filter_append]
  simp [hm]

/-- A handler writes rows of the meeting of its socket only. -/
theorem sentBy_sameOutside {c : Connection} {handler : Handler} {op : Operation}
    (hop : op.SentBy c handler) (hrow : ∀ p, db.getParticipant c.participantId = some p →
      p.meetingId = c.meetingId) (h : runOperation db op = .ok db') :
        db.SameOutside c.meetingId db' := by
  have htarget {actor t : Participant} {targetId : ParticipantId}
      (hactor : db.getParticipant c.participantId = some actor)
      (ht : targetRow db actor targetId = .ok t) :
    t ∈ db.participants ∧ t.meetingId = c.meetingId := by
    obtain ⟨hget, hmeeting⟩ := targetRow_eq_ok.mp ht
    exact ⟨getParticipant_mem hget, hmeeting.trans (hrow actor hactor)⟩
  cases runOperation_commits h with
  | @applyStateUpdate _ changes p hp =>
    obtain ⟨-, rfl⟩ := hop
    exact sameOutside_updateRow (Participant.applyMedia_id · changes) (fun _ => rfl)
      (getParticipant_mem hp) (hrow p hp)
  | postMessage h =>
    obtain ⟨-, rfl, rfl⟩ := hop
    obtain ⟨-, p, -, -, hins, -⟩ := postMessage_eq_ok.mp h
    exact sameOutside_insertMessage hins rfl
  | hostMute actor t m hactor hm ht =>
    obtain ⟨-, rfl⟩ := hop
    obtain ⟨hmem, hmeeting⟩ := htarget (actorRow_eq_ok.mp hactor) ht
    exact sameOutside_updateRow Participant.mute_id (fun _ => rfl) hmem hmeeting
  | hostMuteAll actor m hactor =>
    obtain ⟨-, rfl⟩ := hop
    refine sameOutside_updateRows Participant.mute_id (fun _ => rfl) ?_
    rintro p - ⟨hmeeting, -⟩
    exact hmeeting.trans (hrow actor (actorRow_eq_ok.mp hactor))
  | @hostRemove _ _ now actor t m hactor hm ht =>
    obtain ⟨-, rfl⟩ := hop
    obtain ⟨hmem, hmeeting⟩ := htarget (actorRow_eq_ok.mp hactor) ht
    exact sameOutside_updateRow (Participant.markLeft_id · now) (fun _ => rfl) hmem hmeeting
  | @hostEndMeeting _ now actor n hactor hn =>
    obtain ⟨-, rfl⟩ := hop
    -- The meeting that ends is the one of the acting row.
    have hid : n.id = c.meetingId := by
      rw [← hrow actor (actorRow_eq_ok.mp hactor)]
      exact Keyed.key_of_find? (requireHost_eq_ok.mp hn).1
    rw [← hid]
    exact sameOutside_endAll now
  | _ => exact hop.elim

/-- What a message leaves in the database of the other rooms. -/
theorem onMessage_sameOutside {r : RoomRegistry} {c : Connection} {message : Json} {id : String}
    {now : DateTime} (hrow : ∀ p, db.getParticipant c.participantId = some p →
      p.meetingId = c.meetingId) :
    db.SameOutside c.meetingId (onMessage db r c message id now).1 := by
  rcases onMessage_operation db r c message id now with h | ⟨inbound, op, -, hop, h⟩
  · rw [h]
    exact .refl _ db
  · rw [h, Db.apply]
    cases hrun : runOperation db op with
    | error e => exact .refl _ db
    | ok db' => exact sentBy_sameOutside hop hrow hrun

end Writes

/-! ### What a message sends -/

/-- A frame that answers the client itself. -/
def Frame.IsReply (f : Frame) : Prop :=
  match f.body with
  | .error _ _ _ => True
  | .pong => True
  | _ => False

/-- The action stays in the room of the socket: it answers the socket itself, or
it goes to the room under the socket's participant id. -/
def Action.InRoom (c : Connection) : Action → Prop
  | .send d f => d = c ∧ f.IsReply
  | .sendToParticipant m _ f => m = c.meetingId ∧ f.sender = some c.participantId
  | .broadcast m f _ => m = c.meetingId ∧ f.sender = some c.participantId
  | .closeConnection d _ => d = c
  | .closeParticipant m _ _ => m = c.meetingId
  | .closePeers m _ _ => m = c.meetingId

/-- What is put on a wire: on one of the room, and a frame carries the sender's
participant id unless it answers the sender. -/
structure Delivery.InRoom (r : RoomRegistry) (c : Connection) (d : Delivery) : Prop where
  connection : d.connection ∈ r.connections c.meetingId
  sender : ∀ f, d.item = .frame f →
    f.sender = some c.participantId ∨ (d.connection = c ∧ f.IsReply)

theorem failureFrame_isReply (e : Raised) : (failureFrame e).IsReply := by
  cases e <;> trivial

theorem readMessage_isReply {message : Json} {f : Frame} (h : readMessage message = .error f) :
    f.IsReply := by
  unfold readMessage at h
  dsimp only at h
  split at h
  · split at h
    · split at h
      · cases h
      · obtain rfl := Except.error.inj h
        trivial
    · obtain rfl := Except.error.inj h
      trivial
  · obtain rfl := Except.error.inj h
    trivial

section Sends

variable {db db' : Db} {r : RoomRegistry} {c : Connection} {id : String} {now : DateTime}

theorem handle_inRoom {inbound : Inbound} {actions : List Action}
    (h : handle db r c inbound id now = .ok (db', actions)) : ∀ a ∈ actions, a.InRoom c := by
  unfold handle at h
  split at h
  · obtain ⟨-, rfl⟩ := Prod.mk.inj (Except.ok.inj h)
    simp [Action.InRoom, Frame.IsReply]
  · obtain ⟨t, -, -, -, rfl⟩ := handleSignal_eq_ok.mp h
    simp [Action.InRoom, relayed]
  · obtain ⟨v, -, rfl⟩ := handleStateUpdate_eq_ok.mp h
    simp [Action.InRoom, peerUpdated]
  · obtain ⟨body, v, -, -, rfl⟩ := handleChatSend_eq_ok.mp h
    simp [Action.InRoom, chatMessage]
  · obtain ⟨t, actor, v, -, -, -, rfl⟩ := handleHostMute_eq_ok.mp h
    simp [Action.InRoom, mutedYou, peerUpdated]
  · obtain ⟨actor, vs, -, -, rfl⟩ := handleHostMuteAll_eq_ok.mp h
    intro a ha
    obtain ⟨v, -, ha⟩ := List.mem_flatMap.mp ha
    simp only [List.mem_cons, List.not_mem_nil, or_false] at ha
    rcases ha with rfl | rfl <;> exact ⟨rfl, rfl⟩
  · obtain ⟨t, actor, v, -, -, -, rfl⟩ := handleHostRemove_eq_ok.mp h
    simp [Action.InRoom, removal, peerLeft]
  · obtain ⟨actor, v, -, -, rfl⟩ := handleHostEnd_eq_ok.mp h
    simp [Action.InRoom, ending]

theorem onMessage_inRoom {message : Json} :
    ∀ a ∈ (onMessage db r c message id now).2, a.InRoom c := by
  unfold onMessage
  split
  · next answer hread =>
    intro a ha
    rw [List.mem_singleton.mp ha]
    exact ⟨rfl, readMessage_isReply hread⟩
  · split
    · next result hhandle => exact handle_inRoom hhandle
    · next e herror =>
      intro a ha
      rw [List.mem_singleton.mp ha]
      exact ⟨rfl, failureFrame_isReply e⟩

/-- A close carries no frame. -/
theorem closed_inRoom {d : Connection} {code : ℕ} (hd : d ∈ r.connections c.meetingId) :
    Delivery.InRoom r c ⟨d, .close code⟩ where
  connection := hd
  sender := by
    intro f hf
    cases hf

/-- One action, at a moment when some sockets of the room may have gone. -/
theorem perform_inRoom {r' : RoomRegistry} (hc : c ∈ r.connections c.meetingId)
    (hsub : ∀ d ∈ r'.connections c.meetingId, d ∈ r.connections c.meetingId) {a : Action}
    (ha : a.InRoom c) : ∀ d ∈ (perform r' a).2, d.InRoom r c := by
  cases a with
  | send e f =>
    obtain ⟨rfl, hreply⟩ := ha
    intro d hd
    rw [List.mem_singleton.mp hd]
    refine ⟨hc, ?_⟩
    intro g hg
    obtain rfl := WireItem.frame.inj hg
    exact .inr ⟨rfl, hreply⟩
  | sendToParticipant m p f =>
    obtain ⟨rfl, hsender⟩ := ha
    intro d hd
    obtain ⟨e, he, rfl⟩ := List.mem_map.mp hd
    refine ⟨hsub e (RoomRegistry.find_mem (Option.mem_toList.mp he)).1, ?_⟩
    intro g hg
    obtain rfl := WireItem.frame.inj hg
    exact .inl hsender
  | broadcast m f exclude =>
    obtain ⟨rfl, hsender⟩ := ha
    intro d hd
    obtain ⟨e, he, rfl⟩ := List.mem_map.mp hd
    refine ⟨hsub e (List.mem_filter.mp he).1, ?_⟩
    intro g hg
    obtain rfl := WireItem.frame.inj hg
    exact .inl hsender
  | closeConnection e code =>
    obtain rfl := ha
    intro d hd
    rw [perform, closeConnection, List.mem_singleton] at hd
    rw [hd]
    exact closed_inRoom hc
  | closeParticipant m p code =>
    obtain rfl := ha
    intro d hd
    rw [perform] at hd
    split at hd
    · exact absurd hd List.not_mem_nil
    · next e hfind =>
      rw [closeConnection, List.mem_singleton] at hd
      rw [hd]
      exact closed_inRoom (hsub e (RoomRegistry.find_mem hfind).1)
  | closePeers m exclude code =>
    obtain rfl := ha
    intro d hd
    obtain ⟨e, he, rfl⟩ := List.mem_map.mp hd
    exact closed_inRoom (hsub e (List.mem_filter.mp he).1)

/-- Actions only take sockets out of a room, so the deliveries of all of them stay
in the room as it was before the first. -/
theorem performAll_inRoom {r' : RoomRegistry} (hc : c ∈ r.connections c.meetingId)
    (hsub : ∀ d ∈ r'.connections c.meetingId, d ∈ r.connections c.meetingId) {actions : List Action}
    (h : ∀ a ∈ actions, a.InRoom c) : ∀ d ∈ (performAll r' actions).2, d.InRoom r c := by
  induction actions generalizing r' with
  | nil => exact fun d hd => absurd hd List.not_mem_nil
  | cons a actions ih =>
    intro d hd
    rcases List.mem_append.mp hd with hd | hd
    · exact perform_inRoom hc hsub (h a List.mem_cons_self) d hd
    · exact ih (fun e he => hsub e (perform_sub he))
        (fun b hb => h b (List.mem_cons_of_mem a hb)) d hd

end Sends

/-! ### Reachable states -/

/-- **Rooms are isolated.**  In every reachable state, a frame on a registered
socket changes no row of another meeting, and all it sends stays in the room of
the socket under the socket's participant id. -/
theorem rooms_isolated (events : List Event) {c : Connection} {m : MeetingId}
    (hc : c ∈ (Runs.run Server.next {} events).registry.connections m)
    (message : Json) (id : String)
    (now : DateTime) :
    (Runs.run Server.next {} events).db.SameOutside m
        (Runs.run Server.next {} (events ++ [.message c message id now])).db ∧
      ∀ d ∈ ((Runs.run Server.next {} events).step (.message c message id now)).2,
        d.connection ∈ (Runs.run Server.next {} events).registry.connections m ∧
          ∀ f, d.item = .frame f →
            f.sender = some c.participantId ∨ (d.connection = c ∧ f.IsReply) := by
  have hvalid := (Server.always_valid events).last
  rw [Runs.run_concat]
  generalize Runs.run Server.next {} events = s at hc hvalid
  obtain ⟨rfl, hsocket⟩ := hvalid.registered m c hc
  have hrow (p : Participant) (hp : s.db.getParticipant c.participantId = some p) :
      p.meetingId = c.meetingId := by
    obtain ⟨q, hq, hid, hmeeting⟩ := hvalid.row c hsocket
    rw [Keyed.eq_of_key_eq (getParticipant_mem hp) hq ((Keyed.key_of_find? hp).trans hid.symm)]
    exact hmeeting
  rw [Server.next, Server.step]
  simp only [hc, if_true]
  refine ⟨onMessage_sameOutside hrow, ?_⟩
  intro d hd
  have hroom := performAll_inRoom hc (fun d hd => hd) onMessage_inRoom d hd
  exact ⟨hroom.connection, hroom.sender⟩

/-- A guest who names a participant of another meeting. -/
theorem rooms_isolated_guest :
    Db.SameOutside "m" (Runs.run Server.next {} (openMeeting ++ enter "1")).db
      (Runs.run Server.next {} (openMeeting ++ enter "1" ++
        [.message ⟨"c1", "1", "m"⟩ (.obj [("type", .str "host.remove"),
          ("payload", .obj [("participant_id", .str "elsewhere")])]) "" 30])).db :=
  (rooms_isolated (openMeeting ++ enter "1") (by decide +kernel) _ "" 30).1

end ZoomClone
