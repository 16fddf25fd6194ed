/-
What the browsers of a meeting show of each other.

A browser shows the rows of its first `room.state`, and what `peer.joined` and
`peer.left` have made of them since.  The snapshot lists the open rows of the
database; the two frames follow the sockets.  A row that was opened over REST and
has no socket, and one that was closed over REST, make the difference.

* `Rosters.next` — the server, with all that was ever sent to each socket;
* `Rosters.tell` — what the events of a meeting tell its sockets;
* `same_room_iff` — all browsers show the same participants, throughout, exactly when
  nobody enters an occupied room whose open rows are not those it was told of.
-/
import ZoomClone.Broadcasts
import ZoomClone.Eviction
import ZoomClone.Isolation

namespace ZoomClone

/-! ### What a browser shows -/

/-- The frame changes who is shown. -/
def FrameBody.counts : FrameBody → Bool
  | .roomState _ => true
  | .peerJoined _ => true
  | .peerLeft _ => true
  | .hostRemovedYou _ => true
  | .meetingEnded _ => true
  | _ => false

/-- The item changes who is shown. -/
def WireItem.counts : WireItem → Bool
  | .frame f => f.body.counts
  | .close _ => false

theorem MeetingStore.keys_patchParticipant (s : MeetingStore)
    (p : ParticipantId) (changes : MediaPatch) :
    (s.patchParticipant p changes).participants.keys = s.participants.keys := by
  rw [patchParticipant]
  split
  · simp only [Keyed.keys_modify]
  · rfl

namespace MeetingRoom

/-- The participants in the store. -/
def shown (room : MeetingRoom) : List ParticipantId := room.store.participants.keys

/-- The room after everything on its socket was handled. -/
def handled (room : MeetingRoom) (items : List WireItem) : MeetingRoom := items.foldl receive room

variable {room : MeetingRoom} {q : ParticipantId}

theorem handled_append (room : MeetingRoom) (items items' : List WireItem) :
    room.handled (items ++ items') = (room.handled items).handled items' :=
  List.foldl_append

theorem shown_receive_of_not_counts {item : WireItem} (h : item.counts = false) :
    (room.receive item).shown = room.shown := by
  cases item with
  | close code => rfl
  | frame f =>
    rw [WireItem.counts] at h
    rw [receive, handleFrame]
    cases hbody : f.body with
    | peerUpdated p isMuted isVideoOn isHandRaised => exact MeetingStore.keys_patchParticipant ..
    | signal kind payload => cases f.sender <;> rfl
    | chatMessage message =>
      show ((room.opened.store.addMessage message).participants.keys) = room.store.participants.keys
      rw [MeetingStore.addMessage]
      split <;> rfl
    | hostMutedYou sentBy => rfl
    | error code message details => rfl
    | pong => rfl
    | _ =>
      rw [hbody] at h
      cases h

/-- Items that change nobody. -/
theorem shown_handled_of_not_counts {items : List WireItem} (h : ∀ i ∈ items, i.counts = false) :
    (room.handled items).shown = room.shown := by
  induction items generalizing room with
  | nil => rfl
  | cons item items ih =>
    obtain ⟨hitem, hitems⟩ := List.forall_mem_cons.mp h
    exact (ih hitems).trans (shown_receive_of_not_counts hitem)

/-- A snapshot replaces what was shown. -/
theorem mem_shown_roomState {f : Frame} {snapshot : RoomSnapshot}
    (h : f.body = .roomState snapshot) :
    q ∈ (room.receive (.frame f)).shown ↔ q ∈ snapshot.participants.map ParticipantView.id := by
  rw [receive, handleFrame, h]
  dsimp only [onRoomState, shown]
  rw [MeetingStore.keys_patchParticipant]
  exact Keyed.mem_keys_foldl_set.trans (or_iff_right List.not_mem_nil)

theorem mem_shown_peerJoined {f : Frame} {v : ParticipantView} (h : f.body = .peerJoined v) :
    q ∈ (room.receive (.frame f)).shown ↔ q ∈ room.shown ∨ q = v.id := by
  rw [receive, handleFrame, h]
  exact Keyed.mem_keys_set

theorem mem_shown_peerLeft {f : Frame} {p : ParticipantId} (h : f.body = .peerLeft p) :
    q ∈ (room.receive (.frame f)).shown ↔ q ∈ room.shown ∧ q ≠ p := by
  rw [receive, handleFrame, h]
  exact Keyed.mem_keys_erase

theorem mem_shown_meetingEnded {f : Frame} {sentBy : ParticipantId}
    (h : f.body = .meetingEnded sentBy) :
    q ∉ (room.receive (.frame f)).shown := by
  rw [receive, handleFrame, h]
  exact List.not_mem_nil

end MeetingRoom

/-! ### What the events of a meeting tell -/

/-- The server, and everything that was put on each socket. -/
structure Rosters where
  server : Server := {}
  sent : ConnectionId → List WireItem := fun _ => []
  /-- The participants that the sockets of a meeting have been told of. -/
  known : MeetingId → List ParticipantId := fun _ => []

namespace Rosters

/-- A participant is known to have gone. -/
def forget (n : Rosters) (m : MeetingId) (p : ParticipantId) : MeetingId → List ParticipantId :=
  Function.update n.known m ((n.known m).filter (· ≠ p))

/-- What an event tells: the first socket of a room learns the open rows, a further one
is announced, and who is removed or loses its own socket is known to have gone. -/
def tell (n : Rosters) : Event → MeetingId → List ParticipantId
  | .request _ => n.known
  | .connect meetingNumber sessionId c =>
    match authenticate n.server.db meetingNumber sessionId with
    | .ok (meeting, p) =>
      if c ∈ n.server.sockets.keys then n.known
      else if n.server.registry.connections meeting.id = [] then
        Function.update n.known meeting.id ((n.server.db.activeRows meeting.id).map Participant.id)
      else Function.update n.known meeting.id (p.id :: n.known meeting.id)
    | .error _ => n.known
  | .message c message _ now =>
    if c ∈ n.server.registry.connections c.meetingId then
      match readMessage message with
      | .ok inbound =>
        match inbound.handler with
        | .hostRemove =>
          match handleHostRemove n.server.db c inbound now with
          | .ok _ => (hostTarget inbound).elim n.known (n.forget c.meetingId)
          | .error _ => n.known
        | .hostEnd =>
          match handleHostEnd n.server.db c now with
          | .ok _ => Function.update n.known c.meetingId []
          | .error _ => n.known
        | _ => n.known
      | .error _ => n.known
    else n.known
  | .disconnect c now =>
    if c ∈ n.server.sockets ∧
        (releaseConnection n.server.db c.participantId c.connectionId now).1.isSome then
      n.forget c.meetingId c.participantId
    else n.known

/-- One event. -/
def next (n : Rosters) (e : Event) : Rosters where
  server := n.server.next e
  sent := fun d => n.sent d ++ itemsFor d (n.server.step e).2
  known := n.tell e

/-- All browsers of a meeting show the same participants, once they have handled
everything; whatever they showed before their sockets. -/
def SameRoom (n : Rosters) : Prop :=
  ∀ m, ∀ c ∈ n.server.registry.connections m, ∀ d ∈ n.server.registry.connections m,
    ∀ (room room' : MeetingRoom) (q : ParticipantId),
      q ∈ (room.handled (n.sent c.connectionId)).shown ↔
        q ∈ (room'.handled (n.sent d.connectionId)).shown

/-- Who enters an occupied room finds as open rows, beside its own, those that the
room was told of. -/
def Announced (n : Rosters) : Event → Prop
  | .connect meetingNumber sessionId c =>
    match authenticate n.server.db meetingNumber sessionId with
    | .ok (meeting, p) =>
      c ∈ n.server.sockets.keys ∨ n.server.registry.connections meeting.id = [] ∨
        ∀ q, q ≠ p.id →
          (q ∈ (n.server.db.activeRows meeting.id).map Participant.id ↔ q ∈ n.known meeting.id)
    | .error _ => True
  | _ => True

/-- What each browser shows is what its room was told. -/
def Told (n : Rosters) : Prop :=
  ∀ m, ∀ d ∈ n.server.registry.connections m, ∀ (room : MeetingRoom) (q : ParticipantId),
    q ∈ (room.handled (n.sent d.connectionId)).shown ↔ q ∈ n.known m

/-- A socket that never was has been sent nothing. -/
structure Fresh (n : Rosters) : Prop where
  server : n.server.Valid
  sent : ∀ c, c ∉ n.server.sockets.keys → n.sent c = []

theorem Told.sameRoom {n : Rosters} (h : n.Told) : n.SameRoom := by
  intro m c hc d hd room room' q
  rw [h m c hc, h m d hd]

/-! ### Where deliveries go -/

section Deliveries

variable {s : Server} {r : RoomRegistry} {c d : Connection} {m : MeetingId}

/-- Sockets of the server with one id are the same. -/
theorem eq_of_registered (hv : s.Valid) {m' : MeetingId} (hc : c ∈ s.registry.connections m)
    (hd : d ∈ s.registry.connections m') (h : c.connectionId = d.connectionId) : c = d :=
  Keyed.eq_of_key_eq (hv.registered m c hc).2 (hv.registered m' d hd).2 h

/-- A registered socket is in the room of its own meeting only. -/
theorem find_members (hv : s.Valid)
    (hsub : ∀ m, ∀ d ∈ r.connections m, d ∈ s.registry.connections m)
    (hd : d ∈ r.connections m) (m' : MeetingId) :
    (r.members m').find? d.connectionId = if m = m' then some d else none := by
  split
  · next h =>
    subst h
    exact Keyed.find?_of_mem hd
  · next h =>
    rw [Keyed.find?_eq_none, Keyed.mem_keys]
    rintro ⟨e, he, hid⟩
    obtain rfl := eq_of_registered hv (hsub m' e he) (hsub m d hd) hid
    exact h ((hv.registered m e (hsub m e hd)).1.symm.trans (hv.registered m' e (hsub m' e he)).1)

/-- What a broadcast to the whole room puts on a registered socket. -/
theorem itemsFor_room (hv : s.Valid)
    (hsub : ∀ m, ∀ d ∈ r.connections m, d ∈ s.registry.connections m)
    (hd : d ∈ r.connections m) (m' : MeetingId) (f : Frame) :
    itemsFor d.connectionId ((r.connections m').map fun c => ⟨c, .frame f⟩) =
      if m = m' then [.frame f] else [] := by
  have hitems := Network.itemsFor_broadcast r m' f none d.connectionId
  rw [broadcastTargets_none, if_neg (by simp), find_members hv hsub hd] at hitems
  rw [hitems]
  split <;> rfl

/-- A frame that an action sends is on every wire it goes to. -/
theorem counts_performAll {actions : List Action}
    (h : ∀ a ∈ actions, ∃ f, a.frame = some f ∧ f.body.counts = false) (r : RoomRegistry) :
    (performAll r actions).1 = r ∧ ∀ delivery ∈ (performAll r actions).2,
      delivery.item.counts = false := by
  induction actions with
  | nil => exact ⟨rfl, List.forall_mem_nil _⟩
  | cons a actions ih =>
    obtain ⟨⟨f, hf, hcounts⟩, hrest⟩ := List.forall_mem_cons.mp h
    obtain ⟨hregistry, hitems⟩ := perform_frame hf r
    rw [performAll]
    dsimp only
    rw [hregistry]
    refine ⟨(ih hrest).1, List.forall_mem_append.mpr ⟨?_, (ih hrest).2⟩⟩
    intro delivery hdelivery
    rw [hitems delivery hdelivery]
    exact hcounts

end Deliveries

/-! ### One event -/

section Steps

variable {n : Rosters}

/-- A step that takes sockets away, with what it puts on those that stay. -/
theorem Told.step (ht : n.Told) {e : Event}
    (hsub : ∀ m, ∀ d ∈ (n.server.next e).registry.connections m,
      d ∈ n.server.registry.connections m)
    (heffect : ∀ m, ∀ d ∈ (n.server.next e).registry.connections m, ∀ room : MeetingRoom,
      (∀ q, q ∈ room.shown ↔ q ∈ n.known m) → ∀ q,
        (q ∈ (room.handled (itemsFor d.connectionId (n.server.step e).2)).shown ↔ q ∈ n.tell e m)) :
    (n.next e).Told := by
  intro m d hd room q
  show q ∈ (room.handled (n.sent d.connectionId ++ _)).shown ↔ _
  rw [MeetingRoom.handled_append]
  exact heffect m d hd _ (ht m d (hsub m d hd) room) q

/-- A step that tells nobody anything about who is there. -/
theorem Told.of_not_counts (ht : n.Told) {e : Event}
    (hsub : ∀ m, ∀ d ∈ (n.server.next e).registry.connections m,
      d ∈ n.server.registry.connections m)
    (hcounts : ∀ delivery ∈ (n.server.step e).2, delivery.item.counts = false)
    (hknown : n.tell e = n.known) : (n.next e).Told := by
  refine ht.step hsub ?_
  intro m d _ room hroom q
  rw [hknown, ← hroom q, MeetingRoom.shown_handled_of_not_counts]
  intro i hi
  obtain ⟨delivery, hdelivery, -, rfl⟩ := mem_itemsFor.mp hi
  exact hcounts delivery hdelivery

/-- An event that cannot happen. -/
theorem Told.of_refused (ht : n.Told) {e : Event} (hstep : n.server.step e = (n.server, []))
    (hknown : n.tell e = n.known) : (n.next e).Told := by
  refine ht.of_not_counts ?_ ?_ hknown
  · rw [Server.next, hstep]
    exact fun _ _ hd => hd
  · rw [hstep]
    exact List.forall_mem_nil _

/-- Who is known after one participant is known to have gone. -/
theorem mem_forget {m m' : MeetingId} {p q : ParticipantId} :
    q ∈ n.forget m p m' ↔ q ∈ n.known m' ∧ (m' = m → q ≠ p) := by
  rw [forget]
  by_cases h : m' = m
  · subst h
    simp
  · rw [Function.update_of_ne h]
    simp [h]

/-- `peer.left` on the sockets of one room. -/
theorem shown_peerLeft {m m' : MeetingId} {f : Frame} {p : ParticipantId}
    (hbody : f.body = .peerLeft p)
    {room : MeetingRoom} (hroom : ∀ q, q ∈ room.shown ↔ q ∈ n.known m) (q : ParticipantId) :
    q ∈ (room.handled (if m = m' then [.frame f] else [])).shown ↔ q ∈ n.forget m' p m := by
  rw [mem_forget, ← hroom q]
  split
  · next h =>
    refine (MeetingRoom.mem_shown_peerLeft hbody).trans (and_congr_right fun _ => ?_)
    simp [h]
  · next h =>
    simp [h, MeetingRoom.handled]

theorem disconnect_sent (s : Server) (c : Connection) (now : DateTime) :
    (s.disconnect c now).2 =
      if (releaseConnection s.db c.participantId c.connectionId now).1.isSome then
        ((s.registry.remove c).connections c.meetingId).map
          fun d => ⟨d, .frame (peerLeftFrame c c.participantId)⟩
      else [] := by
  rw [Server.disconnect, teardown]
  dsimp only [Server.send]
  split
  · simp [performAll, perform, peerLeft, peerLeftFrame]
  · rfl

theorem told_disconnect (hv : n.server.Valid) (ht : n.Told) (c : Connection) (now : DateTime) :
    (n.next (.disconnect c now)).Told := by
  by_cases hc : c ∈ n.server.sockets
  · have hstep : n.server.step (.disconnect c now) = n.server.disconnect c now := if_pos hc
    have hsub {m : MeetingId} {d : Connection}
        (hd : d ∈ (n.server.next (.disconnect c now)).registry.connections m) :
        d ∈ (n.server.registry.remove c).connections m := by
      rw [Server.next, hstep] at hd
      exact send_sub hd
    have hremove {m : MeetingId} {d : Connection}
        (hd : d ∈ (n.server.registry.remove c).connections m) :
            d ∈ n.server.registry.connections m :=
      (RoomRegistry.mem_connections_remove.mp hd).1
    refine ht.step (fun m d hd => hremove (hsub hd)) ?_
    intro m d hd room hroom q
    rw [hstep, disconnect_sent, tell]
    by_cases hclosed : (releaseConnection n.server.db c.participantId c.connectionId now).1.isSome
    · rw [if_pos hclosed, if_pos ⟨hc, hclosed⟩]
      rw [itemsFor_room hv (fun m d hd => hremove hd) (hsub hd)]
      exact shown_peerLeft rfl hroom q
    · rw [if_neg hclosed, if_neg fun h => hclosed h.2]
      exact hroom q
  · refine ht.of_refused (if_neg hc) ?_
    rw [tell, if_neg fun h => hc h.1]

/-- The handlers that tell nobody anything about who is there. -/
theorem handle_not_counts {db db' : Db} {r : RoomRegistry} {c : Connection} {inbound : Inbound}
    {id : String} {now : DateTime} {actions : List Action} (hremove : inbound.handler ≠ .hostRemove)
    (hend : inbound.handler ≠ .hostEnd) (h : handle db r c inbound id now = .ok (db', actions)) :
    ∀ a ∈ actions, ∃ f, a.frame = some f ∧ f.body.counts = false := by
  rw [handle] at h
  -- Most handlers send a single frame.
  have hone {a b : Action} {f : Frame} (hf : a.frame = some f) (hbody : f.body.counts = false)
      (hb : b ∈ [a]) : ∃ f, b.frame = some f ∧ f.body.counts = false := by
    obtain rfl := List.mem_singleton.mp hb
    exact ⟨f, hf, hbody⟩
  split at h
  · obtain ⟨-, rfl⟩ := Prod.mk.inj (Except.ok.inj h)
    exact fun a ha => hone rfl rfl ha
  · obtain ⟨t, -, -, -, rfl⟩ := handleSignal_eq_ok.mp h
    exact fun a ha => hone rfl rfl ha
  · obtain ⟨v, -, rfl⟩ := handleStateUpdate_eq_ok.mp h
    exact fun a ha => hone rfl rfl ha
  · obtain ⟨body, v, -, -, rfl⟩ := handleChatSend_eq_ok.mp h
    exact fun a ha => hone rfl rfl ha
  · obtain ⟨t, actor, v, -, -, -, rfl⟩ := handleHostMute_eq_ok.mp h
    intro a ha
    rcases List.mem_cons.mp ha with rfl | ha
    · exact ⟨_, rfl, rfl⟩
    · exact hone rfl rfl ha
  · obtain ⟨actor, vs, -, -, rfl⟩ := handleHostMuteAll_eq_ok.mp h
    intro a ha
    obtain ⟨v, -, ha⟩ := List.mem_flatMap.mp ha
    rcases List.mem_cons.mp ha with rfl | ha
    · exact ⟨_, rfl, rfl⟩
    · exact hone rfl rfl ha
  · next hhandler => exact absurd hhandler hremove
  · next hhandler => exact absurd hhandler hend

theorem counts_of_isReply {f : Frame} (h : f.IsReply) : f.body.counts = false := by
  rw [Frame.IsReply] at h
  cases hbody : f.body with
  | error code message details => rfl
  | pong => rfl
  | _ =>
    rw [hbody] at h
    exact h.elim

theorem itemsFor_append (b : ConnectionId) (sent sent' : List Delivery) :
    itemsFor b (sent ++ sent') = itemsFor b sent ++ itemsFor b sent' := by
  rw [itemsFor, List.filter_append, List.map_append]
  rfl

/-- Sockets that are closed as well show the same. -/
theorem shown_closes (room : MeetingRoom) (b : ConnectionId) (sent : List Delivery)
    (cs : List Connection) (code : ℕ) :
    (room.handled (itemsFor b (sent ++ cs.map fun c => ⟨c, .close code⟩))).shown =
      (room.handled (itemsFor b sent)).shown := by
  rw [itemsFor_append, MeetingRoom.handled_append, MeetingRoom.shown_handled_of_not_counts]
  intro i hi
  obtain ⟨delivery, hdelivery, -, rfl⟩ := mem_itemsFor.mp hi
  obtain ⟨c, -, rfl⟩ := List.mem_map.mp hdelivery
  rfl

/-- **An accepted `host.remove`.**  The newest socket of the target is told, and taken
out of the room; all others hear that the target has gone. -/
theorem told_removal (hv : n.server.Valid) {c d : Connection} {t : ParticipantId} {m : MeetingId}
    (hd : d ∈ (performAll n.server.registry (removal c t)).1.connections m) {room : MeetingRoom}
    (hroom : ∀ q, q ∈ room.shown ↔ q ∈ n.known m) (q : ParticipantId) :
    q ∈ (room.handled (itemsFor d.connectionId
      (performAll n.server.registry (removal c t)).2)).shown ↔
      q ∈ n.forget c.meetingId t m := by
  rw [performAll_removal] at hd ⊢
  cases hfind : n.server.registry.find c.meetingId t with
  | none =>
    rw [hfind] at hd
    dsimp only at hd ⊢
    rw [itemsFor_room hv (fun _ _ h => h) hd]
    exact shown_peerLeft rfl hroom q
  | some target =>
    rw [hfind] at hd
    dsimp only at hd ⊢
    obtain ⟨hd, hne⟩ := RoomRegistry.mem_connections_remove.mp hd
    -- The one that is told to go is out of the registry.
    have htarget : target.connectionId ≠ d.connectionId := by
      intro h
      obtain rfl := eq_of_registered hv (RoomRegistry.find_mem hfind).1 hd h
      exact hne (hv.registered m target hd).1 rfl
    have hcloses := shown_closes room d.connectionId (⟨target, .frame (removedYouFrame c t)⟩ ::
      (n.server.registry.connections c.meetingId).map fun e => ⟨e, .frame (peerLeftFrame c t)⟩)
      [target] closeRemoved
    rw [List.map_singleton] at hcloses
    rw [hcloses, ← List.singleton_append, itemsFor_append, Network.itemsFor_singleton,
      if_neg htarget,
      List.nil_append, itemsFor_room hv (fun _ _ h => h) hd]
    exact shown_peerLeft rfl hroom q

/-- **An accepted `host.end`.**  The browsers that are left in the room have left it. -/
theorem told_ending (hv : n.server.Valid) {c d : Connection} {m : MeetingId}
    (hd : d ∈ (performAll n.server.registry (ending c)).1.connections m) {room : MeetingRoom}
    (hroom : ∀ q, q ∈ room.shown ↔ q ∈ n.known m) (q : ParticipantId) :
    q ∈ (room.handled (itemsFor d.connectionId (performAll n.server.registry (ending c)).2)).shown ↔
      q ∈ Function.update n.known c.meetingId [] m := by
  rw [performAll_ending] at hd ⊢
  obtain ⟨hd, -⟩ := mem_foldl_remove.mp hd
  rw [shown_closes, itemsFor_room hv (fun _ _ h => h) hd]
  split
  · next h =>
    subst h
    rw [Function.update_self]
    exact iff_of_false (MeetingRoom.mem_shown_meetingEnded rfl) List.not_mem_nil
  · next h =>
    rw [Function.update_of_ne h]
    exact hroom q

section Message

variable {c : Connection} {message : Json} {id : String} {now : DateTime}
  (hc : c ∈ n.server.registry.connections c.meetingId)

include hc

/-- What a message does on the sockets that stay. -/
theorem Told.receive (ht : n.Told)
    (heffect : ∀ m, ∀ d ∈ (n.server.receive c message id now).1.registry.connections m,
      ∀ room : MeetingRoom, (∀ q, q ∈ room.shown ↔ q ∈ n.known m) → ∀ q,
        (q ∈ (room.handled (itemsFor d.connectionId (n.server.receive c message id now).2)).shown ↔
          q ∈ n.tell (.message c message id now) m)) :
    (n.next (.message c message id now)).Told := by
  have hstep : n.server.step (.message c message id now) = n.server.receive c message id now :=
    if_pos hc
  refine ht.step ?_ ?_
  · rw [Server.next, hstep]
    exact fun m d hd => send_sub hd
  · rw [Server.next, hstep]
    exact heffect

/-- A message that tells nobody anything about who is there. -/
theorem Told.receive_quiet (ht : n.Told)
    (hcounts : ∀ a ∈ (onMessage n.server.db n.server.registry c message id now).2,
      ∃ f, a.frame = some f ∧ f.body.counts = false)
    (hknown : n.tell (.message c message id now) = n.known) :
    (n.next (.message c message id now)).Told := by
  have hstep : n.server.step (.message c message id now) = n.server.receive c message id now :=
    if_pos hc
  refine ht.of_not_counts ?_ ?_ hknown
  · rw [Server.next, hstep]
    exact fun m d hd => send_sub hd
  · rw [hstep]
    exact (counts_performAll hcounts _).2

variable {inbound : Inbound} (hread : readMessage message = .ok inbound)

include hread

theorem tell_of_error {err : Raised}
    (h : handle n.server.db n.server.registry c inbound id now = .error err) :
    n.tell (.message c message id now) = n.known := by
  rw [tell, if_pos hc, hread]
  rw [handle] at h
  cases hhandler : inbound.handler with
  | hostRemove =>
    rw [hhandler] at h
    dsimp only at h ⊢
    rw [hhandler, h]
  | hostEnd =>
    rw [hhandler] at h
    dsimp only at h ⊢
    rw [hhandler, h]
  | _ =>
    dsimp only
    rw [hhandler]

theorem tell_of_other (hremove : inbound.handler ≠ .hostRemove)
    (hend : inbound.handler ≠ .hostEnd) :
    n.tell (.message c message id now) = n.known := by
  rw [tell, if_pos hc, hread]
  dsimp only
  split
  · next hhandler => exact absurd hhandler hremove
  · next hhandler => exact absurd hhandler hend
  · rfl

theorem tell_of_removal (hhandler : inbound.handler = .hostRemove) {t : ParticipantId}
    {result : Db × List Action} (htarget : hostTarget inbound = some t)
    (h : handleHostRemove n.server.db c inbound now = .ok result) :
    n.tell (.message c message id now) = n.forget c.meetingId t := by
  rw [tell, if_pos hc, hread]
  dsimp only
  rw [hhandler]
  dsimp only
  rw [h, htarget]
  rfl

theorem tell_of_ending (hhandler : inbound.handler = .hostEnd) {result : Db × List Action}
    (h : handleHostEnd n.server.db c now = .ok result) :
    n.tell (.message c message id now) = Function.update n.known c.meetingId [] := by
  rw [tell, if_pos hc, hread]
  dsimp only
  rw [hhandler]
  dsimp only
  rw [h]

end Message

/-- A reply to the sender. -/
theorem counts_reply {c : Connection} {f : Frame} (hf : f.IsReply) :
    ∀ a ∈ [Action.send c f], ∃ f, a.frame = some f ∧ f.body.counts = false := by
  intro a ha
  obtain rfl := List.mem_singleton.mp ha
  exact ⟨f, rfl, counts_of_isReply hf⟩

theorem told_message (hv : n.server.Valid) (ht : n.Told) (c : Connection)
    (message : Json) (id : String)
    (now : DateTime) : (n.next (.message c message id now)).Told := by
  by_cases hc : c ∈ n.server.registry.connections c.meetingId
  swap
  · refine ht.of_refused (if_neg hc) ?_
    rw [tell, if_neg hc]
  cases hread : readMessage message with
  | error f =>
    refine ht.receive_quiet hc ?_ ?_
    · rw [onMessage, hread]
      exact counts_reply (readMessage_isReply hread)
    · rw [tell, if_pos hc, hread]
  | ok inbound =>
  cases hhandle : handle n.server.db n.server.registry c inbound id now with
  | error err =>
    refine ht.receive_quiet hc ?_ (tell_of_error hc hread hhandle)
    rw [onMessage, hread]
    dsimp only
    rw [hhandle]
    exact counts_reply (failureFrame_isReply err)
  | ok result =>
  obtain ⟨db', actions⟩ := result
  have hreceive : n.server.receive c message id now = Server.send { n.server with
      db := db' } actions :=
    (if_pos hc).symm.trans (step_message_of_ok hc hread hhandle)
  -- Only two of the handlers tell the room who is there.
  by_cases hremove : inbound.handler = .hostRemove
  · rw [handle, hremove] at hhandle
    obtain ⟨t, actor, v, htarget, -, -, rfl⟩ := handleHostRemove_eq_ok.mp hhandle
    refine ht.receive hc ?_
    rw [hreceive, tell_of_removal hc hread hremove htarget hhandle]
    exact fun m d hd room hroom => told_removal hv hd hroom
  by_cases hend : inbound.handler = .hostEnd
  · rw [handle, hend] at hhandle
    obtain ⟨actor, v, -, -, rfl⟩ := handleHostEnd_eq_ok.mp hhandle
    refine ht.receive hc ?_
    rw [hreceive, tell_of_ending hc hread hend hhandle]
    exact fun m d hd room hroom => told_ending hv hd hroom
  · refine ht.receive_quiet hc ?_ (tell_of_other hc hread hremove hend)
    rw [onMessage, hread]
    dsimp only
    rw [hhandle]
    exact handle_not_counts hremove hend hhandle

/-- Binding a socket opens and closes no row. -/
theorem activeIds_bind {db : Db} {p : ParticipantId} {c : ConnectionId}
    {m : MeetingId} {q : ParticipantId} :
    q ∈ ((bindConnection db p c).activeRows m).map Participant.id ↔
      q ∈ (db.activeRows m).map Participant.id := by
  have hkept (row : Participant) : (if row.id = p then row.bindTo c else row).id = row.id ∧
      (if row.id = p then row.bindTo c else row).meetingId = row.meetingId ∧
      (if row.id = p then row.bindTo c else row).leftAt = row.leftAt := by
    split
    · exact ⟨rfl, rfl, rfl⟩
    · exact ⟨rfl, rfl, rfl⟩
  have hmem {row' : Participant} : row' ∈ (bindConnection db p c).participants ↔
      ∃ row ∈ db.participants, (if row.id = p then row.bindTo c else row) = row' := List.mem_map
  simp only [List.mem_map, Db.mem_activeRows]
  constructor
  · rintro ⟨row', ⟨hrow', hmeeting, hopen⟩, rfl⟩
    obtain ⟨row, hrow, rfl⟩ := hmem.mp hrow'
    obtain ⟨hid, hm, hl⟩ := hkept row
    exact ⟨row, ⟨hrow, hm.symm.trans hmeeting, hl.symm.trans hopen⟩, hid.symm⟩
  · rintro ⟨row, ⟨hrow, hmeeting, hopen⟩, rfl⟩
    obtain ⟨hid, hm, hl⟩ := hkept row
    exact ⟨_, ⟨hmem.mpr ⟨row, hrow, rfl⟩, hm.trans hmeeting, hl.trans hopen⟩, hid⟩

theorem ids_activeRoster {db : Db} {m : MeetingId} {q : ParticipantId} :
    q ∈ (activeRoster db m).map ParticipantView.id ↔ q ∈ (db.activeRows m).map Participant.id := by
  simp only [List.mem_map, mem_activeRoster]
  constructor
  · rintro ⟨v, ⟨row, hrow, rfl⟩, rfl⟩
    exact ⟨row, hrow, rfl⟩
  · rintro ⟨row, hrow, rfl⟩
    exact ⟨_, ⟨row, hrow, rfl⟩, rfl⟩

section Connect

variable {number : String} {sessionId : SessionId} {c : ConnectionId} {meeting : Meeting}
  {p : Participant} (hfresh : c ∉ n.server.sockets.keys)
  (hauth : authenticate n.server.db number sessionId = .ok (meeting, p))

include hfresh hauth

/-- What a fresh socket tells the room. -/
theorem mem_tell_connect {m : MeetingId} {q : ParticipantId} :
    q ∈ n.tell (.connect number sessionId c) m ↔
      if m = meeting.id ∧ n.server.registry.connections m = [] then
        q ∈ (n.server.db.activeRows m).map Participant.id
      else q ∈ n.known m ∨ (m = meeting.id ∧ q = p.id) := by
  rw [tell, hauth]
  dsimp only
  rw [if_neg hfresh]
  by_cases hothers : n.server.registry.connections meeting.id = []
  · rw [if_pos hothers]
    by_cases hm : m = meeting.id
    · subst hm
      rw [if_pos ⟨rfl, hothers⟩, Function.update_self]
    · rw [if_neg fun h => hm h.1, or_iff_left fun h => hm h.1, Function.update_of_ne hm]
  · rw [if_neg hothers]
    by_cases hm : m = meeting.id
    · subst hm
      rw [if_neg fun h => hothers h.2, Function.update_self, List.mem_cons,
        and_iff_right rfl, or_comm]
    · rw [if_neg fun h => hm h.1, or_iff_left fun h => hm h.1, Function.update_of_ne hm]

/-- The rule for a fresh socket, as it reads off the room. -/
theorem announced_connect_iff : n.Announced (.connect number sessionId c) ↔
    ∀ q, q ∈ (n.server.db.activeRows meeting.id).map Participant.id ↔
      q ∈ n.tell (.connect number sessionId c) meeting.id := by
  simp only [mem_tell_connect hfresh hauth, true_and]
  rw [Announced, hauth]
  dsimp only
  rw [or_iff_right hfresh]
  by_cases hothers : n.server.registry.connections meeting.id = []
  · simp only [if_pos hothers]
    exact iff_of_true (.inl hothers) fun _ => trivial
  · -- The own row of the new socket is open.
    obtain ⟨hrow, hmeeting, -, -, hopen⟩ := authenticate_eq_ok.mp hauth
    have hself : p.id ∈ (n.server.db.activeRows meeting.id).map Participant.id :=
      List.mem_map_of_mem (Db.mem_activeRows.mpr
        ⟨participantBySession_mem hrow, (Keyed.key_of_find? hmeeting).symm, hopen⟩)
    simp only [if_neg hothers]
    rw [or_iff_right hothers]
    constructor
    · intro h q
      by_cases hq : q = p.id
      · subst hq
        exact iff_of_true hself (.inr rfl)
      · rw [h q hq, or_iff_left hq]
    · intro h q hq
      rw [h q, or_iff_left hq]

variable (hf : n.Fresh)

include hf

/-- A fresh socket shows its snapshot. -/
theorem shown_new (room : MeetingRoom) (q : ParticipantId) :
    q ∈ (room.handled ((n.next (.connect number sessionId c)).sent c)).shown ↔
      q ∈ (n.server.db.activeRows meeting.id).map Participant.id := by
  obtain ⟨snapshot, -, hroster, hstep⟩ := Network.connect_eq hf.server hfresh hauth
  show q ∈ (room.handled (n.sent c ++ itemsFor c (n.server.step _).2)).shown ↔ _
  rw [hf.sent c hfresh, List.nil_append, hstep]
  dsimp only
  rw [Network.itemsFor_welcome _ _ ⟨c, p.id, meeting.id⟩]
  refine (MeetingRoom.mem_shown_roomState rfl).trans ?_
  rw [hroster, ids_activeRoster]
  exact activeIds_bind

/-- The others show what they showed, and those of the room show the new one too. -/
theorem shown_old (ht : n.Told) {m : MeetingId} {d : Connection}
    (hd : d ∈ n.server.registry.connections m) (room : MeetingRoom) (q : ParticipantId) :
    q ∈ (room.handled ((n.next (.connect number sessionId c)).sent d.connectionId)).shown ↔
      q ∈ n.known m ∨ (m = meeting.id ∧ q = p.id) := by
  obtain ⟨snapshot, hyou, -, hstep⟩ := Network.connect_eq hf.server hfresh hauth
  -- A socket of the room is not the fresh one.
  have hne : c ≠ d.connectionId := by
    rintro rfl
    exact hfresh (Keyed.key_mem_keys (hf.server.registered m d hd).2)
  show q ∈ (room.handled
    (n.sent d.connectionId ++ itemsFor d.connectionId (n.server.step _).2)).shown ↔ _
  rw [MeetingRoom.handled_append, ← ht m d hd room, hstep]
  dsimp only
  rw [← List.singleton_append, itemsFor_append, Network.itemsFor_singleton,
    if_neg hne, List.nil_append,
    Network.itemsFor_broadcast, if_neg fun h => hne (Option.some.inj h).symm,
      RoomRegistry.members_add,
    if_pos rfl, Keyed.find?_set, if_neg hne, find_members hf.server (fun _ _ h => h) hd]
  split
  · next h =>
    refine (MeetingRoom.mem_shown_peerJoined rfl).trans ?_
    rw [hyou, and_iff_right h]
  · next h => simp [h, MeetingRoom.handled]

theorem mem_connections_connect_iff {m : MeetingId} {d : Connection} :
    d ∈ (n.next (.connect number sessionId c)).server.registry.connections m ↔
      (d = ⟨c, p.id, meeting.id⟩ ∧ meeting.id = m) ∨ d ∈ n.server.registry.connections m := by
  obtain ⟨snapshot, -, -, hstep⟩ := Network.connect_eq hf.server hfresh hauth
  show d ∈ (n.server.step _).1.registry.connections m ↔ _
  rw [hstep, RoomRegistry.mem_connections_add]
  refine or_congr_right (and_iff_left_of_imp ?_)
  rintro hd - rfl
  exact hfresh (Keyed.key_mem_keys (hf.server.registered m d hd).2)

/-- **A fresh socket.**  The browsers agree if and only if it is told of those that the
room is told of. -/
theorem told_connect (ht : n.Told) :
    (n.next (.connect number sessionId c)).Told ↔ n.Announced (.connect number sessionId c) := by
  rw [announced_connect_iff hfresh hauth]
  constructor
  · intro htold q
    rw [← shown_new hfresh hauth hf (.mount "" none)]
    exact htold meeting.id ⟨c, p.id, meeting.id⟩
      ((mem_connections_connect_iff hfresh hauth hf).mpr (.inl ⟨rfl, rfl⟩)) _ q
  · intro hopen m d hd room q
    rcases (mem_connections_connect_iff hfresh hauth hf).mp hd with ⟨rfl, rfl⟩ | hd
    · rw [shown_new hfresh hauth hf]
      exact hopen q
    · rw [shown_old hfresh hauth hf ht hd]
      refine Iff.symm ((mem_tell_connect hfresh hauth).trans ?_)
      rw [if_neg fun h => List.ne_nil_of_mem hd h.2]

/-- Browsers that agree after a fresh socket came in agree on what the room was told. -/
theorem announced_of_sameRoom (ht : n.Told) (h : (n.next (.connect number sessionId c)).SameRoom) :
    n.Announced (.connect number sessionId c) := by
  rw [announced_connect_iff hfresh hauth]
  intro q
  rw [mem_tell_connect hfresh hauth]
  cases hothers : n.server.registry.connections meeting.id with
  | nil => rw [if_pos ⟨rfl, rfl⟩]
  | cons d ds =>
    have hd : d ∈ n.server.registry.connections meeting.id := hothers ▸ List.mem_cons_self
    have hmem {e : Connection} :=
      mem_connections_connect_iff hfresh hauth hf (m := meeting.id) (d := e)
    rw [if_neg fun h => List.cons_ne_nil d ds h.2, ← shown_new hfresh hauth hf (.mount "" none),
      ← shown_old hfresh hauth hf ht hd (.mount "" none)]
    exact h meeting.id ⟨c, p.id, meeting.id⟩ (hmem.mpr (.inl ⟨rfl, rfl⟩)) d
      (hmem.mpr (.inr hd)) _ _ q

end Connect

/-- A socket that is let in nowhere. -/
theorem connect_refused (number : String) (sessionId : SessionId) (c : ConnectionId)
    (h : c ∈ n.server.sockets.keys ∨
      ∃ err, authenticate n.server.db number sessionId = .error err) :
    n.server.step (.connect number sessionId c) = (n.server, []) ∧
      n.tell (.connect number sessionId c) = n.known ∧
        n.Announced (.connect number sessionId c) := by
  rw [Server.step, tell, Announced]
  rcases h with hc | ⟨err, herr⟩
  · rw [if_pos hc]
    cases authenticate n.server.db number sessionId with
    | error err => exact ⟨rfl, rfl, trivial⟩
    | ok result => exact ⟨rfl, if_pos hc, .inl hc⟩
  · rw [herr, Server.connect, herr]
    exact ⟨ite_self _, rfl, trivial⟩

/-- **One event.**  Browsers that show what they were told stay so exactly when nobody
enters an occupied room unannounced. -/
theorem told_next (hf : n.Fresh) (ht : n.Told) (e : Event) : (n.next e).Told ↔ n.Announced e := by
  cases e with
  | request r =>
    refine iff_of_true (ht.of_not_counts (fun _ _ hd => hd) (List.forall_mem_nil _) rfl) trivial
  | message c message id now =>
    exact iff_of_true (told_message hf.server ht c message id now) trivial
  | disconnect c now => exact iff_of_true (told_disconnect hf.server ht c now) trivial
  | connect number sessionId c =>
    by_cases hc : c ∈ n.server.sockets.keys
    · obtain ⟨hstep, hknown, hannounced⟩ := connect_refused number sessionId c (.inl hc)
      exact iff_of_true (ht.of_refused hstep hknown) hannounced
    cases hauth : authenticate n.server.db number sessionId with
    | error err =>
      obtain ⟨hstep, hknown, hannounced⟩ := connect_refused number sessionId c (.inr ⟨err, hauth⟩)
      exact iff_of_true (ht.of_refused hstep hknown) hannounced
    | ok result => exact told_connect hc hauth hf ht

/-- Deliveries go to sockets. -/
theorem step_sent {s : Server} (hv : s.Valid) {e : Event} {delivery : Delivery}
    (h : delivery ∈ (s.step e).2) : delivery.connection ∈ (s.next e).sockets := by
  cases e with
  | request r => cases h
  | message c message id now =>
    by_cases hc : c ∈ s.registry.connections c.meetingId
    · have hstep : s.step (.message c message id now) = s.receive c message id now := if_pos hc
      rw [hstep] at h
      rw [Server.next, hstep]
      exact (hv.registered _ _ (performAll_inRoom hc
        (fun d hd => hd) onMessage_inRoom _ h).connection).2
    · rw [Server.step, if_neg hc] at h
      cases h
  | disconnect c now =>
    by_cases hc : c ∈ s.sockets
    · have hstep : s.step (.disconnect c now) = s.disconnect c now := if_pos hc
      rw [hstep, disconnect_sent] at h
      rw [Server.next, hstep]
      split at h
      · obtain ⟨d, hd, rfl⟩ := List.mem_map.mp h
        exact (hv.registered _ d (RoomRegistry.mem_connections_remove.mp hd).1).2
      · cases h
    · rw [Server.step, if_neg hc] at h
      cases h
  | connect number sessionId c =>
    by_cases hc : c ∈ s.sockets.keys
    · rw [Server.step, if_pos hc] at h
      cases h
    cases hauth : authenticate s.db number sessionId with
    | error err =>
      rw [Server.step, if_neg hc, Server.connect, hauth] at h
      cases h
    | ok result =>
      obtain ⟨snapshot, -, -, hstep⟩ := Network.connect_eq hv hc hauth
      rw [Server.next, hstep]
      rw [hstep] at h
      rcases List.mem_cons.mp h with rfl | h
      · exact Keyed.mem_set.mpr (.inl rfl)
      · obtain ⟨d, hd, rfl⟩ := List.mem_map.mp h
        -- Somebody who was there hears of the new socket.
        rcases RoomRegistry.mem_connections_add.mp (List.mem_filter.mp hd).1 with ⟨rfl, -⟩ | ⟨hd, -⟩
        · exact Keyed.mem_set.mpr (.inl rfl)
        · have hsocket := (hv.registered _ d hd).2
          refine Keyed.mem_set.mpr (.inr ⟨hsocket, ?_⟩)
          rintro rfl
          exact hc (Keyed.key_mem_keys hsocket)

/-- Sockets are not forgotten. -/
theorem keys_sockets_next {s : Server} (hv : s.Valid) (e : Event) {c : ConnectionId}
    (h : c ∈ s.sockets.keys) : c ∈ (s.next e).sockets.keys := by
  cases e with
  | request r => exact h
  | message d message id now =>
    rw [Server.next, Server.step]
    split
    · exact h
    · exact h
  | disconnect d now =>
    rw [Server.next, Server.step]
    split
    · exact h
    · exact h
  | connect number sessionId d =>
    by_cases hd : d ∈ s.sockets.keys
    · rw [Server.next, Server.step, if_pos hd]
      exact h
    cases hauth : authenticate s.db number sessionId with
    | error err =>
      rw [Server.next, Server.step, if_neg hd, Server.connect, hauth]
      exact h
    | ok result =>
      obtain ⟨snapshot, -, -, hstep⟩ := Network.connect_eq hv hd hauth
      rw [Server.next, hstep]
      exact Keyed.mem_keys_set.mpr (.inl h)

theorem Fresh.next (h : n.Fresh) (e : Event) : (n.next e).Fresh where
  server := h.server.next e
  sent := by
    intro c hc
    have hnone : itemsFor c (n.server.step e).2 = [] := by
      refine List.eq_nil_iff_forall_not_mem.mpr ?_
      intro i hi
      obtain ⟨delivery, hdelivery, rfl, -⟩ := mem_itemsFor.mp hi
      exact hc (Keyed.key_mem_keys (step_sent h.server hdelivery))
    show n.sent c ++ itemsFor c (n.server.step e).2 = []
    rw [hnone, h.sent c fun hkeys => hc (keys_sockets_next h.server e hkeys)]
    rfl

theorem fresh_init : ({} : Rosters).Fresh where
  server := Server.valid_init
  sent := fun _ _ => rfl

theorem told_init : ({} : Rosters).Told := by
  intro m d hd
  cases hd

/-- Browsers that agree after an event agree on what they were told. -/
theorem told_iff_sameRoom (hf : n.Fresh) (ht : n.Told) (e : Event) :
    (n.next e).SameRoom ↔ (n.next e).Told := by
  refine ⟨fun h => (told_next hf ht e).mpr ?_, Told.sameRoom⟩
  cases e with
  | connect number sessionId c =>
    by_cases hc : c ∈ n.server.sockets.keys
    · exact (connect_refused number sessionId c (.inl hc)).2.2
    cases hauth : authenticate n.server.db number sessionId with
    | error err => exact (connect_refused number sessionId c (.inr ⟨err, hauth⟩)).2.2
    | ok result => exact announced_of_sameRoom hc hauth hf ht h
  | _ => trivial

end Steps

/-- **All clients see the same room.**  In a run of any events, all browsers of every
meeting show the same participants throughout, once they have handled what they were
sent, exactly when every socket that is let into an occupied room finds the open rows
that the room was told of. -/
theorem same_room_iff (events : List Event) :
    Runs.Always next SameRoom {} events ↔ Runs.Guarded next Announced {} events := by
  rw [Runs.always_iff_always (Q := Told) fresh_init (iff_of_true told_init.sameRoom told_init)
    (fun _ e hf => hf.next e) (fun _ e hf ht => told_iff_sameRoom hf ht e)]
  exact Runs.always_iff_guarded fresh_init told_init (fun _ e hf => hf.next e)
    (fun _ e hf ht => told_next hf ht e) events

/-- A guest that never opens its socket. -/
def joinsOnly (p : String) : Event :=
  .request (.joinMeeting "guest" "10000000003" { inviteToken := some "tok" }
    { id := p, sessionId := "s" ++ p } 20)

/-- The host is in the room, a guest has joined and not connected, and another enters. -/
def absentGuest : List Event := openMeeting ++ enterAs "host" "h" ++ [joinsOnly "1"] ++ enter "2"

/-- **Two rooms in one.**  The second guest is shown the first, and the host is not. -/
theorem same_room_differs : ¬ ∀ events : List Event, Runs.Always next SameRoom {} events := by
  intro h
  have hlast := (h absentGuest).last
  have hhost : (⟨"ch", "h", "m"⟩ : Connection) ∈
      (Runs.run next {} absentGuest).server.registry.connections "m" := by decide +kernel
  have hguest : (⟨"c2", "2", "m"⟩ : Connection) ∈
      (Runs.run next {} absentGuest).server.registry.connections "m" := by decide +kernel
  have hshown : "1" ∈ ((MeetingRoom.mount "" none).handled
      ((Runs.run next {} absentGuest).sent "c2")).shown := by decide +kernel
  have hnot : "1" ∉ ((MeetingRoom.mount "" none).handled
      ((Runs.run next {} absentGuest).sent "ch")).shown := by decide +kernel
  exact hnot ((hlast "m" _ hguest _ hhost _ _ "1").mp hshown)

end Rosters

end ZoomClone
