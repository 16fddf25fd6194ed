/-
What the handler of a socket has left to send.

A handler that was just registered announces its participant (`announce`); every
other script answers a message or follows a teardown, and consists of replies
(`Action.Reply`): a `peer.left` or an eviction comes after the rows were closed,
a signal carries the participant of the socket as its sender, and the rest is
nothing to a mesh.

* `onMessage_reply`, `teardown_reply` — the scripts that handlers leave;
* `Network.Scripted` — the scripts of every reachable state, kept by every event;
* `Network.Step.sends` — what an event puts on a socket.
-/
import ZoomClone.Mesh
import ZoomClone.Eviction
import ZoomClone.SocketSteps

namespace ZoomClone

/-! ### Replies -/

/-- The row of `t` is closed. -/
def Db.Departed (db : Db) (t : ParticipantId) : Prop :=
  ∃ row ∈ db.participants, row.id = t ∧ row.leftAt ≠ none

/-- The frame is nothing to a mesh. -/
def FrameBody.plain : FrameBody → Bool
  | .peerUpdated _ _ _ _ => true
  | .chatMessage _ => true
  | .hostMutedYou _ => true
  | .error _ _ _ => true
  | .pong => true
  | _ => false

/-- The frame sends its receiver home. -/
def FrameBody.evicts : FrameBody → Bool
  | .hostRemovedYou _ => true
  | .meetingEnded _ => true
  | _ => false

/-- The frame that an action sends. -/
def Action.frame : Action → Option Frame
  | .send _ f => some f
  | .sendToParticipant _ _ f => some f
  | .broadcast _ f _ => some f
  | _ => none

/-- The action evicts: it sends its receivers home, or closes their sockets. -/
def Action.Evicts (a : Action) : Prop := ∀ f ∈ a.frame, f.body.evicts

/-- The action sends a frame that is nothing to a mesh. -/
def Action.Plain (a : Action) : Prop := ∃ f ∈ a.frame, f.body.plain

/-- The `peer.joined` broadcast of a socket. -/
def announce (d : Connection) (you : ParticipantView) : Action :=
  .broadcast d.meetingId { body := .peerJoined you, sender := some d.participantId }
    (some d.connectionId)

/-- What the handler of `d` may have left to send once it was announced. -/
inductive Action.Reply (db : Db) (d : Connection) : Action → Prop
  | farewell (t : ParticipantId) (h : db.Departed t) : Reply db d (peerLeft d t)
  | relay (kind : SignalKind) (inbound : Inbound) (t : ParticipantId) :
      Reply db d (.sendToParticipant d.meetingId t (relayed d kind inbound t))
  | evict (a : Action) (ha : a.Evicts) (h : ∃ t, db.Departed t) : Reply db d a
  | plain (a : Action) (ha : a.Plain) : Reply db d a

/-! ### The scripts that handlers leave -/

section Handlers

variable {db db' : Db} {r : RoomRegistry} {d : Connection} {inbound : Inbound} {id : String}
  {now : DateTime} {actions : List Action}

theorem reply_error (c : Connection) (code message : String) (details : JsonObj) :
    Action.Reply db d (.send c (errorFrame code message details)) :=
  .plain _ ⟨_, rfl, rfl⟩

theorem reply_failure (c : Connection) (e : Raised) :
    Action.Reply db d (.send c (failureFrame e)) := by
  cases e with
  | app e => exact reply_error c ..
  | _ => exact reply_error c ..

theorem reply_mutedYou (t : ParticipantId) : Action.Reply db d (mutedYou d t) :=
  .plain _ ⟨_, rfl, rfl⟩

theorem reply_peerUpdated (v : ParticipantView) : Action.Reply db d (peerUpdated d v) :=
  .plain _ ⟨_, rfl, rfl⟩

/-- A removal tells the target and the room, and closes the target's socket. -/
theorem reply_removal {t : ParticipantId} (h : db.Departed t) :
    ∀ a ∈ removal d t, a.Reply db d := by
  intro a ha
  simp only [removal, List.mem_cons, List.not_mem_nil, or_false] at ha
  rcases ha with rfl | rfl | rfl
  · refine .evict _ ?_ ⟨t, h⟩
    intro f hf
    obtain rfl := Option.some.inj hf
    rfl
  · exact .farewell t h
  · refine .evict _ ?_ ⟨t, h⟩
    intro f hf
    cases hf

/-- Ending tells the room, and closes the other sockets. -/
theorem reply_ending (h : ∃ t, db.Departed t) : ∀ a ∈ ending d, a.Reply db d := by
  intro a ha
  simp only [ending, List.mem_cons, List.not_mem_nil, or_false] at ha
  rcases ha with rfl | rfl
  · refine .evict _ ?_ h
    intro f hf
    obtain rfl := Option.some.inj hf
    rfl
  · refine .evict _ ?_ h
    intro f hf
    cases hf

/-- A removal that succeeds closes the target's row. -/
theorem departed_hostRemove {actor : Participant} {t : ParticipantId} {v : ParticipantView}
    (h : hostRemove db actor t now = .ok (v, db')) : db'.Departed t := by
  obtain ⟨-, target, htarget, -, hleft⟩ := hostRemove_eq_ok.mp h
  obtain ⟨-, rfl⟩ := Prod.mk.inj hleft
  have hget := (targetRow_eq_ok.mp htarget).1
  obtain ⟨q, hq, hid, hclosed, -⟩ := markLeft_row (getParticipant_mem hget) now
  exact ⟨q, hq, hid.trans (Keyed.key_of_find? hget), hclosed⟩

/-- Ending for all closes the host's own row. -/
theorem departed_hostEndMeeting {actor : Participant} {v : MeetingView}
    (hactor : actor ∈ db.participants) (h : hostEndMeeting db actor now = .ok (v, db')) :
    db'.Departed actor.id := by
  have hop : db.apply (.hostEndMeeting actor.id now) = db' :=
    apply_of_ok (runOperation_hostEndMeeting (Keyed.find?_of_mem hactor) h)
  obtain ⟨q, hq, he⟩ := row_apply hactor (.hostEndMeeting actor.id now)
  rw [hop] at hq
  obtain ⟨m, hm, -, rfl⟩ := hostEndMeeting_eq_ok.mp h
  have hmeeting : m.id = actor.meetingId := Keyed.key_of_find? (requireHost_eq_ok.mp hm).1
  exact ⟨q, hq, he.id, evictAll_rows _ m.id now q hq (he.meetingId.trans hmeeting.symm)⟩

/-- **What a handler leaves to send** are replies. -/
theorem handle_reply (h : handle db r d inbound id now = .ok (db', actions)) :
    ∀ a ∈ actions, a.Reply db' d := by
  unfold handle at h
  split at h
  · -- ping
    obtain ⟨-, rfl⟩ := Prod.mk.inj (Except.ok.inj h)
    intro a ha
    obtain rfl := List.mem_singleton.mp ha
    exact .plain _ ⟨_, rfl, rfl⟩
  · obtain ⟨t, -, -, -, rfl⟩ := handleSignal_eq_ok.mp h
    intro a ha
    obtain rfl := List.mem_singleton.mp ha
    exact .relay _ _ t
  · obtain ⟨v, -, rfl⟩ := handleStateUpdate_eq_ok.mp h
    intro a ha
    obtain rfl := List.mem_singleton.mp ha
    exact reply_peerUpdated v
  · obtain ⟨body, v, -, -, rfl⟩ := handleChatSend_eq_ok.mp h
    intro a ha
    obtain rfl := List.mem_singleton.mp ha
    exact .plain _ ⟨_, rfl, rfl⟩
  · obtain ⟨t, actor, v, -, -, -, rfl⟩ := handleHostMute_eq_ok.mp h
    intro a ha
    simp only [List.mem_cons, List.not_mem_nil, or_false] at ha
    rcases ha with rfl | rfl
    · exact reply_mutedYou t
    · exact reply_peerUpdated v
  · obtain ⟨actor, vs, -, -, rfl⟩ := handleHostMuteAll_eq_ok.mp h
    intro a ha
    obtain ⟨v, -, ha⟩ := List.mem_flatMap.mp ha
    simp only [List.mem_cons, List.not_mem_nil, or_false] at ha
    rcases ha with rfl | rfl
    · exact reply_mutedYou v.id
    · exact reply_peerUpdated v
  · obtain ⟨t, actor, v, -, -, hremove, rfl⟩ := handleHostRemove_eq_ok.mp h
    exact reply_removal (departed_hostRemove hremove)
  · obtain ⟨actor, v, hactor, hend, rfl⟩ := handleHostEnd_eq_ok.mp h
    exact reply_ending ⟨_, departed_hostEndMeeting (getParticipant_mem hactor) hend⟩

theorem onMessage_reply (db : Db) (r : RoomRegistry) (d : Connection) (message : Json)
    (id : String) (now : DateTime) :
    ∀ a ∈ (onMessage db r d message id now).2, a.Reply (onMessage db r d message id now).1 d := by
  unfold onMessage
  split
  · next answer hread =>
    intro a ha
    obtain rfl := List.mem_singleton.mp ha
    have hplain : answer.body.plain = true := by
      unfold readMessage at hread
      split at hread
      · dsimp only at hread
        split at hread
        · split at hread
          · cases hread
          · cases hread
            rfl
        · cases hread
          rfl
      · cases hread
        rfl
    exact .plain _ ⟨answer, rfl, hplain⟩
  · split
    · next db' actions h => exact handle_reply h
    · next e h =>
      intro a ha
      obtain rfl := List.mem_singleton.mp ha
      exact reply_failure d e

/-- **What a teardown leaves to send**: a `peer.left` once the row is closed. -/
theorem teardown_reply (s : Server) (d : Connection) (now : DateTime) :
    ∀ a ∈ (teardown s d now).2, a.Reply (teardown s d now).1.db d := by
  intro a ha
  simp only [teardown, releaseConnection_eq] at ha ⊢
  split at ha
  · cases ha
  · next p hp =>
    obtain rfl := List.mem_singleton.mp ha
    obtain ⟨hget, -⟩ := Option.filter_eq_some_iff.mp hp
    obtain ⟨q, hq, hid, hclosed, -⟩ := markLeft_row (getParticipant_mem hget) now
    refine .farewell _ ⟨q, ?_, hid.trans (Keyed.key_of_find? hget), hclosed⟩
    exact hq

end Handlers

/-! ### What a reply puts on a socket -/

/-- A plain frame is nothing to a mesh. -/
theorem meshStep_plain {f : Frame} (hf : f.body.plain) (peers : Option PeerManager) :
    meshStep peers (.frame f) = peers := by
  show f.onPeers peers = peers
  rw [Frame.onPeers]
  cases hbody : f.body with
  | peerUpdated id isMuted isVideoOn isHandRaised => rfl
  | chatMessage message => rfl
  | hostMutedYou sentBy => rfl
  | error code message details => rfl
  | pong => rfl
  | _ =>
    rw [hbody] at hf
    cases hf

/-- The item sends its receiver home, or closes the socket. -/
def WireItem.Evicts : WireItem → Prop
  | .frame f => f.body.evicts
  | .close _ => True

/-- What a reply of the handler of `d` puts on socket `b`. -/
inductive WireItem.Reply (db : Db) (r : RoomRegistry) (d : Connection) (b : ConnectionId) :
    WireItem → Prop
  | farewell (t : ParticipantId) (f : Frame) (hf : f.body = .peerLeft t) (h : db.Departed t) :
      Reply db r d b (.frame f)
  | relay (kind : SignalKind) (payload : JsonObj) (f : Frame) (hf : f.body = .signal kind payload)
      (hsender : f.sender = some d.participantId)
      (htarget : ∃ c ∈ r.connections d.meetingId, c.connectionId = b) : Reply db r d b (.frame f)
  | evict (item : WireItem) (ha : item.Evicts) (h : ∃ t, db.Departed t) : Reply db r d b item
  | plain (f : Frame) (hf : f.body.plain) : Reply db r d b (.frame f)

theorem mem_itemsFor {b : ConnectionId} {sent : List Delivery} {item : WireItem} :
    item ∈ itemsFor b sent ↔ ∃ delivery ∈ sent, delivery.connection.connectionId = b ∧
      delivery.item = item := by
  simp [itemsFor, and_assoc]

section Perform

variable {db : Db} {r : RoomRegistry} {d : Connection} {b : ConnectionId} {a : Action}
  {script : List Action} {delivery : Delivery}

/-- An action puts its frame on sockets, or closes them. -/
theorem performNext_item (h : delivery ∈ (performNext r a script).2.1) :
    (∃ f, a.frame = some f ∧ delivery.item = .frame f) ∨
      (a.frame = none ∧ ∃ code, delivery.item = .close code) := by
  cases a with
  | send c f =>
    obtain rfl := List.mem_singleton.mp h
    exact .inl ⟨f, rfl, rfl⟩
  | sendToParticipant m p f =>
    obtain ⟨c, -, rfl⟩ := List.mem_map.mp h
    exact .inl ⟨f, rfl, rfl⟩
  | broadcast m f exclude =>
    obtain ⟨c, -, rfl⟩ := List.mem_map.mp h
    exact .inl ⟨f, rfl, rfl⟩
  | closeConnection c code =>
    obtain rfl := List.mem_singleton.mp h
    exact .inr ⟨rfl, code, rfl⟩
  | closeParticipant m p code =>
    simp only [performNext, perform] at h
    split at h
    · cases h
    · obtain rfl := List.mem_singleton.mp h
      exact .inr ⟨rfl, code, rfl⟩
  | closePeers m exclude code =>
    simp only [performNext] at h
    split at h
    · cases h
    · obtain rfl := List.mem_singleton.mp h
      exact .inr ⟨rfl, code, rfl⟩

/-- What is left of a script after an action: what was left, or more closes. -/
theorem performNext_left {a' : Action} (h : a' ∈ (performNext r a script).2.2) :
    a' ∈ script ∨ (a.frame = none ∧ a'.frame = none) := by
  cases a with
  | closePeers m exclude code =>
    simp only [performNext] at h
    split at h
    · exact .inl h
    · rcases List.mem_append.mp h with h | h
      · obtain ⟨c, -, rfl⟩ := List.mem_map.mp h
        exact .inr ⟨rfl, rfl⟩
      · exact .inl h
  | _ => exact .inl h

/-- **A reply on a socket.** -/
theorem Action.Reply.item (ha : a.Reply db d) {item : WireItem}
    (h : item ∈ itemsFor b (performNext r a script).2.1) : item.Reply db r d b := by
  obtain ⟨delivery, hdelivery, hb, rfl⟩ := mem_itemsFor.mp h
  have hitem := performNext_item hdelivery
  cases ha with
  | farewell t hclosed =>
    rcases hitem with ⟨f, hf, hitem⟩ | ⟨hnone, -⟩
    · rw [hitem]
      obtain rfl := Option.some.inj hf
      exact .farewell t _ rfl hclosed
    · cases hnone
  | relay kind inbound t =>
    obtain ⟨c, hc, rfl⟩ := List.mem_map.mp hdelivery
    obtain ⟨hmem, -⟩ := RoomRegistry.find_mem (Option.mem_toList.mp hc)
    exact .relay kind _ _ rfl rfl ⟨c, hmem, hb⟩
  | evict a ha hclosed =>
    refine .evict _ ?_ hclosed
    rcases hitem with ⟨f, hf, hitem⟩ | ⟨-, code, hitem⟩
    · rw [hitem]
      exact ha f hf
    · rw [hitem]
      trivial
  | plain a ha =>
    obtain ⟨f, hf, hplain⟩ := ha
    rcases hitem with ⟨f', hf', hitem⟩ | ⟨hnone, -⟩
    · rw [hitem]
      obtain rfl := Option.some.inj (hf.symm.trans hf')
      exact .plain f hplain
    · rw [hnone] at hf
      cases hf

/-- A reply announces nobody. -/
theorem WireItem.Reply.joins {item : WireItem} (h : item.Reply db r d b) : item.joins = none := by
  cases h with
  | farewell t f hf hclosed => rw [WireItem.joins, hf]
  | relay kind payload f hf hsender htarget => rw [WireItem.joins, hf]
  | evict item ha hclosed =>
    cases item with
    | close code => rfl
    | frame f =>
      have hevicts : f.body.evicts = true := ha
      rw [WireItem.joins]
      cases hbody : f.body with
      | peerJoined v =>
        rw [hbody] at hevicts
        cases hevicts
      | _ => rfl
  | plain f hplain =>
    rw [WireItem.joins]
    cases hbody : f.body with
    | peerJoined v =>
      rw [hbody] at hplain
      cases hplain
    | _ => rfl

/-- Whom a reply says goodbye to has a closed row. -/
theorem WireItem.Reply.parts {item : WireItem} (h : item.Reply db r d b) {t : ParticipantId}
    (ht : item.parts = some t) : db.Departed t := by
  cases h with
  | farewell t' f hf hclosed =>
    rw [WireItem.parts, hf] at ht
    exact Option.some.inj ht ▸ hclosed
  | relay kind payload f hf hsender htarget =>
    rw [WireItem.parts, hf] at ht
    cases ht
  | evict item ha hclosed =>
    cases item with
    | close code => cases ht
    | frame f =>
      have hevicts : f.body.evicts = true := ha
      rw [WireItem.parts] at ht
      cases hbody : f.body with
      | peerLeft t' =>
        rw [hbody] at hevicts
        cases hevicts
      | _ =>
        rw [hbody] at ht
        cases ht
  | plain f hplain =>
    rw [WireItem.parts] at ht
    cases hbody : f.body with
    | peerLeft t' =>
      rw [hbody] at hplain
      cases hplain
    | _ =>
      rw [hbody] at ht
      cases ht

/-- What is left of a script of replies are replies. -/
theorem Action.Reply.left (ha : a.Reply db d) (hscript : ∀ a' ∈ script, a'.Reply db d) :
    ∀ a' ∈ (performNext r a script).2.2, a'.Reply db d := by
  intro a' ha'
  rcases performNext_left ha' with hmem | ⟨hnone, hnone'⟩
  · exact hscript a' hmem
  · -- Only an eviction sends no frame.
    cases ha with
    | farewell t hclosed => cases hnone
    | relay kind inbound t => cases hnone
    | evict a ha hclosed =>
      refine .evict _ ?_ hclosed
      intro f hf
      rw [hnone'] at hf
      cases hf
    | plain a ha =>
      obtain ⟨f, hf, -⟩ := ha
      rw [hnone] at hf
      cases hf

theorem Db.Departed.apply {t : ParticipantId} (h : db.Departed t) (op : Operation) :
    (db.apply op).Departed t := by
  obtain ⟨row, hrow, hid, hclosed⟩ := h
  obtain ⟨row', hrow', he⟩ := row_apply hrow op
  exact ⟨row', hrow', he.id.trans hid, fun hopen => hclosed (he.open_of_open hopen)⟩

theorem Action.Reply.apply (ha : a.Reply db d) (op : Operation) : a.Reply (db.apply op) d := by
  cases ha with
  | farewell t h => exact .farewell t (h.apply op)
  | relay kind inbound t => exact .relay kind inbound t
  | evict a ha h => exact .evict a ha (h.imp fun t ht => ht.apply op)
  | plain a ha => exact .plain a ha

end Perform

namespace Network

variable {n n' : Network} {e : NetEvent}

/-- **The script of a handler**: the announcement alone, or replies. -/
def Scripted (n : Network) : Prop :=
  ∀ c d down script, n.tasks c = some (.handling d down script) →
    (∃ you : ParticipantView, you.id = d.participantId ∧ down = false ∧ script = [announce d you]) ∨
      ∀ a ∈ script, a.Reply n.server.db d

theorem Step.reply (h : n.Step e n') {d : Connection} {a : Action} (ha : a.Reply n.server.db d) :
    a.Reply n'.server.db d := by
  rcases h.db with heq | ⟨op, heq, -⟩
  · rwa [heq]
  · rw [heq]
    exact ha.apply op

/-- **A script of replies** goes on as one. -/
theorem Step.replies (h : n.Step e n') {c : ConnectionId} {d : Connection} {down : Bool}
    {script : List Action} (htask : n.tasks c = some (.handling d down script))
    (hreply : ∀ a ∈ script, a.Reply n.server.db d) :
    ∃ down' script', n'.tasks c = some (.handling d down' script') ∧
      ∀ a ∈ script', a.Reply n'.server.db d := by
  rcases h.task c with heq | ⟨hnone, -⟩ | ⟨t, t', ht, ht', hmoves⟩
  · exact ⟨down, script, heq.trans htask, fun a ha => h.reply (hreply a ha)⟩
  · rw [htask] at hnone
    cases hnone
  · rw [htask] at ht
    obtain rfl := Option.some.inj ht
    cases hmoves with
    | acted _ _ a script left hleft =>
      refine ⟨down, left, ht', ?_⟩
      intro a' ha'
      rw [← hleft] at ha'
      exact h.reply ((hreply a List.mem_cons_self).left
        (fun a' ha' => hreply a' (List.mem_cons_of_mem a ha')) a' ha')
    | handled _ message id now actions hactions =>
      refine ⟨false, actions, ht', ?_⟩
      intro a ha
      cases h with
      | handled connection db actions' htask' hlive hmessage =>
        rw [htask] at htask'
        cases htask'
        have hreply := onMessage_reply n.server.db n.server.registry d message id now
        rw [hactions] at hreply
        rw [hmessage] at hreply
        exact hreply a ha
    | tornDown _ now actions hactions =>
      refine ⟨true, actions, ht', ?_⟩
      intro a ha
      cases h with
      | tornDown connection server actions' htask' hteardown =>
        rw [htask] at htask'
        cases htask'
        have hreply := teardown_reply n.server d now
        rw [hactions] at hreply
        rw [hteardown] at hreply
        exact hreply a ha
      | abandoned htask' =>
        rw [htask] at htask'
        rcases htask' with ⟨url, htask'⟩ | ⟨m, q, htask'⟩
        · cases htask'
        · cases htask'

theorem Scripted.step (hs : n.Scripted) (h : n.Step e n') : n'.Scripted := by
  intro c d down script htask'
  -- Replies before are replies after.
  have hafter {down₀ : Bool} {script₀ : List Action}
      (htask : n.tasks c = some (.handling d down₀ script₀))
      (hreply : ∀ a ∈ script₀, a.Reply n.server.db d) : ∀ a ∈ script, a.Reply n'.server.db d := by
    obtain ⟨down₁, script₁, htask₁, hreply₁⟩ := h.replies htask hreply
    rw [htask'] at htask₁
    cases htask₁
    exact hreply₁
  rcases h.task c with heq | ⟨-, -, url, hurl, -⟩ | ⟨t, t', ht, ht', hmoves⟩
  · rw [heq] at htask'
    exact (hs c d down script htask').imp_right (hafter htask')
  · rw [hurl] at htask'
    cases htask'
  · rw [htask'] at ht'
    obtain rfl := Option.some.inj ht'
    cases hmoves with
    | registered m q you hyou => exact .inl ⟨you, hyou, rfl, rfl⟩
    | acted _ _ a script₀ left hleft =>
      right
      rcases hs c d down (a :: script₀) ht with ⟨you, -, -, hscript⟩ | hreply
      · -- The announcement was all there was.
        obtain ⟨rfl, rfl⟩ := List.cons.inj hscript
        rw [← hleft]
        intro a' ha'
        cases ha'
      · exact hafter ht hreply
    | handled _ message id now actions hactions =>
      exact .inr (hafter ht fun a ha => absurd ha List.not_mem_nil)
    | tornDown _ now actions hactions =>
      exact .inr (hafter ht fun a ha => absurd ha List.not_mem_nil)

theorem scripted_init : ({} : Network).Scripted := by
  intro c d down script htask
  cases htask

theorem Scripted.next (hv : n.Valid) (hs : n.Scripted) (e : NetEvent) : (n.next e).Scripted := by
  rcases next_cases hv.server e with h | h
  · rw [h]
    exact hs
  · exact hs.step h

/-! ### What an event puts on a socket -/

/-- The event announces the participant of another socket to socket `b`. -/
def AnnouncesTo (n : Network) (b : ConnectionId) (e : NetEvent) : Prop :=
  ∃ c d you, e = .act c ∧ n.tasks c = some (.handling d false [announce d you]) ∧ b ≠ c ∧
    ∃ d' ∈ n.server.registry.connections d.meetingId, d'.connectionId = b

/-- What an event puts on socket `b`. -/
inductive Sends (n : Network) (b : ConnectionId) : NetEvent → List WireItem → Prop
  | nothing {e : NetEvent} (hregister : e ≠ .register b) (hact : ¬ n.AnnouncesTo b e) :
    Sends n b e []
  | refusal (url : SignalingUrl) (err : Raised) (htask : n.tasks b = some (.requested url))
      (hauth : authenticate n.server.db url.meetingNumber url.sessionId = .error err) :
      Sends n b (.authenticate b) refusal
  | snapshot (m : Meeting) (q : Participant) (snapshot : RoomSnapshot)
      (htask : n.tasks b = some (.accepting m q)) (hyou : snapshot.you.id = q.id)
      (hroster : snapshot.participants = activeRoster (bindConnection n.server.db q.id b) m.id) :
      Sends n b (.register b) [.frame { body := .roomState snapshot, recipient := some q.id }]
  | announced (c : ConnectionId) (d : Connection) (you : ParticipantView)
      (htask : n.tasks c = some (.handling d false [announce d you]))
      (hyou : you.id = d.participantId)
      (htarget : ∃ d' ∈ n.server.registry.connections d.meetingId, d'.connectionId = b)
      (hne : b ≠ c) :
      Sends n b (.act c) [.frame { body := .peerJoined you, sender := some d.participantId }]
  | replies (c : ConnectionId) (d : Connection) (down : Bool) (a : Action) (script : List Action)
      (items : List WireItem) (htask : n.tasks c = some (.handling d down (a :: script)))
      (ha : a.Reply n.server.db d)
      (hitems : ∀ item ∈ items, item.Reply n.server.db n.server.registry d b) :
      Sends n b (.act c) items

/-- The handler of a socket comes to its next send. -/
def pushes : NetEvent → Bool
  | .register _ => true
  | .act _ => true
  | _ => false

theorem sends_nothing {b : ConnectionId} (h : pushes e = false) : Sends n b e [] := by
  refine .nothing ?_ ?_
  · rintro rfl
    cases h
  · rintro ⟨c, -, -, rfl, -⟩
    cases h

/-- What a broadcast puts on one socket: its frame, once. -/
theorem itemsFor_broadcast (r : RoomRegistry) (m : MeetingId) (f : Frame)
    (exclude : Option ConnectionId) (b : ConnectionId) :
    itemsFor b ((broadcastTargets r m exclude).map fun c => ⟨c, .frame f⟩) =
      if some b = exclude then [] else ((r.members m).find? b).toList.map fun _ => .frame f := by
  have hmap : itemsFor b ((broadcastTargets r m exclude).map fun c => ⟨c, .frame f⟩) =
      ((r.connections m).filter fun c => c.connectionId = b ∧ some c.connectionId ≠ exclude).map
        fun _ => .frame f := by
    rw [itemsFor, List.filter_map, List.map_map, broadcastTargets, List.filter_filter]
    simp only [Function.comp_def, Bool.decide_and]
  rw [hmap]
  split
  · next hexclude =>
    have hnone : (r.connections m).filter
        (fun c => c.connectionId = b ∧ some c.connectionId ≠ exclude) = [] := by
      refine List.filter_eq_nil_iff.mpr ?_
      intro c _
      rw [decide_eq_true_eq]
      rintro ⟨hc, hne⟩
      exact hne (by rw [hc, hexclude])
    rw [hnone, List.map_nil]
  · next hexclude =>
    have hsame : (r.connections m).filter
        (fun c => c.connectionId = b ∧ some c.connectionId ≠ exclude) =
          (r.members m).rows.filter fun c => c.connectionId = b := by
      refine List.filter_congr ?_
      intro c _
      rw [decide_eq_decide]
      constructor
      · exact fun h => h.1
      · rintro rfl
        exact ⟨rfl, hexclude⟩
    rw [hsame, Keyed.filter_key]

/-- What the announcement of a socket puts on the others: its frame, on every
other socket of the room. -/
theorem itemsFor_announce (r : RoomRegistry) (d : Connection) (you : ParticipantView)
    (script : List Action) (b : ConnectionId) :
    itemsFor b (performNext r (announce d you) script).2.1 =
      if b = d.connectionId then []
      else ((r.members d.meetingId).find? b).toList.map fun _ =>
        .frame { body := .peerJoined you, sender := some d.participantId } := by
  have h := itemsFor_broadcast r d.meetingId
    { body := .peerJoined you, sender := some d.participantId } (some d.connectionId) b
  simp only [Option.some.injEq] at h
  exact h

theorem itemsFor_cons_self (delivery : Delivery) (sent : List Delivery) :
    itemsFor delivery.connection.connectionId (delivery :: sent) =
      delivery.item :: itemsFor delivery.connection.connectionId sent := by
  rw [itemsFor, List.filter_cons_of_pos (by simp), List.map_cons]
  rfl

/-- What a socket is sent first, when the others are told of it. -/
theorem itemsFor_welcome (r : RoomRegistry) (m : MeetingId) (d : Connection) (f g : Frame) :
    itemsFor d.connectionId (⟨d, .frame f⟩ ::
      (broadcastTargets r m (some d.connectionId)).map fun e => ⟨e, .frame g⟩) = [.frame f] := by
  rw [itemsFor_cons_self ⟨d, .frame f⟩, itemsFor_broadcast, if_pos rfl]

theorem itemsFor_singleton (b : ConnectionId) (delivery : Delivery) :
    itemsFor b [delivery] = if delivery.connection.connectionId = b then
      [delivery.item] else [] := by
  rw [itemsFor]
  by_cases h : delivery.connection.connectionId = b
  · rw [List.filter_cons_of_pos (by simpa using h), if_pos h]
    rfl
  · rw [List.filter_cons_of_neg (by simpa using h), if_neg h]
    rfl

/-- The announcement of a socket puts something on the others of the room only. -/
theorem sends_announce {c : ConnectionId} {d : Connection} {you : ParticipantView}
    (htask : n.tasks c = some (.handling d false [announce d you]))
    (hyou : you.id = d.participantId)
    (hid : d.connectionId = c) (b : ConnectionId) :
    Sends n b (.act c) (itemsFor b (performNext n.server.registry (announce d you) []).2.1) := by
  rw [itemsFor_announce, hid]
  split
  · next hc =>
    refine .nothing (fun he => by cases he) ?_
    rintro ⟨c', d', you', he, -, hne, -⟩
    cases he
    exact hne hc
  · next hne =>
    cases hfind : (n.server.registry.members d.meetingId).find? b with
    | none =>
      refine .nothing (fun he => by cases he) ?_
      rintro ⟨c', d', you', he, htask', -, d'', hd'', hid''⟩
      cases he
      rw [htask] at htask'
      cases htask'
      rw [Keyed.find?_eq_none] at hfind
      exact hfind (Keyed.mem_keys.mpr ⟨d'', hd'', hid''⟩)
    | some d' =>
      exact .announced c d you htask hyou
        ⟨d', Keyed.mem_of_find? hfind, Keyed.key_of_find? hfind⟩ hne

/-- **The wire of a socket over one event**: the event puts something on it, or
the browser takes the next item off it. -/
theorem Step.sends (hv : n.Valid) (hs : n.Scripted) (h : n.Step e n') {b : ConnectionId}
    (hb : n.tasks b ≠ none) :
    (∃ sent, Sends n b e sent ∧ (n'.wires b).pending = (n.wires b).pending ++ sent) ∨
      ∃ p item, e = .deliver p ∧ (n.clients p).socket = some b ∧
        (n.wires b).pending = item :: (n'.wires b).pending := by
  -- An event that leaves the wire alone.
  have hkept (hwire : n'.wires b = n.wires b) (hpushes : pushes e = false) :
      ∃ sent, Sends n b e sent ∧ (n'.wires b).pending = (n.wires b).pending ++ sent :=
    ⟨[], sends_nothing hpushes, by rw [hwire, List.append_nil]⟩
  -- A socket that has a task is not the one that is asked for.
  have hother {c : ConnectionId} (hfresh : n.tasks c = none) (w : Wire) :
      Function.update n.wires c w b = n.wires b := by
    refine Function.update_of_ne ?_ ..
    rintro rfl
    exact hb hfresh
  cases h with
  | joined response db room req hroom hfresh hpost =>
    exact .inl (hkept (hother hfresh {}) rfl)
  | reconnected client hfresh hclient htimer =>
    exact .inl (hkept (hother hfresh {}) rfl)
  | @refused c url err htask hauth =>
    left
    by_cases hc : b = c
    · subst hc
      refine ⟨refusal, .refusal url err htask hauth, ?_⟩
      show (Function.update n.wires b _ b).pending = _
      rw [Function.update_self]
      rfl
    · exact hkept (Function.update_of_ne hc ..) rfl
  | @registered c m q snapshot hyou hroster htask =>
    left
    refine ⟨itemsFor b _, ?_, rfl⟩
    rw [itemsFor_singleton]
    split
    · next hc =>
      have hc : c = b := hc
      subst hc
      exact .snapshot m q snapshot htask hyou hroster
    · next hc =>
      refine .nothing (fun he => hc (NetEvent.register.inj he)) ?_
      rintro ⟨c', -, -, he, -⟩
      cases he
  | @acted c d down a script left registry sent htask hperform =>
    left
    refine ⟨itemsFor b sent, ?_, rfl⟩
    have hsent : sent = (performNext n.server.registry a script).2.1 := by rw [hperform]
    rw [hsent]
    rcases hs c d down (a :: script) htask with ⟨you, hyou, rfl, hscript⟩ | hreply
    · obtain ⟨rfl, rfl⟩ := List.cons.inj hscript
      obtain ⟨hid, -⟩ := hv.handling c d false _ htask
      exact sends_announce htask hyou hid b
    · exact .replies c d down a script _ htask (hreply a List.mem_cons_self) fun item hitem =>
        (hreply a List.mem_cons_self).item hitem
  | @delivered p c item rest hsocket hpending =>
    by_cases hc : b = c
    · subst hc
      right
      refine ⟨p, item, rfl, hsocket, ?_⟩
      show _ = item :: (Function.update n.wires b _ b).pending
      rw [Function.update_self, hpending]
    · exact .inl (hkept (Function.update_of_ne hc ..) rfl)
  | asked => exact .inl (hkept rfl rfl)
  | admitted url meeting participant htask hauth =>
    exact .inl (hkept rfl rfl)
  | handled connection db actions htask hlive hmessage =>
    exact .inl (hkept rfl rfl)
  | tornDown connection server actions htask hteardown =>
    exact .inl (hkept rfl rfl)
  | abandoned htask =>
    exact .inl (hkept rfl rfl)
  | dropped hsocket =>
    exact .inl (hkept rfl rfl)
  | left hphase =>
    exact .inl (hkept rfl rfl)

/-- What is put on a wire says goodbye to closed rows only. -/
theorem Sends.parts {b : ConnectionId} {sent : List WireItem} (h : Sends n b e sent)
    {item : WireItem} (hitem : item ∈ sent) {t : ParticipantId} (ht : item.parts = some t) :
    n.server.db.Departed t := by
  cases h with
  | nothing hregister hact => cases hitem
  | refusal url err htask hauth =>
    rcases List.mem_cons.mp hitem with rfl | hitem
    · cases ht
    · obtain rfl := List.mem_singleton.mp hitem
      cases ht
  | snapshot m q snapshot htask hyou hroster =>
    obtain rfl := List.mem_singleton.mp hitem
    cases ht
  | announced c d you htask hyou htarget hne =>
    obtain rfl := List.mem_singleton.mp hitem
    cases ht
  | replies c d down a script items htask ha hitems => exact (hitems item hitem).parts ht

/-- Whom something that is put on a wire announces. -/
theorem Sends.joins {b : ConnectionId} {sent : List WireItem} (h : Sends n b e sent)
    {item : WireItem} (hitem : item ∈ sent) {p : ParticipantId} (hp : item.joins = some p) :
    n.AnnouncesTo b e := by
  cases h with
  | nothing hregister hact => cases hitem
  | refusal url err htask hauth =>
    rcases List.mem_cons.mp hitem with rfl | hitem
    · cases hp
    · obtain rfl := List.mem_singleton.mp hitem
      cases hp
  | snapshot m q snapshot htask hyou hroster =>
    obtain rfl := List.mem_singleton.mp hitem
    cases hp
  | announced c d you htask hyou htarget hne => exact ⟨c, d, you, rfl, htask, hne, htarget⟩
  | replies c d down a script items htask ha hitems =>
    rw [(hitems item hitem).joins] at hp
    cases hp

/-! ### A browser and its wire -/

/-- A registered socket was registered before, or is now. -/
theorem Step.handling (h : n.Step e n') {c : ConnectionId} {d : Connection} {down : Bool}
    {script : List Action} (htask' : n'.tasks c = some (.handling d down script)) :
    (∃ down script, n.tasks c = some (.handling d down script)) ∨
      (e = .register c ∧ ∃ m q, n.tasks c = some (.accepting m q) ∧ d = ⟨c, q.id, m.id⟩) := by
  rcases h.task c with heq | ⟨-, -, url, hurl, -⟩ | ⟨t, t', ht, ht', hmoves⟩
  · rw [heq] at htask'
    exact .inl ⟨down, script, htask'⟩
  · rw [hurl] at htask'
    cases htask'
  · rw [ht'] at htask'
    obtain rfl := Option.some.inj htask'
    cases hmoves with
    | registered m q you hyou => exact .inr ⟨rfl, m, q, ht, rfl⟩
    | acted _ _ a script left hleft => exact .inl ⟨_, _, ht⟩
    | handled _ message id now actions hactions => exact .inl ⟨_, _, ht⟩
    | tornDown _ now actions hactions => exact .inl ⟨_, _, ht⟩

/-- The row of a registered socket. -/
theorem Valid.row_of_handling (hv : n.Valid) {c : ConnectionId} {d : Connection} {down : Bool}
    {script : List Action} (htask : n.tasks c = some (.handling d down script)) :
    ∃ row ∈ n.server.db.participants, row.id = d.participantId ∧ row.meetingId = d.meetingId :=
  hv.server.row d (hv.handling c d down script htask).2

/-- The connection under the id of a registered socket. -/
theorem Valid.eq_of_connections (hv : n.Valid) {c : ConnectionId} {d d' : Connection} {down : Bool}
    {script : List Action} (htask : n.tasks c = some (.handling d down script)) {m : MeetingId}
    (hd' : d' ∈ n.server.registry.connections m) (hc : d'.connectionId = c) :
    d' = d ∧ d.meetingId = m := by
  obtain ⟨hm, hs⟩ := hv.server.registered m d' hd'
  obtain ⟨hid, hd⟩ := hv.handling c d down script htask
  obtain rfl := Keyed.eq_of_key_eq hs hd (hc.trans hid.symm)
  exact ⟨rfl, hm⟩

/-- The task of the socket that a browser holds. -/
theorem Valid.task_of_socket (hv : n.Valid) {p : ParticipantId} {c : ConnectionId}
    (hsocket : (n.clients p).socket = some c) :
    ∃ client t, (n.clients p).signaling = some client ∧ n.tasks c = some t ∧
      t.Serves p client.url.sessionId := by
  obtain ⟨client, hclient, hlive⟩ := Option.bind_eq_some_iff.mp hsocket
  obtain ⟨t, ht, hserves⟩ := hv.serves p client c hclient hlive
  exact ⟨client, t, hclient, ht, hserves⟩

/-- The browser that holds a registered socket is that of its participant. -/
theorem Valid.owner (hv : n.Valid) {c : ConnectionId} {d : Connection} {down : Bool}
    {script : List Action} (htask : n.tasks c = some (.handling d down script)) {p : ParticipantId}
    (hsocket : (n.clients p).socket = some c) : d.participantId = p := by
  obtain ⟨client, t, -, ht, hserves⟩ := hv.task_of_socket hsocket
  rw [htask] at ht
  obtain rfl := Option.some.inj ht
  exact hserves

theorem socket_receive {room : MeetingRoom} {c c' : ConnectionId} {item : WireItem}
    (hsocket : room.socket = some c) (h : (room.receive item).socket = some c') : c = c' := by
  obtain ⟨client', hclient', hlive'⟩ := Option.bind_eq_some_iff.mp h
  obtain ⟨client, hclient, -, hlive⟩ := MeetingRoom.follows_receive hsocket item client' hclient'
  rw [MeetingRoom.socket, hclient] at hsocket
  exact Option.some.inj (hsocket.symm.trans (hlive c' hlive'))

/-- A socket that is not given up is held by one browser. -/
theorem Valid.socket_inj (hv : n.Valid) {c : ConnectionId} {t : SocketTask}
    (htask : n.tasks c = some t) (hopen : t ≠ .finished) {p q : ParticipantId}
    (hp : (n.clients p).socket = some c) (hq : (n.clients q).socket = some c) : p = q := by
  obtain ⟨client, t₁, hclient, ht₁, hserves⟩ := hv.task_of_socket hp
  obtain ⟨client', t₂, hclient', ht₂, hserves'⟩ := hv.task_of_socket hq
  obtain rfl := Option.some.inj (htask.symm.trans ht₁)
  obtain rfl := Option.some.inj (htask.symm.trans ht₂)
  cases t with
  | requested url =>
    -- The two browsers have the session of one row.
    obtain ⟨row, hrow, rfl, hsession, -⟩ := hv.client p client hclient
    obtain ⟨row', hrow', rfl, hsession', -⟩ := hv.client q client' hclient'
    have hurl : client.url.sessionId = client'.url.sessionId := Eq.trans hserves.symm hserves'
    have heq : row = row' :=
      eq_of_session hv.server.db hrow hrow' (hsession.trans (hurl.trans hsession'.symm))
    rw [heq]
  | accepting m participant => exact Eq.trans hserves.symm hserves'
  | handling d down script => exact Eq.trans hserves.symm hserves'
  | finished => exact absurd rfl hopen

/-- **A browser and its socket over one event**: the event puts something on the
wire, or the browser takes the next item off it. -/
theorem Step.browser (hv : n.Valid) (hs : n.Scripted) (h : n.Step e n') {c : ConnectionId}
    {t : SocketTask} (htask : n.tasks c = some t) (hopen : t ≠ .finished) {p : ParticipantId}
    (hsocket' : (n'.clients p).socket = some c) :
    (n.clients p).socket = some c ∧
      ((∃ sent, Sends n c e sent ∧ (n'.wires c).pending = (n.wires c).pending ++ sent ∧
          (n'.clients p).peers = (n.clients p).peers) ∨
        ∃ item, e = .deliver p ∧ (n.wires c).pending = item :: (n'.wires c).pending ∧
          (n'.clients p).peers = meshStep (n.clients p).peers item) := by
  have hsome : n.tasks c ≠ none := by
    rw [htask]
    exact Option.some_ne_none t
  cases h.client p with
  | kept he hclient =>
    rw [hclient] at hsocket' ⊢
    refine ⟨hsocket', ?_⟩
    rcases h.sends hv hs hsome with ⟨sent, hsent, hpending⟩ | ⟨q, item, rfl, hsocket, hpending⟩
    · exact .inl ⟨sent, hsent, hpending, rfl⟩
    · -- It is no other browser that takes something off this socket.
      exact absurd (congrArg NetEvent.deliver (hv.socket_inj htask hopen hsocket hsocket')) he
  | took c' item hsocket hpending hclient =>
    rw [hclient] at hsocket'
    obtain rfl := socket_receive hsocket hsocket'
    refine ⟨hsocket, .inr ⟨item, rfl, hpending, ?_⟩⟩
    rw [hclient, peers_receive]
  | joined c' hfresh hsocket hnew hpeers =>
    obtain rfl := Option.some.inj (hsocket.symm.trans hsocket')
    exact absurd hfresh hsome
  | reconnected c' hfresh hsocket hpeers =>
    obtain rfl := Option.some.inj (hsocket.symm.trans hsocket')
    exact absurd hfresh hsome
  | dropped hsocket hpeers =>
    rw [hsocket] at hsocket'
    cases hsocket'
  | left hsocket hpeers =>
    rw [hsocket] at hsocket'
    cases hsocket'

/-- **The browser behind a registered socket over one event.** -/
theorem Step.mesh (hv : n.Valid) (hs : n.Scripted) (h : n.Step e n') {c : ConnectionId}
    {d : Connection} {down : Bool} {script : List Action}
    (htask' : n'.tasks c = some (.handling d down script))
    (hsocket' : (n'.clients d.participantId).socket = some c) :
    (n.clients d.participantId).socket = some c ∧
      ((∃ sent, Sends n c e sent ∧ (n'.wires c).pending = (n.wires c).pending ++ sent ∧
          (n'.clients d.participantId).peers = (n.clients d.participantId).peers) ∨
        ∃ item, e = .deliver d.participantId ∧
          (n.wires c).pending = item :: (n'.wires c).pending ∧
          (n'.clients d.participantId).peers = meshStep
      (n.clients d.participantId).peers item) := by
  rcases h.handling htask' with ⟨down₀, script₀, htask⟩ | ⟨-, m, q, htask, -⟩
  · refine h.browser hv hs htask ?_ hsocket'
    intro heq
    cases heq
  · refine h.browser hv hs htask ?_ hsocket'
    intro heq
    cases heq

end Network

end ZoomClone
