/-
The chat drawer of a room (`MeetingRoom.tsx`, `meetingStore.ts`, `chat_service.py`).

A join asks for the chat history once; from then on the socket carries the new
messages.  Both write one list: `addMessage` appends, `setMessages` replaces.

* `ChatSession` — one session of a room, the server, and what is between them;
* `ChatSession.Valid` — what the list holds after the response, kept by every event;
* `ChatSession.InTime` — a steady clock stamps the messages in the order of their posts;
* `drawer_complete_iff` — when no message disappears.
-/
import Mathlib.Data.List.Find
import ZoomClone.AuditTrail
import ZoomClone.MeetingRoom
import ZoomClone.Queries

namespace ZoomClone

/-! ### The session -/

/-- The history request that a join issues. -/
inductive HistoryRequest where
  | asked
  /-- The response is on its way. -/
  | answered (history : List MessageView)
  | handled (history : List MessageView)
  | failed
  deriving DecidableEq

def HistoryRequest.history? : HistoryRequest → Option (List MessageView)
  | asked => none
  | answered history => some history
  | handled history => some history
  | failed => none

/-- The message of a `chat.message` frame. -/
def Frame.chat? (f : Frame) : Option MessageView :=
  match f.body with
  | .chatMessage message => some message
  | _ => none

/-- One session of a room, from the join on. -/
structure ChatSession where
  db : Db
  registry : RoomRegistry := .empty
  viewer : User
  /-- The socket of the room, as the server knows it. -/
  connection : Connection
  room : MeetingRoom
  /-- The frames on the socket that the browser has not handled. -/
  socket : List Frame := []
  request : HistoryRequest := .asked
  /-- The messages of the frames handled before the response. -/
  early : List MessageView := []
  /-- The messages of the frames handled since. -/
  late : List MessageView := []

inductive ChatEvent where
  /-- A transaction whose frames, if any, do not matter here. -/
  | operation (op : Operation)
  | chatSend (connection : Connection) (inbound : Inbound) (id : String) (now : DateTime)
  | register (connection : Connection)
  | unregister (connection : Connection)
  /-- The client opens its next socket; what was on the old one is gone. -/
  | reconnect (connectionId : ConnectionId)
  /-- A frame of another type is put on the socket. -/
  | frame (f : Frame)
  /-- The server answers the history request. -/
  | answer
  /-- The browser handles the next frame. -/
  | handleFrame
  /-- The browser handles the response. -/
  | handleHistory

/-- The stamp of a post. -/
def ChatEvent.stamp : ChatEvent → Option DateTime
  | chatSend _ _ _ now => some now
  | _ => none

/-- The frames that a fan-out puts on one socket. -/
def framesTo (sent : List Delivery) (c : Connection) : List Frame :=
  (sent.filter fun d => d.connection = c).filterMap fun d =>
    match d.item with
    | .frame f => some f
    | .close _ => none

namespace ChatSession

/-- The messages on the socket. -/
def pending (s : ChatSession) : List MessageView := s.socket.filterMap Frame.chat?

/-- The message of a frame that was handled. -/
def logged (s : ChatSession) (message : Option MessageView) : ChatSession :=
  match s.request with
  | .handled _ => { s with late := s.late ++ message.toList }
  | _ => { s with early := s.early ++ message.toList }

def step (s : ChatSession) : ChatEvent → ChatSession
  | .operation op => { s with db := s.db.apply op }
  | .chatSend connection inbound id now =>
    match handleChatSend s.db connection inbound id now with
    | .error _ => s
    | .ok (db, actions) =>
      let (registry, sent) := performAll s.registry actions
      { s with db, registry, socket := s.socket ++ framesTo sent s.connection }
  | .register connection => { s with registry := s.registry.add connection }
  | .unregister connection => { s with registry := s.registry.remove connection }
  | .reconnect connectionId => { s with
    connection := { s.connection with connectionId }, socket := [] }
  | .frame f => if f.chat?.isSome then s else { s with socket := s.socket ++ [f] }
  | .answer =>
    match s.request with
    | .asked =>
      match listMessages s.db s.room.meetingNumber s.viewer with
      | .ok history => { s with request := .answered history }
      | .error _ => { s with request := .failed }
    | _ => s
  | .handleFrame =>
    match s.socket with
    | [] => s
    | f :: socket =>
      -- A room that was left has closed its socket.
      if s.room.phase = .left then s
      else { s with room := (s.room.handleFrame f).1, socket }.logged f.chat?
  | .handleHistory =>
    match s.request with
    | .answered history =>
      { s with
        room := { s.room with store := s.room.store.setMessages history }
        request := .handled history }
    | _ => s

/-- The join of a room has just succeeded. -/
def start (db : Db) (viewer : User) (connection : Connection) (room : MeetingRoom) : ChatSession :=
  { db, viewer, connection, room }

/-- The response was handled, and the room is not left. -/
def Shows (s : ChatSession) (history : List MessageView) : Prop :=
  s.request = .handled history ∧ s.room.phase ≠ .left

/-- Nothing is missing from the list, nothing is in it twice, and it is in order. -/
structure Holds (s : ChatSession) (history : List MessageView) : Prop where
  history : ∀ m ∈ history, m ∈ s.room.store.messages
  live : ∀ m ∈ s.early ++ s.late, m ∈ s.room.store.messages
  once : (s.room.store.messages.map MessageView.id).Nodup
  inOrder : s.room.store.messages.Pairwise fun m n => m.sentAt ≤ n.sentAt

/-- **No message disappears** from the drawer. -/
def Complete (s : ChatSession) : Prop := ∀ history, s.Shows history → s.Holds history

/-- The messages that the response does not contain. -/
def newMessages (history live : List MessageView) : List MessageView :=
  live.filter fun m => m.id ∉ history.map MessageView.id

/-- What was handled before the response is in it. -/
def EarlyAnswered (s : ChatSession) : Prop :=
  ∀ history, s.Shows history → ∀ m ∈ s.early, m ∈ history

/-- What came after the response and is new is stamped in the order it came, and not
before the response. -/
def LateInOrder (s : ChatSession) : Prop :=
  ∀ history, s.Shows history →
    (newMessages history s.late).Pairwise (fun m n => m.sentAt ≤ n.sentAt) ∧
      ∀ m ∈ history, ∀ n ∈ newMessages history s.late, m.sentAt ≤ n.sentAt

end ChatSession

/-! ### Messages of a database -/

/-- The view of a stored message. -/
def Db.Stores (db : Db) (v : MessageView) : Prop :=
  ∃ c ∈ db.chatMessages, ∃ p, db.getParticipant c.participantId = some p ∧
    v = serializeMessage c p.displayName

/-- What is stored stays so, under the same name. -/
theorem Db.Stores.apply {db : Db} {v : MessageView} (h : db.Stores v) (op : Operation) :
    (db.apply op).Stores v := by
  obtain ⟨c, hc, p, hp, rfl⟩ := h
  obtain ⟨q, hq, he⟩ := row_apply (getParticipant_mem hp) op
  refine ⟨c, (keeps_apply db op).messages c hc, q, ?_, by rw [he.displayName]⟩
  rw [← Keyed.key_of_find? hp, ← he.id]
  exact Keyed.find?_of_mem hq

/-- An id names one message. -/
theorem Db.Stores.eq {db : Db} {v w : MessageView} (hv : db.Stores v) (hw : db.Stores w)
    (h : v.id = w.id) : v = w := by
  obtain ⟨c, hc, p, hp, rfl⟩ := hv
  obtain ⟨d, hd, q, hq, rfl⟩ := hw
  obtain rfl := Keyed.eq_of_key_eq hc hd h
  obtain rfl := Option.some.inj (hp.symm.trans hq)
  rfl

/-- A post stores one message, under a new id. -/
theorem postMessage_stores {db db' : Db} {meetingId : MeetingId} {participantId : ParticipantId}
    {body id : String} {now : DateTime} {v : MessageView}
    (h : postMessage db meetingId participantId body id now = .ok (v, db')) :
    db'.Stores v ∧ (∀ w, db.Stores w → w.id ≠ v.id) ∧ v.sentAt = now ∧ v.meetingId = meetingId := by
  obtain ⟨-, p, hp, -, hins, rfl⟩ := postMessage_eq_ok.mp h
  obtain ⟨hid, rfl⟩ := Db.insertMessage_eq_ok.mp hins
  refine ⟨⟨_, (Keyed.mem_insert (h := hid)).mpr (.inr rfl), p, hp, rfl⟩, ?_, rfl, rfl⟩
  rintro w ⟨c, hc, q, -, rfl⟩ heq
  have hkey : c.id ∈ db.chatMessages.keys := Keyed.key_mem_keys hc
  rw [show c.id = id from heq] at hkey
  exact hid hkey

theorem mem_transcript {db : Db} {meetingId : MeetingId} {v : MessageView} :
    v ∈ transcript db meetingId ↔ db.Stores v ∧ v.meetingId = meetingId := by
  rw [transcript, List.mem_insertionSort, List.mem_filterMap]
  constructor
  · rintro ⟨c, hc, h⟩
    split at h
    · next hmeeting =>
      obtain ⟨p, hp, rfl⟩ := Option.map_eq_some_iff.mp h
      exact ⟨⟨c, hc, p, hp, rfl⟩, hmeeting⟩
    · cases h
  · rintro ⟨⟨c, hc, p, hp, rfl⟩, hmeeting⟩
    have hmeeting : c.meetingId = meetingId := hmeeting
    refine ⟨c, hc, ?_⟩
    rw [if_pos hmeeting, hp]
    rfl

theorem transcript_once (db : Db) (meetingId : MeetingId) :
    ((transcript db meetingId).map MessageView.id).Nodup := by
  rw [transcript, ((List.perm_insertionSort _ _).map _).nodup_iff, List.Nodup, List.pairwise_map]
  refine (List.pairwise_map.mp db.chatMessages.nodup).filterMap _ ?_
  intro c d hne v hv w hw
  split at hv
  · split at hw
    · obtain ⟨p, -, rfl⟩ := Option.map_eq_some_iff.mp hv
      obtain ⟨q, -, rfl⟩ := Option.map_eq_some_iff.mp hw
      exact hne
    · cases hw
  · cases hv

theorem transcript_inOrder (db : Db) (meetingId : MeetingId) :
    (transcript db meetingId).Pairwise fun m n => m.sentAt ≤ n.sentAt := by
  have : Std.Total fun m n : MessageView => m.sentAt ≤ n.sentAt := ⟨fun m n => le_total _ _⟩
  have : IsTrans MessageView fun m n => m.sentAt ≤ n.sentAt := ⟨fun _ _ _ => le_trans⟩
  exact List.pairwise_insertionSort _ _

theorem listMessages_ok {db : Db} {raw : String} {viewer : User} {limit : Int}
    {history : List MessageView}
    (h : listMessages db raw viewer limit = .ok history) :
    ∃ m k, getByNumber db raw = .ok m ∧ history = (transcript db m.id).take k := by
  obtain ⟨m, hm, h⟩ := Service.bind_eq_ok.mp h
  obtain ⟨-, -, h⟩ := Service.bind_eq_ok.mp h
  exact ⟨m, _, hm, (Service.pure_eq_ok.mp h).symm⟩

/-- A meeting stays the one with its number. -/
theorem getByNumber_apply {db : Db} {raw : String} {m : Meeting} (h : getByNumber db raw = .ok m)
    (op : Operation) : ∃ m', getByNumber (db.apply op) raw = .ok m' ∧ m'.id = m.id := by
  obtain ⟨f, added, hmove⟩ := apply_meetings db op
  rw [getByNumber_eq_ok, Db.meetingByNumber] at h
  have hsame : ∀ n ∈ db.meetings.rows, decide ((f n).meetingNumber = normalizeMeetingNumber raw) =
      decide (n.meetingNumber = normalizeMeetingNumber raw) := fun n hn => by
    rw [(hmove.moves n hn).meetingNumber]
  refine ⟨f m, ?_, (hmove.moves m (List.mem_of_find?_eq_some h)).id⟩
  rw [getByNumber_eq_ok, Db.meetingByNumber, hmove.rows, List.find?_append, List.find?_map]
  simp only [Function.comp_def]
  rw [List.find?_congr hsame, h]
  rfl

/-! ### Frames -/

theorem handleFrame_meetingNumber (room : MeetingRoom) (f : Frame) :
    (room.handleFrame f).1.meetingNumber = room.meetingNumber := by
  rw [MeetingRoom.handleFrame]
  cases f.body with
  | signal kind payload => cases f.sender <;> rfl
  | _ => rfl

theorem patchParticipant_messages (s : MeetingStore) (id : ParticipantId) (changes : MediaPatch) :
    (s.patchParticipant id changes).messages = s.messages := by
  rw [MeetingStore.patchParticipant]
  split
  · rfl
  · rfl

/-- Only a chat frame writes the list, and only leaving empties it. -/
theorem handleFrame_messages (room : MeetingRoom) (f : Frame) :
    (room.handleFrame f).1.phase = .left ∨
    (room.handleFrame f).1.store.messages =
      (f.chat?.elim room.store room.store.addMessage).messages := by
  rw [MeetingRoom.handleFrame, Frame.chat?]
  cases f.body with
  | roomState snapshot => exact .inr (patchParticipant_messages ..)
  | peerUpdated participantId isMuted isVideoOn isHandRaised =>
    exact .inr (patchParticipant_messages ..)
  | signal kind payload =>
    cases f.sender with
    | none => exact .inr rfl
    | some sender => exact .inr rfl
  | hostRemovedYou sentBy => exact .inl rfl
  | meetingEnded sentBy => exact .inl rfl
  | _ => exact .inr rfl

theorem addMessage_messages (s : MeetingStore) (m : MessageView) : (s.addMessage m).messages =
    if m.id ∈ s.messages.map MessageView.id then s.messages else s.messages ++ [m] := by
  have hany : (s.messages.any fun n => n.id = m.id) = true ↔
      m.id ∈ s.messages.map MessageView.id := by
    simp
  rw [MeetingStore.addMessage]
  simp only [hany]
  split <;> rfl

/-- A fan-out to a room puts its frame on a socket once, if the socket is there. -/
theorem framesTo_broadcast (r : RoomRegistry) (m : MeetingId) (f : Frame) (c : Connection) :
    framesTo (performAll r [.broadcast m f none]).2 c = if c ∈ r.connections m then
      [f] else [] := by
  have hnodup : (r.connections m).Nodup := (r.members m).nodup.of_map _
  have hsent : (performAll r [.broadcast m f none]).2 =
      (r.connections m).map fun c => ⟨c, .frame f⟩ := by
    simp [performAll, perform]
  have hcount : (r.connections m).filter (fun d => d = c) = if c ∈ r.connections m then
      [c] else [] := by
    rw [List.filter_eq, hnodup.count]
    split <;> rfl
  rw [framesTo, hsent, List.filter_map]
  simp only [Function.comp_def, hcount]
  split <;> rfl

namespace ChatSession

/-- The messages of the frames of this session, in the order of their posts. -/
def traffic (s : ChatSession) : List MessageView := s.early ++ s.late ++ s.pending

theorem traffic_append (s : ChatSession) (db : Db) (f : Frame) :
    traffic { s with db, socket := s.socket ++ [f] } = s.traffic ++ f.chat?.toList := by
  have hone : [f].filterMap Frame.chat? = f.chat?.toList := by
    rw [List.filterMap_cons, List.filterMap_nil]
    cases f.chat? <;> rfl
  simp only [traffic, pending, List.filterMap_append, hone, List.append_assoc]

theorem traffic_reconnect (s : ChatSession) (c : ConnectionId) :
    (s.step (.reconnect c)).traffic.Sublist s.traffic :=
  (List.Sublist.refl _).append (List.nil_sublist _)

/-- **What a post does**: it stores a message under a new id, and puts its frame on the
socket if that is registered for the meeting. -/
theorem step_chatSend (s : ChatSession) (c : Connection) (inbound : Inbound) (id : String)
    (now : DateTime) : s.step (.chatSend c inbound id now) = s ∨
      ∃ op v f, op.time = some now ∧ f.chat? = some v ∧ (s.db.apply op).Stores v ∧
        (∀ w, s.db.Stores w → w.id ≠ v.id) ∧ v.sentAt = now ∧ v.meetingId = c.meetingId ∧
        s.step (.chatSend c inbound id now) = { s with
          db := s.db.apply op
          socket := s.socket ++ if s.connection ∈ s.registry.connections c.meetingId then
              [f] else [] } := by
  cases hsend : handleChatSend s.db c inbound id now with
  | error e => exact .inl (by simp only [step, hsend])
  | ok result =>
    obtain ⟨db', actions⟩ := result
    obtain ⟨body, v, -, hpost, rfl⟩ := handleChatSend_eq_ok.mp hsend
    obtain ⟨hstores, hnew, hnow, hmeeting⟩ := postMessage_stores hpost
    have hdb : s.db.apply
      (.postMessage c.meetingId c.participantId (PyStr.take body maxChatBodyLength)
        id now) = db' := apply_of_ok (Service.commit_eq_ok.mpr ⟨v, hpost⟩)
    refine .inr ⟨_, v, { body := .chatMessage v, sender := some c.participantId }, rfl, rfl,
      hdb ▸ hstores, hnew, hnow, hmeeting, ?_⟩
    simp only [step, hsend, hdb, chatMessage, framesTo_broadcast]
    rfl

/-- What the list holds. -/
structure Valid (s : ChatSession) : Prop where
  stored : ∀ v ∈ s.traffic, s.db.Stores v
  once : (s.traffic.map MessageView.id).Nodup
  history : ∀ history, s.request.history? = some history →
    (∀ v ∈ history, s.db.Stores v) ∧ (history.map MessageView.id).Nodup ∧
      history.Pairwise fun m n => m.sentAt ≤ n.sentAt
  /-- Before the response, nothing came after it. -/
  late : (∀ history, s.request ≠ .handled history) → s.late = []
  shown : ∀ history, s.Shows history → s.room.store.messages = history ++ newMessages history s.late

theorem valid_start (db : Db) (viewer : User) (connection : Connection) (room : MeetingRoom) :
    (start db viewer connection room).Valid where
  stored := nofun
  once := List.nodup_nil
  history := nofun
  late := fun _ => rfl
  shown := fun _ h => nomatch h.1

section Valid

variable {s : ChatSession}

/-- What is on record stays there. -/
theorem Valid.apply (hv : s.Valid) (op : Operation) : Valid { s with db := s.db.apply op } where
  stored := fun v hmem => (hv.stored v hmem).apply op
  once := hv.once
  history := by
    intro history hhistory
    obtain ⟨hstored, hrest⟩ := hv.history history hhistory
    exact ⟨fun v hmem => (hstored v hmem).apply op, hrest⟩
  late := hv.late
  shown := hv.shown

/-- The frame of a new message is put on the socket, or not. -/
theorem Valid.post (hv : s.Valid) {op : Operation} {v : MessageView}
    {f : Frame} (hf : f.chat? = some v)
    (hstores : (s.db.apply op).Stores v) (hnew : ∀ w, s.db.Stores w → w.id ≠ v.id) (b : Prop)
    [Decidable b] :
    Valid { s with db := s.db.apply op, socket := s.socket ++ if b then [f] else [] } := by
  by_cases hb : b
  · have htraffic : traffic { s with
        db := s.db.apply op, socket := s.socket ++ [f] } = s.traffic ++ [v] := by
      rw [traffic_append, hf, Option.toList_some]
    have hvalid := hv.apply op
    rw [if_pos hb]
    refine ⟨?_, ?_, hvalid.history, hvalid.late, hvalid.shown⟩
    · rw [htraffic, List.forall_mem_append, List.forall_mem_singleton]
      exact ⟨hvalid.stored, hstores⟩
    · rw [htraffic, List.map_append, List.nodup_append]
      refine ⟨hv.once, List.nodup_singleton _, ?_⟩
      rintro _ hid _ hv' heq
      obtain ⟨w, hw, rfl⟩ := List.mem_map.mp hid
      obtain rfl := List.mem_singleton.mp hv'
      exact hnew w (hv.stored w hw) heq
  · rw [if_neg hb, List.append_nil]
    exact hv.apply op

theorem Valid.reconnect (hv : s.Valid) (c : ConnectionId) : (s.step (.reconnect c)).Valid := by
  have hsub := s.traffic_reconnect c
  exact ⟨fun v hmem => hv.stored v (hsub.subset hmem), hv.once.sublist (hsub.map _),
    hv.history, hv.late,
    hv.shown⟩

theorem Valid.frame (hv : s.Valid) (f : Frame) : (s.step (.frame f)).Valid := by
  rw [step]
  split
  · exact hv
  · next hchat =>
    have htraffic : traffic { s with socket := s.socket ++ [f] } = s.traffic := by
      rw [traffic_append, Option.not_isSome_iff_eq_none.mp hchat,
        Option.toList_none, List.append_nil]
    exact ⟨htraffic ▸ hv.stored, htraffic ▸ hv.once, hv.history, hv.late, hv.shown⟩

theorem Valid.answer (hv : s.Valid) : (s.step .answer).Valid := by
  rw [step]
  split
  · next hasked =>
    have hlate : s.late = [] := hv.late (by simp [hasked])
    split
    · next history hlist =>
      obtain ⟨m, k, -, rfl⟩ := listMessages_ok hlist
      refine ⟨hv.stored, hv.once, ?_, fun _ => hlate, fun _ h => nomatch h.1⟩
      rintro _ ⟨⟩
      have hsub := List.take_sublist k (transcript s.db m.id)
      refine ⟨fun v hmem => (mem_transcript.mp (hsub.subset hmem)).1, ?_, ?_⟩
      · exact (transcript_once s.db m.id).sublist (hsub.map _)
      · exact (transcript_inOrder s.db m.id).sublist hsub
    · exact ⟨hv.stored, hv.once, nofun, fun _ => hlate, fun _ h => nomatch h.1⟩
  · exact hv

theorem Valid.handleHistory (hv : s.Valid) : (s.step .handleHistory).Valid := by
  rw [step]
  split
  · next history hanswered =>
    have hlate : s.late = [] := hv.late (by simp [hanswered])
    refine ⟨hv.stored, hv.once, ?_, fun h => absurd rfl (h history), ?_⟩
    · rintro _ ⟨⟩
      exact hv.history history (by rw [hanswered]; rfl)
    · rintro _ ⟨⟨⟩, -⟩
      rw [hlate]
      exact (List.append_nil _).symm
  · exact hv

theorem newMessages_concat (history live : List MessageView) (m : MessageView) :
    newMessages history (live ++ [m]) =
      newMessages history live ++ if m.id ∈ history.map MessageView.id then [] else [m] := by
  rw [newMessages, newMessages, List.filter_append]
  split
  · next h => rw [List.filter_cons_of_neg (by simpa using h), List.filter_nil]
  · next h => rw [List.filter_cons_of_pos (by simpa using h), List.filter_nil]

/-- A message that is not among the late ones is added after them, unless the response
had it. -/
theorem addMessage_shown {store : MeetingStore} {history late : List MessageView} {m : MessageView}
    (hlist : store.messages = history ++ newMessages history late)
    (hm : m.id ∉ late.map MessageView.id) :
    (store.addMessage m).messages = history ++ newMessages history (late ++ [m]) := by
  rw [addMessage_messages, hlist]
  by_cases hknown : m.id ∈ history.map MessageView.id
  · have hmem : m.id ∈ (history ++ newMessages history late).map MessageView.id := by
      rw [List.map_append]
      exact List.mem_append_left _ hknown
    rw [if_pos hmem, newMessages_concat, if_pos hknown, List.append_nil]
  · have hmem : m.id ∉ (history ++ newMessages history late).map MessageView.id := by
      rw [List.map_append, List.mem_append, not_or]
      exact ⟨hknown, fun h => hm ((List.filter_sublist.map _).subset h)⟩
    rw [if_neg hmem, newMessages_concat, if_neg hknown, List.append_assoc]

section Logged

variable (s : ChatSession) (m : Option MessageView)

@[simp] theorem db_logged : (s.logged m).db = s.db := by
  rw [logged]
  split <;> rfl

@[simp] theorem request_logged : (s.logged m).request = s.request := by
  rw [logged]
  split <;> rfl

@[simp] theorem room_logged : (s.logged m).room = s.room := by
  rw [logged]
  split <;> rfl

@[simp] theorem registry_logged : (s.logged m).registry = s.registry := by
  rw [logged]
  split <;> rfl

@[simp] theorem connection_logged : (s.logged m).connection = s.connection := by
  rw [logged]
  split <;> rfl

end Logged

theorem late_logged (s : ChatSession) (m : Option MessageView) :
    (s.logged m).late = s.late ∧ (∀ history, s.request ≠ .handled history) ∨
      (s.logged m).late = s.late ++ m.toList ∧ ∃ history, s.request = .handled history := by
  rw [logged]
  split
  · next history h => exact .inr ⟨rfl, history, h⟩
  · next h => exact .inl ⟨rfl, h⟩

/-- Handling a frame moves its message from the socket to the log. -/
theorem traffic_logged (hlate : (∀ history, s.request ≠ .handled history) → s.late = []) {f : Frame}
    {socket : List Frame} (hsocket : s.socket = f :: socket) (room : MeetingRoom) :
    (logged { s with room, socket } f.chat?).traffic = s.traffic := by
  have hpending : s.pending = f.chat?.toList ++ socket.filterMap Frame.chat? := by
    rw [pending, hsocket, List.filterMap_cons]
    cases f.chat? <;> rfl
  rw [logged]
  split
  · rw [traffic, traffic, hpending]
    simp only [pending, List.append_assoc]
  · next hnot =>
    have hnil : s.late = [] := hlate hnot
    rw [traffic, traffic, hpending]
    simp only [pending, hnil, List.append_assoc, List.nil_append]

theorem Valid.handleFrame (hv : s.Valid) : (s.step .handleFrame).Valid := by
  rw [step]
  split
  · exact hv
  · next f socket hsocket =>
    split
    · exact hv
    · next hphase =>
      have htraffic := traffic_logged hv.late hsocket (s.room.handleFrame f).1
      refine ⟨by simpa [htraffic] using hv.stored, htraffic ▸ hv.once,
        by simpa using hv.history, ?_, ?_⟩
      · intro hnot
        rw [request_logged] at hnot
        rcases late_logged { s with room := (s.room.handleFrame f).1, socket } f.chat? with
          ⟨hlate, -⟩ | ⟨-, history, hhandled⟩
        · rw [hlate]
          exact hv.late hnot
        · exact absurd hhandled (hnot history)
      · intro history hshows
        obtain ⟨hhandled, hlive⟩ := hshows
        rw [request_logged] at hhandled
        rw [room_logged] at hlive ⊢
        have hlist := hv.shown history ⟨hhandled, hphase⟩
        obtain ⟨hlate, -⟩ := (late_logged { s with room := (s.room.handleFrame f).1, socket }
          f.chat?).resolve_left fun h => h.2 history hhandled
        rw [hlate, (handleFrame_messages s.room f).resolve_left hlive]
        cases hchat : f.chat? with
        | none => simpa using hlist
        | some m =>
          refine addMessage_shown hlist fun hmem => ?_
          -- The message is still on the socket, so it is not among the late ones.
          have honce := hv.once
          rw [traffic, pending, hsocket, List.filterMap_cons_some hchat, List.map_append,
            List.nodup_append] at honce
          refine honce.2.2 _ ?_ m.id (by simp) rfl
          rw [List.map_append]
          exact List.mem_append_right _ hmem

theorem Valid.step (hv : s.Valid) (e : ChatEvent) : (s.step e).Valid := by
  cases e with
  | operation op => exact hv.apply op
  | chatSend c inbound id now =>
    rcases step_chatSend s c inbound id now with h | ⟨op, v, f, -, hf, hstores, hnew, -, -, h⟩
    · rw [h]
      exact hv
    · rw [h]
      exact hv.post hf hstores hnew _
  | register c => exact ⟨hv.stored, hv.once, hv.history, hv.late, hv.shown⟩
  | unregister c => exact ⟨hv.stored, hv.once, hv.history, hv.late, hv.shown⟩
  | reconnect c => exact hv.reconnect c
  | frame f => exact hv.frame f
  | answer => exact hv.answer
  | handleFrame => exact hv.handleFrame
  | handleHistory => exact hv.handleHistory

/-- The list is complete exactly when the response had all that came before it, and
what came after it is in order. -/
theorem Valid.complete_iff (hv : s.Valid) : s.Complete ↔ s.EarlyAnswered ∧ s.LateInOrder := by
  have hids : (s.early ++ s.late).Pairwise fun v w => v.id ≠ w.id :=
    List.pairwise_map.mp (hv.once.sublist ((List.sublist_append_left _ _).map _))
  constructor
  · intro h
    refine ⟨fun history hshows m hm => ?_, fun history hshows => ?_⟩
    · have hmem := (h history hshows).live m (List.mem_append_left _ hm)
      rw [hv.shown history hshows, List.mem_append] at hmem
      refine hmem.resolve_right fun hnew => ?_
      exact (List.pairwise_append.mp hids).2.2 m hm m (List.mem_of_mem_filter hnew) rfl
    · have horder := (h history hshows).inOrder
      rw [hv.shown history hshows, List.pairwise_append] at horder
      exact horder.2
  · rintro ⟨hearly, horder⟩ history hshows
    obtain ⟨hstored, honce, hsorted⟩ := hv.history history (by rw [hshows.1]; rfl)
    have hlist := hv.shown history hshows
    refine ⟨?_, ?_, ?_, ?_⟩
    · intro m hm
      rw [hlist]
      exact List.mem_append_left _ hm
    · intro m hm
      rw [hlist, List.mem_append]
      rcases List.mem_append.mp hm with hm | hm
      · exact .inl (hearly history hshows m hm)
      · by_cases hknown : m.id ∈ history.map MessageView.id
        · obtain ⟨n, hn, hid⟩ := List.mem_map.mp hknown
          have hmem : m ∈ s.traffic := List.mem_append_left _ (List.mem_append_right _ hm)
          exact .inl ((hstored n hn).eq (hv.stored m hmem) hid ▸ hn)
        · exact .inr (List.mem_filter.mpr ⟨hm, decide_eq_true hknown⟩)
    · rw [hlist, List.map_append, List.nodup_append]
      refine ⟨honce, ?_, ?_⟩
      · exact List.pairwise_map.mpr ((List.pairwise_append.mp hids).2.1.filter _)
      · rintro id hid _ hid' rfl
        obtain ⟨n, hn, rfl⟩ := List.mem_map.mp hid'
        exact of_decide_eq_true (List.mem_filter.mp hn).2 hid
    · rw [hlist, List.pairwise_append]
      exact ⟨hsorted, horder history hshows⟩

end Valid

/-! ### A steady clock -/

/-- A post is not stamped before a message that is there already. -/
def Steady (s : ChatSession) (e : ChatEvent) : Prop :=
  ∀ now ∈ e.stamp, ∀ c ∈ s.db.chatMessages, c.sentAt ≤ now

instance (s : ChatSession) (e : ChatEvent) : Decidable (s.Steady e) :=
  inferInstanceAs (Decidable (∀ now ∈ e.stamp, ∀ c ∈ s.db.chatMessages, c.sentAt ≤ now))

/-- The messages of the session are those of its meeting, stamped in the order of their
posts; and one that is not in the response is not stamped before it. -/
structure InTime (s : ChatSession) : Prop where
  rooms : ∀ m, ∀ c ∈ s.registry.connections m, c.meetingId = m
  meeting : ∃ m, getByNumber s.db s.room.meetingNumber = .ok m ∧ m.id = s.connection.meetingId
  mine : ∀ v ∈ s.traffic, v.meetingId = s.connection.meetingId
  ordered : s.traffic.Pairwise fun m n => m.sentAt ≤ n.sentAt
  after : ∀ history, s.request.history? = some history →
    ∀ n ∈ s.traffic, n ∉ history → ∀ m ∈ history, m.sentAt ≤ n.sentAt

section InTime

variable {s : ChatSession}

theorem InTime.apply (h : s.InTime) (op : Operation) : InTime { s with db := s.db.apply op } where
  rooms := h.rooms
  meeting := by
    obtain ⟨m, hm, hid⟩ := h.meeting
    obtain ⟨m', hm', hid'⟩ := getByNumber_apply hm op
    exact ⟨m', hm', hid'.trans hid⟩
  mine := h.mine
  ordered := h.ordered
  after := h.after

/-- A message that is stamped after all others comes last. -/
theorem InTime.post (h : s.InTime) (hv : s.Valid) {op : Operation} {v : MessageView} {f : Frame}
    {c : Connection} (hf : f.chat? = some v) (hclock : ∀ w, s.db.Stores w → w.sentAt ≤ v.sentAt)
    (hmeeting : v.meetingId = c.meetingId) :
    InTime { s with
      db := s.db.apply op
      socket := s.socket ++ if s.connection ∈ s.registry.connections c.meetingId then
          [f] else [] } := by
  by_cases hin : s.connection ∈ s.registry.connections c.meetingId
  · have hmine := h.rooms _ _ hin
    have happly := h.apply op
    have htraffic : traffic { s with
        db := s.db.apply op, socket := s.socket ++ [f] } = s.traffic ++ [v] := by
      rw [traffic_append, hf, Option.toList_some]
    rw [if_pos hin]
    refine ⟨happly.rooms, happly.meeting, ?_, ?_, ?_⟩
    · rw [htraffic, List.forall_mem_append, List.forall_mem_singleton]
      exact ⟨h.mine, hmeeting.trans hmine.symm⟩
    · rw [htraffic, List.pairwise_append]
      refine ⟨h.ordered, List.pairwise_singleton _ _, fun w hw n hn => ?_⟩
      obtain rfl := List.mem_singleton.mp hn
      exact hclock w (hv.stored w hw)
    · intro history hhistory
      rw [htraffic, List.forall_mem_append, List.forall_mem_singleton]
      exact ⟨h.after history hhistory,
        fun _ m hm => hclock m ((hv.history history hhistory).1 m hm)⟩
  · rw [if_neg hin, List.append_nil]
    exact h.apply op

/-- What the response leaves out comes after it in the transcript. -/
theorem InTime.answer (h : s.InTime) (hv : s.Valid) : (s.step .answer).InTime := by
  rw [step]
  split
  · split
    · next history hlist =>
      obtain ⟨m, k, hm, rfl⟩ := listMessages_ok hlist
      refine ⟨h.rooms, h.meeting, h.mine, h.ordered, ?_⟩
      rintro _ ⟨⟩ n hn hcut
      obtain ⟨m', hm', hid⟩ := h.meeting
      obtain rfl := Except.ok.inj (hm'.symm.trans hm)
      have hmem : n ∈ transcript s.db m'.id :=
        mem_transcript.mpr ⟨hv.stored n hn, (h.mine n hn).trans hid.symm⟩
      have horder := transcript_inOrder s.db m'.id
      rw [← List.take_append_drop k (transcript s.db m'.id)] at hmem horder
      exact fun v hvmem => (List.pairwise_append.mp horder).2.2 v hvmem n
        ((List.mem_append.mp hmem).resolve_left hcut)
    · exact ⟨h.rooms, h.meeting, h.mine, h.ordered, nofun⟩
  · exact h

theorem InTime.handleFrame (h : s.InTime) (hv : s.Valid) : (s.step .handleFrame).InTime := by
  rw [step]
  split
  · exact h
  · next f socket hsocket =>
    split
    · exact h
    · have htraffic := traffic_logged hv.late hsocket (s.room.handleFrame f).1
      refine ⟨by simpa using h.rooms, ?_, by simpa [htraffic] using h.mine, htraffic ▸ h.ordered,
        by simpa [htraffic] using h.after⟩
      simpa [handleFrame_meetingNumber] using h.meeting

theorem InTime.frame (h : s.InTime) (f : Frame) : (s.step (.frame f)).InTime := by
  rw [step]
  split
  · exact h
  · next hchat =>
    have htraffic : traffic { s with socket := s.socket ++ [f] } = s.traffic := by
      rw [traffic_append, Option.not_isSome_iff_eq_none.mp hchat,
        Option.toList_none, List.append_nil]
    exact ⟨h.rooms, h.meeting, htraffic ▸ h.mine, htraffic ▸ h.ordered,
      by rw [htraffic]; exact h.after⟩

theorem InTime.handleHistory (h : s.InTime) : (s.step .handleHistory).InTime := by
  rw [step]
  split
  · next history hanswered =>
    refine ⟨h.rooms, h.meeting, h.mine, h.ordered, ?_⟩
    rintro _ ⟨⟩
    exact h.after history (by rw [hanswered]; rfl)
  · exact h

theorem InTime.step (h : s.InTime) (hv : s.Valid) {e : ChatEvent} (he : s.Steady e) :
    (s.step e).InTime := by
  cases e with
  | operation op => exact h.apply op
  | chatSend c inbound id now =>
    rcases step_chatSend s c inbound id now with hsame |
      ⟨op, v, f, -, hf, -, -, hnow, hmeeting, hpost⟩
    · rw [hsame]
      exact h
    · rw [hpost]
      refine h.post hv hf ?_ hmeeting
      rintro w ⟨d, hd, p, -, rfl⟩
      rw [hnow]
      exact he now rfl d hd
  | register c =>
    refine ⟨fun m d hd => ?_, h.meeting, h.mine, h.ordered, h.after⟩
    rcases RoomRegistry.mem_connections_add.mp hd with ⟨rfl, hm⟩ | ⟨hd, -⟩
    · exact hm
    · exact h.rooms m d hd
  | unregister c =>
    refine ⟨fun m d hd => ?_, h.meeting, h.mine, h.ordered, h.after⟩
    exact h.rooms m d (RoomRegistry.mem_connections_remove.mp hd).1
  | reconnect c =>
    have hsub := s.traffic_reconnect c
    exact ⟨h.rooms, h.meeting, fun v hv => h.mine v (hsub.subset hv), h.ordered.sublist hsub,
      fun history hhistory n hn => h.after history hhistory n (hsub.subset hn)⟩
  | frame f => exact h.frame f
  | answer => exact h.answer hv
  | handleFrame => exact h.handleFrame hv
  | handleHistory => exact h.handleHistory

theorem InTime.lateInOrder (h : s.InTime) : s.LateInOrder := by
  intro history hshows
  have hsub : (newMessages history s.late).Sublist s.traffic :=
    List.filter_sublist.trans ((List.sublist_append_right _ _).trans (List.sublist_append_left _ _))
  refine ⟨h.ordered.sublist hsub, fun m hm n hn => ?_⟩
  refine h.after history (by rw [hshows.1]; rfl) n (hsub.subset hn) (fun hmem => ?_) m hm
  exact of_decide_eq_true (List.mem_filter.mp hn).2 (List.mem_map_of_mem hmem)

end InTime

theorem inTime_start {db : Db} {viewer : User} {connection : Connection}
    {room : MeetingRoom} {m : Meeting}
    (hjoined : getByNumber db room.meetingNumber = .ok m) (hm : m.id = connection.meetingId) :
    (start db viewer connection room).InTime where
  rooms := nofun
  meeting := ⟨m, hjoined, hm⟩
  mine := nofun
  ordered := .nil
  after := nofun

theorem valid_run (db : Db) (viewer : User) (connection : Connection) (room : MeetingRoom)
    (events : List ChatEvent) : (Runs.run step (start db viewer connection room) events).Valid :=
  (Runs.always_of_step (valid_start ..) (fun _ e hv => hv.step e) events).last

end ChatSession

open ChatSession in
/-- **The chat drawer.**  In every run of a session, no message disappears exactly when
the response holds every message whose frame was handled before it, and what was
handled since and is new came in the order of its stamps, which a steady clock
ensures. -/
theorem drawer_complete_iff {db : Db} {m : Meeting} (viewer : User) (connection : Connection)
    (room : MeetingRoom) (hjoined : getByNumber db room.meetingNumber = .ok m)
    (hm : m.id = connection.meetingId) (events : List ChatEvent) :
    let s := Runs.run step (start db viewer connection room) events
    (s.Complete ↔ s.EarlyAnswered ∧ s.LateInOrder) ∧
      (Runs.Guarded step Steady (start db viewer connection room) events → s.LateInOrder) := by
  intro s
  refine ⟨(valid_run db viewer connection room events).complete_iff, fun hsteady => ?_⟩
  have hrun := Runs.Guarded.always (I := fun s => s.Valid ∧ s.InTime)
    ⟨valid_start .., inTime_start hjoined hm⟩
    (fun _ e h he => ⟨h.1.step e, h.2.step h.1 he⟩) hsteady
  exact hrun.last.2.lateInOrder

def pairMeeting : Meeting :=
  { id := "m", meetingNumber := "89590250750", hostId := "host",
    topic := "Pairing", passcode := "hRtz4K"
    inviteToken := "tok", status := .live, startedAt := some 5, createdAt := 5 }

/-- A meeting with its host and a guest. -/
def pairRoom : Db :=
  { meetings := Keyed.empty.insert pairMeeting List.not_mem_nil
    participants := ⟨[
      { id := "1", meetingId := "m", userId := some "host", displayName := "Ada", role := .host
        sessionId := "s1", joinedAt := 6 },
      { id := "2", meetingId := "m", userId := some "guest", displayName := "Bob", sessionId := "s2"
        joinedAt := 7 }], by decide⟩ }

def bobUser : User :=
  { id := "guest", email := "b0b@guests", name := "Bob", personalMeetingId := "10000000002" }

/-- The session of the guest. -/
def bobJoined : ChatSession :=
  .start pairRoom bobUser ⟨"c2", "2", "m"⟩ { meetingNumber := "89590250750", phase := .live }

def bobSession (events : List ChatEvent) : ChatSession := Runs.run ChatSession.step bobJoined events

/-- Ada writes. -/
def adaWrites : ChatEvent :=
  .chatSend ⟨"c1", "1", "m"⟩
    { handler := .chatSend
      message := [("type", .str "chat.send"), ("payload", .obj [("body", .str "hello")])]
      payload := [("body", .str "hello")] } "x" 10

/-- The view of it. -/
def hello : MessageView := ⟨"x", "m", "1", "Ada", "hello", 10⟩

/-- The response is taken before Ada writes, and handled after her message: the drawer
loses it. -/
def overtaken : List ChatEvent :=
  [.register ⟨"c2", "2", "m"⟩, .answer, adaWrites, .handleFrame, .handleHistory]

theorem overtaken_incomplete : (bobSession overtaken).early = [hello] ∧
    (bobSession overtaken).room.store.messages = [] ∧ ¬ (bobSession overtaken).Complete := by
  have hearly : (bobSession overtaken).early = [hello] := by decide
  have hmessages : (bobSession overtaken).room.store.messages = [] := by decide
  have hshows : (bobSession overtaken).Shows [] := ⟨by decide, by decide⟩
  refine ⟨hearly, hmessages, fun h => ?_⟩
  have hlive := (h [] hshows).live hello (by simp [hearly])
  rw [hmessages] at hlive
  cases hlive

/-- The response is taken after Ada wrote. -/
def inTurn : List ChatEvent :=
  [.register ⟨"c2", "2", "m"⟩, adaWrites, .answer, .handleFrame, .handleHistory]

theorem drawer_complete_inTurn : (bobSession inTurn).Complete := by
  have hjoined : getByNumber pairRoom "89590250750" = .ok pairMeeting :=
    getByNumber_eq_ok.mpr (by decide)
  have hsteady : Runs.Guarded ChatSession.step ChatSession.Steady bobJoined inTurn := by decide
  obtain ⟨hiff, hinOrder⟩ := drawer_complete_iff bobUser ⟨"c2", "2", "m"⟩
    { meetingNumber := "89590250750", phase := .live } hjoined rfl inTurn
  refine hiff.mpr ⟨?_, hinOrder hsteady⟩
  rintro history ⟨hrequest, -⟩
  have hhandled : (bobSession inTurn).request = .handled [hello] := by decide
  obtain rfl := HistoryRequest.handled.inj (hhandled.symm.trans hrequest)
  have hearly : (bobSession inTurn).early = [hello] := by decide
  intro m hm
  exact hearly ▸ hm

end ZoomClone
