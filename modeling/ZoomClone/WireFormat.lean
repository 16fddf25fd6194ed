/-
The frames of the signaling socket as text (`protocol.py`, `SignalingClient.ts`).

`Frame.json` is the envelope that `frame` builds, with the payload as the services and the
handlers build it; `encodeFrame` is its text.  `readFrame` is what the browser takes out of
a parsed text: the types of `types.ts` with the fields that `handleFrame` hands on.

* `readFrame_encodeFrame` — the browser reads a frame as it was sent, and drops one whose
  payload has a number that is not JSON;
* `handleText_encodeFrame` — so it handles the text as it handles the frame.
-/
import ZoomClone.IsoFormat
import ZoomClone.MeetingRoom
import ZoomClone.WireText

namespace ZoomClone

open JsonText (isNumber numbersPass membersPass)

/-! ### What the server writes -/

def Role.name : Role → String
  | .host => "host"
  | .participant => "participant"

def SignalKind.name : SignalKind → String
  | .offer => "offer"
  | .answer => "answer"
  | .ice => "ice"

namespace Json

/-- `None` is `null`. -/
def ofOption {α : Type} (json : α → Json) : Option α → Json
  | none => .null
  | some a => json a

/-- `_json_default` of a `datetime`. -/
def ofTime (t : DateTime) : Json := .str (isoformat t)

end Json

/-- `serialize_participant`. -/
def ParticipantView.json (p : ParticipantView) : Json :=
  .obj
    [("id", .str p.id), ("meeting_id", .str p.meetingId), ("user_id", .ofOption .str p.userId),
     ("display_name", .str p.displayName), ("role", .str p.role.name),
     ("is_muted", .bool p.isMuted),
     ("is_video_on", .bool p.isVideoOn), ("is_hand_raised", .bool p.isHandRaised),
     ("joined_at", .ofTime p.joinedAt), ("left_at", .ofOption .ofTime p.leftAt)]

/-- `_host_summary`. -/
def HostSummary.json (h : HostSummary) : Json :=
  .obj [("id", .str h.id), ("name", .str h.name), ("avatar_url", .ofOption .str h.avatarUrl)]

/-- `serialize_meeting`. -/
def MeetingView.json (v : MeetingView) : Json :=
  .obj
    [("id", .str v.meeting.id), ("meeting_number", .str v.meeting.meetingNumber),
     ("meeting_number_display", .str v.meetingNumberDisplay), ("host_id", .str v.meeting.hostId),
     ("host", .ofOption HostSummary.json v.host), ("topic", .str v.meeting.topic),
     ("description", .ofOption .str v.meeting.description),
     ("scheduled_start", .ofOption .ofTime v.meeting.scheduledStart),
     ("duration_minutes", .int v.meeting.durationMinutes), ("timezone", .str v.meeting.timezone),
     ("passcode", .str v.meeting.passcode), ("invite_token", .str v.meeting.inviteToken),
     ("status", .str v.meeting.status.name), ("use_pmi", .bool v.meeting.usePmi),
     ("waiting_room", .bool v.meeting.waitingRoom), ("host_video_on", .bool v.meeting.hostVideoOn),
     ("participant_video_on", .bool v.meeting.participantVideoOn),
     ("allow_transcription", .bool v.meeting.allowTranscription),
     ("chat_before_after", .bool v.meeting.chatBeforeAfter),
     ("encryption", .str v.meeting.encryption),
     ("started_at", .ofOption .ofTime v.meeting.startedAt),
     ("ended_at", .ofOption .ofTime v.meeting.endedAt),
     ("created_at", .ofTime v.meeting.createdAt), ("is_instant", .bool v.isInstant),
     ("participant_count", .int v.participantCount)]

/-- `serialize_message`. -/
def MessageView.json (m : MessageView) : Json :=
  .obj
    [("id", .str m.id), ("meeting_id", .str m.meetingId), ("participant_id", .str m.participantId),
     ("display_name", .str m.displayName), ("body", .str m.body), ("sent_at", .ofTime m.sentAt)]

/-- `room_snapshot`. -/
def RoomSnapshot.json (s : RoomSnapshot) : Json :=
  .obj [("participants", .arr (s.participants.map ParticipantView.json)), ("you", s.you.json),
    ("meeting", s.meeting.json)]

def FrameBody.type : FrameBody → String
  | .roomState _ => "room.state"
  | .peerJoined _ => "peer.joined"
  | .peerLeft _ => "peer.left"
  | .peerUpdated _ _ _ _ => "peer.updated"
  | .signal kind _ => "signal." ++ kind.name
  | .chatMessage _ => "chat.message"
  | .hostMutedYou _ => "host.muted_you"
  | .hostRemovedYou _ => "host.removed_you"
  | .meetingEnded _ => "meeting.ended"
  | .error _ _ _ => "error"
  | .pong => "pong"

def FrameBody.payload : FrameBody → Json
  | .roomState snapshot => snapshot.json
  | .peerJoined participant => .obj [("participant", participant.json)]
  | .peerLeft participantId => .obj [("participant_id", .str participantId)]
  | .peerUpdated participantId isMuted isVideoOn isHandRaised =>
    .obj
      [("participant_id", .str participantId), ("is_muted", .bool isMuted),
        ("is_video_on", .bool isVideoOn),
       ("is_hand_raised", .bool isHandRaised)]
  | .signal _ payload => .obj payload
  | .chatMessage message => message.json
  | .hostMutedYou sentBy => .obj [("by", .str sentBy)]
  | .hostRemovedYou sentBy => .obj [("by", .str sentBy)]
  | .meetingEnded sentBy => .obj [("by", .str sentBy)]
  | .error code message details =>
    .obj ([("code", .str code), ("message", .str message)] ++ if details = [] then []
      else [("details", .obj details)])
  | .pong => .obj []

/-- `frame(type_, payload, sender, to)`; the clock says `ts`. -/
def Frame.json (f : Frame) (ts : ℕ) : Json :=
  .obj
    [("type", .str f.body.type), ("from", .ofOption .str f.sender),
      ("to", .ofOption .str f.recipient),
     ("payload", f.body.payload), ("ts", .int ts)]

def encodeFrame (f : Frame) (ts : ℕ) : List Char := dumps (f.json ts)

/-! ### What the browser reads -/

def Role.ofName : String → Option Role
  | "host" => some .host
  | "participant" => some .participant
  | _ => none

def MeetingStatus.ofName : String → Option MeetingStatus
  | "scheduled" => some .scheduled
  | "live" => some .live
  | "ended" => some .ended
  | "cancelled" => some .cancelled
  | _ => none

namespace Json

/-- Property access. -/
def field (v : Json) (key : String) : Json :=
  match v with
  | .obj fields => Json.get fields key
  | _ => .null

def asText : Json → Option String
  | .str s => some s
  | _ => none

def asBool : Json → Option Bool
  | .bool b => some b
  | _ => none

def asInt : Json → Option Int
  | .int n => some n
  | _ => none

def asItems : Json → Option (List Json)
  | .arr items => some items
  | _ => none

/-- The model has an instant where the browser keeps its text. -/
def asTime (v : Json) : Option DateTime := v.asText.bind readIso

def orNull {α : Type} (read : Json → Option α) : Json → Option (Option α)
  | .null => some none
  | v => (read v).map some

end Json

def ParticipantView.ofJson (v : Json) : Option ParticipantView := do
  return {
    id := ← (v.field "id").asText
    meetingId := ← (v.field "meeting_id").asText
    userId := ← (v.field "user_id").orNull Json.asText
    displayName := ← (v.field "display_name").asText
    role := ← (v.field "role").asText.bind Role.ofName
    isMuted := ← (v.field "is_muted").asBool
    isVideoOn := ← (v.field "is_video_on").asBool
    isHandRaised := ← (v.field "is_hand_raised").asBool
    joinedAt := ← (v.field "joined_at").asTime
    leftAt := ← (v.field "left_at").orNull Json.asTime }

def HostSummary.ofJson (v : Json) : Option HostSummary := do
  return {
    id := ← (v.field "id").asText
    name := ← (v.field "name").asText
    avatarUrl := ← (v.field "avatar_url").orNull Json.asText }

def Meeting.ofJson (v : Json) : Option Meeting := do
  return {
    id := ← (v.field "id").asText
    meetingNumber := ← (v.field "meeting_number").asText
    hostId := ← (v.field "host_id").asText
    topic := ← (v.field "topic").asText
    description := ← (v.field "description").orNull Json.asText
    scheduledStart := ← (v.field "scheduled_start").orNull Json.asTime
    durationMinutes := ← (v.field "duration_minutes").asInt
    timezone := ← (v.field "timezone").asText
    passcode := ← (v.field "passcode").asText
    inviteToken := ← (v.field "invite_token").asText
    status := ← (v.field "status").asText.bind MeetingStatus.ofName
    usePmi := ← (v.field "use_pmi").asBool
    waitingRoom := ← (v.field "waiting_room").asBool
    hostVideoOn := ← (v.field "host_video_on").asBool
    participantVideoOn := ← (v.field "participant_video_on").asBool
    allowTranscription := ← (v.field "allow_transcription").asBool
    chatBeforeAfter := ← (v.field "chat_before_after").asBool
    encryption := ← (v.field "encryption").asText
    startedAt := ← (v.field "started_at").orNull Json.asTime
    endedAt := ← (v.field "ended_at").orNull Json.asTime
    createdAt := ← (v.field "created_at").asTime }

/-- A snapshot has no `duration_clamped`. -/
def MeetingView.ofJson (v : Json) : Option MeetingView := do
  return {
    meeting := ← Meeting.ofJson v
    meetingNumberDisplay := ← (v.field "meeting_number_display").asText
    host := ← (v.field "host").orNull HostSummary.ofJson
    isInstant := ← (v.field "is_instant").asBool
    participantCount := (← (v.field "participant_count").asInt).toNat }

def MessageView.ofJson (v : Json) : Option MessageView := do
  return {
    id := ← (v.field "id").asText
    meetingId := ← (v.field "meeting_id").asText
    participantId := ← (v.field "participant_id").asText
    displayName := ← (v.field "display_name").asText
    body := ← (v.field "body").asText
    sentAt := ← (v.field "sent_at").asTime }

def RoomSnapshot.ofJson (v : Json) : Option RoomSnapshot := do
  return {
    participants := ← (← (v.field "participants").asItems).mapM ParticipantView.ofJson
    you := ← ParticipantView.ofJson (v.field "you")
    meeting := ← MeetingView.ofJson (v.field "meeting") }

/-- The entries of the payload that a relayed frame hands on. -/
def signalBody (kind : SignalKind) : Json → Option FrameBody
  | .obj payload => some (.signal kind payload)
  | _ => none

/-- The cases of `handleFrame`; of an `error` only the message is read. -/
def readBody (type : String) (payload : Json) : Option FrameBody :=
  match type with
  | "room.state" => (RoomSnapshot.ofJson payload).map .roomState
  | "peer.joined" => (ParticipantView.ofJson (payload.field "participant")).map .peerJoined
  | "peer.left" => (payload.field "participant_id").asText.map .peerLeft
  | "peer.updated" => (payload.field "participant_id").asText.map fun id =>
    .peerUpdated id (payload.field "is_muted").truthy (payload.field "is_video_on").truthy
      (payload.field "is_hand_raised").truthy
  | "signal.offer" => signalBody .offer payload
  | "signal.answer" => signalBody .answer payload
  | "signal.ice" => signalBody .ice payload
  | "chat.message" => (MessageView.ofJson payload).map .chatMessage
  | "host.muted_you" => (payload.field "by").asText.map .hostMutedYou
  | "host.removed_you" => (payload.field "by").asText.map .hostRemovedYou
  | "meeting.ended" => (payload.field "by").asText.map .meetingEnded
  | "error" => (payload.field "message").asText.map fun message => .error "" message []
  | "pong" => some .pong
  | _ => none

def frameOfJson (v : Json) : Option Frame := do
  return {
    body := ← readBody (← (v.field "type").asText) (v.field "payload")
    sender := (v.field "from").asText
    recipient := (v.field "to").asText }

/-- A text as the browser reads it; `none` is a text that is not JSON. -/
def readFrame (text : List Char) : Option Frame := (jsonParse text).bind frameOfJson

/-- `socket.onmessage`. -/
def MeetingRoom.handleText (room : MeetingRoom) (text : List Char) : MeetingRoom × List Effect :=
  match readFrame text with
  | some frame => room.handleFrame frame
  | none => (room, [])

/-! ### What the browser makes of a frame -/

/-- The numbers of a payload are doubles, and of an error only the message is left. -/
def FrameBody.inBrowser : FrameBody → FrameBody
  | .signal kind payload => .signal kind (Json.rereadFields jsNumber payload)
  | .error _ message _ => .error "" message []
  | body => body

def Frame.inBrowser (f : Frame) : Frame := { f with body := f.body.inBrowser }

/-- `JSON.parse` takes the text of the frame. -/
def Frame.isFinite (f : Frame) : Bool := f.body.payload.isFinite

/-- The counts of a snapshot are doubles, and nothing in it was clamped. -/
structure RoomSnapshot.Sound (s : RoomSnapshot) : Prop where
  duration : s.meeting.meeting.durationMinutes.natAbs ≤ maxSafeInteger
  count : s.meeting.participantCount ≤ maxSafeInteger
  unclamped : s.meeting.durationClamped = false

/-- What the server puts in a frame. -/
def FrameBody.Sound (float : PyFloat) : FrameBody → Prop
  | .roomState snapshot => snapshot.Sound
  | .signal _ payload => (Json.obj payload).Decoded float
  | .error _ _ details => (Json.obj details).Plain
  | _ => True

section Views

variable {kind : Json → Prop}

@[simp] theorem wellFormed_ofText_str (o : Option String) :
    (Json.ofOption .str o).WellFormed kind := by
  cases o <;> trivial

@[simp] theorem wellFormed_ofOption_ofTime (o : Option DateTime) :
    (Json.ofOption .ofTime o).WellFormed kind := by
  cases o <;> trivial

@[simp] theorem wellFormed_ofTime (t : DateTime) : (Json.ofTime t).WellFormed kind := trivial

theorem ParticipantView.wellFormed_json (p : ParticipantView) : p.json.WellFormed kind := by
  simp [json, Json.WellFormed, Json.FieldsWellFormed]

theorem HostSummary.wellFormed_json (h : HostSummary) : h.json.WellFormed kind := by
  simp [json, Json.WellFormed, Json.FieldsWellFormed]

theorem MessageView.wellFormed_json (m : MessageView) : m.json.WellFormed kind := by
  simp [json, Json.WellFormed, Json.FieldsWellFormed]

theorem MeetingView.wellFormed_json (v : MeetingView)
    (hduration : kind (.int v.meeting.durationMinutes))
    (hcount : kind (.int v.participantCount)) : v.json.WellFormed kind := by
  have hhost : (Json.ofOption HostSummary.json v.host).WellFormed kind := by
    cases v.host with
    | none => trivial
    | some h => exact h.wellFormed_json
  simp [json, Json.WellFormed, Json.FieldsWellFormed, hduration, hcount, hhost]

theorem RoomSnapshot.wellFormed_json (s : RoomSnapshot)
    (hduration : kind (.int s.meeting.meeting.durationMinutes))
    (hcount : kind (.int s.meeting.participantCount)) : s.json.WellFormed kind := by
  have hparticipants : Json.ItemsWellFormed kind (s.participants.map ParticipantView.json) := by
    induction s.participants with
    | nil => trivial
    | cons p participants ih => exact ⟨p.wellFormed_json, ih⟩
  simp [json, Json.WellFormed, Json.FieldsWellFormed, hparticipants, s.you.wellFormed_json,
    s.meeting.wellFormed_json hduration hcount]

/-- An optional value is read back. -/
theorem orNull_ofOption {α : Type} {json : α → Json} {read : Json → Option α}
    (hread : ∀ a, read (json a) = some a)
    (hnull : ∀ a, json a ≠ .null) (o : Option α) : (Json.ofOption json o).orNull read = some o := by
  cases o with
  | none => rfl
  | some a =>
    rw [Json.ofOption, Json.orNull]
    · rw [hread, Option.map_some]
    · exact hnull a

@[simp] theorem orNull_ofOption_str (o : Option String) :
    (Json.ofOption .str o).orNull Json.asText = some o :=
  @orNull_ofOption String Json.str Json.asText (fun _ => rfl) (fun _ h => by cases h) o

@[simp] theorem asTime_ofTime (t : DateTime) : (Json.ofTime t).asTime = some t :=
  readIso_isoformat t

@[simp] theorem orNull_ofOption_ofTime (o : Option DateTime) :
    (Json.ofOption .ofTime o).orNull Json.asTime = some o :=
  orNull_ofOption readIso_isoformat (fun _ h => by cases h) o

@[simp] theorem ofName_name_role (role : Role) : Role.ofName role.name = some role := by
  cases role <;> rfl

@[simp] theorem ofName_name_status (status : MeetingStatus) :
    MeetingStatus.ofName status.name = some status := by
  cases status <;> rfl

theorem ParticipantView.ofJson_json (p : ParticipantView) : ofJson p.json = some p := by
  simp [ofJson, json, Json.field, Json.get, Json.asText, Json.asBool]

theorem HostSummary.ofJson_json (h : HostSummary) : ofJson h.json = some h := by
  simp [ofJson, json, Json.field, Json.get, Json.asText]

theorem MessageView.ofJson_json (m : MessageView) : ofJson m.json = some m := by
  simp [ofJson, json, Json.field, Json.get, Json.asText]

theorem Meeting.ofJson_json (v : MeetingView) : ofJson v.json = some v.meeting := by
  simp [ofJson, MeetingView.json, Json.field, Json.get, Json.asText, Json.asBool, Json.asInt]

theorem MeetingView.ofJson_json {v : MeetingView} (h : v.durationClamped = false) :
    ofJson v.json = some v := by
  have hhost : (Json.ofOption HostSummary.json v.host).orNull HostSummary.ofJson = some v.host :=
    orNull_ofOption HostSummary.ofJson_json (fun _ h => by cases h) v.host
  rw [ofJson, Meeting.ofJson_json]
  simp [json, Json.field, Json.get, Json.asText, Json.asBool, Json.asInt, hhost]
  rw [← h]

theorem RoomSnapshot.ofJson_json {s : RoomSnapshot} (h : s.meeting.durationClamped = false) :
    ofJson s.json = some s := by
  have hsome : ParticipantView.ofJson ∘ ParticipantView.json = some :=
    funext ParticipantView.ofJson_json
  have hparticipants : s.participants.mapM some = some s.participants := by
    induction s.participants with
    | nil => rfl
    | cons p participants ih => simp [ih]
  simp [ofJson, json, Json.field, Json.get, Json.asItems, hsome, hparticipants,
    ParticipantView.ofJson_json,
    MeetingView.ofJson_json h]

end Views

/-- A payload whose only numbers are the counts of a snapshot. -/
theorem FrameBody.wellFormed_payload {kind : Json → Prop} {body : FrameBody}
    (hsnapshot : ∀ snapshot, body = .roomState snapshot → snapshot.json.WellFormed kind)
    (hsignal : ∀ signal entries, body = .signal signal entries → (Json.obj entries).WellFormed kind)
    (herror : ∀ code message details, body = .error code message details →
      (Json.obj details).WellFormed kind) :
    body.payload.WellFormed kind := by
  cases body with
  | roomState snapshot => exact hsnapshot snapshot rfl
  | peerJoined participant =>
    simp [payload, Json.WellFormed, Json.FieldsWellFormed, participant.wellFormed_json]
  | signal signal entries => exact hsignal signal entries rfl
  | chatMessage message => exact message.wellFormed_json
  | error code message details =>
    have hdetails := herror code message details rfl
    rw [payload]
    split
    · simp [Json.WellFormed, Json.FieldsWellFormed]
    · simp [Json.WellFormed, Json.FieldsWellFormed] at hdetails ⊢
      exact hdetails
  | _ => simp [payload, Json.WellFormed, Json.FieldsWellFormed]

section Sound

variable {float : PyFloat} {body : FrameBody}

/-- What the server puts in a frame can be written. -/
theorem FrameBody.Sound.decoded (h : body.Sound float) : body.payload.Decoded float := by
  refine wellFormed_payload ?_ ?_ ?_
  · intro snapshot _
    exact snapshot.wellFormed_json trivial trivial
  · rintro signal entries rfl
    exact h
  · rintro code message details rfl
    exact Json.Plain.decoded h

/-- Apart from a relayed payload all its numbers are doubles. -/
theorem FrameBody.Sound.plain (h : body.Sound float)
    (hsignal : ∀ signal entries, body ≠ .signal signal entries) :
    body.payload.Plain := by
  refine wellFormed_payload ?_ ?_ ?_
  · rintro snapshot rfl
    exact snapshot.wellFormed_json h.duration h.count
  · exact fun signal entries heq => absurd heq (hsignal signal entries)
  · rintro code message details rfl
    exact h

/-- The payload of a frame is read as the body that the browser makes of it. -/
theorem readBody_payload (h : body.Sound float) :
    readBody body.type (body.payload.reread jsNumber) = some body.inBrowser := by
  have hself (hsignal : ∀ signal entries, body ≠ .signal signal entries) :
      body.payload.reread jsNumber = body.payload :=
    Json.reread_eq_self (fun _ hn => jsNumber_toString hn)
      (fun _ _ hn => hn.elim) _ (h.plain hsignal)
  cases body with
  | signal signal entries => cases signal <;> rfl
  | roomState snapshot =>
    rw [hself (fun _ _ heq => by cases heq)]
    exact congrArg (Option.map FrameBody.roomState) (RoomSnapshot.ofJson_json h.unclamped)
  | peerJoined participant =>
    rw [hself (fun _ _ heq => by cases heq)]
    exact congrArg (Option.map FrameBody.peerJoined) participant.ofJson_json
  | chatMessage message =>
    rw [hself (fun _ _ heq => by cases heq)]
    exact congrArg (Option.map FrameBody.chatMessage) message.ofJson_json
  | error code message details =>
    rw [hself (fun _ _ heq => by cases heq), FrameBody.payload]
    split <;> rfl
  | _ => rfl

/-- A payload without a relayed one is JSON. -/
theorem FrameBody.Sound.isFinite (h : body.Sound float)
    (hsignal : ∀ signal entries, body ≠ .signal signal entries) :
    body.payload.isFinite :=
  Json.numbersPass_toText (fun n _ => isNumber_toString n)
    (fun _ _ hn => hn.elim) _ (h.plain hsignal)

end Sound

section Frames

variable {float : PyFloat} {f : Frame}

theorem Frame.decoded_json (h : f.body.Sound float) (ts : ℕ) : (f.json ts).Decoded float := by
  simp [json, Json.WellFormed, Json.FieldsWellFormed, Json.IsPython, h.decoded]

theorem Frame.isFinite_json (f : Frame) (ts : ℕ) : (f.json ts).isFinite = f.isFinite := by
  have htext (o : Option String) : numbersPass isNumber (Json.ofOption .str o).toText = true := by
    cases o <;> rfl
  have hts : isNumber (toString (ts : Int)).toList = true := isNumber_toString ts
  simp only [Frame.isFinite, Json.isFinite, json, Json.toText, Json.fieldsToText,
    numbersPass, membersPass,
    htext, hts, Bool.true_and, Bool.and_true]

theorem asText_reread_ofOption (o : Option String) :
    ((Json.ofOption .str o).reread jsNumber).asText = o := by
  cases o <;> rfl

/-- **A frame** is read as it was sent, with its numbers as doubles, or its text is dropped. -/
theorem readFrame_encodeFrame (h : f.body.Sound float) (ts : ℕ) :
    readFrame (encodeFrame f ts) = if f.isFinite then some f.inBrowser else none := by
  rw [readFrame, encodeFrame, jsonParse_dumps (f.decoded_json h ts), f.isFinite_json]
  split
  · simp only [Option.bind_some, frameOfJson, Frame.json, Json.reread,
      Json.rereadFields, Json.field, Json.get,
      List.find?_cons, String.reduceEq, decide_false, decide_true,
        Option.map_some, Option.getD_some,
      asText_reread_ofOption]
    rw [Json.asText, Option.bind_eq_bind, Option.bind_some, readBody_payload h]
    rfl
  · rfl

/-- The room does with the text of a frame what it does with the frame. -/
theorem handleText_encodeFrame (h : f.body.Sound float) (room : MeetingRoom) (ts : ℕ) :
    room.handleText (encodeFrame f ts) = if f.isFinite then room.handleFrame f else (room, []) := by
  have hbrowser : room.handleFrame f.inBrowser = room.handleFrame f := by
    obtain ⟨body, sender, recipient⟩ := f
    cases body <;> rfl
  rw [MeetingRoom.handleText, readFrame_encodeFrame h]
  cases f.isFinite with
  | false => rfl
  | true => exact hbrowser

end Frames

end ZoomClone
