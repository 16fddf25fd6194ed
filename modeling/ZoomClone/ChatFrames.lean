/-
What a chat frame stores (`_handle_chat_send`, `post_message`).

A body is cut before it is trimmed: the handler takes its first 2000 characters, and
`post_message` trims what it is given.  The texts of a frame are Python texts, so a body may
hold half a surrogate pair; no statement can bind such a text, and the commit raises.

* `postText_ofString`, `onChatFrame_ofJson` — without surrogates the handler is the one of the
  message loop;
* `trim_take_iff_cutsCleanly` — when cutting and trimming commute;
* `chat_frame_iff` — when a frame stores what a post of its body stores.
-/
import ZoomClone.PyText
import ZoomClone.Queries
import ZoomClone.Router

namespace ZoomClone

/-! ### Frames with Python texts -/

/-- What `json.loads` makes of the text of a frame. -/
inductive PyJson where
  | null
  | bool (b : Bool)
  | int (n : Int)
  | float (text : String) (isZero : Bool)
  | str (text : PyText)
  | arr (items : List PyJson)
  | obj (fields : List (PyText × PyJson))

abbrev PyJsonObj := List (PyText × PyJson)

namespace PyJson

/-- `d.get(key)`; a missing key and an explicit `null` are both `None`. -/
def get (d : PyJsonObj) (key : String) : PyJson :=
  ((d.find? fun field => field.1 = PyText.ofString key).map (·.2)).getD null

mutual

/-- A value whose texts have no surrogates. -/
def ofJson : Json → PyJson
  | .null => .null
  | .bool b => .bool b
  | .int n => .int n
  | .float text isZero => .float text isZero
  | .str s => .str (PyText.ofString s)
  | .arr items => .arr (ofItems items)
  | .obj fields => .obj (ofFields fields)

def ofItems : List Json → List PyJson
  | [] => []
  | item :: items => ofJson item :: ofItems items

def ofFields : JsonObj → PyJsonObj
  | [] => []
  | (key, value) :: fields => (PyText.ofString key, ofJson value) :: ofFields fields

end

theorem get_ofFields (d : JsonObj) (key : String) :
    get (ofFields d) key = ofJson (Json.get d key) := by
  induction d with
  | nil => rfl
  | cons field d ih =>
    obtain ⟨name, value⟩ := field
    rw [get, Json.get, ofFields, List.find?_cons, List.find?_cons]
    by_cases hname : name = key
    · subst hname
      simp
    · have htext : PyText.ofString name ≠ PyText.ofString key := PyText.ofString_injective.ne hname
      simp only [hname, htext, decide_false]
      exact ih

theorem ofJson_eq_str {v : Json} {text : PyText} (h : ofJson v = .str text) :
    ∃ s, v = .str s ∧ text = PyText.ofString s := by
  cases v with
  | str s =>
    rw [ofJson] at h
    exact ⟨s, rfl, (PyJson.str.inj h).symm⟩
  | _ => simp [ofJson] at h

end PyJson

/-- The payload of a message that the dispatch table gives to `_handle_chat_send`. -/
def chatPayload : PyJson → Option PyJsonObj
  | .obj message =>
    match PyJson.get message "type" with
    | .str type =>
      if type = PyText.ofString "chat.send" then
        match PyJson.get message "payload" with
        | .obj payload => some payload
        | _ => some []
      else none
    | _ => none
  | _ => none

/-! ### The handler -/

/-- What a statement binds for a text: its UTF-8 encoding. -/
def bindText (text : PyText) : Service String :=
  match text.encode with
  | some s => .ok s
  | none => .error .unicodeError

/-- What is to be stored of a body: trimmed, then capped. -/
def storedText (body : PyText) : PyText :=
  let body := body.strip
  if maxChatBodyLength < body.length then body.take maxChatBodyLength else body

/-- `post_message`, for any Python text. -/
def postText (db : Db) (meetingId : MeetingId) (participantId : ParticipantId) (body : PyText)
    (id : String) (now : DateTime) : Service (MessageView × Db) := do
  .require (body.strip ≠ [])
    (.validation "Message body cannot be empty." [("field", .str "body")])
  let participant ← .getOrRaise
    ((db.getParticipant participantId).filter fun p => p.meetingId = meetingId)
    (.notFound "No such participant in this meeting." "PARTICIPANT_NOT_FOUND")
  -- the commit sends the row to the database
  let text ← bindText (storedText body)
  let message : ChatMessage := { id, meetingId, participantId, body := text, sentAt := now }
  let db ← db.insertMessage message
  return (serializeMessage message participant.displayName, db)

/-- `_handle_chat_send`, for any Python text. -/
def handleChatText (db : Db) (connection : Connection) (payload : PyJsonObj) (id : String)
    (now : DateTime) : Service (Db × List Action) :=
  match PyJson.get payload "body" with
  | .str body => do
    let (saved, db) ← postText db connection.meetingId connection.participantId
      (body.take maxChatBodyLength) id now
    return (db, [chatMessage connection saved])
  | _ => .error (.app (badFrame "`body` must be a string."))

/-- One turn of the message loop; `none` if the message is for another handler. -/
def onChatFrame (db : Db) (connection : Connection) (message : PyJson) (id : String)
    (now : DateTime) : Option (Db × List Action) :=
  (chatPayload message).map fun payload =>
    match handleChatText db connection payload id now with
    | .ok result => result
    | .error e => (db, [.send connection (failureFrame e)])

/-! ### Texts without surrogates -/

section OfString

variable {db : Db} {r : RoomRegistry} {c : Connection} {id : String} {now : DateTime}

theorem bindText_ofString (s : String) : bindText (PyText.ofString s) = .ok s := by
  rw [bindText, PyText.encode_ofString]

theorem storedText_ofString (body : String) :
    storedText (PyText.ofString body) = PyText.ofString (storedBody body) := by
  rw [storedText, storedBody, PyText.strip_ofString, PyText.length_ofString, PyText.take_ofString]
  split <;> rfl

/-- **A text without surrogates is posted as `postMessage` posts it.** -/
theorem postText_ofString (meetingId : MeetingId) (participantId : ParticipantId) (body : String) :
    postText db meetingId participantId (PyText.ofString body) id now =
      postMessage db meetingId participantId body id now := by
  have hblank : (PyText.ofString body).strip ≠ [] ↔ PyStr.strip body ≠ "" := by
    rw [PyText.strip_ofString, ne_eq, PyText.ofString_eq_nil]
  rw [postText, postMessage]
  simp only [hblank, storedText_ofString, bindText_ofString, bind, Except.bind]

theorem handleChatText_ofFields (inbound : Inbound) :
    handleChatText db c (PyJson.ofFields inbound.payload) id now =
      handleChatSend db c inbound id now := by
  rw [handleChatText, handleChatSend, PyJson.get_ofFields]
  cases Json.get inbound.payload "body" with
  | str body => simp only [PyJson.ofJson, PyText.take_ofString, postText_ofString]
  | _ => simp only [PyJson.ofJson]

/-- A message without surrogates that is a chat frame. -/
theorem readMessage_of_chatPayload {message : Json} {payload : PyJsonObj}
    (h : chatPayload (PyJson.ofJson message) = some payload) :
    ∃ inbound, readMessage message = .ok inbound ∧ inbound.handler = .chatSend ∧
      payload = PyJson.ofFields inbound.payload := by
  cases message with
  | obj message =>
    rw [PyJson.ofJson, chatPayload] at h
    rw [readMessage]
    split at h
    · next type htype =>
      rw [PyJson.get_ofFields] at htype
      obtain ⟨s, hs, rfl⟩ := PyJson.ofJson_eq_str htype
      split at h
      · next hchat =>
        obtain rfl := PyText.ofString_injective hchat
        rw [hs]
        refine ⟨_, rfl, rfl, ?_⟩
        rw [PyJson.get_ofFields] at h
        cases hpayload : Json.get message "payload" with
        | obj fields =>
          rw [hpayload, PyJson.ofJson] at h
          exact (Option.some.inj h).symm
        | _ =>
          rw [hpayload] at h
          simp only [PyJson.ofJson] at h
          exact (Option.some.inj h).symm
      · cases h
    · cases h
  | _ => simp [PyJson.ofJson, chatPayload] at h

/-- **A chat frame without surrogates is handled as in the message loop.** -/
theorem onChatFrame_ofJson {message : Json} {result : Db × List Action}
    (h : onChatFrame db c (PyJson.ofJson message) id now = some result) :
    onMessage db r c message id now = result := by
  obtain ⟨payload, hpayload, hresult⟩ := Option.map_eq_some_iff.mp h
  obtain ⟨inbound, hread, hchat, rfl⟩ := readMessage_of_chatPayload hpayload
  rw [handleChatText_ofFields] at hresult
  rw [onMessage, hread]
  simp only [handle, hchat]
  exact hresult

end OfString

/-! ### Cutting and trimming -/

/-- The body without the white space behind it fits, or it neither starts with white space
nor has any in the last place that is kept. -/
def CutsCleanly (body : PyText) : Prop :=
  (body.rdropWhile CodePoint.isSpace).length ≤ maxChatBodyLength ∨
    body.takeWhile CodePoint.isSpace = [] ∧
      ∃ x, body[maxChatBodyLength - 1]? = some x ∧ x.isSpace = false

/-- What the claim of a post is about: the first 2000 characters of the trimmed body. -/
def keptText (body : PyText) : PyText := body.strip.take maxChatBodyLength

/-- A body is cut before it is trimmed with the same result exactly if it cuts cleanly. -/
theorem strip_take_iff {body : PyText} :
    PyText.strip (body.take maxChatBodyLength) = keptText body ↔ CutsCleanly body :=
  Trim.trim_take_iff (by decide)

theorem storedText_eq (body : PyText) : storedText body = keptText body := by
  rw [storedText, keptText]
  split
  · rfl
  · next hfits => rw [List.take_of_length_le (Nat.not_lt.mp hfits)]

/-- What is cut already is stored as it is trimmed. -/
theorem storedText_take (body : PyText) :
    storedText (body.take maxChatBodyLength) = PyText.strip (body.take maxChatBodyLength) := by
  rw [storedText_eq, keptText]
  refine List.take_of_length_le ?_
  calc (Trim.trim CodePoint.isSpace (body.take maxChatBodyLength)).length
      ≤ (body.take maxChatBodyLength).length :=
        (Trim.length_trim_le _).trans (Trim.length_rdropWhile_le _)
    _ ≤ maxChatBodyLength := List.length_take_le _ _

theorem keptText_eq_nil {body : PyText} : keptText body = [] ↔ body.strip = [] := by
  have hpos : maxChatBodyLength ≠ 0 := by decide
  rw [keptText, List.take_eq_nil_iff, or_iff_right hpos]

/-! ### What a frame stores -/

/-- A message of the socket's participant. -/
def Connection.chat (c : Connection) (body id : String) (now : DateTime) : ChatMessage :=
  ⟨id, c.meetingId, c.participantId, body, now⟩

/-- What a `chat.send` frame with that body is to do: a blank body is refused, of any other
the first 2000 characters of the trimmed text are stored and broadcast, as a post does. -/
structure ChatHonoured (db : Db) (c : Connection) (name : String) (message : PyJson)
    (body : PyText) (id : String) (now : DateTime) : Prop where
  refused : body.strip = [] ↔ ∃ code text details,
    onChatFrame db c message id now = some (db, [.send c (errorFrame code text details)])
  posted : body.strip ≠ [] → ∃ kept said db', PyText.ofString kept = keptText body ∧
    said = c.chat kept id now ∧ db.insertMessage said = .ok db' ∧
    postText db c.meetingId c.participantId body id now = .ok (serializeMessage said name, db') ∧
    onChatFrame db c message id now = some (db', [chatMessage c (serializeMessage said name)])

section ChatFrame

variable {db db' : Db} {c : Connection} {message : PyJson} {payload : PyJsonObj}
  {p : Participant} {body : PyText} {id kept : String} {now : DateTime}

/-- The socket's row, looked up in its meeting. -/
theorem filter_present (hp : db.getParticipant c.participantId = some p)
    (hmeeting : p.meetingId = c.meetingId) :
    (db.getParticipant c.participantId).filter (fun p => p.meetingId = c.meetingId) = some p := by
  rw [hp, Option.filter_some, if_pos (decide_eq_true hmeeting)]

/-- A post of a participant of the meeting, of a text that encodes. -/
theorem postText_of_present (hp : db.getParticipant c.participantId = some p)
    (hmeeting : p.meetingId = c.meetingId) (hbody : body.strip ≠ [])
    (hkept : storedText body = PyText.ofString kept)
    (hins : db.insertMessage (c.chat kept id now) = .ok db') :
    postText db c.meetingId c.participantId body id now =
      .ok (serializeMessage (c.chat kept id now) p.displayName, db') := by
  have hins' : db.insertMessage ⟨id, c.meetingId, c.participantId, kept, now⟩ = .ok db' := hins
  rw [postText, Service.require, if_pos hbody, filter_present hp hmeeting, hkept,
    bindText_ofString]
  simp only [Service.getOrRaise, bind, Except.bind, hins']
  rfl

/-- One that does not encode raises. -/
theorem postText_of_surrogate (hp : db.getParticipant c.participantId = some p)
    (hmeeting : p.meetingId = c.meetingId) (hbody : body.strip ≠ [])
    (hkept : (storedText body).encode = none) :
    postText db c.meetingId c.participantId body id now = .error .unicodeError := by
  rw [postText, Service.require, if_pos hbody, filter_present hp hmeeting, bindText, hkept]
  rfl

/-- A blank one is refused. -/
theorem postText_of_blank (hbody : body.strip = []) :
    postText db c.meetingId c.participantId body id now =
      .error (.app (.validation "Message body cannot be empty." [("field", .str "body")])) := by
  rw [postText, Service.require, if_neg (not_not.mpr hbody)]
  rfl

/-- A turn of the loop whose post succeeds. -/
theorem onChatFrame_ok (hchat : chatPayload message = some payload)
    (hbody : PyJson.get payload "body" = .str body) {saved : MessageView}
    (h : postText db c.meetingId c.participantId (body.take maxChatBodyLength) id now =
      .ok (saved, db')) :
    onChatFrame db c message id now = some (db', [chatMessage c saved]) := by
  rw [onChatFrame, hchat, Option.map_some, handleChatText, hbody]
  simp only [h, bind, Except.bind]
  rfl

/-- One whose post raises. -/
theorem onChatFrame_error (hchat : chatPayload message = some payload)
    (hbody : PyJson.get payload "body" = .str body) {e : Raised}
    (h : postText db c.meetingId c.participantId (body.take maxChatBodyLength) id now = .error e) :
    onChatFrame db c message id now = some (db, [.send c (failureFrame e)]) := by
  rw [onChatFrame, hchat, Option.map_some, handleChatText, hbody]
  simp only [h, bind, Except.bind]

/-- A cut that is blank is refused. -/
theorem chat_refused (hchat : chatPayload message = some payload)
    (hbody : PyJson.get payload "body" = .str body)
    (hblank : PyText.strip (body.take maxChatBodyLength) = []) : ∃ code text details,
    onChatFrame db c message id now = some (db, [.send c (errorFrame code text details)]) :=
  ⟨_, _, _, onChatFrame_error hchat hbody (postText_of_blank hblank)⟩

/-- So is one with a surrogate that is to be stored. -/
theorem chat_unencodable (hchat : chatPayload message = some payload)
    (hbody : PyJson.get payload "body" = .str body)
    (hp : db.getParticipant c.participantId = some p) (hmeeting : p.meetingId = c.meetingId)
    (hcut : PyText.strip (body.take maxChatBodyLength) ≠ [])
    (hsurrogate : (PyText.strip (body.take maxChatBodyLength)).encode = none) :
    ∃ code text details,
      onChatFrame db c message id now = some (db, [.send c (errorFrame code text details)]) := by
  rw [← storedText_take] at hsurrogate
  exact ⟨_, _, _, onChatFrame_error hchat hbody (postText_of_surrogate hp hmeeting hcut hsurrogate)⟩

/-- Any other is stored and broadcast. -/
theorem chat_posted (hchat : chatPayload message = some payload)
    (hbody : PyJson.get payload "body" = .str body)
    (hp : db.getParticipant c.participantId = some p) (hmeeting : p.meetingId = c.meetingId)
    (hcut : PyText.strip (body.take maxChatBodyLength) ≠ [])
    (hkept : PyText.strip (body.take maxChatBodyLength) = PyText.ofString kept)
    (hins : db.insertMessage (c.chat kept id now) = .ok db') :
    onChatFrame db c message id now =
      some (db', [chatMessage c (serializeMessage (c.chat kept id now) p.displayName)]) := by
  rw [← storedText_take] at hkept
  exact onChatFrame_ok hchat hbody (postText_of_present hp hmeeting hcut hkept hins)

end ChatFrame

/-- **A frame stores what a post of its body stores exactly if the body cuts cleanly and what
is kept of it encodes.** -/
theorem chat_frame_iff {db : Db} {c : Connection} {message : PyJson} {payload : PyJsonObj}
    {p : Participant} {body : PyText} {id : String} {now : DateTime}
    (hchat : chatPayload message = some payload) (hbody : PyJson.get payload "body" = .str body)
    (hp : db.getParticipant c.participantId = some p) (hmeeting : p.meetingId = c.meetingId)
    (hid : id ∉ db.chatMessages.keys) :
    ChatHonoured db c p.displayName message body id now ↔
      CutsCleanly body ∧ ∀ x ∈ keptText body, ¬ x.IsSurrogate := by
  rw [← strip_take_iff, ← PyText.encodes_iff]
  constructor
  · intro h
    by_cases hcut : PyText.strip (body.take maxChatBodyLength) = []
    · -- the frame was refused, so the body is blank
      have hblank : body.strip = [] := h.refused.mpr (chat_refused hchat hbody hcut)
      have hkept : keptText body = [] := keptText_eq_nil.mpr hblank
      exact ⟨hcut.trans hkept.symm, "", by rw [hkept]; rfl⟩
    · have hfull : body.strip ≠ [] := fun hblank => hcut (Trim.trim_take_of_trim_eq_nil hblank)
      cases hencode : (PyText.strip (body.take maxChatBodyLength)).encode with
      | none =>
        -- the commit raised, so the body would have to be blank
        exact absurd (h.refused.mpr (chat_unencodable hchat hbody hp hmeeting hcut hencode)) hfull
      | some cut =>
        have hcutText := PyText.encode_eq_some_iff.mp hencode
        obtain ⟨db', hins⟩ := Db.insertMessage_of_not_mem (c := c.chat cut id now) hid
        have hsent := chat_posted hchat hbody hp hmeeting hcut hcutText hins
        obtain ⟨kept, _, _, hkept, rfl, -, -, hposted⟩ := h.posted hfull
        have hsaid := congrArg Prod.snd (Option.some.inj (hsent.symm.trans hposted))
        have hsame : cut = kept := by
          simpa [chatMessage, serializeMessage, Connection.chat] using hsaid
        subst hsame
        exact ⟨hcutText.trans hkept, cut, by rw [← hkept, PyText.encode_ofString]⟩
  · rintro ⟨heq, kept, hencode⟩
    have hkept := PyText.encode_eq_some_iff.mp hencode
    obtain ⟨db', hins⟩ := Db.insertMessage_of_not_mem (c := c.chat kept id now) hid
    have hsent (hfull : body.strip ≠ []) :
        onChatFrame db c message id now =
          some (db', [chatMessage c (serializeMessage (c.chat kept id now) p.displayName)]) := by
      have hcut : PyText.strip (body.take maxChatBodyLength) ≠ [] := by
        rwa [heq, ne_eq, keptText_eq_nil]
      exact chat_posted hchat hbody hp hmeeting hcut (heq.trans hkept) hins
    constructor
    · constructor
      · intro hblank
        exact chat_refused hchat hbody (Trim.trim_take_of_trim_eq_nil hblank)
      · rintro ⟨_, _, _, hrefused⟩
        by_contra hfull
        cases (hsent hfull).symm.trans hrefused
    · intro hfull
      refine ⟨kept, _, db', hkept.symm, rfl, hins, ?_, hsent hfull⟩
      exact postText_of_present hp hmeeting hfull ((storedText_eq body).trans hkept) hins

/-- A frame with that body. -/
def chatFrame (body : PyText) : PyJson :=
  .obj [(PyText.ofString "type", .str (PyText.ofString "chat.send")),
    (PyText.ofString "payload", .obj [(PyText.ofString "body", .str body)])]

/-- A socket of the participant of the room. -/
def graceSocket : Connection := { connectionId := "k1", meetingId := "n", participantId := "1" }

/-- A short body is kept. -/
theorem chat_frame_hello : ChatHonoured busyRoom graceSocket "Grace"
      (chatFrame (PyText.ofString "hello")) (PyText.ofString "hello") "c9" 30 ↔
    CutsCleanly (PyText.ofString "hello") ∧ ∀ x ∈ keptText (PyText.ofString "hello"),
      ¬ x.IsSurrogate :=
  have hchat : chatPayload (chatFrame (PyText.ofString "hello")) =
      some [(PyText.ofString "body", .str (PyText.ofString "hello"))] := rfl
  chat_frame_iff (p := busyRoom.participants.rows[0]) hchat rfl rfl rfl (by decide)

/-- Half a surrogate pair is answered with an internal error, and nothing is stored. -/
example : onChatFrame busyRoom graceSocket (chatFrame [0xd83d]) "c9" 30 =
    some (busyRoom, [.send graceSocket (failureFrame .unicodeError)]) := rfl

/-- Spaces, and then a letter. -/
def indented (n : ℕ) : PyText := List.replicate n (CodePoint.ofChar ' ') ++ [CodePoint.ofChar 'a']

theorem take_indented (n : ℕ) : PyText.strip ((indented n).take n) = [] := by
  rw [indented, List.take_left' List.length_replicate, PyText.strip, Trim.trim_eq_nil_iff]
  intro x hx
  rw [List.eq_of_mem_replicate hx]
  decide

theorem strip_indented (n : ℕ) : (indented n).strip ≠ [] := by
  intro hblank
  have hletter := Trim.trim_eq_nil_iff.mp hblank (CodePoint.ofChar 'a')
    (List.mem_append_right _ (List.mem_singleton_self _))
  revert hletter
  decide

/-- A letter behind two thousand spaces is refused as blank. -/
theorem indented_refused : ¬ ∀ (db : Db) (c : Connection) (message : PyJson) (payload : PyJsonObj)
    (p : Participant) (body : PyText) (id : String) (now : DateTime),
    chatPayload message = some payload → PyJson.get payload "body" = .str body →
    db.getParticipant c.participantId = some p → p.meetingId = c.meetingId →
    id ∉ db.chatMessages.keys → ChatHonoured db c p.displayName message body id now := by
  intro h
  have hchat : chatPayload (chatFrame (indented 2000)) =
      some [(PyText.ofString "body", .str (indented 2000))] := rfl
  have hhonoured := h busyRoom graceSocket (chatFrame (indented 2000)) _
    busyRoom.participants.rows[0] (indented 2000) "c9" 30 hchat rfl rfl rfl (by decide)
  exact strip_indented 2000 (hhonoured.refused.mpr (chat_refused hchat rfl (take_indented 2000)))

end ZoomClone
