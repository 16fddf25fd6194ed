/-
Join flow, roster and participant lifecycle (`participant_service.py`), the
chat posts of `chat_service.py`, and the identity checks of `deps.py` that stand
in front of the REST routes.

Every exit path sets `left_at`: `Participant.markLeft` is the one place that
closes a single row, and it keeps the stamp of a row that is closed already.
-/
import ZoomClone.MeetingService

namespace ZoomClone

/-- The mesh cap. -/
def maxMeshParticipants : ℕ := 6

def meetingFull : AppError :=
  .conflict "This meeting has reached its participant limit." "MEETING_FULL"
    [("limit", .int maxMeshParticipants)]

def meetingNotJoinable (status : MeetingStatus) : AppError :=
  .conflict "This meeting has already ended." "MEETING_NOT_JOINABLE"
    [("status", .str status.name)]

def invalidPasscode : AppError := .forbidden "That passcode is not correct." "INVALID_PASSCODE"

def participantNotFound : AppError := .notFound "No such participant." "PARTICIPANT_NOT_FOUND"

/-! ### Identity -/

/-- The user row behind a verified bearer token. -/
def currentUser (db : Db) (userId : UserId) : Service User :=
  .getOrRaise (db.getUser userId)
    (.unauthorized "The session token is missing, expired, or invalid." "INVALID_TOKEN")

/-- The same, for the routes that guests may not use. -/
def currentFullUser (db : Db) (userId : UserId) : Service User := do
  let user ← currentUser db userId
  .require (user.isGuest = false)
    (.forbidden "Guests cannot use this feature. Sign in to continue." "GUEST_FORBIDDEN")
  return user

theorem currentUser_eq_ok {db : Db} {userId : UserId} {u : User} :
    currentUser db userId = .ok u ↔ db.getUser userId = some u :=
  Service.getOrRaise_eq_ok

theorem currentFullUser_eq_ok {db : Db} {userId : UserId} {u : User} :
    currentFullUser db userId = .ok u ↔ db.getUser userId = some u ∧ u.isGuest = false := by
  simp only [currentFullUser, Service.bind_eq_ok, Service.pure_eq_ok, currentUser_eq_ok,
    Service.require_eq_ok]
  constructor
  · rintro ⟨v, hv, -, hguest, rfl⟩
    exact ⟨hv, hguest⟩
  · rintro ⟨hu, hguest⟩
    exact ⟨u, hu, (), hguest, rfl⟩

/-! ### Serialization -/

def serializeParticipant (p : Participant) : ParticipantView where
  id := p.id
  meetingId := p.meetingId
  userId := p.userId
  displayName := p.displayName
  role := p.role
  isMuted := p.isMuted
  isVideoOn := p.isVideoOn
  isHandRaised := p.isHandRaised
  joinedAt := p.joinedAt
  leftAt := p.leftAt

/-! ### Joining -/

def activeCount (db : Db) (meetingId : MeetingId) : ℕ := (db.activeRows meetingId).length

/-- `(is_muted, is_video_on)` from the saved join preferences. -/
def initialMediaState (db : Db) (user : User) : Bool × Bool :=
  match db.userPreferences.find? user.id with
  | none => (false, true)
  | some prefs => (prefs.muteOnJoin, !prefs.videoOffOnJoin)

/-- `secrets.compare_digest` on text. -/
def compareDigest (a b : String) : Service Bool :=
  if PyStr.isAscii a && PyStr.isAscii b then .ok (a = b) else .error .typeError

/-- The body of `POST /join`. -/
structure JoinRequest where
  displayName : Option String := none
  passcode : Option String := none
  inviteToken : Option String := none

/-- What a joiner who is not the host must show: the invite token, or the
passcode of a meeting that has one. -/
def checkCredentials (meeting : Meeting) (req : JoinRequest) : Service Unit := do
  let tokenOk ← match given req.inviteToken with
    | none => pure false
    | some token => compareDigest token meeting.inviteToken
  if !tokenOk && meeting.passcode ≠ "" then
    match given req.passcode with
    | none => .error (.app invalidPasscode)
    | some passcode =>
      let passcodeOk ← compareDigest passcode meeting.passcode
      .require passcodeOk invalidPasscode

/-- The host needs no credentials. -/
def checkEntry (meeting : Meeting) (user : User) (req : JoinRequest) : Service Unit :=
  if meeting.hostId = user.id then .ok () else checkCredentials meeting req

/-- What `join_meeting` draws at random. -/
structure JoinDraws where
  id : ParticipantId
  sessionId : SessionId

structure JoinResponse where
  sessionId : SessionId
  participant : ParticipantView
  meeting : MeetingView
  maxParticipants : ℕ := maxMeshParticipants

/-- Everything `join_meeting` checks before it writes. -/
def checkJoin (db : Db) (meetingNumber : String) (user : User) (req : JoinRequest) :
    Service Meeting := do
  let meeting ← getByNumber db meetingNumber
  .require (meeting.status ≠ .ended ∧ meeting.status ≠ .cancelled)
    (meetingNotJoinable meeting.status)
  checkEntry meeting user req
  .require (activeCount db meeting.id < maxMeshParticipants) meetingFull
  return meeting

theorem checkJoin_eq_ok {db : Db} {meetingNumber : String} {user : User} {req : JoinRequest}
    {m : Meeting} :
    checkJoin db meetingNumber user req = .ok m ↔
      db.meetingByNumber meetingNumber = some m ∧ (m.status ≠ .ended ∧ m.status ≠ .cancelled) ∧
        checkEntry m user req = .ok () ∧ activeCount db m.id < maxMeshParticipants := by
  simp only [checkJoin, Service.bind_eq_ok, Service.pure_eq_ok, getByNumber_eq_ok,
    Service.require_eq_ok]
  constructor
  · rintro ⟨m', hm, -, hs, ⟨⟩, hentry, -, hlt, rfl⟩
    exact ⟨hm, hs, hentry, hlt⟩
  · rintro ⟨hm, hs, hentry, hlt⟩
    exact ⟨m, hm, (), hs, (), hentry, (), hlt, rfl⟩

/-- The row a join inserts. -/
def joinRow (db : Db) (meeting : Meeting) (user : User) (req : JoinRequest) (draws : JoinDraws)
    (now : DateTime) : Participant :=
  let name := PyStr.strip ((given req.displayName).getD user.name)
  let media := initialMediaState db user
  { id := draws.id, meetingId := meeting.id, userId := some user.id
    displayName := if name = "" then user.name else name
    role := if meeting.hostId = user.id then .host else .participant
    sessionId := draws.sessionId, isMuted := media.1, isVideoOn := media.2, joinedAt := now }

/-- A host's join takes a meeting that is not live, live. -/
def Db.welcomeHost (db : Db) (meeting : Meeting) (user : User) (now : DateTime) : Db :=
  if meeting.hostId = user.id ∧ meeting.status ≠ .live then
    db.updateMeetingRow meeting.id (·.goLive now) (Meeting.goLive_id · now)
  else db

/-- What `join_meeting` writes and returns for a meeting row that passed the
checks. -/
def commitJoin (db : Db) (meeting : Meeting) (user : User) (req : JoinRequest) (draws : JoinDraws)
    (now : DateTime) : Service (JoinResponse × Db) := do
  let row := joinRow db meeting user req draws now
  let db ← (db.welcomeHost meeting user now).insertParticipant row
  let meeting := (db.getMeeting meeting.id).getD meeting
  return ({ sessionId := row.sessionId, participant := serializeParticipant row
            meeting := serializeMeeting db meeting }, db)

/-- Validate entry, create a row, return the session.  A fresh row per join,
never an update of an old one. -/
def joinMeeting (db : Db) (meetingNumber : String) (user : User) (req : JoinRequest)
    (draws : JoinDraws) (now : DateTime) : Service (JoinResponse × Db) := do
  let meeting ← checkJoin db meetingNumber user req
  commitJoin db meeting user req draws now

theorem welcomeHost_participants (db : Db) (meeting : Meeting) (user : User) (now : DateTime) :
    (db.welcomeHost meeting user now).participants = db.participants := by
  unfold Db.welcomeHost
  split <;> rfl

/-- A join that commits adds exactly its own row. -/
theorem commitJoin_ok {db db' : Db} {meeting : Meeting} {user : User} {req : JoinRequest}
    {draws : JoinDraws} {now : DateTime} {r : JoinResponse}
    (h : commitJoin db meeting user req draws now = .ok (r, db')) :
    ∃ hid : (joinRow db meeting user req draws now).id ∉ db.participants.keys,
      db'.participants = db.participants.insert (joinRow db meeting user req draws now) hid ∧
        db'.meetings = (db.welcomeHost meeting user now).meetings ∧
          ∀ q ∈ db.participants, q.sessionId ≠ draws.sessionId := by
  obtain ⟨db₁, hins, h⟩ := Service.bind_eq_ok.mp h
  obtain ⟨-, rfl⟩ := Prod.mk.inj (Service.pure_eq_ok.mp h)
  obtain ⟨hid, rfl, hsession⟩ := Db.insertParticipant_ok hins
  have hsame := welcomeHost_participants db meeting user now
  refine ⟨?_, ?_, rfl, ?_⟩
  · rw [hsame] at hid
    exact hid
  · simp only [hsame]
  · intro q hq
    rw [← hsame] at hq
    exact hsession q hq

/-- A join under a fresh id and session commits, whatever it read before. -/
theorem commitJoin_of_fresh {db : Db} {draws : JoinDraws} (hid : draws.id ∉ db.participants.keys)
    (hsession : ∀ q ∈ db.participants, q.sessionId ≠ draws.sessionId) (meeting : Meeting)
    (user : User) (req : JoinRequest) (now : DateTime) :
    ∃ r db', commitJoin db meeting user req draws now = .ok (r, db') := by
  have hsame := welcomeHost_participants db meeting user now
  have hins : ∃ db', (db.welcomeHost meeting user now).insertParticipant
      (joinRow db meeting user req draws now) = .ok db' :=
    Db.insertParticipant_of_fresh (by rwa [hsame]) (by rwa [hsame])
  obtain ⟨db', hins⟩ := hins
  exact ⟨_, _, Service.bind_eq_ok.mpr ⟨db', hins, rfl⟩⟩

theorem joinMeeting_ok {db db' : Db} {meetingNumber : String} {user : User} {req : JoinRequest}
    {draws : JoinDraws} {now : DateTime} {r : JoinResponse}
    (h : joinMeeting db meetingNumber user req draws now = .ok (r, db')) :
    ∃ meeting, checkJoin db meetingNumber user req = .ok meeting ∧
      commitJoin db meeting user req draws now = .ok (r, db') :=
  Service.bind_eq_ok.mp h

/-! ### Changing and closing a row -/

/-- The media flags a client may change; absent ones are left alone. -/
structure MediaPatch where
  isMuted : Option Bool := none
  isVideoOn : Option Bool := none
  isHandRaised : Option Bool := none
  deriving DecidableEq

/-- `changes.get(field)` of an arbitrary payload, for the three media fields. -/
def MediaPatch.ofPayload (payload : JsonObj) : MediaPatch :=
  let field (name : String) : Option Bool :=
    match Json.get payload name with
    | .null => none
    | value => some value.truthy
  { isMuted := field "is_muted", isVideoOn := field "is_video_on"
    isHandRaised := field "is_hand_raised" }

def Participant.applyMedia (p : Participant) (patch : MediaPatch) : Participant :=
  { p with
    isMuted := patch.isMuted.getD p.isMuted
    isVideoOn := patch.isVideoOn.getD p.isVideoOn
    isHandRaised := patch.isHandRaised.getD p.isHandRaised }

@[simp] theorem Participant.applyMedia_id (p : Participant) (patch : MediaPatch) :
    (p.applyMedia patch).id = p.id := rfl

/-- Set `left_at` and drop the socket mapping.  A closed row keeps its stamp. -/
def Participant.markLeft (p : Participant) (now : DateTime) : Participant :=
  { p with leftAt := some (p.leftAt.getD now), connectionId := none }

@[simp] theorem Participant.markLeft_id (p : Participant) (now : DateTime) :
    (p.markLeft now).id = p.id := rfl

def markLeft (db : Db) (p : Participant) (now : DateTime) : ParticipantView × Db :=
  (serializeParticipant (p.markLeft now),
    db.updateRow p.id (·.markLeft now) (Participant.markLeft_id · now))

/-- A row by id, with the meeting it belongs to. -/
def rowWithMeeting (db : Db) (participantId : ParticipantId) : Service (Participant × Meeting) := do
  let participant ← .getOrRaise (db.getParticipant participantId) participantNotFound
  let meeting ← .getOrRaise (db.getMeeting participant.meetingId) participantNotFound
  return (participant, meeting)

/-- Mute, video and hand of a row: by its user or by the host. -/
def updateParticipant (db : Db) (participantId : ParticipantId) (actor : User)
    (changes : MediaPatch) : Service (ParticipantView × Db) := do
  let (participant, meeting) ← rowWithMeeting db participantId
  .require (participant.userId = some actor.id ∨ meeting.hostId = actor.id)
    (.forbidden "You can only change your own state, or a participant's if you host."
      "NOT_SELF_OR_HOST")
  let db := db.updateRow participant.id (·.applyMedia changes) (Participant.applyMedia_id · changes)
  return (serializeParticipant (participant.applyMedia changes), db)

/-- The host removes someone from the meeting. -/
def removeParticipant (db : Db) (participantId : ParticipantId) (actor : User) (now : DateTime) :
    Service (ParticipantView × Db) := do
  let (participant, meeting) ← rowWithMeeting db participantId
  .require (meeting.hostId = actor.id)
    (.forbidden "Only the meeting host can remove a participant." "NOT_HOST")
  .require (participant.userId ≠ some actor.id)
    (.conflict "The host cannot remove themselves; end the meeting instead."
      "CANNOT_REMOVE_SELF")
  return markLeft db participant now

/-- Close the row of a `session_id`. -/
def leaveMeeting (db : Db) (sessionId : SessionId) (now : DateTime) :
    Service (ParticipantView × Db) := do
  let participant ← .getOrRaise (db.participantBySession sessionId) participantNotFound
  return markLeft db participant now

theorem rowWithMeeting_eq_ok {db : Db} {participantId : ParticipantId}
    {p : Participant} {m : Meeting} :
    rowWithMeeting db participantId = .ok (p, m) ↔
      db.getParticipant participantId = some p ∧ db.getMeeting p.meetingId = some m := by
  simp only [rowWithMeeting, Service.bind_eq_ok, Service.pure_eq_ok, Service.getOrRaise_eq_ok,
    Prod.mk.injEq]
  constructor
  · rintro ⟨p', hp, m', hm, rfl, rfl⟩
    exact ⟨hp, hm⟩
  · rintro ⟨hp, hm⟩
    exact ⟨p, hp, m, hm, rfl, rfl⟩

theorem updateParticipant_ok {db db' : Db} {participantId : ParticipantId} {actor : User}
    {changes : MediaPatch} {v : ParticipantView}
    (h : updateParticipant db participantId actor changes = .ok (v, db')) :
    ∃ p m, db.getParticipant participantId = some p ∧ db.getMeeting p.meetingId = some m ∧
      (p.userId = some actor.id ∨ m.hostId = actor.id) ∧
      db' = db.updateRow p.id (·.applyMedia changes) (Participant.applyMedia_id · changes) := by
  simp only [updateParticipant, Service.bind_eq_ok, Service.pure_eq_ok, Service.require_eq_ok] at h
  obtain ⟨⟨p, m⟩, hrow, -, hallowed, h⟩ := h
  obtain ⟨hp, hm⟩ := rowWithMeeting_eq_ok.mp hrow
  obtain ⟨-, rfl⟩ := Prod.mk.inj h
  exact ⟨p, m, hp, hm, hallowed, rfl⟩

theorem removeParticipant_eq_ok {db db' : Db} {participantId : ParticipantId} {actor : User}
    {now : DateTime} {v : ParticipantView} :
    removeParticipant db participantId actor now = .ok (v, db') ↔
      ∃ p m, db.getParticipant participantId = some p ∧ db.getMeeting p.meetingId = some m ∧
        m.hostId = actor.id ∧ p.userId ≠ some actor.id ∧ (v, db') = markLeft db p now := by
  simp only [removeParticipant, Service.bind_eq_ok, Service.pure_eq_ok, Service.require_eq_ok]
  constructor
  · rintro ⟨⟨p, m⟩, hrow, -, hhost, -, hself, h⟩
    obtain ⟨hp, hm⟩ := rowWithMeeting_eq_ok.mp hrow
    exact ⟨p, m, hp, hm, hhost, hself, h.symm⟩
  · rintro ⟨p, m, hp, hm, hhost, hself, h⟩
    exact ⟨(p, m), rowWithMeeting_eq_ok.mpr ⟨hp, hm⟩, (), hhost, (), hself, h.symm⟩

theorem leaveMeeting_eq_ok {db db' : Db} {sessionId : SessionId} {now : DateTime}
    {v : ParticipantView} :
    leaveMeeting db sessionId now = .ok (v, db') ↔
      ∃ p, db.participantBySession sessionId = some p ∧ (v, db') = markLeft db p now := by
  simp only [leaveMeeting, Service.bind_eq_ok, Service.pure_eq_ok, Service.getOrRaise_eq_ok]
  constructor
  · rintro ⟨p, hp, h⟩
    exact ⟨p, hp, h.symm⟩
  · rintro ⟨p, hp, h⟩
    exact ⟨p, hp, h.symm⟩

/-! ### Chat -/

def serializeMessage (message : ChatMessage) (displayName : String) : MessageView :=
  ⟨message.id, message.meetingId, message.participantId, displayName, message.body, message.sentAt⟩

/-- What is stored of a body: trimmed, then capped. -/
def storedBody (body : String) : String :=
  let body := PyStr.strip body
  if maxChatBodyLength < body.length then PyStr.take body maxChatBodyLength else body

/-- Persist one message, trimmed and capped; the body is a text that UTF-8 encodes. -/
def postMessage (db : Db) (meetingId : MeetingId) (participantId : ParticipantId) (body : String)
    (id : String) (now : DateTime) : Service (MessageView × Db) := do
  .require (PyStr.strip body ≠ "")
    (.validation "Message body cannot be empty." [("field", .str "body")])
  let participant ← .getOrRaise
    ((db.getParticipant participantId).filter fun p => p.meetingId = meetingId)
    (.notFound "No such participant in this meeting." "PARTICIPANT_NOT_FOUND")
  let message : ChatMessage :=
    { id, meetingId, participantId, body := storedBody body, sentAt := now }
  let db ← db.insertMessage message
  return (serializeMessage message participant.displayName, db)

/-- A post succeeds for a participant of the meeting, a body that is not blank
and a free id. -/
theorem postMessage_eq_ok {db db' : Db} {meetingId : MeetingId} {participantId : ParticipantId}
    {body id : String} {now : DateTime} {v : MessageView} :
    postMessage db meetingId participantId body id now = .ok (v, db') ↔
      PyStr.strip body ≠ "" ∧ ∃ p, db.getParticipant participantId = some p ∧
        p.meetingId = meetingId ∧
        db.insertMessage ⟨id, meetingId, participantId, storedBody body, now⟩ = .ok db' ∧
        v = serializeMessage
          ⟨id, meetingId, participantId, storedBody body, now⟩ p.displayName := by
  simp only [postMessage, Service.bind_eq_ok, Service.pure_eq_ok, Service.require_eq_ok,
    Service.getOrRaise_eq_ok, Option.filter_eq_some_iff, decide_eq_true_eq]
  constructor
  · rintro ⟨-, hbody, p, ⟨hp, hmeeting⟩, db₁, hins, h⟩
    obtain ⟨rfl, rfl⟩ := Prod.mk.inj h
    exact ⟨hbody, p, hp, hmeeting, hins, rfl⟩
  · rintro ⟨hbody, p, hp, hmeeting, hins, rfl⟩
    exact ⟨(), hbody, p, ⟨hp, hmeeting⟩, db', hins, rfl⟩

end ZoomClone
