/-
Meeting lifecycle: create, edit, cancel, start, end (`meeting_service.py`), and
the number generation of `security.py` it rests on.

A service call takes the committed database and the request, and returns its
result with the database it commits, or what it raised.  Random draws and the
clock (`utcnow`, read once per call) are arguments.

`TRANSITIONS` is `allowedTargets`.  Every status change here goes through
`assertCanTransition`; the two that do not are in `ParticipantService`
(`joinMeeting`) and `SignalingService` (`hostEndMeeting`).
-/
import ZoomClone.Models

namespace ZoomClone

/-! ### Meeting numbers -/

def meetingNumberDigits : ℕ := 11
def pmiDigits : ℕ := 10
def maxGenerationAttempts : ℕ := 5

/-- Ran out of attempts finding a free meeting number.  The details also carry
the driver's text of the last collision, which is left out here. -/
def meetingNumberExhausted (attempts : ℕ) : AppError :=
  { statusCode := 503, code := "MEETING_NUMBER_UNAVAILABLE",
    message := "Could not allocate a meeting number. Please retry.",
    details := [("attempts", .int attempts)] }

/-- One candidate number from the two draws `randbelow(9)` and
`randbelow(10 ** 10)`. -/
def generateMeetingNumber (draw : ℕ × ℕ) : String :=
  toString (draw.1 + 1) ++ PyStr.zeroPadded (meetingNumberDigits - 1) draw.2

/-- `89590250750` as `895 9025 0750`; ten digits are grouped 3-3-4. -/
def formatMeetingNumber (number : String) : String :=
  if number.length = meetingNumberDigits then
    PyStr.slice number 0 3 ++ " " ++ PyStr.slice number 3 7 ++ " " ++
      PyStr.slice number 7 number.length
  else if number.length = pmiDigits then
    PyStr.slice number 0 3 ++ " " ++ PyStr.slice number 3 6 ++ " " ++
      PyStr.slice number 6 number.length
  else number

/-- Insert the row built from a fresh number, retrying while the flush violates
a unique index.  `attempts` counts down, `k` counts the draws used. -/
def insertWithUniqueNumber (db : Db) (build : ℕ → String → Meeting) (numbers : ℕ → ℕ × ℕ) :
    ℕ → ℕ → Service (Meeting × Db)
  | 0, k => .error (.app (meetingNumberExhausted k))
  | attempts + 1, k =>
    let row := build k (generateMeetingNumber (numbers k))
    match db.insertMeeting row with
    | .ok db' => .ok (row, db')
    | .error .integrity => insertWithUniqueNumber db build numbers attempts (k + 1)
    | .error e => .error e

/-! ### The state machine -/

/-- Legal target states, keyed by current state. -/
def allowedTargets : MeetingStatus → List MeetingStatus
  | .scheduled => [.cancelled, .live]
  | .live => [.ended]
  | .ended => [.live]
  | .cancelled => []

def canTransition (current target : MeetingStatus) : Bool := target ∈ allowedTargets current

def invalidStateTransition (current target : MeetingStatus) : AppError :=
  .conflict ("Cannot move a meeting from '" ++ current.name ++ "' to '" ++ target.name ++ "'.")
    "INVALID_STATE_TRANSITION"
    [("from", .str current.name), ("to", .str target.name),
      ("allowed", .arr ((allowedTargets current).map fun s => .str s.name))]

def assertCanTransition (current target : MeetingStatus) : Service Unit :=
  .require (canTransition current target) (invalidStateTransition current target)

theorem assertCanTransition_eq_ok {current target : MeetingStatus} {u : Unit} :
    assertCanTransition current target = .ok u ↔ target ∈ allowedTargets current := by
  rw [assertCanTransition, Service.require_eq_ok, canTransition, decide_eq_true_iff]

/-! ### Serialization -/

def hostSummary (db : Db) (hostId : UserId) : Option HostSummary :=
  (db.getUser hostId).map fun host => ⟨host.id, host.name, host.avatarUrl⟩

/-- `left_at IS NULL` means currently present. -/
def activeParticipantCount (db : Db) (meetingId : MeetingId) : ℕ :=
  (db.activeRows meetingId).length

/-- The full detail view of a row, with the passcode and the invite token. -/
def serializeMeeting (db : Db) (meeting : Meeting) : MeetingView where
  meeting := meeting
  meetingNumberDisplay := formatMeetingNumber meeting.meetingNumber
  host := hostSummary db meeting.hostId
  isInstant := meeting.scheduledStart.isNone
  participantCount := activeParticipantCount db meeting.id

/-! ### Queries -/

def normalizeMeetingNumber (raw : String) : String := PyStr.digits raw

def meetingNotFound (normalized : String) : AppError :=
  { statusCode := 404, code := "MEETING_NOT_FOUND", message := "No meeting with that ID.",
    details := [("meeting_number", .str normalized)] }

/-- The row with that number, tolerating the spaced display form. -/
def Db.meetingByNumber (db : Db) (meetingNumber : String) : Option Meeting :=
  db.meetings.rows.find? fun m => m.meetingNumber = normalizeMeetingNumber meetingNumber

def getByNumber (db : Db) (meetingNumber : String) : Service Meeting :=
  .getOrRaise (db.meetingByNumber meetingNumber)
    (meetingNotFound (normalizeMeetingNumber meetingNumber))

theorem getByNumber_eq_ok {db : Db} {meetingNumber : String} {m : Meeting} :
    getByNumber db meetingNumber = .ok m ↔ db.meetingByNumber meetingNumber = some m :=
  Service.getOrRaise_eq_ok

/-- A drawn number is found under itself. -/
theorem normalize_generateMeetingNumber (draw : ℕ × ℕ) :
    normalizeMeetingNumber (generateMeetingNumber draw) = generateMeetingNumber draw := by
  refine PyStr.digits_eq_self ?_
  intro c hc
  rw [generateMeetingNumber, String.toList_append, List.mem_append] at hc
  rcases hc with hc | hc
  · exact PyStr.isDigit_of_mem_toString hc
  · exact PyStr.isDigit_of_mem_zeroPadded hc

theorem mem_of_meetingByNumber {db : Db} {meetingNumber : String} {m : Meeting}
    (h : db.meetingByNumber meetingNumber = some m) : m ∈ db.meetings :=
  List.mem_of_find?_eq_some h

/-! ### Mutations -/

def maxTopicLength : ℕ := 200
def minDurationMinutes : Int := 15
def maxDurationMinutes : Int := 1440
def basicPlanDurationCap : Int := 40

/-- A request's datetime: wall clock, and its UTC offset when it carries one. -/
structure ApiDateTime where
  wall : Int
  utcOffset : Option Int := none
  deriving DecidableEq

def asNaiveUtc (value : ApiDateTime) : DateTime := value.wall - value.utcOffset.getD 0

def validateTopic (topic : String) : Service String := do
  let topic := PyStr.strip topic
  .require (topic ≠ "") (.validation "Topic is required." [("field", .str "topic")])
  .require (topic.length ≤ maxTopicLength)
    (.validation "Topic must be 200 characters or fewer." [("field", .str "topic")])
  return topic

/-- The stored start of a request, which must lie in the future. -/
def validateStart (value : ApiDateTime) (now : DateTime) : Service DateTime := do
  let start := asNaiveUtc value
  .require (now < start)
    (.validation "Scheduled start must be in the future." [("field", .str "scheduled_start")])
  return start

/-- Bound the duration and apply the basic-plan cap; says whether it clamped. -/
def resolveDuration (duration : Int) (plan : Plan) : Service (Int × Bool) := do
  .require (minDurationMinutes ≤ duration ∧ duration ≤ maxDurationMinutes)
    (.validation "Duration must be between 15 and 1440 minutes."
      [("field", .str "duration_minutes")])
  return if plan = .basic ∧ basicPlanDurationCap < duration then (basicPlanDurationCap, true)
    else (duration, false)

def validateEncryption (encryption : String) : Service Unit :=
  .require (encryption ∈ encryptionModes)
    (.validation "`encryption` must be 'enhanced' or 'e2ee'." [("field", .str "encryption")])

/-- The arguments of `create_meeting`, with its defaults. -/
structure MeetingCreate where
  topic : Option String := none
  description : Option String := none
  scheduledStart : Option ApiDateTime := none
  durationMinutes : Int := basicPlanDurationCap
  timezone : String := "UTC"
  usePmi : Bool := false
  waitingRoom : Bool := true
  hostVideoOn : Bool := true
  participantVideoOn : Bool := true
  allowTranscription : Bool := false
  chatBeforeAfter : Bool := true
  encryption : String := "enhanced"
  invitees : List String := []

/-- What `create_meeting` draws at random. -/
structure CreateDraws where
  passcode : String
  inviteToken : String
  ids : ℕ → MeetingId
  numbers : ℕ → ℕ × ℕ
  inviteeIds : ℕ → String

/-- The invitee rows of a new meeting: one for each address that is not blank. -/
def insertInvitees (db : Db) (meetingId : MeetingId) (now : DateTime) (ids : ℕ → String) :
    ℕ → List String → Service Db
  | _, [] => .ok db
  | k, email :: emails =>
    let email := PyStr.strip email
    if email = "" then insertInvitees db meetingId now ids k emails
    else do
      let db ← db.insertInvitee { id := ids k, meetingId, email, invitedAt := now }
      insertInvitees db meetingId now ids (k + 1) emails

/-- The row a create inserts, for a number and the validated columns. -/
def newMeeting (host : User) (req : MeetingCreate) (draws : CreateDraws) (now : DateTime)
    (topic : String) (scheduledStart : Option DateTime) (durationMinutes : Int) (k : ℕ)
    (meetingNumber : String) : Meeting :=
  { id := draws.ids k, meetingNumber, hostId := host.id, topic
    description := req.description, scheduledStart, durationMinutes
    timezone := req.timezone, passcode := draws.passcode, inviteToken := draws.inviteToken
    status := if scheduledStart.isNone then .live else .scheduled
    usePmi := req.usePmi, waitingRoom := req.waitingRoom, hostVideoOn := req.hostVideoOn
    participantVideoOn := req.participantVideoOn
    allowTranscription := req.allowTranscription, chatBeforeAfter := req.chatBeforeAfter
    encryption := req.encryption
    startedAt := if scheduledStart.isNone then some now else none, createdAt := now }

/-- Insert the built row under the host's personal number, where there is
nothing to retry, or under a fresh one. -/
def insertNewMeeting (db : Db) (host : User) (usePmi : Bool) (build : ℕ → String → Meeting)
    (numbers : ℕ → ℕ × ℕ) : Service (Meeting × Db) :=
  if usePmi then (db.insertMeeting (build 0 host.personalMeetingId)).map
    fun db => (build 0 host.personalMeetingId, db)
  else insertWithUniqueNumber db build numbers maxGenerationAttempts 0

/-- Create an instant (`scheduledStart = none`, born `live`) or scheduled
meeting. -/
def createMeeting (db : Db) (host : User) (req : MeetingCreate) (draws : CreateDraws)
    (now : DateTime) : Service (MeetingView × Db) := do
  let topic ← validateTopic ((given req.topic).getD (host.name ++ "'s Zoom Meeting"))
  let scheduledStart ← req.scheduledStart.mapM (validateStart · now)
  let (durationMinutes, clamped) ← resolveDuration req.durationMinutes host.plan
  validateEncryption req.encryption
  let build := newMeeting host req draws now topic scheduledStart durationMinutes
  let (meeting, db) ← insertNewMeeting db host req.usePmi build draws.numbers
  let db ← insertInvitees db meeting.id now draws.inviteeIds 0 req.invitees
  return ({ serializeMeeting db meeting with durationClamped := clamped }, db)

def requireMeetingHost (meeting : Meeting) (user : User) : Service Unit :=
  .require (meeting.hostId = user.id)
    (.forbidden "Only the meeting host can perform this action." "NOT_HOST")

theorem insertWithUniqueNumber_ok {db db' : Db} {build : ℕ → String → Meeting}
    {numbers : ℕ → ℕ × ℕ} {attempts k : ℕ} {row : Meeting}
    (h : insertWithUniqueNumber db build numbers attempts k = .ok (row, db')) :
    (∃ j draw, row = build j (generateMeetingNumber draw)) ∧ db.insertMeeting row = .ok db' := by
  induction attempts generalizing k with
  | zero => cases h
  | succ attempts ih =>
    unfold insertWithUniqueNumber at h
    dsimp only at h
    split at h
    · next hins =>
      obtain ⟨rfl, rfl⟩ := Prod.mk.inj (Except.ok.inj h)
      exact ⟨⟨_, _, rfl⟩, hins⟩
    · exact ih h
    · cases h

/-- The number of a new meeting: its host's personal one, or a drawn one. -/
def NewNumber (host : User) (number : String) : Prop :=
  number = host.personalMeetingId ∨ ∃ draw, number = generateMeetingNumber draw

theorem insertNewMeeting_ok {db db' : Db} {host : User} {usePmi : Bool}
    {build : ℕ → String → Meeting} {numbers : ℕ → ℕ × ℕ} {row : Meeting}
    (h : insertNewMeeting db host usePmi build numbers = .ok (row, db')) :
    (∃ j number, NewNumber host number ∧ row = build j number) ∧
      db.insertMeeting row = .ok db' := by
  rw [insertNewMeeting] at h
  split at h
  · cases hins : db.insertMeeting (build 0 host.personalMeetingId) with
    | error e =>
      rw [hins] at h
      cases h
    | ok db₁ =>
      rw [hins] at h
      obtain ⟨rfl, rfl⟩ := Prod.mk.inj (Except.ok.inj h)
      exact ⟨⟨_, _, .inl rfl, rfl⟩, hins⟩
  · obtain ⟨⟨j, draw, hrow⟩, hins⟩ := insertWithUniqueNumber_ok h
    exact ⟨⟨j, _, .inr ⟨draw, rfl⟩, hrow⟩, hins⟩

theorem insertInvitees_ok {db db' : Db} {meetingId : MeetingId} {now : DateTime}
    {ids : ℕ → String} {k : ℕ} {emails : List String}
    (h : insertInvitees db meetingId now ids k emails = .ok db') : db.SameRooms db' := by
  induction emails generalizing db k with
  | nil =>
    obtain rfl := Except.ok.inj h
    exact Db.SameRooms.refl db
  | cons email emails ih =>
    unfold insertInvitees at h
    dsimp only at h
    split at h
    · exact ih h
    · obtain ⟨db₁, hins, h⟩ := Service.bind_eq_ok.mp h
      exact (Db.insertInvitee_ok hins).trans (ih h)

/-- A create inserts the row it built, and no participant. -/
theorem createMeeting_ok {db db' : Db} {host : User} {req : MeetingCreate} {draws : CreateDraws}
    {now : DateTime} {v : MeetingView} (h : createMeeting db host req draws now = .ok (v, db')) :
    ∃ topic start duration k number db₁, NewNumber host number ∧
      db.insertMeeting (newMeeting host req draws now topic start duration k number) = .ok db₁ ∧
      db₁.SameRooms db' := by
  simp only [createMeeting, Service.bind_eq_ok, Service.pure_eq_ok] at h
  obtain ⟨topic, -, start, -, ⟨duration, clamped⟩, -, -, -, ⟨m, db₁⟩, hm, db₂, hinv, h⟩ := h
  obtain ⟨-, rfl⟩ := Prod.mk.inj h
  obtain ⟨⟨k, number, hnumber, rfl⟩, hins⟩ := insertNewMeeting_ok hm
  exact ⟨topic, start, duration, k, number, db₁, hnumber, hins, insertInvitees_ok hinv⟩

/-- A meeting is born live or scheduled. -/
theorem newMeeting_status (host : User) (req : MeetingCreate) (draws : CreateDraws) (now : DateTime)
    (topic : String) (start : Option DateTime) (duration : Int) (k : ℕ) (number : String) :
    (newMeeting host req draws now topic start duration k number).status = .live ∨
      (newMeeting host req draws now topic start duration k number).status = .scheduled := by
  cases start with
  | none => exact .inl rfl
  | some t => exact .inr rfl

/-- The `changes` of an edit.  A missing key and a `null` mean the same, except
for the description, which `null` clears. -/
structure MeetingChanges where
  topic : Option String := none
  description : Option (Option String) := none
  scheduledStart : Option ApiDateTime := none
  durationMinutes : Option Int := none
  timezone : Option String := none
  waitingRoom : Option Bool := none
  hostVideoOn : Option Bool := none
  participantVideoOn : Option Bool := none
  allowTranscription : Option Bool := none
  chatBeforeAfter : Option Bool := none
  encryption : Option String := none

/-- The columns an edit writes, from the validated values. -/
def Meeting.edit (m : Meeting) (changes : MeetingChanges) (topic : Option String)
    (scheduledStart : Option DateTime) (durationMinutes : Option Int) : Meeting :=
  { m with
    topic := topic.getD m.topic
    description := changes.description.getD m.description
    scheduledStart := scheduledStart <|> m.scheduledStart
    durationMinutes := durationMinutes.getD m.durationMinutes
    timezone := changes.timezone.getD m.timezone
    waitingRoom := changes.waitingRoom.getD m.waitingRoom
    hostVideoOn := changes.hostVideoOn.getD m.hostVideoOn
    participantVideoOn := changes.participantVideoOn.getD m.participantVideoOn
    allowTranscription := changes.allowTranscription.getD m.allowTranscription
    chatBeforeAfter := changes.chatBeforeAfter.getD m.chatBeforeAfter
    encryption := changes.encryption.getD m.encryption }

@[simp] theorem Meeting.edit_id (m : Meeting) (changes : MeetingChanges) (topic : Option String)
    (scheduledStart : Option DateTime) (durationMinutes : Option Int) :
    (m.edit changes topic scheduledStart durationMinutes).id = m.id := rfl

/-- Edit a scheduled meeting. -/
def updateMeeting (db : Db) (meetingNumber : String) (host : User) (changes : MeetingChanges)
    (now : DateTime) : Service (MeetingView × Db) := do
  let meeting ← getByNumber db meetingNumber
  requireMeetingHost meeting host
  .require (meeting.status = .scheduled)
    (.conflict "Only a scheduled meeting can be edited." "MEETING_NOT_EDITABLE"
      [("status", .str meeting.status.name)])
  let topic ← changes.topic.mapM validateTopic
  let scheduledStart ← changes.scheduledStart.mapM (validateStart · now)
  let duration ← changes.durationMinutes.mapM (resolveDuration · host.plan)
  let _ ← changes.encryption.mapM validateEncryption
  let edit (m : Meeting) : Meeting := m.edit changes topic scheduledStart (duration.map Prod.fst)
  return (serializeMeeting db (edit meeting),
    db.updateMeetingRow meeting.id edit fun m => m.edit_id ..)

theorem updateMeeting_ok {db db' : Db} {meetingNumber : String} {host : User}
    {changes : MeetingChanges} {now : DateTime} {v : MeetingView}
    (h : updateMeeting db meetingNumber host changes now = .ok (v, db')) :
    ∃ m topic start duration, db.meetingByNumber meetingNumber = some m ∧ m.hostId = host.id ∧
      m.status = .scheduled ∧
      db' = db.updateMeetingRow m.id (·.edit changes topic start duration)
        fun m => m.edit_id .. := by
  simp only [updateMeeting, Service.bind_eq_ok, Service.pure_eq_ok, getByNumber_eq_ok,
    requireMeetingHost, Service.require_eq_ok] at h
  obtain ⟨m, hm, -, hhost, -, hs, topic, -, start, -, duration, -, -, -, h⟩ := h
  obtain ⟨-, rfl⟩ := Prod.mk.inj h
  exact ⟨m, topic, start, _, hm, hhost, hs, rfl⟩

/-- The columns a cancellation writes. -/
def Meeting.cancel (m : Meeting) : Meeting := { m with status := .cancelled }

@[simp] theorem Meeting.cancel_id (m : Meeting) : m.cancel.id = m.id := rfl

/-- `scheduled` to `cancelled`. -/
def cancelMeeting (db : Db) (meetingNumber : String) (host : User) :
    Service (MeetingView × Db) := do
  let meeting ← getByNumber db meetingNumber
  requireMeetingHost meeting host
  assertCanTransition meeting.status .cancelled
  let db := db.updateMeetingRow meeting.id Meeting.cancel Meeting.cancel_id
  return (serializeMeeting db meeting.cancel, db)

theorem cancelMeeting_eq_ok {db db' : Db} {meetingNumber : String} {host : User} {v : MeetingView} :
    cancelMeeting db meetingNumber host = .ok (v, db') ↔
      ∃ m, db.meetingByNumber meetingNumber = some m ∧ m.hostId = host.id ∧ m.status = .scheduled ∧
        v = serializeMeeting db' m.cancel ∧
        db' = db.updateMeetingRow m.id Meeting.cancel Meeting.cancel_id := by
  simp only [cancelMeeting, Service.bind_eq_ok, Service.pure_eq_ok, getByNumber_eq_ok,
    requireMeetingHost, Service.require_eq_ok, assertCanTransition_eq_ok]
  constructor
  · rintro ⟨m, hm, -, hhost, -, hs, h⟩
    obtain ⟨rfl, rfl⟩ := Prod.mk.inj h
    refine ⟨m, hm, hhost, ?_, rfl, rfl⟩
    cases hstatus : m.status <;> simp_all [allowedTargets]
  · rintro ⟨m, hm, hhost, hs, rfl, rfl⟩
    exact ⟨m, hm, (), hhost, (), by simp [hs, allowedTargets], rfl⟩

/-- The columns `start_meeting` and a host's join write. -/
def Meeting.goLive (m : Meeting) (now : DateTime) : Meeting :=
  { m with status := .live, startedAt := some now, endedAt := none }

@[simp] theorem Meeting.goLive_id (m : Meeting) (now : DateTime) : (m.goLive now).id = m.id := rfl

/-- `scheduled` or `ended` to `live`. -/
def startMeeting (db : Db) (meetingNumber : String) (host : User) (now : DateTime) :
    Service (MeetingView × Db) := do
  let meeting ← getByNumber db meetingNumber
  requireMeetingHost meeting host
  assertCanTransition meeting.status .live
  let db := db.updateMeetingRow meeting.id (·.goLive now) (Meeting.goLive_id · now)
  return (serializeMeeting db (meeting.goLive now), db)

theorem startMeeting_ok {db db' : Db} {meetingNumber : String} {host : User} {now : DateTime}
    {v : MeetingView} (h : startMeeting db meetingNumber host now = .ok (v, db')) :
    ∃ m, db.meetingByNumber meetingNumber = some m ∧ m.hostId = host.id ∧
      .live ∈ allowedTargets m.status ∧
      db' = db.updateMeetingRow m.id (·.goLive now) (Meeting.goLive_id · now) := by
  simp only [startMeeting, Service.bind_eq_ok, Service.pure_eq_ok, getByNumber_eq_ok,
    requireMeetingHost, Service.require_eq_ok, assertCanTransition_eq_ok] at h
  obtain ⟨m, hm, -, hhost, -, hs, h⟩ := h
  obtain ⟨-, rfl⟩ := Prod.mk.inj h
  exact ⟨m, hm, hhost, hs, rfl⟩

/-- The columns both ways of ending a meeting write. -/
def Meeting.finish (m : Meeting) (now : DateTime) : Meeting :=
  { m with status := .ended, endedAt := some now }

@[simp] theorem Meeting.finish_id (m : Meeting) (now : DateTime) : (m.finish now).id = m.id := rfl

/-- The columns an eviction writes. -/
def Participant.evict (p : Participant) (now : DateTime) : Participant :=
  { p with leftAt := some now, connectionId := none }

@[simp] theorem Participant.evict_id (p : Participant) (now : DateTime) : (p.evict now).id = p.id :=
  rfl

/-- Close every open row of a meeting. -/
def Db.evictAll (db : Db) (meetingId : MeetingId) (now : DateTime) : Db :=
  db.updateRows (fun p => p.meetingId = meetingId ∧ p.leftAt = none) (·.evict now)
    (Participant.evict_id · now)

/-- `live` to `ended`, evicting every active participant. -/
def endMeeting (db : Db) (meetingNumber : String) (host : User) (now : DateTime) :
    Service (MeetingView × Db) := do
  let meeting ← getByNumber db meetingNumber
  requireMeetingHost meeting host
  assertCanTransition meeting.status .ended
  let db := (db.updateMeetingRow meeting.id (·.finish now) (Meeting.finish_id · now)).evictAll
    meeting.id now
  return (serializeMeeting db (meeting.finish now), db)

theorem endMeeting_ok {db db' : Db} {meetingNumber : String} {host : User} {now : DateTime}
    {v : MeetingView} (h : endMeeting db meetingNumber host now = .ok (v, db')) :
    ∃ m, db.meetingByNumber meetingNumber = some m ∧ m.hostId = host.id ∧
      .ended ∈ allowedTargets m.status ∧
      db' = (db.updateMeetingRow m.id (·.finish now) (Meeting.finish_id · now)).evictAll
        m.id now := by
  simp only [endMeeting, Service.bind_eq_ok, Service.pure_eq_ok, getByNumber_eq_ok,
    requireMeetingHost, Service.require_eq_ok, assertCanTransition_eq_ok] at h
  obtain ⟨m, hm, -, hhost, -, hs, h⟩ := h
  obtain ⟨-, rfl⟩ := Prod.mk.inj h
  exact ⟨m, hm, hhost, hs, rfl⟩

end ZoomClone
