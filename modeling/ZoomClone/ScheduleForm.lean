/-
The schedule form and the API behind it (`ScheduleForm.tsx`, the bodies of `schemas/meeting.py`).

The form checks its fields before it sends them, and the API checks what arrives once more.
The two count and trim text each in its own language, and each has its own clock.  What the
API refuses comes back with the name of a field, and the form shows the message there.

* `validate_eq_ok` — what the form lets through;
* `postMeeting_answer`, `patchMeeting_answer` — what the API answers to it;
* `form_and_api_agree` — the only values that the form lets through and the API refuses, and
  where the form shows it.
-/
import ZoomClone.DateControls
import ZoomClone.EditAgreement
import ZoomClone.JoinFlow
import ZoomClone.PersonalRoom

namespace ZoomClone

open JsDate

/-- The browser: its local time, and the name that `localTimeZone` finds for it. -/
structure Viewer where
  zone : LocalZone
  timeZone : String
  named : timeZone ≠ ""

/-! ### The form -/

structure FormState where
  topic : String
  description : String
  date : String
  time : String
  meridiem : Meridiem
  durationHours : Int
  durationMinutes : Int
  timezone : String
  recurring : Bool
  usePmi : Bool
  waitingRoom : Bool
  hostVideoOn : Bool
  participantVideoOn : Bool
  invitees : String
  encryption : String
  chatBeforeAfter : Bool
  deriving DecidableEq

/-- The next full or half hour. -/
def nextHalfHour (zone : LocalZone) (now : ℤ) : ℤ :=
  let date := zone.setSeconds now 0 0
  zone.setMinutes date (if minFromTime (zone.localTime date) < 30 then 30 else 60)

def initialState (viewer : Viewer) (now : ℤ) : FormState :=
  let start := splitDateAndTime viewer.zone (nextHalfHour viewer.zone now)
  { topic := "My Meeting"
    description := ""
    date := start.date
    time := start.time
    meridiem := start.meridiem
    durationHours := 0
    durationMinutes := 40
    timezone := viewer.timeZone
    recurring := false
    usePmi := false
    waitingRoom := true
    hostVideoOn := true
    participantVideoOn := true
    invitees := ""
    encryption := "enhanced"
    chatBeforeAfter := true }

/-- `parseApiDate` of a stored start: its time value, to the millisecond. -/
def startDate (start : DateTime) : ℤ := start / 1000

/-- The form for a meeting that is edited. -/
def stateFromMeeting (viewer : Viewer) (now : ℤ) (meeting : Meeting) : FormState :=
  let base := initialState viewer now
  let start := meeting.scheduledStart.map fun start =>
    splitDateAndTime viewer.zone (startDate start)
  { base with
    topic := meeting.topic
    description := meeting.description.getD ""
    date := (start.map WhenControls.date).getD base.date
    time := (start.map WhenControls.time).getD base.time
    meridiem := (start.map WhenControls.meridiem).getD base.meridiem
    durationHours := meeting.durationMinutes / 60
    durationMinutes := meeting.durationMinutes.tmod 60
    timezone := if meeting.timezone = "" then base.timezone else meeting.timezone
    usePmi := meeting.usePmi
    waitingRoom := meeting.waitingRoom
    hostVideoOn := meeting.hostVideoOn
    participantVideoOn := meeting.participantVideoOn
    encryption := if meeting.encryption = "" then "enhanced" else meeting.encryption
    chatBeforeAfter := meeting.chatBeforeAfter }

/-- The messages under the fields. -/
structure FormErrors where
  topic : Option String := none
  date : Option String := none
  durationMinutes : Option String := none
  deriving DecidableEq

namespace FormState

def minDuration : Int := 15
def maxDuration : Int := 1440
def basicPlanCap : Int := 40
def maxTopicLength : ℕ := 200

def totalDuration (form : FormState) : Int := form.durationHours * 60 + form.durationMinutes

/-- The banner before a save: the plan of the signed-in user is shorter. -/
def willClamp (form : FormState) (plan : Plan) : Bool :=
  plan = .basic ∧ basicPlanCap < form.totalDuration

/-- The instant that the "When" controls name. -/
def start (form : FormState) (viewer : Viewer) : Option ℤ :=
  combineDateAndTime viewer.zone form.date form.time form.meridiem

def topicError (form : FormState) : Option String :=
  let topic := JsStr.trim form.topic
  if topic = "" then some "Topic is required."
  else if maxTopicLength < JsStr.length topic then some "Topic must be 200 characters or fewer."
  else none

def dateError (form : FormState) (viewer : Viewer) (now : ℤ) : Option String :=
  match form.start viewer with
  | none => some "Enter a valid date and time."
  | some start => if start ≤ now then some "Start time must be in the future." else none

def durationError (form : FormState) : Option String :=
  if form.totalDuration < minDuration ∨ maxDuration < form.totalDuration then
    some "Duration must be between 15 and 1440 minutes."
  else none

def errors (form : FormState) (viewer : Viewer) (now : ℤ) : FormErrors where
  topic := form.topicError
  date := form.dateError viewer now
  durationMinutes := form.durationError

/-- The start and the duration, or the messages. -/
def validate (form : FormState) (viewer : Viewer) (now : ℤ) : Except FormErrors (ℤ × Int) :=
  match form.start viewer with
  | some start =>
    if form.errors viewer now = {} then .ok (start, form.totalDuration)
    else .error (form.errors viewer now)
  | none => .error (form.errors viewer now)

/-- The separators of addresses: `/[,\s]+/`. -/
def isSeparator (c : Char) : Bool := c = ',' || JsStr.isSpace c

def inviteeList (form : FormState) : List String :=
  ((form.invitees.toList.splitOnP isSeparator).map fun entry => JsStr.trim
    (String.ofList entry)).filter (· ≠ "")

end FormState

/-- `toApiDate`: an ISO text in UTC. -/
def toApiDate (date : ℤ) : ApiDateTime := { wall := 1000 * date, utcOffset := some 0 }

namespace FormState

/-- The body of `POST /meetings`. -/
def toCreate (form : FormState) (start : ℤ) (duration : Int) : MeetingCreate where
  topic := some (JsStr.trim form.topic)
  description := given (some (JsStr.trim form.description))
  scheduledStart := some (toApiDate start)
  durationMinutes := duration
  timezone := form.timezone
  usePmi := form.usePmi
  waitingRoom := form.waitingRoom
  hostVideoOn := form.hostVideoOn
  participantVideoOn := form.participantVideoOn
  chatBeforeAfter := form.chatBeforeAfter
  encryption := form.encryption
  invitees := form.inviteeList

/-- The body of `PATCH /meetings/{number}`. -/
def toChanges (form : FormState) (start : ℤ) (duration : Int) : MeetingChanges where
  topic := some (JsStr.trim form.topic)
  description := some (given (some (JsStr.trim form.description)))
  scheduledStart := some (toApiDate start)
  durationMinutes := some duration
  timezone := some form.timezone
  waitingRoom := some form.waitingRoom
  hostVideoOn := some form.hostVideoOn
  participantVideoOn := some form.participantVideoOn
  chatBeforeAfter := some form.chatBeforeAfter
  encryption := some form.encryption

end FormState

/-! ### The API -/

/-- A text of a datetime that Python can hold: the years from 1 to 9999. -/
def ApiDateTime.IsPython (value : ApiDateTime) : Prop :=
  (⟨1, 1, 1, by decide, by decide, by decide⟩ : CalendarDate).midnight ≤ value.wall ∧
    value.wall < lastDate.midnight + microsPerDay

instance (value : ApiDateTime) : Decidable value.IsPython := inferInstanceAs (Decidable (_ ∧ _))

/-- The fields of a body that its schema bounds. -/
def BodyAccepted (topic : Option String) (scheduledStart : Option ApiDateTime)
    (durationMinutes : Option Int)
    (encryption : Option String) : Prop :=
  (∀ t ∈ topic, t.length ≤ maxTopicLength) ∧ (∀ value ∈ scheduledStart, value.IsPython) ∧
    (∀ d ∈ durationMinutes, minDurationMinutes ≤ d ∧ d ≤ maxDurationMinutes) ∧
    ∀ e ∈ encryption, e ∈ encryptionModes

instance (topic : Option String) (scheduledStart : Option ApiDateTime)
    (durationMinutes : Option Int)
    (encryption : Option String) :
    Decidable (BodyAccepted topic scheduledStart durationMinutes encryption) :=
  inferInstanceAs (Decidable (_ ∧ _ ∧ _ ∧ _))

/-- A failed save, with the `field` of its details. -/
inductive SaveFailure where
  | api (status : ℕ) (error : ApiError) (field : Option String)
  | other
  deriving DecidableEq

/-- The `field` that the details of an error name. -/
def AppError.field (e : AppError) : Option String := (Json.get e.details "field").text?

/-- The answer to a call that raised. -/
def Raised.saveFailure : Raised → SaveFailure
  | .app e => .api e.statusCode (Raised.app e).apiError e.field
  | e => .api 500 e.apiError none

/-- The answer to a body that its schema does not accept. -/
def invalidPayload : SaveFailure :=
  .api 422 ⟨"VALIDATION_ERROR", "The request payload is invalid."⟩ none

def answered {α : Type} : Service α → Except SaveFailure α
  | .ok a => .ok a
  | .error e => .error e.saveFailure

/-- `POST /meetings` of a signed-in host. -/
def postMeeting (db : Db) (host : User) (req : MeetingCreate)
    (draws : CreateDraws) (now : DateTime) :
    Except SaveFailure (MeetingView × Db) :=
  if BodyAccepted req.topic req.scheduledStart (some req.durationMinutes) (some req.encryption) then
    answered (createMeeting db host req draws now)
  else .error invalidPayload

/-- `PATCH /meetings/{number}` of a signed-in host. -/
def patchMeeting (db : Db) (host : User) (meetingNumber : String) (changes : MeetingChanges)
    (now : DateTime) :
    Except SaveFailure (MeetingView × Db) :=
  if BodyAccepted changes.topic changes.scheduledStart
    changes.durationMinutes changes.encryption then
    answered (updateMeeting db meetingNumber host changes now)
  else .error invalidPayload

/-- A save is stored exactly if its schema accepts the body, and the service stores it. -/
theorem checked_eq_ok {α : Type} {body : Prop} [Decidable body] {call : Service α} {a : α} :
    (if body then answered call else .error invalidPayload) = .ok a ↔ body ∧ call = .ok a := by
  split_ifs with hbody
  · rw [and_iff_right hbody]
    cases call <;> simp [answered]
  · exact iff_of_false (by simp) fun h => hbody h.1

theorem postMeeting_eq_ok {db : Db} {host : User} {req : MeetingCreate}
    {draws : CreateDraws} {now : DateTime}
    {a : MeetingView × Db} : postMeeting db host req draws now = .ok a ↔
      BodyAccepted req.topic req.scheduledStart (some req.durationMinutes) (some req.encryption) ∧
        createMeeting db host req draws now = .ok a :=
  checked_eq_ok

theorem patchMeeting_eq_ok {db : Db} {host : User} {meetingNumber : String}
    {changes : MeetingChanges} {now : DateTime}
    {a : MeetingView × Db} : patchMeeting db host meetingNumber changes now = .ok a ↔
      BodyAccepted changes.topic changes.scheduledStart changes.durationMinutes changes.encryption ∧
        updateMeeting db meetingNumber host changes now = .ok a :=
  checked_eq_ok

/-- The messages after a failed save; the others are toasts. -/
def FormErrors.ofFailure : SaveFailure → FormErrors
  | .api status error field =>
    if status = 401 ∨ status = 403 then {}
    else if field = some "topic" then { topic := some error.message }
    else if field = some "scheduled_start" then { date := some error.message }
    else if field = some "duration_minutes" then { durationMinutes := some error.message }
    else {}
  | .other => {}

/-! ### What the form lets through -/

section

variable {form : FormState} {viewer : Viewer} {clock start : ℤ} {duration : Int}

theorem PyStr.length_strip_le (s : String) : (PyStr.strip s).length ≤ s.length := by
  rw [← String.length_toList, ← String.length_toList, PyStr.toList_strip]
  exact (Trim.length_trim_le _).trans (Trim.length_rdropWhile_le _)

/-- The values that the form lets through. -/
structure FormState.LetThrough (form : FormState) (viewer : Viewer) (clock start : ℤ)
    (duration : Int) : Prop where
  topic : JsStr.trim form.topic ≠ ""
  topic_length : JsStr.length (JsStr.trim form.topic) ≤ FormState.maxTopicLength
  names : form.start viewer = some start
  ahead : clock < start
  total : duration = form.totalDuration
  range : FormState.minDuration ≤ form.totalDuration ∧ form.totalDuration ≤ FormState.maxDuration

theorem topicError_eq_none : form.topicError = none ↔
    JsStr.trim form.topic ≠ "" ∧
      JsStr.length (JsStr.trim form.topic) ≤ FormState.maxTopicLength := by
  unfold FormState.topicError
  dsimp only
  split_ifs with hempty hlong
  · simp [hempty]
  · simp only [false_iff, not_and, not_le]
    exact fun _ => hlong
  · exact iff_of_true rfl ⟨hempty, not_lt.mp hlong⟩

theorem durationError_eq_none : form.durationError = none ↔
    FormState.minDuration ≤ form.totalDuration ∧ form.totalDuration ≤ FormState.maxDuration := by
  unfold FormState.durationError
  split_ifs with hout
  · simp only [false_iff]
    omega
  · exact iff_of_true rfl (by omega)

theorem validate_eq_ok : form.validate viewer clock = .ok (start, duration) ↔
    form.LetThrough viewer clock start duration := by
  have hnone : form.errors viewer clock = {} ↔ form.topicError = none ∧
    form.dateError viewer clock = none ∧
      form.durationError = none := by
    rw [FormState.errors, FormErrors.mk.injEq]
  unfold FormState.validate
  cases hstart : form.start viewer with
  | none => exact iff_of_false (by simp) fun h => by simp [h.names] at hstart
  | some t =>
    have hdate : form.dateError viewer clock = none ↔ clock < t := by
      rw [FormState.dateError, hstart]
      dsimp only
      split_ifs with hpast
      · simp [hpast]
      · simp [not_le.mp hpast]
    rw [topicError_eq_none, hdate, durationError_eq_none] at hnone
    dsimp only
    split_ifs with herrors
    · obtain ⟨⟨htopic, hlength⟩, hahead, hrange⟩ := hnone.mp herrors
      rw [Except.ok.injEq, Prod.mk.injEq]
      constructor
      · rintro ⟨rfl, rfl⟩
        exact ⟨htopic, hlength, hstart, hahead, rfl, hrange⟩
      · intro h
        exact ⟨Option.some.inj (hstart.symm.trans h.names), h.total.symm⟩
    · refine iff_of_false (by simp) fun h => herrors (hnone.mpr ?_)
      obtain rfl : t = start := Option.some.inj (hstart.symm.trans h.names)
      exact ⟨⟨h.topic, h.topic_length⟩, h.ahead, h.range⟩

end

/-! ### What the API answers -/

/-- The values of a save that the form lets through and the API accepts. -/
structure FormState.Taken (form : FormState) (start : ℤ) (now : DateTime) : Prop where
  body : (toApiDate start).IsPython ∧ form.encryption ∈ encryptionModes
  topic : PyStr.strip (JsStr.trim form.topic) ≠ ""
  ahead : now < 1000 * start

/-- The refusal of a save that the form lets through. -/
def FormState.refusal (form : FormState) (start : ℤ) (now : DateTime) : Option SaveFailure :=
  if ¬ ((toApiDate start).IsPython ∧ form.encryption ∈ encryptionModes) then some invalidPayload
  else if PyStr.strip (JsStr.trim form.topic) = "" then
    some (.api 422 ⟨"VALIDATION_ERROR", "Topic is required."⟩ (some "topic"))
  else if 1000 * start ≤ now then
    some (.api 422 ⟨"VALIDATION_ERROR", "Scheduled start must be in the future."⟩
      (some "scheduled_start"))
  else none

/-- The unique indexes let the new rows in. -/
structure FormState.HasRoom (form : FormState) (db : Db) (host : User)
    (draws : CreateDraws) (now : DateTime) :
    Prop where
  invitees : ∃ db', insertInvitees db "" now draws.inviteeIds 0 form.inviteeList = .ok db'
  drawn : form.usePmi = false → ∃ k < maxGenerationAttempts, db.Takes draws k
  personal : form.usePmi = true → draws.ids 0 ∉ db.meetings.keys ∧
    (∀ m ∈ db.meetings, m.inviteToken ≠ draws.inviteToken) ∧ ∀ m, ¬ db.OnPersonal host m

section

variable {form : FormState} {viewer : Viewer} {clock start : ℤ}
  {duration : Int} {db : Db} {host : User}
  {draws : CreateDraws} {now : DateTime} {meetingNumber : String} {m : Meeting}

theorem refusal_eq_none : form.refusal start now = none ↔ form.Taken start now := by
  unfold FormState.refusal
  split_ifs with hbody htopic hpast
  · exact iff_of_false (by simp) fun h => h.topic htopic
  · exact iff_of_false (by simp) fun h => not_le.mpr h.ahead hpast
  · exact iff_of_true rfl ⟨hbody, htopic, not_le.mp hpast⟩
  · exact iff_of_false (by simp) fun h => hbody h.body

/-- The schema asks no more of the topic and the duration than the form did. -/
theorem bodyAccepted_iff (h : form.LetThrough viewer clock start duration) :
    BodyAccepted (some (JsStr.trim form.topic)) (some (toApiDate start))
    (some duration) (some form.encryption) ↔
      (toApiDate start).IsPython ∧ form.encryption ∈ encryptionModes := by
  have htopic : (JsStr.trim form.topic).length ≤ maxTopicLength :=
    (JsStr.length_le _).trans h.topic_length
  have hrange : minDurationMinutes ≤ duration ∧ duration ≤ maxDurationMinutes := by
    rw [h.total]
    exact h.range
  simp [BodyAccepted, htopic, hrange]

/-- A topic that the form lets through is refused only if Python sees no character in it. -/
theorem validateTopic_let_through (h : form.LetThrough viewer clock start duration) :
    validateTopic (JsStr.trim form.topic) = if PyStr.strip (JsStr.trim form.topic) = "" then
      .error (.app (.validation "Topic is required." [("field", .str "topic")]))
    else .ok (PyStr.strip (JsStr.trim form.topic)) := by
  -- the browser counts code units, Python counts characters of what it strips once more
  have hlength : (PyStr.strip (JsStr.trim form.topic)).length ≤ maxTopicLength :=
    (PyStr.length_strip_le _).trans ((JsStr.length_le _).trans h.topic_length)
  rw [validateTopic]
  split_ifs with hblank
  · simp [Service.require, hblank]
    rfl
  · simp [Service.require, hblank, hlength]
    rfl

/-- And a start, if it has passed on the clock of the server. -/
theorem validateStart_toApiDate : validateStart (toApiDate start) now = if 1000 * start ≤ now then
      .error (.app (.validation "Scheduled start must be in the future." [("field",
        .str "scheduled_start")]))
    else .ok (1000 * start) := by
  have hnaive : asNaiveUtc (toApiDate start) = 1000 * start := Int.sub_zero _
  rw [validateStart, hnaive]
  split_ifs with hpast
  · simp [Service.require, not_lt.mpr hpast]
  · simp [Service.require, not_le.mp hpast]

/-- The duration that the plan leaves. -/
def storedDuration (plan : Plan) (duration : Int) : Int :=
  if plan = .basic ∧ basicPlanDurationCap < duration then basicPlanDurationCap else duration

/-- The duration is in range already. -/
theorem resolveDuration_let_through (h : form.LetThrough viewer clock start duration)
    (plan : Plan) :
    ∃ clamped, resolveDuration duration plan = .ok (storedDuration plan duration, clamped) := by
  have hrange : minDurationMinutes ≤ duration ∧ duration ≤ maxDurationMinutes := by
    rw [h.total]
    exact h.range
  refine ⟨decide (plan = .basic ∧ basicPlanDurationCap < duration),
    resolveDuration_eq_ok.mpr ⟨hrange, ?_⟩⟩
  rw [storedDuration]
  split_ifs with hexceeds
  · rw [decide_eq_true hexceeds]
  · rw [decide_eq_false hexceeds]

/-- What a create checks, for a body of the form that the schema accepts. -/
theorem createAccepted_iff (h : form.LetThrough viewer clock start duration)
    (hroom : form.HasRoom db host draws now) (hencryption : form.encryption ∈ encryptionModes) :
    CreateAccepted db host (form.toCreate start duration) draws now ↔
      PyStr.strip (JsStr.trim form.topic) ≠ "" ∧ now < 1000 * start := by
  have hgiven : given (form.toCreate start duration).topic = some (JsStr.trim form.topic) :=
    given_eq_some.mpr ⟨rfl, h.topic⟩
  constructor
  · intro haccepted
    obtain ⟨topic, htopic⟩ := haccepted.topic
    obtain ⟨stored, hstart⟩ := haccepted.scheduledStart
    obtain ⟨t, ht, -⟩ := mapM_some_eq_ok.mp hstart
    rw [hgiven, Option.getD_some, validateTopic_let_through h] at htopic
    rw [validateStart_toApiDate] at ht
    refine ⟨fun hblank => ?_, not_le.mp fun hpast => ?_⟩
    · rw [if_pos hblank] at htopic
      cases htopic
    · rw [if_pos hpast] at ht
      cases ht
  · rintro ⟨htopic, hahead⟩
    obtain ⟨clamped, hduration⟩ := resolveDuration_let_through h host.plan
    refine ⟨⟨PyStr.strip (JsStr.trim form.topic), ?_⟩,
      ⟨some (1000 * start), mapM_some_eq_ok.mpr ⟨_, ?_, rfl⟩⟩,
      ⟨_, hduration⟩, ⟨(), validateEncryption_eq_ok.mpr hencryption⟩, hroom.invitees⟩
    · rw [hgiven, Option.getD_some, validateTopic_let_through h, if_neg htopic]
    · rw [validateStart_toApiDate, if_neg (not_le.mpr hahead)]

/-- Both routes look at the schema, then at the topic, then at the start. -/
theorem answer_cases {α : Type} {call : Service α} {body : Prop} [Decidable body]
    (hbody : body ↔ (toApiDate start).IsPython ∧ form.encryption ∈ encryptionModes)
    (htopic : PyStr.strip (JsStr.trim form.topic) = "" →
      call = .error (.app (.validation "Topic is required." [("field", .str "topic")])))
    (hstart : PyStr.strip (JsStr.trim form.topic) ≠ "" → 1000 * start ≤ now →
      call =
        .error (.app (.validation "Scheduled start must be in the future." [("field",
        .str "scheduled_start")])))
    (hok : form.Taken start now → ∃ a, call = .ok a) :
    (∃ a, (if body then answered call else .error invalidPayload) = .ok a) ∧
      form.refusal start now = none ∨
      ∃ e, (if body then answered call else .error invalidPayload) = .error e ∧
        form.refusal start now = some e := by
  -- the cases are those of `refusal`, in its order
  rw [FormState.refusal]
  by_cases hwell : (toApiDate start).IsPython ∧ form.encryption ∈ encryptionModes
  · rw [if_pos (hbody.mpr hwell), if_neg (not_not.mpr hwell)]
    by_cases hblank : PyStr.strip (JsStr.trim form.topic) = ""
    · right
      rw [htopic hblank, if_pos hblank]
      exact ⟨_, rfl, rfl⟩
    · rw [if_neg hblank]
      by_cases hpast : 1000 * start ≤ now
      · right
        rw [hstart hblank hpast, if_pos hpast]
        exact ⟨_, rfl, rfl⟩
      · left
        obtain ⟨a, ha⟩ := hok ⟨hwell, hblank, not_le.mp hpast⟩
        rw [ha, if_neg hpast]
        exact ⟨⟨a, rfl⟩, rfl⟩
  · right
    rw [if_neg (mt hbody.mp hwell), if_pos hwell]
    exact ⟨_, rfl, rfl⟩

theorem mapM_validateStart (hpast : 1000 * start ≤ now) :
    (some (toApiDate start)).mapM (validateStart · now) =
    .error (.app (.validation "Scheduled start must be in the future." [("field",
      .str "scheduled_start")])) := by
  rw [Option.mapM_some, validateStart_toApiDate, if_pos hpast]
  rfl

/-- **What the API answers to a create** that the form lets through. -/
theorem postMeeting_answer (h : form.LetThrough viewer clock start duration)
    (hroom : form.HasRoom db host draws now) :
    (∃ a, postMeeting db host (form.toCreate start duration) draws now = .ok a) ∧
      form.refusal start now = none ∨
      ∃ e, postMeeting db host (form.toCreate start duration) draws now = .error e ∧
        form.refusal start now = some e := by
  have hgiven : given (form.toCreate start duration).topic = some (JsStr.trim form.topic) :=
    given_eq_some.mpr ⟨rfl, h.topic⟩
  refine answer_cases (bodyAccepted_iff h) (fun hblank => ?_) (fun hblank hpast => ?_)
    fun htaken => ?_
  · rw [createMeeting, hgiven, Option.getD_some, validateTopic_let_through h, if_pos hblank]
    rfl
  · have hstart : (form.toCreate start duration).scheduledStart.mapM (validateStart · now) = _ :=
      mapM_validateStart hpast
    rw [createMeeting, hgiven, Option.getD_some, validateTopic_let_through h, if_neg hblank, hstart]
    rfl
  · have haccepted := (createAccepted_iff h hroom htaken.body.2).mpr ⟨htaken.topic, htaken.ahead⟩
    obtain ⟨v, db', hcreate⟩ :
      ∃ v db', createMeeting db host (form.toCreate start duration) draws now =
        .ok (v, db') := by
      cases hpmi : form.usePmi with
      | false =>
        obtain ⟨k, hk, htakes⟩ := hroom.drawn hpmi
        exact createMeeting_of_accepted haccepted hpmi hk htakes
      | true =>
        obtain ⟨hid, htoken, hfree⟩ := hroom.personal hpmi
        exact (createMeeting_personal_iff ⟨haccepted, hid, htoken⟩ hpmi).mpr hfree
    exact ⟨_, hcreate⟩

/-- The values that an edit stores. -/
theorem validateChanges_toChanges (h : form.LetThrough viewer clock start duration)
    (htaken : form.Taken start now) :
    validateChanges host (form.toChanges start duration) now =
      .ok (some (PyStr.strip (JsStr.trim form.topic)), some (1000 * start),
        some (storedDuration host.plan duration)) := by
  obtain ⟨clamped, hduration⟩ := resolveDuration_let_through h host.plan
  simp only [validateChanges, FormState.toChanges, Service.bind_eq_ok,
    Service.pure_eq_ok, mapM_some_eq_ok]
  refine ⟨_, ⟨_, ?_, rfl⟩, _, ⟨_, ?_, rfl⟩, _, ⟨_, hduration, rfl⟩, _,
    ⟨(), validateEncryption_eq_ok.mpr htaken.body.2, rfl⟩, rfl⟩
  · rw [validateTopic_let_through h, if_neg htaken.topic]
  · rw [validateStart_toApiDate, if_neg (not_le.mpr htaken.ahead)]

/-- **What the API answers to an edit** that the form lets through. -/
theorem patchMeeting_answer (h : form.LetThrough viewer clock start duration)
    (hm : getByNumber db meetingNumber = .ok m)
    (hhost : m.hostId = host.id) (hscheduled : m.status = .scheduled) :
    (∃ a, patchMeeting db host meetingNumber (form.toChanges start duration) now = .ok a) ∧
        form.refusal start now = none ∨
      ∃ e, patchMeeting db host meetingNumber (form.toChanges start duration) now = .error e ∧
        form.refusal start now = some e := by
  -- the meeting is found, so the checks of its values decide
  have hchecks {e : Raised}
    (he : validateChanges host (form.toChanges start duration) now = .error e) :
      updateMeeting db meetingNumber host (form.toChanges start duration) now = .error e := by
    rw [updateMeeting_eq]
    simp only [Service.bind_eq_error, Service.require_eq_ok, requireMeetingHost]
    exact .inr ⟨m, hm, .inr ⟨(), hhost, .inr ⟨(), hscheduled, .inl he⟩⟩⟩
  refine answer_cases (bodyAccepted_iff h) (fun hblank => hchecks ?_)
    (fun hblank hpast => hchecks ?_) fun htaken => ?_
  · rw [validateChanges, FormState.toChanges, Option.mapM_some, validateTopic_let_through h,
      if_pos hblank]
    rfl
  · rw [validateChanges, FormState.toChanges, Option.mapM_some, validateTopic_let_through h,
      if_neg hblank]
    simp only [mapM_validateStart hpast]
    rfl
  · rw [updateMeeting_eq]
    exact ⟨_, Service.bind_eq_ok.mpr
      ⟨m, hm, Service.bind_eq_ok.mpr ⟨(), Service.require_eq_ok.mpr hhost,
      Service.bind_eq_ok.mpr ⟨(), Service.require_eq_ok.mpr hscheduled,
        Service.bind_eq_ok.mpr ⟨_, validateChanges_toChanges h htaken, rfl⟩⟩⟩⟩⟩

end

/-- A save is accepted exactly for values that both sides take; a refusal is about the body as a
whole, or its message is shown under the field that it is about. -/
structure SaveAnswered (form : FormState) (start : ℤ) (now : DateTime)
    (answer : Except SaveFailure (MeetingView × Db)) :
    Prop where
  accepted : (∃ a, answer = .ok a) ↔ form.Taken start now
  refused : ∀ e, answer = .error e →
    e = invalidPayload ∧ ¬ ((toApiDate start).IsPython ∧ form.encryption ∈ encryptionModes) ∨
    FormErrors.ofFailure e = { topic := some "Topic is required." } ∧
      (∀ c ∈ (JsStr.trim form.topic).toList, PyStr.isSpace c) ∨
    FormErrors.ofFailure e = { date := some "Scheduled start must be in the future." } ∧
      1000 * start ≤ now

theorem blank_iff {s : String} : PyStr.strip s = "" ↔ ∀ c ∈ s.toList, PyStr.isSpace c := by
  rw [← String.toList_eq_nil_iff, PyStr.toList_strip, Trim.trim, List.rdropWhile_eq_nil_iff]
  constructor
  · intro h c hc
    rw [← List.takeWhile_append_dropWhile (p := PyStr.isSpace) (l := s.toList)] at hc
    rcases List.mem_append.mp hc with hc | hc
    · exact List.mem_takeWhile_imp hc
    · exact h c hc
  · exact fun h c hc => h c ((List.dropWhile_suffix _).mem hc)

theorem saveAnswered_of_answer {form : FormState} {start : ℤ} {now : DateTime}
    {answer : Except SaveFailure (MeetingView × Db)}
    (h : (∃ a, answer = .ok a) ∧ form.refusal start now = none ∨
      ∃ e, answer = .error e ∧ form.refusal start now = some e) :
        SaveAnswered form start now answer := by
  rcases h with ⟨⟨a, rfl⟩, hnone⟩ | ⟨e, rfl, hsome⟩
  · exact ⟨iff_of_true ⟨a, rfl⟩ (refusal_eq_none.mp hnone), fun e he => by simp at he⟩
  · refine ⟨iff_of_false (by simp) fun htaken => ?_, ?_⟩
    · rw [refusal_eq_none.mpr htaken] at hsome
      cases hsome
    · intro e' he'
      obtain rfl : e = e' := Except.error.inj he'
      unfold FormState.refusal at hsome
      split_ifs at hsome with hbody hblank hpast
      · obtain rfl := Option.some.inj hsome
        exact .inr (.inl ⟨by decide, blank_iff.mp hblank⟩)
      · obtain rfl := Option.some.inj hsome
        exact .inr (.inr ⟨by decide, hpast⟩)
      · exact .inl ⟨(Option.some.inj hsome).symm, hbody⟩

def utcViewer : Viewer := ⟨utcZone, "UTC", by decide⟩

/-- An hour on a Friday afternoon. -/
def kickoff : FormState where
  topic := "Kickoff "
  description := ""
  date := "2026-08-14"
  time := "1:30"
  meridiem := .pm
  durationHours := 1
  durationMinutes := 0
  timezone := "UTC"
  recurring := false
  usePmi := false
  waitingRoom := true
  hostVideoOn := true
  participantVideoOn := true
  invitees := ""
  encryption := "enhanced"
  chatBeforeAfter := true

theorem kickoff_valid : kickoff.validate utcViewer 0 = .ok (1786714200000, 60) := by decide +kernel

theorem kickoff_hasRoom : kickoff.HasRoom .empty basicHost secondTry 20 where
  invitees := ⟨.empty, by rfl⟩
  drawn _ := ⟨0, by decide, by decide, fun n hn => absurd hn (Keyed.not_mem_empty n)⟩
  personal h := absurd h (by decide)

/-- A topic in which only the browser sees a character. -/
example : JsStr.trim "\u0085" ≠ "" ∧ PyStr.strip (JsStr.trim "\u0085") = "" := by decide +kernel

end ZoomClone
