/-
The tables of the API and the values its services pass around.

Every column a service reads or writes is here under its own name.  Ids, session
ids and connection ids are the UUID strings the program draws; a fresh one is an
argument of the operation that stores it, so nothing below assumes an order
among them.  Timestamps are naive UTC microseconds, as `utcnow` stores them.

Left out: columns that no modelled function reads (device ids, gallery size and
the other cosmetic preferences), and the ICE server list, which is configuration
handed through to the browser.
-/
import ZoomClone.Keyed
import ZoomClone.Text

namespace ZoomClone

abbrev UserId := String
abbrev MeetingId := String
abbrev ParticipantId := String
abbrev SessionId := String
abbrev ConnectionId := String

/-- Naive UTC, in microseconds. -/
abbrev DateTime := Int

/-- A decoded JSON value; a `float` is kept as its Python text. -/
inductive Json where
  | null
  | bool (b : Bool)
  | int (n : Int)
  | float (text : String) (isZero : Bool)
  | str (s : String)
  | arr (items : List Json)
  | obj (fields : List (String × Json))

/-- A decoded JSON object: a `dict` with text keys. -/
abbrev JsonObj := List (String × Json)

namespace Json

/-- `d.get(key)`; a missing key and an explicit `null` are both `None`. -/
def get (d : JsonObj) (key : String) : Json :=
  ((d.find? fun field => field.1 = key).map (·.2)).getD null

/-- `bool(value)`. -/
def truthy : Json → Bool
  | null => false
  | bool b => b
  | int n => n ≠ 0
  | float _ isZero => !isZero
  | str s => s ≠ ""
  | arr items => !items.isEmpty
  | obj fields => !fields.isEmpty

mutual

/-- `repr(value)`. -/
def repr : Json → String
  | null => "None"
  | bool true => "True"
  | bool false => "False"
  | int n => toString n
  | float text _ => text
  | str s => PyStr.repr s
  | arr items => "[" ++ reprItems items ++ "]"
  | obj fields => "\x7b" ++ reprFields fields ++ "\x7d"

/-- The items of a `list`, separated by commas. -/
def reprItems : List Json → String
  | [] => ""
  | [item] => item.repr
  | item :: items => item.repr ++ ", " ++ reprItems items

/-- The items of a `dict`, separated by commas. -/
def reprFields : List (String × Json) → String
  | [] => ""
  | [(key, value)] => PyStr.repr key ++ ": " ++ value.repr
  | (key, value) :: fields => PyStr.repr key ++ ": " ++ value.repr ++ ", " ++ reprFields fields

end

end Json

/-- A text argument, with the empty text taken for an absent one. -/
def given (o : Option String) : Option String := o.filter (· ≠ "")

theorem given_eq_some {o : Option String} {s : String} :
    given o = some s ↔ o = some s ∧ s ≠ "" := by
  simp [given, Option.filter_eq_some_iff]

/-! ### Failures -/

/-- An expected, client-facing failure. -/
structure AppError where
  statusCode : ℕ
  code : String
  message : String
  details : JsonObj := []

namespace AppError

def notFound (message code : String) : AppError :=
  { statusCode := 404, code, message }

def validation (message : String) (details : JsonObj) : AppError :=
  { statusCode := 422, code := "VALIDATION_ERROR", message, details }

def unauthorized (message code : String) : AppError :=
  { statusCode := 401, code, message }

def forbidden (message code : String) : AppError :=
  { statusCode := 403, code, message }

def conflict (message code : String) (details : JsonObj := []) : AppError :=
  { statusCode := 409, code, message, details }

end AppError

/-- What a service call can raise: an `AppError`, the `IntegrityError` of a
violated unique index, the `TypeError` of `compare_digest` on text that is not
ASCII, the `OverflowError` of a date past the last one, the `ArgumentError` of a
comparison with `None` in a query, or the `UnicodeEncodeError` of a text that a
statement cannot bind.  All but the first surface as internal errors. -/
inductive Raised where
  | app (e : AppError)
  | integrity
  | typeError
  | overflowError
  | argumentError
  | unicodeError

/-- The outcome of a service call.  A call that raises commits nothing. -/
abbrev Service (α : Type) := Except Raised α

namespace Service

/-- `if not c: raise e`. -/
def require (c : Prop) [Decidable c] (e : AppError) : Service Unit :=
  if c then .ok () else .error (.app e)

theorem require_eq_ok {c : Prop} [Decidable c] {e : AppError} {u : Unit} :
    require c e = .ok u ↔ c := by
  rw [require]
  split <;> simp_all

theorem require_eq_error {c : Prop} [Decidable c] {e : AppError} {e' : Raised} :
    require c e = .error e' ↔ ¬ c ∧ .app e = e' := by
  by_cases hc : c <;> simp [require, hc]

/-- The value of an optional lookup, or `raise e`. -/
def getOrRaise {α : Type} (o : Option α) (e : AppError) : Service α :=
  match o with
  | none => .error (.app e)
  | some a => .ok a

theorem getOrRaise_eq_ok {α : Type} {o : Option α} {e : AppError} {a : α} :
    getOrRaise o e = .ok a ↔ o = some a := by
  cases o <;> simp [getOrRaise]

theorem getOrRaise_eq_error {α : Type} {o : Option α} {e : AppError} {e' : Raised} :
    getOrRaise o e = .error e' ↔ o = none ∧ .app e = e' := by
  cases o <;> simp [getOrRaise]

theorem bind_eq_ok {α β : Type} {x : Service α} {f : α → Service β} {b : β} :
    x >>= f = .ok b ↔ ∃ a, x = .ok a ∧ f a = .ok b := by
  cases x with
  | error e => simp [bind, Except.bind]
  | ok a => simp [bind, Except.bind]

theorem bind_eq_error {α β : Type} {x : Service α} {f : α → Service β} {e : Raised} :
    x >>= f = .error e ↔ x = .error e ∨ ∃ a, x = .ok a ∧ f a = .error e := by
  cases x with
  | error e => simp [bind, Except.bind]
  | ok a => simp [bind, Except.bind]

theorem pure_eq_ok {α : Type} {a b : α} : (pure a : Service α) = .ok b ↔ a = b := by
  simp [pure, Except.pure]

end Service

/-! ### Tables -/

inductive MeetingStatus where
  | scheduled
  | live
  | ended
  | cancelled
  deriving DecidableEq, Repr

/-- The status as the wire and the error details spell it. -/
def MeetingStatus.name : MeetingStatus → String
  | scheduled => "scheduled"
  | live => "live"
  | ended => "ended"
  | cancelled => "cancelled"

inductive Role where
  | host
  | participant
  deriving DecidableEq, Repr

inductive Plan where
  | basic
  | pro
  deriving DecidableEq, Repr

structure User where
  id : UserId
  googleId : Option String := none
  email : String
  name : String
  avatarUrl : Option String := none
  personalMeetingId : String
  plan : Plan := .basic
  isGuest : Bool := false
  deriving DecidableEq

structure UserPreferences where
  userId : UserId
  muteOnJoin : Bool := false
  videoOffOnJoin : Bool := false
  deriving DecidableEq

structure Meeting where
  id : MeetingId
  meetingNumber : String
  hostId : UserId
  topic : String
  description : Option String := none
  scheduledStart : Option DateTime := none
  durationMinutes : Int := 40
  timezone : String := "UTC"
  passcode : String
  inviteToken : String
  status : MeetingStatus := .scheduled
  usePmi : Bool := false
  waitingRoom : Bool := true
  hostVideoOn : Bool := true
  participantVideoOn : Bool := true
  allowTranscription : Bool := false
  chatBeforeAfter : Bool := true
  encryption : String := "enhanced"
  startedAt : Option DateTime := none
  endedAt : Option DateTime := none
  createdAt : DateTime
  deriving DecidableEq

structure MeetingInvitee where
  id : String
  meetingId : MeetingId
  email : String
  invitedAt : DateTime
  deriving DecidableEq

/-- One row per join attempt; `leftAt = none` means currently present. -/
structure Participant where
  id : ParticipantId
  meetingId : MeetingId
  userId : Option UserId
  displayName : String
  role : Role := .participant
  sessionId : SessionId
  connectionId : Option ConnectionId := none
  isMuted : Bool := false
  isVideoOn : Bool := true
  isHandRaised : Bool := false
  joinedAt : DateTime
  leftAt : Option DateTime := none
  deriving DecidableEq

structure ChatMessage where
  id : String
  meetingId : MeetingId
  participantId : ParticipantId
  body : String
  sentAt : DateTime
  deriving DecidableEq

/-- The longest chat body that is stored. -/
def maxChatBodyLength : ℕ := 2000

/-- The encryption modes a meeting may have. -/
def encryptionModes : List String := ["enhanced", "e2ee"]

/-! ### What leaves the services -/

structure HostSummary where
  id : UserId
  name : String
  avatarUrl : Option String
  deriving DecidableEq

/-- `serialize_meeting`: every column of the row, and what is derived from it. -/
structure MeetingView where
  meeting : Meeting
  meetingNumberDisplay : String
  host : Option HostSummary
  isInstant : Bool
  participantCount : ℕ
  durationClamped : Bool := false
  deriving DecidableEq

/-- `serialize_participant`: the row without `session_id` and `connection_id`. -/
structure ParticipantView where
  id : ParticipantId
  meetingId : MeetingId
  userId : Option UserId
  displayName : String
  role : Role
  isMuted : Bool
  isVideoOn : Bool
  isHandRaised : Bool
  joinedAt : DateTime
  leftAt : Option DateTime
  deriving DecidableEq

/-- `serialize_message`. -/
structure MessageView where
  id : String
  meetingId : MeetingId
  participantId : ParticipantId
  displayName : String
  body : String
  sentAt : DateTime
  deriving DecidableEq

/-! ### The database -/

/-- The committed database.  Primary keys are unique by construction; the other
unique indexes are checked by the insertions below. -/
structure Db where
  users : Keyed User.id := .empty
  userPreferences : Keyed UserPreferences.userId := .empty
  meetings : Keyed Meeting.id := .empty
  meetingInvitees : Keyed MeetingInvitee.id := .empty
  participants : Keyed Participant.id := .empty
  chatMessages : Keyed ChatMessage.id := .empty
  deriving DecidableEq

namespace Db

/-- The database before the first request. -/
def empty : Db := {}

/-- `session.get(User, id)`. -/
def getUser (db : Db) (id : UserId) : Option User := db.users.find? id

/-- `session.get(Meeting, id)`. -/
def getMeeting (db : Db) (id : MeetingId) : Option Meeting := db.meetings.find? id

/-- `session.get(Participant, id)`. -/
def getParticipant (db : Db) (id : ParticipantId) : Option Participant := db.participants.find? id

/-- The participant with that id is currently present. -/
def isOpen (db : Db) (id : ParticipantId) : Bool :=
  match db.getParticipant id with
  | none => false
  | some p => p.leftAt = none

theorem isOpen_iff {db : Db} {id : ParticipantId} :
    db.isOpen id ↔ ∃ p ∈ db.participants, p.id = id ∧ p.leftAt = none := by
  rw [isOpen]
  cases h : db.getParticipant id with
  | none =>
    rw [getParticipant, Keyed.find?_eq_none, Keyed.mem_keys] at h
    constructor
    · intro hfalse
      cases hfalse
    · rintro ⟨p, hp, hid, -⟩
      exact absurd ⟨p, hp, hid⟩ h
  | some p =>
    obtain ⟨hp, hid⟩ := Keyed.find?_eq_some.mp h
    constructor
    · intro hopen
      exact ⟨p, hp, hid, by simpa using hopen⟩
    · rintro ⟨q, hq, hqid, hopen⟩
      obtain rfl : p = q := Keyed.eq_of_key_eq hp hq (hid.trans hqid.symm)
      simpa using hopen

/-- The row with that `session_id`. -/
def participantBySession (db : Db) (sessionId : SessionId) : Option Participant :=
  db.participants.rows.find? fun p => p.sessionId = sessionId

/-- The rows of a meeting with `left_at IS NULL`. -/
def activeRows (db : Db) (meetingId : MeetingId) : List Participant :=
  db.participants.rows.filter fun p => p.meetingId = meetingId ∧ p.leftAt = none

theorem mem_activeRows {db : Db} {meetingId : MeetingId} {p : Participant} :
    p ∈ db.activeRows meetingId ↔ p ∈ db.participants ∧ p.meetingId = meetingId ∧
      p.leftAt = none := by
  rw [activeRows, List.mem_filter]
  simp [Keyed.mem_def]

/-- Insert a user; `google_id`, `email` and `personal_meeting_id` are unique. -/
def insertUser (db : Db) (u : User) : Service Db :=
  if db.users.rows.any fun v =>
    (v.googleId.isSome && v.googleId = u.googleId) || v.email = u.email ||
      v.personalMeetingId = u.personalMeetingId then
    .error .integrity
  else
    match db.users.insert? u with
    | none => .error .integrity
    | some users => .ok { db with users }

/-- Update one user row; the unique indexes are checked against the others. -/
def updateUser (db : Db) (id : UserId) (f : User → User) (hf : ∀ u, (f u).id = u.id) : Service Db :=
  let users := db.users.modify id f hf
  if users.rows.any fun u => u.id = id && users.rows.any fun v =>
      v.id ≠ id && ((v.googleId.isSome && v.googleId = u.googleId) || v.email = u.email ||
        v.personalMeetingId = u.personalMeetingId) then
    .error .integrity
  else .ok { db with users }

/-- Insert a meeting; `meeting_number` and `invite_token` are unique. -/
def insertMeeting (db : Db) (m : Meeting) : Service Db :=
  if db.meetings.rows.any fun n => n.meetingNumber = m.meetingNumber ||
    n.inviteToken = m.inviteToken then
    .error .integrity
  else
    match db.meetings.insert? m with
    | none => .error .integrity
    | some meetings => .ok { db with meetings }

/-- Insert an invitee. -/
def insertInvitee (db : Db) (i : MeetingInvitee) : Service Db :=
  match db.meetingInvitees.insert? i with
  | none => .error .integrity
  | some meetingInvitees => .ok { db with meetingInvitees }

/-- Insert a participant; `session_id` is unique. -/
def insertParticipant (db : Db) (p : Participant) : Service Db :=
  if db.participants.rows.any fun q => q.sessionId = p.sessionId then
    .error .integrity
  else
    match db.participants.insert? p with
    | none => .error .integrity
    | some participants => .ok { db with participants }

/-- Insert a chat message. -/
def insertMessage (db : Db) (c : ChatMessage) : Service Db :=
  match db.chatMessages.insert? c with
  | none => .error .integrity
  | some chatMessages => .ok { db with chatMessages }

/-- A meeting is inserted last, and its id, number and invite token are new. -/
theorem insertMeeting_ok {db db' : Db} {m : Meeting} (h : db.insertMeeting m = .ok db') :
    ∃ hid : m.id ∉ db.meetings.keys, db' = { db with meetings := db.meetings.insert m hid } ∧
      ∀ n ∈ db.meetings, n.meetingNumber ≠ m.meetingNumber ∧ n.inviteToken ≠ m.inviteToken := by
  rw [insertMeeting] at h
  split at h
  · cases h
  · next hnew =>
    split at h
    · cases h
    · next meetings hins =>
      obtain ⟨hid, rfl⟩ := Keyed.insert?_eq_some.mp hins
      obtain rfl := Except.ok.inj h
      refine ⟨hid, rfl, ?_⟩
      intro n hn
      simp only [Bool.or_eq_true, List.any_eq_true, not_exists, not_and, not_or] at hnew
      have := hnew n hn
      simpa using this

/-- A participant is inserted last, and its id and session are new. -/
theorem insertParticipant_ok {db db' : Db} {p : Participant}
    (h : db.insertParticipant p = .ok db') :
    ∃ hid : p.id ∉ db.participants.keys,
      db' = { db with participants := db.participants.insert p hid } ∧
        ∀ q ∈ db.participants, q.sessionId ≠ p.sessionId := by
  rw [insertParticipant] at h
  split at h
  · cases h
  · next hnew =>
    split at h
    · cases h
    · next participants hins =>
      obtain ⟨hid, rfl⟩ := Keyed.insert?_eq_some.mp hins
      obtain rfl := Except.ok.inj h
      refine ⟨hid, rfl, ?_⟩
      intro q hq
      simp only [List.any_eq_true, not_exists, not_and] at hnew
      have := hnew q hq
      simpa using this

theorem insertParticipant_of_fresh {db : Db} {p : Participant} (hid : p.id ∉ db.participants.keys)
    (hsession : ∀ q ∈ db.participants, q.sessionId ≠ p.sessionId) :
    ∃ db', db.insertParticipant p = .ok db' := by
  refine ⟨{ db with participants := db.participants.insert p hid }, ?_⟩
  rw [insertParticipant]
  rw [if_neg, Keyed.insert?_eq_some.mpr ⟨hid, rfl⟩]
  simp only [List.any_eq_true, decide_eq_true_eq, not_exists, not_and]
  exact hsession

/-- The two databases have the same meetings and the same participants. -/
structure SameRooms (db db' : Db) : Prop where
  meetings : db'.meetings = db.meetings
  participants : db'.participants = db.participants

theorem SameRooms.refl (db : Db) : SameRooms db db := ⟨rfl, rfl⟩

theorem SameRooms.trans {db₁ db₂ db₃ : Db} (h : SameRooms db₁ db₂) (h' : SameRooms db₂ db₃) :
    SameRooms db₁ db₃ :=
  ⟨h'.meetings.trans h.meetings, h'.participants.trans h.participants⟩

theorem insertUser_ok {db db' : Db} {u : User} (h : db.insertUser u = .ok db') :
    SameRooms db db' := by
  rw [insertUser] at h
  split at h
  · cases h
  · split at h
    · cases h
    · obtain rfl := Except.ok.inj h
      exact ⟨rfl, rfl⟩

theorem updateUser_ok {db db' : Db} {id : UserId} {f : User → User} {hf : ∀ u, (f u).id = u.id}
    (h : db.updateUser id f hf = .ok db') : SameRooms db db' := by
  unfold updateUser at h
  dsimp only at h
  split at h
  · cases h
  · obtain rfl := Except.ok.inj h
    exact ⟨rfl, rfl⟩

theorem insertInvitee_ok {db db' : Db} {i : MeetingInvitee} (h : db.insertInvitee i = .ok db') :
    SameRooms db db' := by
  rw [insertInvitee] at h
  split at h
  · cases h
  · obtain rfl := Except.ok.inj h
    exact ⟨rfl, rfl⟩

/-- A message is inserted exactly under a free id. -/
theorem insertMessage_eq_ok {db db' : Db} {c : ChatMessage} : db.insertMessage c = .ok db' ↔
    ∃ hid : c.id ∉ db.chatMessages.keys, db' = { db with
      chatMessages := db.chatMessages.insert c hid } := by
  rw [insertMessage]
  constructor
  · intro h
    split at h
    · cases h
    · next chatMessages hins =>
      obtain ⟨hid, rfl⟩ := Keyed.insert?_eq_some.mp hins
      exact ⟨hid, (Except.ok.inj h).symm⟩
  · rintro ⟨hid, rfl⟩
    rw [Keyed.insert?_eq_some.mpr ⟨hid, rfl⟩]

/-- A message that is inserted is then there. -/
theorem insertMessage_ne {db db' : Db} {c : ChatMessage} (h : db.insertMessage c = .ok db') :
    c.id ∉ db.chatMessages.keys ∧ db' ≠ db := by
  obtain ⟨hid, rfl⟩ := insertMessage_eq_ok.mp h
  refine ⟨hid, ?_⟩
  intro heq
  have hmem : c ∈ (db.chatMessages.insert c hid) := Keyed.mem_insert.mpr (.inr rfl)
  have hmessages : db.chatMessages.insert c hid = db.chatMessages := congrArg Db.chatMessages heq
  rw [hmessages] at hmem
  exact hid (Keyed.key_mem_keys hmem)

theorem insertMessage_of_not_mem {db : Db} {c : ChatMessage} (h : c.id ∉ db.chatMessages.keys) :
    ∃ db', db.insertMessage c = .ok db' :=
  ⟨_, insertMessage_eq_ok.mpr ⟨h, rfl⟩⟩

theorem insertMessage_ok {db db' : Db} {c : ChatMessage} (h : db.insertMessage c = .ok db') :
    SameRooms db db' := by
  obtain ⟨hid, rfl⟩ := insertMessage_eq_ok.mp h
  exact ⟨rfl, rfl⟩

/-- Update one meeting row. -/
def updateMeetingRow (db : Db) (id : MeetingId) (f : Meeting → Meeting)
    (hf : ∀ m, (f m).id = m.id) : Db :=
  { db with meetings := db.meetings.modify id f hf }

@[simp] theorem keys_updateMeetingRow (db : Db) (id : MeetingId) (f : Meeting → Meeting)
    (hf : ∀ m, (f m).id = m.id) : (db.updateMeetingRow id f hf).meetings.keys = db.meetings.keys :=
  Keyed.keys_modify _ _ _ hf

/-- Update the participant rows that satisfy `q`. -/
def updateRows (db : Db) (q : Participant → Prop) [DecidablePred q] (f : Participant → Participant)
    (hf : ∀ p, (f p).id = p.id) : Db :=
  { db with
    participants := db.participants.map (fun p => if q p then f p else p) fun p => by
      split
      · exact hf p
      · rfl }

/-- Update one participant row. -/
def updateRow (db : Db) (id : ParticipantId) (f : Participant → Participant)
    (hf : ∀ p, (f p).id = p.id) : Db :=
  db.updateRows (fun p => p.id = id) f hf

theorem mem_updateMeetingRow {db : Db} {id : MeetingId} {f : Meeting → Meeting}
    {hf : ∀ m, (f m).id = m.id} {m' : Meeting} :
    m' ∈ (db.updateMeetingRow id f hf).meetings ↔
      ∃ m ∈ db.meetings, (if m.id = id then f m else m) = m' :=
  List.mem_map

theorem mem_updateRow {db : Db} {id : ParticipantId} {f : Participant → Participant}
    {hf : ∀ p, (f p).id = p.id} {p' : Participant} :
    p' ∈ (db.updateRow id f hf).participants ↔
      ∃ p ∈ db.participants, (if p.id = id then f p else p) = p' :=
  List.mem_map

theorem mem_updateRows {db : Db} {q : Participant → Prop} [DecidablePred q]
    {f : Participant → Participant} {hf : ∀ p, (f p).id = p.id} {p' : Participant} :
    p' ∈ (db.updateRows q f hf).participants ↔
      ∃ p ∈ db.participants, (if q p then f p else p) = p' :=
  List.mem_map

theorem participants_updateRows_eq_self (db : Db) (q : Participant → Prop) [DecidablePred q]
    (f : Participant → Participant) (hf : ∀ p, (f p).id = p.id) :
    (db.updateRows q f hf).participants = db.participants ↔
      ∀ p ∈ db.participants, q p → f p = p := by
  rw [updateRows, Keyed.map_eq_self]
  refine forall₂_congr fun p hp => ?_
  by_cases hq : q p <;> simp [hq]

/-- An update of rows changes nothing exactly when it changes none of them. -/
theorem updateRows_eq_self (db : Db) (q : Participant → Prop) [DecidablePred q]
    (f : Participant → Participant) (hf : ∀ p, (f p).id = p.id) :
    db.updateRows q f hf = db ↔ ∀ p ∈ db.participants, q p → f p = p := by
  rw [← participants_updateRows_eq_self db q f hf]
  constructor
  · intro h
    rw [h]
  · intro h
    cases db
    simpa [updateRows] using h

theorem updateRow_eq_self {db : Db} {p : Participant} (hp : p ∈ db.participants)
    (f : Participant → Participant) (hf : ∀ p, (f p).id = p.id) :
    db.updateRow p.id f hf = db ↔ f p = p := by
  rw [updateRow, updateRows_eq_self]
  constructor
  · intro h
    exact h p hp rfl
  · intro h q hq hid
    rwa [Keyed.eq_of_key_eq hq hp hid]

end Db

end ZoomClone
