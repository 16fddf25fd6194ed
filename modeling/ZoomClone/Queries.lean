/-
The read paths: the pre-join probe, the detail view, the roster and the chat
history (`meeting_service.py`, `participant_service.py`, `chat_service.py`).

`outsider_learns_nothing`: who neither hosts a meeting nor was ever in it reads the
same from any two databases that agree on what the probe shows, and the probe of a
cancelled meeting is that of a missing one.
-/
import ZoomClone.SignalingService

namespace ZoomClone

/-- `serialize_lookup`. -/
structure MeetingLookup where
  meetingNumber : String
  topic : String
  status : MeetingStatus
  passcodeRequired : Bool
  deriving DecidableEq

def serializeLookup (meeting : Meeting) : MeetingLookup where
  meetingNumber := meeting.meetingNumber
  topic := meeting.topic
  status := meeting.status
  passcodeRequired := meeting.passcode ≠ ""

/-- The anonymous probe; a cancelled meeting looks like none. -/
def lookup (db : Db) (meetingNumber : String) : Service MeetingLookup := do
  let meeting ← getByNumber db meetingNumber
  .require (meeting.status ≠ .cancelled) (meetingNotFound meeting.meetingNumber)
  return serializeLookup meeting

def notAParticipant : AppError :=
  .forbidden "You are not a participant of this meeting." "NOT_A_PARTICIPANT"

/-- The viewer has a row in the meeting, open or closed. -/
def Db.hasJoined (db : Db) (meeting : Meeting) (viewer : User) : Bool :=
  db.participants.rows.any fun p => p.meetingId = meeting.id ∧ p.userId = some viewer.id

theorem Db.hasJoined_iff {db : Db} {meeting : Meeting} {viewer : User} :
    db.hasJoined meeting viewer ↔
      ∃ p ∈ db.participants, p.meetingId = meeting.id ∧ p.userId = some viewer.id := by
  rw [hasJoined, List.any_eq_true]
  simp only [decide_eq_true_eq]
  rfl

/-- Detail for the host, or for whoever has a row in the meeting. -/
def getDetail (db : Db) (meetingNumber : String) (viewer : User) : Service MeetingView := do
  let meeting ← getByNumber db meetingNumber
  .require (meeting.hostId = viewer.id ∨ db.hasJoined meeting viewer) notAParticipant
  return serializeMeeting db meeting

/-- The viewer must host the meeting or hold a row in it.  The row itself, which
the callers drop, is not returned. -/
def requireMembership (db : Db) (meeting : Meeting) (viewer : User) : Service Unit :=
  .require (meeting.hostId = viewer.id ∨ db.hasJoined meeting viewer) notAParticipant

/-- The active roster. -/
def listActive (db : Db) (meetingNumber : String) (viewer : User) :
    Service (List ParticipantView) := do
  let meeting ← getByNumber db meetingNumber
  requireMembership db meeting viewer
  return activeRoster db meeting.id

/-! ### Chat history -/

def defaultMessageLimit : ℕ := 200

/-- The messages of a meeting under the names of their participants, oldest
first. -/
def transcript (db : Db) (meetingId : MeetingId) : List MessageView :=
  (db.chatMessages.rows.filterMap fun message =>
    if message.meetingId = meetingId then
      (db.getParticipant message.participantId).map fun p => serializeMessage message p.displayName
    else none).insertionSort fun m n => m.sentAt ≤ n.sentAt

/-- The chat history, cut at the limit. -/
def listMessages (db : Db) (meetingNumber : String) (viewer : User)
    (limit : Int := defaultMessageLimit) :
    Service (List MessageView) := do
  let meeting ← getByNumber db meetingNumber
  requireMembership db meeting viewer
  -- the oldest ones are kept
  return (transcript db meeting.id).take (max 1 (min limit defaultMessageLimit)).toNat

/-! ### What an outsider learns -/

/-- The unique index on `meeting_number`. -/
def Db.UniqueNumbers (db : Db) : Prop :=
  ∀ m ∈ db.meetings, ∀ n ∈ db.meetings, m.meetingNumber = n.meetingNumber → m = n

instance (db : Db) : Decidable db.UniqueNumbers :=
  inferInstanceAs (Decidable (∀ m ∈ db.meetings, ∀ n ∈ db.meetings, _ → m = n))

/-- The viewer neither hosts the meeting nor was ever in it. -/
structure Outsider (db : Db) (meeting : Meeting) (viewer : User) : Prop where
  notHost : meeting.hostId ≠ viewer.id
  notJoined : ∀ p ∈ db.participants, p.meetingId = meeting.id → p.userId ≠ some viewer.id

/-- The two rows agree on what the probe shows, and on the host. -/
structure Meeting.LooksLike (m n : Meeting) : Prop where
  meetingNumber : m.meetingNumber = n.meetingNumber
  topic : m.topic = n.topic
  status : m.status = n.status
  hostId : m.hostId = n.hostId
  passcode : m.passcode = "" ↔ n.passcode = ""

/-- A row is found under every spelling of its number. -/
theorem getByNumber_of_spelling {db : Db} {m : Meeting} {raw : String} (hunique : db.UniqueNumbers)
    (hm : m ∈ db.meetings) (hraw : normalizeMeetingNumber raw = m.meetingNumber) :
    getByNumber db raw = .ok m := by
  rw [getByNumber_eq_ok, Db.meetingByNumber]
  cases hfind : db.meetings.rows.find? fun n => n.meetingNumber = normalizeMeetingNumber raw with
  | none =>
    have hnone := List.find?_eq_none.mp hfind m hm
    simp [hraw] at hnone
  | some n =>
    have hn : n ∈ db.meetings := List.mem_of_find?_eq_some hfind
    have hnumber : n.meetingNumber = normalizeMeetingNumber raw := by
      simpa using List.find?_some hfind
    rw [hunique n hn m hm (hnumber.trans hraw)]

theorem getByNumber_of_missing {db : Db} {raw : String}
    (h : ∀ m ∈ db.meetings, m.meetingNumber ≠ normalizeMeetingNumber raw) :
    getByNumber db raw = .error (.app (meetingNotFound (normalizeMeetingNumber raw))) := by
  have hnone : db.meetingByNumber raw = none := by
    rw [Db.meetingByNumber, List.find?_eq_none]
    intro m hm
    simpa using h m hm
  rw [getByNumber, hnone]
  rfl

theorem Meeting.LooksLike.serializeLookup {m n : Meeting} (h : m.LooksLike n) :
    serializeLookup m = ZoomClone.serializeLookup n := by
  simp only [ZoomClone.serializeLookup, h.meetingNumber, h.topic, h.status, ne_eq, h.passcode]

/-- An outsider passes no membership check. -/
theorem Outsider.denied {db : Db} {m : Meeting} {viewer : User} (h : Outsider db m viewer) :
    ¬ (m.hostId = viewer.id ∨ db.hasJoined m viewer) := by
  rintro (hhost | hjoined)
  · exact h.notHost hhost
  · obtain ⟨p, hp, hmeeting, huser⟩ := Db.hasJoined_iff.mp hjoined
    exact h.notJoined p hp hmeeting huser

section Denied

variable {db : Db} {m : Meeting} {viewer : User} {raw : String}

/-- Each of the three protected reads ends at its membership check. -/
theorem Outsider.reads_denied (h : Outsider db m viewer) (hm : getByNumber db raw = .ok m) :
    getDetail db raw viewer = .error (.app notAParticipant) ∧
      listActive db raw viewer = .error (.app notAParticipant) ∧
        ∀ limit, listMessages db raw viewer limit = .error (.app notAParticipant) := by
  have hdenied (e : AppError) : Service.require (m.hostId = viewer.id ∨ db.hasJoined m viewer) e =
      .error (.app e) := if_neg h.denied
  refine ⟨?_, ?_, fun limit => ?_⟩
  · rw [getDetail, hm]
    simp only [bind, Except.bind, hdenied]
  · rw [listActive, hm]
    simp only [bind, Except.bind, requireMembership, hdenied]
  · rw [listMessages, hm]
    simp only [bind, Except.bind, requireMembership, hdenied]

end Denied

/-- **Outsiders learn nothing.**  Two databases that agree on what the probe shows
of a meeting answer alike, under every spelling of its number, to whoever is
outside in both; and a cancelled meeting is probed like a missing one. -/
theorem outsider_learns_nothing {db₁ db₂ : Db} {m₁ m₂ : Meeting} {raw : String}
    (hunique₁ : db₁.UniqueNumbers) (hunique₂ : db₂.UniqueNumbers) (hm₁ : m₁ ∈ db₁.meetings)
    (hm₂ : m₂ ∈ db₂.meetings) (hlooks : m₁.LooksLike m₂)
    (hraw : normalizeMeetingNumber raw = m₁.meetingNumber) :
    lookup db₁ raw = lookup db₂ raw ∧
      (∀ viewer, Outsider db₁ m₁ viewer → Outsider db₂ m₂ viewer →
        getDetail db₁ raw viewer = getDetail db₂ raw viewer ∧
        listActive db₁ raw viewer = listActive db₂ raw viewer ∧
        ∀ limit, listMessages db₁ raw viewer limit = listMessages db₂ raw viewer limit) ∧
      (m₁.status = .cancelled →
        lookup db₁ raw = .error (.app (meetingNotFound (normalizeMeetingNumber raw))) ∧
        ∀ db : Db, (∀ m ∈ db.meetings, m.meetingNumber ≠ normalizeMeetingNumber raw) →
          lookup db raw = lookup db₁ raw) := by
  have hget₁ := getByNumber_of_spelling hunique₁ hm₁ hraw
  have hget₂ := getByNumber_of_spelling hunique₂ hm₂ (hraw.trans hlooks.meetingNumber)
  refine ⟨?_, ?_, ?_⟩
  · rw [lookup, lookup, hget₁, hget₂]
    simp only [bind, Except.bind, hlooks.status, hlooks.meetingNumber, hlooks.serializeLookup]
  · intro viewer h₁ h₂
    obtain ⟨hdetail₁, hactive₁, hmessages₁⟩ := h₁.reads_denied hget₁
    obtain ⟨hdetail₂, hactive₂, hmessages₂⟩ := h₂.reads_denied hget₂
    exact ⟨hdetail₁.trans hdetail₂.symm, hactive₁.trans hactive₂.symm,
      fun limit => (hmessages₁ limit).trans (hmessages₂ limit).symm⟩
  · intro hcancelled
    have hlookup : lookup db₁ raw =
        .error (.app (meetingNotFound (normalizeMeetingNumber raw))) := by
      rw [lookup, hget₁]
      simp [bind, Except.bind, Service.require, hcancelled, hraw]
    refine ⟨hlookup, ?_⟩
    intro db hmissing
    rw [hlookup, lookup, getByNumber_of_missing hmissing]
    rfl

/-- A meeting nobody ever joined, as its host left it. -/
def quietRoom : Db :=
  { meetings := Keyed.empty.insert ⟨"m", "89590250750", "host", "Standup", none, none, 40, "UTC",
      "hRtz4K", "tok", .live, false, true, true, true, false, true, "enhanced", none, none, 0⟩
      List.not_mem_nil }

/-- A meeting of that number with other secrets, a participant and a message. -/
def busyRoom : Db :=
  { meetings := Keyed.empty.insert ⟨"n", "89590250750", "host", "Standup",
    some "notes", some 5, 60, "CET",
      "pQ7w2x", "other", .live, true, false, true, true, true, true, "e2ee", some 5, none, 3⟩
      List.not_mem_nil
    participants := Keyed.empty.insert { id := "1", meetingId := "n", userId := some "guest"
                                         displayName := "Grace", sessionId := "s1", joinedAt := 7 }
      List.not_mem_nil
    chatMessages := Keyed.empty.insert ⟨"c1", "n", "1", "hello", 8⟩ List.not_mem_nil }

def visitor : User := { id := "visitor", email := "v@example.com", name := "Vera"
                        personalMeetingId := "10000000002" }

/-- The visitor reads the same chat history from both. -/
theorem visitor_reads_no_chat : listMessages quietRoom "895 9025 0750" visitor 200 =
    listMessages busyRoom "895 9025 0750" visitor 200 := by
  have hquiet : quietRoom.UniqueNumbers := by decide
  have hbusy : busyRoom.UniqueNumbers := by decide
  have hraw : normalizeMeetingNumber "895 9025 0750" = "89590250750" := by decide
  have hsame := outsider_learns_nothing hquiet hbusy (List.mem_singleton_self _)
    (List.mem_singleton_self _) ⟨rfl, rfl, rfl, rfl, by decide⟩ hraw
  exact (hsame.2.1 visitor ⟨by decide, by decide⟩ ⟨by decide, by decide⟩).2.2 200

end ZoomClone
