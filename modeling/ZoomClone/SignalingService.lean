/-
Business logic behind the signaling socket (`signaling_service.py`).

`authenticate` resolves a session id, `bindConnection` and `releaseConnection`
tie a row to the socket that owns it, and the `host*` functions are the host
tools, each behind `requireHost`.
-/
import ZoomClone.ParticipantService
import Mathlib.Data.List.Sort

namespace ZoomClone

def invalidSession : AppError :=
  .forbidden "That session is not valid for this meeting." "INVALID_SESSION"

/-- Resolve `(meeting, participant)` for a connecting socket.  The status is
checked before `left_at`, so that a participant of an ended meeting learns that
it is over. -/
def authenticate (db : Db) (meetingNumber : String) (sessionId : SessionId) :
    Service (Meeting × Participant) := do
  let participant ← .getOrRaise (db.participantBySession sessionId) invalidSession
  let meeting ← .getOrRaise
    ((db.getMeeting participant.meetingId).filter fun m =>
      m.meetingNumber = normalizeMeetingNumber meetingNumber) invalidSession
  .require (meeting.status ≠ .ended ∧ meeting.status ≠ .cancelled)
    (meetingNotJoinable meeting.status)
  .require (participant.leftAt = none) invalidSession
  return (meeting, participant)

theorem authenticate_eq_ok {db : Db} {meetingNumber : String} {sessionId : SessionId} {m : Meeting}
    {p : Participant} :
    authenticate db meetingNumber sessionId = .ok (m, p) ↔
      db.participantBySession sessionId = some p ∧ db.getMeeting p.meetingId = some m ∧
        m.meetingNumber = normalizeMeetingNumber meetingNumber ∧
        (m.status ≠ .ended ∧ m.status ≠ .cancelled) ∧ p.leftAt = none := by
  simp only [authenticate, Service.bind_eq_ok, Service.pure_eq_ok, Service.require_eq_ok,
    Service.getOrRaise_eq_ok, Option.filter_eq_some_iff, decide_eq_true_eq, Prod.mk.injEq]
  constructor
  · rintro ⟨p', hp, m', ⟨hm, hnumber⟩, -, hs, -, hopen, rfl, rfl⟩
    exact ⟨hp, hm, hnumber, hs, hopen⟩
  · rintro ⟨hp, hm, hnumber, hs, hopen⟩
    exact ⟨p, hp, m, ⟨hm, hnumber⟩, (), hs, (), hopen, rfl, rfl⟩

/-- The column a connecting socket writes. -/
def Participant.bindTo (p : Participant) (connectionId : ConnectionId) : Participant :=
  { p with connectionId := some connectionId }

@[simp] theorem Participant.bindTo_id (p : Participant) (connectionId : ConnectionId) :
    (p.bindTo connectionId).id = p.id := rfl

/-- Record which live socket owns a row. -/
def bindConnection (db : Db) (participantId : ParticipantId) (connectionId : ConnectionId) : Db :=
  db.updateRow participantId (·.bindTo connectionId) (Participant.bindTo_id · connectionId)

/-- Close a row when its socket drops, unless a newer socket owns it.  Returns
the row when this call closed it. -/
def releaseConnection (db : Db) (participantId : ParticipantId) (connectionId : ConnectionId)
    (now : DateTime) : Option ParticipantView × Db :=
  match db.getParticipant participantId with
  | none => (none, db)
  | some participant =>
    if participant.connectionId = some connectionId then
      let (closed, db) := markLeft db participant now
      (some closed, db)
    else (none, db)

theorem releaseConnection_eq {db : Db} {participantId : ParticipantId} {connectionId : ConnectionId}
    {now : DateTime} :
    releaseConnection db participantId connectionId now =
      match (db.getParticipant participantId).filter fun p =>
        p.connectionId = some connectionId with
      | none => (none, db)
      | some p => (some (markLeft db p now).1, (markLeft db p now).2) := by
  unfold releaseConnection
  cases hp : db.getParticipant participantId with
  | none => rfl
  | some p => by_cases hc : p.connectionId = some connectionId <;> simp [hc, Option.filter]

/-- Everyone currently present, oldest join first. -/
def activeRoster (db : Db) (meetingId : MeetingId) : List ParticipantView :=
  ((db.activeRows meetingId).insertionSort fun p q => p.joinedAt ≤ q.joinedAt).map
    serializeParticipant

theorem mem_activeRoster {db : Db} {meetingId : MeetingId} {v : ParticipantView} :
    v ∈ activeRoster db meetingId ↔ ∃ p ∈ db.activeRows meetingId, serializeParticipant p = v := by
  rw [activeRoster, List.mem_map]
  simp only [List.mem_insertionSort]

/-- Payload of the `room.state` frame. -/
structure RoomSnapshot where
  participants : List ParticipantView
  you : ParticipantView
  meeting : MeetingView
  deriving DecidableEq

def roomSnapshot (db : Db) (meeting : Meeting) (participant : Participant) : RoomSnapshot where
  participants := activeRoster db meeting.id
  you := serializeParticipant participant
  meeting := serializeMeeting db meeting

/-- Refuse past the cap.  Note the strict comparison: the connecting row itself
is counted. -/
def assertRoomHasSpace (db : Db) (meetingId : MeetingId) : Service Unit :=
  .require ((db.activeRows meetingId).length ≤ maxMeshParticipants) meetingFull

/-- A client changing its own mute, video and hand state. -/
def applyStateUpdate (db : Db) (participantId : ParticipantId) (changes : MediaPatch) :
    Service (ParticipantView × Db) := do
  let participant ← .getOrRaise (db.getParticipant participantId) participantNotFound
  let db := db.updateRow participant.id (·.applyMedia changes) (Participant.applyMedia_id · changes)
  return (serializeParticipant (participant.applyMedia changes), db)

theorem applyStateUpdate_eq_ok {db db' : Db} {participantId : ParticipantId} {changes : MediaPatch}
    {v : ParticipantView} :
    applyStateUpdate db participantId changes = .ok (v, db') ↔
      ∃ p, db.getParticipant participantId = some p ∧
        v = serializeParticipant (p.applyMedia changes) ∧
        db' = db.updateRow p.id (·.applyMedia changes) (Participant.applyMedia_id · changes) := by
  simp only [applyStateUpdate, Service.bind_eq_ok, Service.pure_eq_ok, Service.getOrRaise_eq_ok]
  constructor
  · rintro ⟨p, hp, h⟩
    obtain ⟨rfl, rfl⟩ := Prod.mk.inj h
    exact ⟨p, hp, rfl, rfl⟩
  · rintro ⟨p, hp, rfl, rfl⟩
    exact ⟨p, hp, rfl⟩

/-! ### Host tools -/

/-- `_actor`: the acting row, re-read on every host frame. -/
def actorRow (db : Db) (participantId : ParticipantId) : Service Participant :=
  .getOrRaise (db.getParticipant participantId) invalidSession

theorem actorRow_eq_ok {db : Db} {participantId : ParticipantId} {p : Participant} :
    actorRow db participantId = .ok p ↔ db.getParticipant participantId = some p :=
  Service.getOrRaise_eq_ok

def notHost : AppError :=
  .forbidden "Only the meeting host can perform this action." "NOT_HOST"

/-- Authorize a `host.*` frame: the role stamped on the join, and ownership of
the meeting. -/
def requireHost (db : Db) (participant : Participant) : Service Meeting := do
  let meeting ← .getOrRaise (db.getMeeting participant.meetingId)
    (.notFound "No such meeting." "MEETING_NOT_FOUND")
  .require (participant.role = .host ∧ some meeting.hostId = participant.userId) notHost
  return meeting

/-- The row a host frame names, which must be in the actor's meeting. -/
def targetRow (db : Db) (actor : Participant) (targetId : ParticipantId) : Service Participant :=
  .getOrRaise ((db.getParticipant targetId).filter fun t => t.meetingId = actor.meetingId)
    participantNotFound

theorem requireHost_eq_ok {db : Db} {actor : Participant} {m : Meeting} :
    requireHost db actor = .ok m ↔
      db.getMeeting actor.meetingId = some m ∧ actor.role = .host ∧
        some m.hostId = actor.userId := by
  simp only [requireHost, Service.bind_eq_ok, Service.pure_eq_ok, Service.require_eq_ok,
    Service.getOrRaise_eq_ok]
  constructor
  · rintro ⟨m', hm, -, hhost, rfl⟩
    exact ⟨hm, hhost⟩
  · rintro ⟨hm, hhost⟩
    exact ⟨m, hm, (), hhost, rfl⟩

theorem targetRow_eq_ok {db : Db} {actor t : Participant} {targetId : ParticipantId} :
    targetRow db actor targetId = .ok t ↔
      db.getParticipant targetId = some t ∧ t.meetingId = actor.meetingId := by
  simp only [targetRow, Service.getOrRaise_eq_ok, Option.filter_eq_some_iff, decide_eq_true_eq]

/-- The column a host's mute writes. -/
def Participant.mute (p : Participant) : Participant := { p with isMuted := true }

@[simp] theorem Participant.mute_id (p : Participant) : p.mute.id = p.id := rfl

def hostMute (db : Db) (actor : Participant) (targetId : ParticipantId) :
    Service (ParticipantView × Db) := do
  let _ ← requireHost db actor
  let target ← targetRow db actor targetId
  return (serializeParticipant target.mute,
    db.updateRow target.id Participant.mute Participant.mute_id)

/-- Mute everyone except the acting row. -/
def hostMuteAll (db : Db) (actor : Participant) : Service (List ParticipantView × Db) := do
  let _ ← requireHost db actor
  let rows := (db.activeRows actor.meetingId).filter fun p => p.id ≠ actor.id
  let db := db.updateRows
    (fun p => p.meetingId = actor.meetingId ∧ p.leftAt = none ∧ p.id ≠ actor.id)
    Participant.mute Participant.mute_id
  return (rows.map fun p => serializeParticipant p.mute, db)

/-- The host evicts a participant. -/
def hostRemove (db : Db) (actor : Participant) (targetId : ParticipantId) (now : DateTime) :
    Service (ParticipantView × Db) := do
  let _ ← requireHost db actor
  let target ← targetRow db actor targetId
  .require (target.id ≠ actor.id)
    (.forbidden "The host cannot remove themselves; end the meeting instead."
      "CANNOT_REMOVE_SELF")
  return markLeft db target now

/-- End the meeting from inside the room, evicting everyone.  The transition
table is not consulted. -/
def hostEndMeeting (db : Db) (actor : Participant) (now : DateTime) :
    Service (MeetingView × Db) := do
  let meeting ← requireHost db actor
  let db := (db.updateMeetingRow meeting.id (·.finish now) (Meeting.finish_id · now)).evictAll
    meeting.id now
  return (serializeMeeting db (meeting.finish now), db)

/-! ### When a host tool succeeds, and what it does -/

theorem hostMute_eq_ok {db db' : Db} {actor : Participant} {targetId : ParticipantId}
    {v : ParticipantView} :
    hostMute db actor targetId = .ok (v, db') ↔
      (∃ m, requireHost db actor = .ok m) ∧ ∃ t, targetRow db actor targetId = .ok t ∧
        v = serializeParticipant t.mute ∧
        db' = db.updateRow t.id Participant.mute Participant.mute_id := by
  simp only [hostMute, Service.bind_eq_ok, Service.pure_eq_ok]
  constructor
  · rintro ⟨m, hm, t, ht, h⟩
    obtain ⟨rfl, rfl⟩ := Prod.mk.inj h
    exact ⟨⟨m, hm⟩, t, ht, rfl, rfl⟩
  · rintro ⟨⟨m, hm⟩, t, ht, rfl, rfl⟩
    exact ⟨m, hm, t, ht, rfl⟩

theorem hostMuteAll_eq_ok {db db' : Db} {actor : Participant} {vs : List ParticipantView} :
    hostMuteAll db actor = .ok (vs, db') ↔
      (∃ m, requireHost db actor = .ok m) ∧
        vs = (((db.activeRows actor.meetingId).filter fun p => p.id ≠ actor.id).map fun p =>
          serializeParticipant p.mute) ∧
        db' = db.updateRows
          (fun p => p.meetingId = actor.meetingId ∧ p.leftAt = none ∧ p.id ≠ actor.id)
          Participant.mute Participant.mute_id := by
  simp only [hostMuteAll, Service.bind_eq_ok, Service.pure_eq_ok, Prod.mk.injEq]
  constructor
  · rintro ⟨m, hm, rfl, rfl⟩
    exact ⟨⟨m, hm⟩, rfl, rfl⟩
  · rintro ⟨⟨m, hm⟩, rfl, rfl⟩
    exact ⟨m, hm, rfl, rfl⟩

theorem hostRemove_eq_ok {db db' : Db} {actor : Participant} {targetId : ParticipantId}
    {now : DateTime} {v : ParticipantView} :
    hostRemove db actor targetId now = .ok (v, db') ↔
      (∃ m, requireHost db actor = .ok m) ∧ ∃ t, targetRow db actor targetId = .ok t ∧
        t.id ≠ actor.id ∧ (v, db') = markLeft db t now := by
  simp only [hostRemove, Service.bind_eq_ok, Service.pure_eq_ok, Service.require_eq_ok]
  constructor
  · rintro ⟨m, hm, t, ht, -, hself, h⟩
    exact ⟨⟨m, hm⟩, t, ht, hself, h.symm⟩
  · rintro ⟨⟨m, hm⟩, t, ht, hself, h⟩
    exact ⟨m, hm, t, ht, (), hself, h.symm⟩

theorem hostEndMeeting_eq_ok {db db' : Db} {actor : Participant}
    {now : DateTime} {v : MeetingView} :
    hostEndMeeting db actor now = .ok (v, db') ↔
      ∃ m, requireHost db actor = .ok m ∧ v = serializeMeeting db' (m.finish now) ∧
        db' = (db.updateMeetingRow m.id (·.finish now) (Meeting.finish_id · now)).evictAll
          m.id now := by
  simp only [hostEndMeeting, Service.bind_eq_ok, Service.pure_eq_ok]
  constructor
  · rintro ⟨m, hm, h⟩
    obtain ⟨rfl, rfl⟩ := Prod.mk.inj h
    exact ⟨m, hm, rfl, rfl⟩
  · rintro ⟨m, hm, rfl, rfl⟩
    exact ⟨m, hm, rfl⟩

end ZoomClone
