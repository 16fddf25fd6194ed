/-
The operations on the database, and what a committed one changes.

* `Request` — the REST requests, each with the user its bearer token stands for;
* `Operation` — a request, or one of the service calls behind the socket;
* `Db.apply` — run an operation in its own transaction: what raises commits
  nothing.

A row is named by its id, so that the operations can be applied to any database.
`Commits db op db'` says once what a committed operation read and what it wrote
(`runOperation_commits`), and `Change db op db'` what that can do to the meetings
and the participants (`runOperation_change`); the invariants of the database are
derived from them.
-/
import ZoomClone.AuthService
import ZoomClone.SignalingService

namespace ZoomClone

/-- A REST request that writes, made by the user behind the token. -/
inductive Request where
  | signInGuest (displayName : String) (draws : SignInDraws)
  | signInGoogle (claims : GoogleClaims) (draws : SignInDraws)
  | updateProfile (userId : UserId) (name : Option String) (avatarUrl : Option (Option String))
  | savePreferences (userId : UserId) (muteOnJoin videoOffOnJoin : Option Bool)
  | createMeeting (userId : UserId) (req : MeetingCreate) (draws : CreateDraws) (now : DateTime)
  | updateMeeting (userId : UserId) (meetingNumber : String) (changes : MeetingChanges)
      (now : DateTime)
  | cancelMeeting (userId : UserId) (meetingNumber : String)
  | startMeeting (userId : UserId) (meetingNumber : String) (now : DateTime)
  | endMeeting (userId : UserId) (meetingNumber : String) (now : DateTime)
  | joinMeeting (userId : UserId) (meetingNumber : String) (req : JoinRequest) (draws : JoinDraws)
      (now : DateTime)
  | updateParticipant (userId : UserId) (participantId : ParticipantId) (changes : MediaPatch)
  | removeParticipant (userId : UserId) (participantId : ParticipantId) (now : DateTime)

/-- A transaction: a request, or a service call made for a socket. -/
inductive Operation where
  | request (r : Request)
  | leaveMeeting (sessionId : SessionId) (now : DateTime)
  | bindConnection (participantId : ParticipantId) (connectionId : ConnectionId)
  | releaseConnection (participantId : ParticipantId) (connectionId : ConnectionId) (now : DateTime)
  | applyStateUpdate (participantId : ParticipantId) (changes : MediaPatch)
  | postMessage (meetingId : MeetingId) (participantId : ParticipantId) (body id : String)
      (now : DateTime)
  | hostMute (actorId targetId : ParticipantId)
  | hostMuteAll (actorId : ParticipantId)
  | hostRemove (actorId targetId : ParticipantId) (now : DateTime)
  | hostEndMeeting (actorId : ParticipantId) (now : DateTime)

/-- The database a service call commits. -/
def Service.commit {α : Type} (x : Service (α × Db)) : Service Db := x.map Prod.snd

theorem Service.commit_eq_ok {α : Type} {x : Service (α × Db)} {db : Db} :
    x.commit = .ok db ↔ ∃ a, x = .ok (a, db) := by
  cases x with
  | error e => simp [Service.commit, Except.map]
  | ok r => simp [Service.commit, Except.map, Prod.ext_iff]

/-- The route of a request: its dependency, then the service call. -/
def runRequest (db : Db) : Request → Service Db
  | .signInGuest displayName draws => (createGuest db displayName draws).commit
  | .signInGoogle claims draws => (upsertGoogleUser db claims draws).commit
  | .updateProfile userId name avatarUrl => do
    let user ← currentUser db userId
    (updateProfile db user name avatarUrl).commit
  | .savePreferences userId muteOnJoin videoOffOnJoin => do
    let user ← currentUser db userId
    return (upsertPreferences db user muteOnJoin videoOffOnJoin).2
  | .createMeeting userId req draws now => do
    let user ← currentFullUser db userId
    (createMeeting db user req draws now).commit
  | .updateMeeting userId meetingNumber changes now => do
    let user ← currentFullUser db userId
    (updateMeeting db meetingNumber user changes now).commit
  | .cancelMeeting userId meetingNumber => do
    let user ← currentFullUser db userId
    (cancelMeeting db meetingNumber user).commit
  | .startMeeting userId meetingNumber now => do
    let user ← currentFullUser db userId
    (startMeeting db meetingNumber user now).commit
  | .endMeeting userId meetingNumber now => do
    let user ← currentFullUser db userId
    (endMeeting db meetingNumber user now).commit
  | .joinMeeting userId meetingNumber req draws now => do
    let user ← currentUser db userId
    (joinMeeting db meetingNumber user req draws now).commit
  | .updateParticipant userId participantId changes => do
    let user ← currentUser db userId
    (updateParticipant db participantId user changes).commit
  | .removeParticipant userId participantId now => do
    let user ← currentUser db userId
    (removeParticipant db participantId user now).commit

def runOperation (db : Db) : Operation → Service Db
  | .request r => runRequest db r
  | .leaveMeeting sessionId now => (leaveMeeting db sessionId now).commit
  | .bindConnection participantId connectionId => .ok (bindConnection db participantId connectionId)
  | .releaseConnection participantId connectionId now =>
    .ok (releaseConnection db participantId connectionId now).2
  | .applyStateUpdate participantId changes => (applyStateUpdate db participantId changes).commit
  | .postMessage meetingId participantId body id now =>
    (postMessage db meetingId participantId body id now).commit
  | .hostMute actorId targetId => do
    let actor ← actorRow db actorId
    (hostMute db actor targetId).commit
  | .hostMuteAll actorId => do
    let actor ← actorRow db actorId
    (hostMuteAll db actor).commit
  | .hostRemove actorId targetId now => do
    let actor ← actorRow db actorId
    (hostRemove db actor targetId now).commit
  | .hostEndMeeting actorId now => do
    let actor ← actorRow db actorId
    (hostEndMeeting db actor now).commit

section HostTools

variable {db db' : Db} {actorId targetId : ParticipantId} {actor : Participant} {now : DateTime}

theorem runOperation_hostMute {v : ParticipantView}
    (hactor : db.getParticipant actorId = some actor)
    (h : hostMute db actor targetId = .ok (v, db')) :
    runOperation db (.hostMute actorId targetId) = .ok db' :=
  Service.bind_eq_ok.mpr ⟨actor, actorRow_eq_ok.mpr hactor, Service.commit_eq_ok.mpr ⟨v, h⟩⟩

theorem runOperation_hostMuteAll {vs : List ParticipantView}
    (hactor : db.getParticipant actorId = some actor) (h : hostMuteAll db actor = .ok (vs, db')) :
    runOperation db (.hostMuteAll actorId) = .ok db' :=
  Service.bind_eq_ok.mpr ⟨actor, actorRow_eq_ok.mpr hactor, Service.commit_eq_ok.mpr ⟨vs, h⟩⟩

theorem runOperation_hostRemove {v : ParticipantView}
    (hactor : db.getParticipant actorId = some actor)
    (h : hostRemove db actor targetId now = .ok (v, db')) :
    runOperation db (.hostRemove actorId targetId now) = .ok db' :=
  Service.bind_eq_ok.mpr ⟨actor, actorRow_eq_ok.mpr hactor, Service.commit_eq_ok.mpr ⟨v, h⟩⟩

theorem runOperation_hostEndMeeting {v : MeetingView}
    (hactor : db.getParticipant actorId = some actor)
    (h : hostEndMeeting db actor now = .ok (v, db')) :
    runOperation db (.hostEndMeeting actorId now) = .ok db' :=
  Service.bind_eq_ok.mpr ⟨actor, actorRow_eq_ok.mpr hactor, Service.commit_eq_ok.mpr ⟨v, h⟩⟩

end HostTools

/-- Run an operation; a failed one leaves the committed database alone. -/
def Db.apply (db : Db) (op : Operation) : Db :=
  match runOperation db op with
  | .ok db' => db'
  | .error _ => db

theorem apply_of_ok {db db' : Db} {op : Operation} (h : runOperation db op = .ok db') :
    db.apply op = db' := by
  rw [Db.apply, h]

/-! ### What an operation reads and commits -/

/-- An operation that goes through, with what it read and what it commits. -/
inductive Commits (db : Db) : Operation → Db → Prop
  | signInGuest {displayName : String} {draws : SignInDraws} {u : User} {db' : Db}
      (h : createGuest db displayName draws = .ok (u, db')) :
      Commits db (.request (.signInGuest displayName draws)) db'
  | signInGoogle {claims : GoogleClaims} {draws : SignInDraws} {u : User} {db' : Db}
      (h : upsertGoogleUser db claims draws = .ok (u, db')) :
      Commits db (.request (.signInGoogle claims draws)) db'
  | updateProfile {userId : UserId} {name : Option String} {avatarUrl : Option (Option String)}
      {user u : User} {db' : Db} (huser : currentUser db userId = .ok user)
      (h : updateProfile db user name avatarUrl = .ok (u, db')) :
      Commits db (.request (.updateProfile userId name avatarUrl)) db'
  | savePreferences {userId : UserId} {muteOnJoin videoOffOnJoin : Option Bool} (user : User)
      (huser : currentUser db userId = .ok user) :
      Commits db (.request (.savePreferences userId muteOnJoin videoOffOnJoin))
        (upsertPreferences db user muteOnJoin videoOffOnJoin).2
  | createMeeting {userId : UserId} {req : MeetingCreate} {draws : CreateDraws} {now : DateTime}
      {host : User} {v : MeetingView} {db' : Db} (hhost : currentFullUser db userId = .ok host)
      (h : createMeeting db host req draws now = .ok (v, db')) :
      Commits db (.request (.createMeeting userId req draws now)) db'
  | updateMeeting {userId : UserId} {meetingNumber : String} {changes : MeetingChanges}
      {now : DateTime}
      (host : User) (m : Meeting) (topic : Option String) (start : Option DateTime)
      (duration : Option Int)
      (huser : currentFullUser db userId = .ok host)
      (hm : db.meetingByNumber meetingNumber = some m)
      (hhost : m.hostId = host.id) (hs : m.status = .scheduled) :
      Commits db (.request (.updateMeeting userId meetingNumber changes now))
        (db.updateMeetingRow m.id (·.edit changes topic start duration) fun m => m.edit_id ..)
  | cancelMeeting {userId : UserId} {meetingNumber : String} (host : User) (m : Meeting)
      (huser : currentFullUser db userId = .ok host)
      (hm : db.meetingByNumber meetingNumber = some m)
      (hhost : m.hostId = host.id) (hs : m.status = .scheduled) :
      Commits db (.request (.cancelMeeting userId meetingNumber))
        (db.updateMeetingRow m.id Meeting.cancel Meeting.cancel_id)
  | startMeeting {userId : UserId} {meetingNumber : String} {now : DateTime}
      (host : User) (m : Meeting)
      (huser : currentFullUser db userId = .ok host)
      (hm : db.meetingByNumber meetingNumber = some m)
      (hhost : m.hostId = host.id) (hs : .live ∈ allowedTargets m.status) :
      Commits db (.request (.startMeeting userId meetingNumber now))
        (db.updateMeetingRow m.id (·.goLive now) (Meeting.goLive_id · now))
  | endMeeting {userId : UserId} {meetingNumber : String} {now : DateTime}
      (host : User) (m : Meeting)
      (huser : currentFullUser db userId = .ok host)
      (hm : db.meetingByNumber meetingNumber = some m)
      (hhost : m.hostId = host.id) (hs : .ended ∈ allowedTargets m.status) :
      Commits db (.request (.endMeeting userId meetingNumber now))
        ((db.updateMeetingRow m.id (·.finish now) (Meeting.finish_id · now)).evictAll m.id now)
  | joinMeeting {userId : UserId} {meetingNumber : String} {req : JoinRequest} {draws : JoinDraws}
      {now : DateTime} {r : JoinResponse} {db' : Db} (user : User) (m : Meeting)
      (huser : currentUser db userId = .ok user)
      (hcheck : checkJoin db meetingNumber user req = .ok m)
      (h : commitJoin db m user req draws now = .ok (r, db')) :
      Commits db (.request (.joinMeeting userId meetingNumber req draws now)) db'
  | updateParticipant {userId : UserId} {participantId : ParticipantId}
      {changes : MediaPatch} (user : User)
      (p : Participant) (m : Meeting) (huser : currentUser db userId = .ok user)
      (hp : db.getParticipant participantId = some p) (hm : db.getMeeting p.meetingId = some m)
      (hallowed : p.userId = some user.id ∨ m.hostId = user.id) :
      Commits db (.request (.updateParticipant userId participantId changes))
        (db.updateRow p.id (·.applyMedia changes) (Participant.applyMedia_id · changes))
  | removeParticipant {userId : UserId} {participantId : ParticipantId}
      {now : DateTime} (user : User)
      (p : Participant) (m : Meeting) (huser : currentUser db userId = .ok user)
      (hp : db.getParticipant participantId = some p) (hm : db.getMeeting p.meetingId = some m)
      (hhost : m.hostId = user.id) :
      Commits db (.request (.removeParticipant userId participantId now)) (markLeft db p now).2
  | leaveMeeting {sessionId : SessionId} {now : DateTime} (p : Participant)
      (hp : db.participantBySession sessionId = some p) :
      Commits db (.leaveMeeting sessionId now) (markLeft db p now).2
  | bindConnection {participantId : ParticipantId} {connectionId : ConnectionId} :
      Commits db (.bindConnection participantId connectionId)
        (bindConnection db participantId connectionId)
  /-- The row of the participant is bound to another connection, or to none. -/
  | staleConnection {participantId : ParticipantId} {connectionId : ConnectionId} {now : DateTime}
      (hp : ((db.getParticipant participantId).filter fun p =>
        p.connectionId = some connectionId) = none) :
      Commits db (.releaseConnection participantId connectionId now) db
  | releaseConnection {participantId : ParticipantId} {connectionId : ConnectionId} {now : DateTime}
      (p : Participant) (hp : db.getParticipant participantId = some p)
      (hc : p.connectionId = some connectionId) :
      Commits db (.releaseConnection participantId connectionId now) (markLeft db p now).2
  | applyStateUpdate {participantId : ParticipantId} {changes : MediaPatch} (p : Participant)
      (hp : db.getParticipant participantId = some p) :
      Commits db (.applyStateUpdate participantId changes)
        (db.updateRow p.id (·.applyMedia changes) (Participant.applyMedia_id · changes))
  | postMessage {meetingId : MeetingId} {participantId : ParticipantId}
      {body id : String} {now : DateTime}
      {v : MessageView} {db' : Db}
      (h : postMessage db meetingId participantId body id now = .ok (v, db')) :
      Commits db (.postMessage meetingId participantId body id now) db'
  | hostMute {actorId targetId : ParticipantId} (actor t : Participant) (m : Meeting)
      (hactor : actorRow db actorId = .ok actor) (hm : requireHost db actor = .ok m)
      (ht : targetRow db actor targetId = .ok t) :
      Commits db (.hostMute actorId targetId)
        (db.updateRow t.id Participant.mute Participant.mute_id)
  | hostMuteAll {actorId : ParticipantId} (actor : Participant) (m : Meeting)
      (hactor : actorRow db actorId = .ok actor) (hm : requireHost db actor = .ok m) :
      Commits db (.hostMuteAll actorId)
        (db.updateRows (fun p => p.meetingId = actor.meetingId ∧ p.leftAt = none ∧ p.id ≠ actor.id)
          Participant.mute Participant.mute_id)
  | hostRemove {actorId targetId : ParticipantId} {now : DateTime}
      (actor t : Participant) (m : Meeting)
      (hactor : actorRow db actorId = .ok actor) (hm : requireHost db actor = .ok m)
      (ht : targetRow db actor targetId = .ok t) :
      Commits db (.hostRemove actorId targetId now) (markLeft db t now).2
  | hostEndMeeting {actorId : ParticipantId} {now : DateTime} (actor : Participant) (m : Meeting)
      (hactor : actorRow db actorId = .ok actor) (hm : requireHost db actor = .ok m) :
      Commits db (.hostEndMeeting actorId now)
        ((db.updateMeetingRow m.id (·.finish now) (Meeting.finish_id · now)).evictAll m.id now)

theorem runRequest_commits {db db' : Db} {r : Request} (h : runRequest db r = .ok db') :
    Commits db (.request r) db' := by
  cases r with
  | signInGuest displayName draws =>
    obtain ⟨u, h⟩ := Service.commit_eq_ok.mp h
    exact .signInGuest h
  | signInGoogle claims draws =>
    obtain ⟨u, h⟩ := Service.commit_eq_ok.mp h
    exact .signInGoogle h
  | updateProfile userId name avatarUrl =>
    obtain ⟨user, huser, h⟩ := Service.bind_eq_ok.mp h
    obtain ⟨u, h⟩ := Service.commit_eq_ok.mp h
    exact .updateProfile huser h
  | savePreferences userId muteOnJoin videoOffOnJoin =>
    obtain ⟨user, huser, h⟩ := Service.bind_eq_ok.mp h
    obtain rfl := Service.pure_eq_ok.mp h
    exact .savePreferences user huser
  | createMeeting userId req draws now =>
    obtain ⟨host, hhost, h⟩ := Service.bind_eq_ok.mp h
    obtain ⟨v, h⟩ := Service.commit_eq_ok.mp h
    exact .createMeeting hhost h
  | updateMeeting userId meetingNumber changes now =>
    obtain ⟨host, huser, h⟩ := Service.bind_eq_ok.mp h
    obtain ⟨v, h⟩ := Service.commit_eq_ok.mp h
    obtain ⟨m, topic, start, duration, hm, hhost, hs, rfl⟩ := updateMeeting_ok h
    exact .updateMeeting host m topic start duration huser hm hhost hs
  | cancelMeeting userId meetingNumber =>
    obtain ⟨host, huser, h⟩ := Service.bind_eq_ok.mp h
    obtain ⟨v, h⟩ := Service.commit_eq_ok.mp h
    obtain ⟨m, hm, hhost, hs, -, rfl⟩ := cancelMeeting_eq_ok.mp h
    exact .cancelMeeting host m huser hm hhost hs
  | startMeeting userId meetingNumber now =>
    obtain ⟨host, huser, h⟩ := Service.bind_eq_ok.mp h
    obtain ⟨v, h⟩ := Service.commit_eq_ok.mp h
    obtain ⟨m, hm, hhost, hs, rfl⟩ := startMeeting_ok h
    exact .startMeeting host m huser hm hhost hs
  | endMeeting userId meetingNumber now =>
    obtain ⟨host, huser, h⟩ := Service.bind_eq_ok.mp h
    obtain ⟨v, h⟩ := Service.commit_eq_ok.mp h
    obtain ⟨m, hm, hhost, hs, rfl⟩ := endMeeting_ok h
    exact .endMeeting host m huser hm hhost hs
  | joinMeeting userId meetingNumber req draws now =>
    obtain ⟨user, huser, h⟩ := Service.bind_eq_ok.mp h
    obtain ⟨v, h⟩ := Service.commit_eq_ok.mp h
    obtain ⟨m, hcheck, hcommit⟩ := joinMeeting_ok h
    exact .joinMeeting user m huser hcheck hcommit
  | updateParticipant userId participantId changes =>
    obtain ⟨user, huser, h⟩ := Service.bind_eq_ok.mp h
    obtain ⟨v, h⟩ := Service.commit_eq_ok.mp h
    obtain ⟨p, m, hp, hm, hallowed, rfl⟩ := updateParticipant_ok h
    exact .updateParticipant user p m huser hp hm hallowed
  | removeParticipant userId participantId now =>
    obtain ⟨user, huser, h⟩ := Service.bind_eq_ok.mp h
    obtain ⟨v, h⟩ := Service.commit_eq_ok.mp h
    obtain ⟨p, m, hp, hm, hhost, -, hleft⟩ := removeParticipant_eq_ok.mp h
    obtain ⟨-, rfl⟩ := Prod.mk.inj hleft
    exact .removeParticipant user p m huser hp hm hhost

/-- **What an operation reads and commits.** -/
theorem runOperation_commits {db db' : Db} {op : Operation} (h : runOperation db op = .ok db') :
    Commits db op db' := by
  cases op with
  | request r => exact runRequest_commits h
  | leaveMeeting sessionId now =>
    obtain ⟨v, h⟩ := Service.commit_eq_ok.mp h
    obtain ⟨p, hp, hleft⟩ := leaveMeeting_eq_ok.mp h
    obtain ⟨-, rfl⟩ := Prod.mk.inj hleft
    exact .leaveMeeting p hp
  | bindConnection participantId connectionId =>
    obtain rfl := Except.ok.inj h
    exact .bindConnection
  | releaseConnection participantId connectionId now =>
    obtain rfl := Except.ok.inj h
    rw [releaseConnection_eq]
    split
    · next hp => exact .staleConnection hp
    · next p hp =>
      obtain ⟨hp, hc⟩ := Option.filter_eq_some_iff.mp hp
      exact .releaseConnection p hp (of_decide_eq_true hc)
  | applyStateUpdate participantId changes =>
    obtain ⟨v, h⟩ := Service.commit_eq_ok.mp h
    obtain ⟨p, hp, -, rfl⟩ := applyStateUpdate_eq_ok.mp h
    exact .applyStateUpdate p hp
  | postMessage meetingId participantId body id now =>
    obtain ⟨v, h⟩ := Service.commit_eq_ok.mp h
    exact .postMessage h
  | hostMute actorId targetId =>
    obtain ⟨actor, hactor, h⟩ := Service.bind_eq_ok.mp h
    obtain ⟨v, h⟩ := Service.commit_eq_ok.mp h
    obtain ⟨⟨m, hm⟩, t, ht, -, rfl⟩ := hostMute_eq_ok.mp h
    exact .hostMute actor t m hactor hm ht
  | hostMuteAll actorId =>
    obtain ⟨actor, hactor, h⟩ := Service.bind_eq_ok.mp h
    obtain ⟨v, h⟩ := Service.commit_eq_ok.mp h
    obtain ⟨⟨m, hm⟩, -, rfl⟩ := hostMuteAll_eq_ok.mp h
    exact .hostMuteAll actor m hactor hm
  | hostRemove actorId targetId now =>
    obtain ⟨actor, hactor, h⟩ := Service.bind_eq_ok.mp h
    obtain ⟨v, h⟩ := Service.commit_eq_ok.mp h
    obtain ⟨⟨m, hm⟩, t, ht, -, hleft⟩ := hostRemove_eq_ok.mp h
    obtain ⟨-, rfl⟩ := Prod.mk.inj hleft
    exact .hostRemove actor t m hactor hm ht
  | hostEndMeeting actorId now =>
    obtain ⟨actor, hactor, h⟩ := Service.bind_eq_ok.mp h
    obtain ⟨v, h⟩ := Service.commit_eq_ok.mp h
    obtain ⟨m, hm, -, rfl⟩ := hostEndMeeting_eq_ok.mp h
    exact .hostEndMeeting actor m hactor hm

/-! ### What an operation can do -/

/-- What a participant row may become: its identity is fixed, and a closed row
stays closed with its stamp. -/
structure Participant.Evolves (p q : Participant) : Prop where
  id : q.id = p.id
  meetingId : q.meetingId = p.meetingId
  userId : q.userId = p.userId
  displayName : q.displayName = p.displayName
  role : q.role = p.role
  sessionId : q.sessionId = p.sessionId
  joinedAt : q.joinedAt = p.joinedAt
  leftAt : p.leftAt ≠ none → q.leftAt = p.leftAt

/-- The effect of a committed operation on meetings and participants. -/
inductive Change (db : Db) : Operation → Db → Prop
  /-- Users, preferences, invitees and messages only. -/
  | aside {op : Operation} {db' : Db} (h : db.SameRooms db') : Change db op db'
  | created {op : Operation} {db' : Db} (m : Meeting) (hid : m.id ∉ db.meetings.keys)
      (hs : m.status = .live ∨ m.status = .scheduled)
      (hm : db'.meetings = db.meetings.insert m hid) (hp : db'.participants = db.participants) :
      Change db op db'
  /-- An edit of a meeting row that leaves its id, its number and its status alone. -/
  | edited {op : Operation} (id : MeetingId) (f : Meeting → Meeting) (hf : ∀ m, (f m).id = m.id)
      (hn : ∀ m, (f m).meetingNumber = m.meetingNumber) (hs : ∀ m, (f m).status = m.status) :
      Change db op (db.updateMeetingRow id f hf)
  | cancelled {userId : UserId} {meetingNumber : String} (m : Meeting) (hm : m ∈ db.meetings)
      (hs : m.status = .scheduled) :
      Change db (.request (.cancelMeeting userId meetingNumber))
        (db.updateMeetingRow m.id Meeting.cancel Meeting.cancel_id)
  | started {op : Operation} (m : Meeting) (now : DateTime) (hm : m ∈ db.meetings)
      (hs : .live ∈ allowedTargets m.status) :
      Change db op (db.updateMeetingRow m.id (·.goLive now) (Meeting.goLive_id · now))
  | ended {op : Operation} (m : Meeting) (now : DateTime) (hm : m ∈ db.meetings) :
      Change db op
        ((db.updateMeetingRow m.id (·.finish now) (Meeting.finish_id · now)).evictAll m.id now)
  | joined {op : Operation} {db' : Db} (m : Meeting) (user : User) (req : JoinRequest)
      (draws : JoinDraws) (now : DateTime) (hm : m ∈ db.meetings)
      (hs : m.status ≠ .ended ∧ m.status ≠ .cancelled)
      (hlt : activeCount db m.id < maxMeshParticipants)
      (hid : (joinRow db m user req draws now).id ∉ db.participants.keys)
      (hsession : ∀ q ∈ db.participants, q.sessionId ≠ draws.sessionId)
      (hp : db'.participants = db.participants.insert (joinRow db m user req draws now) hid)
      (hmeetings : db'.meetings = (db.welcomeHost m user now).meetings) : Change db op db'
  /-- Media flags of some rows. -/
  | media {op : Operation} (q : Participant → Prop) [DecidablePred q]
      (f : Participant → Participant)
      (hf : ∀ p, (f p).id = p.id) (he : ∀ p : Participant, p.Evolves (f p))
      (hl : ∀ p, (f p).leftAt = p.leftAt) (hc : ∀ p, (f p).connectionId = p.connectionId) :
      Change db op (db.updateRows q f hf)
  | closed {op : Operation} (p : Participant) (now : DateTime) (hp : p ∈ db.participants) :
      Change db op (db.updateRow p.id (·.markLeft now) (Participant.markLeft_id · now))
  | bound {participantId : ParticipantId} {connectionId : ConnectionId} :
      Change db (.bindConnection participantId connectionId)
        (bindConnection db participantId connectionId)

/-- A row whose media flags alone change. -/
theorem Participant.evolves_applyMedia (p : Participant) (patch : MediaPatch) :
    p.Evolves (p.applyMedia patch) :=
  ⟨rfl, rfl, rfl, rfl, rfl, rfl, rfl, fun _ => rfl⟩

theorem Participant.evolves_mute (p : Participant) : p.Evolves p.mute :=
  ⟨rfl, rfl, rfl, rfl, rfl, rfl, rfl, fun _ => rfl⟩

theorem Participant.evolves_markLeft (p : Participant) (now : DateTime) :
    p.Evolves (p.markLeft now) := by
  refine ⟨rfl, rfl, rfl, rfl, rfl, rfl, rfl, ?_⟩
  intro hleft
  obtain ⟨t, ht⟩ := Option.ne_none_iff_exists'.mp hleft
  simp [Participant.markLeft, ht]

theorem Participant.Evolves.refl (p : Participant) : p.Evolves p :=
  ⟨rfl, rfl, rfl, rfl, rfl, rfl, rfl, fun _ => rfl⟩

theorem getParticipant_mem {db : Db} {id : ParticipantId} {p : Participant}
    (h : db.getParticipant id = some p) : p ∈ db.participants :=
  Keyed.mem_of_find? h

theorem participantBySession_mem {db : Db} {sessionId : SessionId} {p : Participant}
    (h : db.participantBySession sessionId = some p) : p ∈ db.participants :=
  List.mem_of_find?_eq_some h

theorem getMeeting_mem {db : Db} {id : MeetingId} {m : Meeting} (h : db.getMeeting id = some m) :
    m ∈ db.meetings :=
  Keyed.mem_of_find? h

/-- **What an operation can do.**  A committed operation has one of the effects
listed by `Change`. -/
theorem runOperation_change {db db' : Db} {op : Operation} (h : runOperation db op = .ok db') :
    Change db op db' := by
  cases runOperation_commits h with
  | signInGuest h => exact .aside (createGuest_ok h)
  | signInGoogle h => exact .aside (upsertGoogleUser_ok h)
  | updateProfile huser h => exact .aside (updateProfile_ok h)
  | savePreferences user => exact .aside (upsertPreferences_sameRooms db user ..)
  | createMeeting hhost h =>
    obtain ⟨topic, start, duration, k, number, db₁, -, hins, hsame⟩ := createMeeting_ok h
    obtain ⟨hid, rfl, -⟩ := Db.insertMeeting_ok hins
    exact .created _ hid (newMeeting_status ..) hsame.meetings hsame.participants
  | updateMeeting => exact .edited _ _ _ (fun _ => rfl) fun _ => rfl
  | cancelMeeting host m huser hm hhost hs => exact .cancelled m (mem_of_meetingByNumber hm) hs
  | @startMeeting _ _ now host m huser hm hhost hs =>
    exact .started m now (mem_of_meetingByNumber hm) hs
  | @endMeeting _ _ now host m huser hm => exact .ended m now (mem_of_meetingByNumber hm)
  | @joinMeeting _ _ req draws now _ _ user m huser hcheck h =>
    obtain ⟨hm, hs, -, hlt⟩ := checkJoin_eq_ok.mp hcheck
    obtain ⟨hid, hp, hmeetings, hsession⟩ := commitJoin_ok h
    exact .joined m user req draws now (mem_of_meetingByNumber hm) hs hlt hid hsession hp hmeetings
  | @updateParticipant _ _ changes user p =>
    exact .media (fun q => q.id = p.id) (·.applyMedia changes)
      (Participant.applyMedia_id · changes) (·.evolves_applyMedia changes)
      (fun _ => rfl) fun _ => rfl
  | @removeParticipant _ _ now user p m huser hp => exact .closed p now (getParticipant_mem hp)
  | @leaveMeeting _ now p hp => exact .closed p now (participantBySession_mem hp)
  | bindConnection => exact .bound
  | staleConnection => exact .aside (Db.SameRooms.refl db)
  | @releaseConnection _ _ now p hp => exact .closed p now (getParticipant_mem hp)
  | @applyStateUpdate _ changes p =>
    exact .media (fun q => q.id = p.id) (·.applyMedia changes)
      (Participant.applyMedia_id · changes) (·.evolves_applyMedia changes)
      (fun _ => rfl) fun _ => rfl
  | postMessage h =>
    obtain ⟨-, p, -, -, hins, -⟩ := postMessage_eq_ok.mp h
    exact .aside (Db.insertMessage_ok hins)
  | hostMute actor t =>
    exact .media (fun q => q.id = t.id) Participant.mute Participant.mute_id (·.evolves_mute)
      (fun _ => rfl) fun _ => rfl
  | hostMuteAll =>
    exact .media _ Participant.mute Participant.mute_id (·.evolves_mute) (fun _ => rfl) fun _ => rfl
  | @hostRemove _ _ now actor t m hactor hm ht =>
    exact .closed t now (getParticipant_mem (targetRow_eq_ok.mp ht).1)
  | @hostEndMeeting _ now actor m hactor hm =>
    exact .ended m now (getMeeting_mem (requireHost_eq_ok.mp hm).1)

/-- An operation that fails leaves the database alone, so every operation has
one of the effects of `Change`. -/
theorem apply_change (db : Db) (op : Operation) :
    db.apply op = db ∨ Change db op (db.apply op) := by
  cases h : runOperation db op with
  | error e => exact .inl (by rw [Db.apply, h])
  | ok db' =>
    rw [apply_of_ok h]
    exact .inr (runOperation_change h)

end ZoomClone
