/-
Who is shown the passcode and the invite token of a meeting.

Ten calls end in `serialize_meeting`, and each establishes its precondition, that
the requester is the host or an active participant, in a way of its own.

* `entitled_of_checked` — all but two of them answer the right people;
* `credentials_iff` — a call answers the right people exactly when `Entitles` holds.
-/
import ZoomClone.Listing
import ZoomClone.Operations
import ZoomClone.Queries
import ZoomClone.Router

namespace ZoomClone

/-- What a call answers: to whom, in which state of the database, and the meetings
it shows in full. -/
structure Answer where
  requester : Option UserId
  db : Db
  meetings : List MeetingView

/-- The requester hosts the meeting, or is in it at this moment. -/
def EntitledTo (db : Db) (requester : Option UserId) (m : Meeting) : Prop :=
  requester = some m.hostId ∨
    ∃ p ∈ db.participants, p.meetingId = m.id ∧ p.userId = requester ∧ p.leftAt = none

instance (db : Db) (requester : Option UserId) (m : Meeting) :
    Decidable (EntitledTo db requester m) :=
  inferInstanceAs (Decidable (_ ∨ ∃ p ∈ db.participants.rows, _))

/-- A call whose result contains a passcode and an invite token. -/
inductive CredentialCall where
  | getDetail (userId : UserId) (meetingNumber : String)
  | listForHost (userId : UserId) (filter : String) (date : Option String) (limit : Int)
      (cursor : Option String) (now : DateTime)
  | createMeeting (userId : UserId) (req : MeetingCreate) (draws : CreateDraws) (now : DateTime)
  | updateMeeting (userId : UserId) (meetingNumber : String) (changes : MeetingChanges)
      (now : DateTime)
  | cancelMeeting (userId : UserId) (meetingNumber : String)
  | startMeeting (userId : UserId) (meetingNumber : String) (now : DateTime)
  | endMeeting (userId : UserId) (meetingNumber : String) (now : DateTime)
  | joinMeeting (userId : UserId) (meetingNumber : String) (req : JoinRequest) (draws : JoinDraws)
      (now : DateTime)
  /-- A socket: other handlers may run between `authenticate` and the snapshot, while
  the handshake is awaited. -/
  | roomSnapshot (meetingNumber : String) (sessionId : SessionId) (connectionId : ConnectionId)
      (meanwhile : List Operation)
  | hostEndMeeting (actorId : ParticipantId) (now : DateTime)

/-- The answer to a request of a user. -/
def answerWith (userId : UserId) (x : Service (MeetingView × Db)) : Service Answer :=
  x.map fun r => ⟨some userId, r.2, [r.1]⟩

namespace CredentialCall

def answer (db : Db) : CredentialCall → Service Answer
  | getDetail userId meetingNumber => do
    let user ← currentUser db userId
    let view ← ZoomClone.getDetail db meetingNumber user
    return ⟨some user.id, db, [view]⟩
  | listForHost userId filter date limit cursor now => do
    let user ← currentFullUser db userId
    let page ← ZoomClone.listForHost db user filter date limit cursor now
    return ⟨some user.id, db, page.items⟩
  | createMeeting userId req draws now => do
    let user ← currentFullUser db userId
    answerWith user.id (ZoomClone.createMeeting db user req draws now)
  | updateMeeting userId meetingNumber changes now => do
    let user ← currentFullUser db userId
    answerWith user.id (ZoomClone.updateMeeting db meetingNumber user changes now)
  | cancelMeeting userId meetingNumber => do
    let user ← currentFullUser db userId
    answerWith user.id (ZoomClone.cancelMeeting db meetingNumber user)
  | startMeeting userId meetingNumber now => do
    let user ← currentFullUser db userId
    answerWith user.id (ZoomClone.startMeeting db meetingNumber user now)
  | endMeeting userId meetingNumber now => do
    let user ← currentFullUser db userId
    answerWith user.id (ZoomClone.endMeeting db meetingNumber user now)
  | joinMeeting userId meetingNumber req draws now => do
    let user ← currentUser db userId
    let (response, db) ← ZoomClone.joinMeeting db meetingNumber user req draws now
    return ⟨some user.id, db, [response.meeting]⟩
  | roomSnapshot meetingNumber sessionId connectionId meanwhile => do
    let (meeting, participant) ← authenticate db meetingNumber sessionId
    let db := meanwhile.foldl Db.apply db
    assertRoomHasSpace db meeting.id
    let db := bindConnection db participant.id connectionId
    let you := (db.getParticipant participant.id).getD participant
    return ⟨participant.userId, db, [(ZoomClone.roomSnapshot db meeting you).meeting]⟩
  | hostEndMeeting actorId now => do
    let actor ← actorRow db actorId
    let (view, db) ← ZoomClone.hostEndMeeting db actor now
    return ⟨actor.userId, db, [view]⟩

/-- Whoever is answered is entitled to what the answer shows. -/
def AnswersEntitled (db : Db) (call : CredentialCall) : Prop :=
  ∀ a, call.answer db = .ok a → ∀ v ∈ a.meetings, EntitledTo a.db a.requester v.meeting

/-- The condition on the two calls that look at a row without looking whether it is
open.  A viewer who has a row in the meeting of another host has an open one; and the
user of an accepted socket is still in the meeting, or hosts it, once the handshake is
over. -/
def Entitles (db : Db) : CredentialCall → Prop
  | getDetail userId meetingNumber =>
    ∀ user, db.getUser userId = some user → ∀ m, db.meetingByNumber meetingNumber = some m →
      db.hasJoined m user → EntitledTo db (some user.id) m
  | roomSnapshot meetingNumber sessionId _ meanwhile =>
    ∀ m p, authenticate db meetingNumber sessionId = .ok (m, p) →
      assertRoomHasSpace (meanwhile.foldl Db.apply db) m.id = .ok () →
        EntitledTo (meanwhile.foldl Db.apply db) p.userId m
  | _ => True

end CredentialCall

/-! ### The calls of a host -/

theorem answerWith_eq_ok {userId : UserId} {x : Service (MeetingView × Db)} {a : Answer} :
    answerWith userId x = .ok a ↔ ∃ v db, x = .ok (v, db) ∧ a = ⟨some userId, db, [v]⟩ := by
  cases x with
  | error e => simp [answerWith, Except.map]
  | ok r =>
    obtain ⟨v, db⟩ := r
    simp [answerWith, Except.map, eq_comm]

section Host

variable {db db' : Db} {host : User} {v : MeetingView} {meetingNumber : String} {now : DateTime}

theorem createMeeting_hostId {req : MeetingCreate} {draws : CreateDraws}
    (h : createMeeting db host req draws now = .ok (v, db')) : v.meeting.hostId = host.id := by
  simp only [createMeeting, Service.bind_eq_ok, Service.pure_eq_ok] at h
  obtain ⟨topic, -, start, -, ⟨duration, clamped⟩, -, -, -, ⟨m, db₁⟩, hm, db₂, -, h⟩ := h
  obtain ⟨rfl, -⟩ := Prod.mk.inj h
  obtain ⟨⟨k, number, -, rfl⟩, -⟩ := insertNewMeeting_ok hm
  rfl

theorem updateMeeting_hostId {changes : MeetingChanges}
    (h : updateMeeting db meetingNumber host changes now = .ok (v, db')) :
    v.meeting.hostId = host.id := by
  simp only [updateMeeting, Service.bind_eq_ok, Service.pure_eq_ok, requireMeetingHost,
    Service.require_eq_ok] at h
  obtain ⟨m, -, -, hhost, -, -, topic, -, start, -, duration, -, -, -, h⟩ := h
  obtain ⟨rfl, -⟩ := Prod.mk.inj h
  exact hhost

theorem cancelMeeting_hostId (h : cancelMeeting db meetingNumber host = .ok (v, db')) :
    v.meeting.hostId = host.id := by
  obtain ⟨m, -, hhost, -, rfl, -⟩ := cancelMeeting_eq_ok.mp h
  exact hhost

theorem startMeeting_hostId (h : startMeeting db meetingNumber host now = .ok (v, db')) :
    v.meeting.hostId = host.id := by
  simp only [startMeeting, Service.bind_eq_ok, Service.pure_eq_ok, requireMeetingHost,
    Service.require_eq_ok] at h
  obtain ⟨m, -, -, hhost, -, -, h⟩ := h
  obtain ⟨rfl, -⟩ := Prod.mk.inj h
  exact hhost

theorem endMeeting_hostId (h : endMeeting db meetingNumber host now = .ok (v, db')) :
    v.meeting.hostId = host.id := by
  simp only [endMeeting, Service.bind_eq_ok, Service.pure_eq_ok, requireMeetingHost,
    Service.require_eq_ok] at h
  obtain ⟨m, -, -, hhost, -, -, h⟩ := h
  obtain ⟨rfl, -⟩ := Prod.mk.inj h
  exact hhost

theorem hostId_of_mem_hostRows {f : ListFilter} {after : Meeting → Bool} {m : Meeting}
    (h : m ∈ hostRows db host f now after) : m.hostId = host.id :=
  (mem_hostRows.mp h).2.1

theorem listForHost_hostId {filter : String} {date : Option String} {limit : Int}
    {cursor : Option String} {page : MeetingPage}
    (h : listForHost db host filter date limit cursor now = .ok page) (hv : v ∈ page.items) :
    v.meeting.hostId = host.id := by
  obtain ⟨f, -, after, -, h⟩ := by
    simpa only [listForHost, Service.bind_eq_ok, Service.pure_eq_ok] using h
  subst h
  obtain ⟨m, hm, rfl⟩ := List.mem_map.mp hv
  exact hostId_of_mem_hostRows (List.mem_of_mem_take (List.mem_of_mem_take hm))

end Host

/-! ### The calls that look at a row -/

/-- Only the socket of a row changes when it is bound. -/
theorem entitledTo_bindConnection {db : Db} {participantId : ParticipantId} {c : ConnectionId}
    {requester : Option UserId} {m : Meeting} :
    EntitledTo (bindConnection db participantId c) requester m ↔ EntitledTo db requester m := by
  have hrow (p : Participant) : let q := if p.id = participantId then p.bindTo c else p
      q.meetingId = p.meetingId ∧ q.userId = p.userId ∧ q.leftAt = p.leftAt := by
    dsimp only
    split <;> exact ⟨rfl, rfl, rfl⟩
  -- the rows of the two databases correspond one to one
  refine or_congr_right ⟨?_, ?_⟩
  · rintro ⟨q, hq, hmeeting, huser, hopen⟩
    obtain ⟨p, hp, rfl⟩ := Db.mem_updateRow.mp hq
    obtain ⟨hm, hu, hl⟩ := hrow p
    exact ⟨p, hp, hm.symm.trans hmeeting, hu.symm.trans huser, hl.symm.trans hopen⟩
  · rintro ⟨p, hp, hmeeting, huser, hopen⟩
    obtain ⟨hm, hu, hl⟩ := hrow p
    exact ⟨_, Db.mem_updateRow.mpr ⟨p, hp, rfl⟩, hm.trans hmeeting, hu.trans huser, hl.trans hopen⟩

/-- The row that a join inserts is open. -/
theorem joinMeeting_entitled {db db' : Db} {meetingNumber : String}
    {user : User} {req : JoinRequest}
    {draws : JoinDraws} {now : DateTime} {r : JoinResponse}
    (h : joinMeeting db meetingNumber user req draws now = .ok (r, db')) :
    EntitledTo db' (some user.id) r.meeting.meeting := by
  obtain ⟨m, -, hcommit⟩ := joinMeeting_ok h
  obtain ⟨hid, hrows, -⟩ := commitJoin_ok hcommit
  obtain ⟨db₁, -, hr⟩ := Service.bind_eq_ok.mp hcommit
  obtain ⟨rfl, rfl⟩ := Prod.mk.inj (Service.pure_eq_ok.mp hr)
  refine .inr ⟨joinRow db m user req draws now, ?_, ?_, rfl, rfl⟩
  · rw [hrows]
    exact (Keyed.mem_insert (h := hid)).mpr (.inr rfl)
  · show m.id = ((db₁.getMeeting m.id).getD m).id
    cases hm : db₁.getMeeting m.id with
    | none => rfl
    | some m' => exact (Keyed.key_of_find? hm).symm

theorem getDetail_eq_ok {db : Db} {meetingNumber : String} {viewer : User} {v : MeetingView} :
    getDetail db meetingNumber viewer = .ok v ↔ ∃ m, db.meetingByNumber meetingNumber = some m ∧
      (m.hostId = viewer.id ∨ db.hasJoined m viewer) ∧ serializeMeeting db m = v := by
  simp only [getDetail, Service.bind_eq_ok, Service.pure_eq_ok,
    getByNumber_eq_ok, Service.require_eq_ok]
  constructor
  · rintro ⟨m, hm, -, hmember, hv⟩
    exact ⟨m, hm, hmember, hv⟩
  · rintro ⟨m, hm, hmember, hv⟩
    exact ⟨m, hm, (), hmember, hv⟩

theorem getDetail_entitled_iff (db : Db) (userId : UserId) (meetingNumber : String) :
    CredentialCall.AnswersEntitled db (.getDetail userId meetingNumber) ↔
      CredentialCall.Entitles db (.getDetail userId meetingNumber) := by
  simp only [CredentialCall.AnswersEntitled, CredentialCall.answer, CredentialCall.Entitles,
    Service.bind_eq_ok, Service.pure_eq_ok, currentUser_eq_ok, getDetail_eq_ok]
  constructor
  · intro h user huser m hm hjoined
    exact h _ ⟨user, huser, _, ⟨m, hm, .inr hjoined, rfl⟩, rfl⟩ _ (List.mem_singleton_self _)
  · rintro h a ⟨user, huser, v, ⟨m, hm, hmember, rfl⟩, rfl⟩ w hw
    obtain rfl := List.mem_singleton.mp hw
    rcases hmember with hhost | hjoined
    · exact .inl (congrArg some hhost.symm)
    · exact h user huser m hm hjoined

theorem roomSnapshot_entitled_iff (db : Db) (meetingNumber : String) (sessionId : SessionId)
    (c : ConnectionId) (meanwhile : List Operation) :
    CredentialCall.AnswersEntitled db (.roomSnapshot meetingNumber sessionId c meanwhile) ↔
      CredentialCall.Entitles db (.roomSnapshot meetingNumber sessionId c meanwhile) := by
  simp only [CredentialCall.AnswersEntitled, CredentialCall.answer, CredentialCall.Entitles,
    Service.bind_eq_ok, Service.pure_eq_ok]
  constructor
  · intro h m p hauth hspace
    have hentitled := h _ ⟨(m, p), hauth, (), hspace, rfl⟩ _ (List.mem_singleton_self _)
    exact entitledTo_bindConnection.mp hentitled
  · rintro h a ⟨⟨m, p⟩, hauth, ⟨⟩, hspace, rfl⟩ v hv
    obtain rfl := List.mem_singleton.mp hv
    exact entitledTo_bindConnection.mpr (h m p hauth hspace)

/-- The answer to a socket is what the server sends it as `room.state`. -/
theorem roomSnapshot_answer {s : Server} {db : Db} {meetingNumber : String} {sessionId : SessionId}
    {c : ConnectionId} {meanwhile : List Operation} {m : Meeting} {p : Participant}
    (hauth : authenticate db meetingNumber sessionId = .ok (m, p))
    (hdb : s.db = meanwhile.foldl Db.apply db)
    (haccepted : (acceptSocket s m p c).2.2 ≠ none) :
    ∃ snapshot recipient, CredentialCall.answer db
      (.roomSnapshot meetingNumber sessionId c meanwhile) =
        .ok ⟨p.userId, (acceptSocket s m p c).1.db, [snapshot.meeting]⟩ ∧
      (acceptSocket s m p c).2.1 = [⟨⟨c, p.id, m.id⟩,
        .frame { body := .roomState snapshot, recipient }⟩] := by
  revert haccepted
  rw [acceptSocket, hdb]
  cases hspace : assertRoomHasSpace (meanwhile.foldl Db.apply db) m.id with
  | error e => exact fun h => absurd rfl h
  | ok u =>
    intro _
    refine ⟨_, _, ?_, rfl⟩
    simp only [CredentialCall.answer, hauth, bind, Except.bind, hspace]
    rfl

/-! ### Every call -/

/-- A request of a host shows meetings of that host. -/
theorem entitled_of_answerWith {db : Db} {userId : UserId} {x : User → Service (MeetingView × Db)}
    (hhost : ∀ user v db', x user = .ok (v, db') → v.meeting.hostId = user.id) {a : Answer}
    (h : (do let user ← currentFullUser db userId; answerWith user.id (x user)) = .ok a) :
    ∀ v ∈ a.meetings, EntitledTo a.db a.requester v.meeting := by
  obtain ⟨user, -, h⟩ := Service.bind_eq_ok.mp h
  obtain ⟨v, db', hx, rfl⟩ := answerWith_eq_ok.mp h
  intro w hw
  obtain rfl := List.mem_singleton.mp hw
  exact .inl (congrArg some (hhost user w db' hx).symm)

/-- The calls that establish the precondition by themselves. -/
theorem entitled_of_checked {db : Db} {call : CredentialCall}
    (hdetail : ∀ userId number, call ≠ .getDetail userId number)
    (hsocket : ∀ number sessionId c ops, call ≠ .roomSnapshot number sessionId c ops) :
    call.AnswersEntitled db := by
  intro a ha
  cases call with
  | getDetail userId number => exact absurd rfl (hdetail userId number)
  | listForHost userId filter date limit cursor now =>
    simp only [CredentialCall.answer, Service.bind_eq_ok, Service.pure_eq_ok] at ha
    obtain ⟨user, -, page, hpage, rfl⟩ := ha
    intro v hv
    exact .inl (congrArg some (listForHost_hostId hpage hv).symm)
  | createMeeting userId req draws now =>
    exact entitled_of_answerWith (fun _ _ _ => createMeeting_hostId) ha
  | updateMeeting userId number changes now =>
    exact entitled_of_answerWith (fun _ _ _ => updateMeeting_hostId) ha
  | cancelMeeting userId number =>
    exact entitled_of_answerWith (fun _ _ _ => cancelMeeting_hostId) ha
  | startMeeting userId number now =>
    exact entitled_of_answerWith (fun _ _ _ => startMeeting_hostId) ha
  | endMeeting userId number now => exact entitled_of_answerWith (fun _ _ _ => endMeeting_hostId) ha
  | joinMeeting userId number req draws now =>
    simp only [CredentialCall.answer, Service.bind_eq_ok, Service.pure_eq_ok] at ha
    obtain ⟨user, -, ⟨r, db'⟩, hr, rfl⟩ := ha
    intro v hv
    obtain rfl := List.mem_singleton.mp hv
    exact joinMeeting_entitled hr
  | roomSnapshot number sessionId c ops => exact absurd rfl (hsocket number sessionId c ops)
  | hostEndMeeting actorId now =>
    simp only [CredentialCall.answer, Service.bind_eq_ok, Service.pure_eq_ok] at ha
    obtain ⟨actor, -, ⟨v, db'⟩, hr, rfl⟩ := ha
    intro w hw
    obtain rfl := List.mem_singleton.mp hw
    obtain ⟨m, hm, rfl, -⟩ := hostEndMeeting_eq_ok.mp hr
    obtain ⟨-, -, hhost⟩ := requireHost_eq_ok.mp hm
    exact .inl hhost.symm

/-- **Entry credentials.**  In every state, a call answers the host and active
participants only, exactly when `Entitles` holds of it. -/
theorem credentials_iff (db : Db) (call : CredentialCall) :
    call.AnswersEntitled db ↔ call.Entitles db := by
  cases call with
  | getDetail userId number => exact getDetail_entitled_iff db userId number
  | roomSnapshot number sessionId c ops => exact roomSnapshot_entitled_iff db number sessionId c ops
  | _ =>
    refine iff_of_true (entitled_of_checked ?_ ?_) trivial
    · rintro userId number ⟨⟩
    · rintro number sessionId c ops ⟨⟩

/-- A guest joins with the invite token, and the host removes that guest. -/
def removedGuest : List Operation :=
  [.request (.signInGoogle { sub := "g-host", email := some "ada@example.com" }
      ⟨"host", "", fun _ => (0, 1)⟩),
   .request (.signInGuest "Bob" ⟨"guest", "b0b", fun _ => (0, 2)⟩),
   .request (.createMeeting "host" {}
      { passcode := "hRtz4K", inviteToken := "tok", ids := fun _ => "m"
        numbers := fun _ => (0, 3), inviteeIds := fun _ => "" } 10),
   .request (.joinMeeting "guest" "10000000003" { inviteToken := some "tok" }
      { id := "1", sessionId := "s1" } 20),
   .request (.removeParticipant "host" "1" 30)]

/-- The detail view still shows the passcode to the guest. -/
theorem removed_reads_passcode :
    ¬ (CredentialCall.getDetail "guest" "10000000003").AnswersEntitled
      (removedGuest.foldl Db.apply .empty) := by
  intro h
  have hremoved : ((removedGuest.foldl Db.apply .empty).getUser "guest").any fun user =>
      ((removedGuest.foldl Db.apply .empty).meetingByNumber "10000000003").any fun m =>
        (removedGuest.foldl Db.apply .empty).hasJoined m user &&
          !decide (EntitledTo (removedGuest.foldl Db.apply .empty) (some user.id) m) := by
    decide +kernel
  obtain ⟨user, huser, hmeeting⟩ := Option.any_eq_true _ _ |>.mp hremoved
  obtain ⟨m, hm, hclosed⟩ := Option.any_eq_true _ _ |>.mp hmeeting
  simp only [Bool.and_eq_true, Bool.not_eq_true', decide_eq_false_iff_not] at hclosed
  exact hclosed.2 ((getDetail_entitled_iff _ _ _).mp h user huser m hm hclosed.1)

end ZoomClone
