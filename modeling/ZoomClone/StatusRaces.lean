/-
Status changes that overlap.

`start_meeting`, `cancel_meeting`, `end_meeting` and a host's `join_meeting` read
and check a meeting first and write its status later.  Commits are serialized,
but nothing re-checks the earlier read, so here each request is two events: a
check and a commit that writes the columns the request assigns.

The state keeps the books of every meeting: how often it was taken live and how
often it was cancelled, and what these numbers were when a pending request made
its check.  `statusRaces_iff` reads them: the changes stay legal exactly when no
cancellation commits on a meeting that was taken live since its check, and none
is taken live that was cancelled since the check.
-/
import ZoomClone.TwoEndings

namespace ZoomClone

/-! ### The two halves of a request -/

inductive StatusRequest where
  | startMeeting
  | cancelMeeting
  | endMeeting
  | joinMeeting (req : JoinRequest)

/-- What `start_meeting`, `cancel_meeting` and `end_meeting` check. -/
def checkTransition (db : Db) (meetingNumber : String) (host : User) (target : MeetingStatus) :
    Service Meeting := do
  let meeting ← getByNumber db meetingNumber
  requireMeetingHost meeting host
  assertCanTransition meeting.status target
  return meeting

/-- The user a route runs for; guests may join and nothing else. -/
def routeUser (db : Db) (userId : UserId) : StatusRequest → Service User
  | .joinMeeting _ => currentUser db userId
  | _ => currentFullUser db userId

/-- Read and check. -/
def checkStatus (db : Db) (meetingNumber : String) (user : User) : StatusRequest → Service Meeting
  | .startMeeting => checkTransition db meetingNumber user .live
  | .cancelMeeting => checkTransition db meetingNumber user .cancelled
  | .endMeeting => checkTransition db meetingNumber user .ended
  | .joinMeeting req => checkJoin db meetingNumber user req

/-- Write, for a meeting row that passed the check. -/
def commitStatus (db : Db) (meeting : Meeting) (user : User) (draws : JoinDraws) (now : DateTime) :
    StatusRequest → Service Db
  | .startMeeting => .ok (db.updateMeetingRow meeting.id (·.goLive now) (Meeting.goLive_id · now))
  | .cancelMeeting => .ok (db.updateMeetingRow meeting.id Meeting.cancel Meeting.cancel_id)
  | .endMeeting => .ok (db.endAll meeting.id now)
  | .joinMeeting req => (commitJoin db meeting user req draws now).commit

/-- The service call a request makes when nothing comes in between. -/
def serviceOf (db : Db) (meetingNumber : String) (user : User)
    (draws : JoinDraws) (now : DateTime) :
    StatusRequest → Service Db
  | .startMeeting => (startMeeting db meetingNumber user now).commit
  | .cancelMeeting => (cancelMeeting db meetingNumber user).commit
  | .endMeeting => (endMeeting db meetingNumber user now).commit
  | .joinMeeting req => (joinMeeting db meetingNumber user req draws now).commit

/-- The three transitions check alike, and then write. -/
theorem checkTransition_bind (db : Db) (meetingNumber : String)
    (user : User) (target : MeetingStatus)
    (view : Meeting → MeetingView) (write : Meeting → Db) :
    (checkTransition db meetingNumber user target >>=
      fun meeting => (.ok (write meeting) : Service Db)) =
      Service.commit (do
        let meeting ← getByNumber db meetingNumber
        requireMeetingHost meeting user
        assertCanTransition meeting.status target
        return (view meeting, write meeting)) := by
  rw [checkTransition]
  cases getByNumber db meetingNumber with
  | error e => rfl
  | ok meeting =>
    cases hhost : requireMeetingHost meeting user <;> cases hallowed :
      assertCanTransition meeting.status target <;>
      simp only [bind, Except.bind, hhost, hallowed] <;> rfl

/-- Checked and committed at once, a request is the service call. -/
theorem checkStatus_bind_commitStatus (db : Db) (meetingNumber : String) (user : User)
    (draws : JoinDraws) (now : DateTime) (r : StatusRequest) :
    (checkStatus db meetingNumber user r >>= fun meeting =>
      commitStatus db meeting user draws now r) = serviceOf db meetingNumber user draws now r := by
  cases r with
  | joinMeeting req =>
    rw [checkStatus, serviceOf, joinMeeting]
    cases checkJoin db meetingNumber user req <;> rfl
  | startMeeting =>
    exact checkTransition_bind db meetingNumber user .live
      (fun meeting => serializeMeeting
        (db.updateMeetingRow meeting.id (·.goLive now) (Meeting.goLive_id · now))
        (meeting.goLive now))
      fun meeting => db.updateMeetingRow meeting.id (·.goLive now) (Meeting.goLive_id · now)
  | cancelMeeting =>
    exact checkTransition_bind db meetingNumber user .cancelled
      (fun meeting => serializeMeeting
        (db.updateMeetingRow meeting.id Meeting.cancel Meeting.cancel_id)
        meeting.cancel)
      fun meeting => db.updateMeetingRow meeting.id Meeting.cancel Meeting.cancel_id
  | endMeeting =>
    exact checkTransition_bind db meetingNumber user .ended
      (fun meeting => serializeMeeting (db.endAll meeting.id now) (meeting.finish now))
      fun meeting => db.endAll meeting.id now

/-! ### Requests in flight -/

/-- A request between its two steps: the rows it read, and the books of its
meeting at that moment. -/
structure PendingRequest where
  ticket : String
  request : StatusRequest
  user : User
  meeting : Meeting
  opened : ℕ
  cancelled : ℕ

/-- The status a request writes when it commits, if any. -/
def PendingRequest.effect (j : PendingRequest) : Option MeetingStatus :=
  match j.request with
  | .startMeeting => some .live
  | .cancelMeeting => some .cancelled
  | .endMeeting => some .ended
  | .joinMeeting _ =>
    if j.meeting.hostId = j.user.id ∧ j.meeting.status ≠ .live then some .live else none

structure Races where
  db : Db
  pending : Keyed PendingRequest.ticket := .empty
  opened : MeetingId → ℕ := fun _ => 0
  cancelled : MeetingId → ℕ := fun _ => 0

inductive RaceEvent where
  | check (ticket : String) (userId : UserId) (meetingNumber : String) (request : StatusRequest)
  | commit (ticket : String) (draws : JoinDraws) (now : DateTime)

/-- Count a commit with that effect. -/
def countEffect (effect : Option MeetingStatus) (status : MeetingStatus) (id : MeetingId)
    (books : MeetingId → ℕ) : MeetingId → ℕ :=
  fun m => books m + if effect = some status ∧ m = id then 1 else 0

def Races.next (s : Races) : RaceEvent → Races
  | .check ticket userId meetingNumber request =>
    match routeUser s.db userId request with
    | .error _ => s
    | .ok user =>
      match checkStatus s.db meetingNumber user request with
      | .error _ => s
      | .ok meeting =>
        let j : PendingRequest :=
          { ticket, request, user, meeting
            opened := s.opened meeting.id, cancelled := s.cancelled meeting.id }
        { s with pending := s.pending.set j }
  | .commit ticket draws now =>
    match s.pending.find? ticket with
    | none => s
    | some j =>
      let s := { s with pending := s.pending.erase ticket }
      match commitStatus s.db j.meeting j.user draws now j.request with
      | .error _ => s
      | .ok db =>
        { s with
          db
          opened := countEffect j.effect .live j.meeting.id s.opened
          cancelled := countEffect j.effect .cancelled j.meeting.id s.cancelled }

/-- A change of the status is a pair of `TRANSITIONS`. -/
def LegalRaceStep (s : Races) (e : RaceEvent) : Prop := LegalChange s.db (s.next e).db

/-- The stamps of a meeting that a race can spoil. -/
structure Meeting.RaceStamped (m : Meeting) : Prop where
  cancelled : m.status = .cancelled → m.startedAt = none
  live : m.status = .live → m.endedAt = none

def RaceStamped (s : Races) : Prop := ∀ m ∈ s.db.meetings, m.RaceStamped

/-- A scheduled meeting has no stamp yet. -/
def Meeting.Unstarted (m : Meeting) : Prop :=
  m.status = .scheduled → m.startedAt = none ∧ m.endedAt = none

/-- The commit goes through: a join needs a fresh id and a fresh session. -/
def PendingRequest.Writes (j : PendingRequest) (db : Db) (draws : JoinDraws) : Prop :=
  ∀ req, j.request = .joinMeeting req →
    draws.id ∉ db.participants.keys ∧ ∀ q ∈ db.participants, q.sessionId ≠ draws.sessionId

/-- No cancellation commits on a meeting that was taken live since its check,
and nothing takes a meeting live that was cancelled since the check. -/
def Unraced (s : Races) : RaceEvent → Prop
  | .check _ _ _ _ => True
  | .commit ticket draws _ =>
    ∀ j, s.pending.find? ticket = some j → j.Writes s.db draws →
      (j.effect = some .cancelled → s.opened j.meeting.id = j.opened) ∧
        (j.effect = some .live → s.cancelled j.meeting.id = j.cancelled)

/-! ### What a commit writes -/

/-- The status after a commit with that effect. -/
def landing (effect : Option MeetingStatus) (status : MeetingStatus) : MeetingStatus :=
  effect.getD status

/-- The row after a commit of the request. -/
def PendingRequest.write (j : PendingRequest) (now : DateTime) (m : Meeting) : Meeting :=
  match j.effect with
  | some .live => m.goLive now
  | some .cancelled => m.cancel
  | some .ended => m.finish now
  | _ => m

section Commit

variable {db db' : Db} {j k : PendingRequest} {draws : JoinDraws} {now : DateTime} {m : Meeting}

@[simp] theorem PendingRequest.write_id (j : PendingRequest) (now : DateTime) (m : Meeting) :
    (j.write now m).id = m.id := by
  rw [write]
  split <;> rfl

/-- A request never takes a meeting back to `scheduled`. -/
theorem PendingRequest.effect_cases (j : PendingRequest) :
    j.effect = some .live ∨ j.effect = some .cancelled ∨ j.effect = some .ended ∨
      j.effect = none := by
  rw [effect]
  split
  · exact .inl rfl
  · exact .inr (.inl rfl)
  · exact .inr (.inr (.inl rfl))
  · split
    · exact .inl rfl
    · exact .inr (.inr (.inr rfl))

theorem PendingRequest.status_write (j : PendingRequest) (now : DateTime) (m : Meeting) :
    (j.write now m).status = landing j.effect m.status := by
  rcases j.effect_cases with h | h | h | h <;> rw [write, h] <;> rfl

/-- A commit writes the meeting it read and leaves the others alone. -/
theorem commitStatus_meetings (h : commitStatus db j.meeting j.user draws now j.request = .ok db') :
    ∀ m, m ∈ db'.meetings ↔
      ∃ n ∈ db.meetings, (if n.id = j.meeting.id then j.write now n else n) = m := by
  unfold PendingRequest.write PendingRequest.effect
  cases hrequest : j.request with
  | startMeeting =>
    rw [hrequest] at h
    obtain rfl := Except.ok.inj h
    exact fun m => Db.mem_updateMeetingRow
  | cancelMeeting =>
    rw [hrequest] at h
    obtain rfl := Except.ok.inj h
    exact fun m => Db.mem_updateMeetingRow
  | endMeeting =>
    rw [hrequest] at h
    obtain rfl := Except.ok.inj h
    exact fun m => mem_meetings_endAll
  | joinMeeting req =>
    rw [hrequest] at h
    obtain ⟨r, h⟩ := Service.commit_eq_ok.mp h
    obtain ⟨-, -, hmeetings, -⟩ := commitJoin_ok h
    rw [hmeetings, Db.welcomeHost]
    intro m
    split
    · exact Db.mem_updateMeetingRow
    · simp

/-- The commit fails exactly when its insertion does. -/
theorem commitStatus_writes (now : DateTime) :
    (∃ db', commitStatus db j.meeting j.user draws now j.request = .ok db') ↔
      j.Writes db draws := by
  constructor
  · rintro ⟨db', h⟩ req hrequest
    rw [hrequest] at h
    obtain ⟨r, h⟩ := Service.commit_eq_ok.mp h
    obtain ⟨hid, -, -, hsession⟩ := commitJoin_ok h
    exact ⟨hid, hsession⟩
  · intro hwrites
    cases hrequest : j.request with
    | startMeeting => exact ⟨_, rfl⟩
    | cancelMeeting => exact ⟨_, rfl⟩
    | endMeeting => exact ⟨_, rfl⟩
    | joinMeeting req =>
      obtain ⟨hid, hsession⟩ := hwrites req hrequest
      obtain ⟨r, db', h⟩ := commitJoin_of_fresh hid hsession j.meeting j.user req now
      exact ⟨db', Service.commit_eq_ok.mpr ⟨r, h⟩⟩

end Commit

/-! ### What a pending request still knows -/

/-- What the books and the status of its meeting say about a pending request. -/
structure PendingRequest.Sound (j : PendingRequest) (opened cancelled : ℕ)
    (status : MeetingStatus) :
    Prop where
  live : j.effect = some .live →
    (cancelled = j.cancelled ∧ status ≠ .cancelled) ∨
      (j.cancelled < cancelled ∧ status = .cancelled)
  cancelled : j.effect = some .cancelled →
    (opened = j.opened ∧ (status = .scheduled ∨ status = .cancelled)) ∨
      (j.opened < opened ∧ (status = .live ∨ status = .ended))
  ended : j.effect = some .ended → status = .live ∨ status = .ended

section Sound

variable {j k : PendingRequest} {opened cancelled : ℕ} {status : MeetingStatus}

/-- The request commits at a moment that `Unraced` accepts. -/
def PendingRequest.InTime (j : PendingRequest) (opened cancelled : ℕ) : Prop :=
  (j.effect = some .cancelled → opened = j.opened) ∧
    (j.effect = some .live → cancelled = j.cancelled)

/-- **In time is legal.** -/
theorem PendingRequest.Sound.legal_iff (h : j.Sound opened cancelled status) :
    (landing j.effect status = status ∨ landing j.effect status ∈ allowedTargets status) ↔
      j.InTime opened cancelled := by
  rw [InTime]
  rcases j.effect_cases with he | he | he | he
  · -- A start, or a join of the host: the meeting must not be cancelled.
    have hlive := h.live he
    rw [he]
    cases status <;> simp [landing, allowedTargets] at hlive ⊢ <;> omega
  · -- A cancellation: the meeting must not have been taken live.
    have hcancelled := h.cancelled he
    rw [he]
    cases status <;> simp [landing, allowedTargets] at hcancelled ⊢ <;> omega
  · -- An end is legal at any time: a meeting that was live stays live or ended.
    have hended := h.ended he
    rw [he]
    cases status <;> simp [landing, allowedTargets] at hended ⊢
  · simp [he, landing]

/-- A commit in time leaves the other pending requests sound. -/
theorem PendingRequest.Sound.commit (hj : j.Sound opened cancelled status)
    (hk : k.Sound opened cancelled status) (htime : j.InTime opened cancelled) :
    k.Sound (opened + if j.effect = some .live then 1 else 0)
      (cancelled + if j.effect = some .cancelled then 1 else 0) (landing j.effect status) := by
  obtain ⟨hcancelTime, hliveTime⟩ := htime
  -- The effect of the commit; in each case the three promises to the other request.
  rcases j.effect_cases with he | he | he | he
  · have hlive := hj.live he
    have htime := hliveTime he
    have hstatus : status ≠ .cancelled := by
      rcases hlive with ⟨-, hne⟩ | ⟨hlt, -⟩
      · exact hne
      · omega
    refine ⟨?_, ?_, ?_⟩ <;> intro hke
    · have := hk.live hke
      simpa [he, landing, hstatus] using this
    · -- The other request cancels: from now on it is late, and the books show it.
      have := hk.cancelled hke
      simp [he, landing]
      omega
    · exact .inl (by simp [he, landing])
  · have hcancelled := hj.cancelled he
    have htime := hcancelTime he
    refine ⟨?_, ?_, ?_⟩ <;> intro hke
    · have := hk.live hke
      simp [he, landing]
      omega
    · have := hk.cancelled hke
      cases status <;> simp [he, landing] at hcancelled this ⊢ <;> omega
    · have := hk.ended hke
      cases status <;> simp at hcancelled this <;> omega
  · have hended := hj.ended he
    refine ⟨?_, ?_, ?_⟩ <;> intro hke
    · have := hk.live hke
      cases status <;> simp [he, landing] at hended this ⊢ <;> omega
    · have := hk.cancelled hke
      cases status <;> simp [he, landing] at hended this ⊢ <;> omega
    · exact .inr (by simp [he, landing])
  · simpa [he, landing] using hk

end Sound

/-! ### The invariant of a race -/

structure Races.Sound (s : Races) : Prop where
  row : ∀ j ∈ s.pending, j.meeting.id ∈ s.db.meetings.keys
  pending : ∀ j ∈ s.pending, ∀ m ∈ s.db.meetings, m.id = j.meeting.id →
    j.Sound (s.opened m.id) (s.cancelled m.id) m.status
  stamped : RaceStamped s
  scheduled : ∀ m ∈ s.db.meetings, m.Unstarted

section Step

variable {s : Races}

theorem Races.Sound.erase (h : s.Sound) (ticket : String) :
    Races.Sound { s with pending := s.pending.erase ticket } where
  row := fun j hj => h.row j (Keyed.mem_erase.mp hj).1
  pending := fun j hj => h.pending j (Keyed.mem_erase.mp hj).1
  stamped := h.stamped
  scheduled := h.scheduled

/-- A transition that a check lets pass. -/
theorem checkTransition_eq_ok {db : Db} {number : String} {host : User} {target : MeetingStatus}
    {m : Meeting} : checkTransition db number host target = .ok m ↔
      db.meetingByNumber number = some m ∧ m.hostId = host.id ∧
        target ∈ allowedTargets m.status := by
  simp only [checkTransition, Service.bind_eq_ok, Service.pure_eq_ok, getByNumber_eq_ok,
    requireMeetingHost, Service.require_eq_ok, assertCanTransition_eq_ok]
  constructor
  · rintro ⟨m, hm, -, hhost, -, hs, rfl⟩
    exact ⟨hm, hhost, hs⟩
  · rintro ⟨hm, hhost, hs⟩
    exact ⟨m, hm, (), hhost, (), hs, rfl⟩

/-- A request that has just made its check is sound. -/
theorem checkStatus_sound {db : Db} {number : String} {j : PendingRequest}
    (h : checkStatus db number j.user j.request = .ok j.meeting) :
    j.meeting ∈ db.meetings ∧ j.Sound j.opened j.cancelled j.meeting.status := by
  unfold checkStatus at h
  cases hrequest : j.request with
  | startMeeting =>
    rw [hrequest] at h
    obtain ⟨hm, -, hs⟩ := checkTransition_eq_ok.mp h
    rw [live_mem_allowedTargets] at hs
    have he : j.effect = some .live := by rw [PendingRequest.effect, hrequest]
    refine ⟨mem_of_meetingByNumber hm, fun _ => .inl ⟨rfl, ?_⟩, ?_, ?_⟩
    · rcases hs with hs | hs <;> simp [hs]
    · simp [he]
    · simp [he]
  | cancelMeeting =>
    rw [hrequest] at h
    obtain ⟨hm, -, hs⟩ := checkTransition_eq_ok.mp h
    have he : j.effect = some .cancelled := by rw [PendingRequest.effect, hrequest]
    refine ⟨mem_of_meetingByNumber hm, ?_, fun _ => .inl ⟨rfl, .inl ?_⟩, ?_⟩
    · simp [he]
    · cases hstatus : j.meeting.status <;> simp [hstatus, allowedTargets] at hs ⊢
    · simp [he]
  | endMeeting =>
    rw [hrequest] at h
    obtain ⟨hm, -, hs⟩ := checkTransition_eq_ok.mp h
    have he : j.effect = some .ended := by rw [PendingRequest.effect, hrequest]
    refine ⟨mem_of_meetingByNumber hm, ?_, ?_, fun _ => .inl (ended_mem_allowedTargets.mp hs)⟩
    · simp [he]
    · simp [he]
  | joinMeeting req =>
    rw [hrequest] at h
    obtain ⟨hm, hs, -, -⟩ := checkJoin_eq_ok.mp h
    have he : j.effect = some .live ∨ j.effect = none := by
      rw [PendingRequest.effect, hrequest]
      dsimp only
      split
      · exact .inl rfl
      · exact .inr rfl
    refine ⟨mem_of_meetingByNumber hm, fun _ => .inl ⟨rfl, hs.2⟩, ?_, ?_⟩
    · rcases he with he | he <;> simp [he]
    · rcases he with he | he <;> simp [he]

/-- The new row of a commit in time keeps its stamps in order. -/
theorem raceStamped_write {j : PendingRequest} {m : Meeting} {opened cancelled : ℕ} (now : DateTime)
    (hj : j.Sound opened cancelled m.status) (htime : j.InTime opened cancelled)
    (hm : m.RaceStamped)
    (hs : m.Unstarted) : (j.write now m).RaceStamped ∧ (j.write now m).Unstarted := by
  rcases j.effect_cases with he | he | he | he <;> rw [PendingRequest.write, he]
  · exact ⟨⟨nofun, fun _ => rfl⟩, nofun⟩
  · refine ⟨⟨fun _ => ?_, nofun⟩, nofun⟩
    show m.startedAt = none
    rcases hj.cancelled he with ⟨-, hstatus | hstatus⟩ | ⟨hlt, -⟩
    · exact (hs hstatus).1
    · exact hm.cancelled hstatus
    · have := htime.1 he
      omega
  · exact ⟨⟨nofun, nofun⟩, nofun⟩
  · exact ⟨hm, hs⟩

/-- A commit that goes through. -/
def Races.commit (s : Races) (j : PendingRequest) (db : Db) : Races :=
  { s with
    db
    opened := countEffect j.effect .live j.meeting.id s.opened
    cancelled := countEffect j.effect .cancelled j.meeting.id s.cancelled }

theorem Races.Sound.commit (h : s.Sound) {j : PendingRequest} {db : Db} {draws : JoinDraws}
    {now : DateTime} (hj : ∀ m ∈ s.db.meetings, m.id = j.meeting.id →
      j.Sound (s.opened m.id) (s.cancelled m.id) m.status)
    (hcommit : commitStatus s.db j.meeting j.user draws now j.request = .ok db)
    (htime : j.InTime (s.opened j.meeting.id) (s.cancelled j.meeting.id)) :
    (s.commit j db).Sound := by
  have hmem := commitStatus_meetings hcommit
  refine ⟨?_, ?_, ?_, ?_⟩
  · intro k hk
    obtain ⟨m, hm, hid⟩ := Keyed.mem_keys.mp (h.row k hk)
    refine Keyed.mem_keys.mpr ⟨_, (hmem _).mpr ⟨m, hm, rfl⟩, ?_⟩
    split
    · exact (j.write_id now m).trans hid
    · exact hid
  · intro k hk m' hm' hid
    obtain ⟨m, hm, rfl⟩ := (hmem _).mp hm'
    by_cases hmj : m.id = j.meeting.id
    · rw [if_pos hmj] at hid ⊢
      rw [j.write_id] at hid ⊢
      have hsound := (hj m hm hmj).commit (h.pending k hk m hm hid) (hmj ▸ htime)
      rw [j.status_write]
      simpa [Races.commit, countEffect, hmj] using hsound
    · rw [if_neg hmj] at hid ⊢
      have hsound := h.pending k hk m hm hid
      simpa [Races.commit, countEffect, hmj] using hsound
  · intro m' hm'
    obtain ⟨m, hm, rfl⟩ := (hmem _).mp hm'
    split
    · next hmj =>
        exact (raceStamped_write now (hj m hm hmj) (hmj ▸ htime)
        (h.stamped m hm) (h.scheduled m hm)).1
    · exact h.stamped m hm
  · intro m' hm'
    obtain ⟨m, hm, rfl⟩ := (hmem _).mp hm'
    split
    · next hmj =>
        exact (raceStamped_write now (hj m hm hmj) (hmj ▸ htime)
        (h.stamped m hm) (h.scheduled m hm)).2
    · exact h.scheduled m hm

end Step

/-! ### One event -/

section Event

variable {s : Races}

theorem Races.Sound.check (h : s.Sound) (number : String) {j : PendingRequest}
    (hcheck : checkStatus s.db number j.user j.request = .ok j.meeting)
    (hopened : j.opened = s.opened j.meeting.id)
    (hcancelled : j.cancelled = s.cancelled j.meeting.id) :
    Races.Sound { s with pending := s.pending.set j } := by
  obtain ⟨hm, hsound⟩ := checkStatus_sound hcheck
  refine ⟨?_, ?_, h.stamped, h.scheduled⟩
  · intro k hk
    rcases Keyed.mem_set.mp hk with rfl | ⟨hk, -⟩
    · exact Keyed.key_mem_keys hm
    · exact h.row k hk
  · intro k hk m hm' hid
    rcases Keyed.mem_set.mp hk with rfl | ⟨hk, -⟩
    · obtain rfl := Keyed.eq_of_key_eq hm' hm hid
      rwa [hopened, hcancelled] at hsound
    · exact h.pending k hk m hm' hid

theorem Races.Sound.next (h : s.Sound) (e : RaceEvent) (htime : Unraced s e) :
    (s.next e).Sound := by
  cases e with
  | check ticket userId number request =>
    rw [Races.next]
    dsimp only
    split
    · exact h
    · split
      · exact h
      · next user _ meeting hcheck => exact h.check number hcheck rfl rfl
  | commit ticket draws now =>
    rw [Races.next]
    rw [Unraced] at htime
    dsimp only
    split
    · exact h
    · next j hj =>
      split
      · exact h.erase ticket
      · next db hcommit =>
        have hmem := Keyed.mem_of_find? hj
        have hwrites := (commitStatus_writes now).mp ⟨db, hcommit⟩
        exact (h.erase ticket).commit (h.pending j hmem) hcommit (htime j hj hwrites)

theorem legalChange_refl (db : Db) : LegalChange db db := by
  intro m hm m' hm' hid
  rw [Keyed.eq_of_key_eq hm' hm hid]
  exact .inl rfl

/-- **One event.**  It is legal exactly when it is in time. -/
theorem legalRaceStep_iff (h : s.Sound) (e : RaceEvent) : LegalRaceStep s e ↔ Unraced s e := by
  cases e with
  | check ticket userId number request =>
    refine iff_of_true ?_ trivial
    rw [LegalRaceStep, Races.next]
    dsimp only
    split
    · exact legalChange_refl s.db
    · split <;> exact legalChange_refl s.db
  | commit ticket draws now =>
    rw [LegalRaceStep, Unraced, Races.next]
    dsimp only
    split
    · next hnone =>
      refine iff_of_true (legalChange_refl s.db) ?_
      intro j hj
      rw [hnone] at hj
      cases hj
    · next j hj =>
      simp only [hj, Option.some.injEq, forall_eq']
      split
      · next e herror =>
        -- The insertion failed: nothing is written, and `Unraced` asks for nothing.
        refine iff_of_true (legalChange_refl s.db) ?_
        intro hwrites
        obtain ⟨db', hok⟩ := (commitStatus_writes now).mpr hwrites
        rw [hok] at herror
        cases herror
      · next db hcommit =>
        have hmem := commitStatus_meetings hcommit
        have hwrites := (commitStatus_writes now).mp ⟨db, hcommit⟩
        have hpending := Keyed.mem_of_find? hj
        obtain ⟨m, hm, hid⟩ := Keyed.mem_keys.mp (h.row j hpending)
        have hiff := (h.pending j hpending m hm hid).legal_iff
        rw [← j.status_write now, hid] at hiff
        constructor
        · intro hlegal _
          have hnew : j.write now m ∈ db.meetings := (hmem _).mpr ⟨m, hm, if_pos hid⟩
          exact hiff.mp (hlegal m hm _ hnew (j.write_id now m))
        · -- Rows keep their ids, so the old and the new row are of one meeting.
          intro htime n hn n' hn' hnid
          obtain ⟨l, hl, rfl⟩ := (hmem _).mp hn'
          have hln : l = n := by
            refine Keyed.eq_of_key_eq hl hn ?_
            split at hnid
            · rwa [j.write_id] at hnid
            · exact hnid
          obtain rfl := hln
          split
          · next hlid =>
            obtain rfl := Keyed.eq_of_key_eq hl hm (hlid.trans hid.symm)
            exact hiff.mpr (htime hwrites)
          · exact .inl rfl

end Event

/-! ### Runs -/

/-- A race starts in a database that atomic operations reach. -/
def Races.start (ops : List Operation) : Races := { db := Runs.run Db.apply .empty ops }

theorem Meeting.Moves.raceStamped {db : Db} {op : Operation} {m m' : Meeting}
    (h : m.Moves db op m') (hm : m.RaceStamped ∧ m.Unstarted) : m'.RaceStamped ∧ m'.Unstarted := by
  cases h with
  | kept => exact hm
  | edited changes topic start duration ha hs => exact ⟨⟨hm.1.cancelled, hm.1.live⟩, hm.2⟩
  | cancelled ha hs => exact ⟨⟨fun _ => (hm.2 hs).1, nofun⟩, nofun⟩
  | started now ha ht hs => exact ⟨⟨nofun, fun _ => rfl⟩, nofun⟩
  | ended now ha ht hs => exact ⟨⟨nofun, nofun⟩, nofun⟩

theorem Db.Creates.raceStamped {db : Db} {op : Operation} {m : Meeting} (h : db.Creates op m) :
    m.RaceStamped ∧ m.Unstarted := by
  obtain ⟨now, -, hended, ⟨hs, -, hstarted⟩ | ⟨hs, -⟩⟩ := h.stamped
  · exact ⟨⟨fun _ => hstarted, fun _ => hended⟩, fun _ => ⟨hstarted, hended⟩⟩
  · refine ⟨⟨?_, fun _ => hended⟩, ?_⟩ <;> intro hstatus <;> rw [hs] at hstatus <;> cases hstatus

theorem Races.sound_start (ops : List Operation) : (Races.start ops).Sound := by
  have hstamped : Runs.Always Db.apply
      (fun db => ∀ m ∈ db.meetings, m.RaceStamped ∧ m.Unstarted) .empty ops := by
    refine Runs.always_of_step (fun m hm => absurd hm (Keyed.not_mem_empty m)) ?_ ops
    intro db op h m' hm'
    obtain ⟨f, added, hmove⟩ := apply_meetings db op
    rcases hmove.cases hm' with ⟨m, hm, hmoves⟩ | hcreates
    · exact hmoves.raceStamped (h m hm)
    · exact hcreates.raceStamped
  exact ⟨fun j hj => absurd hj (Keyed.not_mem_empty j),
    fun j hj => absurd hj (Keyed.not_mem_empty j),
    fun m hm => (hstamped.last m hm).1, fun m hm => (hstamped.last m hm).2⟩

/-- **Overlapping status changes.**  From every reachable database, an
interleaving of checks and commits makes legal changes only and keeps the stamps
in order if and only if every commit is in time. -/
theorem statusRaces_iff (ops : List Operation) (events : List RaceEvent) :
    (Runs.Guarded Races.next LegalRaceStep (.start ops) events ∧
      Runs.Always Races.next RaceStamped (.start ops) events) ↔
      Runs.Guarded Races.next Unraced (.start ops) events := by
  have hsound := Races.sound_start ops
  have hlegal := Runs.guarded_iff hsound (fun _ e h he => h.next e he)
    (fun _ e h => legalRaceStep_iff h e) events
  constructor
  · rintro ⟨h, -⟩
    exact hlegal.mp h
  · intro h
    have hrun := Runs.Guarded.always hsound (fun _ e h he => h.next e he) h
    exact ⟨hlegal.mpr h, hrun.mono fun _ h => h.stamped⟩

/-- A host schedules a meeting. -/
def scheduleMeeting : List Operation :=
  [.request (.signInGoogle { sub := "g-host", email := some "ada@example.com" }
      ⟨"host", "", fun _ => (0, 1)⟩),
   .request (.createMeeting "host" { scheduledStart := some ⟨100, none⟩ }
      { passcode := "hRtz4K", inviteToken := "tok", ids := fun _ => "m"
        numbers := fun _ => (0, 3), inviteeIds := fun _ => "" } 10)]

instance (s : Races) (e : RaceEvent) : Decidable (LegalRaceStep s e) :=
  inferInstanceAs (Decidable (∀ m ∈ s.db.meetings, ∀ m' ∈ (s.next e).db.meetings, _ → _))

/-- A cancellation and a start both find the meeting scheduled; the cancellation
commits last. -/
theorem overlapping_changes_illegal :
    ¬ ∀ (ops : List Operation) (events : List RaceEvent),
      Runs.Guarded Races.next LegalRaceStep (.start ops) events ∧
        Runs.Always Races.next RaceStamped (.start ops) events := by
  intro h
  have hlegal := (h scheduleMeeting
    [.check "1" "host" "10000000003" .cancelMeeting, .check "2" "host" "10000000003" .startMeeting,
     .commit "2" ⟨"", ""⟩ 20, .commit "1" ⟨"", ""⟩ 30]).1
  revert hlegal
  decide +kernel

end ZoomClone
