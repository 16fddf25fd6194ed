/-
What a host can do in two ways: go live, and remove somebody.

A host takes a meeting live by `start_meeting` or by joining it.  The first consults
`TRANSITIONS`, the second refuses an ended meeting before it looks at who asks.  A host
removes a row over its socket, guarded by the row it acts with, or over REST, guarded by
its user.

* `entersAsStarting_iff` — where `start_meeting` succeeds and there is space, the host
  enters exactly if the meeting has not ended;
* `Db.HostsStamped` — every row of a meeting's host has role `host` (`hostsStamped_apply`);
* `removals_agree_iff` — the two removals agree except on a second row of the host.
-/
import ZoomClone.TwoEndings
import ZoomClone.JoinAdmission

namespace ZoomClone

/-! ### Going live -/

/-- A join adds one open row, of the host, to the meeting. -/
def AddsHostRow (db db' : Db) (m : Meeting) (host : User) : Prop :=
  ∃ row, ∃ hid : row.id ∉ db.participants.keys, db'.participants = db.participants.insert row hid ∧
    row.meetingId = m.id ∧ row.userId = some host.id ∧ row.leftAt = none ∧ row.role = .host

/-- The join succeeds, writes the meetings that `start_meeting` left in `started`, and
adds one host row. -/
def EntersAsStarting (db : Db) (meetingNumber : String) (m : Meeting)
    (host : User) (req : JoinRequest)
    (draws : JoinDraws) (now : DateTime) (started : Db) : Prop :=
  ∃ r db', joinMeeting db meetingNumber host req draws now = .ok (r, db') ∧
    db'.meetings = started.meetings ∧ AddsHostRow db db' m host

section GoingLive

variable {db started : Db} {meetingNumber : String} {m : Meeting} {host : User} {req : JoinRequest}
  {draws : JoinDraws} {now : DateTime} {v : MeetingView}

/-- A host starts a meeting that the table lets go live. -/
theorem startMeeting_of_allowed (now : DateTime) (hm : db.meetingByNumber meetingNumber = some m)
    (hhost : m.hostId = host.id) (hs : .live ∈ allowedTargets m.status) :
    ∃ v started, startMeeting db meetingNumber host now = .ok (v, started) := by
  simp only [startMeeting, Service.bind_eq_ok, Service.pure_eq_ok,
    getByNumber_eq_ok, requireMeetingHost,
    Service.require_eq_ok, assertCanTransition_eq_ok]
  exact ⟨_, _, m, hm, (), hhost, (), hs, rfl⟩

/-- **Where a host who may start may also enter.**  The status decides, and nothing else. -/
theorem entersAsStarting_of_start (hm : db.meetingByNumber meetingNumber = some m)
    (hstart : startMeeting db meetingNumber host now = .ok (v, started))
    (hspace : activeCount db m.id < maxMeshParticipants) (hid : draws.id ∉ db.participants.keys)
    (hsession : ∀ q ∈ db.participants, q.sessionId ≠ draws.sessionId) :
    EntersAsStarting db meetingNumber m host req draws now started ↔ m.status ≠ .ended := by
  obtain ⟨m', hm', hhost, hallowed, rfl⟩ := startMeeting_ok hstart
  obtain rfl : m = m' := Option.some.inj (hm.symm.trans hm')
  constructor
  · rintro ⟨r, db', hjoin, -⟩
    obtain ⟨n, hcheck, -⟩ := joinMeeting_ok hjoin
    obtain ⟨hn, hopen, -⟩ := checkJoin_eq_ok.mp hcheck
    obtain rfl : m = n := Option.some.inj (hm.symm.trans hn)
    exact hopen.1
  · intro hended
    have hscheduled : m.status = .scheduled := by
      rcases live_mem_allowedTargets.mp hallowed with hs | hs
      · exact hs
      · exact absurd hs hended
    have hentry : checkEntry m host req = .ok () := if_pos hhost
    have hcheck : checkJoin db meetingNumber host req = .ok m :=
      checkJoin_eq_ok.mpr ⟨hm, open_iff.mpr (.inl hscheduled), hentry, hspace⟩
    obtain ⟨r, db', hcommit⟩ := commitJoin_of_fresh hid hsession m host req now
    have hjoined := joinedBy_of_commitJoin (.inl hscheduled) hcommit
    refine ⟨r, db', Service.bind_eq_ok.mpr ⟨m, hcheck, hcommit⟩, ?_, ?_⟩
    · rw [hjoined.meetings, if_pos ⟨hhost, hscheduled⟩]
      rfl
    · obtain ⟨row, hrow, hrows, hmeeting, huser, hleft, hrole⟩ := hjoined.row
      exact ⟨row, hrow, hrows, hmeeting, huser, hleft, hrole.mpr hhost⟩

end GoingLive

/-- **When the host enters as it starts.**  In every reachable database, for every meeting
that `start_meeting` takes live and that has space. -/
theorem entersAsStarting_iff (ops : List Operation) {meetingNumber : String}
    {m : Meeting} {host : User}
    {req : JoinRequest} {draws : JoinDraws} {now : DateTime} {v : MeetingView} {started : Db}
    (hm : (Runs.run Db.apply .empty ops).meetingByNumber meetingNumber = some m)
    (hstart : startMeeting (Runs.run Db.apply .empty ops) meetingNumber host now = .ok (v, started))
    (hspace : activeCount (Runs.run Db.apply .empty ops) m.id < maxMeshParticipants)
    (hid : draws.id ∉ (Runs.run Db.apply .empty ops).participants.keys)
    (hsession : ∀ q ∈ (Runs.run Db.apply .empty ops).participants, q.sessionId ≠ draws.sessionId) :
    EntersAsStarting (Runs.run Db.apply .empty ops) meetingNumber m host req draws now started ↔
      m.status ≠ .ended :=
  entersAsStarting_of_start hm hstart hspace hid hsession

/-- A host schedules a meeting. -/
def scheduleRequests : List Operation :=
  [.request (.signInGoogle { sub := "g-host", email := some "ada@example.com" }
      ⟨"host", "", fun _ => (0, 1)⟩),
   .request (.createMeeting "host" { scheduledStart := some { wall := 60 } }
      { passcode := "hRtz4K", inviteToken := "tok", ids := fun _ => "m"
        numbers := fun _ => (0, 3), inviteeIds := fun _ => "" } 10)]

/-- The meetings of the two runs, which their host may start. -/
theorem startable (ops : List Operation) (status : MeetingStatus)
    (h : ∃ m ∈ (Runs.run Db.apply .empty ops).meetings.rows,
      ∃ host ∈ (Runs.run Db.apply .empty ops).users.rows,
        (Runs.run Db.apply .empty ops).meetingByNumber "10000000003" = some m ∧ m.hostId = host.id ∧
          m.status = status ∧ .live ∈ allowedTargets m.status ∧
          activeCount (Runs.run Db.apply .empty ops) m.id < maxMeshParticipants)
    (now : DateTime) : ∃ m host v started,
      (Runs.run Db.apply .empty ops).meetingByNumber "10000000003" = some m ∧ m.status = status ∧
        startMeeting (Runs.run Db.apply .empty ops) "10000000003" host now = .ok (v, started) ∧
        activeCount (Runs.run Db.apply .empty ops) m.id < maxMeshParticipants := by
  obtain ⟨m, -, host, -, hm, hhost, hstatus, hallowed, hspace⟩ := h
  obtain ⟨v, started, hstart⟩ := startMeeting_of_allowed now hm hhost hallowed
  exact ⟨m, host, v, started, hm, hstatus, hstart, hspace⟩

theorem entersAsStarting_scheduled : ∃ m host v started,
    startMeeting (Runs.run Db.apply .empty scheduleRequests) "10000000003" host 20 =
      .ok (v, started) ∧
      (EntersAsStarting (Runs.run Db.apply .empty scheduleRequests) "10000000003" m host {}
      ⟨"1", "s1"⟩ 20
        started ↔ m.status ≠ .ended) ∧ m.status ≠ .ended := by
  obtain ⟨m, host, v, started, hm, hstatus, hstart, hspace⟩ :=
    startable scheduleRequests .scheduled (by decide +kernel) 20
  have hiff : EntersAsStarting _ "10000000003" m host {} ⟨"1", "s1"⟩ 20 started ↔
      m.status ≠ .ended :=
    entersAsStarting_iff scheduleRequests hm hstart hspace (by decide +kernel) (by decide +kernel)
  exact ⟨m, host, v, started, hstart, hiff, by rw [hstatus]; decide⟩

/-- The host of an ended meeting may start it again, but not enter it. -/
theorem ended_not_entered :
    ¬ ∀ (ops : List Operation) (meetingNumber : String) (m : Meeting) (host : User)
    (req : JoinRequest) (draws : JoinDraws) (now : DateTime) (v : MeetingView) (started : Db),
      (Runs.run Db.apply .empty ops).meetingByNumber meetingNumber = some m →
      startMeeting (Runs.run Db.apply .empty ops) meetingNumber host now = .ok (v, started) →
      activeCount (Runs.run Db.apply .empty ops) m.id < maxMeshParticipants →
      draws.id ∉ (Runs.run Db.apply .empty ops).participants.keys →
      (∀ q ∈ (Runs.run Db.apply .empty ops).participants, q.sessionId ≠ draws.sessionId) →
      EntersAsStarting (Runs.run Db.apply .empty ops) meetingNumber m host
        req draws now started := by
  intro h
  obtain ⟨m, host, v, started, hm, hstatus, hstart, hspace⟩ :=
    startable openAndEnd .ended (by decide +kernel) 40
  have hid : "2" ∉ (Runs.run Db.apply .empty openAndEnd).participants.keys := by decide +kernel
  have hsession : ∀ q ∈ (Runs.run Db.apply .empty openAndEnd).participants, q.sessionId ≠ "s2" := by
    decide +kernel
  have henters := h openAndEnd "10000000003" m host {}
    ⟨"2", "s2"⟩ 40 v started hm hstart hspace hid hsession
  exact (entersAsStarting_of_start hm hstart hspace hid hsession).mp henters hstatus

/-! ### Removing somebody -/

/-- Every row of a meeting's host has role `host`. -/
def Db.HostsStamped (db : Db) : Prop :=
  ∀ p ∈ db.participants, ∀ m ∈ db.meetings, m.id = p.meetingId → p.userId = some m.hostId →
    p.role = .host

theorem hostsStamped_empty : Db.empty.HostsStamped := by
  intro p hp
  exact absurd hp (Keyed.not_mem_empty p)

theorem hostsStamped_apply {db : Db} (hv : db.Valid) (h : db.HostsStamped) (op : Operation) :
    (db.apply op).HostsStamped := by
  intro q hq m' hm' hid huser
  rcases apply_change db op with hsame | hchange
  · rw [hsame] at hq hm'
    exact h q hq m' hm' hid huser
  rcases hchange.row_cases hq with ⟨p, hp, he⟩ | ⟨m, user, req, draws, now, hm, -, rfl, -⟩
  · -- an old row, in a meeting that has kept its host
    obtain ⟨m, hm, hmid⟩ := Keyed.mem_keys.mp (hv.meeting p hp)
    have hmoves := moves_apply hm hm' (hid.trans (he.meetingId.trans hmid.symm))
    rw [he.role]
    refine h p hp m hm hmid ?_
    rw [← he.userId, huser, hmoves.hostId]
  · have hmoves := moves_apply hm hm' hid
    have hhost : m.hostId = user.id := by
      rw [← hmoves.hostId]
      exact (Option.some.inj huser).symm
    simp [joinRow, hhost]

theorem always_hostsStamped (ops : List Operation) :
    Runs.Always Db.apply (fun db => db.Valid ∧ db.HostsStamped) .empty ops :=
  Runs.always_of_step ⟨valid_empty, hostsStamped_empty⟩
    (fun _ op h => ⟨valid_apply h.1 op, hostsStamped_apply h.1 h.2 op⟩) ops

/-- `host_remove` with the acting row and `remove_participant` with the user, at the same
instant: both reject, or both commit the same database. -/
def RemovalsAgree (db : Db) (actor target : Participant) (user : User) (now : DateTime) : Prop :=
  (∃ e e', (hostRemove db actor target.id now).commit = .error e ∧
      (removeParticipant db target.id user now).commit = .error e') ∨
    ∃ db', (hostRemove db actor target.id now).commit = .ok db' ∧
      (removeParticipant db target.id user now).commit = .ok db'

section Removing

variable {db db' : Db} {m : Meeting} {actor target : Participant} {user : User} {now : DateTime}

/-- An accepted host removes every row of its meeting but the one it acts with. -/
theorem hostRemove_commit (hm : requireHost db actor = .ok m) (ht : target ∈ db.participants)
    (hmeeting : target.meetingId = actor.meetingId) :
    (hostRemove db actor target.id now).commit = .ok db' ↔
      target.id ≠ actor.id ∧ db' = (markLeft db target now).2 := by
  have htarget : targetRow db actor target.id = .ok target :=
    targetRow_eq_ok.mpr ⟨Keyed.find?_of_mem ht, hmeeting⟩
  constructor
  · intro h
    obtain ⟨v, h⟩ := Service.commit_eq_ok.mp h
    obtain ⟨-, t, htrow, hself, hleft⟩ := hostRemove_eq_ok.mp h
    obtain rfl : target = t := Except.ok.inj (htarget.symm.trans htrow)
    exact ⟨hself, congrArg Prod.snd hleft⟩
  · rintro ⟨hself, rfl⟩
    exact Service.commit_eq_ok.mpr ⟨_, hostRemove_eq_ok.mpr ⟨⟨m, hm⟩, target, htarget, hself, rfl⟩⟩

/-- The host removes every row of its meeting that is somebody else's. -/
theorem removeParticipant_commit (ht : target ∈ db.participants)
    (hm : db.getMeeting target.meetingId = some m) (hhost : m.hostId = user.id) :
    (removeParticipant db target.id user now).commit = .ok db' ↔
      target.userId ≠ some user.id ∧ db' = (markLeft db target now).2 := by
  have htarget : db.getParticipant target.id = some target := Keyed.find?_of_mem ht
  constructor
  · intro h
    obtain ⟨v, h⟩ := Service.commit_eq_ok.mp h
    obtain ⟨p, n, hp, -, -, hself, hleft⟩ := removeParticipant_eq_ok.mp h
    obtain rfl : target = p := Option.some.inj (htarget.symm.trans hp)
    exact ⟨hself, congrArg Prod.snd hleft⟩
  · rintro ⟨hself, rfl⟩
    exact Service.commit_eq_ok.mpr
      ⟨_, removeParticipant_eq_ok.mpr ⟨target, m, htarget, hm, hhost, hself, rfl⟩⟩

/-- What commits nothing raises. -/
theorem Service.error_of_not_ok {α : Type} {x : Service α} (h : ∀ a, x ≠ .ok a) :
    ∃ e, x = .error e := by
  cases x with
  | error e => exact ⟨e, rfl⟩
  | ok a => exact absurd rfl (h a)

/-- The guards differ on the other rows of the host. -/
theorem removalsAgree_of_hostsStamped (hstamped : db.HostsStamped) (hm : m ∈ db.meetings)
    (hactor : actor ∈ db.participants) (hmeeting : actor.meetingId = m.id)
    (hhost : actor.userId = some m.hostId) (huser : user.id = m.hostId)
    (htarget : target ∈ db.participants)
    (htmeeting : target.meetingId = m.id) :
    RemovalsAgree db actor target user now ↔ target.id = actor.id ∨
      target.userId ≠ some m.hostId := by
  have hrole : actor.role = .host := hstamped actor hactor m hm hmeeting.symm hhost
  have hfound : db.getMeeting m.id = some m := Keyed.find?_of_mem hm
  have hrequired : requireHost db actor = .ok m :=
    requireHost_eq_ok.mpr ⟨by rw [hmeeting, hfound], hrole, hhost.symm⟩
  have hsocket {db' : Db} : (hostRemove db actor target.id now).commit = .ok db' ↔
      target.id ≠ actor.id ∧ db' = (markLeft db target now).2 :=
    hostRemove_commit hrequired htarget (htmeeting.trans hmeeting.symm)
  have hrest {db' : Db} : (removeParticipant db target.id user now).commit = .ok db' ↔
      target.userId ≠ some user.id ∧ db' = (markLeft db target now).2 :=
    removeParticipant_commit htarget (by rw [htmeeting, hfound]) huser.symm
  rw [RemovalsAgree, ← huser]
  constructor
  · rintro (⟨e, e', h, -⟩ | ⟨db', -, h⟩)
    · left
      by_contra hself
      rw [hsocket.mpr ⟨hself, rfl⟩] at h
      cases h
    · exact .inr (hrest.mp h).1
  · intro h
    by_cases hself : target.id = actor.id
    · -- its own row is one of the host's
      obtain rfl : target = actor := Keyed.eq_of_key_eq htarget hactor hself
      obtain ⟨e, he⟩ := Service.error_of_not_ok fun db' h => (hsocket.mp h).1 rfl
      obtain ⟨e', he'⟩ := Service.error_of_not_ok fun db' h => (hrest.mp h).1 (huser ▸ hhost)
      exact .inl ⟨e, e', he, he'⟩
    · have hother := h.resolve_left hself
      exact .inr ⟨_, hsocket.mpr ⟨hself, rfl⟩, hrest.mpr ⟨hother, rfl⟩⟩

end Removing

/-- **Where the two removals agree.**  In every reachable database, for every row of a
meeting's host as the actor, open or closed, and every row of that meeting as the target. -/
theorem removals_agree_iff (ops : List Operation) {m : Meeting}
    {actor target : Participant} {user : User}
    (hm : m ∈ (Runs.run Db.apply .empty ops).meetings)
    (hactor : actor ∈ (Runs.run Db.apply .empty ops).participants)
    (hmeeting : actor.meetingId = m.id)
    (hhost : actor.userId = some m.hostId) (huser : user.id = m.hostId)
    (htarget : target ∈ (Runs.run Db.apply .empty ops).participants)
    (htmeeting : target.meetingId = m.id)
    (now : DateTime) : RemovalsAgree (Runs.run Db.apply .empty ops) actor target user now ↔
      target.id = actor.id ∨ target.userId ≠ some m.hostId :=
  removalsAgree_of_hostsStamped
    (always_hostsStamped ops).last.2 hm hactor hmeeting hhost huser htarget
    htmeeting

/-- A host enters its meeting twice. -/
def openTwice : List Operation :=
  openRequests.map .request ++
    [.request (.joinMeeting "host" "10000000003" {} ⟨"1", "s1"⟩ 20),
     .request (.joinMeeting "host" "10000000003" {} ⟨"2", "s2"⟩ 25)]

/-- The rows of that host. -/
theorem rows_openTwice (targetId : ParticipantId) (h : targetId = "1" ∨ targetId = "2") :
    ∃ m ∈ (Runs.run Db.apply .empty openTwice).meetings,
      ∃ actor ∈ (Runs.run Db.apply .empty openTwice).participants,
      ∃ target ∈ (Runs.run Db.apply .empty openTwice).participants,
      ∃ user ∈ (Runs.run Db.apply .empty openTwice).users,
        actor.id = "1" ∧ target.id = targetId ∧ actor.meetingId = m.id ∧
          actor.userId = some m.hostId ∧
          actor.leftAt = none ∧ user.id = m.hostId ∧ target.meetingId = m.id ∧
          target.userId = some m.hostId := by
  have hrows : ∀ targetId ∈ ["1", "2"], ∃ m ∈ (Runs.run Db.apply .empty openTwice).meetings.rows,
      ∃ actor ∈ (Runs.run Db.apply .empty openTwice).participants.rows,
      ∃ target ∈ (Runs.run Db.apply .empty openTwice).participants.rows,
      ∃ user ∈ (Runs.run Db.apply .empty openTwice).users.rows,
        actor.id = "1" ∧ target.id = targetId ∧ actor.meetingId = m.id ∧
          actor.userId = some m.hostId ∧
          actor.leftAt = none ∧ user.id = m.hostId ∧ target.meetingId = m.id ∧
          target.userId = some m.hostId := by decide +kernel
  exact hrows targetId (by simpa using h)

theorem removals_agree_own : ∃ (m : Meeting) (actor target : Participant) (user : User),
    actor ∈ (Runs.run Db.apply .empty openTwice).participants ∧ actor.userId = some m.hostId ∧
    target.id = actor.id ∧
      (RemovalsAgree (Runs.run Db.apply .empty openTwice) actor target user 30 ↔
      target.id = actor.id ∨ target.userId ≠ some m.hostId) := by
  obtain ⟨m, hm, actor, hactor, target, htarget, user, -, hid, htid, hmeeting, hhost, -, huser,
    htmeeting, -⟩ := rows_openTwice "1" (.inl rfl)
  exact ⟨m, actor, target, user, hactor, hhost, htid.trans hid.symm,
    removals_agree_iff openTwice hm hactor hmeeting hhost huser htarget htmeeting 30⟩

/-- Over its socket a host removes its own other row, which the REST route refuses. -/
theorem removals_disagree : ¬ ∀ (ops : List Operation) (m : Meeting) (actor target : Participant)
    (user : User) (now : DateTime), m ∈ (Runs.run Db.apply .empty ops).meetings →
      actor ∈ (Runs.run Db.apply .empty ops).participants → actor.meetingId = m.id →
      actor.userId = some m.hostId → actor.leftAt = none → user.id = m.hostId →
      target ∈ (Runs.run Db.apply .empty ops).participants → target.meetingId = m.id →
      RemovalsAgree (Runs.run Db.apply .empty ops) actor target user now := by
  intro h
  obtain ⟨m, hm, actor, hactor, target, htarget, user, -, hid, htid, hmeeting, hhost, hopen, huser,
    htmeeting, hown⟩ := rows_openTwice "2" (.inr rfl)
  have hagree := h openTwice m actor target user 30 hm hactor hmeeting hhost
    hopen huser htarget htmeeting
  have hstamped := (always_hostsStamped openTwice).last.2
  rcases (removalsAgree_of_hostsStamped hstamped hm hactor hmeeting hhost huser
    htarget htmeeting).mp hagree
    with hsame | hother
  · rw [hid, htid] at hsame
    exact absurd hsame (by decide)
  · exact hother hown

end ZoomClone
