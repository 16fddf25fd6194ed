/-
The two ways to end a meeting.

`host_end_meeting` mirrors `end_meeting`: both finish the meeting row and evict
its open rows.  But only `end_meeting` consults `TRANSITIONS`, so a second
`host.end` of a meeting that has ended already succeeds and moves its `ended_at`.

* `Db.Numbered` — meeting numbers are digits and distinct, so that a meeting is
  found under its own number (`meetingByNumber_self`);
* `endings_agree_iff_live` — for a row that `require_host` accepts, the two agree
  exactly while the meeting is live.
-/
import ZoomClone.Lifecycle
import ZoomClone.People

namespace ZoomClone

/-! ### Meeting numbers -/

/-- Numbers are in normal form, and no two meetings share one. -/
structure Db.Numbered (db : Db) : Prop where
  digits : ∀ m ∈ db.meetings, normalizeMeetingNumber m.meetingNumber = m.meetingNumber
  distinct : ∀ m ∈ db.meetings, ∀ n ∈ db.meetings, m.meetingNumber = n.meetingNumber → m = n
  personal : ∀ u ∈ db.users, normalizeMeetingNumber u.personalMeetingId = u.personalMeetingId

theorem numbered_empty : Db.empty.Numbered where
  digits := fun m hm => absurd hm (Keyed.not_mem_empty m)
  distinct := fun m hm => absurd hm (Keyed.not_mem_empty m)
  personal := fun u hu => absurd hu (Keyed.not_mem_empty u)

theorem numbered_apply {db : Db} (h : db.Numbered) (op : Operation) : (db.apply op).Numbered := by
  obtain ⟨f, added, hmove⟩ := apply_meetings db op
  obtain ⟨husers, -⟩ := apply_people db op
  refine ⟨?_, ?_, ?_⟩
  · intro m' hm'
    rcases hmove.cases hm' with ⟨m, hm, hmoves⟩ | hcreates
    · rw [hmoves.meetingNumber]
      exact h.digits m hm
    · obtain ⟨host, hhost, -, hnumber | ⟨draw, hnumber⟩⟩ := hcreates.host
      · rw [hnumber]
        exact h.personal host (Keyed.mem_of_find? hhost)
      · rw [hnumber]
        exact normalize_generateMeetingNumber draw
  · -- Old rows keep their numbers, and a created one is told apart from them.
    intro m' hm' n' hn' heq
    rcases hmove.mem.mp hm' with ⟨m, hm, rfl⟩ | hm' <;>
      rcases hmove.mem.mp hn' with ⟨n, hn, rfl⟩ | hn'
    · rw [(hmove.moves m hm).meetingNumber, (hmove.moves n hn).meetingNumber] at heq
      rw [h.distinct m hm n hn heq]
    · rw [(hmove.moves m hm).meetingNumber] at heq
      exact absurd heq ((hmove.creates n' hn').newNumber m hm)
    · rw [(hmove.moves n hn).meetingNumber] at heq
      exact absurd heq.symm ((hmove.creates m' hm').newNumber n hn)
    · exact Option.some.inj (hm'.symm.trans hn')
  · intro v hv
    rcases husers.known v hv with ⟨u, hu, he⟩ | ⟨draw, hdraw⟩
    · rw [he.personalMeetingId]
      exact h.personal u hu
    · rw [hdraw]
      exact normalize_generateMeetingNumber draw

theorem always_numbered (ops : List Operation) : Runs.Always Db.apply Db.Numbered .empty ops :=
  Runs.always_of_step numbered_empty (fun _ op h => numbered_apply h op) ops

/-- A meeting is found under its own number. -/
theorem meetingByNumber_self {db : Db} (h : db.Numbered) {m : Meeting} (hm : m ∈ db.meetings) :
    db.meetingByNumber m.meetingNumber = some m := by
  cases hfind : db.meetingByNumber m.meetingNumber with
  | none =>
    have := List.find?_eq_none.mp hfind m hm
    simp [h.digits m hm] at this
  | some n =>
    have hnumber : n.meetingNumber = normalizeMeetingNumber m.meetingNumber := by
      simpa using List.find?_some hfind
    rw [h.digits m hm] at hnumber
    rw [h.distinct n (mem_of_meetingByNumber hfind) m hm hnumber]

/-! ### Ending a meeting -/

/-- The service call failed on `TRANSITIONS`. -/
def IsInvalidTransition (x : Service Db) : Prop :=
  ∃ current target, x = .error (.app (invalidStateTransition current target))

/-- `host_end_meeting` with the acting row and `end_meeting` with the number of
the meeting and the user, at the same instant: both are refused by the table, or
both commit the same database. -/
def EndingsAgree (db : Db) (actor : Participant) (m : Meeting) (user : User) (now : DateTime) :
    Prop :=
  (IsInvalidTransition (hostEndMeeting db actor now).commit ∧
      IsInvalidTransition (endMeeting db m.meetingNumber user now).commit) ∨
    ∃ db', (hostEndMeeting db actor now).commit = .ok db' ∧
      (endMeeting db m.meetingNumber user now).commit = .ok db'

/-- The database after a meeting is ended, by either way. -/
def Db.endAll (db : Db) (id : MeetingId) (now : DateTime) : Db :=
  (db.updateMeetingRow id (·.finish now) (Meeting.finish_id · now)).evictAll id now

theorem mem_meetings_endAll {db : Db} {id : MeetingId} {now : DateTime} {m : Meeting} :
    m ∈ (db.endAll id now).meetings ↔
      ∃ n ∈ db.meetings, (if n.id = id then n.finish now else n) = m :=
  List.mem_map

theorem mem_participants_endAll {db : Db} {id : MeetingId} {now : DateTime} {p : Participant} :
    p ∈ (db.endAll id now).participants ↔
      ∃ q ∈ db.participants, (if q.meetingId = id ∧ q.leftAt = none then q.evict now else q) = p :=
  List.mem_map

section Ending

variable {db : Db} {actor : Participant} {m : Meeting} {user : User} {now : DateTime}

/-- An accepted host always ends its meeting. -/
theorem hostEndMeeting_commit (now : DateTime) (hm : requireHost db actor = .ok m) :
    (hostEndMeeting db actor now).commit = .ok (db.endAll m.id now) :=
  Service.commit_eq_ok.mpr ⟨_, hostEndMeeting_eq_ok.mpr ⟨m, hm, rfl, rfl⟩⟩

/-- The REST route ends a live meeting of the user. -/
theorem endMeeting_commit (now : DateTime) (hnumbered : db.Numbered) (hm : m ∈ db.meetings)
    (hhost : m.hostId = user.id) :
    (endMeeting db m.meetingNumber user now).commit =
      if m.status = .live then .ok (db.endAll m.id now)
      else .error (.app (invalidStateTransition m.status .ended)) := by
  have hfound : getByNumber db m.meetingNumber = .ok m :=
    getByNumber_eq_ok.mpr (meetingByNumber_self hnumbered hm)
  have howner : requireMeetingHost m user = .ok () := Service.require_eq_ok.mpr hhost
  by_cases hlive : m.status = .live
  · have hallowed : assertCanTransition m.status .ended = .ok () :=
      assertCanTransition_eq_ok.mpr (ended_mem_allowedTargets.mpr hlive)
    rw [if_pos hlive]
    simp only [endMeeting, hfound, howner, hallowed, bind, Except.bind]
    rfl
  · have hrefused : assertCanTransition m.status .ended =
        .error (.app (invalidStateTransition m.status .ended)) := by
      rw [assertCanTransition, Service.require, canTransition, if_neg]
      simpa [ended_mem_allowedTargets] using hlive
    rw [if_neg hlive]
    simp only [endMeeting, hfound, howner, hrefused, bind, Except.bind]
    rfl

/-- **The two ways agree exactly while the meeting is live.** -/
theorem endings_agree_iff_live (hnumbered : db.Numbered) (hm : requireHost db actor = .ok m)
    (huser : some user.id = actor.userId) :
    EndingsAgree db actor m user now ↔ m.status = .live := by
  obtain ⟨hget, -, howner⟩ := requireHost_eq_ok.mp hm
  have hhost : m.hostId = user.id := Option.some.inj (howner.trans huser.symm)
  have hrest := endMeeting_commit now hnumbered (getMeeting_mem hget) hhost
  have hsocket := hostEndMeeting_commit now hm
  rw [EndingsAgree, hrest, hsocket]
  constructor
  · rintro (⟨⟨current, target, h⟩, -⟩ | ⟨db', hdb', h⟩)
    · -- The socket never consults the table.
      cases h
    · by_contra hlive
      rw [if_neg hlive] at h
      cases h
  · intro hlive
    rw [if_pos hlive]
    exact .inr ⟨_, rfl, rfl⟩

end Ending

/-- **Where ending over the socket mirrors ending over REST.**  In every
reachable database, for every row that `require_host` accepts and its user. -/
theorem endingsAgree_iff (ops : List Operation) {actor : Participant} {m : Meeting} {user : User}
    (hm : requireHost (Runs.run Db.apply .empty ops) actor = .ok m)
    (huser : some user.id = actor.userId) (now : DateTime) :
    EndingsAgree (Runs.run Db.apply .empty ops) actor m user now ↔ m.status = .live :=
  endings_agree_iff_live (always_numbered ops).last hm huser

/-- A host opens a meeting, enters it and ends it over its socket. -/
def openAndEnd : List Operation :=
  openRequests.map .request ++
    [.request (.joinMeeting "host" "10000000003" {} ⟨"1", "s1"⟩ 20), .hostEndMeeting "1" 30]

/-- The row of that host still passes `require_host`. -/
theorem accepted_openAndEnd : ∃ actor ∈ (Runs.run Db.apply .empty openAndEnd).participants,
    ∃ m, ∃ user : User, requireHost (Runs.run Db.apply .empty openAndEnd) actor = .ok m ∧
      some user.id = actor.userId ∧ m.status = .ended := by
  have h : ∃ actor ∈ (Runs.run Db.apply .empty openAndEnd).participants.rows,
      ∃ m ∈ (Runs.run Db.apply .empty openAndEnd).meetings.rows,
      ∃ user ∈ (Runs.run Db.apply .empty openAndEnd).users.rows,
        ((Runs.run Db.apply .empty openAndEnd).getMeeting actor.meetingId = some m ∧
          actor.role = .host ∧ some m.hostId = actor.userId) ∧
        some user.id = actor.userId ∧ m.status = .ended := by decide +kernel
  obtain ⟨actor, hactor, m, -, user, -, haccepted, huser, hstatus⟩ := h
  exact ⟨actor, hactor, m, user, requireHost_eq_ok.mpr haccepted, huser, hstatus⟩

theorem endingsAgree_iff_ended : ∃ actor m, ∃ user : User,
    requireHost (Runs.run Db.apply .empty openAndEnd) actor = .ok m ∧ some user.id = actor.userId ∧
      (EndingsAgree (Runs.run Db.apply .empty openAndEnd) actor m user 40 ↔ m.status = .live) := by
  obtain ⟨actor, -, m, user, hm, huser, -⟩ := accepted_openAndEnd
  exact ⟨actor, m, user, hm, huser, endingsAgree_iff openAndEnd hm huser 40⟩

/-- A second `host.end` ends the meeting again, where the REST route refuses. -/
theorem endings_disagree :
    ¬ ∀ (ops : List Operation) (actor : Participant) (m : Meeting) (user : User)
    (now : DateTime), actor ∈ (Runs.run Db.apply .empty ops).participants →
      requireHost (Runs.run Db.apply .empty ops) actor = .ok m → some user.id = actor.userId →
      EndingsAgree (Runs.run Db.apply .empty ops) actor m user now := by
  intro h
  obtain ⟨actor, hactor, m, user, hm, huser, hended⟩ := accepted_openAndEnd
  have hagree := h openAndEnd actor m user 40 hactor hm huser
  have hlive := (endings_agree_iff_live (always_numbered openAndEnd).last hm huser).mp hagree
  rw [hended] at hlive
  cases hlive

end ZoomClone
