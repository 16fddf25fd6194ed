/-
Creating a meeting and editing one (`create_meeting`, `update_meeting`).

The two take the same fields and check them in separately written code.  They accept the
same values and store the same values; what they report back about the duration differs,
since the edit drops the flag that says that the plan of the host shortened it.

* `updateMeeting_accepts`, `createMeeting_accepts` — the values each of them accepts;
* `create_and_edit_agree_iff` — when the two agree in what they store and report.
-/
import ZoomClone.MeetingEdits

namespace ZoomClone

open Transaction Transaction.Program

/-! ### The fields both take -/

/-- A value for each field of a create that an edit can change. -/
structure MeetingFields where
  topic : String
  description : Option String
  scheduledStart : ApiDateTime
  durationMinutes : Int
  timezone : String
  waitingRoom : Bool
  hostVideoOn : Bool
  participantVideoOn : Bool
  allowTranscription : Bool
  chatBeforeAfter : Bool
  encryption : String

namespace MeetingFields

def toCreate (F : MeetingFields) : MeetingCreate where
  topic := some F.topic
  description := F.description
  scheduledStart := some F.scheduledStart
  durationMinutes := F.durationMinutes
  timezone := F.timezone
  waitingRoom := F.waitingRoom
  hostVideoOn := F.hostVideoOn
  participantVideoOn := F.participantVideoOn
  allowTranscription := F.allowTranscription
  chatBeforeAfter := F.chatBeforeAfter
  encryption := F.encryption

def toChanges (F : MeetingFields) : MeetingChanges where
  topic := some F.topic
  description := some F.description
  scheduledStart := some F.scheduledStart
  durationMinutes := some F.durationMinutes
  timezone := some F.timezone
  waitingRoom := some F.waitingRoom
  hostVideoOn := some F.hostVideoOn
  participantVideoOn := some F.participantVideoOn
  allowTranscription := some F.allowTranscription
  chatBeforeAfter := some F.chatBeforeAfter
  encryption := some F.encryption

/-- The values pass the checks, at that instant. -/
structure Accepted (F : MeetingFields) (now : DateTime) : Prop where
  topic : PyStr.strip F.topic ≠ "" ∧ (PyStr.strip F.topic).length ≤ maxTopicLength
  scheduledStart : now < asNaiveUtc F.scheduledStart
  duration : minDurationMinutes ≤ F.durationMinutes ∧ F.durationMinutes ≤ maxDurationMinutes
  encryption : F.encryption ∈ encryptionModes

/-- The plan of the host is shorter than the duration. -/
def ExceedsPlan (F : MeetingFields) (host : User) : Prop :=
  host.plan = .basic ∧ basicPlanDurationCap < F.durationMinutes

instance (F : MeetingFields) (host : User) : Decidable (F.ExceedsPlan host) :=
  inferInstanceAs (Decidable (_ ∧ _))

/-- The row holds the values, with the duration as the plan allows it. -/
structure StoredIn (F : MeetingFields) (host : User) (m : Meeting) : Prop where
  topic : m.topic = PyStr.strip F.topic
  description : m.description = F.description
  scheduledStart : m.scheduledStart = some (asNaiveUtc F.scheduledStart)
  durationMinutes : m.durationMinutes = if F.ExceedsPlan host then
    basicPlanDurationCap else F.durationMinutes
  timezone : m.timezone = F.timezone
  waitingRoom : m.waitingRoom = F.waitingRoom
  hostVideoOn : m.hostVideoOn = F.hostVideoOn
  participantVideoOn : m.participantVideoOn = F.participantVideoOn
  allowTranscription : m.allowTranscription = F.allowTranscription
  chatBeforeAfter : m.chatBeforeAfter = F.chatBeforeAfter
  encryption : m.encryption = F.encryption

end MeetingFields

/-- The rows agree on the fields that both take. -/
structure Meeting.SameFields (m n : Meeting) : Prop where
  topic : m.topic = n.topic
  description : m.description = n.description
  scheduledStart : m.scheduledStart = n.scheduledStart
  durationMinutes : m.durationMinutes = n.durationMinutes
  timezone : m.timezone = n.timezone
  waitingRoom : m.waitingRoom = n.waitingRoom
  hostVideoOn : m.hostVideoOn = n.hostVideoOn
  participantVideoOn : m.participantVideoOn = n.participantVideoOn
  allowTranscription : m.allowTranscription = n.allowTranscription
  chatBeforeAfter : m.chatBeforeAfter = n.chatBeforeAfter
  encryption : m.encryption = n.encryption

theorem MeetingFields.StoredIn.sameFields {F : MeetingFields} {host : User} {m n : Meeting}
    (hm : F.StoredIn host m) (hn : F.StoredIn host n) : m.SameFields n where
  topic := hm.topic.trans hn.topic.symm
  description := hm.description.trans hn.description.symm
  scheduledStart := hm.scheduledStart.trans hn.scheduledStart.symm
  durationMinutes := hm.durationMinutes.trans hn.durationMinutes.symm
  timezone := hm.timezone.trans hn.timezone.symm
  waitingRoom := hm.waitingRoom.trans hn.waitingRoom.symm
  hostVideoOn := hm.hostVideoOn.trans hn.hostVideoOn.symm
  participantVideoOn := hm.participantVideoOn.trans hn.participantVideoOn.symm
  allowTranscription := hm.allowTranscription.trans hn.allowTranscription.symm
  chatBeforeAfter := hm.chatBeforeAfter.trans hn.chatBeforeAfter.symm
  encryption := hm.encryption.trans hn.encryption.symm

/-! ### The checks -/

section Checks

variable {F : MeetingFields} {host : User} {now : DateTime}

theorem validateStart_eq_ok {value : ApiDateTime} {start : DateTime} :
    validateStart value now = .ok start ↔ start = asNaiveUtc value ∧ now < asNaiveUtc value := by
  simp only [validateStart, Service.bind_eq_ok, Service.require_eq_ok, Service.pure_eq_ok]
  constructor
  · rintro ⟨-, hfuture, rfl⟩
    exact ⟨rfl, hfuture⟩
  · rintro ⟨rfl, hfuture⟩
    exact ⟨(), hfuture, rfl⟩

/-- The duration as it is stored, and whether that is less than was asked for. -/
theorem resolveDuration_fields {stored : Int} {clamped : Bool} :
    resolveDuration F.durationMinutes host.plan = .ok (stored, clamped) ↔
      (minDurationMinutes ≤ F.durationMinutes ∧ F.durationMinutes ≤ maxDurationMinutes) ∧
        stored = (if F.ExceedsPlan host then basicPlanDurationCap else F.durationMinutes) ∧
        clamped = decide (F.ExceedsPlan host) := by
  rw [resolveDuration_eq_ok]
  by_cases hexceeds : F.ExceedsPlan host
  · have hplan : host.plan = .basic ∧ basicPlanDurationCap < F.durationMinutes := hexceeds
    simp [hplan, hexceeds]
  · have hplan : ¬ (host.plan = .basic ∧ basicPlanDurationCap < F.durationMinutes) := hexceeds
    simp [hplan, hexceeds]

/-- What is stored is not what was asked for exactly if the plan is shorter. -/
theorem storedDuration_ne_iff :
    (if F.ExceedsPlan host then basicPlanDurationCap else F.durationMinutes) ≠ F.durationMinutes ↔
      F.ExceedsPlan host := by
  split
  · next hexceeds => exact iff_of_true hexceeds.2.ne hexceeds
  · next hfits => exact iff_of_false (fun hne => hne rfl) hfits

end Checks

/-! ### Both accept the same values, and store the same -/

section Both

variable {F : MeetingFields} {db db' : Db} {host : User} {draws : CreateDraws} {now : DateTime}
  {meetingNumber : String} {m : Meeting} {v : MeetingView}

/-- What passes the checks of an edit, one by one. -/
theorem validateChanges_fields {topic : Option String} {start : Option DateTime}
    {duration : Option Int} :
    validateChanges host F.toChanges now = .ok (topic, start, duration) ↔
      F.Accepted now ∧ topic = some (PyStr.strip F.topic) ∧
        start = some (asNaiveUtc F.scheduledStart) ∧
        duration = some (if F.ExceedsPlan host then basicPlanDurationCap
          else F.durationMinutes) := by
  simp only [validateChanges, MeetingFields.toChanges, Service.bind_eq_ok,
    Service.pure_eq_ok, mapM_some_eq_ok,
    Prod.mk.injEq]
  constructor
  · rintro ⟨_, ⟨t, ht, rfl⟩, _, ⟨s, hs, rfl⟩, _, ⟨⟨d, clamped⟩, hd, rfl⟩, _,
      ⟨u, hu, rfl⟩, rfl, rfl, rfl⟩
    obtain ⟨rfl, htopic⟩ := validateTopic_eq_ok.mp ht
    obtain ⟨rfl, hstart⟩ := validateStart_eq_ok.mp hs
    obtain ⟨hrange, rfl, -⟩ := resolveDuration_fields.mp hd
    exact ⟨⟨htopic, hstart, hrange, validateEncryption_eq_ok.mp hu⟩, rfl, rfl, rfl⟩
  · rintro ⟨h, rfl, rfl, rfl⟩
    exact ⟨_, ⟨_, validateTopic_eq_ok.mpr ⟨rfl, h.topic⟩, rfl⟩, _,
      ⟨_, validateStart_eq_ok.mpr ⟨rfl, h.scheduledStart⟩, rfl⟩, _,
      ⟨_, resolveDuration_fields.mpr ⟨h.duration, rfl, rfl⟩, rfl⟩, _,
      ⟨(), validateEncryption_eq_ok.mpr h.encryption, rfl⟩, rfl, rfl, rfl⟩

/-- An edit accepts exactly the values that pass the checks. -/
theorem updateMeeting_accepts (hm : getByNumber db meetingNumber = .ok m)
    (hhost : m.hostId = host.id)
    (hscheduled : m.status = .scheduled) :
    (∃ w db', updateMeeting db meetingNumber host F.toChanges now = .ok (w, db')) ↔
      F.Accepted now := by
  constructor
  · rintro ⟨w, db', h⟩
    obtain ⟨_, _, _, _, -, -, hchecked, -⟩ := updateMeeting_checked h
    exact (validateChanges_fields.mp hchecked).1
  · intro haccepted
    have hchecked : validateChanges host F.toChanges now = .ok (_, _, _) :=
      validateChanges_fields.mpr ⟨haccepted, rfl, rfl, rfl⟩
    rw [updateMeeting_eq]
    exact ⟨_, _, Service.bind_eq_ok.mpr
      ⟨m, hm, Service.bind_eq_ok.mpr ⟨(), Service.require_eq_ok.mpr hhost,
      Service.bind_eq_ok.mpr ⟨(), Service.require_eq_ok.mpr hscheduled,
        Service.bind_eq_ok.mpr ⟨_, hchecked, rfl⟩⟩⟩⟩⟩

/-- What an edit stores, and that it reports no clamp. -/
theorem updateMeeting_stores
    (h : updateMeeting db meetingNumber host F.toChanges now = .ok (v, db')) :
    F.StoredIn host v.meeting ∧ v.meeting ∈ db'.meetings ∧ v.durationClamped = false := by
  obtain ⟨m, topic, start, duration, hm, -, hchecked, rfl, rfl⟩ := updateMeeting_checked h
  obtain ⟨-, rfl, rfl, rfl⟩ := validateChanges_fields.mp hchecked
  refine ⟨⟨rfl, rfl, rfl, rfl, rfl, rfl, rfl, rfl, rfl, rfl, rfl⟩, ?_, rfl⟩
  exact Db.mem_updateMeetingRow.mpr ⟨m, mem_of_meetingByNumber hm, if_pos rfl⟩

/-- A topic that is given is not replaced. -/
theorem given_toCreate (htopic : F.topic ≠ "") (name : String) :
    (given F.toCreate.topic).getD name = F.topic := by
  have hgiven : given F.toCreate.topic = some F.topic := given_eq_some.mpr ⟨rfl, htopic⟩
  rw [hgiven, Option.getD_some]

/-- A create accepts them once a number can be had. -/
theorem createMeeting_accepts (htopic : F.topic ≠ "")
    (htakes : ∃ k < maxGenerationAttempts, db.Takes draws k) :
    (∃ v db', createMeeting db host F.toCreate draws now = .ok (v, db')) ↔ F.Accepted now := by
  constructor
  · rintro ⟨v, db', h⟩
    obtain ⟨⟨t, ht⟩, ⟨s, hs⟩, ⟨⟨d, clamped⟩, hd⟩, ⟨u, hu⟩, -⟩ := createMeeting_accepted h
    rw [given_toCreate htopic] at ht
    obtain ⟨start, hstart, -⟩ := mapM_some_eq_ok.mp hs
    obtain ⟨rfl, htopic⟩ := validateTopic_eq_ok.mp ht
    exact ⟨htopic, (validateStart_eq_ok.mp hstart).2, (resolveDuration_fields.mp hd).1,
      validateEncryption_eq_ok.mp hu⟩
  · intro haccepted
    obtain ⟨k, hk, htakes⟩ := htakes
    refine createMeeting_of_accepted ?_ rfl hk htakes
    exact {
      topic :=
        ⟨_, by rw [given_toCreate htopic]; exact validateTopic_eq_ok.mpr ⟨rfl, haccepted.topic⟩⟩
      scheduledStart := ⟨some _, mapM_some_eq_ok.mpr
        ⟨_, validateStart_eq_ok.mpr ⟨rfl, haccepted.scheduledStart⟩, rfl⟩⟩
      duration := ⟨_, resolveDuration_fields.mpr ⟨haccepted.duration, rfl, rfl⟩⟩
      encryption := ⟨(), validateEncryption_eq_ok.mpr haccepted.encryption⟩
      invitees := ⟨db, rfl⟩ }

/-- What a create stores, and that it reports the clamp. -/
theorem createMeeting_stores (htopic : F.topic ≠ "")
    (h : createMeeting db host F.toCreate draws now = .ok (v, db')) :
    F.StoredIn host v.meeting ∧ v.meeting ∈ db'.meetings ∧
      v.durationClamped = decide (F.ExceedsPlan host) := by
  simp only [createMeeting, Service.bind_eq_ok, Service.pure_eq_ok] at h
  obtain ⟨topic, ht, start, hs, ⟨duration, clamped⟩, hd, _, -, ⟨row, db₁⟩, hrow, db₂, hinv, h⟩ := h
  obtain ⟨rfl, rfl⟩ := Prod.mk.inj h
  obtain ⟨⟨k, number, -, rfl⟩, hins⟩ := insertNewMeeting_ok hrow
  obtain ⟨hid, rfl, -⟩ := Db.insertMeeting_ok hins
  rw [given_toCreate htopic] at ht
  obtain ⟨s, hstart, rfl⟩ := mapM_some_eq_ok.mp hs
  obtain ⟨rfl, -⟩ := validateTopic_eq_ok.mp ht
  obtain ⟨rfl, -⟩ := validateStart_eq_ok.mp hstart
  obtain ⟨-, rfl, rfl⟩ := resolveDuration_fields.mp hd
  refine ⟨⟨rfl, rfl, rfl, rfl, rfl, rfl, rfl, rfl, rfl, rfl, rfl⟩, ?_, rfl⟩
  rw [(insertInvitees_ok hinv).meetings]
  exact (Keyed.mem_insert (h := hid)).mpr (.inr rfl)

end Both

/-- The flag of an answer says whether what is stored is not what was asked for. -/
def MeetingView.ReportsClamp (v : MeetingView) (F : MeetingFields) : Prop :=
  v.durationClamped = true ↔ v.meeting.durationMinutes ≠ F.durationMinutes

/-- A create and an edit of a meeting with the same values: one is accepted if the other is,
both store the same, and both report whether the plan shortened the duration. -/
structure CreateAndEditAgree (db : Db) (host : User) (F : MeetingFields) (draws : CreateDraws)
    (meetingNumber : String) (now : DateTime) : Prop where
  accepted : (∃ v db', request (InSession.createMeeting host F.toCreate draws now) db =
    (.ok v, db')) ↔
    ∃ w db', request (InSession.updateMeeting meetingNumber host F.toChanges now) db = (.ok w, db')
  stored : ∀ v db₁ w db₂, request (InSession.createMeeting host F.toCreate draws now) db =
    (.ok v, db₁) →
    request (InSession.updateMeeting meetingNumber host F.toChanges now) db = (.ok w, db₂) →
      v.meeting ∈ db₁.meetings ∧ w.meeting ∈ db₂.meetings ∧ v.meeting.SameFields w.meeting ∧
        v.ReportsClamp F ∧ w.ReportsClamp F

/-- The flag reports the clamp if it is set just where the plan is exceeded. -/
theorem reportsClamp_iff {F : MeetingFields} {host : User} {v : MeetingView}
    (h : F.StoredIn host v.meeting) :
    v.ReportsClamp F ↔ (v.durationClamped = true ↔ F.ExceedsPlan host) := by
  rw [MeetingView.ReportsClamp, h.durationMinutes, storedDuration_ne_iff]

/-- An edit that shortens the duration does so silently. -/
theorem edit_drops_clamp {db : Db} {host : User} {F : MeetingFields} {draws : CreateDraws}
    {meetingNumber : String} {m : Meeting} {now : DateTime} (htopic : F.topic ≠ "")
    (htakes : ∃ k < maxGenerationAttempts, db.Takes draws k)
    (hm : getByNumber db meetingNumber = .ok m)
    (hhost : m.hostId = host.id) (hscheduled : m.status = .scheduled) (haccepted : F.Accepted now)
    (hexceeds : F.ExceedsPlan host) : ¬ CreateAndEditAgree db host F draws meetingNumber now := by
  intro h
  obtain ⟨v, db₁, hcreate⟩ : ∃ v db', createMeeting db host F.toCreate draws now = .ok (v, db') :=
    (createMeeting_accepts htopic htakes).mpr haccepted
  obtain ⟨w, db₂, hupdate⟩ := (updateMeeting_accepts hm hhost hscheduled).mpr haccepted
  obtain ⟨-, -, -, -, hreports⟩ := h.stored v db₁ w db₂
    (by rw [settles_createMeeting, hcreate]; rfl) (by rw [settles_updateMeeting, hupdate]; rfl)
  -- the answer of the edit never carries the flag
  obtain ⟨hw, -, hflag⟩ := updateMeeting_stores hupdate
  rw [reportsClamp_iff hw, hflag] at hreports
  exact Bool.false_ne_true (hreports.mpr hexceeds)

/-- **Creating and editing agree exactly if the plan is not exceeded by values that pass the
checks.** -/
theorem create_and_edit_agree_iff {db : Db} {host : User} {F : MeetingFields} {draws : CreateDraws}
    {meetingNumber : String} {m : Meeting} {now : DateTime} (htopic : F.topic ≠ "")
    (htakes : ∃ k < maxGenerationAttempts, db.Takes draws k)
    (hm : getByNumber db meetingNumber = .ok m)
    (hhost : m.hostId = host.id) (hscheduled : m.status = .scheduled) :
    CreateAndEditAgree db host F draws meetingNumber now ↔
      ¬ (F.Accepted now ∧ F.ExceedsPlan host) := by
  constructor
  · rintro h ⟨haccepted, hexceeds⟩
    exact edit_drops_clamp htopic htakes hm hhost hscheduled haccepted hexceeds h
  · intro hfits
    constructor
    · simp only [settles_createMeeting, settles_updateMeeting, Service.settle_eq_ok]
      rw [createMeeting_accepts htopic htakes, updateMeeting_accepts hm hhost hscheduled]
    · intro v db₁ w db₂ hcreate hupdate
      rw [settles_createMeeting, Service.settle_eq_ok] at hcreate
      rw [settles_updateMeeting, Service.settle_eq_ok] at hupdate
      -- What was created has passed the checks, so the plan is not exceeded.
      have hwithin : ¬ F.ExceedsPlan host := fun hexceeds =>
        hfits ⟨(createMeeting_accepts htopic htakes).mp ⟨v, db₁, hcreate⟩, hexceeds⟩
      obtain ⟨hv, hvstored, hvflag⟩ := createMeeting_stores htopic hcreate
      obtain ⟨hw, hwstored, hwflag⟩ := updateMeeting_stores hupdate
      refine ⟨hvstored, hwstored, hv.sameFields hw, ?_, ?_⟩
      · rw [reportsClamp_iff hv, hvflag, decide_eq_true_iff]
      · rw [reportsClamp_iff hw, hwflag]
        exact iff_of_false Bool.false_ne_true hwithin

/-- The fields of a meeting of that many minutes. -/
def retro (minutes : Int) : MeetingFields where
  topic := "Retro"
  description := none
  scheduledStart := { wall := 200 }
  durationMinutes := minutes
  timezone := "UTC"
  waitingRoom := true
  hostVideoOn := true
  participantVideoOn := true
  allowTranscription := false
  chatBeforeAfter := true
  encryption := "enhanced"

theorem plannedRoom_takes : ∃ k < maxGenerationAttempts, plannedRoom.Takes secondTry k := by
  refine ⟨1, by decide, show "new" ∉ plannedRoom.meetings.keys by decide, ?_⟩
  intro n hn
  obtain rfl := List.mem_singleton.mp hn
  decide +kernel

/-- Half an hour is within the plan. -/
theorem half_hour_agrees :
    CreateAndEditAgree plannedRoom basicHost (retro 30) secondTry "895 9025 0750" 30 ↔
    ¬ ((retro 30).Accepted 30 ∧ (retro 30).ExceedsPlan basicHost) :=
  create_and_edit_agree_iff (m := plannedRoom.meetings.rows[0]) (by decide) plannedRoom_takes
    (by rfl) rfl rfl

/-- An hour is cut to forty minutes, and the answer of the edit does not say so. -/
theorem hour_cut_silently : ¬ ∀ (db : Db) (host : User) (F : MeetingFields) (draws : CreateDraws)
    (meetingNumber : String) (m : Meeting) (now : DateTime), F.topic ≠ "" →
    (∃ k < maxGenerationAttempts, db.Takes draws k) → getByNumber db meetingNumber = .ok m →
      m.hostId = host.id →
    m.status = .scheduled → CreateAndEditAgree db host F draws meetingNumber now := by
  intro h
  have haccepted : (retro 60).Accepted 30 := ⟨by decide, by decide, by decide, by decide⟩
  exact edit_drops_clamp (m := plannedRoom.meetings.rows[0]) (by decide) plannedRoom_takes
    (by rfl) rfl rfl haccepted
    (by decide) (h plannedRoom basicHost
      (retro 60) secondTry "895 9025 0750" plannedRoom.meetings.rows[0] 30
      (by decide) plannedRoom_takes (by rfl) rfl rfl)

end ZoomClone
