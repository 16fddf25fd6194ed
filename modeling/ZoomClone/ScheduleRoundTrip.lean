/-
The schedule form around a stored meeting.

A form that was saved is stored by the API, sent back, and loaded into the form again for an
edit.  On the way the topic is trimmed in two languages, the start goes through UTC and back
through the controls of the browser, and the plan may shorten the duration.

* `combine_split` — the controls name the minute of the instant that was split;
* `unchanged_save_iff` — when opening a meeting and saving it as it is leaves the row alone;
* `reopened_sends_same_iff` — when the form of a new meeting sends again what was sent.
-/
import ZoomClone.ScheduleForm
import ZoomClone.StoredMeetings

namespace ZoomClone

open JsDate

/-! ### The start -/

/-- A number of four digits is at least a thousand. -/
theorem thousand_le_of_length {n : ℕ} (h : (toString n).toList.length = 4) : 1000 ≤ n := by
  by_contra hlt
  have hle := (Nat.length_toDigits_le_iff (b := 10) (n := n) (k := 3) (by decide) (by decide)).mpr
    (by omega)
  rw [Nat.toString_eq_repr, Nat.toList_repr] at h
  omega

/-- The hour of the day is that of the clock again. -/
theorem hour24_of_twelve {hours24 : ℕ} (h : hours24 < 24) :
    (if hours24 % 12 = 0 then 12 else hours24 % 12) % 12 +
      (if (if hours24 ≥ 12 then Meridiem.pm else .am) = .pm then 12 else 0) = hours24 := by
  by_cases hpm : hours24 ≥ 12
  · rw [if_pos hpm, if_pos rfl]
    split_ifs <;> omega
  · rw [if_neg hpm, if_neg (show Meridiem.am ≠ .pm by decide)]
    split_ifs <;> omega

/-- A date text that has the shape of the control has a year of four digits. -/
theorem thousand_le_year {dateValue : String} {year month day : List Char}
    (hshape : DateShape dateValue year month day)
    {t : ℤ} (h : toString (yearFromDay (dayOf t)) ++ "-" ++
      pad (monthFromDay (dayOf t) + 1) ++ "-" ++
      pad (dateFromDay (dayOf t)).toNat = dateValue) : 1000 ≤ number year := by
  obtain ⟨hyear, -, -⟩ := fields_of_date hshape h
  obtain ⟨hmonth, hday, hday'⟩ := fields_spec (dayOf t)
  have hle := monthLength_le (inLeapYear (yearFromDay (dayOf t))) hmonth
  have hpadMonth : (pad (monthFromDay (dayOf t) + 1)).toList.length = 2 := length_pad (by omega)
  have hpadDay : (pad (dateFromDay (dayOf t)).toNat).toList.length = 2 := length_pad (by omega)
  have hyearText : toString (yearFromDay (dayOf t)) = toString (number year) := by rw [hyear]; rfl
  have hlength := congrArg List.length (congrArg String.toList h)
  rw [hshape.toList, hyearText] at hlength
  simp only [String.toList_append, List.length_append, List.length_cons,
    hshape.year_length, hshape.month_length,
    hshape.day_length, hpadMonth, hpadDay, show "-".toList = ['-'] from rfl,
      List.length_nil] at hlength
  exact thousand_le_of_length (by omega)

/-- **Splitting and combining** keeps the minute that the clock shows. -/
theorem combine_split {zone : LocalZone} {date t : ℤ}
    (h : combineDateAndTime zone (splitDateAndTime zone date).date (splitDateAndTime zone date).time
      (splitDateAndTime zone date).meridiem = some t) :
    t = zone.utc (zone.localTime date - zone.localTime date % 60000) := by
  obtain ⟨t', ht', rfl⟩ := utc_of_combine h
  simp only [localTimeOfControls, bind, Option.bind_eq_some_iff, pure,
    Option.some.injEq, Prod.exists] at ht'
  obtain ⟨year, month, day, hdate, rawHour, minute, htime, rfl⟩ := ht'
  obtain ⟨hY, hM, hD⟩ := fields_of_date (t := zone.localTime date) (dateShape_of_match hdate) rfl
  have hthousand := thousand_le_year (t := zone.localTime date) (dateShape_of_match hdate) rfl
  obtain ⟨hH, hmin⟩ :=
    fields_of_time (timeShape_of_match htime) (minFromTime_lt (zone.localTime date)) (.inl rfl)
  have hday := (fields_spec (dayOf (zone.localTime date))).2.1
  -- the fields are those of the local time, less its seconds
  have hmonth : (number month : ℤ) - 1 = monthFromDay (dayOf (zone.localTime date)) := by omega
  have hdateField : (number day : ℤ) = dateFromDay (dayOf (zone.localTime date)) := by omega
  have hhour : number rawHour % 12 +
    (if (splitDateAndTime zone date).meridiem = .pm then 12 else 0) =
      hourFromTime (zone.localTime date) := by
    rw [← hH]
    exact hour24_of_twelve (hourFromTime_lt _)
  rw [localTimeOf, if_neg (by omega), hmonth, hdateField, ← hY, makeDay_fields,
    hhour, ← hmin, makeDate_fields]

/-- Milliseconds and microseconds. -/
theorem micros_eq_iff {t s : ℤ} : 1000 * t = s ↔ s % 1000 = 0 ∧ t = startDate s := by
  show 1000 * t = s ↔ s % 1000 = 0 ∧ t = s / 1000
  omega

@[simp] theorem startDate_micros (t : ℤ) : startDate (1000 * t) = t := (micros_eq_iff.mp rfl).2.symm

/-! ### Saving what was loaded -/

/-- An update of one row changes nothing exactly if it leaves that row alone. -/
theorem updateMeetingRow_eq_self {db : Db} {m : Meeting}
    (hm : m ∈ db.meetings) {f : Meeting → Meeting}
    (hf : ∀ m, (f m).id = m.id) : db.updateMeetingRow m.id f hf = db ↔ f m = m := by
  constructor
  · intro h
    have hmem : f m ∈ (db.updateMeetingRow m.id f hf).meetings :=
      Db.mem_updateMeetingRow.mpr ⟨m, hm, if_pos rfl⟩
    rw [h] at hmem
    exact Keyed.eq_of_key_eq hmem hm (hf m)
  · intro h
    have hrows : db.meetings.modify m.id f hf = db.meetings := by
      refine Keyed.map_eq_self.mpr fun n hn => ?_
      split
      · next hid => rw [Keyed.eq_of_key_eq hn hm hid, h]
      · rfl
    rw [Db.updateMeetingRow, hrows]

/-- What is stored of a topic stays as it is exactly if the browser finds nothing to trim. -/
theorem strip_trim_eq_self {s : String} (h : PyStr.strip s = s) :
    PyStr.strip (JsStr.trim s) = s ↔ JsStr.trim s = s :=
  stripWhile_stripWhile_eq_self_iff h

/-- A trimmed text that is not empty is what is stored of a description. -/
theorem given_trim_eq {description : Option String} :
    given (some (JsStr.trim (description.getD ""))) = description ↔
    ∀ d, description = some d → d ≠ "" ∧ JsStr.trim d = d := by
  cases description with
  | none => exact iff_of_true rfl (by simp)
  | some d =>
    rw [given_eq_some, Option.getD_some, Option.some.injEq]
    constructor
    · rintro ⟨htrim, hne⟩ d' hd'
      obtain rfl := Option.some.inj hd'
      exact ⟨hne, htrim⟩
    · intro h
      exact (h d rfl).symm

/-- The row goes through the form as it is. -/
structure Meeting.FormKeeps (m : Meeting) (viewer : Viewer) : Prop where
  topic : JsStr.trim m.topic = m.topic
  description : ∀ d, m.description = some d → d ≠ "" ∧ JsStr.trim d = d
  timezone : m.timezone ≠ ""
  /-- A full minute on the clock of the browser, at its first reading. -/
  scheduledStart : ∀ s, m.scheduledStart = some s → s % 1000 = 0 ∧
    viewer.zone.localTime (startDate s) % 60000 = 0 ∧
      viewer.zone.utc (viewer.zone.localTime (startDate s)) = startDate s

section Unchanged

variable {m : Meeting} {viewer : Viewer} {loaded clock start : ℤ} {duration : Int}
  {s : DateTime} {host : User}
  {now : DateTime} {db : Db}

/-- The start that an unchanged form sends. -/
theorem start_of_loaded (hs : m.scheduledStart = some s)
    (hvalid : (stateFromMeeting viewer loaded m).LetThrough viewer clock start duration) :
    start = viewer.zone.utc
      (viewer.zone.localTime (startDate s) - viewer.zone.localTime (startDate s) % 60000) := by
  have hnames := hvalid.names
  simp only [FormState.start, stateFromMeeting, hs, Option.map_some, Option.getD_some] at hnames
  exact combine_split hnames

/-- The hours and minutes of a loaded form are the duration of the meeting. -/
theorem totalDuration_loaded (h : 0 ≤ m.durationMinutes) :
    (stateFromMeeting viewer loaded m).totalDuration = m.durationMinutes := by
  show m.durationMinutes / 60 * 60 + m.durationMinutes.tmod 60 = m.durationMinutes
  rw [Int.tmod_eq_emod_of_nonneg h]
  omega

theorem duration_of_loaded (hrow : m.Valid (some host))
    (hvalid : (stateFromMeeting viewer loaded m).LetThrough viewer clock start duration) :
    duration = m.durationMinutes :=
  hvalid.total.trans (totalDuration_loaded (le_trans (by decide) hrow.duration.1))

theorem storedDuration_eq_self_iff {plan : Plan} :
    storedDuration plan duration = duration ↔
      ¬ (plan = .basic ∧ basicPlanDurationCap < duration) := by
  rw [storedDuration]
  split_ifs with hexceeds
  · exact iff_of_false hexceeds.2.ne (not_not.mpr hexceeds)
  · exact iff_of_true rfl hexceeds

theorem storedDuration_of_valid (hrow : m.Valid (some host)) :
    storedDuration host.plan m.durationMinutes = m.durationMinutes := by
  rw [storedDuration_eq_self_iff]
  rintro ⟨hbasic, hexceeds⟩
  exact not_le.mpr hexceeds (hrow.plan host rfl hbasic)

/-- The zone of a loaded form is that of the meeting, unless it has none. -/
theorem timezone_loaded_iff :
    (stateFromMeeting viewer loaded m).timezone = m.timezone ↔ m.timezone ≠ "" := by
  show (if m.timezone = "" then viewer.timeZone else m.timezone) = m.timezone ↔ _
  split_ifs with hempty
  · rw [hempty]
    exact iff_of_false viewer.named (not_not.mpr rfl)
  · exact iff_of_true rfl hempty

/-- The start comes back exactly if it is a full minute that the clock shows for the first time. -/
theorem start_comesBack_iff (hgap : viewer.zone.NoGapAt
      (viewer.zone.localTime (startDate s) - viewer.zone.localTime (startDate s) % 60000)) :
    1000 * viewer.zone.utc
      (viewer.zone.localTime (startDate s) - viewer.zone.localTime (startDate s) % 60000) = s ↔
      s % 1000 = 0 ∧ viewer.zone.localTime (startDate s) % 60000 = 0 ∧
        viewer.zone.utc (viewer.zone.localTime (startDate s)) = startDate s := by
  rw [micros_eq_iff]
  refine and_congr_right fun _ => ⟨fun hms => ?_, ?_⟩
  · -- the minute is the local time of the start itself
    rw [LocalZone.NoGapAt, hms] at hgap
    have hzero : viewer.zone.localTime (startDate s) % 60000 = 0 := by omega
    rw [hzero, Int.sub_zero] at hms
    exact ⟨hzero, hms⟩
  · rintro ⟨hzero, hutc⟩
    rw [hzero, Int.sub_zero, hutc]

theorem encryption_of_loaded (hrow : m.Valid (some host)) :
    (stateFromMeeting viewer loaded m).encryption = m.encryption := by
  have hne : m.encryption ≠ "" := fun hempty => absurd (hempty ▸ hrow.encryption) (by decide)
  exact if_neg hne

/-- What an accepted edit writes. -/
theorem patchMeeting_writes {form : FormState} {meetingNumber : String} {v : MeetingView} {db' : Db}
    (hthrough : form.LetThrough viewer clock start duration)
    (hm : getByNumber db meetingNumber = .ok m)
    (htaken : form.Taken start now)
    (hsaved : patchMeeting db host meetingNumber (form.toChanges start duration) now =
      .ok (v, db')) :
    db' = db.updateMeetingRow m.id (·.edit (form.toChanges start duration)
      (some (PyStr.strip (JsStr.trim form.topic))) (some (1000 * start))
      (some (storedDuration host.plan duration)))
        fun m => m.edit_id .. := by
  obtain ⟨m', topic, stored, minutes, hm', -, hchecked, -, rfl⟩ :=
    updateMeeting_checked (patchMeeting_eq_ok.mp hsaved).2
  obtain rfl : m = m' := Option.some.inj ((getByNumber_eq_ok.mp hm).symm.trans hm')
  rw [validateChanges_toChanges hthrough htaken] at hchecked
  obtain ⟨rfl, rfl, rfl⟩ : _ = topic ∧ _ = stored ∧ _ = minutes := by simpa using hchecked
  rfl

/-- What an edit with the loaded form writes is what was there. -/
theorem edit_loaded_eq_self_iff {topic : String} {stored : DateTime} (hrow : m.Valid (some host))
    (hs : m.scheduledStart = some s) :
    m.edit ((stateFromMeeting viewer loaded m).toChanges start duration) (some topic) (some stored)
        (some m.durationMinutes) = m ↔
      topic = m.topic ∧ given (some (JsStr.trim (m.description.getD ""))) =
        m.description ∧ stored = s ∧
        m.timezone ≠ "" := by
  constructor
  · intro h
    exact ⟨congrArg Meeting.topic h, congrArg Meeting.description h,
      Option.some.inj ((congrArg Meeting.scheduledStart h).trans hs),
      timezone_loaded_iff.mp (congrArg Meeting.timezone h)⟩
  · rintro ⟨rfl, hdescription, rfl, hzone⟩
    have htimezone : (stateFromMeeting viewer loaded m).timezone = m.timezone :=
      timezone_loaded_iff.mpr hzone
    have hencryption : (stateFromMeeting viewer loaded m).encryption = m.encryption :=
      encryption_of_loaded hrow
    have hloaded : (stateFromMeeting viewer loaded m).description = m.description.getD "" := rfl
    have hsome : (some stored <|> m.scheduledStart) = m.scheduledStart := by
      rw [hs]
      rfl
    simp only [Meeting.edit, FormState.toChanges, Option.getD_some, hsome,
      htimezone, hencryption, hloaded,
      hdescription]
    rfl

/-- **Saving what was loaded.** -/
theorem unchanged_save_row {meetingNumber : String} (hm : getByNumber db meetingNumber = .ok m)
    (hhost : m.hostId = host.id) (hscheduled : m.status = .scheduled) (hrow : m.Valid (some host))
    (hs : m.scheduledStart = some s)
    (hthrough : (stateFromMeeting viewer loaded m).LetThrough viewer clock start duration)
    (hgap : viewer.zone.NoGapAt
      (viewer.zone.localTime (startDate s) - viewer.zone.localTime (startDate s) % 60000))
    (hyear : (toApiDate start).IsPython) (hahead : now < 1000 * start) :
    (∃ v, patchMeeting db host meetingNumber
      ((stateFromMeeting viewer loaded m).toChanges start duration) now =
        .ok (v, db)) ↔ m.FormKeeps viewer := by
  have hmem : m ∈ db.meetings := mem_of_meetingByNumber (getByNumber_eq_ok.mp hm)
  have hstart := start_of_loaded hs hthrough
  obtain rfl : duration = m.durationMinutes := duration_of_loaded hrow hthrough
  have hencryption : (stateFromMeeting viewer loaded m).encryption ∈ encryptionModes := by
    rw [encryption_of_loaded hrow]
    exact hrow.encryption
  have hanswer : SaveAnswered (stateFromMeeting viewer loaded m) start now
    (patchMeeting db host meetingNumber
      ((stateFromMeeting viewer loaded m).toChanges start m.durationMinutes) now) :=
    saveAnswered_of_answer (patchMeeting_answer hthrough hm hhost hscheduled)
  -- a save that is taken leaves the row alone exactly if it writes what was there
  have hkeeps {v : MeetingView} {db' : Db}
    (htaken : (stateFromMeeting viewer loaded m).Taken start now)
      (hsaved : patchMeeting db host meetingNumber
        ((stateFromMeeting viewer loaded m).toChanges start m.durationMinutes) now = .ok (v, db')) :
      db' = db ↔ m.FormKeeps viewer := by
    rw [patchMeeting_writes hthrough hm htaken hsaved, updateMeetingRow_eq_self hmem,
      storedDuration_of_valid hrow,
      edit_loaded_eq_self_iff hrow hs, given_trim_eq, hstart, start_comesBack_iff hgap]
    show PyStr.strip (JsStr.trim m.topic) = m.topic ∧ _ ↔ _
    rw [strip_trim_eq_self hrow.trimmed]
    constructor
    · rintro ⟨htopic, hdescription, hstored, hzone⟩
      refine ⟨htopic, hdescription, hzone, fun s' hs' => ?_⟩
      obtain rfl : s = s' := Option.some.inj (hs.symm.trans hs')
      exact hstored
    · exact fun h => ⟨h.topic, h.description, h.scheduledStart s hs, h.timezone⟩
  constructor
  · rintro ⟨v, hsaved⟩
    exact (hkeeps (hanswer.accepted.mp ⟨_, hsaved⟩) hsaved).mp rfl
  · intro h
    have htaken : (stateFromMeeting viewer loaded m).Taken start now := by
      refine ⟨⟨hyear, hencryption⟩, ?_, hahead⟩
      show PyStr.strip (JsStr.trim m.topic) ≠ ""
      rw [h.topic, hrow.trimmed]
      rintro hempty
      simpa [hempty] using hrow.topic.1
    obtain ⟨⟨v, db'⟩, hsaved⟩ := hanswer.accepted.mpr htaken
    obtain rfl := (hkeeps htaken hsaved).mpr h
    exact ⟨v, hsaved⟩

end Unchanged

/-- **Opening a meeting and saving it as it is** leaves it alone exactly if its texts are trimmed
and not empty, and its start is a full minute that the clock of the browser shows for the first
time. -/
theorem unchanged_save_iff (ops : List Operation) {m : Meeting} {host : User} {viewer : Viewer}
    {loaded clock start : ℤ} {duration : Int} {s now : DateTime}
    (hm : m ∈ (Runs.run Db.apply .empty ops).meetings) (hscheduled : m.status = .scheduled)
    (hs : m.scheduledStart = some s)
    (hhost : (Runs.run Db.apply .empty ops).getUser m.hostId = some host)
    (hvalid : (stateFromMeeting viewer loaded m).validate viewer clock = .ok (start, duration))
    (hgap : viewer.zone.NoGapAt
      (viewer.zone.localTime (startDate s) - viewer.zone.localTime (startDate s) % 60000))
    (hyear : (toApiDate start).IsPython) (hahead : now < 1000 * start) :
    (∃ v, patchMeeting (Runs.run Db.apply .empty ops) host m.meetingNumber
        ((stateFromMeeting viewer loaded m).toChanges start duration) now =
          .ok (v, Runs.run Db.apply .empty ops)) ↔ m.FormKeeps viewer := by
  have hnumbered := (always_numbered ops).last
  have hget : getByNumber (Runs.run Db.apply .empty ops) m.meetingNumber = .ok m :=
    getByNumber_of_spelling hnumbered.distinct hm (hnumbered.digits m hm)
  have hrow := meetingsValid_run ops m hm
  rw [hhost] at hrow
  exact unchanged_save_row hget (Keyed.key_of_find? hhost).symm hscheduled hrow hs
    (validate_eq_ok.mp hvalid) hgap hyear
    hahead

/-- A host signs in and plans a meeting. -/
def planRetro : List Operation :=
  [.request (.signInGoogle { sub := "g-host", email := some "ada@example.com" }
    ⟨"host", "", fun _ => (0, 1)⟩),
   .request (.createMeeting "host"
     { topic := some "Retro", scheduledStart := some { wall := 1786714200000000 } }
      { passcode := "hRtz4K", inviteToken := "tok", ids := fun _ => "m", numbers := fun _ => (0, 3),
        inviteeIds := fun _ => "" } 10)]

def plannedRetro : Meeting where
  id := "m"
  meetingNumber := "10000000003"
  hostId := "host"
  topic := "Retro"
  scheduledStart := some 1786714200000000
  passcode := "hRtz4K"
  inviteToken := "tok"
  createdAt := 10

def retroHost : User :=
  { id := "host", googleId := some "g-host", email := "ada@example.com", name := "ada",
    personalMeetingId := "10000000001" }

theorem retro_kept : (∃ v, patchMeeting (Runs.run Db.apply .empty planRetro) retroHost "10000000003"
    ((stateFromMeeting utcViewer 0 plannedRetro).toChanges 1786714200000 40) 20 =
      .ok (v, Runs.run Db.apply .empty planRetro)) ↔ plannedRetro.FormKeeps utcViewer :=
  have hvalid : (stateFromMeeting utcViewer 0 plannedRetro).validate utcViewer 0 =
      .ok (1786714200000, 40) := by
    decide +kernel
  unchanged_save_iff planRetro (by decide +kernel) rfl rfl (by decide +kernel) hvalid rfl
    (by decide +kernel) (by decide)

/-! ### Opening what was saved -/

/-- The row that a create of the form stores. -/
structure FormState.StoredIn (form : FormState) (start : ℤ) (duration : Int) (host : User)
    (m : Meeting) : Prop where
  topic : m.topic = PyStr.strip (JsStr.trim form.topic)
  description : m.description = given (some (JsStr.trim form.description))
  scheduledStart : m.scheduledStart = some (1000 * start)
  durationMinutes : m.durationMinutes = storedDuration host.plan duration
  timezone : m.timezone = form.timezone
  waitingRoom : m.waitingRoom = form.waitingRoom
  hostVideoOn : m.hostVideoOn = form.hostVideoOn
  participantVideoOn : m.participantVideoOn = form.participantVideoOn
  chatBeforeAfter : m.chatBeforeAfter = form.chatBeforeAfter
  encryption : m.encryption = form.encryption

section Reopened

variable {form : FormState} {viewer : Viewer} {clock start : ℤ} {duration : Int}
  {db db' : Db} {host : User}
  {draws : CreateDraws} {now : DateTime} {v : MeetingView}

/-- What a save stores, and that it was taken. -/
theorem postMeeting_stores (hthrough : form.LetThrough viewer clock start duration)
    (hsaved : postMeeting db host (form.toCreate start duration) draws now = .ok (v, db')) :
    form.StoredIn start duration host v.meeting ∧ form.encryption ∈ encryptionModes := by
  have hgiven : given (form.toCreate start duration).topic = some (JsStr.trim form.topic) :=
    given_eq_some.mpr ⟨rfl, hthrough.topic⟩
  obtain ⟨hbody, hcreate⟩ := postMeeting_eq_ok.mp hsaved
  refine ⟨?_, ((bodyAccepted_iff hthrough).mp hbody).2⟩
  simp only [createMeeting, Service.bind_eq_ok, Service.pure_eq_ok] at hcreate
  obtain ⟨topic, ht, stored, hs, ⟨minutes, clamped⟩, hd, _, -, ⟨row, db₁⟩, hrow, db₂, -, h⟩ :=
    hcreate
  obtain ⟨rfl, -⟩ := Prod.mk.inj h
  obtain ⟨⟨k, number, -, rfl⟩, -⟩ := insertNewMeeting_ok hrow
  rw [hgiven, Option.getD_some] at ht
  obtain ⟨rfl, -⟩ := validateTopic_eq_ok.mp ht
  obtain ⟨s, hstart, rfl⟩ := mapM_some_eq_ok.mp hs
  obtain ⟨rfl, -⟩ := validateStart_eq_ok.mp hstart
  obtain ⟨clamped', hduration⟩ := resolveDuration_let_through hthrough host.plan
  obtain ⟨rfl, -⟩ := Prod.mk.inj (Except.ok.inj (hd.symm.trans hduration))
  have hnaive : asNaiveUtc (toApiDate start) = 1000 * start := Int.sub_zero _
  exact ⟨rfl, rfl, congrArg some hnaive, rfl, rfl, rfl, rfl, rfl, rfl, rfl⟩

theorem getD_given (s : String) : (given (some s)).getD "" = s := by
  by_cases hs : s = ""
  · rw [hs]
    rfl
  · rw [given_eq_some.mpr ⟨rfl, hs⟩, Option.getD_some]

theorem storedDuration_nonneg {m : Meeting} (hthrough : form.LetThrough viewer clock start duration)
    (hstored : form.StoredIn start duration host m) : 0 ≤ m.durationMinutes := by
  have hlow : 0 ≤ duration := by
    rw [hthrough.total]
    exact le_trans (by decide) hthrough.range.1
  rw [hstored.durationMinutes, storedDuration]
  split
  · decide
  · exact hlow

/-- The controls name a full minute. -/
theorem full_minute_of_controls {dateValue time12h : String} {meridiem : Meridiem} {t : ℤ}
    (h : localTimeOfControls dateValue time12h meridiem = some t) : t % 60000 = 0 := by
  simp only [localTimeOfControls, bind, Option.bind_eq_some_iff, pure,
    Option.some.injEq, Prod.exists] at h
  obtain ⟨year, month, day, -, rawHour, minute, -, rfl⟩ := h
  rw [localTimeOf, makeDate, makeTime, msPerDay]
  omega

/-- The start that the controls name is read back as it was. -/
theorem start_of_named (hthrough : form.LetThrough viewer clock start duration)
    (hgap : NoGap viewer.zone form.date form.time form.meridiem) :
    viewer.zone.utc (viewer.zone.localTime start - viewer.zone.localTime start % 60000) =
      start := by
  obtain ⟨t, ht, rfl⟩ := utc_of_combine hthrough.names
  have hlocal : viewer.zone.localTime (viewer.zone.utc t) = t := hgap t ht
  rw [hlocal, full_minute_of_controls ht, Int.sub_zero]

/-- What the form sends of a topic comes back exactly if Python finds nothing to strip. -/
theorem trim_strip_eq_self {s : String} (h : JsStr.trim s = s) :
    JsStr.trim (PyStr.strip s) = s ↔ PyStr.strip s = s :=
  stripWhile_stripWhile_eq_self_iff h

/-- **The form of a new meeting sends again what was sent** exactly if the topic is trimmed in
both languages, the plan of the host allows the duration, and there is a time zone. -/
theorem reopened_sends_same_iff (hvalid : form.validate viewer clock = .ok (start, duration))
    (hsaved : postMeeting db host (form.toCreate start duration) draws now = .ok (v, db'))
    (hgap : NoGap viewer.zone form.date form.time form.meridiem) {loaded again start' : ℤ}
    {duration' : Int}
    (hagain : (stateFromMeeting viewer loaded v.meeting).validate viewer again =
      .ok (start', duration')) :
    (stateFromMeeting viewer loaded v.meeting).toChanges start' duration' =
      form.toChanges start duration ↔
      PyStr.strip (JsStr.trim form.topic) = JsStr.trim form.topic ∧
        ¬ (host.plan = .basic ∧ basicPlanDurationCap < duration) ∧ form.timezone ≠ "" := by
  have hthrough := validate_eq_ok.mp hvalid
  have hthrough' := validate_eq_ok.mp hagain
  obtain ⟨hstored, hencryption⟩ := postMeeting_stores hthrough hsaved
  have htrim : JsStr.trim (JsStr.trim form.topic) = JsStr.trim form.topic := JsStr.trim_trim _
  -- the start is the same, and the duration is the stored one
  have hstart : start' = start := by
    rw [start_of_loaded hstored.scheduledStart hthrough', startDate_micros]
    exact start_of_named hthrough hgap
  have hduration : duration' = storedDuration host.plan duration := by
    rw [hthrough'.total, totalDuration_loaded (storedDuration_nonneg hthrough hstored),
      hstored.durationMinutes]
  have hdescription : given (some (JsStr.trim (v.meeting.description.getD ""))) =
      given (some (JsStr.trim form.description)) := by
    rw [hstored.description, getD_given, JsStr.trim_trim]
  have hloaded : (stateFromMeeting viewer loaded v.meeting).encryption = form.encryption := by
    have hne : v.meeting.encryption ≠ "" := by
      rw [hstored.encryption]
      exact fun hempty => absurd (hempty ▸ hencryption) (by decide)
    exact (if_neg hne).trans hstored.encryption
  constructor
  · intro h
    have htopic : JsStr.trim v.meeting.topic = JsStr.trim form.topic :=
      Option.some.inj (congrArg MeetingChanges.topic h)
    have htimezone : (stateFromMeeting viewer loaded v.meeting).timezone = form.timezone :=
      Option.some.inj (congrArg MeetingChanges.timezone h)
    have hminutes : duration' = duration :=
      Option.some.inj (congrArg MeetingChanges.durationMinutes h)
    rw [hstored.topic] at htopic
    rw [← hstored.timezone] at htimezone ⊢
    exact ⟨(trim_strip_eq_self htrim).mp htopic,
      storedDuration_eq_self_iff.mp (hduration.symm.trans hminutes),
      timezone_loaded_iff.mp htimezone⟩
  · rintro ⟨htopic, hplan, hzone⟩
    have htimezone : (stateFromMeeting viewer loaded v.meeting).timezone = v.meeting.timezone :=
      timezone_loaded_iff.mpr (hstored.timezone ▸ hzone)
    have hsame : JsStr.trim v.meeting.topic = JsStr.trim form.topic := by
      rw [hstored.topic]
      exact (trim_strip_eq_self htrim).mpr htopic
    rw [hduration, storedDuration_eq_self_iff.mpr hplan, hstart]
    simp only [FormState.toChanges, hloaded, htimezone, hstored.timezone]
    show ({ topic := some (JsStr.trim v.meeting.topic)
            description := some (given (some (JsStr.trim (v.meeting.description.getD ""))))
            scheduledStart := _
            durationMinutes := _
            timezone := _
            waitingRoom := some v.meeting.waitingRoom
            hostVideoOn := some v.meeting.hostVideoOn
            participantVideoOn := some v.meeting.participantVideoOn
            chatBeforeAfter := some v.meeting.chatBeforeAfter
            encryption := _ } : MeetingChanges) = _
    rw [hsame, hdescription, hstored.waitingRoom, hstored.hostVideoOn, hstored.participantVideoOn,
      hstored.chatBeforeAfter]

end Reopened

/-- The answer to the hour, for a host on the basic plan. -/
def kickoffView : MeetingView where
  meeting :=
    { id := "new", meetingNumber := "89590250750", hostId := "ada", topic := "Kickoff"
      scheduledStart := some 1786714200000000, durationMinutes := 40,
        passcode := "pQ7w2x", inviteToken := "fresh"
      createdAt := 20 }
  meetingNumberDisplay := "895 9025 0750"
  host := none
  isInstant := false
  participantCount := 0
  durationClamped := true

theorem kickoff_saved :
    ∃ db', postMeeting .empty basicHost (kickoff.toCreate 1786714200000 60) secondTry 20 =
    .ok (kickoffView, db') := by
  have hview : (postMeeting .empty basicHost
    (kickoff.toCreate 1786714200000 60) secondTry 20).toOption.map Prod.fst =
      some kickoffView := by decide +kernel
  cases hsaved : postMeeting .empty basicHost (kickoff.toCreate 1786714200000 60) secondTry 20 with
  | error e =>
    rw [hsaved] at hview
    cases hview
  | ok result =>
    obtain ⟨v, db'⟩ := result
    rw [hsaved] at hview
    obtain rfl : v = kickoffView := Option.some.inj hview
    exact ⟨db', rfl⟩

theorem kickoff_reopened :
    (stateFromMeeting utcViewer 0 kickoffView.meeting).toChanges 1786714200000 40 =
      kickoff.toChanges 1786714200000 60 ↔
      PyStr.strip (JsStr.trim kickoff.topic) = JsStr.trim kickoff.topic ∧
        ¬ (basicHost.plan = .basic ∧ basicPlanDurationCap < 60) ∧ kickoff.timezone ≠ "" := by
  obtain ⟨db', hsaved⟩ := kickoff_saved
  exact reopened_sends_same_iff kickoff_valid hsaved (fun _ _ => rfl) (by decide +kernel :
    (stateFromMeeting utcViewer 0 kickoffView.meeting).validate utcViewer 0 =
      .ok (1786714200000, 40))

end ZoomClone
