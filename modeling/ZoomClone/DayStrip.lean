/-
The day strip of the home page (`DayStrip.tsx`, `DayStripMeetingRow.tsx`), beside the
row of the meetings list (`MeetingListRow.tsx`).

The strip asks for the local date, the server bounds that date in UTC, and the two
rows read the same naive timestamp by two parsers.

* `displayed_iff` — what the strip shows is the UTC day;
* `startTime_eq_iff` — its row prints the local time exactly at offset zero;
* `dayStrip_iff` — when the strip shows the viewer's day in the viewer's time.
-/
import ZoomClone.Listing

namespace ZoomClone

/-! ### The browser's clock -/

def microsPerMinute : Int := 60000000

/-- A UTC offset, in minutes. -/
structure UtcOffset where
  minutes : Int
  lt_day : minutes.natAbs < 1440

namespace UtcOffset

def micros (o : UtcOffset) : Int := o.minutes * microsPerMinute

/-- The local date of an instant is `d`. -/
def OnDate (o : UtcOffset) (instant : DateTime) (d : CalendarDate) : Prop :=
  d.midnight ≤ instant + o.micros ∧ instant + o.micros < d.midnight + microsPerDay

instance (o : UtcOffset) (instant : DateTime) (d : CalendarDate) : Decidable (o.OnDate instant d) :=
  inferInstanceAs (Decidable (_ ∧ _))

/-- The offset of UTC itself. -/
def utc : UtcOffset := ⟨0, by decide⟩

/-- `date-fns` `parseISO`: a timestamp without designator is local time. -/
def parseISO (o : UtcOffset) (value : ApiDateTime) : DateTime :=
  value.wall - value.utcOffset.getD o.micros

end UtcOffset

/-- `parseApiDate`: a timestamp without designator is UTC. -/
def parseApiDate (value : ApiDateTime) : DateTime := value.wall - value.utcOffset.getD 0

/-- `h:mm a` of a minute of the day. -/
def clockText (minute : ℕ) : String :=
  let hour := minute / 60 % 12
  toString (if hour = 0 then 12 else hour) ++ ":" ++ PyStr.zeroPadded 2 (minute % 60) ++
    if minute < 720 then " AM" else " PM"

/-- The local minute of the day. -/
def UtcOffset.minuteOfDay (o : UtcOffset) (instant : DateTime) : ℕ :=
  ((instant + o.micros) / microsPerMinute % 1440).toNat

/-- `format(date, "h:mm a")`. -/
def UtcOffset.formatTime (o : UtcOffset) (instant : DateTime) : String :=
  clockText (o.minuteOfDay instant)

/-! ### The components -/

/-- `scheduled_start` as the API sends it: naive UTC, without a designator. -/
def sentStart (m : Meeting) : Option ApiDateTime := m.scheduledStart.map fun start => ⟨start, none⟩

/-- `startTime` of `DayStripMeetingRow`. -/
def dayStripStartTime (o : UtcOffset) (m : Meeting) : String :=
  match sentStart m with
  | none => "Now"
  | some start => o.formatTime (o.parseISO start)

/-- `timeLabel` of `MeetingListRow`. -/
def listRowTimeLabel (o : UtcOffset) (m : Meeting) : String :=
  match sentStart m with
  | none => "Now"
  | some start => o.formatTime (parseApiDate start)

/-- The fetched day: the meetings, or none when the request failed. -/
structure DayStripResult where
  date : String
  meetings : List MeetingView

/-- What the effect of `DayStrip` stores for a selected date.  A failed request is
caught and stores no meetings. -/
def fetchDay (db : Db) (host : User) (selected : CalendarDate) (now : DateTime) :
    DayStripResult where
  date := selected.iso
  meetings :=
    match listForHost db host "day" (some selected.iso) defaultPageLimit none now with
    | .ok page => page.items
    | .error _ => []

/-- The rows of the strip: a result for another date counts as loading. -/
def dayStripMeetings (selected : CalendarDate) (result : Option DayStripResult) :
    List MeetingView :=
  match result with
  | none => []
  | some result => if result.date = selected.iso then result.meetings else []

/-- The strip, once the fetch is answered, displays the meeting. -/
def Displays (db : Db) (host : User) (selected : CalendarDate) (now : DateTime) (m : Meeting) :
    Prop :=
  serializeMeeting db m ∈ dayStripMeetings selected (some (fetchDay db host selected now))

/-! ### The two parsers -/

theorem digitChar_inj {a b : ℕ} (ha : a < 10) (hb : b < 10)
    (h : Nat.digitChar a = Nat.digitChar b) :
    a = b := by
  have hdecimal := decimal_digitChar ha
  rw [h, decimal_digitChar hb] at hdecimal
  exact (Option.some.inj hdecimal).symm

theorem toString_toList_inj {a b : ℕ} (h : (toString a).toList = (toString b).toList) : a = b := by
  simp only [Nat.toString_eq_repr, Nat.toList_repr] at h
  rw [← Nat.ofDigitChars_toDigits (n := a) (by decide : 1 < 10) (by decide), h,
    Nat.ofDigitChars_toDigits (by decide) (by decide)]

theorem digitChar_ne_colon {n : ℕ} (h : n < 10) : ':' ≠ Nat.digitChar n := by
  intro hcolon
  have hdecimal := decimal_digitChar h
  rw [← hcolon] at hdecimal
  exact absurd hdecimal (by simp [show decimal ':' = none from by decide])

/-- The hour on a dial. -/
def dialHour (minute : ℕ) : ℕ := if minute / 60 % 12 = 0 then 12 else minute / 60 % 12

theorem clockText_toList (minute : ℕ) :
    (clockText minute).toList = (toString (dialHour minute)).toList ++
    ':' :: [Nat.digitChar (minute % 60 / 10), Nat.digitChar (minute % 60 % 10), ' ',
      if minute < 720 then 'A' else 'P', 'M'] := by
  have hpadded : (PyStr.zeroPadded 2 (minute % 60)).toList =
      [Nat.digitChar (minute % 60 / 10), Nat.digitChar (minute % 60 % 10)] :=
  zeroPadded_two (by omega)
  have hhalf : (if minute < 720 then " AM" else " PM").toList =
      [' ', if minute < 720 then 'A' else 'P', 'M'] := by
    split <;> rfl
  simp only [clockText, dialHour, String.toList_append, hpadded, hhalf]
  simp

/-- The minute of the day is read off the text. -/
theorem clockText_inj {a b : ℕ} (ha : a < 1440) (hb : b < 1440)
    (h : clockText a = clockText b) : a = b := by
  have hlist := congrArg String.toList h
  rw [clockText_toList, clockText_toList] at hlist
  have hhead : ':' ∉ (toString (dialHour a)).toList := fun hmem =>
    absurd (PyStr.isDigit_of_mem_toString hmem) (by decide)
  have htail : ':' ∉ [Nat.digitChar (a % 60 / 10), Nat.digitChar (a % 60 % 10), ' ',
      if a < 720 then 'A' else 'P', 'M'] := by
    have htens := digitChar_ne_colon (show a % 60 / 10 < 10 by omega)
    have hones := digitChar_ne_colon (show a % 10 < 10 by omega)
    have hhalf : ':' ≠ if a < 720 then 'A' else 'P' := by split <;> decide
    simp [htens, hones, hhalf]
  obtain ⟨hhour, -, hrest⟩ := (List.append_cons_inj_of_notMem hhead htail).mp hlist
  simp only [List.cons.injEq, and_true, true_and] at hrest
  obtain ⟨htens, hones, hhalf⟩ := hrest
  -- dial hour, minutes and half of the day determine the minute
  have hdial : dialHour a = dialHour b := toString_toList_inj hhour
  have htens : a % 60 / 10 = b % 60 / 10 := digitChar_inj (by omega) (by omega) htens
  have hones : a % 60 % 10 = b % 60 % 10 := digitChar_inj (by omega) (by omega) hones
  have hhalf : a < 720 ↔ b < 720 := by
    by_cases hmorning : a < 720 <;> by_cases hmorning' : b < 720 <;>
      simp [hmorning, hmorning'] at hhalf ⊢
  have hhour : a / 60 % 12 = b / 60 % 12 := by
    unfold dialHour at hdial
    split_ifs at hdial <;> omega
  omega

section Meeting

variable {db : Db} {host : User} {d : CalendarDate} {now : DateTime}
  {m : Meeting} {start : DateTime}

/-- The list row prints the local time. -/
theorem listRowTimeLabel_eq (o : UtcOffset) (hstart : m.scheduledStart = some start) :
    listRowTimeLabel o m = o.formatTime start := by
  simp [listRowTimeLabel, sentStart, hstart, parseApiDate]

/-- The strip's row prints the local time exactly at offset zero. -/
theorem startTime_eq_iff (o : UtcOffset) (hstart : m.scheduledStart = some start) :
    dayStripStartTime o m = o.formatTime start ↔ o.minutes = 0 := by
  have hstrip : dayStripStartTime o m = clockText (start / microsPerMinute % 1440).toNat := by
    simp [dayStripStartTime, sentStart, hstart, UtcOffset.parseISO, UtcOffset.formatTime,
      UtcOffset.minuteOfDay]
  have hlocal : o.minuteOfDay start = ((start / microsPerMinute + o.minutes) % 1440).toNat := by
    have hdiv : (start + o.minutes * microsPerMinute) / microsPerMinute =
        start / microsPerMinute + o.minutes :=
      Int.add_mul_ediv_right _ _ (by decide)
    rw [UtcOffset.minuteOfDay, UtcOffset.micros, hdiv]
  have hlt := o.lt_day
  rw [hstrip, UtcOffset.formatTime, hlocal]
  constructor
  · intro h
    have hminute := clockText_inj (by omega) (by omega) h
    -- the offset is shorter than a day, so it is no multiple of one but zero
    omega
  · intro h
    rw [h, add_zero]

/-- The host's meetings that the strip could show. -/
def stripCandidates (db : Db) (host : User) : List Meeting :=
  db.meetings.rows.filter fun m =>
    m.hostId = host.id && m.status ≠ .cancelled && m.scheduledStart.isSome

theorem mem_stripCandidates : m ∈ stripCandidates db host ↔ m ∈ db.meetings ∧ m.hostId = host.id ∧
    m.status ≠ .cancelled ∧ m.scheduledStart.isSome := by
  rw [stripCandidates, List.mem_filter]
  simp only [Bool.and_eq_true, decide_eq_true_eq, and_assoc]
  rfl

/-- The rows of a day are among the candidates. -/
theorem length_dayRows_le (db : Db) (host : User) (d : CalendarDate) (now : DateTime) :
    (hostRows db host (.day d) now fun _ => true).length ≤ (stripCandidates db host).length := by
  rw [hostRows, (Keyset.sorted_perm _).length_eq]
  refine (List.monotone_filter_right _ fun m hm => ?_).length_le
  simp only [ListFilter.selects, Bool.and_eq_true, decide_eq_true_eq, Option.any_eq_true] at hm ⊢
  obtain ⟨⟨hhost, hstatus, start, hstart, -⟩, -⟩ := hm
  exact ⟨⟨hhost, hstatus⟩, by simp [hstart]⟩

/-- **What the strip shows** is the selected date in UTC; the last date of Python's
calendar has none. -/
theorem displayed_iff (hpage : (stripCandidates db host).length ≤ defaultPageLimit)
    (hm : m ∈ stripCandidates db host) (hstart : m.scheduledStart = some start) :
    Displays db host d now m ↔ d.HasNext ∧ UtcOffset.utc.OnDate start d := by
  obtain ⟨hmem, hhost, hstatus, -⟩ := mem_stripCandidates.mp hm
  simp only [Displays, dayStripMeetings, fetchDay, if_true]
  by_cases hnext : d.HasNext
  · have hlist : listForHost db host "day" (some d.iso) defaultPageLimit none now =
        .ok (cutPage db defaultPageLimit (hostRows db host (.day d) now fun _ => true)) := by
      simp only [listForHost, readFilter_day hnext, bind, Except.bind]
      rfl
    have hlength := (length_dayRows_le db host d now).trans hpage
    have htake : ((hostRows db host (.day d) now fun _ => true).take (defaultPageLimit + 1)).take
        defaultPageLimit = hostRows db host (.day d) now fun _ => true := by
      rw [List.take_take, List.take_of_length_le (by omega)]
    have hinj : Function.Injective (serializeMeeting db) :=
      fun a b h => congrArg MeetingView.meeting h
    simp only [hlist, cutPage, htake, List.mem_map_of_injective hinj, mem_hostRows]
    simp [hmem, hhost, hstatus, hnext, ListFilter.selects, hstart, UtcOffset.OnDate, UtcOffset.utc,
      UtcOffset.micros]
  · obtain ⟨e, he⟩ := readFilter_day_error hnext
    have hlist : listForHost db host "day" (some d.iso) defaultPageLimit none now = .error e := by
      simp only [listForHost, he, bind, Except.bind]
    simp [hlist, hnext]

end Meeting

/-! ### The viewer's day -/

/-- The strip displays the meetings of the viewer's date, under the viewer's time,
which is the time that the meetings list prints. -/
def ShowsLocalDay (db : Db) (host : User) (o : UtcOffset) (d : CalendarDate) (now : DateTime) :
    Prop :=
  ∀ m ∈ stripCandidates db host, ∀ start, m.scheduledStart = some start →
    (Displays db host d now m ↔ o.OnDate start d) ∧
      (Displays db host d now m →
        dayStripStartTime o m = o.formatTime start ∧ dayStripStartTime o m = listRowTimeLabel o m)

/-- The viewer is at UTC, and the date has a next one; or no meeting starts on that
date, neither in UTC, where the strip looks, nor in the viewer's time. -/
def DayAgrees (db : Db) (host : User) (o : UtcOffset) (d : CalendarDate) : Prop :=
  (o.minutes = 0 ∧ d.HasNext) ∨ ∀ m ∈ stripCandidates db host, ∀ start,
    m.scheduledStart = some start →
    ¬ (d.HasNext ∧ UtcOffset.utc.OnDate start d) ∧ ¬ o.OnDate start d

/-- **The day strip.**  It shows the viewer's day in the viewer's time exactly when
`DayAgrees` holds. -/
theorem dayStrip_iff {db : Db} {host : User}
    (hpage : (stripCandidates db host).length ≤ defaultPageLimit)
    (o : UtcOffset) (d : CalendarDate) (now : DateTime) :
    ShowsLocalDay db host o d now ↔ DayAgrees db host o d := by
  constructor
  · intro h
    by_cases hutc : o.minutes = 0 ∧ d.HasNext
    · exact .inl hutc
    · refine .inr fun m hm start hstart => ?_
      obtain ⟨hdate, htime⟩ := h m hm start hstart
      rw [displayed_iff hpage hm hstart] at hdate htime
      -- a meeting that is shown has its time printed wrong
      have hhidden : ¬ (d.HasNext ∧ UtcOffset.utc.OnDate start d) := fun hshown =>
        hutc ⟨(startTime_eq_iff o hstart).mp (htime hshown).1, hshown.1⟩
      exact ⟨hhidden, fun hlocal => hhidden (hdate.mpr hlocal)⟩
  · rintro (⟨hzero, hnext⟩ | hnone) m hm start hstart
    · have htime : dayStripStartTime o m = o.formatTime start :=
        (startTime_eq_iff o hstart).mpr hzero
      have hsame : UtcOffset.utc.OnDate start d ↔ o.OnDate start d := by
        simp [UtcOffset.OnDate, UtcOffset.utc, UtcOffset.micros, hzero]
      rw [displayed_iff hpage hm hstart, hsame]
      refine ⟨and_iff_right hnext, fun _ => ⟨htime, ?_⟩⟩
      rw [htime, listRowTimeLabel_eq o hstart]
    · obtain ⟨hhidden, hlocal⟩ := hnone m hm start hstart
      rw [displayed_iff hpage hm hstart]
      exact ⟨iff_of_false hhidden hlocal, fun hshown => absurd hshown hhidden⟩

/-- A meeting at half past one in the night of the 22nd in India, the evening before
in UTC. -/
def nightCall : Meeting :=
  { id := "m1", meetingNumber := "86512345679", hostId := "host", topic := "Handover"
    passcode := "hRtz4K", inviteToken := "tok", scheduledStart := some 1784664000000000,
      createdAt := 10 }

def nightDb : Db := { meetings := Keyed.empty.insert nightCall List.not_mem_nil }

def nightDay : CalendarDate := ⟨2026, 7, 22, by decide, by decide, by decide⟩

def india : UtcOffset := ⟨330, by decide⟩

def nightHost : User :=
  { id := "host", email := "ada@example.com", name := "Ada", personalMeetingId := "10000000001" }

/-- On the 22nd, its date in India, the strip does not show it; and the time it
prints on the 21st is not the one of the meetings list. -/
theorem nightCall_hidden : nightCall ∈ stripCandidates nightDb nightHost ∧
    (stripCandidates nightDb nightHost).length ≤ defaultPageLimit ∧
    india.OnDate 1784664000000000 nightDay ∧ ¬ Displays nightDb nightHost nightDay 0 nightCall ∧
    dayStripStartTime india nightCall = "8:00 PM" ∧ listRowTimeLabel india nightCall = "1:30 AM" ∧
    ¬ ShowsLocalDay nightDb nightHost india nightDay 0 := by
  have hpage : (stripCandidates nightDb nightHost).length ≤ defaultPageLimit := by decide
  have hcall : nightCall ∈ stripCandidates nightDb nightHost := by decide
  have hutc : ¬ UtcOffset.utc.OnDate 1784664000000000 nightDay := by decide
  have hlocal : india.OnDate 1784664000000000 nightDay := by decide
  have hhidden : ¬ Displays nightDb nightHost nightDay 0 nightCall := by
    rw [displayed_iff hpage hcall rfl]
    exact fun hshown => hutc hshown.2
  refine ⟨hcall, hpage, hlocal, hhidden, by decide, by decide, fun h => ?_⟩
  exact hhidden ((h nightCall hcall _ rfl).1.mpr hlocal)

/-- A viewer in UTC sees it in the evening of the 21st. -/
theorem dayStrip_iff_utc :
    ShowsLocalDay nightDb nightHost .utc ⟨2026, 7, 21, by decide, by decide, by decide⟩ 0 :=
  (dayStrip_iff (by decide) .utc _ 0).mpr (.inl (by decide))

end ZoomClone
