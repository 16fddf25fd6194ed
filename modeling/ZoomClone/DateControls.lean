/-
The "When" controls of the schedule form (`datetime.ts`).

`combineDateAndTime` reads the three controls by their shape and leaves the rest to the
constructor of `Date`, which moves a date or a time that does not exist on to one that
does.  `splitDateAndTime` writes the fields of a `Date` back into the controls.

* `namesRealTime_of_comesBack` — what is written names a real date and a clock time;
* `when_round_trip_iff` — the controls come back exactly if they named one.
-/
import ZoomClone.Calendar
import ZoomClone.Decimals
import ZoomClone.JsDate

namespace ZoomClone

open JsDate

inductive Meridiem where
  | am
  | pm
  deriving DecidableEq

/-- The three controls. -/
structure WhenControls where
  date : String
  time : String
  meridiem : Meridiem
  deriving DecidableEq

/-- The digits of `year`, `month` and `day`: `/^(\d{4})-(\d{2})-(\d{2})$/`. -/
def matchDate (dateValue : String) : Option (List Char × List Char × List Char) :=
  match dateValue.toList with
  | [y1, y2, y3, y4, '-', m1, m2, '-', d1, d2] =>
    if [y1, y2, y3, y4, m1, m2, d1, d2].all Char.isDigit then
      some ([y1, y2, y3, y4], [m1, m2], [d1, d2]) else none
  | _ => none

/-- The digits of the hour and the minute: `/^(\d{1,2}):(\d{2})$/`. -/
def matchTime (time12h : String) : Option (List Char × List Char) :=
  match time12h.toList with
  | [h, ':', m1, m2] => if [h, m1, m2].all Char.isDigit then some ([h], [m1, m2]) else none
  | [h1, h2, ':', m1, m2] =>
    if [h1, h2, m1, m2].all Char.isDigit then some ([h1, h2], [m1, m2]) else none
  | _ => none

/-- `Number` of digits. -/
def number (digits : List Char) : ℕ := Nat.ofDigitChars 10 digits 0

/-- The local time that the controls name. -/
def localTimeOfControls (dateValue time12h : String) (meridiem : Meridiem) : Option ℤ := do
  let (year, month, day) ← matchDate dateValue
  let (rawHour, minute) ← matchTime time12h
  let hour := number rawHour % 12 + if meridiem = .pm then 12 else 0
  return localTimeOf (number year) ((number month : ℤ) - 1) (number day) hour (number minute) 0 0

/-- The time value of the `Date`; `none` is `null`. -/
def combineDateAndTime (zone : LocalZone) (dateValue time12h : String)
    (meridiem : Meridiem) : Option ℤ := do
  let (year, month, day) ← matchDate dateValue
  let (rawHour, minute) ← matchTime time12h
  let hour := number rawHour % 12 -- 12 AM is hour 0
  let hour := if meridiem = .pm then hour + 12 else hour
  newDate zone (number year) ((number month : ℤ) - 1) (number day) hour (number minute) 0 0

/-- `String(n).padStart(2, "0")`. -/
def pad (n : ℕ) : String := PyStr.zeroPadded 2 n

def splitDateAndTime (zone : LocalZone) (date : ℤ) : WhenControls :=
  let t := zone.localTime date
  let hours24 := hourFromTime t
  let meridiem := if hours24 ≥ 12 then Meridiem.pm else .am
  let hours12 := if hours24 % 12 = 0 then 12 else hours24 % 12
  { date := toString (yearFromDay (dayOf t)) ++ "-" ++ pad (monthFromDay (dayOf t) + 1) ++ "-" ++
      pad (dateFromDay (dayOf t)).toNat
    time := toString hours12 ++ ":" ++ pad (minFromTime t)
    meridiem }

def utcZone : LocalZone := ⟨id, id⟩

example : (combineDateAndTime utcZone "2026-08-14" "1:30" .pm).map (splitDateAndTime utcZone) =
    some ⟨"2026-08-14", "1:30", .pm⟩ := by decide +kernel

/-! ### The shapes -/

structure DateShape (dateValue : String) (year month day : List Char) : Prop where
  toList : dateValue.toList = year ++ '-' :: (month ++ '-' :: day)
  year_length : year.length = 4
  month_length : month.length = 2
  day_length : day.length = 2
  year_digits : ∀ c ∈ year, c.isDigit
  month_digits : ∀ c ∈ month, c.isDigit
  day_digits : ∀ c ∈ day, c.isDigit

theorem dateShape_of_match {dateValue : String} {year month day : List Char}
    (h : matchDate dateValue = some (year, month, day)) : DateShape dateValue year month day := by
  unfold matchDate at h
  split at h
  · next y1 y2 y3 y4 m1 m2 d1 d2 hlist =>
    split_ifs at h with hdigits
    obtain ⟨rfl, rfl, rfl⟩ : [y1, y2, y3, y4] = year ∧ [m1, m2] = month ∧
      [d1, d2] = day := by simpa using h
    simp only [List.all_cons, List.all_nil, Bool.and_eq_true, and_true] at hdigits
    refine ⟨hlist, rfl, rfl, rfl, ?_, ?_, ?_⟩ <;> simp [hdigits]
  · cases h

structure TimeShape (time12h : String) (rawHour minute : List Char) : Prop where
  toList : time12h.toList = rawHour ++ ':' :: minute
  hour_length : rawHour.length = 1 ∨ rawHour.length = 2
  minute_length : minute.length = 2
  hour_digits : ∀ c ∈ rawHour, c.isDigit
  minute_digits : ∀ c ∈ minute, c.isDigit

theorem timeShape_of_match {time12h : String} {rawHour minute : List Char}
    (h : matchTime time12h = some (rawHour, minute)) : TimeShape time12h rawHour minute := by
  unfold matchTime at h
  split at h
  · next hlist =>
    split_ifs at h with hdigits
    obtain ⟨rfl, rfl⟩ := Prod.mk.inj (Option.some.inj h)
    simp only [List.all_cons, List.all_nil, Bool.and_eq_true, and_true] at hdigits
    refine ⟨hlist, .inl rfl, rfl, ?_, ?_⟩ <;> simp [hdigits]
  · next hlist =>
    split_ifs at h with hdigits
    obtain ⟨rfl, rfl⟩ := Prod.mk.inj (Option.some.inj h)
    simp only [List.all_cons, List.all_nil, Bool.and_eq_true, and_true] at hdigits
    refine ⟨hlist, .inr rfl, rfl, ?_, ?_⟩ <;> simp [hdigits]
  · cases h

/-! ### What is written -/

theorem length_pad {n : ℕ} (h : n < 100) : (pad n).toList.length = 2 :=
  Decimals.length_zeroPadded (by omega) h

theorem number_pad (n : ℕ) : number (pad n).toList = n := Decimals.ofDigitChars_zeroPadded 2 n

theorem number_toString (n : ℕ) : number (toString n).toList = n := by
  rw [number, Nat.toString_eq_repr, Nat.toList_repr, Nat.ofDigitChars_ten_toDigits]

theorem pad_number {digits : List Char} (hlength : digits.length = 2)
    (h : ∀ c ∈ digits, c.isDigit) :
    (pad (number digits)).toList = digits := by
  have hpadded := Decimals.zeroPadded_ofDigitChars (by simp [← List.length_pos_iff, hlength]) h
  rwa [hlength] at hpadded

/-- A month of the browser's calendar has the days of Python's. -/
theorem monthLength_eq {year month : ℕ} (h : month ≤ 11) :
    monthLength (inLeapYear year) month = daysInMonth year (month + 1) := by
  have hleap : inLeapYear year = isLeap year := by
    rw [Bool.eq_iff_iff]
    simp only [inLeapYear, isLeap, Bool.and_eq_true, Bool.or_eq_true, decide_eq_true_eq]
    omega
  rw [hleap, daysInMonth]
  cases isLeap year <;> interval_cases month <;> rfl

/-! ### The round trip -/

/-- The text names a date of the calendar and a time of the twelve-hour clock. -/
def NamesRealTime (dateValue time12h : String) : Prop :=
  ∃ year month day rawHour minute, matchDate dateValue = some (year, month, day) ∧
    matchTime time12h = some (rawHour, minute) ∧
    CalendarDate.ofYmd (number year) (number month) (number day) ≠ none ∧
    (1 ≤ number rawHour ∧ number rawHour ≤ 12) ∧ number minute ≤ 59

/-- The controls come back: the date, the meridiem, and the time up to a leading zero of
the hour. -/
structure ComesBack (shown : WhenControls) (dateValue time12h : String) (meridiem : Meridiem) :
    Prop where
  date : shown.date = dateValue
  time : time12h = shown.time ∨ time12h = "0" ++ shown.time
  meridiem : shown.meridiem = meridiem

/-- The year of the date is one of four digits without a leading zero. -/
def YearFrom1000 (dateValue : String) : Prop :=
  ∀ year month day, matchDate dateValue = some (year, month, day) → 1000 ≤ number year

/-- The controls name a local time that the zone does not skip. -/
def NoGap (zone : LocalZone) (dateValue time12h : String) (meridiem : Meridiem) : Prop :=
  ∀ t, localTimeOfControls dateValue time12h meridiem = some t → zone.NoGapAt t

section

variable {dateValue time12h : String} {year month day rawHour minute : List Char} {t : ℤ}

/-- An integer that is written in digits is not negative. -/
theorem eq_number_of_digits {n : ℤ} {digits : List Char} (hlist : (toString n).toList = digits)
    (h : ∀ c ∈ digits, c.isDigit) : n = number digits := by
  subst hlist
  cases n with
  | ofNat n => exact congrArg Nat.cast (number_toString n).symm
  | negSucc n =>
    have hminus : '-' ∈ (toString (Int.negSucc n)).toList := by
      show '-' ∈ ("-" ++ toString (n + 1)).toList
      simp
    exact absurd (h _ hminus) (by decide)

/-- The date that is written, as the date that was read. -/
theorem fields_of_date (hshape : DateShape dateValue year month day)
    (h : toString (yearFromDay (dayOf t)) ++ "-" ++ pad (monthFromDay (dayOf t) + 1) ++ "-" ++
      pad (dateFromDay (dayOf t)).toNat = dateValue) :
    yearFromDay (dayOf t) = number year ∧ monthFromDay (dayOf t) + 1 = number month ∧
      (dateFromDay (dayOf t)).toNat = number day := by
  obtain ⟨hmonth, hdate, hdate'⟩ := fields_spec (dayOf t)
  have hle := monthLength_le (inLeapYear (yearFromDay (dayOf t))) hmonth
  have hpadMonth : (pad (monthFromDay (dayOf t) + 1)).toList.length = 2 := length_pad (by omega)
  have hpadDay : (pad (dateFromDay (dayOf t)).toNat).toList.length = 2 := length_pad (by omega)
  have hhyphen : "-".toList = ['-'] := rfl
  have hlist := congrArg String.toList h
  rw [hshape.toList] at hlist
  simp only [String.toList_append, hhyphen, List.append_assoc, List.cons_append,
    List.nil_append] at hlist
  -- the two hyphens stand at the same places from the end
  obtain ⟨hyear, hrest⟩ := List.append_inj' hlist (by
    simp [hpadMonth, hpadDay, hshape.month_length, hshape.day_length])
  rw [List.cons.injEq] at hrest
  obtain ⟨hmonths, hdays⟩ := List.append_inj hrest.2 (by rw [hpadMonth, hshape.month_length])
  rw [List.cons.injEq] at hdays
  refine ⟨eq_number_of_digits hyear hshape.year_digits, ?_, ?_⟩
  · rw [← hmonths, number_pad]
  · rw [← hdays.2, number_pad]

/-- The time that is written, as the time that was read. -/
theorem fields_of_time (hshape : TimeShape time12h rawHour minute)
    {hours12 min : ℕ} (hmin : min < 60)
    (h : time12h = toString hours12 ++ ":" ++ pad min ∨ time12h = "0" ++
      (toString hours12 ++ ":" ++ pad min)) :
    hours12 = number rawHour ∧ min = number minute := by
  have hpad : (pad min).toList.length = 2 := length_pad (by omega)
  have hcolon : ":".toList = [':'] := rfl
  have hzero : "0".toList = ['0'] := rfl
  -- the minute follows the colon in both forms
  have hsplit (hour : List Char)
    (hlist : hour ++ ':' :: (pad min).toList = rawHour ++ ':' :: minute) :
      hour = rawHour ∧ min = number minute := by
    obtain ⟨hhour, hminute⟩ := List.append_inj' hlist (by simp [hpad, hshape.minute_length])
    rw [List.cons.injEq] at hminute
    exact ⟨hhour, by rw [← hminute.2, number_pad]⟩
  have hlist := hshape.toList
  rcases h with rfl | rfl
  · simp only [String.toList_append, hcolon, List.append_assoc, List.cons_append,
      List.nil_append] at hlist
    obtain ⟨hhour, hminute⟩ := hsplit _ hlist
    exact ⟨by rw [← hhour, number_toString], hminute⟩
  · simp only [String.toList_append, hcolon, hzero, List.append_assoc, List.cons_append,
      List.nil_append] at hlist
    obtain ⟨hhour, hminute⟩ := hsplit ('0' :: (toString hours12).toList) hlist
    refine ⟨?_, hminute⟩
    have hvalue : number ('0' :: (toString hours12).toList) = number (toString hours12).toList := by
      rw [number, number, Decimals.ofDigitChars_cons_zero]
      simp
    rw [← hhour, hvalue, number_toString]

/-- What is written names a real date and a clock time. -/
theorem namesRealTime_of_comesBack {zone : LocalZone} {date : ℤ} {meridiem : Meridiem}
    (hdate : matchDate dateValue = some (year, month, day))
    (htime : matchTime time12h = some (rawHour, minute))
    (hyear : 1000 ≤ number year)
    (h : ComesBack (splitDateAndTime zone date) dateValue time12h meridiem) :
    NamesRealTime dateValue time12h := by
  obtain ⟨hY, hM, hD⟩ := fields_of_date (dateShape_of_match hdate) h.date
  obtain ⟨hH, hmin⟩ := fields_of_time (timeShape_of_match htime) (minFromTime_lt _) h.time
  obtain ⟨hmonth, hday, hday'⟩ := fields_spec (dayOf (zone.localTime date))
  rw [hY, monthLength_eq hmonth, hM] at hday'
  have hminute := minFromTime_lt (zone.localTime date)
  refine ⟨year, month, day, rawHour, minute, hdate, htime, ?_, ?_, by omega⟩
  · have hreal : 1 ≤ number year ∧ (1 ≤ number month ∧ number month ≤ 12) ∧
        1 ≤ number day ∧ number day ≤ daysInMonth (number year) (number month) :=
      ⟨by omega, by omega, by omega, by omega⟩
    rw [CalendarDate.ofYmd, dif_pos hreal]
    exact Option.some_ne_none _
  · rw [← hH]
    split_ifs <;> omega

/-- A number that is written without a leading zero is written as it was read. -/
theorem toString_number {digits : List Char} (hne : digits ≠ []) (h : ∀ c ∈ digits, c.isDigit)
    (hlead : digits.length = 1 ∨ 10 ^ (digits.length - 1) ≤ number digits) :
    (toString (number digits)).toList = digits := by
  rw [Nat.toString_eq_repr, Nat.toList_repr, number, Decimals.toDigits_ofDigitChars hne h hlead]

/-- A real date is written as it was read. -/
theorem date_comesBack (hshape : DateShape dateValue year month day) (hyear : 1000 ≤ number year) :
    toString (number year) ++ "-" ++ pad (number month) ++ "-" ++ pad (number day) = dateValue := by
  have hyearText : (toString (number year)).toList = year := by
    refine toString_number (by simp [← List.length_pos_iff, hshape.year_length])
      hshape.year_digits (.inr ?_)
    rw [hshape.year_length]
    exact hyear
  have hhyphen : "-".toList = ['-'] := rfl
  rw [← String.toList_inj, hshape.toList]
  simp only [String.toList_append, hhyphen, hyearText,
    pad_number hshape.month_length hshape.month_digits,
    pad_number hshape.day_length hshape.day_digits, List.append_assoc,
      List.cons_append, List.nil_append]

/-- A real time is written as it was read, up to a leading zero of the hour. -/
theorem time_comesBack (hshape : TimeShape time12h rawHour minute) (hhour : 1 ≤ number rawHour) :
    time12h = toString (number rawHour) ++ ":" ++ pad (number minute) ∨
      time12h = "0" ++ (toString (number rawHour) ++ ":" ++ pad (number minute)) := by
  have hcolon : ":".toList = [':'] := rfl
  have hzero : "0".toList = ['0'] := rfl
  have hminute := pad_number hshape.minute_length hshape.minute_digits
  have hne : rawHour ≠ [] := by
    rintro rfl
    simp [number] at hhour
  rw [← String.toList_inj, ← String.toList_inj, hshape.toList]
  simp only [String.toList_append, hcolon, hzero, hminute, List.append_assoc,
    List.cons_append, List.nil_append]
  by_cases hlead : rawHour.length = 1 ∨ 10 ^ (rawHour.length - 1) ≤ number rawHour
  · left
    rw [toString_number hne hshape.hour_digits hlead]
  · -- two digits below ten: the first is a zero
    right
    push Not at hlead
    have hlength : rawHour.length = 2 := hshape.hour_length.resolve_left hlead.1
    match rawHour, hlength with
    | [h1, h2], _ =>
      have hvalue : number [h1, h2] = 10 * (h1.toNat - 48) + number [h2] :=
        Decimals.ofDigitChars_cons_zero h1 [h2]
      have hlt : number [h1, h2] < 10 := hlead.2
      have hfirst : h1 = '0' := by
        have hcode := Decimals.toNat_of_isDigit (hshape.hour_digits h1 (by simp))
        refine Char.toNat_inj.mp (show h1.toNat = 48 from ?_)
        omega
      have hsame : number [h1, h2] = number [h2] := by
        rw [hvalue, hfirst]
        simp
      rw [hsame, toString_number (by simp)
        (fun c hc => hshape.hour_digits c (List.mem_cons_of_mem _ hc)) (.inl rfl),
        hfirst]
      rfl

/-- The hour on the clock is that of the day. -/
theorem twelve_of_hour24 {n : ℕ} (meridiem : Meridiem) (h : 1 ≤ n ∧ n ≤ 12) :
    (if (n % 12 + if meridiem = .pm then 12 else 0) % 12 = 0 then 12
      else (n % 12 + if meridiem = .pm then 12 else 0) % 12) = n := by
  split_ifs <;> omega

/-- A real date and time come back. -/
theorem comesBack_of_real {zone : LocalZone} {date : ℤ} {meridiem : Meridiem}
    (hdate : DateShape dateValue year month day) (htime : TimeShape time12h rawHour minute)
    (hyear : 1000 ≤ number year)
    (hreal : CalendarDate.ofYmd (number year) (number month) (number day) ≠ none)
    (hhour : 1 ≤ number rawHour ∧ number rawHour ≤ 12) (hminute : number minute ≤ 59)
    (hlocal : zone.localTime date = localTimeOf (number year) ((number month : ℤ) - 1) (number day)
      ((number rawHour % 12 + if meridiem = .pm then 12 else 0 : ℕ) : ℤ) (number minute) 0 0) :
    ComesBack (splitDateAndTime zone date) dateValue time12h meridiem := by
  obtain ⟨-, hmonth, hday⟩ : 1 ≤ number year ∧ (1 ≤ number month ∧ number month ≤ 12) ∧
      1 ≤ number day ∧ number day ≤ daysInMonth (number year) (number month) := by
    by_contra hnot
    rw [CalendarDate.ofYmd, dif_neg hnot] at hreal
    exact hreal rfl
  have hmonth0 : (number month : ℤ) - 1 = ((number month - 1 : ℕ) : ℤ) := by omega
  have hmonth1 : number month - 1 + 1 = number month := by omega
  have hhour24 : (number rawHour % 12 + if meridiem = .pm then 12 else 0) < 24 := by
    split_ifs <;> omega
  have hlength : (number day : ℤ) ≤ monthLength (inLeapYear (number year)) (number month - 1) := by
    rw [monthLength_eq (by omega), hmonth1]
    omega
  obtain ⟨hY, hM, hD⟩ := fields_makeDay (number year) (show number month - 1 ≤ 11 by omega)
    (show (1 : ℤ) ≤ number day by omega) hlength
  obtain ⟨hdayOf, hhourOf, hminOf⟩ :=
    fields_makeDate (makeDay (number year) (number month - 1 : ℕ) (number day))
    hhour24 (show number minute < 60 by omega)
  rw [localTimeOf, if_neg (by omega), hmonth0] at hlocal
  rw [splitDateAndTime]
  simp only [hlocal, hdayOf, hhourOf, hminOf, hY, hM, hD, hmonth1, Int.toNat_natCast]
  rw [twelve_of_hour24 meridiem hhour]
  refine ⟨date_comesBack hdate hyear, time_comesBack htime hhour.1, ?_⟩
  cases meridiem with
  | am =>
    rw [if_neg (show Meridiem.am ≠ .pm by decide), if_neg (by omega)]
  | pm =>
    rw [if_pos rfl, if_pos (by omega)]

end

theorem combineDateAndTime_eq (zone : LocalZone) (dateValue time12h : String)
    (meridiem : Meridiem) :
    combineDateAndTime zone dateValue time12h meridiem =
      (localTimeOfControls dateValue time12h meridiem).bind fun t => timeClip (zone.utc t) := by
  unfold combineDateAndTime localTimeOfControls newDate
  cases matchDate dateValue with
  | none => rfl
  | some ymd =>
    cases matchTime time12h with
    | none => rfl
    | some hm => cases meridiem <;> rfl

/-- The accepted date is that of the local time that the controls name. -/
theorem utc_of_combine {zone : LocalZone} {dateValue time12h : String}
    {meridiem : Meridiem} {date : ℤ}
    (h : combineDateAndTime zone dateValue time12h meridiem = some date) :
    ∃ t, localTimeOfControls dateValue time12h meridiem = some t ∧ zone.utc t = date := by
  rw [combineDateAndTime_eq, Option.bind_eq_some_iff] at h
  obtain ⟨t, ht, hclip⟩ := h
  refine ⟨t, ht, ?_⟩
  -- An accepted time value is not clipped.
  unfold timeClip at hclip
  split_ifs at hclip
  exact Option.some.inj hclip

/-- **The "When" controls.**  Whatever three controls `combineDateAndTime` accepts, they
come back from the `Date` that it returns exactly if they name a date of the calendar
and a time of the clock. -/
theorem when_round_trip_iff {zone : LocalZone} {dateValue time12h : String}
    {meridiem : Meridiem} {date : ℤ}
    (haccepted : combineDateAndTime zone dateValue time12h meridiem = some date)
    (hyear : YearFrom1000 dateValue)
    (hgap : NoGap zone dateValue time12h meridiem) :
    ComesBack (splitDateAndTime zone date) dateValue time12h meridiem ↔
      NamesRealTime dateValue time12h := by
  obtain ⟨t, ht, rfl⟩ := utc_of_combine haccepted
  have hlocal : zone.localTime (zone.utc t) = t := hgap t ht
  simp only [localTimeOfControls, bind, Option.bind_eq_some_iff, pure,
    Option.some.injEq, Prod.exists] at ht
  obtain ⟨year, month, day, hdate, rawHour, minute, htime, rfl⟩ := ht
  have hyear := hyear year month day hdate
  refine ⟨namesRealTime_of_comesBack hdate htime hyear, ?_⟩
  rintro ⟨year', month', day', rawHour', minute', hdate', htime', hreal, hhour, hminute⟩
  obtain ⟨rfl, rfl, rfl⟩ : year = year' ∧ month = month' ∧ day = day' := by
    simpa [hdate] using hdate'
  obtain ⟨rfl, rfl⟩ : rawHour = rawHour' ∧ minute = minute' := by
    simpa [htime] using htime'
  exact comesBack_of_real (dateShape_of_match hdate)
    (timeShape_of_match htime) hyear hreal hhour hminute hlocal

/-- Half past one in the afternoon, with a leading zero. -/
theorem when_comes_back :
    ComesBack (splitDateAndTime utcZone 1786714200000) "2026-08-14" "01:30" .pm := by
  have haccepted : combineDateAndTime utcZone "2026-08-14" "01:30" .pm = some 1786714200000 := by
    decide +kernel
  have hdate : matchDate "2026-08-14" = some (['2', '0', '2', '6'], ['0', '8'], ['1', '4']) := by
    decide +kernel
  have hyear : YearFrom1000 "2026-08-14" := by
    intro year month day h
    rw [hdate] at h
    cases h
    decide
  refine (when_round_trip_iff haccepted hyear fun _ _ => rfl).mpr ?_
  exact ⟨_, _, _, ['0', '1'], ['3', '0'], hdate, by decide +kernel, by decide, by decide, by decide⟩

/-- The thirtieth of February is taken for the second of March. -/
theorem february_thirtieth_shifted :
    ¬ ∀ (zone : LocalZone) (dateValue time12h : String) (meridiem : Meridiem)
    (date : ℤ), combineDateAndTime zone dateValue time12h meridiem = some date →
      YearFrom1000 dateValue →
      NoGap zone dateValue time12h meridiem →
        ComesBack (splitDateAndTime zone date) dateValue time12h meridiem := by
  intro h
  have haccepted : combineDateAndTime utcZone "2026-02-30" "1:30" .pm = some 1772458200000 := by
    decide +kernel
  have hyear : YearFrom1000 "2026-02-30" := by
    have hmatch : matchDate "2026-02-30" = some (['2', '0', '2', '6'], ['0', '2'], ['3', '0']) := by
      decide +kernel
    intro year month day hdate
    rw [hmatch] at hdate
    cases hdate
    decide
  have hdate := (h utcZone _ _ _ _ haccepted hyear fun _ _ => rfl).date
  revert hdate
  decide +kernel

end ZoomClone
