/-
The date arithmetic of JavaScript.

A time value counts milliseconds from the start of 1970, in the proleptic Gregorian
calendar.  `makeDay` takes any month and any date: months beyond the year and dates
beyond the month move on to the ones that follow.  The fields of a time value are read
back by `yearFromDay`, `monthFromDay` and `dateFromDay`.

* `yearFromDay_spec`, `monthFromDay_spec` — every day lies in its year and its month;
* `fields_makeDay` — a month and a date that exist are read back as they are;
* `makeDay_fields` — and a day is made of the fields that are read from it.
-/
import Mathlib.Data.Int.ConditionallyCompleteOrder
import Mathlib.Order.Monotone.Basic
import Mathlib.Tactic.IntervalCases

namespace JsDate

def inLeapYear (year : ℤ) : Bool := year % 4 = 0 && (year % 100 ≠ 0 || year % 400 = 0)

def daysInYear (year : ℤ) : ℤ := if inLeapYear year then 366 else 365

/-- `DayFromYear`: the number of the first day of a year. -/
def dayFromYear (year : ℤ) : ℤ :=
  365 * (year - 1970) + (year - 1969) / 4 - (year - 1901) / 100 + (year - 1601) / 400

/-- `YearFromTime`: the last year that starts on the day or before.  The mean length of a
year gives it up to one. -/
def yearFromDay (day : ℤ) : ℤ :=
  let year := 1970 + 400 * day / 146097
  if day < dayFromYear year then year - 1
  else if dayFromYear (year + 1) ≤ day then year + 1
  else year

/-- The day of the year with which a month starts; months count from 0. -/
def monthStart (leap : Bool) (month : ℕ) : ℤ :=
  [0, 31, 59, 90, 120, 151, 181, 212, 243, 273, 304, 334, 365].getD month 0 + if leap ∧ 2 ≤
    month then 1 else 0

/-- `MonthFromTime`: the number of months after the first that have started. -/
def monthFromDayInYear (leap : Bool) (day : ℤ) : ℕ :=
  ((List.range 11).filter fun month => monthStart leap (month + 1) ≤ day).length

/-- `MakeDay`. -/
def makeDay (year month date : ℤ) : ℤ :=
  dayFromYear (year + month / 12) + monthStart (inLeapYear (year + month / 12))
    (month % 12).toNat + date - 1

def monthFromDay (day : ℤ) : ℕ :=
  monthFromDayInYear (inLeapYear (yearFromDay day)) (day - dayFromYear (yearFromDay day))

/-- `DateFromTime`. -/
def dateFromDay (day : ℤ) : ℤ :=
  day - dayFromYear (yearFromDay day) - monthStart (inLeapYear (yearFromDay day))
    (monthFromDay day) + 1

/-! ### Years -/

theorem dayFromYear_succ (year : ℤ) :
    dayFromYear (year + 1) = dayFromYear year + daysInYear year := by
  unfold dayFromYear daysInYear inLeapYear
  split_ifs with h
  · simp only [Bool.and_eq_true, Bool.or_eq_true, decide_eq_true_eq] at h
    omega
  · simp only [Bool.and_eq_true, Bool.or_eq_true, decide_eq_true_eq] at h
    omega

theorem dayFromYear_strictMono : StrictMono dayFromYear := by
  refine strictMono_int_of_lt_succ fun year => ?_
  rw [dayFromYear_succ, daysInYear]
  split_ifs <;> omega

/-- Every day lies in its year. -/
theorem yearFromDay_spec (day : ℤ) :
    dayFromYear (yearFromDay day) ≤ day ∧ day < dayFromYear (yearFromDay day + 1) := by
  have hlow : dayFromYear (1970 + 400 * day / 146097 - 1) ≤ day := by
    unfold dayFromYear
    omega
  have hhigh : day < dayFromYear (1970 + 400 * day / 146097 + 1 + 1) := by
    unfold dayFromYear
    omega
  unfold yearFromDay
  simp only
  split_ifs with h h'
  · exact ⟨hlow, by rwa [Int.sub_add_cancel]⟩
  · exact ⟨h', hhigh⟩
  · exact ⟨by omega, by omega⟩

theorem yearFromDay_eq {year day : ℤ} (h : dayFromYear year ≤ day)
    (h' : day < dayFromYear (year + 1)) :
    yearFromDay day = year := by
  obtain ⟨hlow, hhigh⟩ := yearFromDay_spec day
  have hle : year < yearFromDay day + 1 := dayFromYear_strictMono.lt_iff_lt.mp (h.trans_lt hhigh)
  have hge : yearFromDay day < year + 1 := dayFromYear_strictMono.lt_iff_lt.mp (hlow.trans_lt h')
  omega

/-! ### Months -/

/-- The length of a month. -/
def monthLength (leap : Bool) (month : ℕ) : ℤ := monthStart leap (month + 1) - monthStart leap month

theorem monthLength_le (leap : Bool) {month : ℕ} (h : month ≤ 11) :
    monthLength leap month ≤ 31 := by
  have hall : ∀ leap, ∀ month ≤ 11, monthLength leap month ≤ 31 := by decide
  exact hall leap month h

theorem monthStart_mono (leap : Bool) {i j : ℕ} (hij : i ≤ j) (hj : j ≤ 12) :
    monthStart leap i ≤ monthStart leap j := by
  have hall : ∀ leap, ∀ j ≤ 12, ∀ i ≤ j, monthStart leap i ≤ monthStart leap j := by decide
  exact hall leap j hj i hij

theorem monthStart_zero (leap : Bool) : monthStart leap 0 = 0 := by
  cases leap <;> rfl

theorem monthStart_twelve (year : ℤ) : monthStart (inLeapYear year) 12 = daysInYear year := by
  unfold daysInYear
  cases inLeapYear year <;> rfl

/-- Of consecutive intervals, one holds the point. -/
theorem exists_between {f : ℕ → ℤ} {n : ℕ} {d : ℤ} (h : f 0 ≤ d) (h' : d < f n) :
    ∃ m < n, f m ≤ d ∧ d < f (m + 1) := by
  induction n with
  | zero => omega
  | succ n ih =>
    by_cases hd : d < f n
    · obtain ⟨m, hm, hbetween⟩ := ih hd
      exact ⟨m, by omega, hbetween⟩
    · exact ⟨n, by omega, by omega, h'⟩

theorem monthFromDayInYear_eq {leap : Bool} {month : ℕ} {day : ℤ} (hmonth : month ≤ 11)
    (h : monthStart leap month ≤ day) (h' : day < monthStart leap (month + 1)) :
    monthFromDayInYear leap day = month := by
  have hstarted : ∀ k ∈ List.range 11,
      decide (monthStart leap (k + 1) ≤ day) = decide (k < month) := by
    intro k hk
    have hk : k < 11 := List.mem_range.mp hk
    rw [decide_eq_decide]
    constructor
    · intro hle
      by_contra hlate
      have := monthStart_mono leap (show month + 1 ≤ k + 1 by omega) (by omega)
      omega
    · intro hlt
      have := monthStart_mono leap (show k + 1 ≤ month by omega) (by omega)
      omega
  have hcount : ∀ month ≤ 11,
    ((List.range 11).filter fun k => k < month).length = month := by decide
  rw [monthFromDayInYear, List.filter_congr hstarted, hcount month hmonth]

/-- Every day of the year lies in its month. -/
theorem monthFromDayInYear_spec {leap : Bool} {day : ℤ} (h : 0 ≤ day)
    (h' : day < monthStart leap 12) :
    monthFromDayInYear leap day ≤ 11 ∧ monthStart leap (monthFromDayInYear leap day) ≤ day ∧
      day < monthStart leap (monthFromDayInYear leap day + 1) := by
  obtain ⟨month, hmonth, hlow, hhigh⟩ :=
    exists_between (f := monthStart leap) (by rwa [monthStart_zero]) h'
  rw [monthFromDayInYear_eq (by omega) hlow hhigh]
  exact ⟨by omega, hlow, hhigh⟩

/-! ### Dates -/

/-- The fields of a day name a month of the year and a date of the month. -/
theorem fields_spec (day : ℤ) : monthFromDay day ≤ 11 ∧ 1 ≤ dateFromDay day ∧
    dateFromDay day ≤ monthLength (inLeapYear (yearFromDay day)) (monthFromDay day) := by
  obtain ⟨hlow, hhigh⟩ := yearFromDay_spec day
  rw [dayFromYear_succ, ← monthStart_twelve] at hhigh
  have hpos : 0 ≤ day - dayFromYear (yearFromDay day) := by omega
  have hlt : day - dayFromYear (yearFromDay day) < monthStart
    (inLeapYear (yearFromDay day)) 12 := by omega
  obtain ⟨hmonth, hstart, hend⟩ := monthFromDayInYear_spec hpos hlt
  refine ⟨hmonth, ?_, ?_⟩
  · rw [dateFromDay, monthFromDay]
    omega
  · rw [dateFromDay, monthLength, monthFromDay]
    omega

/-- **A month and a date that exist** are read back as they are. -/
theorem fields_makeDay (year : ℤ) {date : ℤ} {month : ℕ} (hmonth : month ≤ 11) (hdate : 1 ≤ date)
    (hdate' : date ≤ monthLength (inLeapYear year) month) :
    yearFromDay (makeDay year month date) = year ∧ monthFromDay (makeDay year month date) = month ∧
      dateFromDay (makeDay year month date) = date := by
  have hday : makeDay year month date = dayFromYear year + monthStart
      (inLeapYear year) month + date - 1 := by
    have hdiv : (month : ℤ) / 12 = 0 := by omega
    have hmod : ((month : ℤ) % 12).toNat = month := by omega
    rw [makeDay, hdiv, hmod, Int.add_zero]
  rw [monthLength] at hdate'
  -- The day lies between the starts of the year and of the next.
  have hstart := monthStart_mono (inLeapYear year) (Nat.zero_le month) (by omega)
  have hend := monthStart_mono (inLeapYear year) (show month + 1 ≤ 12 by omega) (by omega)
  rw [monthStart_zero] at hstart
  rw [monthStart_twelve] at hend
  have hyear : yearFromDay (makeDay year month date) = year := by
    refine yearFromDay_eq (by omega) ?_
    rw [dayFromYear_succ]
    omega
  have hmonthFrom : monthFromDay (makeDay year month date) = month := by
    rw [monthFromDay, hyear]
    exact monthFromDayInYear_eq hmonth (by omega) (by omega)
  refine ⟨hyear, hmonthFrom, ?_⟩
  rw [dateFromDay, hyear, hmonthFrom]
  omega

/-- The day of the fields that are read from it. -/
theorem makeDay_fields (day : ℤ) :
    makeDay (yearFromDay day) (monthFromDay day) (dateFromDay day) = day := by
  have hmonth := (fields_spec day).1
  have hdiv : (monthFromDay day : ℤ) / 12 = 0 := by omega
  have hmod : ((monthFromDay day : ℤ) % 12).toNat = monthFromDay day := by omega
  rw [makeDay, hdiv, hmod, Int.add_zero, dateFromDay]
  omega

/-! ### Times -/

def msPerDay : ℤ := 86400000

/-- `MakeTime`. -/
def makeTime (hour min sec ms : ℤ) : ℤ := hour * 3600000 + min * 60000 + sec * 1000 + ms

/-- `MakeDate`. -/
def makeDate (day time : ℤ) : ℤ := day * msPerDay + time

def dayOf (t : ℤ) : ℤ := t / msPerDay

def hourFromTime (t : ℤ) : ℕ := (t / 3600000 % 24).toNat

def minFromTime (t : ℤ) : ℕ := (t / 60000 % 60).toNat

theorem minFromTime_lt (t : ℤ) : minFromTime t < 60 := by
  unfold minFromTime
  omega

/-- **An hour and a minute that exist** are read back as they are. -/
theorem fields_makeDate (day : ℤ) {hour min : ℕ} (hhour : hour < 24) (hmin : min < 60) :
    dayOf (makeDate day (makeTime hour min 0 0)) = day ∧
      hourFromTime (makeDate day (makeTime hour min 0 0)) = hour ∧
      minFromTime (makeDate day (makeTime hour min 0 0)) = min := by
  unfold dayOf hourFromTime minFromTime makeDate makeTime msPerDay
  omega

theorem hourFromTime_lt (t : ℤ) : hourFromTime t < 24 := by
  unfold hourFromTime
  omega

/-- The fields of a time, without its seconds. -/
theorem makeDate_fields (t : ℤ) :
    makeDate (dayOf t) (makeTime (hourFromTime t) (minFromTime t) 0 0) = t - t % 60000 := by
  unfold dayOf hourFromTime minFromTime makeDate makeTime msPerDay
  omega

/-! ### The constructor -/

/-- A local time zone: `UTC`, which reads a local time, and `LocalTime`. -/
structure LocalZone where
  utc : ℤ → ℤ
  localTime : ℤ → ℤ

/-- No local time is skipped at this one: it is the local time of the instant that it
names. -/
def LocalZone.NoGapAt (zone : LocalZone) (t : ℤ) : Prop := zone.localTime (zone.utc t) = t

/-- `setSeconds(sec, ms)`. -/
def LocalZone.setSeconds (zone : LocalZone) (date sec ms : ℤ) : ℤ :=
  let t := zone.localTime date
  zone.utc (makeDate (dayOf t) (makeTime (hourFromTime t) (minFromTime t) sec ms))

/-- `setMinutes(min)`, which keeps the seconds. -/
def LocalZone.setMinutes (zone : LocalZone) (date min : ℤ) : ℤ :=
  let t := zone.localTime date
  zone.utc (makeDate (dayOf t) (makeTime (hourFromTime t) min 0 (t % 60000)))

/-- `TimeClip`; `none` is `NaN`. -/
def timeClip (time : ℤ) : Option ℤ := if time.natAbs ≤ 8640000000000000 then some time else none

/-- The local time that `new Date(year, month, date, hours, minutes, seconds, ms)`
names.  Years from 0 to 99 are those of the twentieth century. -/
def localTimeOf (year month date hours minutes seconds ms : ℤ) : ℤ :=
  let fullYear := if 0 ≤ year ∧ year ≤ 99 then 1900 + year else year
  makeDate (makeDay fullYear month date) (makeTime hours minutes seconds ms)

/-- `new Date(year, month, date, hours, minutes, seconds, ms)`. -/
def newDate (zone : LocalZone) (year month date hours minutes seconds ms : ℤ) : Option ℤ :=
  timeClip (zone.utc (localTimeOf year month date hours minutes seconds ms))

end JsDate
