/-
Calendar dates: what `datetime.strptime(date, "%Y-%m-%d")` accepts, and the instant
a date starts at.

* `CalendarDate` — a date of the proleptic Gregorian calendar, valid by construction;
* `strptimeDate_iso` — the ISO form of a date of at most four digits is read back as
  that date, and a longer one is not read at all.
-/
import Mathlib.Tactic.IntervalCases
import ZoomClone.Models

namespace ZoomClone

/-! ### Dates -/

def isLeap (year : ℕ) : Bool := year % 4 = 0 && (year % 100 ≠ 0 || year % 400 = 0)

def daysInMonth (year month : ℕ) : ℕ :=
  if month = 2 && isLeap year then 29
  else [31, 28, 31, 30, 31, 30, 31, 31, 30, 31, 30, 31].getD (month - 1) 0

/-- A valid date.  Python's `datetime` stops at the year 9999, the browser's `Date`
does not. -/
structure CalendarDate where
  year : ℕ
  month : ℕ
  day : ℕ
  year_pos : 1 ≤ year
  month_mem : 1 ≤ month ∧ month ≤ 12
  day_mem : 1 ≤ day ∧ day ≤ daysInMonth year month
  deriving DecidableEq

theorem daysInMonth_le (year month : ℕ) : daysInMonth year month ≤ 31 := by
  have hlist : ∀ k < 12, [31, 28, 31, 30, 31, 30, 31, 31, 30, 31, 30, 31].getD k 0 ≤ 31 := by decide
  unfold daysInMonth
  split
  · omega
  · by_cases h : month - 1 < 12
    · exact hlist _ h
    · rw [List.getD_eq_getElem?_getD, List.getElem?_eq_none (by simpa using h)]
      exact Nat.zero_le 31

def daysBeforeYear (year : ℕ) : ℕ :=
  (year - 1) * 365 + (year - 1) / 4 - (year - 1) / 100 + (year - 1) / 400

def daysBeforeMonth (year month : ℕ) : ℕ :=
  ((List.range (month - 1)).map fun k => daysInMonth year (k + 1)).sum

/-- `date.toordinal()`: the first of January of the year 1 is day 1. -/
def CalendarDate.toOrdinal (d : CalendarDate) : ℕ :=
  daysBeforeYear d.year + daysBeforeMonth d.year d.month + d.day

/-- `date(1970, 1, 1).toordinal()`. -/
def epochOrdinal : ℕ := 719163

/-- `timedelta(days=1)`, in microseconds. -/
def microsPerDay : Int := 86400000000

/-- `datetime(year, month, day)`. -/
def CalendarDate.midnight (d : CalendarDate) : DateTime :=
  ((d.toOrdinal : Int) - epochOrdinal) * microsPerDay

example : (⟨1970, 1, 1, by decide, by decide, by decide⟩ : CalendarDate).midnight = 0 := by decide
example : (⟨2024, 2, 29, by decide, by decide, by decide⟩ : CalendarDate).midnight =
    19782 * microsPerDay := by decide

/-- The last date of Python's `datetime`. -/
def lastDate : CalendarDate := ⟨9999, 12, 31, by decide, by decide, by decide⟩

/-- The date has a next one in Python's `datetime`: otherwise `day + timedelta(days=1)`
raises `OverflowError`. -/
def CalendarDate.HasNext (d : CalendarDate) : Prop := d.year ≤ 9999 ∧ d ≠ lastDate

instance (d : CalendarDate) : Decidable d.HasNext :=
  inferInstanceAs (Decidable (d.year ≤ 9999 ∧ d ≠ lastDate))

/-- `datetime(year, month, day)` of text that was matched, if it is a date. -/
def CalendarDate.ofYmd (year month day : ℕ) : Option CalendarDate :=
  if h : 1 ≤ year ∧ (1 ≤ month ∧ month ≤ 12) ∧ 1 ≤ day ∧ day ≤ daysInMonth year month then
    some ⟨year, month, day, h.1, h.2.1, h.2.2⟩
  else none

theorem CalendarDate.ofYmd_self (d : CalendarDate) : ofYmd d.year d.month d.day = some d := by
  rw [ofYmd, dif_pos ⟨d.year_pos, d.month_mem, d.day_mem⟩]

/-! ### Reading a date -/

/-- The code points of the zeros of all scripts; the other decimal digits follow
theirs. -/
def decimalZeros : List ℕ :=
  [0x30, 0x660, 0x6f0, 0x7c0, 0x966, 0x9e6, 0xa66, 0xae6, 0xb66, 0xbe6, 0xc66, 0xce6, 0xd66, 0xde6,
   0xe50, 0xed0, 0xf20, 0x1040, 0x1090, 0x17e0, 0x1810, 0x1946, 0x19d0, 0x1a80, 0x1a90, 0x1b50,
   0x1bb0, 0x1c40, 0x1c50, 0xa620, 0xa8d0, 0xa900, 0xa9d0, 0xa9f0, 0xaa50, 0xabf0, 0xff10, 0x104a0,
   0x10d30, 0x11066, 0x110f0, 0x11136, 0x111d0, 0x112f0, 0x11450, 0x114d0, 0x11650, 0x116c0,
   0x11730, 0x118e0, 0x11950, 0x11c50, 0x11d50, 0x11da0, 0x11f50, 0x16a60, 0x16ac0, 0x16b50,
   0x1d7ce, 0x1d7d8, 0x1d7e2, 0x1d7ec, 0x1d7f6, 0x1e140, 0x1e2f0, 0x1e4f0, 0x1e950, 0x1fbf0]

/-- `\d` of a regular expression, with the value `int` gives it. -/
def decimal (c : Char) : Option ℕ :=
  (decimalZeros.find? fun z => z ≤ c.toNat ∧ c.toNat < z + 10).map fun z => c.toNat - z

/-- `[lo-hi]` for two ASCII digits, with its value. -/
def digitIn (lo hi : ℕ) (c : Char) : Option ℕ :=
  if 0x30 + lo ≤ c.toNat ∧ c.toNat ≤ 0x30 + hi then some (c.toNat - 0x30) else none

/-- `\d\d\d\d-`. -/
def readYear : List Char → Option (ℕ × List Char)
  | a :: b :: c :: d :: '-' :: rest => do
    let a ← decimal a
    let b ← decimal b
    let c ← decimal c
    let d ← decimal d
    return (1000 * a + 100 * b + 10 * c + d, rest)
  | _ => none

/-- `(1[0-2]|0[1-9]|[1-9])-`. -/
def readMonth : List Char → Option (ℕ × List Char)
  | a :: '-' :: rest => (digitIn 1 9 a).map fun a => (a, rest)
  | '1' :: b :: '-' :: rest => (digitIn 0 2 b).map fun b => (10 + b, rest)
  | '0' :: b :: '-' :: rest => (digitIn 1 9 b).map fun b => (b, rest)
  | _ => none

/-- `(3[0-1]|[1-2]\d|0[1-9]|[1-9]| [1-9])`, with nothing left over. -/
def readDay : List Char → Option ℕ
  | [a] => digitIn 1 9 a
  | ['3', b] => (digitIn 0 1 b).map (30 + ·)
  | ['0', b] => digitIn 1 9 b
  | [' ', b] => digitIn 1 9 b
  | [a, b] => do
    let a ← digitIn 1 2 a
    let b ← decimal b
    return 10 * a + b
  | _ => none

/-- `datetime.strptime(date, "%Y-%m-%d")`; `none` is a `ValueError`. -/
def strptimeDate (date : String) : Option CalendarDate := do
  let (year, rest) ← readYear date.toList
  let (month, rest) ← readMonth rest
  let day ← readDay rest
  CalendarDate.ofYmd year month day

/-! ### Writing a date -/

/-- `format(date, "yyyy-MM-dd")`. -/
def CalendarDate.iso (d : CalendarDate) : String :=
  PyStr.zeroPadded 4 d.year ++ "-" ++ PyStr.zeroPadded 2 d.month ++ "-" ++ PyStr.zeroPadded 2 d.day

example : (⟨2026, 7, 4, by decide, by decide, by decide⟩ : CalendarDate).iso = "2026-07-04" := by
  decide

/-! ### Reading what was written -/

/-- The last digit comes off the end. -/
theorem zeroPadded_succ (width n : ℕ) : (PyStr.zeroPadded (width + 2) n).toList =
    (PyStr.zeroPadded (width + 1) (n / 10)).toList ++ [Nat.digitChar (n % 10)] := by
  simp only [PyStr.zeroPadded, String.toList_ofList, Nat.toString_eq_repr,
    Nat.toList_repr, List.leftpad]
  rw [Nat.toDigits_eq_if (by decide)]
  split
  · next h =>
    rw [Nat.div_eq_of_lt h, Nat.mod_eq_of_lt h, Nat.toDigits_zero]
    simp [List.replicate_succ']
  · simp

theorem zeroPadded_one {n : ℕ} (h : n < 10) :
    (PyStr.zeroPadded 1 n).toList = [Nat.digitChar n] := by
  simp [PyStr.zeroPadded, Nat.toDigits_of_lt_base h, List.leftpad]

theorem decimal_digitChar {n : ℕ} (h : n < 10) : decimal (Nat.digitChar n) = some n := by
  have hall : ∀ n < 10, decimal (Nat.digitChar n) = some n := by decide
  exact hall n h

theorem zeroPadded_two {n : ℕ} (h : n < 100) :
    (PyStr.zeroPadded 2 n).toList = [Nat.digitChar (n / 10), Nat.digitChar (n % 10)] := by
  rw [zeroPadded_succ, zeroPadded_one (by omega)]
  rfl

theorem readYear_zeroPadded {n : ℕ} (h : n ≤ 9999) (rest : List Char) :
    readYear ((PyStr.zeroPadded 4 n).toList ++ '-' :: rest) = some (n, rest) := by
  rw [zeroPadded_succ, zeroPadded_succ, zeroPadded_succ, zeroPadded_one (by omega)]
  simp only [List.cons_append, List.nil_append, readYear]
  rw [decimal_digitChar (by omega), decimal_digitChar (by omega), decimal_digitChar (by omega),
    decimal_digitChar (by omega)]
  simp only [bind, Option.bind, pure]
  congr 2
  omega

/-- No year is read off five characters. -/
theorem readYear_of_five {digits : List Char} (hlength : 5 ≤ digits.length)
    (hdigits : ∀ c ∈ digits, c ≠ '-')
    (rest : List Char) : readYear (digits ++ '-' :: rest) = none := by
  match digits, hlength, hdigits with
  | a :: b :: c :: d :: e :: digits, _, hdigits =>
    have he : e ≠ '-' := hdigits e (by simp)
    simp only [List.cons_append, readYear]
    split
    · next heq =>
      simp only [List.cons.injEq] at heq
      exact absurd heq.2.2.2.2.1 he
    · rfl

/-- A year of five digits or more has a digit where the pattern wants a hyphen. -/
theorem readYear_of_long {n : ℕ} (h : 9999 < n) (rest : List Char) :
    readYear ((PyStr.zeroPadded 4 n).toList ++ '-' :: rest) = none := by
  have hdigits : ∀ c ∈ (PyStr.zeroPadded 4 n).toList, c ≠ '-' := by
    rintro c hc rfl
    exact absurd (PyStr.isDigit_of_mem_zeroPadded hc) (by decide)
  have hlength : 5 ≤ (PyStr.zeroPadded 4 n).toList.length := by
    -- three digits come off the end, and two are left at least
    have htop : 2 ≤ (PyStr.zeroPadded 1 (n / 10 / 10 / 10)).toList.length := by
      simp only [PyStr.zeroPadded, String.toList_ofList, Nat.toString_eq_repr,
        Nat.toList_repr, List.leftpad]
      rw [Nat.toDigits_of_base_le (by decide) (by omega)]
      have hne := Nat.toDigits_ne_nil (n := n / 10 / 10 / 10 / 10) (b := 10)
      have hpos := List.length_pos_iff.mpr hne
      simp only [List.length_append, List.length_singleton]
      omega
    rw [zeroPadded_succ, zeroPadded_succ, zeroPadded_succ]
    simp only [List.length_append, List.length_singleton, Nat.zero_add]
    omega
  exact readYear_of_five hlength hdigits rest

theorem readMonth_zeroPadded {n : ℕ} (h : 1 ≤ n ∧ n ≤ 12) (rest : List Char) :
    readMonth ((PyStr.zeroPadded 2 n).toList ++ '-' :: rest) = some (n, rest) := by
  rw [zeroPadded_two (by omega)]
  obtain ⟨hlo, hhi⟩ := h
  interval_cases n <;> rfl

theorem readDay_zeroPadded {n : ℕ} (h : 1 ≤ n ∧ n ≤ 31) :
    readDay (PyStr.zeroPadded 2 n).toList = some n := by
  rw [zeroPadded_two (by omega)]
  obtain ⟨hlo, hhi⟩ := h
  interval_cases n <;> rfl

/-- **The ISO form of a date** of at most four digits is read back as that date, and
a longer one is not read at all. -/
theorem strptimeDate_iso (d : CalendarDate) :
    strptimeDate d.iso = if d.year ≤ 9999 then some d else none := by
  have hlist : d.iso.toList = (PyStr.zeroPadded 4 d.year).toList ++ '-' ::
      ((PyStr.zeroPadded 2 d.month).toList ++ '-' :: (PyStr.zeroPadded 2 d.day).toList) := by
    simp [CalendarDate.iso]
  rw [strptimeDate, hlist]
  split
  · next hyear =>
    rw [readYear_zeroPadded hyear]
    simp only [bind, Option.bind]
    rw [readMonth_zeroPadded d.month_mem]
    simp only
    rw [readDay_zeroPadded ⟨d.day_mem.1, d.day_mem.2.trans (daysInMonth_le ..)⟩]
    exact d.ofYmd_self
  · next hyear =>
    rw [readYear_of_long (by omega)]
    rfl

end ZoomClone
