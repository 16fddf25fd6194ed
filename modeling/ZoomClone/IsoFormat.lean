/-
The text of an instant (`datetime.isoformat`).

A naive `datetime` is written with its date and its time, and with the microseconds only
if there are any.  Years that `datetime` does not have are written in the same way.

* `readIso_isoformat` — an instant is read back from its text.
-/
import ZoomClone.Calendar
import ZoomClone.Decimals
import ZoomClone.JsDate

namespace ZoomClone

open JsDate

def isoDigits (width n : ℕ) : List Char := (PyStr.zeroPadded width n).toList

/-- Four digits at least. -/
def isoYear (year : ℤ) : List Char :=
  if 0 ≤ year then isoDigits 4 year.toNat else '-' :: isoDigits 4 (-year).toNat

/-- `hh:mm:ss`, and the microseconds if there are any. -/
def isoTime (micros : ℕ) : List Char :=
  isoDigits 2 (micros / 3600000000) ++ ':' :: (isoDigits 2 (micros / 60000000 % 60) ++
    ':' :: (isoDigits 2 (micros / 1000000 % 60) ++
      if micros % 1000000 = 0 then [] else '.' :: isoDigits 6 (micros % 1000000)))

/-- `datetime.isoformat()` of a naive instant. -/
def isoformat (t : DateTime) : String :=
  let day := t / microsPerDay
  String.ofList (isoYear (yearFromDay day) ++ '-' :: (isoDigits 2 (monthFromDay day + 1) ++
    '-' :: (isoDigits 2 (dateFromDay day).toNat ++ 'T' :: isoTime (t % microsPerDay).toNat)))

example : isoformat 1709210096000000 = "2024-02-29T12:34:56" := by decide
example : isoformat (-1) = "1969-12-31T23:59:59.999999" := by decide

/-! ### Reading it back -/

/-- The number at the start of a text, and what follows it. -/
def numberPrefix (text : List Char) : ℕ × List Char :=
  (Nat.ofDigitChars 10 (text.takeWhile Char.isDigit) 0, text.dropWhile Char.isDigit)

/-- The text after a separator. -/
def afterSeparator (separator : Char) : List Char → Option (List Char)
  | c :: text => if c = separator then some text else none
  | [] => none

def readIsoYear (text : List Char) : ℤ × List Char :=
  match text with
  | '-' :: text => (-(numberPrefix text).1, (numberPrefix text).2)
  | text => ((numberPrefix text).1, (numberPrefix text).2)

def readIsoTime (text : List Char) : Option ℕ := do
  let hour := numberPrefix text
  let minute := numberPrefix (← afterSeparator ':' hour.2)
  let second := numberPrefix (← afterSeparator ':' minute.2)
  let micros ← if second.2 = [] then
    some 0 else (afterSeparator '.' second.2).map fun text => (numberPrefix text).1
  return hour.1 * 3600000000 + minute.1 * 60000000 + second.1 * 1000000 + micros

/-- The instant of a text that `isoformat` wrote. -/
def readIso (text : String) : Option DateTime := do
  let year := readIsoYear text.toList
  let month := numberPrefix (← afterSeparator '-' year.2)
  let date := numberPrefix (← afterSeparator '-' month.2)
  let micros ← readIsoTime (← afterSeparator 'T' date.2)
  return makeDay year.1 (month.1 - 1 : ℤ) date.1 * microsPerDay + micros

theorem isDigit_of_mem_isoDigits {width n : ℕ} {c : Char} (h : c ∈ isoDigits width n) : c.isDigit :=
  Decimals.isDigit_of_mem_zeroPadded h

/-- A padded number in front of something else. -/
theorem numberPrefix_isoDigits (width n : ℕ) {rest : List Char}
    (h : ∀ c ∈ rest.head?, c.isDigit = false) :
    numberPrefix (isoDigits width n ++ rest) = (n, rest) := by
  have hdigits : ∀ c ∈ isoDigits width n, c.isDigit := fun c hc => isDigit_of_mem_isoDigits hc
  have hrest : rest.takeWhile Char.isDigit = [] ∧ rest.dropWhile Char.isDigit = rest := by
    cases rest with
    | nil => exact ⟨rfl, rfl⟩
    | cons c rest =>
      have hc := h c rfl
      exact ⟨List.takeWhile_cons_of_neg (by simp [hc]), List.dropWhile_cons_of_neg (by simp [hc])⟩
  rw [numberPrefix, List.takeWhile_append_of_pos hdigits, List.dropWhile_append_of_pos hdigits,
    hrest.1, hrest.2,
    List.append_nil]
  exact congrArg (·, rest) (Decimals.ofDigitChars_zeroPadded width n)

theorem numberPrefix_before (width n : ℕ) {c : Char} (h : c.isDigit = false) (rest : List Char) :
    numberPrefix (isoDigits width n ++ c :: rest) = (n, c :: rest) := by
  refine numberPrefix_isoDigits width n ?_
  intro d hd
  obtain rfl := Option.some.inj hd
  exact h

theorem numberPrefix_last (width n : ℕ) : numberPrefix (isoDigits width n) = (n, []) := by
  rw [← List.append_nil (isoDigits width n)]
  exact numberPrefix_isoDigits width n (fun c hc => absurd hc (by simp))

theorem readIsoYear_isoYear (year : ℤ) (rest : List Char) :
    readIsoYear (isoYear year ++ '-' :: rest) = (year, '-' :: rest) := by
  rw [isoYear]
  split
  · next hpos =>
    -- the first character is a digit, so there is no sign
    have hread := numberPrefix_before 4 year.toNat (show '-'.isDigit = false from rfl) rest
    have hlength : 0 < (isoDigits 4 year.toNat).length := by
      simp [isoDigits, PyStr.zeroPadded, List.leftpad]
      omega
    obtain ⟨c, digits, hcons⟩ := List.exists_cons_of_length_pos hlength
    have hc : c ≠ '-' := by
      rintro rfl
      have hdigit : '-'.isDigit := isDigit_of_mem_isoDigits (hcons ▸ List.mem_cons_self)
      exact absurd hdigit (by decide)
    have hyear : readIsoYear (isoDigits 4 year.toNat ++ '-' :: rest) =
        (((numberPrefix (isoDigits 4 year.toNat ++ '-' :: rest)).1 : ℤ),
          (numberPrefix (isoDigits 4 year.toNat ++ '-' :: rest)).2) := by
      rw [hcons, List.cons_append, readIsoYear]
      intro text htext
      exact hc (List.cons.inj htext).1
    rw [hyear, hread, Int.toNat_of_nonneg hpos]
  · next hneg =>
    have hread := numberPrefix_before 4 (-year).toNat (show '-'.isDigit = false from rfl) rest
    rw [List.cons_append, readIsoYear, hread]
    simp only [Prod.mk.injEq, and_true]
    omega

theorem readIsoTime_isoTime (micros : ℕ) : readIsoTime (isoTime micros) = some micros := by
  have hsplit : micros / 3600000000 * 3600000000 + micros / 60000000 % 60 * 60000000 +
      micros / 1000000 % 60 * 1000000 + micros % 1000000 = micros := by omega
  have hcolon : ':'.isDigit = false := rfl
  rw [isoTime, readIsoTime]
  by_cases hzero : micros % 1000000 = 0
  · rw [if_pos hzero]
    simp only [numberPrefix_before 2 _ hcolon, afterSeparator, if_true,
      List.append_nil, numberPrefix_last,
      Option.bind_eq_bind, Option.bind_some]
    rw [hzero] at hsplit
    exact congrArg some hsplit
  · rw [if_neg hzero]
    simp only [numberPrefix_before 2 _ hcolon,
      numberPrefix_before 2 _ (show '.'.isDigit = false from rfl),
      afterSeparator, if_true, numberPrefix_last, Option.bind_eq_bind,
        Option.bind_some, reduceCtorEq, if_false,
      Option.map_some]
    exact congrArg some hsplit

/-- **An instant** is read back from its text. -/
theorem readIso_isoformat (t : DateTime) : readIso (isoformat t) = some t := by
  have hdash : '-'.isDigit = false := rfl
  have hdate := (fields_spec (t / microsPerDay)).2.1
  have hday := makeDay_fields (t / microsPerDay)
  rw [readIso, isoformat, String.toList_ofList]
  simp only [readIsoYear_isoYear, numberPrefix_before 2 _ hdash,
    numberPrefix_before 2 _ (show 'T'.isDigit = false from rfl),
    afterSeparator, if_true, readIsoTime_isoTime, Option.bind_eq_bind, Option.bind_some]
  rw [Int.toNat_of_nonneg (by omega), Nat.cast_add, Nat.cast_one, Int.add_sub_cancel, hday]
  refine congrArg some ?_
  rw [Int.toNat_of_nonneg (Int.emod_nonneg _ (by decide))]
  exact Int.ediv_mul_add_emod t microsPerDay

end ZoomClone
