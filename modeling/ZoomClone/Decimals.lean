/-
Decimal digit strings of a fixed width.

Below `10 ^ width` the zero padded form of a number has exactly `width` digits, and
reading the digits gives the number back.  Two digit strings of one length with one
value are the same, so the padded forms are all the digit strings of that length.

* `length_zeroPadded`, `ofDigitChars_zeroPadded` — the width and the value of the form;
* `zeroPadded_ofDigitChars` — a digit string is the padded form of its value.
-/
import ZoomClone.Text

namespace Decimals

open Nat

theorem toNat_of_isDigit {c : Char} (h : c.isDigit) : 48 ≤ c.toNat ∧ c.toNat ≤ 57 := by
  simp only [Char.isDigit, Bool.and_eq_true, decide_eq_true_eq] at h
  exact h

theorem isDigit_of_toNat {c : Char} (h : 48 ≤ c.toNat ∧ c.toNat ≤ 57) : c.isDigit := by
  simp only [Char.isDigit, Bool.and_eq_true, decide_eq_true_eq]
  exact h

/-! ### The padded form of a number -/

theorem toList_zeroPadded (width n : ℕ) :
    (PyStr.zeroPadded width n).toList = List.replicate (width - (toDigits 10 n).length) '0' ++
      toDigits 10 n := by
  simp [PyStr.zeroPadded, List.leftpad]

/-- Padding does not change the value. -/
theorem ofDigitChars_zeroPadded (width n : ℕ) :
    ofDigitChars 10 (PyStr.zeroPadded width n).toList 0 = n := by
  rw [toList_zeroPadded, ofDigitChars_append, ofDigitChars_replicate_zero, Nat.mul_zero,
    ofDigitChars_ten_toDigits]

theorem length_zeroPadded {width n : ℕ} (hpos : 0 < width) (hn : n < 10 ^ width) :
    (PyStr.zeroPadded width n).toList.length = width := by
  have hlength : (toDigits 10 n).length ≤ width := (length_toDigits_le_iff (by omega) hpos).mpr hn
  rw [toList_zeroPadded, List.length_append, List.length_replicate]
  omega

theorem isDigit_of_mem_zeroPadded {width n : ℕ} {c : Char}
    (h : c ∈ (PyStr.zeroPadded width n).toList) :
    c.isDigit := by
  rw [toList_zeroPadded, List.mem_append] at h
  rcases h with h | h
  · rw [List.eq_of_mem_replicate h]
    decide
  · exact isDigit_of_mem_toDigits (by omega) (by omega) h

/-! ### Digit strings and their values -/

/-- The first digit counts the full width. -/
theorem ofDigitChars_cons_zero (c : Char) (l : List Char) :
    ofDigitChars 10 (c :: l) 0 = 10 ^ l.length * (c.toNat - 48) + ofDigitChars 10 l 0 := by
  rw [ofDigitChars_cons, ofDigitChars_eq_ofDigitChars_zero]
  simp

theorem ofDigitChars_lt {l : List Char} (h : ∀ c ∈ l, c.isDigit) :
    ofDigitChars 10 l 0 < 10 ^ l.length := by
  induction l with
  | nil => simp
  | cons c l ih =>
    obtain ⟨hc, hl⟩ := List.forall_mem_cons.mp h
    have hdigit : c.toNat - 48 ≤ 9 := by
      have := toNat_of_isDigit hc
      omega
    have hfirst := Nat.mul_le_mul_left (10 ^ l.length) hdigit
    have htail := ih hl
    rw [ofDigitChars_cons_zero, List.length_cons, Nat.pow_succ]
    omega

/-- The length and the value determine a digit string. -/
theorem ofDigitChars_inj {l l' : List Char} (h : ∀ c ∈ l, c.isDigit) (h' : ∀ c ∈ l', c.isDigit)
    (hlength : l.length = l'.length) (hvalue : ofDigitChars 10 l 0 = ofDigitChars 10 l' 0) :
    l = l' := by
  induction l generalizing l' with
  | nil => exact (List.eq_nil_of_length_eq_zero hlength.symm).symm
  | cons c l ih =>
    match l', hlength with
    | c' :: l', hlength =>
      obtain ⟨hc, hl⟩ := List.forall_mem_cons.mp h
      obtain ⟨hc', hl'⟩ := List.forall_mem_cons.mp h'
      have hlen : l.length = l'.length := by simpa using hlength
      rw [ofDigitChars_cons_zero, ofDigitChars_cons_zero, ← hlen] at hvalue
      have hlt : ofDigitChars 10 l 0 < 10 ^ l.length := ofDigitChars_lt hl
      have hlt' : ofDigitChars 10 l' 0 < 10 ^ l.length := hlen ▸ ofDigitChars_lt hl'
      -- the quotient is the first digit, the remainder the rest
      have hfirst := congrArg (· / 10 ^ l.length) hvalue
      have hrest := congrArg (· % 10 ^ l.length) hvalue
      simp only [Nat.mul_add_div (Nat.pow_pos (n := l.length) (show 0 < 10 by omega)),
        Nat.div_eq_of_lt hlt,
        Nat.div_eq_of_lt hlt', Nat.add_zero] at hfirst
      simp only [Nat.mul_add_mod, Nat.mod_eq_of_lt hlt, Nat.mod_eq_of_lt hlt'] at hrest
      have hcode : c.toNat = c'.toNat := by
        have hb := toNat_of_isDigit hc
        have hb' := toNat_of_isDigit hc'
        omega
      rw [Char.toNat_inj.mp hcode, ih hl hl' hlen hrest]

/-- A digit string is the padded form of its value. -/
theorem zeroPadded_ofDigitChars {l : List Char} (hne : l ≠ []) (h : ∀ c ∈ l, c.isDigit) :
    (PyStr.zeroPadded l.length (ofDigitChars 10 l 0)).toList = l := by
  refine ofDigitChars_inj (fun c hc => isDigit_of_mem_zeroPadded hc) h ?_
    (ofDigitChars_zeroPadded _ _)
  exact length_zeroPadded (List.length_pos_iff.mpr hne) (ofDigitChars_lt h)

/-- A digit string without a leading zero is the plain form of its value. -/
theorem toDigits_ofDigitChars {l : List Char} (hne : l ≠ []) (h : ∀ c ∈ l, c.isDigit)
    (hlead : l.length = 1 ∨ 10 ^ (l.length - 1) ≤ ofDigitChars 10 l 0) :
    toDigits 10 (ofDigitChars 10 l 0) = l := by
  have hlength : l.length ≤ (toDigits 10 (ofDigitChars 10 l 0)).length := by
    rcases hlead with hone | hlead
    · rw [hone]
      exact length_toDigits_pos
    · by_contra hshort
      have hpos := List.length_pos_iff.mpr hne
      have hdigits := length_toDigits_pos (b := 10) (n := ofDigitChars 10 l 0)
      have hle : (toDigits 10 (ofDigitChars 10 l 0)).length ≤ l.length - 1 := by omega
      have hlt := (length_toDigits_le_iff (by omega) (by omega)).mp hle
      omega
  have hpadded := zeroPadded_ofDigitChars hne h
  rwa [toList_zeroPadded, Nat.sub_eq_zero_of_le hlength, List.replicate_zero,
    List.nil_append] at hpadded

end Decimals
