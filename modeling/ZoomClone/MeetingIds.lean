/-
Meeting ids on the two sides.

The client and the API each strip a typed id to its digits and each group the digits
for display.  The grouping agrees on every text.  The stripping does not: `\D` keeps
the ASCII digits alone, `str.isdigit` those of every script.

* `formatMeetingId_eq` — the client shows its digits as the API would show them;
* `meeting_ids_agree_iff` — on which texts the two sides agree;
* `meeting_number_space` — the drawn numbers are the eleven-digit numbers without a
  leading zero, each from one draw, and they survive display and re-entry.
-/
import Mathlib.Probability.Distributions.Uniform
import ZoomClone.Decimals
import ZoomClone.MeetingService

namespace ZoomClone

/-! ### The client -/

/-- Group sizes for an 11-digit meeting number. -/
def groupSizes : List ℕ := [3, 4, 4]

/-- Group sizes for a 10-digit personal meeting id. -/
def pmiGroupSizes : List ℕ := [3, 3, 4]

def normalizeMeetingId (value : String) : String := JsStr.digits value

/-- The loop over the groups, from `offset` on.  It slices digits, which are one code
unit each. -/
def groupParts (digits : String) (offset : ℕ) : List ℕ → List String
  | [] => []
  | size :: sizes => PyStr.slice digits offset (offset + size) ::
    groupParts digits (offset + size) sizes

/-- `String(value)` of a text is the text. -/
def formatMeetingId (value : String) : String :=
  let digits := normalizeMeetingId value
  let groups := if JsStr.length digits = pmiGroupSizes.sum then pmiGroupSizes else groupSizes
  let expected := groups.sum
  if JsStr.length digits ≠ expected then digits
  else " ".intercalate (groupParts digits 0 groups)

example : formatMeetingId "895-9025-0750" = "895 9025 0750" := by decide

/-- What `\D` leaves are the ASCII digits. -/
theorem inRanges_ascii (c : Char) : inRanges [(0x30, 0x39)] c = c.isDigit := by
  rw [Bool.eq_iff_iff]
  simp only [inRanges, List.any_cons, List.any_nil, Bool.or_false,
    Bool.and_eq_true, decide_eq_true_eq]
  exact ⟨Decimals.isDigit_of_toNat, Decimals.toNat_of_isDigit⟩

theorem mem_normalizeMeetingId {s : String} {c : Char} :
    c ∈ (normalizeMeetingId s).toList ↔ c ∈ s.toList ∧ c.isDigit := by
  rw [normalizeMeetingId, JsStr.digits, String.toList_ofList, List.mem_filter, inRanges_ascii]

/-- Digits are one code unit each. -/
theorem length_of_isDigit {s : String} (h : ∀ c ∈ s.toList, c.isDigit) :
    JsStr.length s = s.length := by
  have hone : ∀ c ∈ s.toList, (if c.toNat < 0x10000 then 1 else 2) = 1 := by
    intro c hc
    have := Decimals.toNat_of_isDigit (h c hc)
    rw [if_pos (by omega)]
  rw [JsStr.length, List.map_congr_left hone, ← String.length_toList]
  simp

/-- **Grouping.**  The client's display form is the one that the API gives the same
digits. -/
theorem formatMeetingId_eq (s : String) :
    formatMeetingId s = formatMeetingNumber (normalizeMeetingId s) := by
  have hlength : JsStr.length (normalizeMeetingId s) = (normalizeMeetingId s).length :=
    length_of_isDigit fun c hc => (mem_normalizeMeetingId.mp hc).2
  simp only [formatMeetingId, formatMeetingNumber, hlength]
  generalize normalizeMeetingId s = digits
  have hjoin (a b c : String) : " ".intercalate [a, b, c] = a ++ " " ++ b ++ " " ++ c := rfl
  by_cases h11 : digits.length = 11
  · simp [h11, pmiGroupSizes, groupSizes, groupParts, meetingNumberDigits, hjoin]
  · by_cases h10 : digits.length = 10
    · simp [h10, pmiGroupSizes, groupParts, meetingNumberDigits, pmiDigits, hjoin]
    · simp [h10, h11, pmiGroupSizes, groupSizes, meetingNumberDigits, pmiDigits]

/-! ### Display and re-entry -/

theorem toList_slice (s : String) (i j : ℕ) :
    (PyStr.slice s i j).toList = (s.toList.take j).drop i := by
  rw [PyStr.slice, String.toList_ofList]

/-- Three adjacent cuts make up the list. -/
theorem take_append_drop_append_drop {α : Type} (l : List α) {i j : ℕ} (h : i ≤ j) :
    l.take i ++ ((l.take j).drop i ++ l.drop j) = l := by
  have hcut : (l.take j).take i = l.take i := by rw [List.take_take, Nat.min_eq_left h]
  rw [← List.append_assoc, ← hcut, List.take_append_drop, List.take_append_drop]

/-- The display form holds the characters of the number and spaces. -/
theorem filter_formatMeetingNumber {p : Char → Bool} (hspace : p ' ' = false) {number : String}
    (h : ∀ c ∈ number.toList, p c) :
    (formatMeetingNumber number).toList.filter p = number.toList := by
  have hself : number.toList.filter p = number.toList := List.filter_eq_self.mpr h
  have hspaces : " ".toList.filter p = [] := by simp [hspace]
  have hgroups (i : ℕ) (hi : 3 ≤ i) :
    (PyStr.slice number 0 3 ++ " " ++ PyStr.slice number 3 i ++ " " ++
      PyStr.slice number i number.length).toList.filter p = number.toList := by
    conv_rhs => rw [← hself, ← take_append_drop_append_drop number.toList hi]
    simp only [String.toList_append, List.filter_append, hspaces, toList_slice, List.nil_append,
      List.drop_zero, ← String.length_toList, List.take_length, List.append_assoc]
  unfold formatMeetingNumber
  split_ifs
  · exact hgroups 7 (by omega)
  · exact hgroups 6 (by omega)
  · exact hself

/-- A number that the API shows is read back by the API. -/
theorem normalize_formatMeetingNumber {number : String} (h : ∀ c ∈ number.toList, PyStr.isDigit c) :
    normalizeMeetingNumber (formatMeetingNumber number) = number := by
  rw [normalizeMeetingNumber, PyStr.digits, filter_formatMeetingNumber (by decide) h,
    String.ofList_toList]

/-- An ASCII number that the API shows is read back by the client. -/
theorem normalizeMeetingId_format {number : String} (h : ∀ c ∈ number.toList, c.isDigit) :
    normalizeMeetingId (formatMeetingNumber number) = number := by
  rw [normalizeMeetingId, JsStr.digits, filter_formatMeetingNumber (by decide),
    String.ofList_toList]
  intro c hc
  rw [inRanges_ascii]
  exact h c hc

/-! ### Agreement -/

/-- The two sides agree on a text: on its digits, on their display form, on what either
side reads in a display form, and on the meeting that is meant. -/
structure AgreeOnId (s : String) : Prop where
  normalize : normalizeMeetingId s = normalizeMeetingNumber s
  format : formatMeetingId s = formatMeetingNumber (normalizeMeetingNumber s)
  reentry : ∀ shown ∈ [formatMeetingId s, formatMeetingNumber (normalizeMeetingNumber s)],
    normalizeMeetingId shown = normalizeMeetingId s ∧
      normalizeMeetingNumber shown = normalizeMeetingNumber s
  meeting : ∀ db : Db, getByNumber db (normalizeMeetingId s) = getByNumber db s

/-- No character of the text is a digit of another script. -/
def AsciiDigitsOnly (s : String) : Prop := ∀ c ∈ s.toList, PyStr.isDigit c → c.isDigit

theorem normalizeMeetingNumber_eq {s : String} (h : AsciiDigitsOnly s) :
    normalizeMeetingNumber s = normalizeMeetingId s := by
  rw [normalizeMeetingNumber, normalizeMeetingId, PyStr.digits, JsStr.digits]
  congr 1
  refine List.filter_congr fun c hc => ?_
  rw [inRanges_ascii, Bool.eq_iff_iff]
  exact ⟨h c hc, PyStr.isDigit_of_isDigit⟩

/-- **Agreement on meeting ids.**  The client and the API agree on exactly the texts
without digits of other scripts. -/
theorem meeting_ids_agree_iff (s : String) : AgreeOnId s ↔ AsciiDigitsOnly s := by
  constructor
  · -- A digit that the server keeps is one that the client keeps.
    intro h c hc hdigit
    have hmem : c ∈ (normalizeMeetingNumber s).toList := by
      rw [normalizeMeetingNumber, PyStr.digits, String.toList_ofList, List.mem_filter]
      exact ⟨hc, hdigit⟩
    rw [← h.normalize] at hmem
    exact (mem_normalizeMeetingId.mp hmem).2
  · intro h
    have hnormalize := normalizeMeetingNumber_eq h
    have hascii : ∀ c ∈ (normalizeMeetingId s).toList, c.isDigit :=
      fun c hc => (mem_normalizeMeetingId.mp hc).2
    have hread := normalizeMeetingId_format hascii
    have hread' := normalize_formatMeetingNumber fun c hc => PyStr.isDigit_of_isDigit (hascii c hc)
    have htwice : normalizeMeetingNumber (normalizeMeetingId s) = normalizeMeetingNumber s := by
      rw [hnormalize]
      exact PyStr.digits_eq_self fun c hc => PyStr.isDigit_of_isDigit (hascii c hc)
    refine ⟨hnormalize.symm, ?_, ?_, fun db => ?_⟩
    · rw [formatMeetingId_eq, hnormalize]
    · rw [formatMeetingId_eq, hnormalize]
      simp [hread, hread']
    · rw [getByNumber, getByNumber, Db.meetingByNumber, Db.meetingByNumber, htwice]

/-- An id in Arabic-Indic digits: the client reads nothing, the API eleven digits. -/
theorem meeting_ids_disagree : ¬ ∀ s : String, AgreeOnId s := by
  intro h
  have hnormalize := (h "٨٩٥ ٩٠٢٥ ٠٧٥٠").normalize
  revert hnormalize
  decide +kernel

/-! ### The number space -/

/-- `generate_meeting_number` with its assertion: `none` is an `AssertionError`. -/
def assertedMeetingNumber (draw : ℕ × ℕ) : Option String :=
  let number := generateMeetingNumber draw
  if number.length = meetingNumberDigits ∧ number.toList.head? ≠ some '0' then some number else none

def firstDigitChoices : ℕ := 9
def remainderUpperBound : ℕ := 10 ^ (meetingNumberDigits - 1)

/-- What `randbelow(9)` and `randbelow(10 ** 10)` can give. -/
def meetingNumberDraws : Finset (ℕ × ℕ) :=
  Finset.range firstDigitChoices ×ˢ Finset.range remainderUpperBound

/-- Eleven ASCII digits, the first of them not zero. -/
structure IsMeetingNumber (number : String) : Prop where
  length : number.length = meetingNumberDigits
  digits : ∀ c ∈ number.toList, c.isDigit
  head : number.toList.head? ≠ some '0'

theorem mem_meetingNumberDraws {draw : ℕ × ℕ} :
    draw ∈ meetingNumberDraws ↔ draw.1 < 9 ∧ draw.2 < 10 ^ 10 := by
  rw [meetingNumberDraws, Finset.mem_product, Finset.mem_range, Finset.mem_range]
  rfl

/-- The first digit, and the padded rest. -/
theorem toList_generateMeetingNumber {draw : ℕ × ℕ} (h : draw ∈ meetingNumberDraws) :
    (generateMeetingNumber draw).toList =
      Nat.digitChar (draw.1 + 1) :: (PyStr.zeroPadded 10 draw.2).toList := by
  have hfirst := (mem_meetingNumberDraws.mp h).1
  rw [generateMeetingNumber, String.toList_append, Nat.toString_eq_repr, Nat.toList_repr,
    Nat.toDigits_of_lt_base (by omega)]
  rfl

theorem isMeetingNumber_generate {draw : ℕ × ℕ} (h : draw ∈ meetingNumberDraws) :
    IsMeetingNumber (generateMeetingNumber draw) := by
  obtain ⟨hfirst, hrest⟩ := mem_meetingNumberDraws.mp h
  have hlist := toList_generateMeetingNumber h
  refine ⟨?_, ?_, ?_⟩
  · rw [← String.length_toList, hlist, List.length_cons,
      Decimals.length_zeroPadded (by omega) hrest]
    rfl
  · intro c hc
    rw [hlist, List.mem_cons] at hc
    rcases hc with rfl | hc
    · simp [Nat.isDigit_digitChar]
      omega
    · exact Decimals.isDigit_of_mem_zeroPadded hc
  · simp [hlist]

/-- The value of a drawn number. -/
theorem ofDigitChars_generateMeetingNumber {draw : ℕ × ℕ} (h : draw ∈ meetingNumberDraws) :
    Nat.ofDigitChars 10 (generateMeetingNumber draw).toList 0 =
      10 ^ 10 * (draw.1 + 1) + draw.2 := by
  obtain ⟨hfirst, hrest⟩ := mem_meetingNumberDraws.mp h
  rw [toList_generateMeetingNumber h, Decimals.ofDigitChars_cons_zero,
    Decimals.length_zeroPadded (by omega) hrest, Decimals.ofDigitChars_zeroPadded,
    Nat.toNat_digitChar_sub_48_of_lt_ten (by omega)]

theorem generateMeetingNumber_injOn : Set.InjOn generateMeetingNumber meetingNumberDraws := by
  intro draw hdraw draw' hdraw' heq
  have hvalue := congrArg (fun number => Nat.ofDigitChars 10 number.toList 0) heq
  simp only [ofDigitChars_generateMeetingNumber hdraw,
    ofDigitChars_generateMeetingNumber hdraw'] at hvalue
  have hrest := (mem_meetingNumberDraws.mp hdraw).2
  have hrest' := (mem_meetingNumberDraws.mp hdraw').2
  exact Prod.ext (by omega) (by omega)

theorem exists_draw {number : String} (h : IsMeetingNumber number) :
    ∃ draw ∈ meetingNumberDraws, generateMeetingNumber draw = number := by
  obtain ⟨hlength, hdigits, hhead⟩ := h
  rw [← String.length_toList] at hlength
  match hlist : number.toList, hlength with
  | c :: l, hlength =>
    rw [hlist] at hdigits hhead
    obtain ⟨hc, hl⟩ := List.forall_mem_cons.mp hdigits
    have hlen : l.length = 10 := by simpa [meetingNumberDigits] using hlength
    have hcode := Decimals.toNat_of_isDigit hc
    have hzero : c.toNat ≠ 48 := by
      intro hzero
      have : c = '0' := Char.toNat_inj.mp hzero
      simp [this] at hhead
    have hlt := Decimals.ofDigitChars_lt hl
    rw [hlen] at hlt
    -- The first draw is of 1 to 9, from 0 on.
    have hdraw : (c.toNat - 49, Nat.ofDigitChars 10 l 0) ∈ meetingNumberDraws :=
      mem_meetingNumberDraws.mpr ⟨by omega, hlt⟩
    refine ⟨_, hdraw, String.toList_inj.mp ?_⟩
    have hrest := Decimals.zeroPadded_ofDigitChars (by simp [← List.length_pos_iff, hlen]) hl
    rw [hlen] at hrest
    have hfirst : Nat.digitChar (c.toNat - 49 + 1) = c := by
      refine Char.toNat_inj.mp ?_
      rw [Nat.toNat_digitChar_of_lt_ten (by omega)]
      omega
    rw [toList_generateMeetingNumber hdraw, hlist, hrest, hfirst]

/-- The draws and the meeting numbers correspond. -/
theorem generateMeetingNumber_bijOn :
    Set.BijOn generateMeetingNumber meetingNumberDraws {number | IsMeetingNumber number} :=
  ⟨fun _ h => isMeetingNumber_generate h, generateMeetingNumber_injOn, fun _ h => exists_draw h⟩

theorem meetingNumberDraws_nonempty : meetingNumberDraws.Nonempty :=
  ⟨(0, 0), mem_meetingNumberDraws.mpr ⟨by omega, by omega⟩⟩

/-- The number of two independent uniform draws. -/
noncomputable def randomMeetingNumber : PMF String :=
  (PMF.uniformOfFinset meetingNumberDraws meetingNumberDraws_nonempty).map generateMeetingNumber

theorem card_meetingNumberDraws : meetingNumberDraws.card = 9 * 10 ^ 10 := by
  rw [meetingNumberDraws, Finset.card_product, Finset.card_range, Finset.card_range]
  rfl

/-- A number has the weight of its one draw. -/
theorem randomMeetingNumber_apply {number : String} (h : IsMeetingNumber number) :
    randomMeetingNumber number = (9 * 10 ^ 10)⁻¹ := by
  obtain ⟨draw, hdraw, rfl⟩ := exists_draw h
  rw [randomMeetingNumber, PMF.map_apply, tsum_eq_single draw]
  · rw [if_pos rfl, PMF.uniformOfFinset_apply_of_mem _ hdraw, card_meetingNumberDraws]
    norm_num
  · intro other hne
    by_cases hother : other ∈ meetingNumberDraws
    · exact if_neg fun heq => hne (generateMeetingNumber_injOn hother hdraw heq.symm)
    · rw [PMF.uniformOfFinset_apply_of_notMem _ hother, ite_self]

theorem assertedMeetingNumber_eq {draw : ℕ × ℕ} (h : draw ∈ meetingNumberDraws) :
    assertedMeetingNumber draw = some (generateMeetingNumber draw) :=
  if_pos ⟨(isMeetingNumber_generate h).length, (isMeetingNumber_generate h).head⟩

/-- **The number space.**  The assertion holds of every draw; the draws correspond to
the eleven-digit numbers without a leading zero, so a uniform draw gives a uniform
number; and the display form of such a number is read back as the number. -/
theorem meeting_number_space :
    (∀ draw ∈ meetingNumberDraws, assertedMeetingNumber draw = some (generateMeetingNumber draw)) ∧
    Set.BijOn generateMeetingNumber meetingNumberDraws {number | IsMeetingNumber number} ∧
    (∀ number, IsMeetingNumber number → randomMeetingNumber number = (9 * 10 ^ 10)⁻¹) ∧
    ∀ number, IsMeetingNumber number →
      normalizeMeetingNumber (formatMeetingNumber number) = number :=
  ⟨fun _ h => assertedMeetingNumber_eq h, generateMeetingNumber_bijOn,
    fun _ h => randomMeetingNumber_apply h,
    fun _ h => normalize_formatMeetingNumber fun c hc => PyStr.isDigit_of_isDigit (h.digits c hc)⟩

end ZoomClone
