/-
Python text as a sequence of code points.

A Python `str` may hold half a surrogate pair by itself; a text of a database, of a frame that
was sent or of Lean may not, for UTF-8 has no encoding of it.

* `encode_eq_some_iff` — the texts that encode are the ones that Lean has;
* `encodes_iff` — a text encodes exactly if it holds no surrogate;
* `strip_ofString`, `take_ofString` — on such a text stripping and cutting are what they are in
  `PyStr`.
-/
import ZoomClone.Text

/-- A character of a Python text. -/
abbrev CodePoint := Fin 0x110000

namespace CodePoint

/-- Half a surrogate pair. -/
def IsSurrogate (x : CodePoint) : Prop := 0xd800 ≤ x.val ∧ x.val ≤ 0xdfff

instance (x : CodePoint) : Decidable x.IsSurrogate := inferInstanceAs (Decidable (_ ∧ _))

/-- The character that UTF-8 encodes; `none` for a surrogate. -/
def toChar? (x : CodePoint) : Option Char :=
  if h : x.val.isValidChar then some (Char.ofNatAux x.val h) else none

def ofChar (c : Char) : CodePoint := ⟨c.toNat, by
  rcases c.valid with h | h
  · exact Nat.lt_trans h (by decide)
  · exact h.2⟩

/-- `str.isspace` of one character; no surrogate is white space. -/
def isSpace (x : CodePoint) : Bool := x.toChar?.any PyStr.isSpace

theorem toChar?_eq_some_iff {x : CodePoint} {c : Char} : x.toChar? = some c ↔ x = ofChar c := by
  constructor
  · intro h
    by_cases hvalid : x.val.isValidChar
    · rw [toChar?, dif_pos hvalid] at h
      obtain rfl := Option.some.inj h
      exact Fin.ext rfl
    · rw [toChar?, dif_neg hvalid] at h
      cases h
  · rintro rfl
    have hvalid : (ofChar c).val.isValidChar := c.valid
    rw [toChar?, dif_pos hvalid]
    exact congrArg some (Char.ext rfl)

@[simp] theorem toChar?_ofChar (c : Char) : (ofChar c).toChar? = some c :=
  toChar?_eq_some_iff.mpr rfl

@[simp] theorem isSpace_ofChar (c : Char) : (ofChar c).isSpace = PyStr.isSpace c := by
  rw [isSpace, toChar?_ofChar]
  rfl

theorem exists_ofChar_iff {x : CodePoint} : (∃ c, x = ofChar c) ↔ ¬ x.IsSurrogate := by
  constructor
  · rintro ⟨c, rfl⟩ ⟨hlow, hhigh⟩
    have hlow' : 0xd800 ≤ c.toNat := hlow
    have hhigh' : c.toNat ≤ 0xdfff := hhigh
    rcases c.valid with h | h
    · exact absurd h (Nat.not_lt.mpr hlow')
    · exact absurd h.1 (Nat.not_lt.mpr hhigh')
  · intro hx
    have hvalid : x.val.isValidChar := by
      rw [IsSurrogate] at hx
      have hbound := x.isLt
      rw [Nat.isValidChar]
      omega
    exact ⟨Char.ofNatAux x.val hvalid, Fin.ext rfl⟩

end CodePoint

/-- A Python `str`. -/
abbrev PyText := List CodePoint

namespace PyText

def ofString (s : String) : PyText := s.toList.map CodePoint.ofChar

/-- `text.encode("utf-8")`, as the text that the bytes decode to; `none` if it raises. -/
def encode (text : PyText) : Option String := (text.mapM CodePoint.toChar?).map String.ofList

/-- `text.strip()`. -/
def strip (text : PyText) : PyText := Trim.trim CodePoint.isSpace text

variable {text : PyText} {s : String}

theorem mapM_toChar?_eq_some_iff {l : List Char} :
    text.mapM CodePoint.toChar? = some l ↔ text = l.map CodePoint.ofChar := by
  induction text generalizing l with
  | nil =>
    cases l with
    | nil => simp
    | cons c l => simp
  | cons x text ih =>
    simp only [List.mapM_cons, bind, Option.bind_eq_some_iff, pure,
      CodePoint.toChar?_eq_some_iff, ih]
    constructor
    · rintro ⟨c, rfl, l, rfl, ⟨⟩⟩
      rfl
    · intro h
      cases l with
      | nil => cases h
      | cons c l =>
        obtain ⟨rfl, rfl⟩ := List.cons.inj h
        exact ⟨c, rfl, l, rfl, rfl⟩

/-- **The texts that encode are the ones that Lean has.** -/
theorem encode_eq_some_iff : text.encode = some s ↔ text = ofString s := by
  rw [encode, Option.map_eq_some_iff]
  constructor
  · rintro ⟨l, hl, rfl⟩
    rw [ofString, String.toList_ofList]
    exact mapM_toChar?_eq_some_iff.mp hl
  · intro h
    exact ⟨s.toList, mapM_toChar?_eq_some_iff.mpr h, String.ofList_toList⟩

@[simp] theorem encode_ofString (s : String) : (ofString s).encode = some s :=
  encode_eq_some_iff.mpr rfl

theorem ofString_injective : Function.Injective ofString := by
  intro s s' h
  have hencode := encode_ofString s
  rw [h, encode_ofString] at hencode
  exact (Option.some.inj hencode).symm

/-- **A text encodes exactly if it holds no surrogate.** -/
theorem encodes_iff : (∃ s, text.encode = some s) ↔ ∀ x ∈ text, ¬ x.IsSurrogate := by
  simp only [encode_eq_some_iff, ← CodePoint.exists_ofChar_iff]
  constructor
  · rintro ⟨s, rfl⟩ x hx
    obtain ⟨c, -, rfl⟩ := List.mem_map.mp hx
    exact ⟨c, rfl⟩
  · intro h
    induction text with
    | nil => exact ⟨"", rfl⟩
    | cons x text ih =>
      obtain ⟨c, rfl⟩ := h x List.mem_cons_self
      obtain ⟨s, rfl⟩ := ih fun y hy => h y (List.mem_cons_of_mem _ hy)
      exact ⟨String.ofList (c :: s.toList),
        by rw [ofString, ofString, String.toList_ofList, List.map_cons]⟩

theorem trim_map_ofChar (l : List Char) :
    Trim.trim CodePoint.isSpace (l.map CodePoint.ofChar) =
      (Trim.trim PyStr.isSpace l).map CodePoint.ofChar := by
  have hspace : CodePoint.isSpace ∘ CodePoint.ofChar = PyStr.isSpace :=
    funext CodePoint.isSpace_ofChar
  rw [Trim.trim, Trim.trim, List.rdropWhile, List.rdropWhile, List.dropWhile_map, hspace,
    ← List.map_reverse, List.dropWhile_map, hspace, ← List.map_reverse]

theorem strip_ofString (s : String) : strip (ofString s) = ofString (PyStr.strip s) := by
  rw [strip, ofString, ofString, trim_map_ofChar, PyStr.toList_strip]

theorem take_ofString (s : String) (n : ℕ) : (ofString s).take n = ofString (PyStr.take s n) := by
  rw [ofString, ofString, PyStr.toList_take, List.map_take]

@[simp] theorem ofString_eq_nil : ofString s = [] ↔ s = "" := by
  rw [ofString, List.map_eq_nil_iff, String.toList_eq_nil_iff]

@[simp] theorem length_ofString (s : String) : (ofString s).length = s.length := by
  rw [ofString, List.length_map, String.length_toList]

end PyText
