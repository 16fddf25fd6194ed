/-
The string functions of the two languages the program is written in.

Python text (`str.strip`, `str.isdigit`, slicing) is what the API computes with,
JavaScript text (`String.prototype.trim`, `\D`) what the web client computes
with.  The two disagree about what counts as white space and as a digit, so
each language has its own definitions; `isDigit` and `isSpace` are the tables
of the Unicode character database that CPython ships.
-/
import Mathlib.Algebra.GroupWithZero.Nat
import Mathlib.Data.List.Basic
import ZoomClone.Trim

/-- `c` lies in one of the closed ranges of code points. -/
def inRanges (rs : List (ℕ × ℕ)) (c : Char) : Bool :=
  rs.any fun r => decide (r.1 ≤ c.toNat) && decide (c.toNat ≤ r.2)

/-- Drop the characters satisfying `p` at both ends. -/
def stripWhile (p : Char → Bool) (s : String) : String :=
  String.ofList ((s.toList.dropWhile p).reverse.dropWhile p).reverse

theorem toList_stripWhile (p : Char → Bool) (s : String) :
    (stripWhile p s).toList = Trim.trim p s.toList := by
  rw [stripWhile, String.toList_ofList]
  rfl

/-- Stripping twice is stripping once. -/
theorem stripWhile_stripWhile (p : Char → Bool) (s : String) :
    stripWhile p (stripWhile p s) = stripWhile p s := by
  rw [← String.toList_inj, toList_stripWhile, toList_stripWhile, Trim.trim_trim]

/-- A text that was stripped by one predicate, and then by another. -/
theorem stripWhile_stripWhile_eq_self_iff {p q : Char → Bool} {s : String}
    (h : stripWhile p s = s) :
    stripWhile p (stripWhile q s) = s ↔ stripWhile q s = s := by
  rw [← String.toList_inj, toList_stripWhile] at h
  rw [← String.toList_inj, ← String.toList_inj, toList_stripWhile, toList_stripWhile]
  exact Trim.trim_trim_eq_self_iff h

namespace PyStr

/-- `str.isspace` of one character. -/
def isSpace : Char → Bool := inRanges
  [(0x9, 0xd), (0x1c, 0x20), (0x85, 0x85), (0xa0, 0xa0), (0x1680, 0x1680), (0x2000, 0x200a),
   (0x2028, 0x2029), (0x202f, 0x202f), (0x205f, 0x205f), (0x3000, 0x3000)]

/-- `str.isdigit` of one character: decimal digits of every script, and the
digit-like superscripts and enclosed numerals. -/
def isDigit : Char → Bool := inRanges
  [(0x30, 0x39), (0xb2, 0xb3), (0xb9, 0xb9), (0x660, 0x669), (0x6f0, 0x6f9), (0x7c0, 0x7c9),
   (0x966, 0x96f), (0x9e6, 0x9ef), (0xa66, 0xa6f), (0xae6, 0xaef), (0xb66, 0xb6f),
   (0xbe6, 0xbef), (0xc66, 0xc6f), (0xce6, 0xcef), (0xd66, 0xd6f), (0xde6, 0xdef),
   (0xe50, 0xe59), (0xed0, 0xed9), (0xf20, 0xf29), (0x1040, 0x1049), (0x1090, 0x1099),
   (0x1369, 0x1371), (0x17e0, 0x17e9), (0x1810, 0x1819), (0x1946, 0x194f), (0x19d0, 0x19da),
   (0x1a80, 0x1a89), (0x1a90, 0x1a99), (0x1b50, 0x1b59), (0x1bb0, 0x1bb9), (0x1c40, 0x1c49),
   (0x1c50, 0x1c59), (0x2070, 0x2070), (0x2074, 0x2079), (0x2080, 0x2089), (0x2460, 0x2468),
   (0x2474, 0x247c), (0x2488, 0x2490), (0x24ea, 0x24ea), (0x24f5, 0x24fd), (0x24ff, 0x24ff),
   (0x2776, 0x277e), (0x2780, 0x2788), (0x278a, 0x2792), (0xa620, 0xa629), (0xa8d0, 0xa8d9),
   (0xa900, 0xa909), (0xa9d0, 0xa9d9), (0xa9f0, 0xa9f9), (0xaa50, 0xaa59), (0xabf0, 0xabf9),
   (0xff10, 0xff19), (0x104a0, 0x104a9), (0x10a40, 0x10a43), (0x10d30, 0x10d39),
   (0x10e60, 0x10e68), (0x11052, 0x1105a), (0x11066, 0x1106f), (0x110f0, 0x110f9),
   (0x11136, 0x1113f), (0x111d0, 0x111d9), (0x112f0, 0x112f9), (0x11450, 0x11459),
   (0x114d0, 0x114d9), (0x11650, 0x11659), (0x116c0, 0x116c9), (0x11730, 0x11739),
   (0x118e0, 0x118e9), (0x11950, 0x11959), (0x11c50, 0x11c59), (0x11d50, 0x11d59),
   (0x11da0, 0x11da9), (0x11f50, 0x11f59), (0x16a60, 0x16a69), (0x16ac0, 0x16ac9),
   (0x16b50, 0x16b59), (0x1d7ce, 0x1d7ff), (0x1e140, 0x1e149), (0x1e2f0, 0x1e2f9),
   (0x1e4f0, 0x1e4f9), (0x1e950, 0x1e959), (0x1f100, 0x1f10a), (0x1fbf0, 0x1fbf9)]

/-- The characters that `repr` writes by their numbers: controls and format characters, white
space other than the space, and private ones.  Numbers that stand for no character yet are not
in the table. -/
def isEscaped : Char → Bool := inRanges
  [(0x0, 0x1f), (0x7f, 0xa0), (0xad, 0xad), (0x600, 0x605), (0x61c, 0x61c), (0x6dd, 0x6dd),
   (0x70f, 0x70f), (0x890, 0x891), (0x8e2, 0x8e2), (0x1680, 0x1680), (0x180e, 0x180e),
   (0x2000, 0x200f), (0x2028, 0x202f), (0x205f, 0x2064), (0x2066, 0x206f), (0x3000, 0x3000),
   (0xe000, 0xf8ff), (0xfeff, 0xfeff), (0xfff9, 0xfffb), (0x110bd, 0x110bd), (0x110cd, 0x110cd),
   (0x13430, 0x1343f), (0x1bca0, 0x1bca3), (0x1d173, 0x1d17a), (0xe0001, 0xe0001),
   (0xe0020, 0xe007f), (0xf0000, 0xffffd), (0x100000, 0x10fffd)]

/-- One character between the quotes of a `repr`. -/
def reprChar (quote c : Char) : List Char :=
  let hex (width : ℕ) := (Nat.toDigits 16 c.toNat).leftpad width '0'
  if c = quote ∨ c = '\\' then ['\\', c]
  else if c = '\t' then ['\\', 't']
  else if c = '\n' then ['\\', 'n']
  else if c = '\r' then ['\\', 'r']
  else if ¬ isEscaped c then [c]
  else if c.toNat ≤ 0xff then '\\' :: 'x' :: hex 2
  else if c.toNat ≤ 0xffff then '\\' :: 'u' :: hex 4
  else '\\' :: 'U' :: hex 8

/-- `repr(s)`: in single quotes, unless the text holds those and no double ones. -/
def repr (s : String) : String :=
  let quote := if '\x27' ∈ s.toList ∧ '"' ∉ s.toList then '"' else '\x27'
  String.ofList (quote :: s.toList.flatMap (reprChar quote) ++ [quote])

/-- `s.strip()`. -/
def strip (s : String) : String := stripWhile isSpace s

/-- `" ".join(s.split())`. -/
def joinWords (s : String) : String :=
  String.intercalate " " (((s.toList.splitOnP isSpace).filter (· ≠ [])).map String.ofList)

/-- The part of `s` before the first `sep`. -/
def before (sep : Char) (s : String) : String := String.ofList (s.toList.takeWhile (· ≠ sep))

/-- `s[i:j]`. -/
def slice (s : String) (i j : ℕ) : String := String.ofList ((s.toList.take j).drop i)

/-- `s[:n]`. -/
def take (s : String) (n : ℕ) : String := slice s 0 n

/-- `f"{n:0{width}d}"`. -/
def zeroPadded (width n : ℕ) : String :=
  String.ofList ((toString n).toList.leftpad width '0')

/-- Every character is ASCII. -/
def isAscii (s : String) : Bool := s.toList.all fun c => c.toNat < 128

/-- `"".join(ch for ch in s if ch.isdigit())`. -/
def digits (s : String) : String := String.ofList (s.toList.filter isDigit)

theorem isDigit_of_isDigit {c : Char} (h : c.isDigit) : isDigit c := by
  have hrange : 0x30 ≤ c.toNat ∧ c.toNat ≤ 0x39 := by
    simp only [Char.isDigit, Bool.and_eq_true, decide_eq_true_eq] at h
    exact h
  rw [isDigit, inRanges, List.any_cons]
  simp [hrange]

theorem isDigit_of_mem_toString {n : ℕ} {c : Char} (h : c ∈ (toString n).toList) : isDigit c := by
  rw [Nat.toString_eq_repr, Nat.toList_repr] at h
  exact isDigit_of_isDigit (Nat.isDigit_of_mem_toDigits (by decide) (by decide) h)

theorem isDigit_of_mem_zeroPadded {width n : ℕ} {c : Char} (h : c ∈ (zeroPadded width n).toList) :
    isDigit c := by
  rw [zeroPadded, String.toList_ofList, List.leftpad, List.mem_append] at h
  rcases h with h | h
  · rw [List.eq_of_mem_replicate h]
    decide
  · exact isDigit_of_mem_toString h

/-- Text made of digits is its own digits. -/
theorem digits_eq_self {s : String} (h : ∀ c ∈ s.toList, isDigit c) : digits s = s := by
  rw [digits, List.filter_eq_self.mpr h, String.ofList_toList]

theorem toList_strip (s : String) : (strip s).toList = Trim.trim isSpace s.toList :=
  toList_stripWhile isSpace s

@[simp] theorem strip_strip (s : String) : strip (strip s) = strip s :=
  stripWhile_stripWhile isSpace s

theorem toList_take (s : String) (n : ℕ) : (take s n).toList = s.toList.take n := by
  rw [take, slice, String.toList_ofList, List.drop_zero]

end PyStr

namespace JsStr

/-- The characters `String.prototype.trim` removes. -/
def isSpace : Char → Bool := inRanges
  [(0x9, 0xd), (0x20, 0x20), (0xa0, 0xa0), (0x1680, 0x1680), (0x2000, 0x200a),
   (0x2028, 0x2029), (0x202f, 0x202f), (0x205f, 0x205f), (0x3000, 0x3000), (0xfeff, 0xfeff)]

/-- `s.trim()`. -/
def trim (s : String) : String := stripWhile isSpace s

@[simp] theorem trim_trim (s : String) : trim (trim s) = trim s := stripWhile_stripWhile isSpace s

/-- `s.length`: UTF-16 code units. -/
def length (s : String) : ℕ := (s.toList.map fun c => if c.toNat < 0x10000 then 1 else 2).sum

/-- A text has no more characters than code units. -/
theorem length_le (s : String) : s.length ≤ length s := by
  rw [← String.length_toList, length]
  induction s.toList with
  | nil => exact Nat.zero_le _
  | cons c l ih =>
    rw [List.length_cons, List.map_cons, List.sum_cons]
    split <;> omega

/-- `s.replace(/\D/g, "")`. -/
def digits (s : String) : String := String.ofList (s.toList.filter (inRanges [(0x30, 0x39)]))

end JsStr
