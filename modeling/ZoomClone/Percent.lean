/-
Percent encoding, and queries of the form-urlencoded kind.

A character that may not stand in a component is written as the bytes of its UTF-8, each of
them as `%` with two hexadecimal digits.  A query writes a blank as `+`.  Which characters
stand for themselves is a parameter.

* `decode_encode` — a text is read back from its encoding;
* `decodeForm_encodeForm` — and so is one of a query;
* `parseQuery_serialize` — a query as a whole is read back in its order.
-/
import Mathlib.Data.List.Basic

namespace Percent

/-! ### Bytes -/

def hexDigits : List Char := "0123456789ABCDEF".toList

def hexDigit (n : ℕ) : Char := hexDigits.getD n '0'

def hexValue (c : Char) : Option ℕ :=
  if '0' ≤ c ∧ c ≤ '9' then some (c.toNat - 48)
  else if 'A' ≤ c ∧ c ≤ 'F' then some (c.toNat - 55)
  else if 'a' ≤ c ∧ c ≤ 'f' then some (c.toNat - 87)
  else none

def encodeByte (b : UInt8) : List Char := ['%', hexDigit (b.toNat / 16), hexDigit (b.toNat % 16)]

/-- The bytes of a text; a `%` without two digits behind it stands for itself. -/
def decodeBytes : List Char → List UInt8
  | [] => []
  | '%' :: a :: b :: rest =>
    match hexValue a, hexValue b with
    | some high, some low => UInt8.ofNat (16 * high + low) :: decodeBytes rest
    | _, _ => String.utf8EncodeChar '%' ++ decodeBytes (a :: b :: rest)
  | c :: rest => String.utf8EncodeChar c ++ decodeBytes rest

theorem hexDigit_mem {n : ℕ} (h : n < 16) : hexDigit n ∈ hexDigits := by
  have hall : ∀ n < 16, hexDigit n ∈ hexDigits := by decide
  exact hall n h

theorem hexValue_hexDigit {n : ℕ} (h : n < 16) : hexValue (hexDigit n) = some n := by
  have hall : ∀ n < 16, hexValue (hexDigit n) = some n := by decide
  exact hall n h

theorem decodeBytes_encodeByte (b : UInt8) (rest : List Char) :
    decodeBytes (encodeByte b ++ rest) = b :: decodeBytes rest := by
  have hb : b.toNat < 256 := b.toNat_lt
  have hvalue : 16 * (b.toNat / 16) + b.toNat % 16 = b.toNat := Nat.div_add_mod b.toNat 16
  show decodeBytes ('%' :: hexDigit (b.toNat / 16) :: hexDigit (b.toNat % 16) :: rest) = _
  rw [decodeBytes, hexValue_hexDigit (by omega), hexValue_hexDigit (by omega)]
  simp only [hvalue, UInt8.ofNat_toNat]

theorem decodeBytes_flatMap (bytes : List UInt8) (rest : List Char) :
    decodeBytes (bytes.flatMap encodeByte ++ rest) = bytes ++ decodeBytes rest := by
  induction bytes with
  | nil => rfl
  | cons b bytes ih =>
    rw [List.flatMap_cons, List.append_assoc, decodeBytes_encodeByte, ih, List.cons_append]

/-- A character other than `%` stands for its bytes. -/
theorem decodeBytes_cons {c : Char} (h : c ≠ '%') (rest : List Char) :
    decodeBytes (c :: rest) = String.utf8EncodeChar c ++ decodeBytes rest := by
  rw [decodeBytes]
  intro a b rest' hc
  exact absurd hc h

/-! ### Components -/

section Components

variable (keep : Char → Bool)

/-- A character that is kept, or its bytes. -/
def encodeChar (c : Char) : List Char :=
  if keep c then [c] else (String.utf8EncodeChar c).flatMap encodeByte

def encode (text : List Char) : List Char := text.flatMap (encodeChar keep)

/-- `none` if the bytes are no UTF-8. -/
def decode (text : List Char) : Option (List Char) :=
  (decodeBytes text).toByteArray.utf8Decode?.map Array.toList

/-- A blank is a `+`. -/
def encodeForm (text : List Char) : List Char :=
  text.flatMap fun c => if c = ' ' then ['+'] else encodeChar keep c

def blankOfPlus (c : Char) : Char := if c = '+' then ' ' else c

def decodeForm (text : List Char) : Option (List Char) := decode (text.map blankOfPlus)

variable {keep}

theorem decodeBytes_encode (hpercent : keep '%' = false) (text rest : List Char) :
    decodeBytes (encode keep text ++ rest) = text.flatMap String.utf8EncodeChar ++
      decodeBytes rest := by
  induction text with
  | nil => rfl
  | cons c text ih =>
    rw [encode, List.flatMap_cons, List.append_assoc, List.flatMap_cons,
      List.append_assoc, ← ih, encodeChar]
    split
    · next hkeep =>
      have hc : c ≠ '%' := by
        rintro rfl
        rw [hpercent] at hkeep
        exact absurd hkeep (by decide)
      exact decodeBytes_cons hc _
    · exact decodeBytes_flatMap _ _

/-- A text of kept characters stands for itself. -/
theorem encode_eq_self {text : List Char} (h : ∀ c ∈ text, keep c) : encode keep text = text := by
  induction text with
  | nil => rfl
  | cons c text ih =>
    obtain ⟨hc, htext⟩ := List.forall_mem_cons.mp h
    rw [encode, List.flatMap_cons, encodeChar, if_pos hc, ← encode, ih htext]
    rfl

/-- A component behind a text without `%` is read back. -/
theorem decode_append_encode (hpercent : keep '%' = false) {plain : List Char}
    (hplain : '%' ∉ plain) (text : List Char) :
    decode (plain ++ encode keep text) = some (plain ++ text) := by
  have hself : encode (fun c => decide (c ≠ '%')) plain = plain := by
    refine encode_eq_self fun c hc => decide_eq_true ?_
    rintro rfl
    exact hplain hc
  have hfront : decodeBytes (encode (fun c => decide (c ≠ '%')) plain ++ encode keep text) =
      plain.flatMap String.utf8EncodeChar ++ decodeBytes (encode keep text) :=
        decodeBytes_encode (by decide) plain _
  have hback := decodeBytes_encode hpercent text []
  rw [List.append_nil, decodeBytes, List.append_nil] at hback
  rw [hself, hback, ← List.flatMap_append] at hfront
  have hutf8 : ((plain ++ text).flatMap String.utf8EncodeChar).toByteArray.utf8Decode? =
      some (plain ++ text).toArray :=
    List.utf8Decode?_utf8Encode
  rw [decode, hfront, hutf8]
  rfl

/-- **A component is read back.** -/
theorem decode_encode (hpercent : keep '%' = false) (text : List Char) :
    decode (encode keep text) = some text :=
  decode_append_encode hpercent List.not_mem_nil text

/-- What an encoding is made of. -/
theorem mem_encodeChar {c d : Char} (h : d ∈ encodeChar keep c) :
    (d = c ∧ keep c) ∨ d = '%' ∨ d ∈ hexDigits := by
  rw [encodeChar] at h
  split at h
  · next hkeep => exact .inl ⟨List.mem_singleton.mp h, hkeep⟩
  · obtain ⟨b, -, hd⟩ := List.mem_flatMap.mp h
    have hb : b.toNat < 256 := b.toNat_lt
    simp only [encodeByte, List.mem_cons, List.not_mem_nil, or_false] at hd
    rcases hd with rfl | rfl | rfl
    · exact .inr (.inl rfl)
    · exact .inr (.inr (hexDigit_mem (by omega)))
    · exact .inr (.inr (hexDigit_mem (by omega)))

theorem not_mem_encodeChar {c d : Char} (hkeep : keep d = false) (hpercent : d ≠ '%')
    (hdigit : d ∉ hexDigits) :
    d ∉ encodeChar keep c := by
  intro h
  rcases mem_encodeChar h with ⟨rfl, hkept⟩ | rfl | hmem
  · rw [hkeep] at hkept
    cases hkept
  · exact hpercent rfl
  · exact hdigit hmem

theorem not_mem_encode {d : Char} (hkeep : keep d = false)
    (hpercent : d ≠ '%') (hdigit : d ∉ hexDigits)
    (text : List Char) : d ∉ encode keep text := by
  intro h
  obtain ⟨c, -, hc⟩ := List.mem_flatMap.mp h
  exact not_mem_encodeChar hkeep hpercent hdigit hc

/-- Without a `+` there is no blank to write out. -/
theorem map_blankOfPlus {text : List Char} (h : '+' ∉ text) : text.map blankOfPlus = text := by
  have hsame : ∀ c ∈ text, blankOfPlus c = id c := by
    intro c hc
    refine if_neg ?_
    rintro rfl
    exact h hc
  rw [List.map_congr_left hsame, List.map_id]

/-- A component is also a text of a query. -/
theorem decodeForm_encode (hpercent : keep '%' = false) (hplus : keep '+' = false)
    (text : List Char) :
    decodeForm (encode keep text) = some text := by
  rw [decodeForm, map_blankOfPlus (not_mem_encode hplus (by decide) (by decide) text),
    decode_encode hpercent]

/-- With its blanks written out, the text of a query is a component in which blanks are kept. -/
theorem map_blankOfPlus_encodeForm (hplus : keep '+' = false) (text : List Char) :
    (encodeForm keep text).map blankOfPlus = encode (fun c => keep c || c = ' ') text := by
  induction text with
  | nil => rfl
  | cons c text ih =>
    rw [encodeForm, List.flatMap_cons, List.map_append, ← encodeForm, ih, encode,
      encode, List.flatMap_cons]
    congr 1
    by_cases hc : c = ' '
    · rw [if_pos hc, hc]
      simp [encodeChar, blankOfPlus]
    · have hsame : encodeChar (fun c => keep c || c = ' ') c = encodeChar keep c := by
        simp [encodeChar, hc]
      rw [if_neg hc, hsame]
      exact map_blankOfPlus (not_mem_encodeChar hplus (by decide) (by decide))

/-- **A text of a query is read back.** -/
theorem decodeForm_encodeForm (hpercent : keep '%' = false) (hplus : keep '+' = false)
    (text : List Char) :
    decodeForm (encodeForm keep text) = some text := by
  rw [decodeForm, map_blankOfPlus_encodeForm hplus]
  exact decode_encode (by simp [hpercent]) text

/-- No separator of a query is among the characters of its texts. -/
theorem not_mem_encodeForm {d : Char} (hkeep : keep d = false)
    (hpercent : d ≠ '%') (hdigit : d ∉ hexDigits)
    (hplus : d ≠ '+') (text : List Char) : d ∉ encodeForm keep text := by
  intro h
  obtain ⟨c, -, hc⟩ := List.mem_flatMap.mp h
  split at hc
  · exact hplus (List.mem_singleton.mp hc)
  · exact not_mem_encodeChar hkeep hpercent hdigit hc

/-- A text of kept characters stands for itself in a query too. -/
theorem encodeForm_eq_self {text : List Char} (h : ∀ c ∈ text, keep c) (hblank : keep ' ' = false) :
    encodeForm keep text = text := by
  induction text with
  | nil => rfl
  | cons c text ih =>
    obtain ⟨hc, htext⟩ := List.forall_mem_cons.mp h
    have hne : c ≠ ' ' := by
      rintro rfl
      rw [hblank] at hc
      cases hc
    rw [encodeForm, List.flatMap_cons, if_neg hne, encodeChar, if_pos hc, ← encodeForm, ih htext]
    rfl

end Components

/-! ### Queries -/

section Queries

variable (keep : Char → Bool)

def writePair (pair : List Char × List Char) : List Char :=
  encodeForm keep pair.1 ++ '=' :: encodeForm keep pair.2

def serialize (pairs : List (List Char × List Char)) : List Char :=
  ['&'].intercalate (pairs.map (writePair keep))

/-- A name, and a value behind the first `=`. -/
def readPair (piece : List Char) : Option (List Char × List Char) := do
  let name ← decodeForm (piece.takeWhile (· ≠ '='))
  let value ← decodeForm ((piece.dropWhile (· ≠ '=')).drop 1)
  return (name, value)

/-- The pairs of a query; `none` if the bytes of one are no UTF-8. -/
def parseQuery (query : List Char) : Option (List (List Char × List Char)) :=
  ((query.splitOn '&').filter (· ≠ [])).mapM readPair

/-- The first value of a name. -/
def get (pairs : List (List Char × List Char)) (name : List Char) : Option (List Char) :=
  (pairs.find? (·.1 = name)).map Prod.snd

theorem get_singleton (name value : List Char) : get [(name, value)] name = some value := by
  rw [get, List.find?_cons_of_pos (by simp)]
  rfl

variable {keep}

/-- Nothing that means something in a query is kept. -/
structure Reserves (keep : Char → Bool) : Prop where
  percent : keep '%' = false
  plus : keep '+' = false
  ampersand : keep '&' = false
  equals : keep '=' = false

/-- A text is cut at the first place of a separator. -/
theorem cut_at {separator : Char} {before : List Char} (behind : List Char)
    (h : separator ∉ before) :
    (before ++ separator :: behind).takeWhile (· ≠ separator) = before ∧
      ((before ++ separator :: behind).dropWhile (· ≠ separator)).drop 1 = behind := by
  have hbefore : ∀ c ∈ before, decide (c ≠ separator) = true :=
    fun c hc => decide_eq_true fun heq => h (heq ▸ hc)
  rw [List.takeWhile_append_of_pos hbefore, List.dropWhile_append_of_pos hbefore,
    List.takeWhile_cons_of_neg (by simp),
    List.dropWhile_cons_of_neg (by simp), List.append_nil]
  exact ⟨rfl, rfl⟩

theorem readPair_eq {name value : List Char} {pair : List Char × List Char} (hname : '=' ∉ name)
    (h : decodeForm name = some pair.1) (h' : decodeForm value = some pair.2) :
    readPair (name ++ '=' :: value) = some pair := by
  obtain ⟨hbefore, hbehind⟩ := cut_at value hname
  rw [readPair, hbefore, hbehind, h, h']
  rfl

theorem readPair_writePair (h : Reserves keep) (pair : List Char × List Char) :
    readPair (writePair keep pair) = some pair :=
  readPair_eq (not_mem_encodeForm h.equals (by decide) (by decide) (by decide) pair.1)
    (decodeForm_encodeForm h.percent h.plus pair.1) (decodeForm_encodeForm h.percent h.plus pair.2)

/-- A query of one pair. -/
theorem parseQuery_pair {name value : List Char} {pair : List Char × List Char} (hname : '=' ∉ name)
    (hpiece : '&' ∉ name ++ '=' :: value) (h : decodeForm name = some pair.1)
    (h' : decodeForm value = some pair.2) :
    parseQuery (name ++ '=' :: value) = some [pair] := by
  rw [parseQuery, List.splitOn_eq_singleton hpiece, List.filter_cons_of_pos (by simp),
    List.filter_nil,
    List.mapM_cons, readPair_eq hname h h']
  rfl

/-- The pieces between the separators are those that were written. -/
theorem splitOn_serialize (h : Reserves keep) (pairs : List (List Char × List Char)) :
    ((serialize keep pairs).splitOn '&').filter (· ≠ []) = pairs.map (writePair keep) := by
  cases pairs with
  | nil => rfl
  | cons pair pairs =>
    have hseparate : ∀ piece ∈ (pair :: pairs).map (writePair keep), '&' ∉ piece := by
      intro piece hpiece
      obtain ⟨p, -, rfl⟩ := List.mem_map.mp hpiece
      have habsent := not_mem_encodeForm h.ampersand (by decide) (by decide) (by decide)
      rw [writePair, List.mem_append, List.mem_cons]
      rintro (hmem | heq | hmem)
      · exact habsent p.1 hmem
      · exact absurd heq (by decide)
      · exact habsent p.2 hmem
    rw [serialize, List.splitOn_intercalate '&' hseparate (by simp), List.filter_eq_self]
    intro piece hpiece
    obtain ⟨p, -, rfl⟩ := List.mem_map.mp hpiece
    simp [writePair]

/-- **A query is read back**, pair by pair and in its order. -/
theorem parseQuery_serialize (h : Reserves keep) (pairs : List (List Char × List Char)) :
    parseQuery (serialize keep pairs) = some pairs := by
  rw [parseQuery, splitOn_serialize h]
  induction pairs with
  | nil => rfl
  | cons pair pairs ih =>
    rw [List.map_cons, List.mapM_cons, readPair_writePair h, ih]
    rfl

end Queries

end Percent
