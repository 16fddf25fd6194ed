/-
JSON text, written and read in full.

`write` writes a value in a `Style`: the blanks after a comma and after a colon, and how a
character of a string is escaped.  `readText` reads a text back.  Unlike `parse` it takes
the two halves of a surrogate pair for one character, and it is told which words are
numbers.

* `scan_write` — a written value is scanned as its tokens;
* `read_tokens` — the tokens of a value are read as the value;
* `readText_write` — so a value is read back as it was written if its numbers are among
  the words that the reader knows, and not at all otherwise.
-/
import ZoomClone.JsonText

namespace JsonText

/-! ### Characters to tokens -/

/-- The text of a string so far; a high half at its end waits for its low half. -/
structure Pending where
  text : List Char := []
  high : Option ℕ := none
  deriving DecidableEq

namespace Pending

/-- The text, with U+FFFD for a half that stayed alone. -/
def settle (p : Pending) : List Char := p.text ++ if p.high.isSome then ['\ufffd'] else []

def add (p : Pending) (c : Char) : Pending := { text := p.settle ++ [c] }

def isHigh (code : ℕ) : Bool := 0xd800 ≤ code && code ≤ 0xdbff

def isLow (code : ℕ) : Bool := 0xdc00 ≤ code && code ≤ 0xdfff

/-- The character of a surrogate pair. -/
def ofPair (high low : ℕ) : Char := Char.ofNat (0x10000 + (high - 0xd800) * 0x400 + (low - 0xdc00))

/-- The code unit of a `\u` escape. -/
def addUnit (p : Pending) (code : ℕ) : Pending :=
  if isLow code then
    match p.high with
    | some high => { text := p.text ++ [ofPair high code] }
    | none => p.add '\ufffd'
  else if isHigh code then { text := p.settle, high := some code }
  else p.add (Char.ofNat code)

end Pending

/-- Where the scanner stands; compare `Mode`. -/
inductive Scan where
  | between
  | word (text : List Char)
  | string (p : Pending)
  | escape (p : Pending)
  | unicode (p : Pending) (code left : ℕ)
  deriving DecidableEq

/-- A character that ends a word. -/
def isDelimiter (c : Char) : Bool := isWhitespace c || (punctuation c).isSome || c = '"'

namespace Scan

def start (c : Char) : List Token × Scan :=
  if isWhitespace c then ([], .between)
  else match punctuation c with
    | some token => ([token], .between)
    | none => if c = '"' then ([], .string {}) else ([], .word [c])

/-- What one character does. -/
def next : Scan → Char → Option (List Token × Scan)
  | .between, c => some (start c)
  | .word text, c =>
    if isDelimiter c then some (.word text :: (start c).1, (start c).2)
    else some ([], .word (text ++ [c]))
  | .string p, c =>
    if c = '"' then some ([.string p.settle], .between)
    else if c = '\\' then some ([], .escape p)
    else if c.toNat < 0x20 then none
    else some ([], .string (p.add c))
  | .escape p, c =>
    if c = 'u' then some ([], .unicode p 0 4)
    else (simpleEscape c).map fun d => ([], .string (p.add d))
  | .unicode p code left, c =>
    (hexValue c).map fun d =>
      if left ≤ 1 then ([], .string (p.addUnit (16 * code + d)))
      else ([], .unicode p (16 * code + d) (left - 1))

/-- What the end of the text leaves. -/
def atEnd : Scan → Option (List Token)
  | .between => some []
  | .word text => some [.word text]
  | .string _ | .escape _ | .unicode _ _ _ => none

end Scan

/-- The tokens of a text. -/
def scan (s : Scan) : List Char → Option (List Token)
  | [] => s.atEnd
  | c :: cs => do
    let (tokens, s) ← s.next c
    let rest ← scan s cs
    return tokens ++ rest

/-! ### Tokens to a value -/

section Reader

variable (numeric : List Char → Bool)

/-- The words that are no numbers. -/
def isLiteral (text : List Char) : Bool :=
  text = "null".toList || text = "true".toList || text = "false".toList

def valueOfWord (text : List Char) : Option Json :=
  if text = "null".toList then some .null
  else if text = "true".toList then some (.bool true)
  else if text = "false".toList then some (.bool false)
  else if numeric text then some (.number text)
  else none

def openValue (stack : List Frame) : Token → Option (List Frame × Expect)
  | .word text => do put (← valueOfWord numeric text) stack
  | token => startValue stack token

/-- What one token does. -/
def take (stack : List Frame) : Expect → Token → Option (List Frame × Expect)
  | .value, token => openValue numeric stack token
  | .valueOrEnd, token =>
    if token = .rightBracket then close stack token else openValue numeric stack token
  | expect, token => feed stack expect token

def readTokens (stack : List Frame) : Expect → List Token → Option Json
  | .finished v, [] => some v
  | _, [] => none
  | expect, token :: tokens => do
    let (stack, expect) ← take numeric stack expect token
    readTokens stack expect tokens

/-- The value of a text. -/
def readText (text : List Char) : Option Json :=
  do readTokens numeric [] .value (← scan .between text)

end Reader

/-! ### Values to characters -/

/-- How a value is written.  Whatever is escaped is read back as it was. -/
structure Style where
  itemGap : List Char
  keyGap : List Char
  escape : Char → List Char
  itemGap_blank : itemGap.all isWhitespace
  keyGap_blank : keyGap.all isWhitespace
  scan_escape : ∀ (text : List Char) (c : Char) (rest : List Char),
    scan (.string { text }) (escape c ++ rest) = scan (.string { text := text ++ [c] }) rest

namespace Style

variable (style : Style)

def quote (text : List Char) : List Char := '"' :: text.flatMap style.escape ++ ['"']

mutual

def write : Json → List Char
  | .null => "null".toList
  | .bool true => "true".toList
  | .bool false => "false".toList
  | .number text => text
  | .string text => style.quote text
  | .array [] => "[]".toList
  | .array (item :: items) => '[' :: write item ++ writeItems items
  | .object [] => ['{', '}']
  | .object ((key, value) :: members) =>
    '{' :: style.quote key ++ ':' :: style.keyGap ++ write value ++ writeMembers members

/-- The items after the first, and the end of the array. -/
def writeItems : List Json → List Char
  | [] => [']']
  | item :: items => ',' :: style.itemGap ++ write item ++ writeItems items

/-- The members after the first, and the end of the object. -/
def writeMembers : List (List Char × Json) → List Char
  | [] => ['}']
  | (key, value) :: members =>
    ',' :: style.itemGap ++ style.quote key ++ ':' :: style.keyGap ++
      write value ++ writeMembers members

end

end Style

mutual

/-- The tokens of a value. -/
def tokens : Json → List Token
  | .null => [.word "null".toList]
  | .bool true => [.word "true".toList]
  | .bool false => [.word "false".toList]
  | .number text => [.word text]
  | .string text => [.string text]
  | .array [] => [.leftBracket, .rightBracket]
  | .array (item :: items) => .leftBracket :: tokens item ++ tokensOfItems items
  | .object [] => [.leftBrace, .rightBrace]
  | .object ((key, value) :: members) =>
    .leftBrace :: .string key :: .colon :: tokens value ++ tokensOfMembers members

def tokensOfItems : List Json → List Token
  | [] => [.rightBracket]
  | item :: items => .comma :: tokens item ++ tokensOfItems items

def tokensOfMembers : List (List Char × Json) → List Token
  | [] => [.rightBrace]
  | (key, value) :: members => .comma :: .string key :: .colon :: tokens value ++
    tokensOfMembers members

end

mutual

/-- The texts of the numbers in a value all pass the test. -/
def numbersPass (test : List Char → Bool) : Json → Bool
  | .null => true
  | .bool _ => true
  | .number text => test text
  | .string _ => true
  | .array items => itemsPass test items
  | .object members => membersPass test members

def itemsPass (test : List Char → Bool) : List Json → Bool
  | [] => true
  | item :: items => numbersPass test item && itemsPass test items

def membersPass (test : List Char → Bool) : List (List Char × Json) → Bool
  | [] => true
  | (_, value) :: members => numbersPass test value && membersPass test members

end

/-- A word that can stand for a number. -/
def isWord (text : List Char) : Bool := text ≠ [] && text.all (!isDelimiter ·) && !isLiteral text

/-! ### Scanning what was written -/

theorem scan_cons (s : Scan) (c : Char) (cs : List Char) :
    scan s (c :: cs) = (s.next c).bind fun p => (scan p.2 cs).map (p.1 ++ ·) := by
  rw [scan]
  cases s.next c with
  | none => rfl
  | some p =>
    simp only [Option.bind_eq_bind, Option.bind_some]
    cases scan p.2 cs <;> rfl

/-- A character that only moves the scanner. -/
theorem scan_silent {s s' : Scan} {c : Char} (h : s.next c = some ([], s')) (cs : List Char) :
    scan s (c :: cs) = scan s' cs := by
  rw [scan_cons, h, Option.bind_some]
  exact Option.map_id' ..

/-- A character that completes one token. -/
theorem scan_token {s s' : Scan} {c : Char} {token : Token} (h : s.next c = some ([token], s'))
    (cs : List Char) : scan s (c :: cs) = (scan s' cs).map (token :: ·) := by
  rw [scan_cons, h, Option.bind_some]
  rfl

theorem scan_blanks {gap : List Char} (h : gap.all isWhitespace) (rest : List Char) :
    scan .between (gap ++ rest) = scan .between rest := by
  induction gap with
  | nil => rfl
  | cons c gap ih =>
    rw [List.all_cons, Bool.and_eq_true] at h
    have hsilent : Scan.next .between c = some ([], .between) := by
      rw [Scan.next, Scan.start, if_pos h.1]
    rw [List.cons_append, scan_silent hsilent, ih h.2]

/-- What follows a word ends it. -/
def Delimited (rest : List Char) : Prop := ∀ c ∈ rest.head?, isDelimiter c

theorem delimited_cons {c : Char} (h : isDelimiter c) (cs : List Char) : Delimited (c :: cs) := by
  intro d hd
  obtain rfl := Option.some.inj hd
  exact h

theorem scan_endOfWord (text : List Char) {rest : List Char} (h : Delimited rest) :
    scan (.word text) rest = (scan .between rest).map (.word text :: ·) := by
  cases rest with
  | nil => rfl
  | cons c cs =>
    have hnext : Scan.next (.word text) c =
        some (.word text :: (Scan.start c).1, (Scan.start c).2) := by
      rw [Scan.next, if_pos (h c rfl)]
    rw [scan_cons, scan_cons, hnext, Scan.next, Option.bind_some, Option.bind_some, Option.map_map]
    rfl

theorem scan_inWord (done : List Char) {text : List Char} (h : text.all (!isDelimiter ·))
    (rest : List Char) :
    scan (.word done) (text ++ rest) = scan (.word (done ++ text)) rest := by
  induction text generalizing done with
  | nil => rw [List.nil_append, List.append_nil]
  | cons c text ih =>
    rw [List.all_cons, Bool.and_eq_true, Bool.not_eq_true'] at h
    have hsilent : Scan.next (.word done) c = some ([], .word (done ++ [c])) := by
      rw [Scan.next, h.1]
      rfl
    rw [List.cons_append, scan_silent hsilent, ih _ h.2, List.append_assoc, List.singleton_append]

theorem scan_word {text rest : List Char} (hne : text ≠ []) (h : text.all (!isDelimiter ·))
    (hrest : Delimited rest) :
    scan .between (text ++ rest) = (scan .between rest).map (.word text :: ·) := by
  cases text with
  | nil => exact absurd rfl hne
  | cons c text =>
    rw [List.all_cons, Bool.and_eq_true, Bool.not_eq_true'] at h
    have hsilent : Scan.next .between c = some ([], .word [c]) := by
      have hc := h.1
      simp only [isDelimiter, Bool.or_eq_false_iff, Option.isSome_eq_false_iff,
        Option.isNone_iff_eq_none,
        decide_eq_false_iff_not] at hc
      rw [Scan.next, Scan.start, if_neg (by simp [hc.1.1]), hc.1.2]
      simp [hc.2]
    rw [List.cons_append, scan_silent hsilent, scan_inWord _ h.2, List.singleton_append,
      scan_endOfWord _ hrest]

theorem scan_literal {text rest : List Char} (h : isLiteral text) (hrest : Delimited rest) :
    scan .between (text ++ rest) = (scan .between rest).map (.word text :: ·) := by
  simp only [isLiteral, Bool.or_eq_true, decide_eq_true_eq] at h
  rcases h with (rfl | rfl) | rfl
  · exact scan_word (by decide) (by decide) hrest
  · exact scan_word (by decide) (by decide) hrest
  · exact scan_word (by decide) (by decide) hrest

theorem word_of_isWord {text : List Char} (h : isWord text) :
    text ≠ [] ∧ text.all (!isDelimiter ·) = true ∧ isLiteral text = false := by
  simpa [isWord, and_assoc] using h

section Write

variable (style : Style)

theorem scan_text (done text rest : List Char) :
    scan (.string { text := done }) (text.flatMap style.escape ++ rest) =
      scan (.string { text := done ++ text }) rest := by
  induction text generalizing done with
  | nil => rw [List.flatMap_nil, List.nil_append, List.append_nil]
  | cons c text ih =>
    rw [List.flatMap_cons, List.append_assoc, style.scan_escape, ih,
      List.append_assoc, List.singleton_append]

theorem scan_quote (text rest : List Char) :
    scan .between (style.quote text ++ rest) = (scan .between rest).map (.string text :: ·) := by
  have hend : Scan.next (.string { text }) '"' = some ([.string text], .between) := by
    simp [Scan.next, Pending.settle]
  rw [Style.quote, List.cons_append, List.cons_append, List.append_assoc, scan_silent rfl,
    show scan (.string {}) = scan (.string { text := [] }) from rfl, scan_text, List.nil_append,
    List.singleton_append, scan_token hend]

/-- A key and its colon. -/
theorem scan_key (key rest : List Char) :
    scan .between (style.quote key ++ ':' :: style.keyGap ++ rest) =
      (scan .between rest).map fun tokens => .string key :: .colon :: tokens := by
  rw [List.append_assoc, List.cons_append, scan_quote, scan_token rfl,
    scan_blanks style.keyGap_blank,
    Option.map_map]
  rfl

/-- A comma and what stands behind it. -/
theorem scan_comma (rest : List Char) :
    scan .between (',' :: style.itemGap ++ rest) = (scan .between rest).map (.comma :: ·) := by
  rw [List.cons_append, scan_token rfl, scan_blanks style.itemGap_blank]

theorem delimited_writeItems (items : List Json) (rest : List Char) :
    Delimited (style.writeItems items ++ rest) := by
  cases items with
  | nil => exact delimited_cons rfl _
  | cons item items =>
    rw [Style.writeItems]
    exact delimited_cons rfl _

theorem delimited_writeMembers (members : List (List Char × Json)) (rest : List Char) :
    Delimited (style.writeMembers members ++ rest) := by
  cases members with
  | nil => exact delimited_cons rfl _
  | cons member members =>
    rw [Style.writeMembers]
    exact delimited_cons rfl _

mutual

/-- **A written value** is scanned as its tokens. -/
theorem scan_write (v : Json) (hv : numbersPass isWord v) {rest : List Char}
    (hrest : Delimited rest) :
    scan .between (style.write v ++ rest) = (scan .between rest).map (tokens v ++ ·) := by
  cases v with
  | null =>
    rw [Style.write]
    exact scan_literal rfl hrest
  | bool b =>
    cases b with
    | true =>
      rw [Style.write]
      exact scan_literal rfl hrest
    | false =>
      rw [Style.write]
      exact scan_literal rfl hrest
  | number text =>
    rw [numbersPass] at hv
    obtain ⟨hne, hall, -⟩ := word_of_isWord hv
    exact scan_word hne hall hrest
  | string text => exact scan_quote style text rest
  | array items =>
    cases items with
    | nil =>
      rw [Style.write, show "[]".toList ++ rest = '[' :: ']' :: rest from rfl,
        scan_token rfl, scan_token rfl,
        Option.map_map]
      rfl
    | cons item items =>
      rw [numbersPass, itemsPass, Bool.and_eq_true] at hv
      rw [Style.write, List.cons_append, List.cons_append, List.append_assoc, scan_token rfl,
        scan_write item hv.1 (delimited_writeItems style items rest), scan_writeItems items hv.2,
          Option.map_map,
        Option.map_map]
      simp [tokens, Function.comp_def]
  | object members =>
    cases members with
    | nil =>
      rw [Style.write, show ['{', '}'] ++ rest = '{' :: '}' :: rest from rfl,
        scan_token rfl, scan_token rfl,
        Option.map_map]
      rfl
    | cons member members =>
      obtain ⟨key, value⟩ := member
      rw [numbersPass, membersPass, Bool.and_eq_true] at hv
      have hvalue := scan_write value hv.1 (delimited_writeMembers style members rest)
      rw [Style.write, List.append_assoc, List.append_assoc, List.cons_append,
        List.cons_append, scan_token rfl,
        scan_key, hvalue, scan_writeMembers members hv.2, Option.map_map,
          Option.map_map, Option.map_map]
      simp [tokens, Function.comp_def]

theorem scan_writeItems (items : List Json) (h : itemsPass isWord items) (rest : List Char) :
    scan .between (style.writeItems items ++ rest) = (scan .between rest).map
      (tokensOfItems items ++ ·) := by
  cases items with
  | nil => exact scan_token rfl rest
  | cons item items =>
    rw [itemsPass, Bool.and_eq_true] at h
    rw [Style.writeItems, List.append_assoc, List.append_assoc, scan_comma,
      scan_write item h.1 (delimited_writeItems style items rest), scan_writeItems items h.2,
        Option.map_map,
      Option.map_map]
    simp [tokensOfItems, Function.comp_def]

theorem scan_writeMembers (members : List (List Char × Json)) (h : membersPass isWord members)
    (rest : List Char) :
    scan .between (style.writeMembers members ++ rest) = (scan .between rest).map
      (tokensOfMembers members ++ ·) := by
  cases members with
  | nil => exact scan_token rfl rest
  | cons member members =>
    obtain ⟨key, value⟩ := member
    rw [membersPass, Bool.and_eq_true] at h
    have hvalue := scan_write value h.1 (delimited_writeMembers style members rest)
    rw [Style.writeMembers, show ',' :: style.itemGap ++ style.quote key ++
      ':' :: style.keyGap ++ style.write value ++
        style.writeMembers members ++ rest = ',' :: style.itemGap ++
          (style.quote key ++ ':' :: style.keyGap ++
        (style.write value ++ (style.writeMembers members ++ rest))) by simp,
          scan_comma, scan_key, hvalue,
      scan_writeMembers members h.2, Option.map_map, Option.map_map, Option.map_map]
    simp [tokensOfMembers, Function.comp_def]

end

end Write

/-! ### Reading the tokens of a value -/

section Read

variable {numeric : List Char → Bool}

/-- What the reader does with a value that is complete. -/
def resume (numeric : List Char → Bool) (v : Json) (stack : List Frame) (rest : List Token) :
    Option Json :=
  (put v stack).bind fun p => readTokens numeric p.1 p.2 rest

theorem readTokens_word (stack : List Frame) (text : List Char) (rest : List Token) :
    readTokens numeric stack .value (.word text :: rest) =
      (valueOfWord numeric text).bind fun v => resume numeric v stack rest := by
  show (take numeric stack .value (.word text)).bind _ = _
  rw [take, openValue]
  cases valueOfWord numeric text <;> rfl

theorem valueOfWord_number {text : List Char} (h : isWord text) :
    valueOfWord numeric text = if numeric text then some (.number text) else none := by
  obtain ⟨-, -, hliteral⟩ := word_of_isWord h
  simp only [isLiteral, Bool.or_eq_false_iff, decide_eq_false_iff_not] at hliteral
  rw [valueOfWord, if_neg hliteral.1.1, if_neg hliteral.1.2, if_neg hliteral.2]

/-- A value does not start with the end of an array. -/
theorem readTokens_valueOrEnd (stack : List Frame) (v : Json) (rest : List Token) :
    readTokens numeric stack .valueOrEnd (tokens v ++ rest) =
      readTokens numeric stack .value (tokens v ++ rest) := by
  cases v with
  | bool b => cases b <;> rfl
  | array items => cases items <;> rfl
  | object members => cases members <;> rfl
  | _ => rfl

theorem readTokens_comma_item (done : List Json) (stack : List Frame) (rest : List Token) :
    readTokens numeric (.array done :: stack) .separator (.comma :: rest) =
      readTokens numeric (.array done :: stack) .value rest := rfl

theorem readTokens_comma_member (done : List (List Char × Json))
    (stack : List Frame) (key : List Char)
    (rest : List Token) :
    readTokens numeric (.object done :: stack) .separator (.comma ::
      .string key :: .colon :: rest) =
      readTokens numeric (.member done key :: stack) .value rest := rfl

mutual

/-- **The tokens of a value** are read as the value, if the reader knows its numbers. -/
theorem read_tokens (v : Json) (hv : numbersPass isWord v)
    (stack : List Frame) (rest : List Token) :
    readTokens numeric stack .value (tokens v ++ rest) =
      if numbersPass numeric v then resume numeric v stack rest else none := by
  cases v with
  | null => exact readTokens_word stack _ rest
  | bool b =>
    cases b with
    | true => exact readTokens_word stack _ rest
    | false => exact readTokens_word stack _ rest
  | number text =>
    rw [numbersPass] at hv
    rw [tokens, List.singleton_append, readTokens_word, valueOfWord_number hv, numbersPass]
    split <;> rfl
  | string text => rfl
  | array items =>
    cases items with
    | nil => rfl
    | cons item items =>
      rw [numbersPass, itemsPass, Bool.and_eq_true] at hv
      rw [tokens, numbersPass, itemsPass, List.cons_append, List.cons_append, List.append_assoc]
      have hopen : readTokens numeric stack .value
          (.leftBracket :: (tokens item ++ (tokensOfItems items ++ rest))) =
            readTokens numeric (.array [] :: stack) .valueOrEnd (tokens item ++
              (tokensOfItems items ++ rest)) := rfl
      rw [hopen, readTokens_valueOrEnd, read_tokens item hv.1]
      cases numbersPass numeric item with
      | false => rfl
      | true => exact read_tokensOfItems items hv.2 [item] stack rest
  | object members =>
    cases members with
    | nil => rfl
    | cons member members =>
      obtain ⟨key, value⟩ := member
      rw [numbersPass, membersPass, Bool.and_eq_true] at hv
      rw [tokens, numbersPass, membersPass]
      have hopen : readTokens numeric stack .value
          (.leftBrace :: .string key :: .colon :: tokens value ++ tokensOfMembers members ++ rest) =
            readTokens numeric (.member [] key :: stack) .value
              (tokens value ++ (tokensOfMembers members ++ rest)) := by
        rw [← List.append_assoc]
        rfl
      rw [hopen, read_tokens value hv.1]
      cases numbersPass numeric value with
      | false => rfl
      | true => exact read_tokensOfMembers members hv.2 [(key, value)] stack rest

theorem read_tokensOfItems (items : List Json) (h : itemsPass isWord items) (done : List Json)
    (stack : List Frame) (rest : List Token) :
    readTokens numeric (.array done :: stack) .separator (tokensOfItems items ++ rest) =
      if itemsPass numeric items then resume numeric (.array (done ++ items)) stack rest
      else none := by
  cases items with
  | nil =>
    rw [List.append_nil]
    rfl
  | cons item items =>
    rw [itemsPass, Bool.and_eq_true] at h
    rw [tokensOfItems, itemsPass, List.cons_append, List.cons_append,
      List.append_assoc, readTokens_comma_item,
      read_tokens item h.1]
    cases numbersPass numeric item with
    | false => rfl
    | true =>
      rw [show done ++ item :: items = done ++ [item] ++ items by simp]
      exact read_tokensOfItems items h.2 (done ++ [item]) stack rest

theorem read_tokensOfMembers (members : List (List Char × Json)) (h : membersPass isWord members)
    (done : List (List Char × Json)) (stack : List Frame) (rest : List Token) :
    readTokens numeric (.object done :: stack) .separator (tokensOfMembers members ++ rest) =
      if membersPass numeric members then resume numeric (.object (done ++ members)) stack rest
      else none := by
  cases members with
  | nil =>
    rw [List.append_nil]
    rfl
  | cons member members =>
    obtain ⟨key, value⟩ := member
    rw [membersPass, Bool.and_eq_true] at h
    rw [tokensOfMembers, membersPass, show .comma :: .string key :: .colon :: tokens value ++
      tokensOfMembers members ++
      rest = .comma :: .string key :: .colon ::
        (tokens value ++ (tokensOfMembers members ++ rest)) by simp,
      readTokens_comma_member, read_tokens value h.1]
    cases numbersPass numeric value with
    | false => rfl
    | true =>
      rw [show done ++ (key, value) :: members = done ++ [(key, value)] ++ members by simp]
      exact read_tokensOfMembers members h.2 (done ++ [(key, value)]) stack rest

end

/-- **A value is read back as it was written**, if the reader knows its numbers; else its
text is refused. -/
theorem readText_write (style : Style) {v : Json} (hv : numbersPass isWord v) :
    readText numeric (style.write v) = if numbersPass numeric v then some v else none := by
  have hend : Delimited [] := by
    intro c hc
    cases hc
  have hscan : scan .between (style.write v) = some (tokens v) := by
    rw [← List.append_nil (style.write v), scan_write style v hv hend, ← List.append_nil (tokens v)]
    exact congrArg some (List.append_assoc ..)
  have hread : readTokens numeric [] .value (tokens v) =
      if numbersPass numeric v then resume numeric v [] [] else none := by
    rw [← read_tokens v hv, List.append_nil]
  rw [readText, hscan]
  exact hread

end Read

/-! ### Numbers are words -/

/-- The characters of a number. -/
def isNumberChar (c : Char) : Bool :=
  isDigit c || c = '-' || c = '+' || c = '.' || c = 'e' || c = 'E'

theorem isNumberChar_of_isDigit {c : Char} (h : isDigit c) : isNumberChar c := by
  simp [isNumberChar, h]

theorem isDelimiter_of_isNumberChar {c : Char} (h : isNumberChar c) : isDelimiter c = false := by
  have hdigit : isDigit c → isDelimiter c = false := by
    intro hc
    simp only [isDigit, Bool.and_eq_true, decide_eq_true_eq] at hc
    have hne {d : Char} (hd : d.toNat < 48 ∨ 57 < d.toNat) : c ≠ d := by
      rintro rfl
      omega
    have hpunctuation : punctuation c = none := by
      unfold punctuation
      split <;> first | rfl | exact absurd rfl (hne (by decide))
    simp [isDelimiter, isWhitespace, hpunctuation, hne]
  simp only [isNumberChar, Bool.or_eq_true, decide_eq_true_eq] at h
  rcases h with ((((h | rfl) | rfl) | rfl) | rfl) | rfl
  · exact hdigit h
  all_goals decide

theorem isNumberChar_of_isExponent {text : List Char} (h : isExponent text) :
    text.all isNumberChar := by
  cases text with
  | nil => rfl
  | cons e rest =>
    simp only [isExponent, Bool.and_eq_true, Bool.or_eq_true, decide_eq_true_eq] at h
    have he : isNumberChar e := by
      rcases h.1.1 with rfl | rfl
      · rfl
      · rfl
    have hdigits {digits : List Char} (hall : digits.all isDigit) : digits.all isNumberChar := by
      rw [List.all_eq_true] at hall ⊢
      exact fun c hc => isNumberChar_of_isDigit (hall c hc)
    rw [List.all_cons, he, Bool.true_and]
    have hrest := h.2
    split at hrest
    · rw [List.all_cons, hdigits hrest]
      rfl
    · rw [List.all_cons, hdigits hrest]
      rfl
    · exact hdigits hrest

theorem isNumberChar_append_digits {text : List Char}
    (h : (text.dropWhile isDigit).all isNumberChar) :
    text.all isNumberChar := by
  rw [← List.takeWhile_append_dropWhile (p := isDigit) (l := text), List.all_append, h,
    Bool.and_true, List.all_eq_true]
  intro c hc
  exact isNumberChar_of_isDigit (List.all_eq_true.mp List.all_takeWhile c hc)

theorem isNumberChar_of_isFraction {text : List Char} (h : isFraction text) :
    text.all isNumberChar := by
  unfold isFraction at h
  split at h
  · next d rest =>
    rw [Bool.and_eq_true] at h
    rw [List.all_cons, List.all_cons, isNumberChar_of_isDigit h.1,
      isNumberChar_append_digits (isNumberChar_of_isExponent h.2)]
    rfl
  · cases h
  · exact isNumberChar_of_isExponent h

/-- A number starts with a digit, behind its sign. -/
theorem isNumberChar_of_isUnsigned {text : List Char} (h : isUnsigned text) :
    text ≠ [] ∧ text.all isNumberChar = true ∧ ∀ c ∈ text.head?, isDigit c := by
  unfold isUnsigned at h
  split at h
  · next rest =>
    rw [List.all_cons, isNumberChar_of_isFraction h]
    exact ⟨by simp, rfl, fun c hc => Option.some.inj hc ▸ rfl⟩
  · next d rest _ =>
    rw [Bool.and_eq_true] at h
    rw [List.all_cons, isNumberChar_of_isDigit h.1,
      isNumberChar_append_digits (isNumberChar_of_isFraction h.2)]
    exact ⟨by simp, rfl, fun c hc => Option.some.inj hc ▸ h.1⟩
  · cases h

theorem isWord_of_isNumber {text : List Char} (h : isNumber text) : isWord text := by
  have hchars : text ≠ [] ∧ text.all isNumberChar = true ∧ ∀ c ∈ text.head?,
      isDigit c ∨ c = '-' := by
    unfold isNumber at h
    split at h
    · next rest =>
      rw [List.all_cons, (isNumberChar_of_isUnsigned h).2.1]
      exact ⟨by simp, rfl, fun c hc => .inr (Option.some.inj hc).symm⟩
    · obtain ⟨hne, hall, hhead⟩ := isNumberChar_of_isUnsigned h
      exact ⟨hne, hall, fun c hc => .inl (hhead c hc)⟩
  obtain ⟨hne, hall, hhead⟩ := hchars
  have hliteral : isLiteral text = false := by
    rw [Bool.eq_false_iff]
    intro hlit
    simp only [isLiteral, Bool.or_eq_true, decide_eq_true_eq] at hlit
    rcases hlit with (rfl | rfl) | rfl
    · exact absurd (hhead 'n' rfl) (by decide)
    · exact absurd (hhead 't' rfl) (by decide)
    · exact absurd (hhead 'f' rfl) (by decide)
  have hword : text.all (!isDelimiter ·) = true := by
    rw [List.all_eq_true] at hall ⊢
    intro c hc
    rw [isDelimiter_of_isNumberChar (hall c hc)]
    rfl
  simp [isWord, hne, hword, hliteral]

/-! ### Two styles -/

theorem scan_simpleEscape (text : List Char) {c d : Char} (hu : c ≠ 'u')
    (h : simpleEscape c = some d)
    (rest : List Char) : scan (.string { text })
    ('\\' :: c :: rest) = scan (.string { text := text ++ [d] }) rest := by
  have hescape : Scan.next (.escape { text }) c = some ([], .string { text := text ++ [d] }) := by
    rw [Scan.next, if_neg hu, h]
    simp [Pending.add, Pending.settle]
  rw [scan_silent rfl, scan_silent hescape]

/-- `\uXXXX`, in lower case. -/
def unicodeEscape (code : ℕ) : List Char :=
  ['\\', 'u', hexDigit (code / 4096), hexDigit (code / 256 % 16), hexDigit (code / 16 % 16),
    hexDigit (code % 16)]

theorem scan_unicodeEscape (p : Pending) {code : ℕ} (h : code < 0x10000) (rest : List Char) :
    scan (.string p) (unicodeEscape code ++ rest) = scan (.string (p.addUnit code)) rest := by
  have hdigit {n code left : ℕ} (hn : n < 16) :
    Scan.next (.unicode p code (left + 2)) (hexDigit n) =
      some ([], .unicode p (16 * code + n) (left + 1)) := by
    rw [Scan.next, hexValue_hexDigit hn, Option.map_some, if_neg (by omega)]
    rfl
  have hlast {n code : ℕ} (hn : n < 16) : Scan.next (.unicode p code 1) (hexDigit n) =
      some ([], .string (p.addUnit (16 * code + n))) := by
    rw [Scan.next, hexValue_hexDigit hn, Option.map_some, if_pos (by omega)]
  have hcode : 16 * (16 * (16 * (16 * 0 + code / 4096) + code / 256 % 16) + code / 16 % 16) +
      code % 16 = code := by
    omega
  have hslash : Scan.next (.string p) '\\' = some ([], .escape p) := rfl
  have hu : Scan.next (.escape p) 'u' = some ([], .unicode p 0 4) := rfl
  rw [unicodeEscape]
  simp only [List.cons_append, List.nil_append]
  rw [scan_silent hslash, scan_silent hu, scan_silent (hdigit (by omega)),
    scan_silent (hdigit (by omega)),
    scan_silent (hdigit (by omega)), scan_silent (hlast (by omega)), hcode]

/-- A character that is not half of a pair, as its code unit. -/
theorem addUnit_toNat (text : List Char) (c : Char) (h : c.toNat < 0x10000) :
    Pending.addUnit { text } c.toNat = { text := text ++ [c] } := by
  have hvalid := c.valid
  have hlow : Pending.isLow c.toNat = false := by
    rw [Bool.eq_false_iff]
    intro hlow
    simp only [Pending.isLow, Bool.and_eq_true, decide_eq_true_eq] at hlow
    rcases hvalid with hlt | hgt
    · have : c.toNat < 0xd800 := hlt
      omega
    · have : 0xdfff < c.toNat := hgt.1
      omega
  have hhigh : Pending.isHigh c.toNat = false := by
    rw [Bool.eq_false_iff]
    intro hhigh
    simp only [Pending.isHigh, Bool.and_eq_true, decide_eq_true_eq] at hhigh
    rcases hvalid with hlt | hgt
    · have : c.toNat < 0xd800 := hlt
      omega
    · have : 0xdfff < c.toNat := hgt.1
      omega
  rw [Pending.addUnit, hlow, hhigh]
  simp [Pending.add, Pending.settle, Char.ofNat_toNat]

/-- What has to be escaped, and nothing else. -/
theorem scan_escapeChar (text : List Char) (c : Char) (rest : List Char) :
    scan (.string { text })
    (escapeChar c ++ rest) = scan (.string { text := text ++ [c] }) rest := by
  unfold escapeChar
  split_ifs with h1 h2 h3 h4 h5 h6 h7 h8
  -- The seven characters with a short escape, the other control characters, the rest.
  · subst h1
    exact scan_simpleEscape text (by decide) rfl rest
  · subst h2
    exact scan_simpleEscape text (by decide) rfl rest
  · subst h3
    exact scan_simpleEscape text (by decide) rfl rest
  · subst h4
    exact scan_simpleEscape text (by decide) rfl rest
  · subst h5
    exact scan_simpleEscape text (by decide) rfl rest
  · subst h6
    exact scan_simpleEscape text (by decide) rfl rest
  · subst h7
    exact scan_simpleEscape text (by decide) rfl rest
  · have hescape : ['\\', 'u', '0', '0', hexDigit (c.toNat / 16), hexDigit (c.toNat % 16)] =
        unicodeEscape c.toNat := by
      rw [unicodeEscape, show c.toNat / 4096 = 0 by omega, show c.toNat / 256 % 16 = 0 by omega,
        show c.toNat / 16 % 16 = c.toNat / 16 by omega]
      rfl
    rw [hescape, scan_unicodeEscape _ (by omega), addUnit_toNat _ _ (by omega)]
  · have hplain : Scan.next (.string { text }) c = some ([], .string { text := text ++ [c] }) := by
      rw [Scan.next, if_neg h1, if_neg h2, if_neg h8]
      simp [Pending.add, Pending.settle]
    exact scan_silent hplain rest

/-- `JSON.stringify` writes no blanks. -/
def Style.compact : Style where
  itemGap := []
  keyGap := []
  escape := escapeChar
  itemGap_blank := rfl
  keyGap_blank := rfl
  scan_escape := scan_escapeChar

/-- Everything that is not printable ASCII is escaped, a character of the higher planes as
a surrogate pair. -/
def escapeAscii (c : Char) : List Char :=
  if c.toNat < 0x7f then escapeChar c
  else if c.toNat < 0x10000 then unicodeEscape c.toNat
  else
    unicodeEscape (0xd800 + (c.toNat - 0x10000) / 0x400) ++
      unicodeEscape (0xdc00 + (c.toNat - 0x10000) % 0x400)

theorem toNat_lt_planes (c : Char) : c.toNat < 0x110000 := by
  rcases c.valid with hlt | hgt
  · have : c.toNat < 0xd800 := hlt
    omega
  · exact hgt.2

/-- The two halves of a character of the higher planes. -/
theorem addUnit_pair (text : List Char) {c : Char} (h : 0x10000 ≤ c.toNat) :
    Pending.addUnit (Pending.addUnit { text } (0xd800 + (c.toNat - 0x10000) / 0x400))
      (0xdc00 + (c.toNat - 0x10000) % 0x400) = { text := text ++ [c] } := by
  have hlt := toNat_lt_planes c
  have hhigh : Pending.isHigh (0xd800 + (c.toNat - 0x10000) / 0x400) = true := by
    simp only [Pending.isHigh, Bool.and_eq_true, decide_eq_true_eq]
    omega
  have hnotLow : Pending.isLow (0xd800 + (c.toNat - 0x10000) / 0x400) = false := by
    rw [Bool.eq_false_iff]
    intro hlow
    simp only [Pending.isLow, Bool.and_eq_true, decide_eq_true_eq] at hlow
    omega
  have hlow : Pending.isLow (0xdc00 + (c.toNat - 0x10000) % 0x400) = true := by
    simp only [Pending.isLow, Bool.and_eq_true, decide_eq_true_eq]
    omega
  have hpair : Pending.ofPair (0xd800 + (c.toNat - 0x10000) / 0x400)
      (0xdc00 + (c.toNat - 0x10000) % 0x400) = c := by
    rw [Pending.ofPair, show 0x10000 + (0xd800 + (c.toNat - 0x10000) / 0x400 - 0xd800) * 0x400 +
      (0xdc00 + (c.toNat - 0x10000) % 0x400 - 0xdc00) = c.toNat by omega, Char.ofNat_toNat]
  have hfirst : Pending.addUnit { text } (0xd800 + (c.toNat - 0x10000) / 0x400) =
      { text, high := some (0xd800 + (c.toNat - 0x10000) / 0x400) } := by
    rw [Pending.addUnit, hnotLow, hhigh]
    simp [Pending.settle]
  rw [hfirst, Pending.addUnit, if_pos hlow]
  simp only [hpair]

theorem scan_escapeAscii (text : List Char) (c : Char) (rest : List Char) :
    scan (.string { text })
    (escapeAscii c ++ rest) = scan (.string { text := text ++ [c] }) rest := by
  have hlt := toNat_lt_planes c
  rw [escapeAscii]
  split_ifs with hascii hbasic
  · exact scan_escapeChar text c rest
  · rw [scan_unicodeEscape _ hbasic, addUnit_toNat _ _ hbasic]
  · rw [List.append_assoc, scan_unicodeEscape _ (by omega), scan_unicodeEscape _ (by omega),
      addUnit_pair text (by omega)]

/-- `json.dumps` puts a blank after each comma and each colon. -/
def Style.dumps : Style where
  itemGap := [' ']
  keyGap := [' ']
  escape := escapeAscii
  itemGap_blank := rfl
  keyGap_blank := rfl
  scan_escape := scan_escapeAscii

end JsonText
