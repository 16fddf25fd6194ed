/-
JSON text.

`parse` reads a text in two passes, each by recursion on its input.  The lexer turns
characters into tokens; the reader keeps the arrays and objects that are still open on a
stack.  `stringifyStrings` writes an array of strings.

* `lex_quote` — a quoted string is lexed as the string;
* `parse_stringifyStrings` — an array of strings is read back as it was written.
-/
import Mathlib.Data.List.Basic

namespace JsonText

/-- The value of a JSON text.  A number keeps its text, an object its members in the
order of the text. -/
inductive Json where
  | null
  | bool (b : Bool)
  | number (text : List Char)
  | string (text : List Char)
  | array (items : List Json)
  | object (members : List (List Char × Json))

/-! ### Characters to tokens -/

inductive Token where
  | leftBracket
  | rightBracket
  | leftBrace
  | rightBrace
  | comma
  | colon
  | string (text : List Char)
  | word (text : List Char)
  deriving DecidableEq

/-- Where the lexer stands: between tokens, in a word (a literal or a number), in a
string, after a backslash in it, or in the digits of a `\u` escape of which `left` are
to come. -/
inductive Mode where
  | between
  | word (text : List Char)
  | string (text : List Char)
  | escape (text : List Char)
  | unicode (text : List Char) (code left : ℕ)
  deriving DecidableEq

def isWhitespace (c : Char) : Bool := c = ' ' || c = '\t' || c = '\n' || c = '\r'

def punctuation : Char → Option Token
  | '[' => some .leftBracket
  | ']' => some .rightBracket
  | '{' => some .leftBrace
  | '}' => some .rightBrace
  | ',' => some .comma
  | ':' => some .colon
  | _ => none

/-- The escapes of one character. -/
def simpleEscape : Char → Option Char
  | '"' => some '"'
  | '\\' => some '\\'
  | '/' => some '/'
  | 'b' => some '\x08'
  | 'f' => some '\x0c'
  | 'n' => some '\n'
  | 'r' => some '\r'
  | 't' => some '\t'
  | _ => none

def hexValue (c : Char) : Option ℕ :=
  if 48 ≤ c.toNat ∧ c.toNat ≤ 57 then some (c.toNat - 48)
  else if 97 ≤ c.toNat ∧ c.toNat ≤ 102 then some (c.toNat - 87)
  else if 65 ≤ c.toNat ∧ c.toNat ≤ 70 then some (c.toNat - 55)
  else none

/-- The character of a code unit; half of a surrogate pair stands as U+FFFD. -/
def ofCodeUnit (code : ℕ) : Char :=
  if 0xd800 ≤ code ∧ code ≤ 0xdfff then '\ufffd' else Char.ofNat code

/-- The tokens that end before a character that starts something new, and the mode after
it. -/
def start (c : Char) : List Token × Mode :=
  if isWhitespace c then ([], .between)
  else match punctuation c with
    | some token => ([token], .between)
    | none => if c = '"' then ([], .string []) else ([], .word [c])

/-- What one character does. -/
def next : Mode → Char → Option (List Token × Mode)
  | .between, c => some (start c)
  | .word text, c =>
    if isWhitespace c ∨ (punctuation c).isSome ∨ c = '"' then
      some (.word text :: (start c).1, (start c).2)
    else some ([], .word (text ++ [c]))
  | .string text, c =>
    if c = '"' then some ([.string text], .between)
    else if c = '\\' then some ([], .escape text)
    else if c.toNat < 0x20 then none
    else some ([], .string (text ++ [c]))
  | .escape text, c =>
    if c = 'u' then some ([], .unicode text 0 4)
    else (simpleEscape c).map fun d => ([], .string (text ++ [d]))
  | .unicode text code left, c =>
    (hexValue c).map fun d =>
      if left ≤ 1 then ([], .string (text ++ [ofCodeUnit (16 * code + d)]))
      else ([], .unicode text (16 * code + d) (left - 1))

/-- What the end of the text leaves; `none` for a string without an end. -/
def atEnd : Mode → Option (List Token)
  | .between => some []
  | .word text => some [.word text]
  | .string _ | .escape _ | .unicode _ _ _ => none

/-- The tokens of a text; `none` for a character that cannot stand where it does. -/
def lex (mode : Mode) : List Char → Option (List Token)
  | [] => atEnd mode
  | c :: cs => do
    let (tokens, mode) ← next mode c
    let rest ← lex mode cs
    return tokens ++ rest

/-! ### Words -/

def isDigit (c : Char) : Bool := 48 ≤ c.toNat && c.toNat ≤ 57

/-- `([eE][+-]?\d+)?` -/
def isExponent : List Char → Bool
  | [] => true
  | e :: rest =>
    let digits := match rest with
      | '+' :: digits => digits
      | '-' :: digits => digits
      | digits => digits
    (e = 'e' || e = 'E') && digits ≠ [] && digits.all isDigit

/-- `(\.\d+)?` and an exponent. -/
def isFraction : List Char → Bool
  | '.' :: d :: rest => isDigit d && isExponent (rest.dropWhile isDigit)
  | '.' :: [] => false
  | rest => isExponent rest

/-- `(0|[1-9]\d*)` and what may follow. -/
def isUnsigned : List Char → Bool
  | '0' :: rest => isFraction rest
  | d :: rest => isDigit d && isFraction (rest.dropWhile isDigit)
  | [] => false

def isNumber : List Char → Bool
  | '-' :: rest => isUnsigned rest
  | text => isUnsigned text

def wordValue (text : List Char) : Option Json :=
  if text = "null".toList then some .null
  else if text = "true".toList then some (.bool true)
  else if text = "false".toList then some (.bool false)
  else if isNumber text then some (.number text)
  else none

/-! ### Tokens to a value -/

/-- An array or an object that is still open, with what it holds so far; an object that
waits for the value of a key. -/
inductive Frame where
  | array (items : List Json)
  | object (members : List (List Char × Json))
  | member (members : List (List Char × Json)) (key : List Char)

/-- What may come next. -/
inductive Expect where
  | value
  | valueOrEnd
  | key
  | keyOrEnd
  | colon
  | separator
  | finished (v : Json)

/-- A value is complete. -/
def put (v : Json) : List Frame → Option (List Frame × Expect)
  | [] => some ([], .finished v)
  | .array items :: stack => some (.array (items ++ [v]) :: stack, .separator)
  | .member members key :: stack => some (.object (members ++ [(key, v)]) :: stack, .separator)
  | .object _ :: _ => none

/-- A token where a value starts. -/
def startValue (stack : List Frame) : Token → Option (List Frame × Expect)
  | .leftBracket => some (.array [] :: stack, .valueOrEnd)
  | .leftBrace => some (.object [] :: stack, .keyOrEnd)
  | .string text => put (.string text) stack
  | .word text => do put (← wordValue text) stack
  | _ => none

/-- A token where an array or an object ends. -/
def close (stack : List Frame) : Token → Option (List Frame × Expect)
  | .rightBracket =>
    match stack with
    | .array items :: stack => put (.array items) stack
    | _ => none
  | .rightBrace =>
    match stack with
    | .object members :: stack => put (.object members) stack
    | _ => none
  | _ => none

/-- A token where a key stands. -/
def readKey (stack : List Frame) (token : Token) : Option (List Frame × Expect) :=
  match token, stack with
  | .string key, .object members :: stack => some (.member members key :: stack, .colon)
  | _, _ => none

/-- What one token does. -/
def feed (stack : List Frame) : Expect → Token → Option (List Frame × Expect)
  | .value, token => startValue stack token
  | .valueOrEnd, token =>
    if token = .rightBracket then close stack token else startValue stack token
  | .key, token => readKey stack token
  | .keyOrEnd, token => if token = .rightBrace then close stack token else readKey stack token
  | .colon, token => if token = .colon then some (stack, .value) else none
  | .separator, token =>
    if token = .comma then
      match stack with
      | .array _ :: _ => some (stack, .value)
      | .object _ :: _ => some (stack, .key)
      | _ => none
    else close stack token
  | .finished _, _ => none

def read (stack : List Frame) : Expect → List Token → Option Json
  | .finished v, [] => some v
  | _, [] => none
  | expect, token :: tokens => do
    let (stack, expect) ← feed stack expect token
    read stack expect tokens

/-- `JSON.parse`; `none` is a `SyntaxError`. -/
def parse (text : List Char) : Option Json := do read [] .value (← lex .between text)

/-! ### Writing an array of strings -/

def hexDigit (n : ℕ) : Char := Nat.digitChar n

/-- A character of a quoted string. -/
def escapeChar (c : Char) : List Char :=
  if c = '"' then ['\\', '"']
  else if c = '\\' then ['\\', '\\']
  else if c = '\x08' then ['\\', 'b']
  else if c = '\x0c' then ['\\', 'f']
  else if c = '\n' then ['\\', 'n']
  else if c = '\r' then ['\\', 'r']
  else if c = '\t' then ['\\', 't']
  else if c.toNat < 0x20 then
    ['\\', 'u', '0', '0', hexDigit (c.toNat / 16), hexDigit (c.toNat % 16)]
  else [c]

def quote (text : List Char) : List Char := '"' :: text.flatMap escapeChar ++ ['"']

/-- `JSON.stringify` of an array of strings. -/
def stringifyStrings (items : List (List Char)) : List Char :=
  '[' :: [','].intercalate (items.map quote) ++ [']']

example : stringifyStrings ["12".toList, "3".toList] = "[\"12\",\"3\"]".toList := by decide

/-! ### Reading what was written -/

theorem lex_cons (mode : Mode) (c : Char) (cs : List Char) :
    lex mode (c :: cs) = (next mode c).bind fun p => (lex p.2 cs).map (p.1 ++ ·) := by
  rw [lex]
  cases next mode c with
  | none => rfl
  | some p =>
    simp only [Option.bind_eq_bind, Option.bind_some]
    cases lex p.2 cs <;> rfl

/-- A character that only changes the mode. -/
theorem lex_silent {mode mode' : Mode} {c : Char} (h : next mode c = some ([], mode'))
    (cs : List Char) :
    lex mode (c :: cs) = lex mode' cs := by
  rw [lex_cons, h, Option.bind_some]
  exact Option.map_id' ..

/-- A character that completes one token. -/
theorem lex_token {mode mode' : Mode} {c : Char} {token : Token}
    (h : next mode c = some ([token], mode'))
    (cs : List Char) : lex mode (c :: cs) = (lex mode' cs).map (token :: ·) := by
  rw [lex_cons, h, Option.bind_some]
  rfl

theorem lex_simpleEscape (text : List Char) {c d : Char} (hu : c ≠ 'u')
    (h : simpleEscape c = some d)
    (rest : List Char) :
    lex (.string text) ('\\' :: c :: rest) = lex (.string (text ++ [d])) rest := by
  have hescape : next (.escape text) c = some ([], .string (text ++ [d])) := by
    rw [next, if_neg hu, h]
    rfl
  rw [lex_silent rfl, lex_silent hescape]

theorem hexValue_hexDigit {n : ℕ} (h : n < 16) : hexValue (hexDigit n) = some n := by
  have hall : ∀ n < 16, hexValue (hexDigit n) = some n := by decide
  exact hall n h

theorem ofCodeUnit_toNat {c : Char} (h : c.toNat < 0x20) : ofCodeUnit c.toNat = c := by
  rw [ofCodeUnit, if_neg (by omega), Char.ofNat_toNat]

theorem lex_unicodeEscape (text : List Char) {c : Char} (h : c.toNat < 0x20) (rest : List Char) :
    lex (.string text) ('\\' :: 'u' :: '0' :: '0' :: hexDigit (c.toNat / 16) ::
      hexDigit (c.toNat % 16) :: rest) =
      lex (.string (text ++ [c])) rest := by
  have hopen : next (.escape text) 'u' = some ([], .unicode text 0 4) := rfl
  have hfirst : next (.unicode text 0 4) '0' = some ([], .unicode text 0 3) := rfl
  have hsecond : next (.unicode text 0 3) '0' = some ([], .unicode text 0 2) := rfl
  have hthird : next (.unicode text 0 2) (hexDigit (c.toNat / 16)) =
      some ([], .unicode text (c.toNat / 16) 1) := by
    rw [next, hexValue_hexDigit (by omega)]
    simp
  have hfourth : next (.unicode text (c.toNat / 16) 1) (hexDigit (c.toNat % 16)) =
      some ([], .string (text ++ [c])) := by
    have hcode : 16 * (c.toNat / 16) + c.toNat % 16 = c.toNat := by omega
    rw [next, hexValue_hexDigit (by omega), Option.map_some, if_pos (by omega),
      hcode, ofCodeUnit_toNat h]
  rw [lex_silent rfl, lex_silent hopen, lex_silent hfirst, lex_silent hsecond, lex_silent hthird,
    lex_silent hfourth]

/-- An escaped character is lexed as the character. -/
theorem lex_escapeChar (text : List Char) (c : Char) (rest : List Char) :
    lex (.string text) (escapeChar c ++ rest) = lex (.string (text ++ [c])) rest := by
  unfold escapeChar
  split_ifs with h1 h2 h3 h4 h5 h6 h7 h8
  -- The seven characters with a short escape, the other control characters, the rest.
  · subst h1
    exact lex_simpleEscape text (by decide) rfl rest
  · subst h2
    exact lex_simpleEscape text (by decide) rfl rest
  · subst h3
    exact lex_simpleEscape text (by decide) rfl rest
  · subst h4
    exact lex_simpleEscape text (by decide) rfl rest
  · subst h5
    exact lex_simpleEscape text (by decide) rfl rest
  · subst h6
    exact lex_simpleEscape text (by decide) rfl rest
  · subst h7
    exact lex_simpleEscape text (by decide) rfl rest
  · exact lex_unicodeEscape text h8 rest
  · have hplain : next (.string text) c = some ([], .string (text ++ [c])) := by
      rw [next, if_neg h1, if_neg h2, if_neg h8]
    exact lex_silent hplain rest

theorem lex_text (done text rest : List Char) :
    lex (.string done) (text.flatMap escapeChar ++ rest) = lex (.string (done ++ text)) rest := by
  induction text generalizing done with
  | nil => simp
  | cons c text ih =>
    rw [List.flatMap_cons, List.append_assoc, lex_escapeChar, ih, List.append_assoc,
      List.singleton_append]

/-- A quoted string is lexed as the string. -/
theorem lex_quote (text rest : List Char) :
    lex .between (quote text ++ rest) = (lex .between rest).map (.string text :: ·) := by
  rw [quote, List.cons_append, List.cons_append, List.append_assoc, lex_silent rfl,
    lex_text, List.nil_append,
    List.singleton_append, lex_token rfl]

/-- The items after the first one, each behind a comma. -/
theorem lex_items (items : List (List Char)) :
    lex .between ((items.flatMap fun item => ',' :: quote item) ++ [']']) =
      some ((items.flatMap fun item => [.comma, .string item]) ++ [.rightBracket]) := by
  induction items with
  | nil => rfl
  | cons item items ih =>
    rw [List.flatMap_cons, List.cons_append, List.cons_append, List.append_assoc,
      lex_token rfl, lex_quote, ih]
    rfl

theorem read_items (stack : List Frame) (done : List Json) (items : List (List Char))
    (rest : List Token) :
    read (.array done :: stack)
      .separator ((items.flatMap fun item => [.comma, .string item]) ++ rest) =
      read (.array (done ++ items.map .string) :: stack) .separator rest := by
  induction items generalizing done with
  | nil => simp
  | cons item items ih =>
    rw [List.flatMap_cons, List.append_assoc]
    simp only [List.cons_append, List.nil_append, read, feed, startValue, put,
      bind, Option.bind, if_true]
    rw [ih]
    simp

theorem intercalate_quote (item : List Char) (items : List (List Char)) :
    [','].intercalate ((item :: items).map quote) = quote item ++
      items.flatMap fun item => ',' :: quote item := by
  induction items generalizing item with
  | nil => simp [List.intercalate]
  | cons next items ih =>
    rw [List.flatMap_cons, List.cons_append, ← ih next]
    simp [List.intercalate]

/-- **An array of strings** is read back as it was written. -/
theorem parse_stringifyStrings (items : List (List Char)) :
    parse (stringifyStrings items) = some (.array (items.map .string)) := by
  rw [parse, stringifyStrings]
  cases items with
  | nil => rfl
  | cons item items =>
    rw [intercalate_quote, List.cons_append, lex_token rfl, List.append_assoc, lex_quote, lex_items]
    simp only [Option.map_some, bind, Option.bind, read, feed, startValue, put,
      List.nil_append, reduceCtorEq,
      if_false]
    rw [read_items]
    simp [read, feed, close, put]

end JsonText
