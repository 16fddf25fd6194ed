/-
The values of the wire and their texts.

The server writes a value with `json.dumps` and reads one with `json.loads`, the browser
with `JSON.stringify` and `JSON.parse`.  The two agree on everything but numbers: a Python
`int` has any size where JavaScript has a double, and Python writes and reads the words
`NaN` and `Infinity`, which are not JSON.

* `Json.ofText_toText` — a value comes back with its numbers as the reader takes them;
* `decoded_of_loads` — what `json.loads` gave can be written again;
* `jsonParse_dumps`, `loads_stringify` — what one side writes, as the other side reads it.
-/
import ZoomClone.Decimals
import ZoomClone.JsonWriter
import ZoomClone.Models

namespace ZoomClone

open JsonText (isNumber numbersPass itemsPass membersPass isWord readText)

/-! ### Numbers -/

/-- The sign and the digits of a number without a fraction and an exponent. -/
def integerDigits (text : List Char) : Option (Bool × List Char) :=
  match text with
  | '-' :: digits => if digits.all Char.isDigit then some (true, digits) else none
  | digits => if digits.all Char.isDigit then some (false, digits) else none

def intOf (negative : Bool) (digits : List Char) : Int :=
  if negative then -Nat.ofDigitChars 10 digits 0 else Nat.ofDigitChars 10 digits 0

/-- All digits before the exponent are zeros. -/
def isZeroText (text : List Char) : Bool :=
  (text.takeWhile fun c => c ≠ 'e' && c ≠ 'E').all fun c => c = '-' || c = '.' || c = '0'

/-- The words that `json` has for the floats that are no numbers. -/
def nonFinite : List (String × String) :=
  [("nan", "NaN"), ("inf", "Infinity"), ("-inf", "-Infinity")]

/-- `float.__repr__` as `json.dumps` spells it. -/
def floatWord (repr : String) : List Char :=
  ((nonFinite.find? fun word => word.1 = repr).map (·.2.toList)).getD repr.toList

/-- `float` of CPython: the `repr` of the float that a number names. -/
structure PyFloat where
  repr : List Char → String
  /-- A float is spelled as a number that is no integer, unless it is none. -/
  repr_number : ∀ word, repr word ∈ nonFinite.map Prod.fst ∨
    isNumber (repr word).toList = true ∧ integerDigits (repr word).toList = none

/-- The `repr` of a float that is written as CPython writes it. -/
def plainRepr (word : List Char) : String :=
  match nonFinite.find? fun special => special.2.toList = word with
  | some special => special.1
  | none => if isNumber word ∧ integerDigits word = none then String.ofList word else "nan"

theorem plainRepr_cases (word : List Char) : plainRepr word ∈ nonFinite.map Prod.fst ∨
    isNumber (plainRepr word).toList = true ∧ integerDigits (plainRepr word).toList = none := by
  rw [plainRepr]
  split
  · next special hfind => exact .inl (List.mem_map_of_mem (List.mem_of_find?_eq_some hfind))
  · split
    · next h => exact .inr (by rwa [String.toList_ofList])
    · exact .inl (by decide)

/-- There is such a `float`: one for the words that name their own `repr`. -/
instance : Inhabited PyFloat where
  default := { repr := plainRepr, repr_number := plainRepr_cases }

/-- The digits that CPython converts to an `int` at most. -/
def maxIntDigits : ℕ := 4300

/-- `json.loads` takes three words for numbers that are none; an integer that is too long
raises a `ValueError`. -/
def isPyNumber (text : List Char) : Bool :=
  (isNumber text && (integerDigits text).all fun digits => digits.2.length ≤ maxIntDigits) ||
    (nonFinite.map fun word => word.2.toList).contains text

/-- What a number is to Python. -/
def pyNumber (float : PyFloat) (text : List Char) : Json :=
  match integerDigits text with
  | some (negative, digits) => .int (intOf negative digits)
  | none => .float (float.repr text) (isZeroText (float.repr text).toList)

/-- The integers below are doubles. -/
def maxSafeInteger : ℕ := 2 ^ 53

/-- What a number is to JavaScript; one that a double does not hold stands as it is
written. -/
def jsNumber (text : List Char) : Json :=
  match integerDigits text with
  | some (negative, digits) =>
    if (intOf negative digits).natAbs ≤ maxSafeInteger then .int (intOf negative digits)
    else .float (String.ofList text) false
  | none => .float (String.ofList text) (isZeroText text)

/-! ### Values and texts -/

namespace Json

mutual

/-- The value as it is written. -/
def toText : Json → JsonText.Json
  | .null => .null
  | .bool b => .bool b
  | .int n => .number (toString n).toList
  | .float text _ => .number (floatWord text)
  | .str s => .string s.toList
  | .arr items => .array (itemsToText items)
  | .obj fields => .object (fieldsToText fields)

def itemsToText : List Json → List JsonText.Json
  | [] => []
  | item :: items => item.toText :: itemsToText items

def fieldsToText : List (String × Json) → List (List Char × JsonText.Json)
  | [] => []
  | (key, value) :: fields => (key.toList, value.toText) :: fieldsToText fields

end

/-- A key that is repeated keeps its place and takes the last value. -/
def objectOf (members : List (String × Json)) : JsonObj :=
  (members.foldl Keyed.set (.empty : Keyed Prod.fst)).rows

section Numbers

variable (number : List Char → Json)

mutual

/-- The value of a text. -/
def ofText : JsonText.Json → Json
  | .null => .null
  | .bool b => .bool b
  | .number text => number text
  | .string text => .str (String.ofList text)
  | .array items => .arr (itemsOfText items)
  | .object members => .obj (objectOf (fieldsOfText members))

def itemsOfText : List JsonText.Json → List Json
  | [] => []
  | item :: items => ofText item :: itemsOfText items

def fieldsOfText : List (List Char × JsonText.Json) → List (String × Json)
  | [] => []
  | (key, value) :: members => (String.ofList key, ofText value) :: fieldsOfText members

end

mutual

/-- The value with its numbers taken from their texts. -/
def reread : Json → Json
  | .null => .null
  | .bool b => .bool b
  | .int n => number (toString n).toList
  | .float text _ => number (floatWord text)
  | .str s => .str s
  | .arr items => .arr (rereadItems items)
  | .obj fields => .obj (rereadFields fields)

def rereadItems : List Json → List Json
  | [] => []
  | item :: items => reread item :: rereadItems items

def rereadFields : List (String × Json) → List (String × Json)
  | [] => []
  | (key, value) :: fields => (key, reread value) :: rereadFields fields

end

end Numbers

mutual

/-- No object has a key twice, and the numbers are of the given kind. -/
def WellFormed (kind : Json → Prop) : Json → Prop
  | .null => True
  | .bool _ => True
  | .int n => kind (.int n)
  | .float text isZero => kind (.float text isZero)
  | .str _ => True
  | .arr items => ItemsWellFormed kind items
  | .obj fields => (fields.map Prod.fst).Nodup ∧ FieldsWellFormed kind fields

def ItemsWellFormed (kind : Json → Prop) : List Json → Prop
  | [] => True
  | item :: items => WellFormed kind item ∧ ItemsWellFormed kind items

def FieldsWellFormed (kind : Json → Prop) : List (String × Json) → Prop
  | [] => True
  | (_, value) :: fields => WellFormed kind value ∧ FieldsWellFormed kind fields

end

/-- The numbers of `json.loads`. -/
def IsPython (float : PyFloat) : Json → Prop
  | .float text isZero => (∃ word, text = float.repr word) ∧ isZero = isZeroText text.toList
  | _ => True

/-- An integer that is a double. -/
def IsSafe : Json → Prop
  | .int n => n.natAbs ≤ maxSafeInteger
  | _ => False

/-- What `json.loads` can give. -/
abbrev Decoded (float : PyFloat) : Json → Prop := WellFormed (IsPython float)

/-- A value whose only numbers are integers that are doubles. -/
abbrev Plain : Json → Prop := WellFormed IsSafe

/-- `JSON.parse` knows all the numbers. -/
def isFinite (v : Json) : Bool := numbersPass isNumber v.toText

end Json

/-- `json.loads`. -/
def loads (float : PyFloat) (text : List Char) : Option Json :=
  (readText isPyNumber text).map (Json.ofText (pyNumber float))

/-- `json.dumps`. -/
def dumps (v : Json) : List Char := JsonText.Style.dumps.write v.toText

/-- `JSON.parse`. -/
def jsonParse (text : List Char) : Option Json :=
  (readText isNumber text).map (Json.ofText jsNumber)

/-- `JSON.stringify`. -/
def stringify (v : Json) : List Char := JsonText.Style.compact.write v.toText

/-! ### Integers -/

theorem toList_toString_int (n : Int) :
    (toString n).toList = if n < 0 then '-' :: (toString n.natAbs).toList
      else (toString n.natAbs).toList := by
  cases n with
  | ofNat n => rfl
  | negSucc n =>
    rw [if_pos (Int.negSucc_lt_zero n)]
    show ("-" ++ toString (n + 1)).toList = _
    rw [String.toList_append]
    rfl

theorem isDigit_of_mem_toString {n : ℕ} {c : Char} (h : c ∈ (toString n).toList) : c.isDigit := by
  rw [Nat.toString_eq_repr, Nat.toList_repr] at h
  exact Nat.isDigit_of_mem_toDigits (by omega) (by omega) h

theorem integerDigits_toString (n : Int) :
    integerDigits (toString n).toList = some (decide (n < 0), (toString n.natAbs).toList) := by
  have hdigits : (toString n.natAbs).toList.all Char.isDigit = true := by
    rw [List.all_eq_true]
    exact fun c hc => isDigit_of_mem_toString hc
  rw [toList_toString_int]
  split
  · next hneg => rw [integerDigits, if_pos hdigits, decide_eq_true hneg]
  · next hpos =>
    unfold integerDigits
    split
    · next digits heq =>
      have hdash : '-'.isDigit := isDigit_of_mem_toString (heq ▸ List.mem_cons_self)
      exact absurd hdash (by decide)
    · rw [if_pos hdigits, decide_eq_false hpos]

theorem intOf_toString (n : Int) : intOf (decide (n < 0)) (toString n.natAbs).toList = n := by
  have hvalue : Nat.ofDigitChars 10 (toString n.natAbs).toList 0 = n.natAbs := by
    rw [Nat.toString_eq_repr, Nat.toList_repr, Nat.ofDigitChars_ten_toDigits]
  rw [intOf, hvalue]
  by_cases hneg : n < 0
  · simp only [hneg, decide_true, if_true]
    omega
  · simp only [hneg, decide_false, Bool.false_eq_true, if_false]
    omega

theorem isUnsigned_toString (n : ℕ) : JsonText.isUnsigned (toString n).toList := by
  have hdigits : ∀ c ∈ (toString n).toList, JsonText.isDigit c := by
    intro c hc
    have := Decimals.toNat_of_isDigit (isDigit_of_mem_toString hc)
    simpa [JsonText.isDigit] using this
  rw [Nat.toString_eq_repr, Nat.toList_repr] at hdigits ⊢
  have hvalue : Nat.ofDigitChars 10 (Nat.toDigits 10 n) 0 = n := Nat.ofDigitChars_ten_toDigits
  cases hlist : Nat.toDigits 10 n with
  | nil => exact absurd hlist Nat.toDigits_ne_nil
  | cons c rest =>
    rw [hlist] at hdigits hvalue
    obtain ⟨hc, hrest⟩ := List.forall_mem_cons.mp hdigits
    have hdrop : rest.dropWhile JsonText.isDigit = [] := by
      rw [List.dropWhile_eq_nil_iff]
      exact hrest
    unfold JsonText.isUnsigned
    split
    · next rest' heq =>
      -- a leading zero stands alone
      obtain ⟨rfl, rfl⟩ := List.cons.inj heq
      have hnil : rest = [] := by
        by_contra hne
        have hlength : 10 ^ rest.length ≤ n := by
          by_contra hlt
          have hshort :=
            (Nat.length_toDigits_le_iff (b := 10) (by omega) (List.length_pos_iff.mpr hne)).mpr
            (Nat.lt_of_not_le hlt)
          rw [hlist, List.length_cons] at hshort
          omega
        have hsmall : Nat.ofDigitChars 10 rest 0 < 10 ^ rest.length :=
          Decimals.ofDigitChars_lt fun c hc =>
          Decimals.isDigit_of_toNat (by simpa [JsonText.isDigit] using hrest c hc)
        rw [Decimals.ofDigitChars_cons_zero, show '0'.toNat - 48 = 0 from rfl,
          Nat.mul_zero, Nat.zero_add] at hvalue
        omega
      rw [hnil]
      rfl
    · next d rest' _ heq =>
      obtain ⟨rfl, rfl⟩ := List.cons.inj heq
      rw [hc, hdrop]
      rfl
    · next heq => cases heq

theorem isNumber_toString (n : Int) : isNumber (toString n).toList := by
  have hunsigned := isUnsigned_toString n.natAbs
  rw [toList_toString_int]
  split
  · exact hunsigned
  · unfold JsonText.isNumber
    split
    · next rest heq =>
      have hdash : '-'.isDigit := isDigit_of_mem_toString (heq ▸ List.mem_cons_self)
      exact absurd hdash (by decide)
    · exact hunsigned

/-! ### Values come back -/

namespace Json

theorem rows_foldl_set {members : List (String × Json)}
    {t : Keyed (Prod.fst : String × Json → String)}
    (hnodup : (members.map Prod.fst).Nodup) (hnew : ∀ m ∈ members, m.1 ∉ t.keys) :
    (members.foldl Keyed.set t).rows = t.rows ++ members := by
  induction members generalizing t with
  | nil => simp
  | cons member members ih =>
    rw [List.map_cons, List.nodup_cons] at hnodup
    obtain ⟨hmember, hmembers⟩ := List.forall_mem_cons.mp hnew
    have hset : (t.set member).rows = t.rows ++ [member] := by
      rw [Keyed.set_of_not_mem hmember]
      rfl
    rw [List.foldl_cons, ih hnodup.2, hset, List.append_assoc, List.singleton_append]
    intro m hm hkeys
    rcases Keyed.mem_keys_set.mp hkeys with hkeys | hkey
    · exact hmembers m hm hkeys
    · exact hnodup.1 (hkey ▸ List.mem_map_of_mem hm)

/-- Keys that are distinct stay as they are. -/
theorem objectOf_of_nodup {members : List (String × Json)} (h : (members.map Prod.fst).Nodup) :
    objectOf members = members :=
  rows_foldl_set h fun _ _ hkey => absurd hkey List.not_mem_nil

theorem fst_rereadFields (number : List Char → Json) (fields : List (String × Json)) :
    (rereadFields number fields).map Prod.fst = fields.map Prod.fst := by
  induction fields with
  | nil => rfl
  | cons field fields ih => rw [rereadFields, List.map_cons, List.map_cons, ih]

variable {kind : Json → Prop} {number : List Char → Json} {test : List Char → Bool}

mutual

/-- **A value comes back** with its numbers as the reader takes them. -/
theorem ofText_toText (v : Json) (hv : v.WellFormed kind) :
    ofText number v.toText = v.reread number := by
  cases v with
  | str s => rw [toText, ofText, reread, String.ofList_toList]
  | arr items =>
    rw [WellFormed] at hv
    rw [toText, ofText, reread, itemsOfText_itemsToText items hv]
  | obj fields =>
    rw [WellFormed] at hv
    rw [toText, ofText, reread, fieldsOfText_fieldsToText fields hv.2, objectOf_of_nodup]
    rw [fst_rereadFields]
    exact hv.1
  | _ => rfl

theorem itemsOfText_itemsToText (items : List Json) (h : ItemsWellFormed kind items) :
    itemsOfText number (itemsToText items) = rereadItems number items := by
  cases items with
  | nil => rfl
  | cons item items =>
    rw [ItemsWellFormed] at h
    rw [itemsToText, itemsOfText, rereadItems, ofText_toText item h.1,
      itemsOfText_itemsToText items h.2]

theorem fieldsOfText_fieldsToText (fields : List (String × Json))
    (h : FieldsWellFormed kind fields) :
    fieldsOfText number (fieldsToText fields) = rereadFields number fields := by
  cases fields with
  | nil => rfl
  | cons field fields =>
    obtain ⟨key, value⟩ := field
    rw [FieldsWellFormed] at h
    rw [fieldsToText, fieldsOfText, rereadFields, ofText_toText value h.1,
      fieldsOfText_fieldsToText fields h.2,
      String.ofList_toList]

end

mutual

/-- The texts of the numbers pass a test that all numbers of the kind pass. -/
theorem numbersPass_toText (hint : ∀ n, kind (.int n) → test (toString n).toList)
    (hfloat : ∀ text isZero, kind (.float text isZero) → test (floatWord text)) (v : Json)
    (hv : v.WellFormed kind) : numbersPass test v.toText := by
  cases v with
  | int n =>
    rw [WellFormed] at hv
    rw [toText, numbersPass]
    exact hint n hv
  | float text isZero =>
    rw [WellFormed] at hv
    rw [toText, numbersPass]
    exact hfloat text isZero hv
  | arr items =>
    rw [WellFormed] at hv
    rw [toText, numbersPass]
    exact itemsPass_itemsToText hint hfloat items hv
  | obj fields =>
    rw [WellFormed] at hv
    rw [toText, numbersPass]
    exact membersPass_fieldsToText hint hfloat fields hv.2
  | _ => rfl

theorem itemsPass_itemsToText (hint : ∀ n, kind (.int n) → test (toString n).toList)
    (hfloat : ∀ text isZero, kind (.float text isZero) → test (floatWord text)) (items : List Json)
    (h : ItemsWellFormed kind items) : itemsPass test (itemsToText items) := by
  cases items with
  | nil => rfl
  | cons item items =>
    rw [ItemsWellFormed] at h
    rw [itemsToText, itemsPass, numbersPass_toText hint hfloat item h.1,
      itemsPass_itemsToText hint hfloat items h.2]
    rfl

theorem membersPass_fieldsToText (hint : ∀ n, kind (.int n) → test (toString n).toList)
    (hfloat : ∀ text isZero, kind (.float text isZero) → test (floatWord text))
    (fields : List (String × Json))
    (h : FieldsWellFormed kind fields) : membersPass test (fieldsToText fields) := by
  cases fields with
  | nil => rfl
  | cons field fields =>
    obtain ⟨key, value⟩ := field
    rw [FieldsWellFormed] at h
    rw [fieldsToText, membersPass, numbersPass_toText hint hfloat value h.1,
      membersPass_fieldsToText hint hfloat fields h.2]
    rfl

end

mutual

/-- A value whose numbers the reader takes as they are comes back as it was. -/
theorem reread_eq_self (hint : ∀ n, kind (.int n) → number (toString n).toList = .int n)
    (hfloat : ∀ text isZero, kind (.float text isZero) →
      number (floatWord text) = .float text isZero) (v : Json)
    (hv : v.WellFormed kind) : v.reread number = v := by
  cases v with
  | int n =>
    rw [WellFormed] at hv
    exact hint n hv
  | float text isZero =>
    rw [WellFormed] at hv
    exact hfloat text isZero hv
  | arr items =>
    rw [WellFormed] at hv
    rw [reread, rereadItems_eq_self hint hfloat items hv]
  | obj fields =>
    rw [WellFormed] at hv
    rw [reread, rereadFields_eq_self hint hfloat fields hv.2]
  | _ => rfl

theorem rereadItems_eq_self (hint : ∀ n, kind (.int n) → number (toString n).toList = .int n)
    (hfloat : ∀ text isZero, kind (.float text isZero) →
      number (floatWord text) = .float text isZero)
    (items : List Json) (h : ItemsWellFormed kind items) : rereadItems number items = items := by
  cases items with
  | nil => rfl
  | cons item items =>
    rw [ItemsWellFormed] at h
    rw [rereadItems, reread_eq_self hint hfloat item h.1, rereadItems_eq_self hint hfloat items h.2]

theorem rereadFields_eq_self (hint : ∀ n, kind (.int n) → number (toString n).toList = .int n)
    (hfloat : ∀ text isZero, kind (.float text isZero) →
      number (floatWord text) = .float text isZero)
    (fields : List (String × Json)) (h : FieldsWellFormed kind fields) :
    rereadFields number fields = fields := by
  cases fields with
  | nil => rfl
  | cons field fields =>
    obtain ⟨key, value⟩ := field
    rw [FieldsWellFormed] at h
    rw [rereadFields, reread_eq_self hint hfloat value h.1,
      rereadFields_eq_self hint hfloat fields h.2]

end

mutual

/-- Numbers of one kind that are of another. -/
theorem WellFormed.mono {kind' : Json → Prop} (hkind : ∀ v, kind v → kind' v) (v : Json)
    (hv : v.WellFormed kind) :
    v.WellFormed kind' := by
  cases v with
  | int n =>
    rw [WellFormed] at hv ⊢
    exact hkind _ hv
  | float text isZero =>
    rw [WellFormed] at hv ⊢
    exact hkind _ hv
  | arr items =>
    rw [WellFormed] at hv ⊢
    exact ItemsWellFormed.mono hkind items hv
  | obj fields =>
    rw [WellFormed] at hv ⊢
    exact ⟨hv.1, FieldsWellFormed.mono hkind fields hv.2⟩
  | _ => trivial

theorem ItemsWellFormed.mono {kind' : Json → Prop} (hkind : ∀ v, kind v → kind' v)
    (items : List Json)
    (h : ItemsWellFormed kind items) : ItemsWellFormed kind' items := by
  cases items with
  | nil => trivial
  | cons item items =>
    rw [ItemsWellFormed] at h ⊢
    exact ⟨WellFormed.mono hkind item h.1, ItemsWellFormed.mono hkind items h.2⟩

theorem FieldsWellFormed.mono {kind' : Json → Prop} (hkind : ∀ v, kind v → kind' v)
    (fields : List (String × Json))
    (h : FieldsWellFormed kind fields) : FieldsWellFormed kind' fields := by
  cases fields with
  | nil => trivial
  | cons field fields =>
    obtain ⟨key, value⟩ := field
    rw [FieldsWellFormed] at h ⊢
    exact ⟨WellFormed.mono hkind value h.1, FieldsWellFormed.mono hkind fields h.2⟩

end

/-- Safe integers are numbers of Python. -/
theorem Plain.decoded {float : PyFloat} {v : Json} (h : v.Plain) : v.Decoded float := by
  refine WellFormed.mono ?_ v h
  intro v hv
  cases v with
  | float text isZero => exact hv.elim
  | _ => trivial

theorem fieldsWellFormed_iff {fields : List (String × Json)} :
    FieldsWellFormed kind fields ↔ ∀ field ∈ fields, field.2.WellFormed kind := by
  induction fields with
  | nil => simp [FieldsWellFormed]
  | cons field fields ih => rw [FieldsWellFormed, List.forall_mem_cons, ih]

/-- The values of an object are well formed. -/
theorem WellFormed.get {fields : JsonObj} (h : (Json.obj fields).WellFormed kind) (key : String) :
    (Json.get fields key).WellFormed kind := by
  rw [WellFormed, fieldsWellFormed_iff] at h
  rw [Json.get]
  cases hfind : fields.find? fun field => field.1 = key with
  | none => trivial
  | some field => exact h.2 field (List.mem_of_find?_eq_some hfind)

/-- Taking fields out leaves an object well formed. -/
theorem WellFormed.filter {fields : JsonObj} (h : (Json.obj fields).WellFormed kind)
    (p : String × Json → Bool) :
    (Json.obj (fields.filter p)).WellFormed kind := by
  rw [WellFormed, fieldsWellFormed_iff] at h ⊢
  exact ⟨h.1.sublist (List.filter_sublist.map Prod.fst),
    fun field hfield => h.2 field (List.mem_filter.mp hfield).1⟩

theorem wellFormed_objectOf {members : List (String × Json)} (h : FieldsWellFormed kind members) :
    WellFormed kind (.obj (objectOf members)) := by
  rw [WellFormed, fieldsWellFormed_iff]
  refine ⟨(members.foldl Keyed.set .empty).nodup, ?_⟩
  rw [fieldsWellFormed_iff] at h
  have hall : ∀ t : Keyed (Prod.fst : String × Json → String),
    (∀ field ∈ t, field.2.WellFormed kind) →
      ∀ field ∈ members.foldl Keyed.set t, field.2.WellFormed kind := by
    induction members with
    | nil => exact fun t ht => ht
    | cons member members ih =>
      obtain ⟨hmember, hmembers⟩ := List.forall_mem_cons.mp h
      intro t ht
      refine ih hmembers (t.set member) ?_
      intro field hfield
      rcases Keyed.mem_set.mp hfield with rfl | ⟨hfield, -⟩
      · exact hmember
      · exact ht field hfield
  exact hall .empty fun field hfield => absurd hfield (Keyed.not_mem_empty field)

mutual

/-- Whatever is read is well formed. -/
theorem wellFormed_ofText (hnumber : ∀ text, (number text).WellFormed kind) (t : JsonText.Json) :
    (ofText number t).WellFormed kind := by
  cases t with
  | number text => exact hnumber text
  | array items =>
    rw [ofText, WellFormed]
    exact itemsWellFormed_itemsOfText hnumber items
  | object members =>
    rw [ofText]
    exact wellFormed_objectOf (fieldsWellFormed_fieldsOfText hnumber members)
  | _ => trivial

theorem itemsWellFormed_itemsOfText (hnumber : ∀ text, (number text).WellFormed kind)
    (items : List JsonText.Json) : ItemsWellFormed kind (itemsOfText number items) := by
  cases items with
  | nil => trivial
  | cons item items =>
    rw [itemsOfText, ItemsWellFormed]
    exact ⟨wellFormed_ofText hnumber item, itemsWellFormed_itemsOfText hnumber items⟩

theorem fieldsWellFormed_fieldsOfText (hnumber : ∀ text, (number text).WellFormed kind)
    (members : List (List Char × JsonText.Json)) :
    FieldsWellFormed kind (fieldsOfText number members) := by
  cases members with
  | nil => trivial
  | cons member members =>
    obtain ⟨key, value⟩ := member
    rw [fieldsOfText, FieldsWellFormed]
    exact ⟨wellFormed_ofText hnumber value, fieldsWellFormed_fieldsOfText hnumber members⟩

end

end Json

/-! ### From one side to the other -/

theorem isWord_toString (n : Int) : isWord (toString n).toList :=
  JsonText.isWord_of_isNumber (isNumber_toString n)

/-- A `repr` that is a number is written as it is. -/
theorem floatWord_of_isNumber {repr : String} (h : isNumber repr.toList = true) :
    floatWord repr = repr.toList := by
  have hnone : nonFinite.find? (fun special => special.1 = repr) = none := by
    rw [List.find?_eq_none]
    intro special hspecial heq
    have hno : ∀ special ∈ nonFinite, isNumber special.1.toList = false := by decide
    rw [← of_decide_eq_true heq, hno special hspecial] at h
    exact absurd h (by decide)
  rw [floatWord, hnone]
  rfl

/-- What `json.dumps` writes for a float is a word. -/
theorem isWord_floatWord (float : PyFloat) (word : List Char) :
    isWord (floatWord (float.repr word)) := by
  rcases float.repr_number word with hspecial | ⟨hnumber, -⟩
  · have hall : ∀ repr ∈ nonFinite.map Prod.fst, isWord (floatWord repr) := by decide
    exact hall _ hspecial
  · rw [floatWord_of_isNumber hnumber]
    exact JsonText.isWord_of_isNumber hnumber

theorem decoded_of_loads {float : PyFloat} {text : List Char} {v : Json}
    (h : loads float text = some v) :
    v.Decoded float := by
  obtain ⟨t, -, rfl⟩ := Option.map_eq_some_iff.mp h
  refine Json.wellFormed_ofText ?_ t
  intro text
  rw [pyNumber]
  cases integerDigits text with
  | none => exact ⟨⟨text, rfl⟩, rfl⟩
  | some digits => trivial

/-- **What Python writes** JavaScript reads, with the numbers as doubles; it refuses the
text if there is a word in it that is no number. -/
theorem jsonParse_dumps {float : PyFloat} {v : Json} (hv : v.Decoded float) :
    jsonParse (dumps v) = if v.isFinite then some (v.reread jsNumber) else none := by
  have hwords : numbersPass isWord v.toText := by
    refine Json.numbersPass_toText (fun n _ => isWord_toString n) ?_ v hv
    rintro text isZero ⟨⟨word, rfl⟩, -⟩
    exact isWord_floatWord float word
  rw [jsonParse, dumps, JsonText.readText_write _ hwords, Json.isFinite]
  cases numbersPass isNumber v.toText with
  | false => rfl
  | true => exact congrArg some (Json.ofText_toText v hv)

theorem isPyNumber_toString {n : Int} (h : n.natAbs ≤ maxSafeInteger) :
    isPyNumber (toString n).toList := by
  have hlt : n.natAbs < 10 ^ maxIntDigits :=
    Nat.lt_of_le_of_lt h (Nat.lt_of_lt_of_le (show maxSafeInteger < 10 ^ 16 by decide)
      (Nat.pow_le_pow_right (by omega) (by decide)))
  have hlength : (toString n.natAbs).toList.length ≤ maxIntDigits := by
    rw [Nat.toString_eq_repr, Nat.toList_repr]
    exact (Nat.length_toDigits_le_iff (by omega) (by decide)).mpr hlt
  rw [isPyNumber, isNumber_toString, integerDigits_toString,
    Option.all_some, decide_eq_true hlength]
  rfl

theorem pyNumber_toString (float : PyFloat) (n : Int) :
    pyNumber float (toString n).toList = .int n := by
  rw [pyNumber, integerDigits_toString]
  exact congrArg Json.int (intOf_toString n)

theorem jsNumber_toString {n : Int} (h : n.natAbs ≤ maxSafeInteger) :
    jsNumber (toString n).toList = .int n := by
  rw [jsNumber, integerDigits_toString]
  simp only [intOf_toString, if_pos h]

/-- **What JavaScript writes** Python reads as it was. -/
theorem loads_stringify (float : PyFloat) {v : Json} (hv : v.Plain) :
    loads float (stringify v) = some v := by
  have hwords : numbersPass isWord v.toText :=
    Json.numbersPass_toText (fun n _ => isWord_toString n) (fun _ _ h => h.elim) v hv
  have hnumbers : numbersPass isPyNumber v.toText :=
    Json.numbersPass_toText (fun n h => isPyNumber_toString h) (fun _ _ h => h.elim) v hv
  have hself : v.reread (pyNumber float) = v :=
    Json.reread_eq_self (fun n _ => pyNumber_toString float n) (fun _ _ h => h.elim) v hv
  rw [loads, stringify, JsonText.readText_write _ hwords, hnumbers, if_pos rfl, Option.map_some,
    Json.ofText_toText v hv, hself]

end ZoomClone
