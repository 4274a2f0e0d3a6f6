import QueryTypes.Json.Basic
import QueryTypes.Decimal.Reading
import QueryTypes.Text.Quoted

/-!
# Reading JSON

A reader of JSON texts. It accepts the three words for the numbers that JSON
cannot write (`NaN`, `Infinity`, `-Infinity`), refuses control characters inside
strings and whole numbers of very many digits, and keeps the last of two members of
one name, at the place of the first. Each step takes a value off the front of the
text and returns the rest; the depth of nesting is bounded by the length of the text.
-/

namespace QueryTypes

namespace Json

/-- Why a text is read no further. -/
inductive Fault where
  /-- The text is not in the grammar. -/
  | malformed
  /-- A whole number has more digits than are read. -/
  | tooManyDigits
  deriving DecidableEq

/-- What was read, or the fault that the text is not in the grammar. -/
def orMalformed {α : Type} : Option α → Except Fault α
  | some a => .ok a
  | none => .error .malformed

/-- The text without the blanks it begins with. -/
def skipBlanks : List Char → List Char
  | [] => []
  | c :: rest =>
    if c = ' ' ∨ c = '\t' ∨ c = '\n' ∨ c = '\r' then skipBlanks rest else c :: rest

/-! ### Strings -/

/-- The UTF-16 unit written by the first four characters. -/
def readUnit? : List Char → Option (Nat × List Char)
  | a :: b :: c :: d :: rest => (Text.hexNumber? 0 [a, b, c, d]).map fun n => (n, rest)
  | _ => none

/-- The character after `\u`: one unit, or a surrogate pair of two. -/
def readEscapedUnits? (text : List Char) : Option (Char × List Char) :=
  match readUnit? text with
  | none => none
  | some (unit, rest) =>
    if Text.isHighSurrogate unit then
      match rest with
      | '\\' :: 'u' :: more => match readUnit? more with
        | some (low, rest') =>
          if Text.isLowSurrogate low then some (Text.ofSurrogates unit low, rest') else none
        | none => none
      | _ => none
    else if Text.isLowSurrogate unit then none
    else some (Char.ofNat unit, rest)

/-- The character that a one-letter escape stands for. -/
def simpleEscape? (c : Char) : Option Char :=
  if c = '"' then some '"'
  else if c = '\\' then some '\\'
  else if c = '/' then some '/'
  else if c = 'b' then some '\x08'
  else if c = 'f' then some '\x0c'
  else if c = 'n' then some '\n'
  else if c = 'r' then some '\r'
  else if c = 't' then some '\t'
  else none

/-- The characters up to the closing quote, and what follows it. -/
def readString? : Nat → List Char → Option (List Char × List Char)
  | 0, _ => none
  | fuel + 1, text => match text with
    | [] => none
    | '"' :: rest => some ([], rest)
    | '\\' :: 'u' :: rest => match readEscapedUnits? rest with
      | none => none
      | some (c, rest') => (readString? fuel rest').map fun (cs, r) => (c :: cs, r)
    | '\\' :: e :: rest => match simpleEscape? e with
      | none => none
      | some c => (readString? fuel rest).map fun (cs, r) => (c :: cs, r)
    | c :: rest =>
      if c.toNat < 32 ∨ c = '\\' then none
      else (readString? fuel rest).map fun (cs, r) => (c :: cs, r)

/-! ### Numbers -/

/-- The digits after a decimal point, if there are any. -/
def readFraction (text : List Char) : Option (List Char) × List Char :=
  match text with
  | '.' :: rest =>
    let (digits, rest') := Decimal.spanDigits rest
    if digits.isEmpty then (none, text) else (some digits, rest')
  | _ => (none, text)

/-- The exponent, if there is one. -/
def readExponent (text : List Char) : Option Int × List Char :=
  match text with
  | e :: rest =>
    if e = 'e' ∨ e = 'E' then
      let (negative, unsigned) : Bool × List Char := match rest with
        | '-' :: r => (true, r)
        | '+' :: r => (false, r)
        | r => (false, r)
      let (digits, rest') := Decimal.spanDigits unsigned
      if digits.isEmpty then (none, text)
      else
        let n : Int := Decimal.toNat digits
        (some (if negative then -n else n), rest')
    else (none, text)
  | [] => (none, [])

/-- The number at the front of the text; a leading zero stands alone. -/
def readNumber (text : List Char) : Except Fault (Json × List Char) :=
  let (negative, unsigned) : Bool × List Char := match text with
    | '-' :: rest => (true, rest)
    | _ => (false, text)
  let (whole, rest) : List Char × List Char := match unsigned with
    | '0' :: r => (['0'], r)
    | _ => Decimal.spanDigits unsigned
  if whole.isEmpty then .error .malformed
  else
    let (fraction, rest) := readFraction rest
    let (exponent, rest) := readExponent rest
    if fraction.isNone && exponent.isNone then
      if Decimal.maxDigits < whole.length then .error .tooManyDigits
      else
        let n : Int := Decimal.toNat whole
        .ok (int (if negative then -n else n), rest)
    else
      let places := fraction.getD []
      let x := Decimal.toFloat (Decimal.toNat (whole ++ places))
        (exponent.getD 0 - (places.length : Int))
      .ok (float (if negative then -x else x), rest)

/-! ### Values -/

/-- The words for special values. -/
def words : List (List Char × Json) :=
  [(['n', 'u', 'l', 'l'], null), (['t', 'r', 'u', 'e'], bool true),
   (['f', 'a', 'l', 's', 'e'], bool false), (['N', 'a', 'N'], float (0.0 / 0.0)),
   (['I', 'n', 'f', 'i', 'n', 'i', 't', 'y'], float (1.0 / 0.0)),
   (['-', 'I', 'n', 'f', 'i', 'n', 'i', 't', 'y'], float (-1.0 / 0.0))]

/-- The special value whose word the text begins with. -/
def readWord? (text : List Char) : Option (Json × List Char) :=
  words.findSome? fun (word, value) =>
    (Text.dropStart? word text).map fun rest => (value, rest)

/-- The string behind its opening quote, given enough steps. -/
def readText (fuel : Nat) (text : List Char) : Except Fault (String × List Char) :=
  (orMalformed (readString? fuel text)).map fun (cs, rest) =>
    (String.ofList cs, rest)

mutual

/-- The value at the front of the text. -/
def readValue : Nat → List Char → Except Fault (Json × List Char)
  | 0, _ => .error .malformed
  | fuel + 1, text => match text with
    | '"' :: rest => (readText fuel rest).map fun (s, r) => (string s, r)
    | '[' :: rest => match skipBlanks rest with
      | ']' :: r => .ok (array [], r)
      | r => (readItems fuel r).map fun (items, r') => (array items, r')
    | '\x7b' :: rest => match skipBlanks rest with
      | '\x7d' :: r => .ok (object [], r)
      | r => (readMembers fuel [] r).map fun (members, r') => (object members, r')
    | _ => match readWord? text with
      | some result => .ok result
      | none => readNumber text

/-- The items of a list up to its closing bracket. -/
def readItems : Nat → List Char → Except Fault (List Json × List Char)
  | 0, _ => .error .malformed
  | fuel + 1, text => do
    let (item, rest) ← readValue fuel text
    match skipBlanks rest with
    | ']' :: r => return ([item], r)
    | ',' :: r =>
      let (items, r') ← readItems fuel (skipBlanks r)
      return (item :: items, r')
    | _ => .error .malformed

/-- The members of an object up to its closing brace, added to those read before. -/
def readMembers : Nat → List (String × Json) → List Char →
    Except Fault (List (String × Json) × List Char)
  | 0, _, _ => .error .malformed
  | fuel + 1, members, text => match text with
    | '"' :: rest => do
      let (key, rest) ← readText fuel rest
      match skipBlanks rest with
      | ':' :: r =>
        let (value, r) ← readValue fuel (skipBlanks r)
        let found := Keyed.insert key value members
        match skipBlanks r with
        | '\x7d' :: r' => return (found, r')
        | ',' :: r' => readMembers fuel found (skipBlanks r')
        | _ => .error .malformed
      | _ => .error .malformed
    | _ => .error .malformed

end

/-- The value that a whole text stands for. -/
def read (text : String) : Except Fault Json := do
  let chars := text.toList
  let (value, rest) ← readValue (2 * chars.length + 2) (skipBlanks chars)
  if (skipBlanks rest).isEmpty then return value else .error .malformed

end Json

end QueryTypes
