import QueryTypes.Decimal.Shortest
import QueryTypes.Json.Basic
import QueryTypes.Text.SingleQuoted
import QueryTypes.Yaml.Tag

/-!
# Values of YAML texts

Values are single ones, such as truth values, numbers, texts, bytes and times, or lists, sets
and mappings of values. Keys of mappings are single values; of several entries for one key
the last counts, at the place of the first. Since a node may be part of itself, values are
only unfolded so far: what lies deeper is left out.
-/

namespace QueryTypes

namespace Yaml

/-- A value. -/
inductive Value where
  /-- The null value. -/
  | null
  /-- A truth value. -/
  | bool (value : Bool)
  /-- A whole number. -/
  | int (value : Int)
  /-- Any other number. -/
  | float (value : Float)
  /-- What is no number. There is one in the usual form; any other way to write it stands for
  one of its own at each place. -/
  | nan (place : Option Nat)
  /-- A text. -/
  | text (value : String)
  /-- Some bytes. -/
  | bytes (value : List UInt8)
  /-- A date or time. -/
  | time (value : Time)
  /-- Values in order. -/
  | list (items : List Value)
  /-- Different values in no particular order. -/
  | set (items : List Value)
  /-- Different keys with their values. -/
  | mapping (entries : List (Value × Value))
  /-- A list, set or mapping that lies too deep to be unfolded. -/
  | folded
  deriving Inhabited

namespace Value

/-! ### Bytes -/

/-- The value of a character in base sixty-four. -/
def sixtyFourth? (c : Char) : Option Nat :=
  if 'A' ≤ c ∧ c ≤ 'Z' then some (c.toNat - 65)
  else if 'a' ≤ c ∧ c ≤ 'z' then some (c.toNat - 71)
  else if '0' ≤ c ∧ c ≤ '9' then some (c.toNat + 4)
  else if c = '+' then some 62
  else if c = '/' then some 63
  else none

/-- The digits in base sixty-four that count: other characters are passed over, and the
text ends where an equals sign completes a group of four. The first argument is how many
digits of the group there are, the second how many equals signs in a row. -/
def sixtyFourths : Nat → Nat → List Char → List Nat
  | _, _, [] => []
  | digits, signs, c :: rest =>
    if c = '=' then
      if 2 ≤ digits ∧ 4 ≤ digits + signs + 1 then []
      else sixtyFourths digits (if 2 ≤ digits then signs + 1 else signs) rest
    else match sixtyFourth? c with
      | none => sixtyFourths digits signs rest
      | some n => n :: sixtyFourths ((digits + 1) % 4) 0 rest

/-- How many digits the last group has when its text ends, if the text ends well. -/
def endsWell : Nat → Nat → List Char → Bool
  | digits, _, [] => digits = 0
  | digits, signs, c :: rest =>
    if c = '=' then
      if 2 ≤ digits ∧ 4 ≤ digits + signs + 1 then true
      else endsWell digits (if 2 ≤ digits then signs + 1 else signs) rest
    else match sixtyFourth? c with
      | none => endsWell digits signs rest
      | some _ => endsWell ((digits + 1) % 4) 0 rest

/-- The bytes of some digits in base sixty-four. -/
def bytesOf : List Nat → List UInt8
  | a :: b :: c :: d :: rest =>
    UInt8.ofNat (a * 4 + b / 16) :: UInt8.ofNat (b % 16 * 16 + c / 4) ::
      UInt8.ofNat (c % 4 * 64 + d) :: bytesOf rest
  | [a, b, c] => [UInt8.ofNat (a * 4 + b / 16), UInt8.ofNat (b % 16 * 16 + c / 4)]
  | [a, b] => [UInt8.ofNat (a * 4 + b / 16)]
  | _ => []

/-- The bytes that a text writes in base sixty-four. -/
def bytes? (text : List Char) : Option (List UInt8) :=
  if text.all (fun c => c.toNat < 128) && endsWell 0 0 text then
    some (bytesOf (sixtyFourths 0 0 text))
  else none

/-! ### Single values -/

/-- A number with a point, written at some place. -/
def ofFloat (place : Nat) (text : List Char) : Except Fault Value := do
  let x ← Number.float text
  return if x.isNaN then nan (if Number.isUsualNan text then none else some place) else float x

/-- What the text of a scalar stands for, written at some place. -/
def ofText (tag : Tag) (place : Nat) (written : String) : Except Fault Value :=
  match tag with
  | .null => .ok null
  | .bool => match Keyed.lookup written.toLower Tag.truthWords with
    | some b => .ok (bool b)
    | none => .error .notTruth
  | .int => (Number.whole written.toList).map int
  | .float => ofFloat place written.toList
  | .time => (Time.ofText written.toList).map time
  | .text => .ok (text written)
  | .binary => (orMalformed (bytes? written.toList)).map bytes
  | _ => .error .malformed

/-! ### Keys -/

/-- The whole number that a value counts as. -/
def asWhole? : Value → Option Int
  | bool b => some (if b then 1 else 0)
  | int n => some n
  | float x => (Decimal.Binary.ofFloat x).toInt?
  | _ => none

/-- Whether two values are the same key. Numbers are compared by what they count as. -/
def sameKey (a b : Value) : Bool :=
  match a, b with
  | null, null => true
  | nan s, nan t => s = t
  | text s, text t => s = t
  | bytes s, bytes t => s = t
  | time s, time t => s.same t
  | float x, float y => x == y
  | _, _ => match a.asWhole?, b.asWhole? with
    | some m, some n => m = n
    | _, _ => false

/-- Puts an entry in: at the place of its key if that is there already. -/
def insertEntry (key value : Value) : List (Value × Value) → List (Value × Value)
  | [] => [(key, value)]
  | (other, old) :: rest =>
    if sameKey other key then (other, value) :: rest
    else (other, old) :: insertEntry key value rest

/-- Entries of which the last of each key counts, at the place of the first. -/
def collect (entries : List (Value × Value)) : List (Value × Value) :=
  entries.foldl (fun found (key, value) => insertEntry key value found) []

/-! ### JSON -/

mutual

/-- The value that a JSON value is. -/
def ofJson : Json → Value
  | .null => null
  | .bool b => bool b
  | .int n => int n
  | .float x => float x
  | .string s => text s
  | .array items => list (ofJsonItems items)
  | .object members => mapping (ofJsonMembers members)

/-- The values that some JSON values are. -/
def ofJsonItems : List Json → List Value
  | [] => []
  | item :: rest => ofJson item :: ofJsonItems rest

/-- The entries that the members of a JSON object are. -/
def ofJsonMembers : List (String × Json) → List (Value × Value)
  | [] => []
  | (name, value) :: rest => (text name, ofJson value) :: ofJsonMembers rest

end

/-! ### In messages -/

/-- How one byte stands between the given quotes. -/
def quotedByte (quote : Char) (b : UInt8) : List Char :=
  if b.toNat < 0x7F then Text.quotedNameChar quote (Char.ofNat b.toNat)
  else '\\' :: 'x' :: Text.hexDigits 2 b.toNat

/-- Bytes as a message shows them: between quotes like a name, with everything escaped that is
not ASCII. -/
def describeBytes (bytes : List UInt8) : String :=
  let quote := Text.quoteFor (bytes.map fun b => Char.ofNat b.toNat)
  String.ofList ('b' :: quote :: (bytes.flatMap (quotedByte quote) ++ [quote]))

/-- A whole number as a message shows it, if it has not too many digits. -/
def describeInt (n : Int) : String :=
  if (toString n.natAbs).length ≤ Decimal.maxDigits then toString n
  else "<unprintable int object>"

/-- A key as a message shows it; truth values are shown as numbers. -/
def describeKey : Value → String
  | text s => s
  | null => "None"
  | bool b => if b then "1" else "0"
  | int n => describeInt n
  | float x => Decimal.floatText x
  | nan _ => "nan"
  | bytes b => describeBytes b
  | time t => t.describe
  | _ => ""

end Value

end Yaml

end QueryTypes
