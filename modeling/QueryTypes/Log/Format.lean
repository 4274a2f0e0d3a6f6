import QueryTypes.Decimal.Reading
import QueryTypes.Decimal.Scientific
import QueryTypes.Json.Basic
import QueryTypes.Log
import QueryTypes.Text.SingleQuoted

/-!
# Messages with arguments

The message of a record may have arguments, which are put in at its percent signs. A letter
behind the sign says how: as text, as a whole number in base ten, sixteen or eight, as a
number with places or with an exponent, or as one character. Between the two may stand flags,
a width and a precision; the last two may be arguments themselves. Two percent signs in a row
are one that is meant. A message without arguments is taken as it is.

Arguments are taken in turn, and none may be left over. If the only argument is an object
that is not empty, its members may be called by their names instead.
-/

namespace QueryTypes

namespace Log

/-! ### Values as text -/

mutual

/-- A value as it is shown inside others: texts between quotes. -/
def shown : Json → String
  | .null => "None"
  | .bool b => if b then "True" else "False"
  | .int n => toString n
  | .float x => Decimal.floatText x
  | .string s => Text.quotedName s
  | .array items => "[" ++ Text.join ", " (shownItems items) ++ "]"
  | .object members => "\x7b" ++ Text.join ", " (shownMembers members) ++ "\x7d"

/-- Some values as they are shown inside others. -/
def shownItems : List Json → List String
  | [] => []
  | item :: rest => shown item :: shownItems rest

/-- Some members as they are shown. -/
def shownMembers : List (String × Json) → List String
  | [] => []
  | (name, value) :: rest => (Text.quotedName name ++ ": " ++ shown value) :: shownMembers rest

end

/-- A value as text: a text is itself. -/
def plainText : Json → String
  | .string s => s
  | value => shown value

/-- A character as it is shown within ASCII. -/
def asciiChar (c : Char) : List Char :=
  if c.toNat < 0x80 then [c]
  else if c.toNat < 0x100 then '\\' :: 'x' :: Text.hexDigits 2 c.toNat
  else if c.toNat < 0x10000 then '\\' :: 'u' :: Text.hexDigits 4 c.toNat
  else '\\' :: 'U' :: Text.hexDigits 8 c.toNat

/-- A value as it is shown within ASCII. -/
def shownAscii (value : Json) : String :=
  String.ofList ((shown value).toList.flatMap asciiChar)

/-! ### Arguments -/

/-- The arguments that are left. -/
structure Arguments where
  /-- The values that are taken in turn. -/
  values : List Json
  /-- The values that can be called by name, if any can. -/
  named : Option (List (String × Json)) := none

namespace Arguments

/-- The arguments of a message. -/
def ofList : List Json → Arguments
  | [.object (member :: rest)] => ⟨[.object (member :: rest)], some (member :: rest)⟩
  | values => ⟨values, none⟩

/-- The next value, and what is left. -/
def next? (a : Arguments) : Option (Json × Arguments) :=
  match a.values with
  | [] => none
  | value :: rest => some (value, { a with values := rest })

/-- The arguments from a named value on, which is then the only one to be taken. -/
def call? (a : Arguments) (name : String) : Option Arguments :=
  a.named.bind fun members => (Keyed.lookup name members).map fun value =>
    { a with values := [value] }

/-- Whether nothing is left over. Of values that can be called by name not all have to be. -/
def areUsed (a : Arguments) : Bool := a.named.isSome || a.values.isEmpty

end Arguments

/-- The whole number that a value is. -/
def wholeOf? : Json → Option Int
  | .int n => some n
  | .bool b => some (if b then 1 else 0)
  | _ => none

/-- The double that a value is or is rounded to, which has to be finite then. -/
def doubleOf? (value : Json) : Option Decimal.Binary :=
  match value with
  | .float x => some (.ofFloat x)
  | other => (wholeOf? other).bind fun n =>
    let b : Decimal.Binary := .ofFloat (Decimal.ofInt n)
    if b.isFinite then some b else none

/-- The one character that a value is. -/
def characterOf? (value : Json) : Option Char :=
  match value with
  | .string s => match s.toList with
    | [c] => some c
    | _ => none
  | other => (wholeOf? other).bind fun n =>
    if 0 ≤ n ∧ n < 0x110000 then some (Char.ofNat n.toNat) else none

/-! ### Placeholders -/

/-- What stands behind a percent sign. -/
structure Placeholder where
  /-- The flags, in any order. -/
  flags : List Char
  /-- The least number of characters. -/
  width : Nat
  /-- The most characters of a text, the least digits of a number, or its places. -/
  precision : Option Nat
  /-- How the value is put in. -/
  letter : Char

/-- The largest width and precision. -/
def maxSize : Nat := 2147483647

namespace Placeholder

/-- What is left of a message, and of its arguments. -/
abbrev Reading := StateT (List Char × Arguments) Option

/-- The next character. -/
def character : Reading Char := fun (text, arguments) =>
  match text with
  | [] => none
  | c :: rest => some (c, (rest, arguments))

/-- The next value. -/
def value : Reading Json := fun (text, arguments) =>
  (arguments.next?).map fun (v, rest) => (v, (text, rest))

/-- Past a character, if it is the next one. -/
def skip (c : Char) : Reading Bool := fun (text, arguments) =>
  match text with
  | d :: rest => if d = c then some (true, (rest, arguments)) else some (false, (text, arguments))
  | [] => some (false, ([], arguments))

/-- The characters at the front with a property. -/
def span (p : Char → Bool) : Reading (List Char) := fun (text, arguments) =>
  some (text.takeWhile p, (text.dropWhile p, arguments))

/-- The name up to the parenthesis that closes it, and what follows; the number is how many
inner ones are open. -/
def spanName? : Nat → List Char → Option (List Char × List Char)
  | _, [] => none
  | 0, ')' :: rest => some ([], rest)
  | depth + 1, ')' :: rest => (spanName? depth rest).map fun (name, last) => (')' :: name, last)
  | depth, '(' :: rest => (spanName? (depth + 1) rest).map fun (name, last) => ('(' :: name, last)
  | depth, c :: rest => (spanName? depth rest).map fun (name, last) => (c :: name, last)

/-- Calls a value by its name, if one is given. -/
def name : Reading Unit := do
  if ← skip '(' then
    fun (text, arguments) => do
      let (called, rest) ← spanName? 0 text
      return ((), (rest, ← arguments.call? (String.ofList called)))

/-- A whole number that is given as an argument. -/
def givenSize : Reading Int := do
  let n ← (wholeOf? (← value) : Option Int)
  guard (n.natAbs ≤ maxSize)
  return n

/-- A whole number that is written, zero if there are no digits. -/
def writtenSize : Reading Nat := do
  let n := Decimal.toNat (← span Decimal.isDigit)
  guard (n ≤ maxSize)
  return n

/-- The width; one below zero asks to go to the left. -/
def size : Reading Int := do
  if ← skip '*' then givenSize else return (← writtenSize : Nat)

/-- What stands behind a percent sign. -/
def read : Reading Placeholder := do
  name
  let flags ← span [' ', '-', '+', '0', '#'].contains
  let width ← size
  let precision ← if ← skip '.' then some <$> size else pure none
  let first ← character
  -- a letter for the size of a number says nothing here
  let letter ← if first = 'h' ∨ first = 'l' ∨ first = 'L' then character else pure first
  return {
    flags := if width < 0 then '-' :: flags else flags
    width := width.natAbs
    precision := precision.map Int.toNat
    letter := letter }

/-! ### Values at placeholders -/

/-- Whether a flag is given. -/
def has (p : Placeholder) (flag : Char) : Bool := p.flags.contains flag

/-- A text brought to the width; it goes to the right if nothing else is asked for. -/
def pad (p : Placeholder) (text : List Char) : List Char :=
  let blanks := List.replicate (p.width - text.length) ' '
  if p.has '-' then text ++ blanks else blanks ++ text

/-- The sign of a number. -/
def sign (p : Placeholder) (isNegative : Bool) : List Char :=
  if isNegative then ['-'] else if p.has '+' then ['+'] else if p.has ' ' then [' '] else []

/-- A number, made of a sign, a mark and digits, brought to the width by blanks, or by zeros
in front of the digits. -/
def number (p : Placeholder) (isNegative : Bool) (mark digits : List Char) : List Char :=
  let front := p.sign isNegative ++ mark
  if p.has '0' && !p.has '-' then
    front ++ List.replicate (p.width - (front.length + digits.length)) '0' ++ digits
  else p.pad (front ++ digits)

/-- A text. -/
def text (p : Placeholder) (s : String) : List Char :=
  p.pad (match p.precision with
    | none => s.toList
    | some n => s.toList.take n)

/-- A whole number in a base, with leading zeros up to the precision, and with the mark of
the base if that is asked for. -/
def whole (p : Placeholder) (base : Nat) (n : Int) : List Char :=
  let digits := Nat.toDigits base n.natAbs
  let mark := if base ≠ 10 ∧ p.has '#' then ['0', p.letter] else []
  p.number (n < 0) mark (List.replicate (p.precision.getD 0 - digits.length) '0' ++ digits)

/-- The size of a finite double by the letter, six places or digits if nothing else is asked
for. The flag of the form keeps the point and the zeros at the end. -/
def digits (p : Placeholder) (b : Decimal.Binary) : List Char :=
  let places := p.precision.getD 6
  let keeps := p.has '#'
  let pointed := if keeps then Decimal.onDigits Decimal.withFinalPoint else id
  match p.letter.toLower with
  | 'e' => pointed (Decimal.scientificText places b)
  | 'f' => pointed (Decimal.fixedDigits places b)
  | _ =>
    let general := Decimal.generalText places b
    if keeps then pointed general else Decimal.onDigits Decimal.withoutZeros general

/-- A double. Infinite ones and those that are no numbers have words of their own. -/
def double (p : Placeholder) (b : Decimal.Binary) : List Char :=
  let isNumber := b.isFinite || b.fraction = 0
  let size := if b.isFinite then p.digits b else if isNumber then ['i', 'n', 'f']
    else ['n', 'a', 'n']
  p.number (b.isNegative && isNumber) [] (if p.letter.isUpper then size.map Char.toUpper else size)

/-- A value put in at a placeholder. -/
def insert? (p : Placeholder) (value : Json) : Option (List Char) :=
  match p.letter with
  | 's' => some (p.text (plainText value))
  | 'r' => some (p.text (shown value))
  | 'a' => some (p.text (shownAscii value))
  | 'd' | 'i' | 'u' => match value with
    | .float x => (Decimal.Binary.ofFloat x).truncate?.map (p.whole 10)
    | other => (wholeOf? other).map (p.whole 10)
  | 'x' => (wholeOf? value).map (p.whole 16)
  | 'X' => (wholeOf? value).map fun n => (p.whole 16 n).map Char.toUpper
  | 'o' => (wholeOf? value).map (p.whole 8)
  | 'e' | 'E' | 'f' | 'F' | 'g' | 'G' => (doubleOf? value).map p.double
  | 'c' => (characterOf? value).map fun c => p.pad [c]
  | _ => none

end Placeholder

/-! ### Messages -/

/-- A text with its arguments put in. -/
def insertArguments? : Nat → List Char → Arguments → Option (List Char)
  | 0, _, _ => none
  | _ + 1, [], arguments => if arguments.areUsed then some [] else none
  | fuel + 1, '%' :: '%' :: rest, arguments =>
    (insertArguments? fuel rest arguments).map ('%' :: ·)
  | fuel + 1, '%' :: rest, arguments => do
    let (p, rest, arguments) ← Placeholder.read (rest, arguments)
    let (value, arguments) ← arguments.next?
    let text ← p.insert? value
    return text ++ (← insertArguments? fuel rest arguments)
  | fuel + 1, c :: rest, arguments => (insertArguments? fuel rest arguments).map (c :: ·)

/-- A message with its arguments, if they fit. -/
def format? (message : String) (arguments : List Json) : Option String :=
  if arguments.isEmpty then some message
  else (insertArguments? (message.length + 1) message.toList (.ofList arguments)).map
    String.ofList

end Log

end QueryTypes
