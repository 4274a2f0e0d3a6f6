import QueryTypes.Decimal.Reading
import QueryTypes.Text.Basic
import QueryTypes.Text.Digit
import QueryTypes.Text.Quoted
import QueryTypes.Yaml.Fault

/-!
# Numbers in a YAML text

Whole numbers are written in base ten, two, eight (behind a zero) or sixteen, or as digits
in base sixty with colons between them; other numbers have a point, and may have an exponent
with a sign. An underscore may stand between digits. Which plain scalars are numbers, and
which number a scalar writes, are separate questions, because a tag may ask for a number
whatever the scalar looks like; then digits of other scripts, blanks around the number and
signs in many places count too.
-/

namespace QueryTypes

namespace Yaml

namespace Number

/-! ### Forms -/

/-- The text behind its sign, if it has one. -/
def unsigned : List Char → List Char
  | '+' :: rest => rest
  | '-' :: rest => rest
  | text => text

/-- Whether a text is made of digits of some kind and underscores. -/
def hasDigits (isDigit : Char → Bool) (text : List Char) : Bool :=
  !text.isEmpty && text.all fun c => isDigit c || c = '_'

def isBinaryDigit (c : Char) : Bool := c = '0' || c = '1'
def isOctalDigit (c : Char) : Bool := '0' ≤ c && c ≤ '7'
def isHexDigit (c : Char) : Bool :=
  Decimal.isDigit c || ('a' ≤ c && c ≤ 'f') || ('A' ≤ c && c ≤ 'F')

/-- Whether a text begins with a decimal digit other than zero and goes on with digits. -/
def isPositive : List Char → Bool
  | c :: rest => '1' ≤ c && c ≤ '9' && rest.all fun d => Decimal.isDigit d || d = '_'
  | [] => false

/-- Whether a text is a digit in base sixty behind a colon. -/
def isSixtieth : List Char → Bool
  | [c] => Decimal.isDigit c
  | [c, d] => '0' ≤ c && c ≤ '5' && Decimal.isDigit d
  | _ => false

/-- Whether a plain scalar is a whole number. -/
def isWhole (text : List Char) : Bool :=
  match unsigned text with
  | ['0'] => true
  | '0' :: 'b' :: digits => hasDigits isBinaryDigit digits
  | '0' :: 'x' :: digits => hasDigits isHexDigit digits
  | '0' :: digits => hasDigits isOctalDigit digits
  | body => match Text.splitOn ':' body with
    | first :: sixtieths => isPositive first && sixtieths.all isSixtieth
    | [] => false

/-- Whether a text is an exponent with its sign, or nothing. -/
def isSignedExponent : List Char → Bool
  | [] => true
  | e :: sign :: digits => (e = 'e' || e = 'E') && (sign = '+' || sign = '-') &&
      !digits.isEmpty && digits.all Decimal.isDigit
  | _ => false

/-- The digits and underscores a text begins with, and the rest. -/
def spanDigits (text : List Char) : List Char × List Char :=
  text.span fun c => Decimal.isDigit c || c = '_'

/-- Whether the first of some characters is a decimal digit. -/
def beginsWithDigit (text : List Char) : Bool := text.head?.any Decimal.isDigit

/-- Whether a text is digits with a point in them, and perhaps an exponent. -/
def isPointed (text : List Char) : Bool :=
  let (whole, rest) := spanDigits text
  beginsWithDigit whole && match rest with
    | '.' :: rest => isSignedExponent (spanDigits rest).2
    | _ => false

/-- Whether a text is a point, digits, and perhaps an exponent. -/
def isPointFirst : List Char → Bool
  | '.' :: rest => beginsWithDigit rest && isSignedExponent (spanDigits rest).2
  | _ => false

/-- Whether a text is digits in base sixty and a point behind them, perhaps with decimal
places. -/
def isPointedSixty (text : List Char) : Bool :=
  match Text.splitOn ':' text with
  | first :: next :: rest =>
    let sixtieths := next :: rest
    let last := sixtieths.getLast?.getD []
    let (whole, places) := last.span (· ≠ '.')
    beginsWithDigit first && (spanDigits first).2.isEmpty &&
      sixtieths.dropLast.all isSixtieth && isSixtieth whole &&
      (match places with
        | '.' :: digits => (spanDigits digits).2.isEmpty
        | _ => false)
  | _ => false

/-- Whether a plain scalar is a number with a point. -/
def isFloat (text : List Char) : Bool :=
  let body := unsigned text
  isPointed body || isPointFirst text || isPointedSixty body ||
    [".inf", ".Inf", ".INF"].contains (String.ofList body) ||
    [".nan", ".NaN", ".NAN"].contains (String.ofList text)

/-! ### Whole numbers -/

/-- A number with the sign that a text begins with. -/
def withSignOf (text : List Char) (size : Int) : Int :=
  if text.head? = some '-' then -size else size

/-- The letter behind a zero that says which base follows. -/
def baseMark? : Nat → Option Char
  | 2 => some 'b'
  | 8 => some 'o'
  | 16 => some 'x'
  | _ => none

/-- The digits of a base without the mark that may stand before them. -/
def withoutMark (base : Nat) : List Char → List Char
  | '0' :: mark :: digits =>
    if baseMark? base = some mark.toLower then digits else '0' :: mark :: digits
  | digits => digits

/-- The number that the digits of a base stand for. There has to be one, and in base ten there
must not be too many. -/
def natural? (base : Nat) (digits : List Char) : Option Nat := do
  let values ← digits.mapM Text.hexValue?
  guard (!values.isEmpty && values.all (· < base))
  guard (base ≠ 10 || values.length ≤ Decimal.maxDigits)
  return values.foldl (fun n value => n * base + value) 0

/-- The number that a text writes in a base: digits of any script, perhaps with a mark of the
base, a sign before it and blanks around it. The zero of the mark may be of any script too. -/
def inBase (base : Nat) (text : List Char) : Except Fault Int :=
  let text := (Text.trimmed text).map Text.asciiDigit
  match natural? base (withoutMark base (unsigned text)) with
  | some n => .ok (withSignOf text n)
  | none => .error .notNumber

/-- The number that some digits in base sixty stand for, the first one first. -/
def ofSixties (digits : List Int) : Int := digits.foldl (fun n digit => n * 60 + digit) 0

/-- The whole number that a text writes. A zero at the front says which base follows, and
colons say that the base is sixty; its digits are numbers of their own. -/
def whole (text : List Char) : Except Fault Int := do
  let text := text.filter (· ≠ '_')
  let size ← match unsigned text with
    | [] => .error .emptyNumber
    | ['0'] => .ok 0
    | '0' :: 'b' :: digits => inBase 2 digits
    | '0' :: 'x' :: digits => inBase 16 digits
    | '0' :: digits => inBase 8 ('0' :: digits)
    | body => (Text.splitOn ':' body).mapM (inBase 10) |>.map ofSixties
  return withSignOf text size

/-! ### Other numbers -/

/-- The exponent at the end of a number, which may be missing. -/
def exponent? : List Char → Option Int
  | [] => some 0
  | mark :: rest =>
    let digits := unsigned rest
    if mark ≠ 'e' || digits.isEmpty || !digits.all Decimal.isDigit then none
    else some (withSignOf rest (Decimal.toNat digits))

/-- The number that digits with or without point and exponent stand for. -/
def decimal? (text : List Char) : Option Float :=
  let (whole, rest) := Decimal.spanDigits text
  let (places, rest) := match rest with
    | '.' :: rest => Decimal.spanDigits rest
    | rest => ([], rest)
  if (whole ++ places).isEmpty then none
  else (exponent? rest).map fun exponent =>
    Decimal.toFloat (Decimal.toNat (whole ++ places)) (exponent - places.length)

/-- More than any number. -/
def infinity : Float := 1.0 / 0.0

/-- What is no number. -/
def notANumber : Float := 0.0 / 0.0

/-- A number with the sign that a text begins with. -/
def floatWithSignOf (text : List Char) (size : Float) : Float :=
  if text.head? = some '-' then -size else size

/-- The number that a text in lower case writes: a word, or digits of any script, with a sign
before it and blanks around it. -/
def simple (text : List Char) : Except Fault Float :=
  let text := (Text.trimmed text).map Text.asciiDigit
  let size? : Option Float := match String.ofList (unsigned text) with
    | "inf" | "infinity" => some infinity
    | "nan" => some notANumber
    | _ => decimal? (unsigned text)
  match size? with
  | some size => .ok (floatWithSignOf text size)
  | none => .error .notNumber

/-- How many digits in base sixty fit into a double. -/
def maxSixties : Nat := 174

/-- The number that some digits in base sixty stand for, the first one first. They are added
up from the last one on, each at the double nearest to its place. -/
def floatOfSixties (digits : List Float) : Except Fault Float :=
  if maxSixties < digits.length then .error .tooLarge
  else
    let step (digit : Float) (sum : Float × Int) : Float × Int :=
      (sum.1 + digit * Decimal.ofInt sum.2, sum.2 * 60)
    .ok (digits.foldr step (0.0, 1)).1

/-- A text as numbers are read from it: without underscores and in lower case. -/
def cleared (text : List Char) : List Char := (text.filter (· ≠ '_')).map Char.toLower

/-- Whether a text is what is no number, in the form that plain scalars have. -/
def isUsualNan (text : List Char) : Bool := unsigned (cleared text) = ['.', 'n', 'a', 'n']

/-- The number that a text writes, with a point or without. -/
def float (text : List Char) : Except Fault Float := do
  let text := cleared text
  let body := unsigned text
  let size ← if text.isEmpty then .error .emptyNumber
    else if body = ['.', 'i', 'n', 'f'] then .ok infinity
    else if body = ['.', 'n', 'a', 'n'] then .ok notANumber
    else match ← (Text.splitOn ':' body).mapM simple with
      | [x] => .ok x
      | digits => floatOfSixties digits
  return floatWithSignOf text size

end Number

end Yaml

end QueryTypes
