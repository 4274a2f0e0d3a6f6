import QueryTypes.GraphQL.BlockString
import QueryTypes.Text.Quoted
import QueryTypes.Decimal.Reading

/-!
# GraphQL tokens

The tokens of the GraphQL grammar and the function that cuts a text into them.
Blanks, line ends, commas, comments and byte order marks only separate tokens.
Each step takes one token off the front of the text, so the number of characters
bounds the number of steps.
-/

namespace QueryTypes

namespace GraphQL

/-- A token of the grammar. -/
inductive Token where
  /-- One of the single-character marks. -/
  | mark (c : Char)
  /-- Three dots. -/
  | spread
  /-- A name or keyword. -/
  | name (text : String)
  /-- A whole number, as written. -/
  | int (text : String)
  /-- Any other number, as written. -/
  | float (text : String)
  /-- The value of a string, written plain or as a block. -/
  | string (value : String) (block : Bool)
  deriving DecidableEq, Inhabited

namespace Token

/-! ### Character classes -/

/-- The characters that may begin a name. -/
def isNameStart (c : Char) : Bool :=
  ('a' ≤ c && c ≤ 'z') || ('A' ≤ c && c ≤ 'Z') || c = '_'

/-- The characters that may continue a name. -/
def isNameRest (c : Char) : Bool := isNameStart c || Decimal.isDigit c

/-- The single-character marks of the grammar. -/
def isMark (c : Char) : Bool :=
  c = '!' || c = '$' || c = '&' || c = '(' || c = ')' || c = ':' || c = '=' || c = '@' ||
  c = '[' || c = ']' || c = '\x7b' || c = '|' || c = '\x7d'

/-- The characters between tokens that mean nothing. -/
def isIgnored (c : Char) : Bool :=
  c = ' ' || c = '\t' || c = '\n' || c = '\r' || c = ',' || c = '\ufeff'

/-- Whether a character ends a line. -/
def isLineEnd (c : Char) : Bool := c = '\n' || c = '\r'

/-! ### Strings -/

/-- The number written by up to eight hexadecimal digits and a closing brace. -/
def readBraced? : Nat → Nat → List Char → Option (Nat × List Char)
  | 0, _, _ => none
  | _ + 1, _, [] => none
  | fuel + 1, value, c :: rest =>
    if c = '\x7d' then some (value, rest)
    else match Text.hexValue? c with
      | none => none
      | some d => readBraced? fuel (value * 16 + d) rest

/-- The number written by four hexadecimal digits. -/
def readUnit? : List Char → Option (Nat × List Char)
  | a :: b :: c :: d :: rest => (Text.hexNumber? 0 [a, b, c, d]).map fun n => (n, rest)
  | _ => none

/-- Whether a number is a Unicode scalar value. -/
def isScalarValue (n : Nat) : Bool := n < 0xD800 || (0xE000 ≤ n && n < 0x110000)

/-- The character after `\u`: digits in braces, one unit, or a surrogate pair. -/
def readUnicode? (text : List Char) : Option (Char × List Char) :=
  match text with
  | '\x7b' :: '\x7d' :: _ => none
  | '\x7b' :: rest => match readBraced? 9 0 rest with
    | some (n, rest') => if isScalarValue n then some (Char.ofNat n, rest') else none
    | none => none
  | _ => match readUnit? text with
    | none => none
    | some (unit, rest) =>
      if isScalarValue unit then some (Char.ofNat unit, rest)
      else if Text.isHighSurrogate unit then
        match rest with
        | '\\' :: 'u' :: more => match readUnit? more with
          | some (low, rest') =>
            if Text.isLowSurrogate low then some (Text.ofSurrogates unit low, rest') else none
          | none => none
        | _ => none
      else none

/-- The character that a one-letter escape stands for. -/
def simpleEscape? (c : Char) : Option Char :=
  if c = '"' then some '"'
  else if c = '\\' then some '\\'
  else if c = '/' then some '/'
  else if c = 'b' then some '\x08'
  else if c = 'f' then some '\x0c'
  else if c = 'n' then some '\n'
  else if c = 'r' then some '\r'
  else if c = 't' then some '\t'
  else none

/-- The value of a plain string up to its closing quote, and what follows. -/
def readPlain? : Nat → List Char → Option (List Char × List Char)
  | 0, _ => none
  | fuel + 1, text => match text with
    | [] => none
    | '"' :: rest => some ([], rest)
    | '\\' :: 'u' :: rest => match readUnicode? rest with
      | none => none
      | some (c, rest') => (readPlain? fuel rest').map fun (cs, r) => (c :: cs, r)
    | '\\' :: e :: rest => match simpleEscape? e with
      | none => none
      | some c => (readPlain? fuel rest).map fun (cs, r) => (c :: cs, r)
    | c :: rest =>
      if isLineEnd c || c = '\\' then none
      else (readPlain? fuel rest).map fun (cs, r) => (c :: cs, r)

/-- The characters of a block string up to its closing quotes, and what follows. -/
def readBlock? : List Char → Option (List Char × List Char)
  | [] => none
  | '"' :: '"' :: '"' :: rest => some ([], rest)
  | '\\' :: '"' :: '"' :: '"' :: rest =>
    (readBlock? rest).map fun (cs, r) => ('"' :: '"' :: '"' :: cs, r)
  | c :: rest => (readBlock? rest).map fun (cs, r) => (c :: cs, r)

/-! ### Numbers -/

/-- The digits of the whole part; a zero at the front stands alone. -/
def readWhole? (text : List Char) : Option (List Char × List Char) :=
  match text with
  | '0' :: rest => match rest with
    | c :: _ => if Decimal.isDigit c then none else some (['0'], rest)
    | [] => some (['0'], [])
  | _ =>
    let (digits, rest) := Decimal.spanDigits text
    if digits.isEmpty then none else some (digits, rest)

/-- A point and the digits after it: nothing, or at least one digit. -/
def readFraction? (text : List Char) : Option (List Char × List Char) :=
  match text with
  | '.' :: rest =>
    let (digits, rest') := Decimal.spanDigits rest
    if digits.isEmpty then none else some ('.' :: digits, rest')
  | _ => some ([], text)

/-- The exponent: nothing, or its letter, an optional sign and at least one digit. -/
def readExponent? (text : List Char) : Option (List Char × List Char) :=
  match text with
  | e :: rest =>
    if e = 'e' || e = 'E' then
      let (sign, rest') : List Char × List Char := match rest with
        | '+' :: r => (['+'], r)
        | '-' :: r => (['-'], r)
        | r => ([], r)
      let (digits, rest'') := Decimal.spanDigits rest'
      if digits.isEmpty then none else some (e :: (sign ++ digits), rest'')
    else some ([], text)
  | [] => some ([], [])

/-- The number at the front of the text. No name and no point may follow it. -/
def readNumber? (text : List Char) : Option (Token × List Char) :=
  let (sign, unsigned) : List Char × List Char := match text with
    | '-' :: rest => (['-'], rest)
    | _ => ([], text)
  match readWhole? unsigned with
  | none => none
  | some (whole, rest) => match readFraction? rest with
    | none => none
    | some (fraction, rest) => match readExponent? rest with
      | none => none
      | some (exponent, rest) =>
        let written := String.ofList (sign ++ whole ++ fraction ++ exponent)
        let token := if fraction.isEmpty && exponent.isEmpty then int written else float written
        match rest with
        | c :: _ => if c = '.' || isNameStart c then none else some (token, rest)
        | [] => some (token, [])

/-! ### Cutting a text into tokens -/

/-- The token at the front of a text that begins with one, given as many steps as the text has
characters. -/
def read? (fuel : Nat) (text : List Char) : Option (Token × List Char) :=
  match text with
  | '"' :: '"' :: '"' :: rest =>
    (readBlock? rest).map fun (raw, r) => (string (BlockString.value raw) true, r)
  | '"' :: rest =>
    (readPlain? fuel rest).map fun (cs, r) => (string (String.ofList cs) false, r)
  | '.' :: '.' :: '.' :: rest => some (spread, rest)
  | c :: rest =>
    if isMark c then some (mark c, rest)
    else if isNameStart c then
      some (name (String.ofList (c :: rest.takeWhile isNameRest)), rest.dropWhile isNameRest)
    else if Decimal.isDigit c || c = '-' then readNumber? text
    else none
  | [] => none

/-- The tokens of a text, `none` if it cannot be cut into tokens. -/
def ofText? : Nat → List Char → Option (List Token)
  | 0, _ => none
  | _ + 1, [] => some []
  | fuel + 1, c :: rest =>
    if isIgnored c then ofText? fuel rest
    else if c = '#' then ofText? fuel (rest.dropWhile fun d => !isLineEnd d)
    else match read? (fuel + 1) (c :: rest) with
      | none => none
      | some (token, rest') => (ofText? fuel rest').map (token :: ·)

/-- The tokens of a text. -/
def ofString? (text : String) : Option (List Token) :=
  let chars := text.toList
  ofText? (chars.length + 1) chars

end Token

end GraphQL

end QueryTypes
