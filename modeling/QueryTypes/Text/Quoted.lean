import QueryTypes.Text.Basic

/-!
# Double-quoted text

The string literals of the generated files are pure ASCII: a character outside
the printable ASCII range is written by its UTF-16 units as `\uXXXX` in lower
case, apart from the five control characters that have an escape of their own.
The quote and the backslash are escaped, the slash is not. The digits come from
`QueryTypes.Text.hexDigits`, which other formats share.
-/

namespace QueryTypes

namespace Text

/-! ### Hexadecimal digits -/

/-- The lower-case hexadecimal digit of a number below sixteen. -/
def hexDigit (n : Nat) : Char :=
  if n < 10 then Char.ofNat (48 + n) else Char.ofNat (87 + n)

/-- The last `width` hexadecimal digits of a number, in lower case. -/
def hexDigits : Nat → Nat → List Char
  | 0, _ => []
  | width + 1, n => hexDigits width (n / 16) ++ [hexDigit (n % 16)]

@[simp] theorem length_hexDigits (width n : Nat) : (hexDigits width n).length = width := by
  induction width generalizing n with
  | zero => rfl
  | succ width ih => simp [hexDigits, ih]

/-- The number a hexadecimal digit of either case stands for. -/
def hexValue? (c : Char) : Option Nat :=
  if '0' ≤ c ∧ c ≤ '9' then some (c.toNat - 48)
  else if 'a' ≤ c ∧ c ≤ 'f' then some (c.toNat - 87)
  else if 'A' ≤ c ∧ c ≤ 'F' then some (c.toNat - 55)
  else none

theorem hexValue?_hexDigit : ∀ n < 16, hexValue? (hexDigit n) = some n := by
  decide

/-- The number that a run of hexadecimal digits stands for, most significant
first, continuing from `start`. -/
def hexNumber? : Nat → List Char → Option Nat
  | start, [] => some start
  | start, c :: rest => match hexValue? c with
    | none => none
    | some d => hexNumber? (start * 16 + d) rest

/-! ### UTF-16 units -/

/-- The UTF-16 units of a character: one, or a surrogate pair. -/
def utf16Units (c : Char) : List Nat :=
  if c.toNat < 0x10000 then [c.toNat]
  else [0xD800 + (c.toNat - 0x10000) / 0x400, 0xDC00 + (c.toNat - 0x10000) % 0x400]

/-- Whether a UTF-16 unit opens a surrogate pair. -/
def isHighSurrogate (n : Nat) : Bool := 0xD800 ≤ n && n < 0xDC00

/-- Whether a UTF-16 unit closes a surrogate pair. -/
def isLowSurrogate (n : Nat) : Bool := 0xDC00 ≤ n && n < 0xE000

/-- The character of a surrogate pair. -/
def ofSurrogates (high low : Nat) : Char :=
  Char.ofNat (0x10000 + (high - 0xD800) * 0x400 + (low - 0xDC00))

/-! ### Quoting -/

/-- How one character stands inside double quotes. -/
def quotedChar (c : Char) : List Char :=
  if c = '"' then ['\\', '"']
  else if c = '\\' then ['\\', '\\']
  else if c = '\n' then ['\\', 'n']
  else if c = '\r' then ['\\', 'r']
  else if c = '\t' then ['\\', 't']
  else if c = '\x0c' then ['\\', 'f']
  else if c = '\x08' then ['\\', 'b']
  else if 32 ≤ c.toNat ∧ c.toNat < 127 then [c]
  else (utf16Units c).flatMap fun unit => '\\' :: 'u' :: hexDigits 4 unit

/-- The characters of a text as they stand inside double quotes. -/
def quotedChars (text : List Char) : List Char :=
  text.flatMap quotedChar

@[simp] theorem quotedChars_nil : quotedChars [] = [] := rfl

@[simp] theorem quotedChars_cons (c : Char) (text : List Char) :
    quotedChars (c :: text) = quotedChar c ++ quotedChars text := rfl

/-- A text as an ASCII string literal. -/
def quoted (text : String) : String :=
  String.ofList ('"' :: (quotedChars text.toList ++ ['"']))

end Text

end QueryTypes
