import QueryTypes.Text.Basic

/-!
# Block strings

A block string is written over several lines. Its value is the text between the
triple quotes without the indentation that its lines share and without the empty
lines around it; the first line counts for neither. Writing a value as a block
string puts it on lines of its own where that reads better.
-/

namespace QueryTypes

namespace GraphQL

namespace BlockString

/-- The two blanks that may indent a line. -/
def isBlank (c : Char) : Bool := c = ' ' || c = '\t'

/-- The number of blanks a line begins with. -/
def indentation (line : List Char) : Nat := (line.takeWhile isBlank).length

/-- Whether a line holds nothing but blanks. -/
def isBlankLine (line : List Char) : Bool := line.all isBlank

/-- The least indentation of the lines that are not blank, if there are any. -/
def commonIndentation (lines : List (List Char)) : Option Nat :=
  ((lines.filter fun line => !isBlankLine line).map indentation).min?

/-- The value of a block string from the lines between its quotes. -/
def dedent (lines : List (List Char)) : List (List Char) :=
  let moved := match lines with
    | [] => []
    | first :: rest => first :: rest.map (List.drop ((commonIndentation rest).getD 0))
  ((moved.dropWhile isBlankLine).reverse.dropWhile isBlankLine).reverse

/-- The characters, read with one line ending, as the value of a block string. -/
def value (raw : List Char) : String :=
  let lines := Text.splitOn '\n' (Text.universalNewlines raw)
  Text.join "\n" ((dedent lines).map String.ofList)

/-! ### Writing -/

/-- A text in which triple quotes are escaped. -/
def escape : List Char → List Char
  | '"' :: '"' :: '"' :: rest => '\\' :: '"' :: '"' :: '"' :: escape rest
  | c :: rest => c :: escape rest
  | [] => []

/-- The block string for a value. It stands on lines of its own if it has several
lines, is longer than 70 characters, or ends so that the closing quotes would be
hard to tell. -/
def write (text : String) : String :=
  let chars := text.toList
  let escaped := escape chars
  let later := (Text.splitOn '\n' escaped).tail
  let isSingleLine := later.isEmpty
  let allLaterIndented := !isSingleLine && later.all fun line => line.head?.all isBlank
  let endsInTripleQuotes := Text.endsWith ['\\', '"', '"', '"'] escaped
  let endsInQuote := Text.endsWith ['"'] chars && !endsInTripleQuotes
  let endsInBackslash := Text.endsWith ['\\'] chars
  let breakAtEnd := endsInQuote || endsInBackslash
  let onOwnLines := !isSingleLine || 70 < chars.length || breakAtEnd || allLaterIndented ||
    endsInTripleQuotes
  let beginsBlank := match chars with
    | c :: _ => isSingleLine && isBlank c
    | [] => false
  let opening := if (onOwnLines && !beginsBlank) || allLaterIndented then "\n" else ""
  let closing := if onOwnLines || breakAtEnd then "\n" else ""
  "\"\"\"" ++ opening ++ String.ofList escaped ++ closing ++ "\"\"\""

end BlockString

end GraphQL

end QueryTypes
