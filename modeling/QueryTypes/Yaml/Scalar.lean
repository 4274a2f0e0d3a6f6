import QueryTypes.Text.Quoted
import QueryTypes.Decimal.Reading
import QueryTypes.Yaml.Cursor
import QueryTypes.Yaml.Fault

/-!
# Scalars in a YAML text

The texts of scalars in their five styles. Line ends inside a scalar are folded: a single
one becomes a blank and further ones stay, except in a literal block, which keeps all of
them. Each reader takes the scalar off the front of a text and fails where the style is
broken.
-/

namespace QueryTypes

namespace Yaml

namespace Scalar

/-! ### Quoted scalars -/

/-- What a one-letter escape in double quotes stands for. -/
def escape? (c : Char) : Option Char :=
  match c with
  | '0' => some '\x00'
  | 'a' => some '\x07'
  | 'b' => some '\x08'
  | 't' => some '\t'
  | '\t' => some '\t'
  | 'n' => some '\n'
  | 'v' => some '\x0b'
  | 'f' => some '\x0c'
  | 'r' => some '\r'
  | 'e' => some '\x1b'
  | ' ' => some ' '
  | '"' => some '"'
  | '\\' => some '\\'
  | '/' => some '/'
  | 'N' => some '\u0085'
  | '_' => some '\u00a0'
  | 'L' => some '\u2028'
  | 'P' => some '\u2029'
  | _ => none

/-- The number of digits behind the letter of a numeric escape. -/
def escapeWidth? (c : Char) : Option Nat :=
  match c with
  | 'x' => some 2
  | 'u' => some 4
  | 'U' => some 8
  | _ => none

/-- The line ends at the front of a quoted line, with the blanks before them dropped. A mark
between documents must not stand at the front of a line. -/
def foldedBreaks? : Nat → Cursor → Option (List Char × Cursor)
  | 0, _ => none
  | fuel + 1, c =>
    if c.atDocumentMark then none
    else
      let c := c.skipWhile isBlank
      match c.lineBreak with
      | (none, _) => some ([], c)
      | (some b, next) => (foldedBreaks? fuel next).map fun (bs, c') => (b :: bs, c')

/-- A line end and those after it: a single one is a blank, else the first is dropped. -/
def fold (first : Char) (others : List Char) : List Char :=
  (if first ≠ '\n' then [first] else if others.isEmpty then [' '] else []) ++ others

/-- The blanks or line ends at some place of a quoted scalar. -/
def quotedSpaces? (c : Cursor) : Option (List Char × Cursor) :=
  let (blanks, c) := c.span isBlank
  if c.atEnd then none
  else match c.lineBreak with
    | (none, _) => some (blanks, c)
    | (some b, next) => (foldedBreaks? next.bound next).map fun (bs, c') => (fold b bs, c')

/-- The character that a numeric escape stands for. A number that takes more than 31 binary
digits is not even looked up. -/
def character (code : Nat) : Except Fault Char :=
  if code < 0x110000 then .ok (Char.ofNat code)
  else if code < 0x80000000 then .error .noCharacter
  else .error .tooLarge

/-- An escape in double quotes, behind its backslash. -/
def escaped (c : Cursor) : Except Fault (List Char × Cursor) :=
  match c.peek with
  | none => .error .malformed
  | some d =>
    match escape? d, escapeWidth? d with
    | some e, _ => .ok ([e], c.advance)
    | none, some width => do
      let digits := c.advance.rest.take width
      if digits.length < width then .error .malformed
      else
        let code ← orMalformed (Text.hexNumber? 0 digits)
        return ([← character code], c.advance.skip width)
    | none, none => match c.lineBreak with
      | (none, _) => .error .malformed
      | (some _, next) => orMalformed (foldedBreaks? next.bound next)

/-- The characters of a quoted scalar up to its closing quote. -/
def quoted (double : Bool) : Nat → Cursor → Except Fault (List Char × Cursor)
  | 0, _ => .error .malformed
  | fuel + 1, c => do
    let more (piece : List Char × Cursor) : Except Fault (List Char × Cursor) := do
      let (cs, last) ← quoted double fuel piece.2
      return (piece.1 ++ cs, last)
    match c.peek with
    | none => .error .malformed
    | some d =>
      if isBlank d || isBreak d then more (← orMalformed (quotedSpaces? c))
      else if double then
        if d = '"' then return ([], c.advance)
        else if d = '\\' then more (← escaped c.advance)
        else more ([d], c.advance)
      else if d = '\x27' then
        if c.peekAt 1 = some '\x27' then more (['\x27'], c.skip 2) else return ([], c.advance)
      else more ([d], c.advance)

/-! ### Plain scalars -/

/-- The characters that end a plain scalar inside brackets. -/
def isFlowMark (c : Char) : Bool :=
  c = ',' || c = '?' || c = '[' || c = ']' || c = '\x7b' || c = '\x7d'

/-- The characters of a plain scalar up to the next blank, line end, or mark that cannot be
part of it. -/
def plainWord (inFlow : Bool) : List Char → List Char
  | [] => []
  | c :: rest =>
    let ends : Bool := isBlank c || isBreak c ||
      (c = ':' && (match rest with
        | [] => true
        | d :: _ => isBlank d || isBreak d ||
          (inFlow && (d = ',' || d = '[' || d = ']' || d = '\x7b' || d = '\x7d')))) ||
      (inFlow && isFlowMark c)
    if ends then [] else c :: plainWord inFlow rest

/-- The line ends at the front of a line inside a plain scalar, with the spaces before them;
`none` in place of the cursor's text if a mark between documents stands in the way. -/
def plainBreaks : Nat → Cursor → Option (List Char) × Cursor
  | 0, c => (none, c)
  | fuel + 1, c =>
    if c.atDocumentMark && c.column = 0 then (none, c)
    else
      let c := c.skipWhile (· = ' ')
      match c.lineBreak with
      | (none, _) => (some [], c)
      | (some b, next) =>
        let (bs, c') := plainBreaks fuel next
        (bs.map (b :: ·), c')

/-- The spaces or line ends behind a word of a plain scalar, whether a line has ended, and
the cursor after them. Nothing means that the scalar ends here. -/
def plainSpaces (c : Cursor) : List Char × Bool × Cursor :=
  let (spaces, c) := c.span (· = ' ')
  match c.lineBreak with
  | (none, _) => (spaces, false, c)
  | (some b, next) => match plainBreaks next.bound next with
    | (none, c') => ([], true, c')
    | (some bs, c') => (fold b bs, true, c')

/-- The characters of a plain scalar, whether it was left at the front of a line, and the
cursor behind it. The scalar ends at a line that is indented less. -/
def plain (inFlow : Bool) (indent : Nat) : Nat → Cursor → List Char × Bool × Cursor
  | 0, c => ([], false, c)
  | fuel + 1, c =>
    if c.sees '#' then ([], false, c)
    else
      let word := plainWord inFlow c.rest
      if word.isEmpty then ([], false, c)
      else
        let (spaces, ended, next) := plainSpaces (c.skip word.length)
        if spaces.isEmpty || next.sees '#' || (!inFlow && next.column < indent) then
          (word, ended, next)
        else
          let (more, endedLater, last) := plain inFlow indent fuel next
          if more.isEmpty then (word, ended, last)
          else (word ++ spaces ++ more, endedLater, last)

/-! ### Block scalars -/

/-- What happens to the line ends at the end of a block scalar. -/
inductive Chomping where
  /-- The last one is kept. -/
  | clip
  /-- None is kept. -/
  | strip
  /-- All are kept. -/
  | keep
  deriving DecidableEq

/-- The chomping that a sign stands for. -/
def Chomping.ofSign? (c : Option Char) : Option Chomping :=
  if c = some '+' then some .keep else if c = some '-' then some .strip else none

/-- The indentation that a digit stands for; zero is none. -/
def indentDigit? (c : Option Char) : Option Nat :=
  match c with
  | some d => if '1' ≤ d ∧ d ≤ '9' then some (d.toNat - 48) else none
  | none => none

/-- The sign and the digit behind the mark of a block scalar, in either order. -/
def blockHeader? (c : Cursor) : Option (Chomping × Option Nat × Cursor) :=
  let result (chomping : Chomping) (increment : Option Nat) (c : Cursor) :=
    if endsDirective c.peek then some (chomping, increment, c) else none
  match Chomping.ofSign? c.peek with
  | some chomping =>
    match indentDigit? c.advance.peek with
    | some n => result chomping (some n) (c.skip 2)
    | none => result chomping none c.advance
  | none => match indentDigit? c.peek with
    | none => result .clip none c
    | some n => match Chomping.ofSign? c.advance.peek with
      | some chomping => result chomping (some n) (c.skip 2)
      | none => result .clip (some n) c.advance

/-- The rest of the line behind the header of a block scalar: spaces and a comment. -/
def headerLine? (c : Cursor) : Option Cursor :=
  let c := (c.skipWhile (· = ' ')).skipComment
  if endsLine c.peek then some c.lineBreak.2 else none

/-- The line ends before the first line of a block scalar, and the widest indentation seen
among them. -/
def leadingBreaks : Nat → Nat → Cursor → List Char × Nat × Cursor
  | 0, widest, c => ([], widest, c)
  | fuel + 1, widest, c =>
    let c := c.skipWhile (· = ' ')
    let widest := max widest c.column
    match c.lineBreak with
    | (none, _) => ([], widest, c)
    | (some b, next) =>
      let (bs, widest', c') := leadingBreaks fuel widest next
      (b :: bs, widest', c')

/-- Past at most so many spaces, up to a column. -/
def skipIndent (indent : Nat) (c : Cursor) : Cursor :=
  c.skip ((c.rest.takeWhile (· = ' ')).length.min (indent - c.column))

/-- The empty lines inside a block scalar. -/
def emptyLines (indent : Nat) : Nat → Cursor → List Char × Cursor
  | 0, c => ([], c)
  | fuel + 1, c =>
    let c := skipIndent indent c
    match c.lineBreak with
    | (none, _) => ([], c)
    | (some b, next) =>
      let (bs, c') := emptyLines indent fuel next
      (b :: bs, c')

/-- The lines of a block scalar, given the empty lines before them: the text, the last line
end, and the empty lines after it. -/
def blockLines (folded : Bool) (indent : Nat) :
    Nat → List Char → Cursor → List Char × List Char × List Char × Cursor
  | 0, breaks, c => ([], [], breaks, c)
  | fuel + 1, breaks, c =>
    if c.column = indent && !c.atEnd then
      let opensWithBlank := c.peek.any isBlank
      let (text, c) := c.span fun d => !isBreak d
      let (lineEnd, c) := c.lineBreak
      let ended := lineEnd.toList
      let (empty, c) := emptyLines indent c.bound c
      if c.column = indent && !c.atEnd then
        let joint : List Char :=
          if folded && lineEnd = some '\n' && !opensWithBlank && !c.peek.any isBlank then
            (if empty.isEmpty then [' '] else [])
          else ended
        let (more, last, tail, c') := blockLines folded indent fuel empty c
        (breaks ++ text ++ joint ++ more, last, tail, c')
      else (breaks ++ text, ended, empty, c)
    else ([], [], breaks, c)

/-- A block scalar behind its mark, inside a block of some indentation. -/
def block? (folded : Bool) (outer : Int) (c : Cursor) : Option (List Char × Cursor) :=
  match blockHeader? c with
  | none => none
  | some (chomping, increment, c) => match headerLine? c with
    | none => none
    | some c =>
      let least := (max (outer + 1) 1).toNat
      let (breaks, indent, c) : List Char × Nat × Cursor := match increment with
        | none =>
          let (bs, widest, c') := leadingBreaks c.bound 0 c
          (bs, max least widest, c')
        | some n =>
          let indent := least + n - 1
          let (bs, c') := emptyLines indent c.bound c
          (bs, indent, c')
      let (text, lineEnd, empty, c) := blockLines folded indent c.bound breaks c
      some (text ++ (match chomping with
        | .clip => lineEnd
        | .strip => []
        | .keep => lineEnd ++ empty), c)

end Scalar

end Yaml

end QueryTypes
