/-!
# A position in a YAML text

What is left of a text, and where that is: how many characters came before, on which line
and in which column. Layout carries meaning in YAML, so every step through the text goes
through these few functions, which keep count.
-/

namespace QueryTypes

namespace Yaml

/-! ### Character classes -/

/-- The characters that end a line. -/
def isBreak (c : Char) : Bool :=
  c = '\r' || c = '\n' || c = '\u0085' || c = '\u2028' || c = '\u2029'

/-- Blanks within a line. -/
def isBlank (c : Char) : Bool := c = ' ' || c = '\t'

/-- The characters that may stand in a text. -/
def isAllowed (c : Char) : Bool :=
  let n := c.toNat
  n = 0x9 || n = 0xA || n = 0xD || (0x20 ≤ n && n ≤ 0x7E) || n = 0x85 ||
    (0xA0 ≤ n && n ≤ 0xD7FF) || (0xE000 ≤ n && n ≤ 0xFFFD) || 0x10000 ≤ n

/-- The characters of the names of anchors, directives and tag handles. -/
def isWordChar (c : Char) : Bool :=
  ('0' ≤ c && c ≤ '9') || ('A' ≤ c && c ≤ 'Z') || ('a' ≤ c && c ≤ 'z') || c = '-' || c = '_'

/-- Whether there is no character, or one that ends a line. -/
def endsLine (c : Option Char) : Bool := c.all isBreak

/-- Whether there is no character, or a blank, or one that ends a line. -/
def endsWord (c : Option Char) : Bool := c.all fun d => isBreak d || isBlank d

/-- Whether there is no character, or a space, or one that ends a line. -/
def endsDirective (c : Option Char) : Bool := c.all fun d => isBreak d || d = ' '

/-! ### The cursor -/

/-- What is left of a text, and where that is. -/
structure Cursor where
  /-- The characters that are left. -/
  rest : List Char
  /-- How many characters are left. -/
  left : Nat := rest.length
  /-- How many characters came before. -/
  index : Nat := 0
  /-- How many lines came before. -/
  line : Nat := 0
  /-- How many characters of this line came before. -/
  column : Nat := 0
  deriving Inhabited

namespace Cursor

/-- The next character. -/
def peek (c : Cursor) : Option Char := c.rest.head?

/-- The character so many places further on. -/
def peekAt (c : Cursor) (n : Nat) : Option Char := c.rest[n]?

/-- Whether nothing is left. -/
def atEnd (c : Cursor) : Bool := c.rest.isEmpty

/-- Whether the next character is this one. -/
def sees (c : Cursor) (d : Char) : Bool := c.peek = some d

/-- Past one character. -/
def advance (c : Cursor) : Cursor :=
  match c.rest with
  | [] => c
  | d :: rest =>
    if d = '\n' || d = '\u0085' || d = '\u2028' || d = '\u2029' ||
        (d = '\r' && rest.head? ≠ some '\n') then
      ⟨rest, c.left - 1, c.index + 1, c.line + 1, 0⟩
    else if d = '\ufeff' then ⟨rest, c.left - 1, c.index + 1, c.line, c.column⟩
    else ⟨rest, c.left - 1, c.index + 1, c.line, c.column + 1⟩

/-- The count of what is left stays right. -/
theorem left_advance {c : Cursor} (h : c.left = c.rest.length) :
    c.advance.left = c.advance.rest.length := by
  obtain ⟨rest, left, index, line, column⟩ := c
  cases rest with
  | nil => exact h
  | cons d rest =>
    simp only [List.length_cons] at h
    simp only [advance]
    split
    · simp [h]
    · split <;> simp [h]

/-- Past so many characters. -/
def skip (c : Cursor) : Nat → Cursor
  | 0 => c
  | n + 1 => c.advance.skip n

/-- The characters up to the first without a property, and the cursor there. -/
def span (c : Cursor) (p : Char → Bool) : List Char × Cursor :=
  let taken := c.rest.takeWhile p
  (taken, c.skip taken.length)

/-- Past the characters with a property. -/
def skipWhile (c : Cursor) (p : Char → Bool) : Cursor := (c.span p).2

/-- Past one end of line, and what it counts as: the usual ones as a line feed, the two
Unicode separators as themselves. -/
def lineBreak (c : Cursor) : Option Char × Cursor :=
  match c.rest with
  | '\r' :: '\n' :: _ => (some '\n', c.skip 2)
  | d :: _ =>
    if d = '\r' || d = '\n' || d = '\u0085' then (some '\n', c.advance)
    else if d = '\u2028' || d = '\u2029' then (some d, c.advance)
    else (none, c)
  | [] => (none, c)

/-- Past a comment, if one begins here. -/
def skipComment (c : Cursor) : Cursor :=
  if c.sees '#' then c.skipWhile (fun d => !isBreak d) else c

/-- Whether three characters stand here alone, as the marks between documents do. -/
def atMark (c : Cursor) (d : Char) : Bool :=
  c.rest.take 3 = [d, d, d] && endsWord (c.peekAt 3)

/-- Whether a mark between documents stands here. -/
def atDocumentMark (c : Cursor) : Bool := c.atMark '-' || c.atMark '.'

/-- A number of steps that is enough to pass everything that is left. -/
def bound (c : Cursor) : Nat := c.left + 1

end Cursor

end Yaml

end QueryTypes
