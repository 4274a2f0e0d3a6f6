/-!
# Glob patterns

Patterns for names: `*` stands for any characters, `?` for any one, and brackets for one
character of a set, or with `!` first in them for one that is not in it. A pattern covers
a name as a whole. A bracket first in a set is part of the set, a set that is not closed
is no set, and a range whose ends are the wrong way round holds nothing.
-/

namespace QueryTypes

namespace Glob

/-! ### Sets of characters -/

/-- A set of characters: single ones, ranges with both ends, or all but those. -/
structure CharSet where
  /-- Whether the set holds the characters that are not listed. -/
  negated : Bool
  /-- The listed characters. -/
  singles : List Char
  /-- The listed ranges. -/
  ranges : List (Char × Char)
  deriving DecidableEq, Inhabited

/-- Whether a set holds a character. -/
def CharSet.accepts (set : CharSet) (c : Char) : Bool :=
  (set.singles.contains c || set.ranges.any fun (low, high) => low ≤ c && c ≤ high)
    != set.negated

/-- The text inside brackets up to the hyphen of its first range, if there is one after the
first so many characters, and what follows the hyphen. -/
def cutRange : Nat → List Char → Option (List Char × List Char)
  | _, [] => none
  | 0, '-' :: rest => some ([], rest)
  | 0, c :: rest => (cutRange 0 rest).map fun (before, after) => (c :: before, after)
  | skip + 1, c :: rest => (cutRange skip rest).map fun (before, after) => (c :: before, after)

/-- The text inside brackets cut at the hyphens of its ranges. A hyphen makes a range if it
is not among the first so many characters; behind a range the next hyphen makes one only
after two more characters. -/
def cutRanges : Nat → Nat → List Char → List (List Char)
  | 0, _, text => [text]
  | fuel + 1, skip, text =>
    match cutRange skip text with
    | none => [text]
    | some (before, after) =>
      if after = [] then [before ++ ['-']] else before :: cutRanges fuel 2 after

/-- The pieces between hyphens without the ranges that hold nothing. -/
def dropEmptyRanges : List (List Char) → List (List Char)
  | [] => []
  | piece :: rest =>
    match dropEmptyRanges rest with
    | [] => [piece]
    | next :: others =>
      match piece.getLast?, next.head? with
      | some low, some high =>
        if high < low then (piece.dropLast ++ next.tail) :: others else piece :: next :: others
      | _, _ => piece :: next :: others

/-- The ranges between neighbouring pieces. -/
def rangesBetween : List (List Char) → List (Char × Char)
  | piece :: next :: rest =>
    match piece.getLast?, next.head? with
    | some low, some high => (low, high) :: rangesBetween (next :: rest)
    | _, _ => rangesBetween (next :: rest)
  | _ => []

/-- The set that the text inside brackets describes. -/
def charSet (text : List Char) : CharSet :=
  let skip := if text.head? = some '!' then 2 else 1
  let pieces := dropEmptyRanges (cutRanges text.length skip text)
  match pieces with
  | ('!' :: first) :: rest => ⟨true, first ++ rest.flatten, rangesBetween (first :: rest)⟩
  | _ => ⟨false, pieces.flatten, rangesBetween pieces⟩

/-! ### Patterns -/

/-- One element of a pattern. -/
inductive Item where
  /-- Any characters, also none. -/
  | many
  /-- Any one character. -/
  | one
  /-- One given character. -/
  | literal (c : Char)
  /-- One character of a set. -/
  | set (set : CharSet)
  deriving DecidableEq, Inhabited

/-- The text inside brackets and what follows the closing bracket, after the opening one. -/
def closeSet? (text : List Char) : Option (List Char × List Char) :=
  let (bang, rest) : List Char × List Char := match text with
    | '!' :: rest => (['!'], rest)
    | _ => ([], text)
  let (bracket, rest) : List Char × List Char := match rest with
    | ']' :: rest' => ([']'], rest')
    | _ => ([], rest)
  match rest.dropWhile (· ≠ ']') with
  | [] => none
  | _ :: after => some (bang ++ bracket ++ rest.takeWhile (· ≠ ']'), after)

/-- The elements of a pattern. -/
def itemsOf : Nat → List Char → List Item
  | 0, _ => []
  | _ + 1, [] => []
  | fuel + 1, c :: rest =>
    if c = '*' then .many :: itemsOf fuel rest
    else if c = '?' then .one :: itemsOf fuel rest
    else if c = '[' then
      match closeSet? rest with
      | none => .literal '[' :: itemsOf fuel rest
      | some (inside, after) => .set (charSet inside) :: itemsOf fuel after
    else .literal c :: itemsOf fuel rest

/-- Whether an element that stands for one character stands for this one. -/
def Item.accepts : Item → Char → Bool
  | many, _ => false
  | one, _ => true
  | literal c, d => c = d
  | set s, d => s.accepts d

/-- For each end of a text, the longest first, whether it or a shorter one is covered. -/
def someEnds : List Bool → List Bool
  | [] => []
  | covered :: shorter =>
    let later := someEnds shorter
    (covered || later.headD false) :: later

/-- For each end of a text, the longest first, whether it is a character that an element stands
for and a covered end behind it. -/
def nextEnds (item : Item) : List Char → List Bool → List Bool
  | c :: text, _ :: shorter =>
    (item.accepts c && shorter.headD false) :: nextEnds item text shorter
  | _, _ => [false]

/-- For each end of a text, the longest first, whether some elements cover it. -/
def coveredEnds (text : List Char) : List Item → List Bool
  | [] => text.foldr (fun _ ends => false :: ends) [true]
  | .many :: rest => someEnds (coveredEnds text rest)
  | item :: rest => nextEnds item text (coveredEnds text rest)

/-- Whether a text is covered by elements. -/
def covers (items : List Item) (text : List Char) : Bool := (coveredEnds text items).headD false

/-- Whether a pattern covers a name. -/
def isMatch (pattern name : String) : Bool :=
  covers (itemsOf (pattern.toList.length + 1) pattern.toList) name.toList

end Glob

end QueryTypes
