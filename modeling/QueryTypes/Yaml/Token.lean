import QueryTypes.Yaml.Scalar

/-!
# Tokens of a YAML text

A text as a list of tokens, in which the structure that YAML shows by indentation is marked:
a block opens where something is indented more than the block around it, and closes where a
line is indented less. A key is only known as one when its colon comes, so places where a
key may have begun are kept, one for each open bracket, until the line ends or the text has
gone on for too long; the marks of the key are then put in at that place. A fault in a text
does not hide the tokens before it, so a reader that finds something wrong with those says so
first.
-/

namespace QueryTypes

namespace Yaml

/-- A line before a document that says how to read it. -/
inductive Directive where
  /-- The version of YAML the document is written in. -/
  | version (major : Nat)
  /-- An abbreviation for the beginning of tags. -/
  | handle (name beginning : String)
  /-- Anything else. -/
  | reserved

/-- A token. -/
inductive Token where
  /-- A line before a document. -/
  | directive (d : Directive)
  /-- The mark at the start of a document. -/
  | documentStart
  /-- The mark at the end of a document. -/
  | documentEnd
  /-- A sequence in block style opens. -/
  | blockSequence
  /-- A mapping in block style opens. -/
  | blockMapping
  /-- A sequence or mapping in block style closes. -/
  | blockEnd
  /-- A square bracket opens. -/
  | openSequence
  /-- A square bracket closes. -/
  | closeSequence
  /-- A curly bracket opens. -/
  | openMapping
  /-- A curly bracket closes. -/
  | closeMapping
  /-- The mark of an item in block style. -/
  | item
  /-- The comma between items in brackets. -/
  | comma
  /-- A key follows. -/
  | key
  /-- A value follows. -/
  | value
  /-- The node of an anchor, once more. -/
  | reference (name : String)
  /-- An anchor of the node that follows. -/
  | anchor (name : String)
  /-- A tag of the node that follows: a handle, if it has one, and the rest. -/
  | tag (handle : Option String) (rest : String)
  /-- A scalar, in plain style or another one. -/
  | scalar (text : String) (isPlain : Bool)

/-- The tokens of a text. If the text breaks off in a fault, these are the tokens that are
certain by then, and whoever reads past them meets the fault. -/
structure TokenStream where
  /-- The tokens in order. -/
  tokens : List Token
  /-- What stands behind them, if not the end of the text. -/
  fault : Option Fault

namespace Token

/-! ### Tags -/

/-- The characters of a tag, apart from its handle. -/
def isTagChar (c : Char) : Bool :=
  ('0' ≤ c && c ≤ '9') || ('A' ≤ c && c ≤ 'Z') || ('a' ≤ c && c ≤ 'z') ||
    "-;/?:@&=+$,_.!~*\x27()[]".toList.contains c

/-- The bytes of the escapes at the front. -/
def escapedBytes? : List Char → Option (List UInt8 × List Char)
  | '%' :: a :: b :: rest => match Text.hexNumber? 0 [a, b], escapedBytes? rest with
    | some n, some (bytes, last) => some (UInt8.ofNat n :: bytes, last)
    | _, _ => none
  | '%' :: _ => none
  | rest => some ([], rest)

/-- The characters of a tag, with its escapes resolved. -/
def tagChars? : Nat → Cursor → Option (List Char × Cursor)
  | 0, _ => none
  | fuel + 1, c =>
    let (plain, c) := c.span isTagChar
    if c.sees '%' then match escapedBytes? c.rest with
      | none => none
      | some (bytes, _) => match String.fromUTF8? ⟨bytes.toArray⟩ with
        | none => none
        | some text => (tagChars? fuel (c.skip (3 * bytes.length))).map fun (more, last) =>
            (plain ++ text.toList ++ more, last)
    else some (plain, c)

/-- The rest of a tag behind its handle, which is not empty. -/
def tagRest? (c : Cursor) : Option (String × Cursor) :=
  match tagChars? c.bound c with
  | some ([], _) | none => none
  | some (text, next) => some (String.ofList text, next)

/-- The handle of a tag: an exclamation mark, or a word between two of them. -/
def tagHandle? (c : Cursor) : Option (String × Cursor) :=
  if !c.sees '!' then none
  else if c.peekAt 1 = some ' ' then some ("!", c.advance)
  else
    let (word, next) := c.advance.span isWordChar
    if next.sees '!' then some (String.ofList ('!' :: word ++ ['!']), next.advance) else none

/-- A tag. -/
def tag? (c : Cursor) : Option (Token × Cursor) :=
  let found : Option (Token × Cursor) :=
    if c.peekAt 1 = some '<' then match tagRest? (c.skip 2) with
      | none => none
      | some (rest, next) => if next.sees '>' then some (.tag none rest, next.advance) else none
    else if endsWord (c.peekAt 1) then some (.tag none "!", c.advance)
    else
      let word := (c.rest.drop 1).takeWhile fun d => !endsDirective (some d)
      let handle := if word.contains '!' then tagHandle? c else some ("!", c.advance)
      match handle with
      | none => none
      | some (name, next) => (tagRest? next).map fun (rest, last) => (.tag (some name) rest, last)
  found.filter fun (_, next) => endsDirective next.peek

/-! ### Anchors -/

/-- Whether the name of an anchor may end here. -/
def endsAnchor (c : Option Char) : Bool :=
  endsWord c || c.any ['?', ':', ',', ']', '\x7d', '%', '@', '\x60'].contains

/-- The name of an anchor behind its mark. -/
def anchorName? (c : Cursor) : Option (String × Cursor) :=
  let (name, next) := c.span isWordChar
  if name.isEmpty || !endsAnchor next.peek then none else some (String.ofList name, next)

/-! ### Directives -/

/-- A run of decimal digits, which is neither empty nor too long. -/
def number (c : Cursor) : Except Fault (Nat × Cursor) :=
  let (digits, next) := c.span Decimal.isDigit
  if digits.isEmpty then .error .malformed
  else if Decimal.maxDigits < digits.length then .error .notNumber
  else .ok (Decimal.toNat digits, next)

/-- The rest of a directive that tells the version. -/
def version (c : Cursor) : Except Fault (Directive × Cursor) := do
  let (major, next) ← number (c.skipWhile (· = ' '))
  if !next.sees '.' then .error .malformed
  let (_, last) ← number next.advance
  if endsDirective last.peek then .ok (.version major, last) else .error .malformed

/-- The rest of a directive that gives an abbreviation. -/
def handle? (c : Cursor) : Option (Directive × Cursor) :=
  match tagHandle? (c.skipWhile (· = ' ')) with
  | none => none
  | some (name, next) =>
    if !next.sees ' ' then none
    else match tagRest? (next.skipWhile (· = ' ')) with
      | none => none
      | some (beginning, last) =>
        if endsDirective last.peek then some (.handle name beginning, last) else none

/-- A directive behind its mark, with the rest of its line. -/
def directiveLine (c : Cursor) : Except Fault (Token × Cursor) := do
  let (name, next) := c.span isWordChar
  if name.isEmpty || !endsDirective next.peek then .error .malformed
  let (d, last) ← match String.ofList name with
    | "YAML" => version next
    | "TAG" => orMalformed (handle? next)
    | _ => .ok (.reserved, next.skipWhile fun d => !isBreak d)
  return (.directive d, ← orMalformed (Scalar.headerLine? last))

/-! ### Keeping track -/

/-- A place where a key may have begun. -/
structure KeyPlace where
  /-- How many tokens come before it. -/
  position : Nat
  /-- Whether it has to be a key, since its line cannot be anything else. -/
  required : Bool
  /-- How many characters come before it. -/
  index : Nat
  /-- The line it is on. -/
  line : Nat
  /-- Its column. -/
  column : Nat

/-- How far a text has been taken apart. -/
structure Progress where
  /-- What is left. -/
  cursor : Cursor
  /-- The tokens so far, the last one first. -/
  tokens : List Token := []
  /-- The columns of the open blocks, the innermost first. -/
  blocks : List Nat := []
  /-- Outside of brackets and inside each open one, the innermost first: the place where a
  key may have begun. -/
  levels : List (Option KeyPlace) := [none]
  /-- Whether a key may begin here. -/
  allowsKey : Bool := true

namespace Progress

/-- Whether a bracket is open. -/
def inFlow (p : Progress) : Bool := 1 < p.levels.length

/-- The column of the innermost block; outside of all of them it is before the first. -/
def indent (p : Progress) : Int :=
  match p.blocks with
  | [] => -1
  | column :: _ => column

/-- One token more. -/
def emit (p : Progress) (token : Token) : Progress := { p with tokens := token :: p.tokens }

/-- One token more, of so many characters. -/
def take (p : Progress) (count : Nat) (token : Token) : Progress :=
  { p.emit token with cursor := p.cursor.skip count }

/-- Whether a key may begin at what follows. -/
def allowing (p : Progress) (allows : Bool) : Progress := { p with allowsKey := allows }

/-- Gives up the place of a key; fails if it has to be one. -/
def dropPlace (place : Option KeyPlace) : Except Fault Unit :=
  if place.any KeyPlace.required then .error .malformed else .ok ()

/-- Sets the place where a key may have begun at the innermost level. -/
def setPlace (p : Progress) (place : Option KeyPlace) : Except Fault Progress := do
  dropPlace p.levels.head?.join
  return { p with levels := place :: p.levels.tail }

/-- No key has begun at the innermost level. -/
def noKey (p : Progress) : Except Fault Progress := p.setPlace none

/-- A key may begin here, where that is allowed. -/
def mayBeKey (p : Progress) : Except Fault Progress :=
  let c := p.cursor
  if p.allowsKey then
    p.setPlace (some ⟨p.tokens.length, !p.inFlow && p.indent = c.column, c.index, c.line, c.column⟩)
  else .ok p

/-- The farthest that a key may be from its colon. -/
def keyReach : Nat := 1024

/-- Whether a place is on an earlier line or too far behind. -/
def isStale (p : Progress) (k : KeyPlace) : Bool :=
  k.line ≠ p.cursor.line || keyReach < p.cursor.index - k.index

/-- Gives up the places that are stale. -/
def dropStale (p : Progress) : Except Fault Progress := do
  let levels ← p.levels.mapM fun place => do
    if place.any p.isStale then
      dropPlace place
      return none
    else return place
  return { p with levels := levels }

/-- Closes the innermost of these blocks that are indented more than a column. -/
def closeAbove (column : Int) : List Nat → List Token → List Nat × List Token
  | [], tokens => ([], tokens)
  | block :: rest, tokens =>
    if column < block then closeAbove column rest (.blockEnd :: tokens) else (block :: rest, tokens)

/-- Closes the blocks that are indented more than a column, unless a bracket is open. -/
def closeBlocks (p : Progress) (column : Int) : Progress :=
  if p.inFlow then p
  else
    let (blocks, tokens) := closeAbove column p.blocks p.tokens
    { p with blocks := blocks, tokens := tokens }

/-- Opens a block at a column, if that is indented more than the innermost one. -/
def openBlock (p : Progress) (column : Nat) (token : Token) : Progress :=
  if p.indent < column then { p.emit token with blocks := column :: p.blocks } else p

/-! ### The tokens -/

/-- Past blanks, comments and line ends. A new line may begin with a key, unless a bracket
is open. -/
def skipSpace : Nat → Progress → Progress
  | 0, p => p
  | fuel + 1, p =>
    let c := (p.cursor.skipWhile (· = ' ')).skipComment
    match c.lineBreak with
    | (none, _) => { p with cursor := c }
    | (some _, next) => skipSpace fuel { p with
        cursor := next, allowsKey := p.allowsKey || !p.inFlow }

/-- A mark between documents, or the end of the text: all blocks end. -/
def betweenDocuments (p : Progress) : Except Fault Progress := do
  let p ← (p.closeBlocks (-1)).noKey
  return p.allowing false

/-- An opening bracket. -/
def openBracket (p : Progress) (token : Token) : Except Fault Progress := do
  let p ← p.mayBeKey
  return ({ p with levels := none :: p.levels }.take 1 token).allowing true

/-- A closing bracket. -/
def closeBracket (p : Progress) (token : Token) : Except Fault Progress := do
  if !p.inFlow then .error .malformed
  else
    let p ← p.noKey
    return ({ p with levels := p.levels.tail }.take 1 token).allowing false

/-- The mark of an item or of a key: it may open a block, but only where a key may begin. -/
def blockMark (p : Progress) (opening token : Token) (allows : Bool) : Except Fault Progress := do
  if p.inFlow then return ((← p.noKey).take 1 token).allowing allows
  else if !p.allowsKey then .error .malformed
  else
    let p ← (p.openBlock p.cursor.column opening).noKey
    return (p.take 1 token).allowing allows

/-- The colon behind a key: puts in the marks of the key where it began, and the start of a
block if it is indented more than the innermost one. -/
def colonAt (p : Progress) (k : KeyPlace) : Progress :=
  let (later, earlier) := p.tokens.splitAt (p.tokens.length - k.position)
  let opens := !p.inFlow && p.indent < k.column
  let marks : List Token := if opens then [.key, .blockMapping] else [.key]
  { p with
    tokens := later ++ marks ++ earlier
    blocks := if opens then k.column :: p.blocks else p.blocks
    levels := none :: p.levels.tail }

/-- The colon before a value. -/
def colon (p : Progress) : Except Fault Progress :=
  match p.levels.head?.join with
  | some k => return ((p.colonAt k).take 1 .value).allowing false
  | none => p.blockMark .blockMapping .value (!p.inFlow)

/-- A token that may begin a key, read off the front by a reader. -/
def leaf (p : Progress) (read : Cursor → Except Fault (Token × Cursor)) :
    Except Fault Progress := do
  let p ← p.mayBeKey
  let (token, next) ← read p.cursor
  return { (p.emit token).allowing false with cursor := next }

/-- A plain scalar. If it was left at the front of a line, a key may begin there. -/
def plainScalar (p : Progress) : Except Fault Progress := do
  let p ← p.mayBeKey
  let indent := (p.indent + 1).toNat
  let (text, ended, next) := Scalar.plain p.inFlow indent p.cursor.bound p.cursor
  return { (p.emit (.scalar (String.ofList text) true)).allowing ended with cursor := next }

/-- A block scalar. -/
def blockScalar (p : Progress) (folded : Bool) : Except Fault Progress := do
  let p ← p.noKey
  let (text, next) ← orMalformed (Scalar.block? folded p.indent p.cursor.advance)
  return { (p.emit (.scalar (String.ofList text) false)).allowing true with cursor := next }

/-- A quoted scalar. -/
def quotedScalar (double : Bool) (c : Cursor) : Except Fault (Token × Cursor) := do
  let (text, next) ← Scalar.quoted double c.bound c.advance
  return (.scalar (String.ofList text) false, next)

/-- A directive, which stands between documents. -/
def directive (p : Progress) : Except Fault Progress := do
  let p ← p.betweenDocuments
  let (token, next) ← directiveLine p.cursor.advance
  return { p.emit token with cursor := next }

/-- The characters that begin something other than a plain scalar. -/
def isIndicator (d : Char) : Bool :=
  "-?:,[]\x7b\x7d#&*!|>\x27\"%@\x60".toList.contains d

/-- Whether a plain scalar begins here. -/
def beginsPlain (p : Progress) (d : Char) : Bool :=
  !(isIndicator d || isBlank d || isBreak d) ||
    (!endsWord (p.cursor.peekAt 1) && (d = '-' || (!p.inFlow && (d = '?' || d = ':'))))

/-- The token that begins with a character. -/
def next (p : Progress) (d : Char) : Except Fault Progress :=
  let c := p.cursor
  let marks := p.inFlow || endsWord (c.peekAt 1)
  let name (wrap : String → Token) (c : Cursor) : Except Fault (Token × Cursor) := do
    let (text, last) ← orMalformed (anchorName? c.advance)
    return (wrap text, last)
  if d = '%' && c.column = 0 then p.directive
  else if c.column = 0 && c.atMark '-' then do return (← p.betweenDocuments).take 3 .documentStart
  else if c.column = 0 && c.atMark '.' then do return (← p.betweenDocuments).take 3 .documentEnd
  else if d = '[' then p.openBracket .openSequence
  else if d = '\x7b' then p.openBracket .openMapping
  else if d = ']' then p.closeBracket .closeSequence
  else if d = '\x7d' then p.closeBracket .closeMapping
  else if d = ',' then do return ((← p.noKey).take 1 .comma).allowing true
  else if d = '-' && endsWord (c.peekAt 1) then p.blockMark .blockSequence .item true
  else if d = '?' && marks then p.blockMark .blockMapping .key (!p.inFlow)
  else if d = ':' && marks then p.colon
  else if d = '*' then p.leaf (name .reference)
  else if d = '&' then p.leaf (name .anchor)
  else if d = '!' then p.leaf fun c => orMalformed (tag? c)
  else if (d = '|' || d = '>') && !p.inFlow then p.blockScalar (d = '>')
  else if d = '\x27' || d = '"' then p.leaf (quotedScalar (d = '"'))
  else if p.beginsPlain d then p.plainScalar
  else .error .malformed

/-- The tokens that nothing will be put in between or before any more: those before the first
place where a key may still turn out to have begun. -/
def settled (p : Progress) : List Token :=
  let places := p.levels.filterMap fun place => place.filter fun k => !p.isStale k
  p.tokens.reverse.take (places.foldl (fun least k => min least k.position) p.tokens.length)

/-- One token further, or all tokens if the text ends here. -/
def step (p : Progress) : Except Fault (Progress ⊕ List Token) := do
  let p ← (p.skipSpace p.cursor.bound).dropStale
  let p := p.closeBlocks p.cursor.column
  match p.cursor.peek with
  | none => return .inr (← p.betweenDocuments).tokens.reverse
  | some d => return .inl (← p.next d)

/-- All tokens of what is left, as far as there are any. -/
def finish : Nat → Progress → TokenStream
  | 0, p => ⟨p.settled, some .malformed⟩
  | fuel + 1, p => match p.step with
    | .error fault => ⟨p.settled, some fault⟩
    | .ok (.inl next) => finish fuel next
    | .ok (.inr tokens) => ⟨tokens, none⟩

end Progress

/-- The tokens of a text. -/
def streamOf (text : String) : TokenStream :=
  if text.toList.all isAllowed then
    let start : Cursor := { rest := text.toList }
    let start := if start.sees '\ufeff' then start.advance else start
    Progress.finish (start.bound + 1) { cursor := start }
  else ⟨[], some .malformed⟩

end Token

end Yaml

end QueryTypes
