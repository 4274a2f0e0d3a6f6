import QueryTypes.Keyed
import QueryTypes.Yaml.Token

/-!
# Nodes of a YAML text

A text stands for one document: scalars, sequences and mappings that are parts of each other.
A reference stands for the very node of its anchor, so a node may be part of several others
and even of itself; that is why nodes have numbers and name their parts by these. A text that
holds no document, or only an empty one, stands for an empty scalar.

Reading goes through the tokens in order and stops at the first thing that is wrong. What is
wrong with the tokens themselves is only met when they are used up.
-/

namespace QueryTypes

namespace Yaml

/-! ### Nodes -/

/-- A node: a scalar, sequence or mapping, with its tag if it has one. -/
inductive Node where
  /-- A text. Without a tag, a text in plain style says by its form what it is. -/
  | scalar (tag : Option String) (isPlain : Bool) (text : String)
  /-- Items in order. -/
  | sequence (tag : Option String) (items : List Nat)
  /-- Keys with values in order; one key may stand there more than once. -/
  | mapping (tag : Option String) (entries : List (Nat × Nat))
  deriving Inhabited

/-- The scalar that stands where nothing is written. -/
def Node.empty : Node := .scalar none true ""

/-- The nodes of a text, each at the place of its number. -/
structure Document where
  /-- All nodes. -/
  nodes : Array Node
  /-- The number of the node that the others are part of. -/
  root : Nat

/-- The node of a number; where there is none it is empty. -/
def Document.node (d : Document) (n : Nat) : Node := d.nodes.getD n .empty

namespace Document

/-! ### Reading -/

/-- What all tags of the standard begin with. -/
def standardTags : String := "tag:yaml.org,2002:"

/-- The abbreviations that need not be declared. -/
def usualHandles : List (String × String) := [("!", "!"), ("!!", standardTags)]

/-- What is left to read, and what is known from before. -/
structure Source where
  /-- The tokens that are left. -/
  stream : TokenStream
  /-- The nodes so far. -/
  nodes : Array Node := #[]
  /-- The nodes of the anchors so far. -/
  anchors : List (String × Nat) := []
  /-- The abbreviations for tags. -/
  handles : List (String × String) := usualHandles

/-- A step that reads some tokens, or meets a fault. -/
abbrev Reading := StateT Source (Except Fault)

/-- Something is wrong with the text. -/
def fail {α : Type} : Reading α := throw .malformed

/-- A condition that has to hold. -/
def require (condition : Bool) : Reading Unit := if condition then return () else fail

/-- Something that has to be there. -/
def present {α : Type} (found : Option α) : Reading α := orMalformed found

/-- The next token. -/
def peek : Reading (Option Token) := do
  match (← get).stream with
  | ⟨[], some fault⟩ => throw fault
  | ⟨tokens, _⟩ => return tokens.head?

/-- The tokens that are left. -/
def setTokens (tokens : List Token) : Reading Unit :=
  modify fun s => { s with stream := { s.stream with tokens := tokens } }

/-- Past one token. -/
def skip : Reading Unit := do setTokens (← get).stream.tokens.tail

/-- Whether the next token has a property. -/
def sees (p : Token → Bool) : Reading Bool := return (← peek).any p

/-- Past one token, if it has a property. -/
def skipIf (p : Token → Bool) : Reading Bool := do
  let found ← sees p
  if found then skip
  return found

/-- Past one token that has to have a property. -/
def expect (p : Token → Bool) : Reading Unit := do require (← skipIf p)

/-- Takes up a node under the next number. -/
def add (node : Node) : Reading Nat := do
  let number := (← get).nodes.size
  modify fun s => { s with nodes := s.nodes.push node }
  return number

/-- Puts a node in the place of a number that was taken up before. -/
def define (number : Nat) (node : Node) : Reading Unit :=
  modify fun s => { s with nodes := s.nodes.setIfInBounds number node }

def isItem : Token → Bool | .item => true | _ => false
def isKey : Token → Bool | .key => true | _ => false
def isValue : Token → Bool | .value => true | _ => false
def isComma : Token → Bool | .comma => true | _ => false
def isBlockEnd : Token → Bool | .blockEnd => true | _ => false
def isCloseSequence : Token → Bool | .closeSequence => true | _ => false
def isCloseMapping : Token → Bool | .closeMapping => true | _ => false
def isDocumentStart : Token → Bool | .documentStart => true | _ => false
def isDocumentEnd : Token → Bool | .documentEnd => true | _ => false
def isDirective : Token → Bool | .directive _ => true | _ => false

/-- Whether an entry of a block mapping ends before this token. -/
def endsEntry (t : Token) : Bool := isKey t || isValue t || isBlockEnd t

/-! ### Anchors and tags -/

/-- The anchor at the front, if there is one. -/
def anchor? : Reading (Option String) := do
  match ← peek with
  | some (.anchor name) =>
    skip
    return some name
  | _ => return none

/-- The tag at the front, if there is one: its handle and the rest. -/
def tag? : Reading (Option (Option String × String)) := do
  match ← peek with
  | some (.tag handle rest) =>
    skip
    return some (handle, rest)
  | _ => return none

/-- A tag with its handle resolved. -/
def resolved : Option String × String → Reading String
  | (none, rest) => return rest
  | (some handle, rest) => do
    let beginning ← present (Keyed.lookup handle (← get).handles)
    return beginning ++ rest

/-- The anchor and the tag at the front, in either order. -/
def properties : Reading (Option String × Option String) := do
  let (anchor, tag) ← match ← anchor? with
    | some name => pure (some name, ← tag?)
    | none =>
      let tag ← tag?
      pure (← anchor?, tag)
  match tag with
  | none => return (anchor, none)
  | some written => return (anchor, some (← resolved written))

/-- Takes up a node that is about to be read, under its anchor if it has one. Each anchor is
for one node. -/
def reserve (anchor : Option String) : Reading Nat := do
  let number := (← get).nodes.size
  if let some name := anchor then
    require (!Keyed.contains name (← get).anchors)
    modify fun s => { s with anchors := Keyed.insert name number s.anchors }
  add .empty

/-- The node of an anchor. -/
def referred (name : String) : Reading Nat := do present (Keyed.lookup name (← get).anchors)

/-- A tag that asks for nothing is none. -/
def givenTag (tag : Option String) : Option String := tag.filter (· ≠ "!")

/-- An empty scalar, where something was written for it. -/
def emptyIf (allowed : Bool) (tag : Option String) : Reading Node := do
  require allowed
  return .scalar tag true ""

/-! ### Parts -/

mutual

/-- A node. Only where a block may begin can it be one, and only behind a key can it be a
sequence that is indented like the key. -/
def read (inBlock behindKey : Bool) : Nat → Reading Nat
  | 0 => fail
  | fuel + 1 => do
    match ← peek with
    | some (.reference name) =>
      skip
      referred name
    | _ =>
      let (anchor, tag) ← properties
      let _ ← peek
      let number ← reserve anchor
      define number (← content inBlock behindKey (anchor.isSome || tag.isSome) tag fuel)
      return number

/-- A node behind its anchor and tag. -/
def content (inBlock behindKey mayBeEmpty : Bool) (tag : Option String) : Nat → Reading Node
  | 0 => fail
  | fuel + 1 => do
    let given := givenTag tag
    match ← peek with
    | some (.scalar text isPlain) =>
      skip
      return .scalar given (isPlain || tag = some "!") text
    | some .openSequence =>
      skip
      return .sequence given (← flowItems true fuel)
    | some .openMapping =>
      skip
      return .mapping given (← flowEntries true fuel)
    | some .item =>
      if behindKey then return .sequence given (← sameColumnItems fuel)
      else emptyIf mayBeEmpty given
    | some .blockSequence =>
      if inBlock then
        skip
        return .sequence given (← blockItems fuel)
      else emptyIf mayBeEmpty given
    | some .blockMapping =>
      if inBlock then
        skip
        return .mapping given (← blockEntries fuel)
      else emptyIf mayBeEmpty given
    | _ => emptyIf mayBeEmpty given

/-- A node, or an empty scalar where it ends at once. -/
def readOrEmpty (inBlock behindKey : Bool) (ends : Token → Bool) : Nat → Reading Nat
  | 0 => fail
  | fuel + 1 => do
    if ← sees ends then add .empty else read inBlock behindKey fuel

/-- A value behind its mark, or an empty scalar where there is none. -/
def valueOrEmpty (inBlock : Bool) (ends : Token → Bool) : Nat → Reading Nat
  | 0 => fail
  | fuel + 1 => do
    if ← skipIf isValue then readOrEmpty inBlock inBlock ends fuel else add .empty

/-- The items of a block sequence. -/
def blockItems : Nat → Reading (List Nat)
  | 0 => fail
  | fuel + 1 => do
    if ← skipIf isItem then
      let item ← readOrEmpty true false (fun t => isItem t || isBlockEnd t) fuel
      return item :: (← blockItems fuel)
    else
      expect isBlockEnd
      return []

/-- The items of a sequence that is indented like the key before it. -/
def sameColumnItems : Nat → Reading (List Nat)
  | 0 => fail
  | fuel + 1 => do
    if ← skipIf isItem then
      let item ← readOrEmpty true false (fun t => isItem t || endsEntry t) fuel
      return item :: (← sameColumnItems fuel)
    else return []

/-- The entries of a block mapping. -/
def blockEntries : Nat → Reading (List (Nat × Nat))
  | 0 => fail
  | fuel + 1 => do
    if ← skipIf isKey then
      let key ← readOrEmpty true true endsEntry fuel
      let value ← valueOrEmpty true endsEntry fuel
      return (key, value) :: (← blockEntries fuel)
    else
      expect isBlockEnd
      return []

/-- A key and its value between brackets, up to a comma or the closing one. -/
def flowEntry (isClose : Token → Bool) : Nat → Reading (Nat × Nat)
  | 0 => fail
  | fuel + 1 => do
    let ends (t : Token) : Bool := isComma t || isClose t
    let key ← readOrEmpty false false (fun t => isValue t || ends t) fuel
    return (key, ← valueOrEmpty false ends fuel)

/-- The items between square brackets. A key with a value is a mapping of its own. -/
def flowItems (isFirst : Bool) : Nat → Reading (List Nat)
  | 0 => fail
  | fuel + 1 => do
    if ← skipIf isCloseSequence then return []
    if !isFirst then expect isComma
    if ← skipIf isCloseSequence then return []
    let item ← if ← skipIf isKey then
        add (.mapping none [← flowEntry isCloseSequence fuel])
      else read false false fuel
    return item :: (← flowItems false fuel)

/-- The entries between curly brackets. A node without a colon is a key without a value. -/
def flowEntries (isFirst : Bool) : Nat → Reading (List (Nat × Nat))
  | 0 => fail
  | fuel + 1 => do
    if ← skipIf isCloseMapping then return []
    if !isFirst then expect isComma
    if ← skipIf isCloseMapping then return []
    let entry ← if ← skipIf isKey then flowEntry isCloseMapping fuel
      else pure (← read false false fuel, ← add .empty)
    return entry :: (← flowEntries false fuel)

end

/-! ### Whole documents -/

/-- The abbreviations that some directives declare: the version must be the first, and
neither it nor an abbreviation may be declared twice. -/
def declared? : Bool → List (String × String) → List Directive → Option (List (String × String))
  | _, found, [] => some found
  | hasVersion, found, .version major :: rest =>
    if hasVersion || major ≠ 1 then none else declared? true found rest
  | hasVersion, found, .handle name beginning :: rest =>
    if Keyed.contains name found then none
    else declared? hasVersion (found ++ [(name, beginning)]) rest
  | hasVersion, found, .reserved :: rest => declared? hasVersion found rest

/-- The directives at the front of some tokens, and the other tokens. -/
def spanDirectives : List Token → List Directive × List Token
  | .directive d :: rest => (d :: (spanDirectives rest).1, (spanDirectives rest).2)
  | rest => ([], rest)

/-- The abbreviations that the directives at the front declare. -/
def directives : Reading (List (String × String)) := do
  let (found, rest) := spanDirectives (← get).stream.tokens
  let declared ← present (declared? false [] found)
  setTokens rest
  return declared

/-- The node of a document, up to the mark behind it. -/
def body (fuel : Nat) : Reading Nat := do
  if ← sees fun t => isDirective t || isDocumentStart t then
    let declared ← directives
    modify fun s => { s with handles := declared ++ usualHandles }
    expect isDocumentStart
    let isEmpty := (← peek).all fun t => isDirective t || isDocumentStart t || isDocumentEnd t
    if isEmpty then add .empty else read true false fuel
  else read true false fuel

/-- The end of the text: marks may stand there, but no further document. -/
def ending : Reading Unit := do
  setTokens ((← get).stream.tokens.dropWhile isDocumentEnd)
  if (← peek).isSome then
    let _ ← directives
    let _ ← peek
    fail

/-- All nodes of a text, given enough steps. -/
def whole (fuel : Nat) : Reading Nat := do
  if (← peek).isNone then add .empty
  else
    let root ← body fuel
    ending
    return root

/-- The document that some tokens stand for. There is at most one. -/
def ofStream (stream : TokenStream) : Except Fault Document := do
  let (root, s) ← whole (3 * stream.tokens.length + 3) { stream := stream }
  return ⟨s.nodes, root⟩

end Document

end Yaml

end QueryTypes
