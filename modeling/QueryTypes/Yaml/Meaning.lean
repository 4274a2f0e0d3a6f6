import QueryTypes.Yaml.Merge
import QueryTypes.Yaml.Value

/-!
# What a YAML text stands for

A document has a value if each of its nodes has one. The nodes are looked at level by level:
what stands in a list, set or mapping is only looked into after everything beside it has been
looked at. So the first fault is one on the least deep level, and of several on one level the
first in order. Each node is looked at once, and is what it was found to be then, though it
may be merged into other mappings later. What a document was found to be can be unfolded to
any depth.
-/

namespace QueryTypes

namespace Yaml

/-- What a node was found to be: one value, or something with nodes as its parts. -/
inductive Finding where
  | single (value : Value)
  | list (items : List Nat)
  | set (keys : List Nat)
  | mapping (entries : List (Nat × Nat))
  /-- A list whose items are mappings with one entry each. -/
  | pairs (entries : List (Nat × Nat))
  deriving Inhabited

/-- What a list, set or mapping is found to be before somebody looks into it. -/
def Finding.unopened? : Tag → Option Finding
  | .sequence => some (.list [])
  | .set => some (.set [])
  | .mapping => some (.mapping [])
  | .orderedMapping | .pairs => some (.pairs [])
  | _ => none

/-- What is known about a document. -/
structure Survey where
  /-- The document, with everything merged that had to be. -/
  document : Document
  /-- How many of its entries asked for the entries of other mappings at first. -/
  merges : Nat
  /-- What the nodes were found to be, each at the place of its number. -/
  findings : Array (Option Finding)
  /-- The lists, sets and mappings that have yet to be looked into, the last one first. -/
  ahead : List Nat

namespace Survey

/-- Before anything is known about a document. -/
def start (d : Document) : Survey := ⟨d, d.mergeCount, d.nodes.map fun _ => none, []⟩

/-- What a node was found to be, if it has been looked at. -/
def finding? (s : Survey) (n : Nat) : Option Finding := s.findings.getD n none

/-- A step that finds out something, or meets a fault. -/
abbrev Step := StateT Survey (Except Fault)

/-! ### Looking at nodes -/

/-- Takes down what a node was found to be. -/
def note (n : Nat) (finding : Finding) : Step Unit :=
  modify fun s => { s with findings := s.findings.setIfInBounds n (some finding) }

/-- What a single node stands for. A time is the one thing that a mapping cannot write. -/
def single (d : Document) (tag : Tag) (n : Nat) : Except Fault Value := do
  let written ← orMalformed (d.text? n)
  if tag = .time && !d.isScalar n then .error .timeOfMapping
  else Value.ofText tag n written

/-- Looks at a node, if nobody has before. -/
def visit (n : Nat) : Step Unit := do
  let s ← get
  if (s.finding? n).isNone then
    let tag ← orMalformed (s.document.kind? n)
    match Finding.unopened? tag with
    | some finding =>
      note n finding
      modify fun s => { s with ahead := n :: s.ahead }
    | none => note n (.single (← single s.document tag n))

/-- Looks at a key and its value. A key is a single value. -/
def visitEntry (entry : Nat × Nat) : Step Unit := do
  visit entry.1
  match (← get).finding? entry.1 with
  | some (.single _) => visit entry.2
  | _ => throw .malformed

/-- Looks at the key and the value that a mapping with one entry is made of. -/
def visitPair (n : Nat) : Step (Nat × Nat) := do
  match (← get).document.node n with
  | .mapping _ [(key, value)] =>
    visit key
    visit value
    return (key, value)
  | _ => throw .malformed

/-! ### Looking into nodes -/

/-- Looks at the entries of a mapping, after everything is merged into it that has to be. -/
def visitEntries (n : Nat) : Step (List (Nat × Nat)) := do
  let s ← get
  let d ← orMalformed (s.document.merged? s.merges n)
  set { s with document := d }
  let entries ← orMalformed (d.entries? n)
  entries.forM visitEntry
  return entries

/-- Looks into a list, set or mapping. -/
def visitParts (n : Nat) : Step Unit := do
  let s ← get
  match s.finding? n, s.document.node n with
  | some (.list _), .sequence _ items =>
    items.forM visit
    note n (.list items)
  | some (.pairs _), .sequence _ items => note n (.pairs (← items.mapM visitPair))
  | some (.set _), _ => note n (.set ((← visitEntries n).map Prod.fst))
  | some (.mapping _), _ => note n (.mapping (← visitEntries n))
  | _, _ => throw .malformed

/-- Looks into all that is ahead, level by level, given enough steps. -/
def visitLevels : Nat → Step Unit
  | 0 => return
  | fuel + 1 => do
    let ahead := (← get).ahead
    if !ahead.isEmpty then
      modify fun s => { s with ahead := [] }
      ahead.reverse.forM visitParts
      visitLevels fuel

/-- What the nodes of a document are. -/
def of (d : Document) : Except Fault Survey := do
  let ((), s) ← (visit d.root *> visitLevels d.nodes.size).run (start d)
  return s

/-! ### Unfolding -/

/-- What a node stands for, with everything deeper than some level left out. -/
def unfold (s : Survey) : Nat → Nat → Value
  | depth, n => match depth, s.finding? n with
    | _, none => .folded
    | _, some (.single value) => value
    | 0, _ => .folded
    | depth + 1, some (.list items) => .list (items.map (s.unfold depth))
    | depth + 1, some (.set keys) =>
      .set ((Value.collect (keys.map fun key => (s.unfold depth key, .null))).map Prod.fst)
    | depth + 1, some (.mapping entries) =>
      .mapping (Value.collect (entries.map fun (key, value) =>
        (s.unfold depth key, s.unfold depth value)))
    | depth + 1, some (.pairs entries) =>
      .list (entries.map fun (key, value) => .list [s.unfold depth key, s.unfold depth value])

end Survey

/-- The value that a text stands for, with everything deeper than some level left out. -/
def valueOf (depth : Nat) (content : String) : Except Fault Value := do
  let d ← Document.ofStream (Token.streamOf content)
  return (← Survey.of d).unfold depth d.root

end Yaml

end QueryTypes
