import QueryTypes.Yaml.Node
import QueryTypes.Yaml.Number
import QueryTypes.Yaml.Time

/-!
# Tags of YAML nodes

What a node is. A tag says so; without one, sequences and mappings are what they look like,
quoted scalars are texts, and plain scalars are told by their form. Only the tags of the
standard are known. Two of them are for keys that do something to the mapping around them.
-/

namespace QueryTypes

namespace Yaml

/-- What a node of the standard is. -/
inductive Tag where
  | null | bool | int | float | time | text | binary
  | sequence | mapping | set | orderedMapping | pairs
  /-- A key under which other mappings are merged into the one around it. -/
  | merge
  /-- A key whose value may stand for the mapping around it. -/
  | value
  /-- One of the marks that stand before nodes, which by itself stands for nothing. -/
  | mark
  deriving DecidableEq

namespace Tag

/-- The tags of the standard by their last part. -/
def table : List (String × Tag) :=
  [("null", null), ("bool", bool), ("int", int), ("float", float), ("timestamp", time),
   ("str", text), ("binary", binary), ("seq", sequence), ("map", mapping), ("set", set),
   ("omap", orderedMapping), ("pairs", pairs), ("merge", merge), ("value", value),
   ("yaml", mark)]

/-- What a written tag says. -/
def ofName? (name : String) : Option Tag :=
  (Text.dropStart? Document.standardTags.toList name.toList).bind fun rest =>
    Keyed.lookup (String.ofList rest) table

/-- The written tag of a text. -/
def textName : String := Document.standardTags ++ "str"

/-- Whether what such a node stands for has parts. -/
def isCollection : Tag → Bool
  | sequence | mapping | set | orderedMapping | pairs => true
  | _ => false

/-! ### Plain scalars -/

/-- The words for true and false. -/
def truthWords : List (String × Bool) :=
  [("yes", true), ("no", false), ("true", true), ("false", false), ("on", true), ("off", false)]

/-- A word with its first letter in upper case. -/
def title (word : String) : String :=
  match word.toList with
  | [] => ""
  | c :: rest => String.ofList (c.toUpper :: rest)

/-- Whether a plain scalar is a truth value: one of the words, in lower or upper case or
with a capital. -/
def isTruth (written : String) : Bool :=
  truthWords.any fun (word, _) =>
    written = word || written = title word || written = word.toUpper

/-- What a plain scalar is by its form. -/
def ofForm (written : String) : Tag :=
  let chars := written.toList
  if isTruth written then bool
  else if Number.isFloat chars then float
  else if Number.isWhole chars then int
  else if ["", "~", "null", "Null", "NULL"].contains written then null
  else if Time.isTime chars then time
  else if written = "<<" then merge
  else if written = "=" then value
  else if ["!", "&", "*"].contains written then mark
  else text

/-- What a scalar is by its form. A line feed behind it does not count, and cannot stand there
unless a quoted scalar is asked for its form. -/
def ofPlain (written : String) : Tag :=
  if written = "\n" then text
  else ofForm (String.ofList (Time.dropLineEnd written.toList))

end Tag

/-! ### Nodes -/

/-- What a node is, if that is known. -/
def Node.kind? : Node → Option Tag
  | .scalar (some tag) _ _ | .sequence (some tag) _ | .mapping (some tag) _ => Tag.ofName? tag
  | .scalar none isPlain text => some (if isPlain then Tag.ofPlain text else .text)
  | .sequence none _ => some .sequence
  | .mapping none _ => some .mapping

/-- A node that is tagged as a text. -/
def Node.asText : Node → Node
  | .scalar _ isPlain text => .scalar (some Tag.textName) isPlain text
  | .sequence _ items => .sequence (some Tag.textName) items
  | .mapping _ entries => .mapping (some Tag.textName) entries

namespace Document

/-- What the node of a number is, if that is known. -/
def kind? (d : Document) (n : Nat) : Option Tag := (d.node n).kind?

/-- The text of a scalar, or of the first value that may stand for a mapping, given enough
steps. -/
def textWithin (d : Document) : Nat → Nat → Option String
  | 0, _ => none
  | fuel + 1, n => match d.node n with
    | .scalar _ _ text => some text
    | .mapping _ entries =>
      match entries.find? fun (key, _) => d.kind? key = some .value with
      | some (_, value) => d.textWithin fuel value
      | none => none
    | .sequence _ _ => none

/-- The text that a node writes, if it writes one. -/
def text? (d : Document) (n : Nat) : Option String := d.textWithin (d.nodes.size + 1) n

/-- Whether a node is a scalar. -/
def isScalar (d : Document) (n : Nat) : Bool :=
  match d.node n with
  | .scalar _ _ _ => true
  | _ => false

end Document

end Yaml

end QueryTypes
