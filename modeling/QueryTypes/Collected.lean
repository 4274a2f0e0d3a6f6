import QueryTypes.GraphQL.Syntax
import QueryTypes.Text.SingleQuoted

/-!
# Collected documents

A run works on named operations and fragments, each together with the document
that holds it. Several of them may live in one document, and that is more than
holding equal ones: the document is handed on once for all of them. A
`QueryTypes.SharedDocument` therefore carries the number it is known by.

The definition that an entry stands for is found in its document as written by
`QueryTypes.GraphQL.Document.find?`.
-/

namespace QueryTypes

/-- What a collected document is. -/
inductive DocumentKind where
  /-- A query, mutation or subscription. -/
  | operation
  /-- A fragment. -/
  | fragment
  deriving DecidableEq, Inhabited

/-- The word for a kind of document. -/
def DocumentKind.word : DocumentKind → String
  | operation => "operation"
  | fragment => "fragment"

/-- The kind of document that a word stands for. -/
def DocumentKind.ofWord? (word : String) : Option DocumentKind :=
  if word = "operation" then some operation
  else if word = "fragment" then some fragment
  else none

/-- A parsed document with the number it is known by; entries that give the same
number share the document. -/
structure SharedDocument where
  /-- The number the document is known by. -/
  id : Nat
  /-- The document. -/
  document : GraphQL.Document
  deriving Inhabited

/-- A named operation or fragment with the document it lives in. -/
structure CollectedDocument where
  /-- The name of the operation or fragment. -/
  name : String
  /-- Which of the two it is. -/
  kind : DocumentKind
  /-- The document that is scrubbed and shaped. -/
  document : SharedDocument
  /-- The document as written, from which the types of the entry are derived. -/
  asWritten : SharedDocument := document
  /-- Whether the document takes part in the internal shapes. -/
  generateStore : Bool := true
  /-- Whether the entry gets type definitions of its own. -/
  generateArtifact : Bool := true
  deriving Inhabited

/-! ### Looking definitions up -/

/-- An operation or fragment found under its name. -/
inductive NamedDefinition where
  /-- An operation. -/
  | operation (operation : GraphQL.Operation)
  /-- A fragment. -/
  | fragment (fragment : GraphQL.Fragment)
  deriving Inhabited

/-- The found definition as a definition of a document. -/
def NamedDefinition.toDefinition : NamedDefinition → GraphQL.Definition
  | operation o => .operation o
  | fragment f => .fragment f

/-- A document has no definition of this name and kind. -/
structure LookupError where
  /-- The name looked for. -/
  name : String
  /-- The kind looked for. -/
  kind : DocumentKind
  deriving DecidableEq

/-- What is said about a definition that is not there. -/
def LookupError.message (e : LookupError) : String :=
  "Could not find " ++ e.kind.word ++ " definition named " ++ Text.quotedName e.name

/-- The definition, if it is of this name and kind. -/
def GraphQL.Definition.named? (name : String) (kind : DocumentKind) :
    GraphQL.Definition → Option NamedDefinition
  | .operation o =>
    if kind = .operation ∧ o.name = some name then some (.operation o) else none
  | .fragment f => if kind = .fragment ∧ f.name = name then some (.fragment f) else none
  | _ => none

/-- The first definition of this name and kind. -/
def GraphQL.Document.find? (document : GraphQL.Document) (name : String)
    (kind : DocumentKind) : Except LookupError NamedDefinition :=
  match document.definitions.findSome? (GraphQL.Definition.named? name kind) with
  | some found => .ok found
  | none => .error ⟨name, kind⟩

end QueryTypes
