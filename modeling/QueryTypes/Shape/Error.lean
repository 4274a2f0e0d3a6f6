import QueryTypes.GraphQL.Syntax
import QueryTypes.Text.SingleQuoted

/-!
# Why there are no shapes

The reasons why a batch of documents has no internal shapes, and what is said about each.
-/

namespace QueryTypes

open GraphQL (OperationKind)

/-- Why no shapes can be generated. -/
inductive ShapeError where
  /-- An operation has no name. -/
  | unnamedOperation
  /-- The schema has no root type for the kind of operation. -/
  | missingRoot (kind : OperationKind) (document : String)
  /-- The type of a variable is not in the schema. -/
  | unknownVariableType (name document : String)
  /-- The condition of a fragment is no type of the schema. -/
  | unknownType (type document : String)
  /-- A type has no such field. -/
  | unknownField (type field document : String)
  /-- A spread names no fragment. -/
  | unknownFragment (fragment document : String)
  /-- A field is selected in a fragment whose type is not in the schema. -/
  | fieldOfUnknownType (field document : String)
  /-- A fragment spreads itself. -/
  | fragmentCycle (fragment document : String)
  /-- Two shapes would have one name. -/
  | duplicateShape (name : String)
  /-- The values of an enumeration cannot be read. -/
  | unreadableEnum (name : String)
  /-- A generator other than the built-in one has reasons of its own. -/
  | refused (reason : String)
  deriving DecidableEq

/-- What is said about a failure. -/
def ShapeError.message : ShapeError → String
  | unnamedOperation => "Operations must have a name to generate shapes"
  | missingRoot kind document =>
    "Schema has no " ++ kind.word ++ " type (document: " ++ document ++ ")"
  | unknownVariableType name document =>
    "Unknown type for variable $" ++ name ++ " (document: " ++ document ++ ")"
  | unknownType type document =>
    "Unknown type " ++ Text.quotedName type ++ " (document: " ++ document ++ ")"
  | unknownField type field document =>
    "Unknown field " ++ type ++ "." ++ field ++ " (document: " ++ document ++ ")"
  | unknownFragment fragment document =>
    "Unknown fragment " ++ Text.quotedName fragment ++ " (document: " ++ document ++ ")"
  | fieldOfUnknownType field document =>
    "No type to look up field " ++ field ++ " (document: " ++ document ++ ")"
  | fragmentCycle fragment document =>
    "Fragment " ++ Text.quotedName fragment ++ " spreads itself (document: " ++ document ++ ")"
  | duplicateShape name => "Duplicate shape name " ++ Text.quotedName name
  | unreadableEnum name => "Values of " ++ name ++ " cannot be read"
  | refused reason => reason

end QueryTypes
