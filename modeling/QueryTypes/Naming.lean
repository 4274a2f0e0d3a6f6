import QueryTypes.GraphQL.Syntax
import QueryTypes.Text.UpperCase

/-!
# Derived names

The names of the types that are generated for an operation or a fragment, all made
of its own name. Names with a dollar sign cannot clash with names of GraphQL.
-/

namespace QueryTypes

namespace Naming

open GraphQL (OperationKind)

/-- The type of an operation's variables. -/
def input (name : String) : String := name ++ "$input"

/-- The type of an operation's result. -/
def result (name : String) : String := name ++ "$result"

/-- The type of what is handed over once a query is loaded. -/
def afterLoad (name : String) : String := name ++ "$afterLoad"

/-- The type of a fragment's data. -/
def data (name : String) : String := name ++ "$data"

/-- The internal shape of a fragment. -/
def fragmentShape (name : String) : String := name ++ "Fragment"

/-- The word for a kind of operation as the end of a name. -/
def suffix : OperationKind → String
  | .query => "Query"
  | .mutation => "Mutation"
  | .subscription => "Subscription"

/-- The internal shape of an operation. -/
def shape (name : String) (kind : OperationKind) : String := name ++ suffix kind

/-- The internal shape of an operation's variables, from the shape of the operation. -/
def variablesOfShape (shape : String) : String := shape ++ "Variables"

/-- The internal shape of an operation's variables. -/
def variablesShape (name : String) (kind : OperationKind) : String :=
  variablesOfShape (shape name kind)

/-- A word with its first letter in upper case; an empty word has no first letter. -/
def capitalized? : List Char → Option (List Char)
  | [] => none
  | c :: rest => some (Text.upperCase c ++ rest)

/-- The internal shape of an operation whose kind is given by any word. -/
def shapeOfWord? (name word : String) : Option String :=
  (capitalized? word.toList).map fun chars => name ++ String.ofList chars

theorem shapeOfWord?_word (name : String) (kind : OperationKind) :
    shapeOfWord? name kind.word = some (shape name kind) := by
  cases kind <;> rfl

/-- The key under which a value carries the fragments that are masked in it. -/
def fragmentsKey : String := "$fragments"

end Naming

end QueryTypes
