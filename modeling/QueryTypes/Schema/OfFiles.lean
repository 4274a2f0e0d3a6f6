import QueryTypes.FileTree.Basic
import QueryTypes.GraphQL.Parser
import QueryTypes.Json.Reader
import QueryTypes.Schema.OfDocument
import QueryTypes.Schema.OfIntrospection

/-!
# Schemas from files

A schema is read from a file whose suffix says that it is JSON, which holds the result of
the introspection query, alone or under `data`; or from the GraphQL text of one file or of
all files below a directory, in the order of their paths, put together line by line.
-/

namespace QueryTypes

/-- Why no schema can be read from a path. -/
inductive SchemaFileError where
  /-- The path cannot be looked at. -/
  | unreachable (path : Path) (obstacle : FileTree.Obstacle)
  /-- The file holds no JSON that could be read. -/
  | notJson (path : Path) (fault : Json.Fault)
  /-- The file holds JSON that is not an object. -/
  | notAnObject (path : Path)
  /-- The file holds a JSON object that is no introspection result. -/
  | introspection (path : Path) (error : IntrospectionError)
  /-- There is no file to read. -/
  | noFiles (path : Path)
  /-- The text holds no document, or one that no schema can be built of. -/
  | invalid (path : Path)
  deriving DecidableEq

/-- What is said about a failure, given what is said about its cause. -/
def SchemaFileError.message (cause : String) : SchemaFileError → String
  | unreachable path _ => "Could not look at " ++ path.print ++ ": " ++ cause
  | notJson path _ | introspection path _ =>
    "Invalid introspection result in " ++ path.print ++ ": " ++ cause
  | notAnObject path =>
    "Invalid introspection result in " ++ path.print ++ ": expected a JSON object"
  | noFiles path => "No schema files found at " ++ path.print
  | invalid path => "Invalid schema at " ++ path.print ++ ": " ++ cause

namespace Schema

/-- The endings of files that hold GraphQL schemas. -/
def endings : List String := [".graphql", ".graphqls", ".gql"]

/-- The schema of an introspection result as text. -/
def ofJsonText (path : Path) (text : String) : Except SchemaFileError Schema :=
  match Json.read text with
  | .error fault => .error (.notJson path fault)
  | .ok (.object members) =>
    match Introspection.schemaOf ((Keyed.lookup "data" members).getD (.object members)) with
    | .ok schema => .ok schema
    | .error error => .error (.introspection path error)
  | .ok _ => .error (.notAnObject path)

/-- The schema of a GraphQL text. -/
def ofText (path : Path) (text : String) : Except SchemaFileError Schema :=
  match GraphQL.Document.parse? text with
  | none => .error (.invalid path)
  | some document => match ofDocument document with
    | .ok schema => .ok schema
    | .error _ => .error (.invalid path)

/-- The schema found at a path. -/
def ofTree (tree : FileTree) (path : Path) : Except SchemaFileError Schema :=
  match if path.suffix = ".json" then tree.read? path else none with
  | some text => ofJsonText path text
  | none => match tree.filesAt path endings with
    | .error obstacle => .error (.unreachable path obstacle)
    | .ok [] => .error (.noFiles path)
    | .ok files => ofText path (Text.join "\n" (files.filterMap tree.read?))

end Schema

end QueryTypes
