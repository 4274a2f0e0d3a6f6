import QueryTypes.Shape.NamedTypes
import QueryTypes.ScalarTable
import QueryTypes.Schema.Standard

/-!
# Internal shapes of a batch

The shapes of all operations and fragments of a batch of documents make up one
program: a name for values that may be missing, the table of scalars, the named types
that are referred to, and then the shapes themselves, in the order of the documents.
An operation has two, that of its variables and that of its result; a fragment has
one. No two shapes may have one name.
-/

namespace QueryTypes

namespace Shape

open GraphQL (Document Definition Operation Fragment VariableDefinition)
open TypeScript (TypeExpr Member Alias Program)

/-- What all shapes of a batch depend on. -/
structure Context where
  /-- The schema. -/
  schema : Schema
  /-- Whether fragments stay masked. -/
  masking : Bool
  /-- The fragments of the batch. -/
  fragments : List Fragment

/-- Some shapes and what they refer to. -/
structure Shapes where
  /-- The shapes in order. -/
  aliases : List Alias := []
  /-- What they refer to. -/
  references : References := {}
  deriving Inhabited

/-! ### Variables -/

/-- The member for a variable. -/
def variableMember (schema : Schema) (document : String) (v : VariableDefinition) :
    Except ShapeError Member :=
  match schema.find? v.type.baseName with
  | none => .error (.unknownVariableType v.name document)
  | some _ => .ok (inputMember schema v.name v.type)

/-- The members for some variables. -/
def variableMembers (schema : Schema) (document : String) :
    List VariableDefinition → Except ShapeError (List Member)
  | [] => .ok []
  | v :: rest => match variableMember schema document v with
    | .error e => .error e
    | .ok member => match variableMembers schema document rest with
      | .error e => .error e
      | .ok members => .ok (member :: members)

/-- The type of the variables of an operation that has none. -/
def noVariables : TypeExpr := .reference "Record" [.keyword "string", .keyword "never"]

/-- The type of an operation's variables. -/
def variablesType (schema : Schema) (document : String) (vs : List VariableDefinition) :
    Except ShapeError TypeExpr :=
  match vs with
  | [] => .ok noVariables
  | _ => match variableMembers schema document vs with
    | .error e => .error e
    | .ok members => .ok (.object members)

/-! ### Operations and fragments -/

/-- The draft of the object type that some selections describe. -/
def selectionDraft (context : Context) (document : String) (scope : SchemaType)
    (selections : List GraphQL.Selection) : Except ShapeError Draft :=
  addSelections context.schema document
    (spreadIn context.schema context.masking context.fragments document) (some scope) false {}
    selections

/-- The shapes of an operation. -/
def ofOperation (context : Context) (o : Operation) : Except ShapeError Shapes :=
  match o.name with
  | none => .error .unnamedOperation
  | some name => match context.schema.root? o.kind with
    | none => .error (.missingRoot o.kind name)
    | some root => match variablesType context.schema name o.variableDefinitions with
      | .error e => .error e
      | .ok type => match selectionDraft context name root o.selections with
        | .error e => .error e
        | .ok draft => .ok
          { aliases := [{ name := Naming.variablesShape name o.kind, type := type },
              { name := Naming.shape name o.kind, type := draft.toType }]
            references := (allInputReferences context.schema
              (o.variableDefinitions.map fun v => v.type.baseName)).append ⟨draft.enums, []⟩ }

/-- The shape of a fragment. -/
def ofFragment (context : Context) (f : Fragment) : Except ShapeError Shapes :=
  match context.schema.find? f.condition with
  | none => .error (.unknownType f.condition f.name)
  | some scope => match selectionDraft context f.name scope f.selections with
    | .error e => .error e
    | .ok draft => .ok
      { aliases := [{ name := Naming.fragmentShape f.name, type := draft.toType }]
        references := ⟨draft.enums, []⟩ }

/-- The shapes of a definition; only operations and fragments have any. -/
def ofDefinition (context : Context) : Definition → Except ShapeError Shapes
  | .operation o => ofOperation context o
  | .fragment f => ofFragment context f
  | _ => .ok {}

/-! ### Batches -/

/-- The first name that occurs among the names before it. -/
def firstRepeated : List String → List String → Option String
  | _, [] => none
  | seen, name :: rest =>
    if name ∈ seen then some name else firstRepeated (name :: seen) rest

/-- Adds shapes whose names are new. -/
def Shapes.add (old new : Shapes) : Except ShapeError Shapes :=
  match firstRepeated (old.aliases.map Alias.name) (new.aliases.map Alias.name) with
  | some name => .error (.duplicateShape name)
  | none => .ok ⟨old.aliases ++ new.aliases, old.references.append new.references⟩

/-- Adds the shapes of some definitions, in order. -/
def addDefinitions (context : Context) : Shapes → List Definition → Except ShapeError Shapes
  | shapes, [] => .ok shapes
  | shapes, definition :: rest => match ofDefinition context definition with
    | .error e => .error e
    | .ok new => match shapes.add new with
      | .error e => .error e
      | .ok next => addDefinitions context next rest

/-- The shapes of some documents. -/
def ofDocuments (schema : Schema) (masking : Bool) (documents : List Document) :
    Except ShapeError Shapes :=
  addDefinitions ⟨schema, masking, documents.flatMap Document.fragments⟩ {}
    (documents.flatMap Document.definitions)

/-! ### The program -/

/-- The names of a schema's own scalars, sorted. -/
def customScalars (schema : Schema) : List String :=
  SortedNames.ofList ((schema.types.filter fun t =>
    t.isScalar && !ScalarTable.builtInNames.contains t.name &&
      !Schema.isReserved t.name).map SchemaType.name)

/-- The table of scalars: the built-in ones first, then the schema's own by name. -/
def scalarsType (schema : Schema) (scalars : ScalarTable) : TypeExpr :=
  .object ((ScalarTable.builtInNames ++ customScalars schema).map fun name =>
    .mk name (.keyword (scalars.get name)) false false)

/-- The name for a value that may be missing. -/
def maybeAlias : Alias :=
  { name := "Maybe", type := .union [.named "T", .null], parameters := ["T"] }

/-- The program that declares some shapes and all that they refer to. -/
def programOf (schema : Schema) (scalars : ScalarTable) (shapes : Shapes) : Program :=
  ⟨(maybeAlias :: { name := "Scalars", type := scalarsType schema scalars } ::
    (namedTypes schema shapes.references ++ shapes.aliases)).map .ofAlias⟩

/-- The program that declares the shapes of some documents. -/
def program (schema : Schema) (masking : Bool) (scalars : ScalarTable)
    (documents : List Document) : Except ShapeError Program :=
  match ofDocuments schema masking documents with
  | .error e => .error e
  | .ok shapes => match unreadableEnum? schema shapes.references with
    | some name => .error (.unreadableEnum name)
    | none => .ok (programOf schema scalars shapes)

end Shape

end QueryTypes
