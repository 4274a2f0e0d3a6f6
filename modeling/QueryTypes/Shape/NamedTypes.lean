import QueryTypes.Shape.Object
import QueryTypes.SortedNames
import QueryTypes.TypeScript.Program

/-!
# Named types of the internal shapes

The enumerations and input object types that shapes refer to are declared once, sorted
by name. An input object type may refer to others, itself included, so the declared
ones are those that can be reached: `QueryTypes.Shape.reachableInputs` follows the
fields until nothing new comes up, which takes no more rounds than the schema has
types.
-/

namespace QueryTypes

namespace Shape

open GraphQL (TypeRef)
open TypeScript (TypeExpr Member Alias)

/-- The named types that something refers to. -/
structure References where
  /-- The enumerations. -/
  enums : List String := []
  /-- The input object types. -/
  inputs : List String := []
  deriving Inhabited

/-- The references of both. -/
def References.append (a b : References) : References :=
  ⟨a.enums ++ b.enums, a.inputs ++ b.inputs⟩

/-! ### Input types -/

/-- The type of a named input: an input object type by its name, else a leaf. -/
def inputLeaf (schema : Schema) (name : String) : TypeExpr :=
  match schema.find? name with
  | some type => if type.isInputObject then .named name else leaf schema name
  | none => leaf schema name

/-- The type of an input. -/
def inputType (schema : Schema) (type : TypeRef) : TypeExpr :=
  typeOf (inputLeaf schema type.baseName) type

/-- What an input of a named type refers to. -/
def inputReferences (schema : Schema) (name : String) : References :=
  match schema.find? name with
  | some type => if type.isInputObject then ⟨[], [name]⟩ else ⟨leafEnums schema name, []⟩
  | none => {}

/-- What several inputs refer to. -/
def allInputReferences (schema : Schema) : List String → References
  | [] => {}
  | name :: rest => (inputReferences schema name).append (allInputReferences schema rest)

/-- The names of the types of the fields of an input object type. -/
def inputFieldTypes (schema : Schema) (name : String) : List String :=
  match schema.find? name with
  | some type => type.fields.map fun f => f.2.baseName
  | none => []

/-- What the fields of an input object type refer to. -/
def fieldReferences (schema : Schema) (name : String) : References :=
  allInputReferences schema (inputFieldTypes schema name)

/-! ### Reachable input object types -/

/-- The input object types that the fields of some refer to, apart from those that are known. -/
def beyond (schema : Schema) (known names : List String) : List String :=
  SortedNames.ofList ((names.flatMap fun name => (fieldReferences schema name).inputs).filter
    fun name => !known.contains name)

/-- Adds to the known names what can be reached from the latest of them in so many rounds, or
fewer if nothing new comes up. -/
def reach (schema : Schema) : Nat → List String → List String → List String
  | 0, known, _ => known
  | rounds + 1, known, latest =>
    match beyond schema known latest with
    | [] => known
    | new => reach schema rounds (new ++ known) new

/-- The input object types that can be reached from some, sorted. -/
def reachableInputs (schema : Schema) (names : List String) : List String :=
  SortedNames.ofList (reach schema schema.types.length names names)

/-! ### Declarations -/

/-- The member for a field of an input object type, or for a variable: it may be left out
exactly if it may be null. -/
def inputMember (schema : Schema) (name : String) (type : TypeRef) : Member :=
  .mk name (inputType schema type) (!type.isNonNull) false

/-- The declaration of an input object type. -/
def inputAlias (schema : Schema) (name : String) : Alias :=
  { name := name
    type := .object (match schema.find? name with
      | some type => type.fields.map fun f => inputMember schema f.1 f.2
      | none => []) }

/-- The declaration of an enumeration: the union of its values. -/
def enumAlias (schema : Schema) (name : String) : Alias :=
  { name := name
    type := .union (((schema.find? name).bind SchemaType.enumValues?).getD [] |>.map fun value =>
      .literal (.string value)) }

/-- The enumerations that can be reached: those referred to at once, and those that fields
of reachable input object types refer to. -/
def reachableEnums (schema : Schema) (references : References) : List String :=
  references.enums ++ (reachableInputs schema references.inputs).flatMap fun name =>
    (fieldReferences schema name).enums

/-- A reachable enumeration whose values cannot be read, if there is one. -/
def unreadableEnum? (schema : Schema) (references : References) : Option String :=
  (reachableEnums schema references).find? schema.unreadable.contains

/-- The declarations of all named types that can be reached, sorted by name. -/
def namedTypes (schema : Schema) (references : References) : List Alias :=
  let enums := reachableEnums schema references
  (SortedNames.ofList (reachableInputs schema references.inputs ++ enums)).map fun name =>
    if name ∈ enums then enumAlias schema name else inputAlias schema name

end Shape

end QueryTypes
