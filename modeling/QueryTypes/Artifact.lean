import QueryTypes.Collected
import QueryTypes.Naming
import QueryTypes.Schema.Basic
import QueryTypes.TypeScript.Program

/-!
# Type definitions of operations and fragments

Each collected operation or fragment gets a file of its own. It takes the internal
shapes by name from another file and declares what an application works with: for an
operation its input and result, for a query also what is handed over once it is
loaded, for a fragment the value that carries a reference to it and its data.
-/

namespace QueryTypes

namespace Artifact

open GraphQL (Operation Fragment OperationKind)
open TypeScript (TypeExpr Member Program)

/-- Why no type definitions can be made. -/
inductive ResolutionError where
  /-- The schema has no root type for the kind of operation. -/
  | missingRoot (kind : OperationKind) (document : String)
  /-- The type that a fragment applies to is not in the schema. -/
  | unknownCondition (type document : String)
  deriving DecidableEq

/-- The operation or fragment that a failure is about. -/
def ResolutionError.document : ResolutionError → String
  | missingRoot _ document => document
  | unknownCondition _ document => document

/-- What is said about a failure. -/
def ResolutionError.message : ResolutionError → String
  | missingRoot kind document =>
    "Could not find root type for " ++ kind.word ++ " (document: " ++ document ++ ")"
  | unknownCondition type document =>
    "Unknown type condition " ++ Text.quotedName type ++ " (document: " ++ document ++ ")"

/-- The path by which the internal shapes are imported if nothing else is said. -/
def defaultInternalModule : String := "./_internal"

/-- A member that may not be assigned. -/
def readonlyMember (key : String) (type : TypeExpr) : Member := .mk key type false true

/-! ### Operations -/

/-- The result of an operation as an application sees it: a mutation has one as soon as
it is done, the others have none until something arrives. -/
def resultType (kind : OperationKind) (name : String) : TypeExpr :=
  match kind with
  | .mutation => .named (Naming.result name)
  | _ => .union [.named (Naming.result name), .undefined]

/-- The type definitions of an operation under its name. -/
def operationProgram (name : String) (kind : OperationKind) (hasInputs : Bool)
    (internalModule : String) : Program :=
  let input : TypeExpr := .named (Naming.input name)
  let imported (shape : String) : TypeScript.Declaration :=
    .ofImport { names := [shape], source := internalModule }
  let declared (aliasName : String) (type : TypeExpr) : TypeScript.Declaration :=
    .ofAlias { name := aliasName, type := type }
  let inputs := if hasInputs then
      [imported (Naming.variablesShape name kind),
       declared (Naming.input name) (.named (Naming.variablesShape name kind))]
    else []
  let loaded := if kind = .query then
      [declared (Naming.afterLoad name) (.object
        ((if hasInputs then [readonlyMember "input" (.object [readonlyMember name input])] else [])
          ++ [readonlyMember "data"
                (.object [readonlyMember name (.named (Naming.result name))])]))]
    else []
  ⟨imported (Naming.shape name kind) :: inputs ++
    [declared name (.object
      [readonlyMember "input" (if hasInputs then input else .null),
       readonlyMember "result" (resultType kind name)]),
     declared (Naming.result name) (.named (Naming.shape name kind))] ++ loaded⟩

/-- The type definitions of an operation. -/
def ofOperation (schema : Schema) (name : String) (o : Operation) (internalModule : String) :
    Except ResolutionError Program :=
  match schema.root? o.kind with
  | none => .error (.missingRoot o.kind name)
  | some _ => .ok (operationProgram name o.kind (!o.variableDefinitions.isEmpty) internalModule)

/-! ### Fragments -/

/-- The value that carries a reference to a fragment. -/
def fragmentType (name : String) : TypeExpr :=
  .object
    [.mk "shape" (.named (Naming.data name)) true true,
     readonlyMember Naming.fragmentsKey
       (.object [.mk name (.literal (.boolean true)) false false])]

/-- The type definitions of a fragment under its name. -/
def fragmentProgram (name internalModule : String) : Program :=
  ⟨[.ofImport { names := [Naming.fragmentShape name], source := internalModule },
    .ofAlias { name := name, type := fragmentType name },
    .ofAlias { name := Naming.data name, type := .named (Naming.fragmentShape name) }]⟩

/-- The type definitions of a fragment. -/
def ofFragment (schema : Schema) (f : Fragment) (internalModule : String) :
    Except ResolutionError Program :=
  match schema.find? f.condition with
  | none => .error (.unknownCondition f.condition f.name)
  | some _ => .ok (fragmentProgram f.name internalModule)

/-! ### Collected documents -/

/-- The type definitions of a definition that was found under its name. -/
def ofDefinition (schema : Schema) (name : String) (found : NamedDefinition)
    (internalModule : String) : Except ResolutionError Program :=
  match found with
  | .operation o => ofOperation schema name o internalModule
  | .fragment f => ofFragment schema f internalModule

end Artifact

end QueryTypes
