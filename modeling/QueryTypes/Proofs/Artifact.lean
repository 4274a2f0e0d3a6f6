import QueryTypes.Artifact
import QueryTypes.Proofs.Shape.Batch
import QueryTypes.Proofs.TypeScript.References

/-!
# What type definitions take from the internal shapes

The type definitions of an operation or fragment take the shapes that are named after it from
the internal shapes, and nothing else (`QueryTypes.Artifact.importedNames_subset`). They are made
from the definition as written, and the shapes from a scrubbed one, so the two need only agree
on what the names are made of (`QueryTypes.NamedDefinition.Describes`). If the definition has
shapes, it has type definitions too (`QueryTypes.Artifact.exists_program_of_ofDefinition`):
either step looks up the same type of the schema.
-/

namespace QueryTypes

open GraphQL (Definition Document Fragment Operation OperationKind)

/-! ### Found definitions -/

/-- Whether a definition is of the same name and kind as a found one; for an operation, of the
same kind of operation as well. -/
def NamedDefinition.Describes : NamedDefinition → Definition → Prop
  | operation o, .operation p => p.name = o.name ∧ p.kind = o.kind
  | fragment f, .fragment g => g.name = f.name
  | _, _ => False

/-- The name that a found definition has, if it has one. -/
def NamedDefinition.name? (found : NamedDefinition) : Option String := found.toDefinition.name?

/-- What is looked up by a name and a kind is a definition of the document that has them. -/
theorem GraphQL.Document.mem_of_find? {document : Document} {name : String} {kind : DocumentKind}
    {found : NamedDefinition} (h : document.find? name kind = .ok found) :
    found.toDefinition ∈ document.definitions ∧ found.name? = some name := by
  unfold Document.find? at h
  split at h
  · next hfind =>
    cases h
    obtain ⟨d, hd, hnamed⟩ := List.exists_of_findSome?_eq_some hfind
    cases d with
    | operation o =>
      rw [Definition.named?] at hnamed
      split at hnamed
      · next hname =>
        obtain rfl := Option.some.inj hnamed
        exact ⟨hd, hname.2⟩
      · cases hnamed
    | fragment f =>
      rw [Definition.named?] at hnamed
      split at hnamed
      · next hname =>
        obtain rfl := Option.some.inj hnamed
        exact ⟨hd, congrArg some hname.2⟩
      · cases hnamed
    | _ => cases hnamed
  · cases h

theorem NamedDefinition.describes_toDefinition (found : NamedDefinition) :
    found.Describes found.toDefinition := by
  cases found with
  | operation o => exact ⟨rfl, rfl⟩
  | fragment f => rfl

/-- Definitions that agree on their names and kinds have shapes of the same names. -/
theorem NamedDefinition.Describes.shapeNames_eq {found : NamedDefinition} {d : Definition}
    (h : found.Describes d) : d.shapeNames = found.toDefinition.shapeNames := by
  cases found with
  | operation o =>
    cases d with
    | operation p => rw [toDefinition, Definition.shapeNames, Definition.shapeNames, h.1, h.2]
    | _ => exact h.elim
  | fragment f =>
    cases d with
    | fragment g =>
      exact congrArg (fun name => [Naming.fragmentShape name]) h
    | _ => exact h.elim

namespace Artifact

open TypeScript (Alias Declaration Member Program TypeExpr)

variable {schema : Schema} {name module : String} {found : NamedDefinition} {program : Program}

/-! ### Which programs there are -/

/-- The type definitions of an operation, and what they depend on. -/
theorem exists_of_ofOperation {o : Operation}
    (h : ofOperation schema name o module = .ok program) :
    (∃ root, schema.root? o.kind = some root) ∧
      program = operationProgram name o.kind (!o.variableDefinitions.isEmpty) module := by
  unfold ofOperation at h
  split at h
  · cases h
  next root hroot =>
    cases h
    exact ⟨⟨root, hroot⟩, rfl⟩

theorem exists_of_ofFragment {f : Fragment} (h : ofFragment schema f module = .ok program) :
    (∃ scope, schema.find? f.condition = some scope) ∧
      program = fragmentProgram f.name module := by
  unfold ofFragment at h
  split at h
  · cases h
  next scope hscope =>
    cases h
    exact ⟨⟨scope, hscope⟩, rfl⟩

/-- **What has shapes has type definitions.** -/
theorem exists_program_of_ofDefinition {context : Shape.Context} {shapes : Shape.Shapes}
    {isInternal : String → Bool} {used : List String} (found : NamedDefinition)
    (h : Shape.ofDefinition context (found.toDefinition.scrubbed isInternal used) = .ok shapes)
    (name module : String) :
    ∃ program, ofDefinition context.schema name found module = .ok program := by
  cases found with
  | operation o =>
    obtain ⟨-, root, -, -, -, hroot, -⟩ := Shape.exists_of_ofOperation h
    have same : context.schema.root? o.kind = some root := hroot
    refine ⟨operationProgram name o.kind (!o.variableDefinitions.isEmpty) module, ?_⟩
    rw [ofDefinition, ofOperation, same]
  | fragment f =>
    obtain ⟨scope, -, hscope, -⟩ := Shape.exists_of_ofFragment h
    have same : context.schema.find? f.condition = some scope := hscope
    refine ⟨fragmentProgram f.name module, ?_⟩
    rw [ofDefinition, ofFragment, same]

/-! ### Imports and declarations -/

/-- What the member for the result of an operation refers to. -/
theorem references_resultType (kind : OperationKind) (name : String) :
    (resultType kind name).references = [Naming.result name] := by
  cases kind <;> simp [resultType, TypeExpr.references, TypeExpr.referencesInAll]

@[simp] theorem references_readonlyMember (key : String) (type : TypeExpr) :
    (readonlyMember key type).references = type.references := by
  rw [readonlyMember, Member.references]

section OfOperation

variable (name : String) (kind : OperationKind) (hasInputs : Bool) (module : String)

/-- The imports of the type definitions of an operation. -/
theorem imports_operationProgram :
    (operationProgram name kind hasInputs module).imports =
      { names := [Naming.shape name kind], source := module } ::
        if hasInputs then [{ names := [Naming.variablesShape name kind], source := module }]
        else [] := by
  cases kind <;> cases hasInputs <;> rfl

/-- The type definitions of an operation refer to nothing that they do not import or declare. -/
theorem isClosed_operationProgram : (operationProgram name kind hasInputs module).IsClosed := by
  refine Program.isClosed_of_subset ?_
  rw [Program.importedNames, imports_operationProgram]
  cases kind <;> cases hasInputs <;>
    simp [operationProgram, Program.aliases, Program.aliasNames, List.filterMap_cons,
      Declaration.asAlias?,
      Alias.freeReferences, references_resultType, TypeExpr.references, Member.referencesInAll]

end OfOperation

theorem imports_fragmentProgram (name module : String) :
    (fragmentProgram name module).imports =
      [{ names := [Naming.fragmentShape name], source := module }] := rfl

/-- The type definitions of a fragment refer to nothing that they do not import or declare. -/
theorem isClosed_fragmentProgram (name module : String) :
    (fragmentProgram name module).IsClosed := by
  refine Program.isClosed_of_subset ?_
  rw [Program.importedNames, imports_fragmentProgram]
  simp [fragmentProgram, fragmentType, Program.aliases, Program.aliasNames, List.filterMap_cons,
      Declaration.asAlias?,
    Alias.freeReferences, TypeExpr.references, Member.referencesInAll, Member.references]

/-- **Type definitions import the shapes of their definition only**, all from one file, and
refer to nothing that they do not import or declare. -/
theorem imports_of_ofDefinition (hname : found.name? = some name)
    (h : ofDefinition schema name found module = .ok program) :
    (∀ i ∈ program.imports, i.source = module) ∧
      program.importedNames ⊆ found.toDefinition.shapeNames ∧ program.IsClosed := by
  cases found with
  | operation o =>
    obtain ⟨-, rfl⟩ := exists_of_ofOperation h
    have named : o.name = some name := hname
    refine ⟨?_, ?_, isClosed_operationProgram _ _ _ _⟩
    · rw [imports_operationProgram]
      cases o.variableDefinitions.isEmpty <;> simp
    · rw [Program.importedNames, imports_operationProgram, NamedDefinition.toDefinition,
        Definition.shapeNames, named]
      cases o.variableDefinitions.isEmpty <;> simp
  | fragment f =>
    obtain ⟨-, rfl⟩ := exists_of_ofFragment h
    refine ⟨?_, ?_, isClosed_fragmentProgram _ _⟩
    · rw [imports_fragmentProgram]
      simp
    · rw [Program.importedNames, imports_fragmentProgram, NamedDefinition.toDefinition,
        Definition.shapeNames]
      simp

end Artifact

end QueryTypes
