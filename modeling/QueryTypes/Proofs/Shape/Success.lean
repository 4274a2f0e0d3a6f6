import QueryTypes.Proofs.Shape.Failures
import QueryTypes.Proofs.Shape.Masking

/-!
# Which batches have a program

While fragments are masked, a spread adds a mark and is not followed, so cycles of fragments do no
harm, and whether a batch has a program is settled by what it says itself. Operations need a name, a
root type and variables of known types, fragments need a known type to apply to
(`QueryTypes.Shape.IsShapeable`), and whatever the selections get to
(`QueryTypes.Shape.GetsTo`) has to be known to the schema: fields to the type they are selected on,
conditions of inline fragments as types. Names need not be distinct as such, only together with the
kinds of operations. If all this holds, then what is left to fail is reading the values of an
enumeration; otherwise the failure is one that the generator states
(`QueryTypes.Shape.program_masked_iff`).

Not everything that is written is got to. Nothing below the name of a type is looked at, so an
inline fragment there may have any condition (`QueryTypes.Shape.exists_program_and_error`).
-/

namespace QueryTypes

open GraphQL (Argument Definition Directive Document Fragment Operation OperationKind Selection
  VariableDefinition)

namespace Shape

/-! ### What selections get to -/

/-- **Selections on a type get to a selection**, at any depth, and apply it to some type. Below a
field, that is the named type of the field. Nothing is below the name of a type, and spreads are not
followed. -/
inductive GetsTo (schema : Schema) :
    Option SchemaType → List Selection → Option SchemaType → Selection → Prop where
  /-- Directly. -/
  | here {scope : Option SchemaType} {selections : List Selection} {s : Selection}
    (hs : s ∈ selections) : GetsTo schema scope selections scope s
  /-- Inside an inline fragment for the same type. -/
  | inline {scope inner : Option SchemaType} {selections below : List Selection} {s : Selection}
    {directives : List Directive} (hmem : .inlineFragment none directives below ∈ selections)
    (h : GetsTo schema scope below inner s) : GetsTo schema scope selections inner s
  /-- Inside an inline fragment for a type. -/
  | onType {scope inner : Option SchemaType} {selections below : List Selection} {s : Selection}
    {condition : String} {directives : List Directive}
    (hmem : .inlineFragment (some condition) directives below ∈ selections)
    (h : GetsTo schema (schema.find? condition) below inner s) :
    GetsTo schema scope selections inner s
  /-- Below a field. -/
  | field {scope inner : Option SchemaType} {selections below : List Selection} {s : Selection}
    {responseName : Option String} {name : String} {arguments : List Argument}
    {directives : List Directive} {type : GraphQL.TypeRef}
    (hmem : .field responseName name arguments directives (some below) ∈ selections)
    (htype : selectedType? scope name = some type)
    (h : GetsTo schema (schema.find? type.baseName) below inner s) :
    GetsTo schema scope selections inner s

/-- **The schema knows what a selection asks for**: a field is the name of the type or one of its
fields, and an inline fragment is for a type of the schema. -/
def IsKnown (schema : Schema) (scope : Option SchemaType) : Selection → Prop
  | .field _ name _ _ _ => name = "__typename" ∨ (selectedType? scope name).isSome
  | .spread _ _ => True
  | .inlineFragment none _ _ => True
  | .inlineFragment (some condition) _ _ => (schema.find? condition).isSome

variable {schema : Schema} {document : String} {scope inner : Option SchemaType}
  {selections others : List Selection} {s : Selection}

theorem GetsTo.mono (h : GetsTo schema scope selections inner s) (hsub : selections ⊆ others) :
    GetsTo schema scope others inner s := by
  cases h with
  | here hs => exact .here (hsub hs)
  | inline hmem h => exact .inline (hsub hmem) h
  | onType hmem h => exact .onType (hsub hmem) h
  | field hmem htype h => exact .field (hsub hmem) htype h

/-! ### When selections have a draft -/

/-- A field of a type other than the name of the type has a type. -/
theorem fieldType_of_selectedType? (document : String) {name : String} {type : GraphQL.TypeRef}
    (h : selectedType? scope name = some type) :
    name ≠ "__typename" ∧ fieldType document scope name = .ok type := by
  unfold selectedType? at h
  split at h
  · cases h
  · next hname =>
    obtain ⟨t, rfl, hfield⟩ := Option.bind_eq_some_iff.1 h
    refine ⟨hname, ?_⟩
    rw [fieldType, hfield]

theorem isKnown_of_addSelection {optional : Bool} {draft next : Draft}
    (h : addSelection schema document maskedSpread scope optional draft s = .ok next) :
    IsKnown schema scope s := by
  cases s with
  | field responseName name arguments directives selections =>
    rw [addSelection] at h
    by_cases hname : name = "__typename"
    · exact Or.inl hname
    rw [if_neg hname] at h
    split at h
    · cases h
    next type hf => exact Or.inr (by rw [selectedType?_of_fieldType hname hf]; rfl)
  | spread name directives => exact trivial
  | inlineFragment condition directives selections =>
    cases condition with
    | none => exact trivial
    | some condition =>
      rw [addSelection] at h
      split at h
      · cases h
      next type htype => exact Option.isSome_iff_exists.2 ⟨type, htype⟩

/-- **Selections with a draft get to what is known only.** -/
theorem GetsTo.isKnown (hget : GetsTo schema scope selections inner s) {optional : Bool}
    {draft next : Draft}
    (h : addSelections schema document maskedSpread scope optional draft selections = .ok next) :
    IsKnown schema inner s := by
  induction hget generalizing optional draft next with
  | here hs =>
    obtain ⟨before, after, turn, -⟩ := exists_turn_of_mem h hs
    exact isKnown_of_addSelection turn
  | inline hmem _ ih =>
    obtain ⟨before, after, turn, -⟩ := exists_turn_of_mem h hmem
    rw [addSelection] at turn
    exact ih turn
  | onType hmem _ ih =>
    obtain ⟨before, after, turn, -⟩ := exists_turn_of_mem h hmem
    rw [addSelection] at turn
    split at turn
    · cases turn
    next type htype =>
      rw [htype] at ih
      exact ih turn
  | field hmem htype _ ih =>
    obtain ⟨before, after, turn, -⟩ := exists_turn_of_mem h hmem
    obtain ⟨hname, hf⟩ := fieldType_of_selectedType? document htype
    rw [addSelection, if_neg hname, hf] at turn
    dsimp only at turn
    split at turn
    · cases turn
    next below hb => exact ih hb

mutual

/-- A selection that gets to what is known only can be added. -/
theorem exists_addSelection : ∀ (s : Selection) {scope : Option SchemaType} (optional : Bool)
    (draft : Draft), (∀ inner t, GetsTo schema scope [s] inner t → IsKnown schema inner t) →
    ∃ next, addSelection schema document maskedSpread scope optional draft s = .ok next
  | .field responseName name arguments directives selections, scope, optional, draft, known => by
    rw [addSelection]
    by_cases hname : name = "__typename"
    · exact ⟨_, if_pos hname⟩
    obtain ⟨type, htype⟩ := Option.isSome_iff_exists.1
      ((known scope _ (.here (List.mem_singleton_self _))).resolve_left hname)
    rw [if_neg hname, (fieldType_of_selectedType? document htype).2]
    cases selections with
    | none => exact ⟨_, rfl⟩
    | some selections =>
      obtain ⟨below, hb⟩ := exists_addSelections selections false {} fun inner t h =>
        known inner t (.field (List.mem_singleton_self _) htype h)
      dsimp only
      rw [hb]
      exact ⟨_, rfl⟩
  | .spread name _, _, _, draft, _ => ⟨draft.addFragment name, by rw [addSelection]; rfl⟩
  | .inlineFragment none _ selections, scope, optional, draft, known => by
    rw [addSelection]
    exact exists_addSelections selections optional draft fun inner t h =>
      known inner t (.inline (List.mem_singleton_self _) h)
  | .inlineFragment (some condition) _ selections, scope, optional, draft, known => by
    obtain ⟨type, htype⟩ := Option.isSome_iff_exists.1
      (known scope _ (.here (List.mem_singleton_self _)))
    rw [addSelection, htype]
    exact exists_addSelections selections _ draft fun inner t h =>
      known inner t (.onType (List.mem_singleton_self _) (htype ▸ h))

/-- **Selections that get to what is known only have a draft.** -/
theorem exists_addSelections : ∀ (selections : List Selection) {scope : Option SchemaType}
    (optional : Bool) (draft : Draft),
    (∀ inner t, GetsTo schema scope selections inner t → IsKnown schema inner t) →
    ∃ next, addSelections schema document maskedSpread scope optional draft selections = .ok next
  | [], _, _, draft, _ => ⟨draft, by rw [addSelections]⟩
  | s :: rest, scope, optional, draft, known => by
    obtain ⟨middle, hmiddle⟩ := exists_addSelection s optional draft fun inner t h =>
      known inner t (h.mono fun u hu => List.mem_singleton.1 hu ▸ List.mem_cons_self ..)
    obtain ⟨next, hnext⟩ := exists_addSelections rest optional middle fun inner t h =>
      known inner t (h.mono (List.subset_cons_self ..))
    exact ⟨next, by rw [addSelections, hmiddle]; exact hnext⟩

end

end Shape

/-! ### How definitions are told apart -/

namespace GraphQL

/-- What a definition is told by: an operation by its name and kind, a fragment by its name. -/
inductive DefinitionKey where
  /-- An operation of a name and kind. -/
  | operation (name : String) (kind : OperationKind)
  /-- A fragment of a name. -/
  | fragment (name : String)
  deriving DecidableEq

namespace DefinitionKey

/-- The key that goes with a shape of a name. -/
def ofFacet (name : String) : Naming.Facet → DefinitionKey
  | .input kind | .result kind => operation name kind
  | .fragment => fragment name

/-- The names of the shapes that go with a key. -/
def shapeNames : DefinitionKey → List String
  | operation name kind => [Naming.variablesShape name kind, Naming.shape name kind]
  | fragment name => [Naming.fragmentShape name]

theorem exists_facet_of_mem_shapeNames {key : DefinitionKey} {shape : String}
    (h : shape ∈ key.shapeNames) :
    ∃ name facet, key = ofFacet name facet ∧ shape = name ++ Naming.Facet.ending facet := by
  cases key with
  | operation name kind =>
    rcases List.mem_cons.1 h with rfl | h
    · exact ⟨name, .input kind, rfl, Naming.variablesShape_eq name kind⟩
    · rw [List.mem_singleton.1 h]
      exact ⟨name, .result kind, rfl, Naming.shape_eq name kind⟩
  | fragment name =>
    rw [List.mem_singleton.1 h]
    exact ⟨name, .fragment, rfl, Naming.fragmentShape_eq name⟩

/-- **A shape tells the key** that it goes with. -/
theorem eq_of_mem_shapeNames {a b : DefinitionKey} {shape : String} (ha : shape ∈ a.shapeNames)
    (hb : shape ∈ b.shapeNames) : a = b := by
  obtain ⟨m, facet, rfl, rfl⟩ := exists_facet_of_mem_shapeNames ha
  obtain ⟨n, other, rfl, same⟩ := exists_facet_of_mem_shapeNames hb
  obtain ⟨rfl, rfl⟩ := Naming.Facet.append_ending_injective same
  rfl

theorem exists_mem_shapeNames (key : DefinitionKey) : ∃ shape, shape ∈ key.shapeNames := by
  cases key <;> exact ⟨_, List.mem_cons_self ..⟩

theorem nodup_shapeNames (key : DefinitionKey) : key.shapeNames.Nodup := by
  cases key with
  | operation name kind =>
    refine List.nodup_cons.2 ⟨fun h => ?_, List.nodup_singleton _⟩
    rw [List.mem_singleton, Naming.variablesShape_eq, Naming.shape_eq] at h
    exact absurd (Naming.Facet.append_ending_injective h).2 (by simp)
  | fragment name => exact List.nodup_singleton _

/-- **Keys are distinct exactly if their shapes are.** -/
theorem nodup_flatMap_shapeNames_iff {keys : List DefinitionKey} :
    (keys.flatMap shapeNames).Nodup ↔ keys.Nodup := by
  rw [List.nodup_flatMap, and_iff_right fun key _ => nodup_shapeNames key, List.Nodup]
  refine List.Pairwise.iff fun {a b} => ⟨?_, fun apart shape ha hb => ?_⟩
  · rintro apart rfl
    obtain ⟨shape, h⟩ := exists_mem_shapeNames a
    exact apart h h
  · exact apart (eq_of_mem_shapeNames ha hb)

end DefinitionKey

/-- The key of a definition, if it has one. -/
def Definition.key? : Definition → Option DefinitionKey
  | .operation o => o.name.map fun name => .operation name o.kind
  | .fragment f => some (.fragment f.name)
  | _ => none

theorem Definition.flatMap_shapeNames_eq (ds : List Definition) :
    ds.flatMap Definition.shapeNames =
      (ds.filterMap Definition.key?).flatMap DefinitionKey.shapeNames := by
  induction ds with
  | nil => rfl
  | cons d rest ih =>
    rw [List.flatMap_cons, List.filterMap_cons, ih]
    cases d with
    | operation o =>
      rw [shapeNames, key?]
      cases o.name <;> rfl
    | _ => rfl

mutual

/-- The types that the inline fragments in a selection are for, at every depth. -/
def Selection.conditions : Selection → List String
  | .field _ _ _ _ none => []
  | .field _ _ _ _ (some selections) => Selection.conditionsInAll selections
  | .spread _ _ => []
  | .inlineFragment condition _ selections =>
    condition.toList ++ Selection.conditionsInAll selections

/-- The types that the inline fragments in some selections are for. -/
def Selection.conditionsInAll : List Selection → List String
  | [] => []
  | selection :: rest => selection.conditions ++ Selection.conditionsInAll rest

end

/-- The types that the inline fragments of a document are for. -/
def Document.conditions (document : Document) : List String :=
  document.definitions.flatMap fun d => Selection.conditionsInAll d.selections

/-- The named types of the variables of a definition. -/
def Definition.variableTypes : Definition → List String
  | .operation o => o.variableDefinitions.map fun v => v.type.baseName
  | _ => []

end GraphQL

namespace Shape

variable {schema : Schema} {documents : List Document} {fragments : List Fragment}

/-! ### When definitions have shapes -/

/-- **What an operation needs** to have shapes. -/
structure IsShapeableOperation (schema : Schema) (o : Operation) : Prop where
  /-- It has a name. -/
  named : o.name.isSome
  /-- The schema has its root type. -/
  rooted : (schema.root? o.kind).isSome
  /-- The types of its variables are types of the schema. -/
  variableTypes : ∀ v ∈ o.variableDefinitions, (schema.find? v.type.baseName).isSome
  /-- Whatever its selections get to is known. -/
  selections : ∀ inner s, GetsTo schema (schema.root? o.kind) o.selections inner s →
    IsKnown schema inner s

/-- **What a fragment needs** to have a shape. -/
structure IsShapeableFragment (schema : Schema) (f : Fragment) : Prop where
  /-- It applies to a type of the schema. -/
  condition : (schema.find? f.condition).isSome
  /-- Whatever its selections get to is known. -/
  selections : ∀ inner s, GetsTo schema (schema.find? f.condition) f.selections inner s →
    IsKnown schema inner s

/-- Masked selections have a draft exactly if whatever they get to is known. -/
theorem exists_selectionDraft_iff {document : String} {scope : SchemaType}
    {selections : List Selection} :
    (∃ draft, selectionDraft ⟨schema, true, fragments⟩ document scope selections = .ok draft) ↔
      ∀ inner s, GetsTo schema (some scope) selections inner s → IsKnown schema inner s :=
  ⟨fun ⟨_, h⟩ _ _ hget => hget.isKnown h,
    fun known => exists_addSelections selections false {} known⟩

theorem hasShapes_iff {context : Context} {d : Definition} :
    HasShapes context d ↔ ∃ own, ofDefinition context d = .ok own :=
  ⟨fun h => ⟨_, h⟩, fun ⟨_, h⟩ => (hasShapes_of_eq_ok h).1⟩

theorem hasShapes_operation_iff {o : Operation} :
    HasShapes ⟨schema, true, fragments⟩ (.operation o) ↔ IsShapeableOperation schema o := by
  simp only [hasShapes_iff, ofDefinition, ofOperation_eq_ok_iff, variablesType_eq_ok_iff]
  constructor
  · rintro ⟨own, name, root, inputs, draft, hname, hroot, ⟨hvariables, -⟩, hdraft, -⟩
    refine ⟨by rw [hname]; rfl, Option.isSome_iff_exists.2 ⟨root, hroot⟩, hvariables, ?_⟩
    rw [show schema.root? o.kind = some root from hroot]
    exact exists_selectionDraft_iff.1 ⟨draft, hdraft⟩
  · rintro ⟨named, rooted, variableTypes, selections⟩
    obtain ⟨name, hname⟩ := Option.isSome_iff_exists.1 named
    obtain ⟨root, hroot⟩ := Option.isSome_iff_exists.1 rooted
    rw [hroot] at selections
    obtain ⟨draft, hdraft⟩ := exists_selectionDraft_iff.2 selections
    exact ⟨_, name, root, _, draft, hname, hroot, ⟨variableTypes, rfl⟩, hdraft, rfl⟩

theorem hasShapes_fragment_iff {f : Fragment} :
    HasShapes ⟨schema, true, fragments⟩ (.fragment f) ↔ IsShapeableFragment schema f := by
  simp only [hasShapes_iff, ofDefinition, ofFragment_eq_ok_iff]
  constructor
  · rintro ⟨own, scope, draft, hscope, hdraft, -⟩
    refine ⟨Option.isSome_iff_exists.2 ⟨scope, hscope⟩, ?_⟩
    rw [show schema.find? f.condition = some scope from hscope]
    exact exists_selectionDraft_iff.1 ⟨draft, hdraft⟩
  · rintro ⟨condition, selections⟩
    obtain ⟨scope, hscope⟩ := Option.isSome_iff_exists.1 condition
    rw [hscope] at selections
    obtain ⟨draft, hdraft⟩ := exists_selectionDraft_iff.2 selections
    exact ⟨_, scope, draft, hscope, hdraft, rfl⟩

/-- **What a batch needs to have shapes while fragments are masked.** -/
structure IsShapeable (schema : Schema) (documents : List Document) : Prop where
  /-- What each operation needs. -/
  operations : ∀ o, .operation o ∈ documents.flatMap Document.definitions →
    IsShapeableOperation schema o
  /-- What each fragment needs. -/
  fragments : ∀ f, .fragment f ∈ documents.flatMap Document.definitions →
    IsShapeableFragment schema f
  /-- No two operations have a name and kind in common, and no two fragments a name. -/
  distinct : ((documents.flatMap Document.definitions).filterMap Definition.key?).Nodup

theorem exists_ofDocuments_iff :
    (∃ shapes, ofDocuments schema true documents = .ok shapes) ↔ IsShapeable schema documents := by
  simp only [ofDocuments_eq_ok_iff, Definition.flatMap_shapeNames_eq,
    GraphQL.DefinitionKey.nodup_flatMap_shapeNames_iff]
  constructor
  · rintro ⟨shapes, each, distinct, -⟩
    exact ⟨fun o ho => hasShapes_operation_iff.1 (each _ ho),
      fun f hf => hasShapes_fragment_iff.1 (each _ hf), distinct⟩
  · rintro ⟨operations, fragments, distinct⟩
    refine ⟨_, fun d hd => ?_, distinct, rfl⟩
    cases d with
    | operation o => exact hasShapes_operation_iff.2 (operations o hd)
    | fragment f => exact hasShapes_fragment_iff.2 (fragments f hd)
    | _ => rfl

/-! ### Failures -/

/-- **A batch without shapes has a failure that is stated**, while fragments are masked: no spread is
opened, so there is always a type to select from. -/
theorem isStated_of_ofDocuments_eq_error {e : ShapeError}
    (h : ofDocuments schema true documents = .error e) : e.isStated = true := by
  rcases isStated_or_of_ofDocuments_eq_error h with stated | meets | ⟨name, document, deep⟩
  · exact stated
  · obtain ⟨name, document, hfield⟩ := meets.exists_mem
    exact absurd hfield (field_none_not_mem_checksOf (fun masked => by cases masked) name document)
  · exact absurd deep (depth_not_mem_checksOf (fun masked => by cases masked) name document)

/-! ### Enumerations -/

/-- **An enumeration is declared for a batch**: a leaf that is selected is of it, or a variable, or
a field of an input object type that a variable leads to. -/
def DeclaresEnum (schema : Schema) (documents : List Document) (name : String) : Prop :=
  schema.IsEnum name ∧ ∃ d ∈ documents.flatMap Document.definitions,
    name ∈ leafTypesOf schema d ∨ name ∈ d.variableTypes ∨
      ∃ type ∈ d.variableTypes, schema.IsInputObject type ∧ ∃ input,
        Relation.ReflTransGen (LeadsTo schema) type input ∧ name ∈ inputFieldTypes schema input

/-- The named types of the inputs of a definition are what its variables are of. -/
theorem mem_inputs_shapesOf_iff {context : Context} {d : Definition} {name : String}
    (has : HasShapes context d) :
    name ∈ (shapesOf context d).references.inputs ↔
      name ∈ d.variableTypes ∧ context.schema.IsInputObject name := by
  cases d with
  | operation o =>
    obtain ⟨_, _, _, draft, -, -, -, -, own⟩ := ofOperation_eq_ok_iff.1 has
    rw [own, References.append, List.append_nil, mem_allInputReferences_iff.2]
    rfl
  | fragment f =>
    obtain ⟨_, draft, -, -, own⟩ := ofFragment_eq_ok_iff.1 has
    rw [own]
    exact iff_of_false List.not_mem_nil fun h => List.not_mem_nil h.1
  | _ => exact iff_of_false List.not_mem_nil fun h => List.not_mem_nil h.1

/-- A definition refers to the enumerations that its variables and its leaves are of. -/
theorem mem_enums_shapesOf {context : Context} {d : Definition} {name : String}
    (has : HasShapes context d) (h : name ∈ leafTypesOf context.schema d ∨ name ∈ d.variableTypes)
    (henum : context.schema.IsEnum name) : name ∈ (shapesOf context d).references.enums := by
  cases d with
  | operation o =>
    obtain ⟨_, root, _, draft, -, hroot, -, hdraft, own⟩ := ofOperation_eq_ok_iff.1 has
    rw [own]
    rcases h with h | h
    · rw [leafTypesOf, scopeOf?, hroot] at h
      have noted := (enums_of_addSelections (keepsEnums_spreadIn _) _ hdraft).2
      exact List.mem_append_right _ (noted name h henum)
    · exact List.mem_append_left _ (mem_allInputReferences_iff.1.2 ⟨h, henum⟩)
  | fragment f =>
    obtain ⟨scope, draft, hscope, hdraft, own⟩ := ofFragment_eq_ok_iff.1 has
    rw [own]
    rcases h with h | h
    · rw [leafTypesOf, scopeOf?, hscope] at h
      exact (enums_of_addSelections (keepsEnums_spreadIn _) _ hdraft).2 name h henum
    · cases h
  | _ => rcases h with h | h <;> cases h

/-- A definition refers to no enumerations but those that its variables are of, and those that the
leaves of definitions of the batch are of. -/
theorem exists_of_mem_enums_shapesOf {masking : Bool} {d : Definition} {name : String}
    (hd : d ∈ documents.flatMap Document.definitions)
    (has : HasShapes (contextOf schema masking documents) d)
    (h : name ∈ (shapesOf (contextOf schema masking documents) d).references.enums) :
    schema.IsEnum name ∧ (name ∈ d.variableTypes ∨
      ∃ e ∈ documents.flatMap Document.definitions, name ∈ leafTypesOf schema e) := by
  have drafted : ∀ {document : String} {scope : SchemaType} {draft : Draft},
      scopeOf? schema d = some scope →
      selectionDraft (contextOf schema masking documents) document scope d.selections = .ok draft →
      name ∈ draft.enums → schema.IsEnum name ∧
        ∃ e ∈ documents.flatMap Document.definitions, name ∈ leafTypesOf schema e := by
    intro document scope draft hscope hdraft hn
    refine (isInvariant_enums schema fun other =>
        ∃ e ∈ documents.flatMap Document.definitions, other ∈ leafTypesOf schema e).selectionDraft
      (fun f hf other ho => ⟨_, Document.mem_flatMap_fragments_iff.1 hf, ho⟩)
      (fun other ho => ⟨d, hd, ?_⟩) hdraft name hn
    rwa [leafTypesOf, hscope]
  cases d with
  | operation o =>
    obtain ⟨_, root, _, draft, -, hroot, -, hdraft, own⟩ := ofOperation_eq_ok_iff.1 has
    rw [own] at h
    rcases List.mem_append.1 h with h | h
    · obtain ⟨hvariable, henum⟩ := mem_allInputReferences_iff.1.1 h
      exact ⟨henum, Or.inl hvariable⟩
    · exact (drafted hroot hdraft h).imp_right Or.inr
  | fragment f =>
    obtain ⟨scope, draft, hscope, hdraft, own⟩ := ofFragment_eq_ok_iff.1 has
    rw [own] at h
    exact (drafted hscope hdraft h).imp_right Or.inr
  | _ => cases h

/-- **The enumerations that are declared** are those that can be reached from what the definitions
refer to. -/
theorem mem_reachableEnums_shapesOfAll_iff {masking : Bool} {name : String}
    (each : ∀ d ∈ documents.flatMap Document.definitions,
      HasShapes (contextOf schema masking documents) d) :
    name ∈ reachableEnums schema (shapesOfAll (contextOf schema masking documents)
      (documents.flatMap Document.definitions)).references ↔
        DeclaresEnum schema documents name := by
  rw [mem_reachableEnums_iff, mem_references_shapesOfAll_iff.1, DeclaresEnum]
  constructor
  · rintro (⟨d, hd, hn⟩ | ⟨input, ⟨type, htype, path⟩, hfield, henum⟩)
    · obtain ⟨henum, hvariable | ⟨e, he, hleaf⟩⟩ :=
        exists_of_mem_enums_shapesOf hd (each d hd) hn
      · exact ⟨henum, d, hd, Or.inr (Or.inl hvariable)⟩
      · exact ⟨henum, e, he, Or.inl hleaf⟩
    · obtain ⟨d, hd, htype⟩ := mem_references_shapesOfAll_iff.2.1 htype
      obtain ⟨hvariable, hinput⟩ := (mem_inputs_shapesOf_iff (each d hd)).1 htype
      exact ⟨henum, d, hd, Or.inr (Or.inr ⟨type, hvariable, hinput, input, path, hfield⟩)⟩
  · rintro ⟨henum, d, hd, hleaf | hvariable | ⟨type, hvariable, hinput, input, path, hfield⟩⟩
    · exact Or.inl ⟨d, hd, mem_enums_shapesOf (each d hd) (Or.inl hleaf) henum⟩
    · exact Or.inl ⟨d, hd, mem_enums_shapesOf (each d hd) (Or.inr hvariable) henum⟩
    · have refers := (mem_inputs_shapesOf_iff (each d hd)).2 ⟨hvariable, hinput⟩
      refine Or.inr ⟨input, ⟨type, ?_, path⟩, hfield, henum⟩
      exact mem_references_shapesOfAll_iff.2.2 ⟨d, hd, refers⟩

/-! ### When a batch has a program -/

/-- A fragment that spreads itself does no harm. -/
example : (Shape.program paintSchema true ScalarTable.builtIn
    [⟨[.fragment ⟨none, "P", "Paint", [], [.field none "id" [] [] none, .spread "P" []]⟩]⟩]).isOk =
      true := by
  decide +kernel

/-- The schema and the document that two texts stand for. -/
def batchOf? (types query : String) : Option (Schema × Document) :=
  match Document.parse? types, Document.parse? query with
  | some types, some query => match Schema.ofDocument types with
    | .ok schema => some (schema, query)
    | .error _ => none
  | _, _ => none

/-- What is seen of a batch is seen of the schema and the document that the texts are read as. -/
theorem exists_of_any_batchOf? {types query : String} {sees : Schema × Document → Bool}
    (h : (batchOf? types query).any sees = true) : ∃ definitions schema document,
      Document.parse? types = some definitions ∧ Schema.ofDocument definitions = .ok schema ∧
        Document.parse? query = some document ∧ sees (schema, document) = true := by
  unfold batchOf? at h
  split at h
  · next definitions document htypes hquery =>
    split at h
    · next schema hschema => exact ⟨definitions, schema, document, htypes, hschema, hquery, h⟩
    · cases h
  · cases h

end Shape

end QueryTypes
