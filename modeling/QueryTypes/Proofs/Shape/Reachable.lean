import QueryTypes.Proofs.Shape.Declarations
import QueryTypes.Proofs.Shape.Success
import QueryTypes.Proofs.Shape.Worklist

/-!
# Which named types stand in a program

The named types that stand in a program, between the table of scalars and the shapes, are those that
its batch reaches, in the order of their names: the input object types that variables lead to, and
the enumerations that variables, selected leaves and fields of these input object types are of
(`QueryTypes.Shape.namedTypes_of_program`). Leaves are selected at any depth, and also by spreads if
these are opened (`QueryTypes.Shape.SelectsLeaf`); but as a fragment that is spread is a definition
of the batch, its leaves count in any case (`QueryTypes.Shape.exists_selectsLeaf_iff`). Nothing below
the name of a type is selected, whatever is written there
(`QueryTypes.Shape.exists_enum_not_declared`).
-/

namespace QueryTypes

open GraphQL (Argument Definition Directive Document Fragment Selection TypeRef)

namespace Shape

open TypeScript (Alias)

variable {schema : Schema} {masking : Bool} {scalars : ScalarTable} {documents : List Document}
  {fragments : List Fragment} {scope : Option SchemaType} {selections : List Selection}
  {name : String}

/-! ### Selected leaves -/

/-- **Selections on a type select a leaf of a named type**: a field without a selection set, at any
depth of fields and inline fragments, and inside fragments that are spread, if these are opened. The
name of a type is no such field, and nothing below it is selected. -/
inductive SelectsLeaf (schema : Schema) (masking : Bool) (fragments : List Fragment) :
    Option SchemaType → List Selection → String → Prop where
  /-- A field without a selection set. -/
  | leaf {scope : Option SchemaType} {selections : List Selection} {responseName : Option String}
    {field : String} {arguments : List Argument} {directives : List Directive} {type : TypeRef}
    (hmem : .field responseName field arguments directives none ∈ selections)
    (htype : selectedType? scope field = some type) :
    SelectsLeaf schema masking fragments scope selections type.baseName
  /-- Below a field. -/
  | field {scope : Option SchemaType} {selections below : List Selection} {name : String}
    {responseName : Option String} {field : String} {arguments : List Argument}
    {directives : List Directive} {type : TypeRef}
    (hmem : .field responseName field arguments directives (some below) ∈ selections)
    (htype : selectedType? scope field = some type)
    (h : SelectsLeaf schema masking fragments (schema.find? type.baseName) below name) :
    SelectsLeaf schema masking fragments scope selections name
  /-- Inside an inline fragment for the same type. -/
  | inline {scope : Option SchemaType} {selections below : List Selection} {name : String}
    {directives : List Directive} (hmem : .inlineFragment none directives below ∈ selections)
    (h : SelectsLeaf schema masking fragments scope below name) :
    SelectsLeaf schema masking fragments scope selections name
  /-- Inside an inline fragment for a type. -/
  | onType {scope : Option SchemaType} {selections below : List Selection} {name : String}
    {condition : String} {directives : List Directive}
    (hmem : .inlineFragment (some condition) directives below ∈ selections)
    (h : SelectsLeaf schema masking fragments (schema.find? condition) below name) :
    SelectsLeaf schema masking fragments scope selections name
  /-- Inside a fragment that is spread and not masked. -/
  | spread {scope : Option SchemaType} {selections : List Selection} {name : String}
    {fragment : Fragment} {spreadName : String} {directives : List Directive}
    (hmasking : masking = false) (hmem : .spread spreadName directives ∈ selections)
    (hfragment : findFragment? fragments spreadName = some fragment)
    (h : SelectsLeaf schema masking fragments (schema.find? fragment.condition)
      fragment.selections name) : SelectsLeaf schema masking fragments scope selections name

theorem mem_leafTypesInAll_of_mem {s : Selection} (hs : s ∈ selections)
    (h : name ∈ leafTypes schema scope s) : name ∈ leafTypesInAll schema scope selections := by
  induction selections with
  | nil => cases hs
  | cons first rest ih =>
    rw [leafTypesInAll, List.mem_append]
    rcases List.mem_cons.1 hs with rfl | hs
    · exact Or.inl h
    · exact Or.inr (ih hs)

/-- A leaf that is selected is written in the selections themselves, or in a fragment. -/
theorem SelectsLeaf.mem_leafTypes (h : SelectsLeaf schema masking fragments scope selections name) :
    name ∈ leafTypesInAll schema scope selections ∨
      ∃ f ∈ fragments, name ∈ leafTypesOf schema (.fragment f) := by
  induction h with
  | leaf hmem htype =>
    refine Or.inl (mem_leafTypesInAll_of_mem hmem ?_)
    rw [leafTypes, htype]
    exact List.mem_singleton_self _
  | field hmem htype _ ih =>
    refine ih.imp_left fun h => mem_leafTypesInAll_of_mem hmem ?_
    rwa [leafTypes, htype]
  | inline hmem _ ih =>
    refine ih.imp_left fun h => mem_leafTypesInAll_of_mem hmem ?_
    rwa [leafTypes]
  | onType hmem _ ih =>
    refine ih.imp_left fun h => mem_leafTypesInAll_of_mem hmem ?_
    rwa [leafTypes]
  | spread _ _ hfragment _ ih =>
    exact Or.inr (ih.elim (fun h => ⟨_, (mem_of_findFragment? hfragment).1, h⟩) id)

theorem SelectsLeaf.mono {others : List Selection}
    (h : SelectsLeaf schema masking fragments scope selections name) (hsub : selections ⊆ others) :
    SelectsLeaf schema masking fragments scope others name := by
  cases h with
  | leaf hmem htype => exact .leaf (hsub hmem) htype
  | field hmem htype h => exact .field (hsub hmem) htype h
  | inline hmem h => exact .inline (hsub hmem) h
  | onType hmem h => exact .onType (hsub hmem) h
  | spread hmasking hmem hfragment h => exact .spread hmasking (hsub hmem) hfragment h

mutual

theorem selectsLeaf_of_mem_leafTypes : ∀ (s : Selection) {scope : Option SchemaType},
    name ∈ leafTypes schema scope s → SelectsLeaf schema masking fragments scope [s] name
  | .field _ field _ _ none, scope, h => by
    rw [leafTypes] at h
    obtain ⟨type, htype, rfl⟩ := Option.map_eq_some_iff.1 (Option.mem_toList.1 h)
    exact .leaf (List.mem_singleton_self _) htype
  | .field _ field _ _ (some selections), scope, h => by
    rw [leafTypes] at h
    split at h
    · cases h
    next type htype =>
      exact .field (List.mem_singleton_self _) htype
        (selectsLeaf_of_mem_leafTypesInAll selections h)
  | .spread _ _, scope, h => by
    rw [leafTypes] at h
    cases h
  | .inlineFragment none _ selections, scope, h => by
    rw [leafTypes] at h
    exact .inline (List.mem_singleton_self _) (selectsLeaf_of_mem_leafTypesInAll selections h)
  | .inlineFragment (some condition) _ selections, scope, h => by
    rw [leafTypes] at h
    exact .onType (List.mem_singleton_self _) (selectsLeaf_of_mem_leafTypesInAll selections h)

/-- A leaf that is written in selections is selected. -/
theorem selectsLeaf_of_mem_leafTypesInAll : ∀ (selections : List Selection)
    {scope : Option SchemaType}, name ∈ leafTypesInAll schema scope selections →
      SelectsLeaf schema masking fragments scope selections name
  | [], scope, h => by
    rw [leafTypesInAll] at h
    cases h
  | s :: rest, scope, h => by
    rw [leafTypesInAll] at h
    rcases List.mem_append.1 h with h | h
    · exact (selectsLeaf_of_mem_leafTypes s h).mono fun t ht =>
        List.mem_singleton.1 ht ▸ List.mem_cons_self ..
    · exact (selectsLeaf_of_mem_leafTypesInAll rest h).mono (List.subset_cons_self ..)

end

/-- **Opening spreads selects no more leaves in all**, since every fragment is a definition of the
batch by itself. -/
theorem exists_selectsLeaf_iff :
    (∃ d ∈ documents.flatMap Document.definitions,
      SelectsLeaf schema masking (documents.flatMap Document.fragments) (scopeOf? schema d)
        d.selections name) ↔
    ∃ d ∈ documents.flatMap Document.definitions, name ∈ leafTypesOf schema d := by
  constructor
  · rintro ⟨d, hd, h⟩
    rcases h.mem_leafTypes with h | ⟨f, hf, h⟩
    · exact ⟨d, hd, h⟩
    · exact ⟨.fragment f, Document.mem_flatMap_fragments_iff.1 hf, h⟩
  · rintro ⟨d, hd, h⟩
    exact ⟨d, hd, selectsLeaf_of_mem_leafTypesInAll _ h⟩

/-! ### Types that a batch reaches -/

/-- **A batch reaches an input object type** from the type of a variable, through fields of input
object types. -/
def ReachesInput (schema : Schema) (documents : List Document) (name : String) : Prop :=
  ∃ d ∈ documents.flatMap Document.definitions, ∃ type ∈ d.variableTypes,
    schema.IsInputObject type ∧ Relation.ReflTransGen (LeadsTo schema) type name

/-- **A batch reaches an enumeration**: a variable is of it, or a leaf that is selected, or a field
of an input object type that the batch reaches. -/
def ReachesEnum (schema : Schema) (masking : Bool) (documents : List Document) (name : String) :
    Prop :=
  schema.IsEnum name ∧
    ((∃ d ∈ documents.flatMap Document.definitions, name ∈ d.variableTypes) ∨
      (∃ d ∈ documents.flatMap Document.definitions,
        SelectsLeaf schema masking (documents.flatMap Document.fragments) (scopeOf? schema d)
          d.selections name) ∨
      ∃ input, ReachesInput schema documents input ∧ name ∈ inputFieldTypes schema input)

theorem reachesEnum_iff :
    ReachesEnum schema masking documents name ↔ DeclaresEnum schema documents name := by
  rw [ReachesEnum, DeclaresEnum, exists_selectsLeaf_iff]
  refine and_congr_right fun _ => ⟨?_, ?_⟩
  · rintro (⟨d, hd, h⟩ | ⟨d, hd, h⟩ | ⟨input, ⟨d, hd, type, htype, hinput, path⟩, h⟩)
    · exact ⟨d, hd, Or.inr (Or.inl h)⟩
    · exact ⟨d, hd, Or.inl h⟩
    · exact ⟨d, hd, Or.inr (Or.inr ⟨type, htype, hinput, input, path, h⟩)⟩
  · rintro ⟨d, hd, h | h | ⟨type, htype, hinput, input, path, h⟩⟩
    · exact Or.inr (Or.inl ⟨d, hd, h⟩)
    · exact Or.inl ⟨d, hd, h⟩
    · exact Or.inr (Or.inr ⟨input, ⟨d, hd, type, htype, hinput, path⟩, h⟩)

/-- What the definitions of a batch refer to, when all of them have shapes. -/
abbrev referencesOf (schema : Schema) (masking : Bool) (documents : List Document) : References :=
  (shapesOfAll (contextOf schema masking documents)
    (documents.flatMap Document.definitions)).references

theorem reachedInput_referencesOf_iff
    (each : ∀ d ∈ documents.flatMap Document.definitions,
      HasShapes (contextOf schema masking documents) d) :
    ReachedInput schema (referencesOf schema masking documents).inputs name ↔
      ReachesInput schema documents name := by
  constructor
  · rintro ⟨type, htype, path⟩
    obtain ⟨d, hd, htype⟩ := mem_references_shapesOfAll_iff.2.1 htype
    obtain ⟨hvariable, hinput⟩ := (mem_inputs_shapesOf_iff (each d hd)).1 htype
    exact ⟨d, hd, type, hvariable, hinput, path⟩
  · rintro ⟨d, hd, type, hvariable, hinput, path⟩
    exact ⟨type, mem_references_shapesOfAll_iff.2.2
      ⟨d, hd, (mem_inputs_shapesOf_iff (each d hd)).2 ⟨hvariable, hinput⟩⟩, path⟩

/-- **The names of the named types are those that the batch reaches.** -/
theorem mem_namedTypeNames_referencesOf_iff
    (each : ∀ d ∈ documents.flatMap Document.definitions,
      HasShapes (contextOf schema masking documents) d) :
    name ∈ namedTypeNames schema (referencesOf schema masking documents) ↔
      ReachesInput schema documents name ∨ ReachesEnum schema masking documents name := by
  rw [namedTypeNames, SortedNames.mem_ofList, List.mem_append, mem_reachableInputs_iff,
    reachedInput_referencesOf_iff each, reachesEnum_iff, mem_reachableEnums_shapesOfAll_iff each]

/-! ### Declarations of named types -/

/-- **What a named type is declared as.** -/
inductive Declares (schema : Schema) : Alias → Prop where
  /-- An input object type is an object type with a member for each of its fields, in the order of
  the schema; a member may be left out exactly if the field may be null. -/
  | inputObject {name : String} {fields : List (String × TypeRef)}
    (h : schema.find? name = some ⟨name, .inputObject fields⟩) :
    Declares schema { name := name, type := .object (fields.map fun f =>
      .mk f.1 (inputType schema f.2) (!f.2.isNonNull) false) }
  /-- An enumeration is the union of its values, in their order. -/
  | enum {name : String} {values : List String}
    (h : schema.find? name = some ⟨name, .enum values⟩) :
    Declares schema { name := name, type := .union (values.map fun value =>
      .literal (.string value)) }

theorem declares_declaration (h : schema.IsEnum name ∨ schema.IsInputObject name) :
    Declares schema (declaration schema name) := by
  obtain ⟨t, ht⟩ : ∃ t, schema.find? name = some t := by
    rcases h with ⟨t, ht, -⟩ | ⟨t, ht, -⟩ <;> exact ⟨t, ht⟩
  obtain ⟨typeName, body⟩ := t
  obtain rfl : typeName = name := Schema.name_of_find? ht
  have kind : (SchemaType.mk typeName body).enumValues?.isSome = true ∨
      (SchemaType.mk typeName body).isInputObject = true := by
    rcases h with ⟨u, hu, hkind⟩ | ⟨u, hu, hkind⟩
    · cases ht.symm.trans hu
      exact Or.inl hkind
    · cases ht.symm.trans hu
      exact Or.inr hkind
  rw [declaration, enumAlias, inputAlias, ht]
  cases body with
  | enum values => exact .enum ht
  | inputObject fields => exact .inputObject ht
  | _ => rcases kind with kind | kind <;> cases kind

/-! ### Programs -/

/-- **The named types of a program are those that its batch reaches.** Between what every program
begins with and the shapes stand the declarations of the input object types and enumerations that
the batch reaches, in strictly increasing order of their names, and each of them is declared as what
it is. They are also what a worklist declares: it comes to an end on every batch whose definitions
have shapes, and then the types that it has declared, along with the enumerations that it has noted,
are these. -/
theorem namedTypes_of_program (schema : Schema) (masking : Bool) (scalars : ScalarTable)
    (documents : List Document) :
    (∀ program, Shape.program schema masking scalars documents = .ok program →
      ∃ named shapes : List Alias,
        program.aliases = preamble schema scalars ++ (named ++ shapes) ∧
        shapes.map Alias.name = shapeNames documents ∧
        (named.map Alias.name).Pairwise (· < ·) ∧
        (∀ name, name ∈ named.map Alias.name ↔
          ReachesInput schema documents name ∨ ReachesEnum schema masking documents name) ∧
        (∀ a ∈ named, Declares schema a) ∧
        ∀ last, Relation.ReflTransGen (Worklist.Turn schema)
            (.start (referencesOf schema masking documents)) last → last.step schema = none →
          named.map Alias.name = SortedNames.ofList (last.declared ++ last.noted.enums)) ∧
    ∃ last, Relation.ReflTransGen (Worklist.Turn schema)
      (.start (referencesOf schema masking documents)) last ∧ last.step schema = none := by
  have sound : (referencesOf schema masking documents).IsSound schema :=
    isSound_shapesOfAll (contextOf schema masking documents) _
  refine ⟨fun program h => ?_, Worklist.exists_end sound.inputs (Worklist.holds_start ..)⟩
  obtain ⟨each, -, -, rfl⟩ := program_eq_ok_iff.1 h
  have names := map_name_namedTypes schema (referencesOf schema masking documents)
  refine ⟨_, _, aliases_programOf_eq .., map_name_shapesOfAll each, ?_, fun name => ?_, fun a ha => ?_,
    fun last run ends => ?_⟩
  · rw [names]
    exact SortedNames.pairwise_ofList _
  · rw [names]
    exact mem_namedTypeNames_referencesOf_iff each
  · rw [namedTypes_eq sound] at ha
    obtain ⟨name, hn, rfl⟩ := List.mem_map.1 ha
    exact declares_declaration (sound.kind hn)
  · rw [names, Worklist.namedTypeNames_eq run ends]

/-- A variable leads to an input object type that has a field of itself, and to an enumeration. -/
theorem namedTypes_of_program_paint : ∃ (program : TypeScript.Program) (named : List Alias),
    Shape.program paintSchema false ScalarTable.builtIn paintDocuments = .ok program ∧
      named.map Alias.name = ["Color", "Mix"] ∧ named ⊆ program.aliases ∧
      (∀ name, name = "Color" ∨ name = "Mix" ↔ ReachesInput paintSchema paintDocuments name ∨
        ReachesEnum paintSchema false paintDocuments name) ∧
      ∀ a ∈ named, Declares paintSchema a := by
  obtain ⟨program, h⟩ : ∃ program,
      Shape.program paintSchema false ScalarTable.builtIn paintDocuments = .ok program := ⟨_, rfl⟩
  obtain ⟨named, shapes, parts, names, -, reached, declared, -⟩ :=
    (namedTypes_of_program paintSchema false ScalarTable.builtIn paintDocuments).1 program h
  have all : program.aliases.map Alias.name =
      ["Maybe", "Scalars", "Color", "Mix", "QQueryVariables", "QQuery", "PFragment"] := by
    cases h
    rfl
  have middle : named.map Alias.name = ["Color", "Mix"] := by
    have shapesAre : shapeNames paintDocuments = ["QQueryVariables", "QQuery", "PFragment"] := rfl
    rw [parts, List.map_append, List.map_append, names, shapesAre] at all
    exact (List.append_left_inj _).1 ((List.append_right_inj ["Maybe", "Scalars"]).1 all)
  refine ⟨program, named, h, middle, fun a ha => ?_, fun name => ?_, declared⟩
  · rw [parts]
    exact List.mem_append_right _ (List.mem_append_left _ ha)
  · rw [← reached, middle, List.mem_cons, List.mem_singleton]

/-- A type that a query could not ask for, with a field of an enumeration. -/
def hiddenSchema : Schema where
  types := [⟨"Query", .object [] [("a", .named "String")]⟩,
    ⟨"T", .object [] [("c", .named "C")]⟩, ⟨"C", .enum ["RED"]⟩, ⟨"String", .scalar⟩]
  roots := { query := some "Query" }
  names_nodup := by decide
  closed := by decide
  roots_closed := by decide

/-- **A leaf that is written but not selected.** An inline fragment below the name of a type has a
field without a selection set, and it is of an enumeration; the batch has a program, and the
enumeration is not declared. -/
theorem exists_enum_not_declared :
    let leaf : Selection := .field none "c" [] [] none
    let documents : List Document := [⟨[.operation ⟨none, .query, some "Q", [], [],
      [.field none "__typename" [] [] (some [.inlineFragment (some "T") [] [leaf]])]⟩]⟩]
    (hiddenSchema.find? "T").bind (fun t => t.field? "c") = some (.named "C") ∧
      hiddenSchema.IsEnum "C" ∧
      ∃ program, Shape.program hiddenSchema true ScalarTable.builtIn documents = .ok program ∧
        "C" ∉ program.aliasNames := by
  refine ⟨by decide, ⟨_, rfl, rfl⟩, _, rfl, by decide⟩

end Shape

end QueryTypes
