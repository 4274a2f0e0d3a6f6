import QueryTypes.Proofs.Schema.Subtypes
import QueryTypes.Proofs.Shape.Declarations
import QueryTypes.Proofs.TypeScript.References

/-!
# Programs are closed

What shapes refer to is declared along with them. A shape names the enumerations of its leaves, and
these are noted in its draft (`QueryTypes.Shape.isInvariant_refersOnly`); variables and the fields
of input object types name enumerations and input object types, and both are followed as far as they
lead (`QueryTypes.Shape.refersOnly_inputAlias`). What remains are scalars, and each of them is an
entry of the table. So a program refers to nothing but what it declares and the wrappers
(`QueryTypes.Shape.program_refersOnly`), as long as fields without a selection set are leaves.
-/

namespace QueryTypes

open GraphQL (Definition Document Fragment Operation Selection TypeRef VariableDefinition)

namespace Shape

open TypeScript (Alias Member Program TypeExpr)

variable {schema : Schema} {name : String} {names : String → Prop}
  {entries : String → String → Prop}

/-! ### Wrappers and leaves -/

/-- The names of the types that wrap others. -/
def wrapperNames : List String := ["Maybe", "Array", "Record"]

/-- What stands inside the wrappers of a type reference is all that it refers to but wrappers. -/
theorem refersOnly_wrapped {inner : TypeExpr} (h : inner.RefersOnly names entries)
    (hw : ∀ name ∈ wrapperNames, names name) (type : TypeRef) :
    ∀ present, (wrapped inner present type).RefersOnly names entries := by
  have maybe : ∀ {t : TypeExpr}, t.RefersOnly names entries →
      (nullable t).RefersOnly names entries := by
    intro t ht
    rw [nullable, TypeExpr.RefersOnly, TypeExpr.refersOnlyInAll_iff]
    exact ⟨hw _ (by decide), by simpa using ht⟩
  have many : ∀ {t : TypeExpr}, t.RefersOnly names entries →
      (listOf t).RefersOnly names entries := by
    intro t ht
    rw [listOf, TypeExpr.RefersOnly, TypeExpr.refersOnlyInAll_iff]
    exact ⟨hw _ (by decide), by simpa using ht⟩
  induction type with
  | named _ =>
    rintro (_ | _)
    · exact maybe h
    · exact h
  | list _ ih =>
    rintro (_ | _)
    · exact maybe (many (ih false))
    · exact many (ih false)
  | nonNull _ ih => rintro (_ | _) <;> exact ih true

/-- A leaf is an enumeration by its name, or a scalar of the table. -/
theorem refersOnly_leaf (hleaf : schema.IsLeaf name)
    (hn : schema.IsEnum name → names name) (he : schema.IsScalar name → entries "Scalars" name) :
    (leaf schema name).RefersOnly names entries := by
  unfold leaf
  split
  · next values h =>
    obtain ⟨t, ht, hv⟩ := Option.bind_eq_some_iff.1 h
    rw [TypeExpr.named, TypeExpr.RefersOnly, TypeExpr.RefersOnlyInAll]
    exact ⟨hn ⟨t, ht, Option.isSome_iff_exists.2 ⟨values, hv⟩⟩, trivial⟩
  · next h =>
    rw [scalarEntry, TypeExpr.RefersOnly]
    refine he (hleaf.resolve_right ?_)
    rintro ⟨t, ht, hv⟩
    rw [ht, Option.bind_some] at h
    rw [h] at hv
    cases hv

/-- An input is a leaf, or an input object type by its name. -/
theorem refersOnly_inputLeaf (hinput : schema.IsInput name)
    (hi : schema.IsInputObject name → names name) (hn : schema.IsEnum name → names name)
    (he : schema.IsScalar name → entries "Scalars" name) :
    (inputLeaf schema name).RefersOnly names entries := by
  unfold inputLeaf
  split
  · next t ht =>
    split
    · next object =>
      rw [TypeExpr.named, TypeExpr.RefersOnly, TypeExpr.RefersOnlyInAll]
      exact ⟨hi ⟨t, ht, object⟩, trivial⟩
    · next other =>
      refine refersOnly_leaf (hinput.resolve_right ?_) hn he
      rintro ⟨u, hu, object⟩
      rw [Option.some.inj (ht.symm.trans hu)] at other
      exact other object
  · next none =>
    refine refersOnly_leaf (hinput.resolve_right ?_) hn he
    rintro ⟨u, hu, -⟩
    rw [none] at hu
    cases hu

/-- **Members for inputs** refer to the enumerations and input object types of their types. -/
theorem refersOnly_inputMember {type : TypeRef}
    (hinput : schema.IsInput type.baseName) (hw : ∀ name ∈ wrapperNames, names name)
    (hi : schema.IsInputObject type.baseName → names type.baseName)
    (hn : schema.IsEnum type.baseName → names type.baseName)
    (he : schema.IsScalar type.baseName → entries "Scalars" type.baseName) :
    (inputMember schema name type).RefersOnly names entries := by
  rw [inputMember, Member.RefersOnly]
  exact refersOnly_wrapped (refersOnly_inputLeaf hinput hi hn he) hw type false

/-! ### Drafts -/

/-- The entries of the table of scalars that stand for scalars of a schema. -/
def IsScalarEntry (schema : Schema) (object index : String) : Prop :=
  object = "Scalars" ∧ schema.IsScalar index

/-- What a draft refers to: wrappers, and the enumerations that it notes. -/
def Draft.RefersOnlyToEnums (schema : Schema) (draft : Draft) : Prop :=
  ∀ m ∈ draft.members, m.RefersOnly (fun name => name ∈ wrapperNames ∨ name ∈ draft.enums)
    (IsScalarEntry schema)

/-- A member whose references are noted may be added. -/
theorem Draft.RefersOnlyToEnums.add {draft : Draft} (h : draft.RefersOnlyToEnums schema)
    {key : String} {type : TypeExpr} {optional : Bool} {enums : List String}
    (ht : type.RefersOnly (fun name => name ∈ wrapperNames ∨ name ∈ enums)
      (IsScalarEntry schema)) :
    ((draft.addMember (.mk key type optional false)).addEnums enums).RefersOnlyToEnums schema := by
  intro m hm
  rw [(members_addEnums ..).1] at hm
  rcases mem_insertMember hm with rfl | hm
  · refine TypeExpr.RefersOnly.mono (fun name hn => ?_) (fun _ _ he => he) ht
    exact hn.imp_right fun hn => mem_enums_addEnums_iff.2 (Or.inr hn)
  · refine Member.RefersOnly.mono (fun name hn => ?_) (fun _ _ he => he) (h m hm)
    exact hn.imp_right fun hn => mem_enums_addEnums_iff.2 (Or.inl hn)

/-- The finished object type refers to what its members refer to; the mark of a fragment refers to
nothing. -/
theorem Draft.RefersOnlyToEnums.toType {draft : Draft} (h : draft.RefersOnlyToEnums schema) :
    draft.toType.RefersOnly (fun name => name ∈ wrapperNames ∨ name ∈ draft.enums)
      (IsScalarEntry schema) := by
  rw [Draft.toType, TypeExpr.refersOnly_object_iff]
  intro m hm
  rcases List.mem_append.1 hm with hm | hm
  · exact h m hm
  · split at hm
    · cases hm
    · rw [List.mem_singleton.1 hm, Draft.fragmentsMember, Member.RefersOnly,
        TypeExpr.refersOnly_object_iff]
      intro mark hmark
      obtain ⟨name, -, rfl⟩ := List.mem_map.1 hmark
      rw [Member.RefersOnly, TypeExpr.RefersOnly]
      trivial

/-- **Drafts note what they refer to**, as long as leaves are scalars and enumerations. -/
theorem isInvariant_refersOnly (schema : Schema) :
    IsInvariant schema schema.IsLeaf (Draft.RefersOnlyToEnums schema) where
  empty := nofun
  typename key scope optional h := by
    refine @Draft.RefersOnlyToEnums.add schema _ h key _ optional [] ?_
    rcases scope with _ | t
    · rw [typenameType, TypeExpr.RefersOnly]
      trivial
    · rw [typenameType]
      split <;> · rw [TypeExpr.RefersOnly]; trivial
  leaf key type optional hleaf h := by
    refine h.add (refersOnly_wrapped (refersOnly_leaf hleaf ?_ ?_) (fun _ hw => Or.inl hw) type _)
    · exact fun henum => Or.inr (mem_leafEnums_iff.2 ⟨rfl, henum⟩)
    · exact fun hscalar => ⟨rfl, hscalar⟩
  object key type optional hb h :=
    h.add (refersOnly_wrapped hb.toType (fun _ hw => Or.inl hw) type _)
  masked name h m hm := by
    rw [(addFragment_eq _ name).1] at hm
    rw [(addFragment_eq _ name).2]
    exact h m hm

/-! ### Definitions -/

section Definitions

variable {masking : Bool} {fragments : List Fragment} {documents : List Document}

/-- What definitions may rely on, so that what they refer to can be declared: fields without a
selection set are leaves, and variables are inputs. -/
structure IsTyped (schema : Schema) (ds : List Definition) : Prop where
  /-- The fields without a selection set are scalars and enumerations. -/
  leaves : ∀ d ∈ ds, ∀ name ∈ leafTypesOf schema d, schema.IsLeaf name
  /-- The variables are scalars, enumerations and input object types. -/
  inputs : ∀ o, .operation o ∈ ds → ∀ v ∈ o.variableDefinitions,
    schema.IsInput v.type.baseName

/-- The type of the variables of an operation refers to their types. -/
theorem refersOnly_variablesType {document : String} {vs : List VariableDefinition}
    {type : TypeExpr} (h : variablesType schema document vs = .ok type)
    (inputs : ∀ v ∈ vs, schema.IsInput v.type.baseName)
    (hw : ∀ name ∈ wrapperNames, names name)
    (hn : ∀ v ∈ vs, schema.IsInputObject v.type.baseName ∨ schema.IsEnum v.type.baseName →
      names v.type.baseName)
    (he : ∀ name, schema.IsScalar name → entries "Scalars" name) :
    type.RefersOnly names entries := by
  obtain ⟨-, rfl⟩ := variablesType_eq_ok_iff.1 h
  cases vs with
  | nil =>
    simp only [inputsType, noVariables, TypeExpr.RefersOnly, TypeExpr.RefersOnlyInAll, and_true]
    exact hw _ (by decide)
  | cons first rest =>
    rw [inputsType, TypeExpr.refersOnly_object_iff]
    · intro m hm
      obtain ⟨v, hv, rfl⟩ := List.mem_map.1 hm
      exact refersOnly_inputMember (inputs v hv) hw (fun hi => hn v hv (Or.inl hi))
        (fun henum => hn v hv (Or.inr henum)) (he _)
    · exact List.cons_ne_nil _ _

/-- **What a definition refers to is noted**: wrappers, scalars of the table, and the enumerations
and input object types that go along with its shapes. -/
theorem refersOnly_shapesOf {ds : List Definition} (typed : IsTyped schema ds)
    (fragments_mem : ∀ f ∈ fragments, .fragment f ∈ ds) {d : Definition} (hd : d ∈ ds) :
    ∀ a ∈ (shapesOf ⟨schema, masking, fragments⟩ d).aliases,
      a.type.RefersOnly
        (fun name => name ∈ wrapperNames ∨
          name ∈ (shapesOf ⟨schema, masking, fragments⟩ d).references.enums ∨
          name ∈ (shapesOf ⟨schema, masking, fragments⟩ d).references.inputs)
        (IsScalarEntry schema) := by
  -- a draft refers to the enumerations it notes, and these are noted for the definition
  have draftRefers : ∀ {document scope draft} (hscope : scopeOf? schema d = some scope)
      (hdraft : selectionDraft ⟨schema, masking, fragments⟩ document scope d.selections =
        .ok draft), draft.toType.RefersOnly
          (fun name => name ∈ wrapperNames ∨ name ∈ draft.enums) (IsScalarEntry schema) := by
    intro document scope draft hscope hdraft
    refine Draft.RefersOnlyToEnums.toType ?_
    refine (isInvariant_refersOnly schema).selectionDraft
      (fun f hf => typed.leaves _ (fragments_mem f hf)) ?_ hdraft
    rw [← hscope]
    exact typed.leaves d hd
  cases h : ofDefinition ⟨schema, masking, fragments⟩ d with
  | error e =>
    rw [shapesOf, h]
    exact fun a ha => absurd ha List.not_mem_nil
  | ok own =>
    rw [(hasShapes_of_eq_ok h).2]
    cases d with
    | operation o =>
      obtain ⟨_, root, inputs, draft, -, hroot, hinputs, hdraft, rfl⟩ := ofOperation_eq_ok_iff.1 h
      have own := draftRefers hroot hdraft
      intro a ha
      rcases List.mem_cons.1 ha with rfl | ha
      · refine refersOnly_variablesType hinputs (typed.inputs o hd) (fun _ hw => Or.inl hw)
          (fun v hv hk => ?_) fun _ hs => ⟨rfl, hs⟩
        have mem : v.type.baseName ∈ o.variableDefinitions.map fun v => v.type.baseName :=
          List.mem_map_of_mem hv
        rcases hk with hk | hk
        · exact Or.inr (Or.inr (List.mem_append_left _ (mem_allInputReferences_iff.2.2 ⟨mem, hk⟩)))
        · exact Or.inr (Or.inl (List.mem_append_left _ (mem_allInputReferences_iff.1.2 ⟨mem, hk⟩)))
      · rw [List.mem_singleton.1 ha]
        exact TypeExpr.RefersOnly.mono
          (fun _ hn => hn.imp_right fun hn => Or.inl (List.mem_append_right _ hn))
          (fun _ _ he => he) own
    | fragment f =>
      obtain ⟨scope, draft, hscope, hdraft, rfl⟩ := ofFragment_eq_ok_iff.1 h
      have own := draftRefers hscope hdraft
      intro a ha
      rw [List.mem_singleton.1 ha]
      exact TypeExpr.RefersOnly.mono (fun _ hn => hn.imp_right Or.inl) (fun _ _ he => he) own
    | _ =>
      cases h
      exact fun a ha => absurd ha List.not_mem_nil

end Definitions

/-! ### Named types -/

/-- The fields of input object types are scalars, enumerations and input object types. -/
def HasInputFields (schema : Schema) : Prop :=
  ∀ t ∈ schema.types, t.isInputObject = true → ∀ f ∈ t.fields, schema.IsInput f.2.baseName

/-- The values of an enumeration refer to nothing. -/
theorem refersOnly_enumAlias (schema : Schema) (name : String) :
    (enumAlias schema name).type.RefersOnly names entries := by
  rw [enumAlias, TypeExpr.RefersOnly, TypeExpr.refersOnlyInAll_iff]
  intro t ht
  obtain ⟨value, -, rfl⟩ := List.mem_map.1 ht
  rw [TypeExpr.RefersOnly]
  trivial

/-- **An input object type refers to what it leads to**, and all of that is declared with it. -/
theorem refersOnly_inputAlias {references : References} (fields : HasInputFields schema)
    (hinput : schema.IsInputObject name)
    (hreached : ReachedInput schema references.inputs name) :
    (inputAlias schema name).type.RefersOnly
      (fun other => other ∈ wrapperNames ∨ other ∈ namedTypeNames schema references)
      (IsScalarEntry schema) := by
  obtain ⟨t, ht, object⟩ := hinput
  rw [inputAlias, TypeExpr.refersOnly_object_iff, ht]
  intro m hm
  obtain ⟨f, hf, rfl⟩ := List.mem_map.1 hm
  have mem : f.2.baseName ∈ inputFieldTypes schema name := by
    rw [inputFieldTypes, ht]
    exact List.mem_map_of_mem hf
  refine refersOnly_inputMember (fields t (Schema.mem_of_find? ht) object f hf)
    (fun _ hw => Or.inl hw) (fun hi => Or.inr (mem_namedTypeNames_iff.2 ?_))
    (fun henum => Or.inr (mem_namedTypeNames_iff.2 ?_)) fun hs => ⟨rfl, hs⟩
  · -- one more step along the field
    obtain ⟨start, hstart, path⟩ := hreached
    exact Or.inl ⟨start, hstart, path.tail ⟨mem, hi⟩⟩
  · exact Or.inr (Or.inr ⟨name, hreached, mem, henum⟩)

/-- **Named types refer to named types**, and to scalars of the table. -/
theorem refersOnly_namedTypes {references : References} (fields : HasInputFields schema)
    (sound : references.IsSound schema) :
    ∀ a ∈ namedTypes schema references,
      a.type.RefersOnly
        (fun other => other ∈ wrapperNames ∨ other ∈ namedTypeNames schema references)
        (IsScalarEntry schema) := by
  intro a ha
  rw [namedTypes_eq sound] at ha
  obtain ⟨name, hn, rfl⟩ := List.mem_map.1 ha
  rw [declaration]
  split
  · exact refersOnly_enumAlias schema name
  · next other =>
    have isInput : schema.IsInputObject name := by
      refine (sound.kind hn).resolve_left ?_
      rintro ⟨t, ht, henum⟩
      rw [ht] at other
      exact other henum
    -- of the three ways to be declared, two are for enumerations
    refine refersOnly_inputAlias fields isInput ?_
    rcases mem_namedTypeNames_iff.1 hn with h | h | ⟨_, _, _, h⟩
    · exact h
    · exact absurd (sound.enums name h) isInput.not_isEnum
    · exact absurd h isInput.not_isEnum

/-! ### The table of scalars -/

/-- The table holds the scalars of the schema that are not built in, and no others, unless the
schema has scalars with reserved names. -/
theorem mem_customScalars_iff
    (unreserved : ∀ t ∈ schema.types, t.isScalar = true → Schema.isReserved t.name = false) :
    name ∈ customScalars schema ↔ name ∉ ScalarTable.builtInNames ∧ schema.IsScalar name := by
  rw [customScalars, SortedNames.mem_ofList, List.mem_map]
  simp only [List.mem_filter, Bool.and_eq_true, Bool.not_eq_true', List.contains_eq_mem,
    decide_eq_false_iff_not]
  constructor
  · rintro ⟨t, ⟨ht, ⟨scalar, other⟩, -⟩, rfl⟩
    exact ⟨other, t, Schema.find?_name ht, scalar⟩
  · rintro ⟨other, t, ht, scalar⟩
    have mem := Schema.mem_of_find? ht
    obtain rfl := Schema.name_of_find? ht
    exact ⟨t, ⟨mem, ⟨scalar, other⟩, unreserved t mem scalar⟩, rfl⟩

/-- The names of the table are those of its members. -/
theorem keys_scalarsType (schema : Schema) (scalars : ScalarTable) :
    ∃ members, scalarsType schema scalars = .object members ∧
      members.map Member.key = ScalarTable.builtInNames ++ customScalars schema := by
  refine ⟨_, rfl, ?_⟩
  rw [List.map_map]
  exact List.map_id _

/-- What every program begins with refers to nothing but the parameter of `Maybe`. -/
theorem refersOnly_preamble {scalars : ScalarTable} : ∀ a ∈ preamble schema scalars,
    a.type.RefersOnly (fun name => name ∈ wrapperNames ∨ (a = maybeAlias ∧ name = "T"))
      (fun _ _ => False) := by
  intro a ha
  rw [preamble, List.mem_cons, List.mem_singleton] at ha
  rcases ha with rfl | rfl
  · rw [maybeAlias, TypeExpr.RefersOnly, TypeExpr.refersOnlyInAll_iff]
    intro t ht
    rcases List.mem_cons.1 ht with rfl | ht
    · rw [TypeExpr.named, TypeExpr.RefersOnly, TypeExpr.RefersOnlyInAll]
      exact ⟨Or.inr ⟨rfl, rfl⟩, trivial⟩
    · rw [List.mem_singleton.1 ht, TypeExpr.null, TypeExpr.RefersOnly]
      trivial
  · rw [scalarsType, TypeExpr.refersOnly_object_iff]
    intro m hm
    obtain ⟨name, -, rfl⟩ := List.mem_map.1 hm
    rw [Member.RefersOnly, TypeExpr.RefersOnly]
    trivial

/-! ### Programs -/

section Programs

variable {masking : Bool} {scalars : ScalarTable} {documents : List Document} {program : Program}

/-- Definitions of a batch refer to what is declared along with its shapes. -/
theorem refersOnly_shapesOfAll
    (typed : IsTyped schema (documents.flatMap Document.definitions)) :
    ∀ a ∈ (shapesOfAll (contextOf schema masking documents)
        (documents.flatMap Document.definitions)).aliases,
      a.type.RefersOnly
        (fun name => name ∈ wrapperNames ∨ name ∈ namedTypeNames schema
          (shapesOfAll (contextOf schema masking documents)
            (documents.flatMap Document.definitions)).references)
        (IsScalarEntry schema) := by
  intro a ha
  obtain ⟨d, hd, ha⟩ := List.mem_flatMap.1 ha
  refine TypeExpr.RefersOnly.mono (fun name hn => hn.imp_right fun hn => ?_) (fun _ _ he => he)
    (refersOnly_shapesOf typed (fun _ hf => Document.mem_flatMap_fragments_iff.1 hf) hd a ha)
  refine mem_namedTypeNames_iff.2 ?_
  rcases hn with hn | hn
  · exact Or.inr (Or.inl (mem_references_shapesOfAll_iff.1.2 ⟨d, hd, hn⟩))
  · exact Or.inl ⟨name, mem_references_shapesOfAll_iff.2.2 ⟨d, hd, hn⟩, .refl⟩

/-- **Programs are closed.** If the scalars of a schema have no reserved names and the fields of its
input object types have input types, if fields that are selected without a selection set are scalars
and enumerations, and variables are inputs, then a program refers to nothing but the wrappers, the
parameter of `Maybe`, the names that it declares, and the entries of its table of scalars. The table
has the five built-in scalars, then those of the schema in strictly increasing order. -/
theorem program_refersOnly
    (unreserved : ∀ t ∈ schema.types, t.isScalar = true → Schema.isReserved t.name = false)
    (fields : HasInputFields schema)
    (typed : IsTyped schema (documents.flatMap Document.definitions))
    (h : Shape.program schema masking scalars documents = .ok program) :
    ∃ members custom,
      program.findAlias? "Scalars" = some { name := "Scalars", type := .object members } ∧
      members.map Member.key = ["ID", "String", "Boolean", "Int", "Float"] ++ custom ∧
      custom.Pairwise (· < ·) ∧ (members.map Member.key).Nodup ∧
      (∀ name, name ∈ custom ↔
        name ∉ ["ID", "String", "Boolean", "Int", "Float"] ∧ schema.IsScalar name) ∧
      ∀ a ∈ program.aliases, a.type.RefersOnly
        (fun name => name ∈ ["Maybe", "Array", "Record"] ∨ (a = maybeAlias ∧ name = "T") ∨
          name ∈ program.aliasNames)
        (fun object index => object = "Scalars" ∧ index ∈ members.map Member.key) := by
  have names := aliasNames_eq h
  obtain ⟨each, -, -, rfl⟩ := program_eq_ok_iff.1 h
  obtain ⟨members, hmembers, keys⟩ := keys_scalarsType schema scalars
  have builtIn : ScalarTable.builtInNames = ["ID", "String", "Boolean", "Int", "Float"] := rfl
  have custom : ∀ name, name ∈ customScalars schema ↔
      name ∉ ScalarTable.builtInNames ∧ schema.IsScalar name :=
    fun _ => mem_customScalars_iff unreserved
  have entries : ∀ object index, IsScalarEntry schema object index →
      object = "Scalars" ∧ index ∈ members.map Member.key := by
    rintro object index ⟨rfl, scalar⟩
    refine ⟨rfl, ?_⟩
    rw [keys, List.mem_append, custom]
    tauto
  refine ⟨members, customScalars schema, ?_, keys, SortedNames.pairwise_ofList _, ?_, custom, ?_⟩
  · rw [Program.findAlias?, aliases_programOf_eq, preamble, hmembers]
    rfl
  · rw [keys, List.nodup_append']
    refine ⟨by decide, SortedNames.nodup_ofList _, fun name hb hc => ?_⟩
    exact ((custom name).1 hc).1 hb
  · intro a ha
    rw [aliases_programOf_eq, List.mem_append, List.mem_append] at ha
    -- the names of all named types are declared
    have declared : ∀ name, name ∈ wrapperNames ∨ name ∈ namedTypeNames schema
        (shapesOfAll (contextOf schema masking documents)
          (documents.flatMap Document.definitions)).references →
        name ∈ ["Maybe", "Array", "Record"] ∨ (a = maybeAlias ∧ name = "T") ∨
          name ∈ (programOf schema scalars (shapesOfAll (contextOf schema masking documents)
            (documents.flatMap Document.definitions))).aliasNames := by
      rintro name (hw | hn)
      · exact Or.inl hw
      · rw [names]
        exact Or.inr (Or.inr (List.mem_cons_of_mem _ (List.mem_cons_of_mem _
          (List.mem_append_left _ hn))))
    rcases ha with ha | ha | ha
    · refine TypeExpr.RefersOnly.mono (fun name hn => ?_) nofun (refersOnly_preamble a ha)
      exact hn.imp_right Or.inl
    · exact TypeExpr.RefersOnly.mono declared entries
        (refersOnly_namedTypes fields
          (isSound_shapesOfAll (contextOf schema masking documents) _) a ha)
    · exact TypeExpr.RefersOnly.mono declared entries (refersOnly_shapesOfAll typed a ha)

/-- The paints have a closed program: an input object type that leads to itself is declared with the
enumeration of its other field, and the table has no more than the built-in scalars. -/
theorem program_refersOnly_paint : ∃ program,
    Shape.program paintSchema true ScalarTable.builtIn paintDocuments = .ok program ∧
      program.aliasNames =
        ["Maybe", "Scalars", "Color", "Mix", "QQueryVariables", "QQuery", "PFragment"] ∧
      ∀ a ∈ program.aliases, a.type.RefersOnly
        (fun name => name ∈ ["Maybe", "Array", "Record"] ∨ (a = maybeAlias ∧ name = "T") ∨
          name ∈ program.aliasNames)
        (fun object index =>
          object = "Scalars" ∧ index ∈ ["ID", "String", "Boolean", "Int", "Float"]) := by
  obtain ⟨program, h⟩ : ∃ program,
      Shape.program paintSchema true ScalarTable.builtIn paintDocuments = .ok program := ⟨_, rfl⟩
  have color : paintSchema.IsEnum "Color" := ⟨_, rfl, rfl⟩
  have mix : paintSchema.IsInputObject "Mix" := ⟨_, rfl, rfl⟩
  have id : paintSchema.IsScalar "ID" := ⟨_, rfl, rfl⟩
  have fields : HasInputFields paintSchema := by
    have all : ∀ t ∈ paintSchema.types, t.isInputObject = true → ∀ f ∈ t.fields,
        f.2.baseName ∈ ["Color", "Mix"] := by
      decide
    intro t ht object f hf
    have known := all t ht object f hf
    rw [List.mem_cons, List.mem_singleton] at known
    rcases known with named | named <;> rw [named]
    · exact Or.inl (Or.inr color)
    · exact Or.inr mix
  have typed : IsTyped paintSchema (paintDocuments.flatMap Document.definitions) := by
    constructor
    · intro d hd name hn
      rcases List.mem_cons.1 hd with rfl | hd
      · cases hn
      · rw [List.mem_singleton.1 hd] at hn
        rcases List.mem_cons.1 hn with rfl | hn
        · exact Or.inl id
        · rw [List.mem_singleton.1 hn]
          exact Or.inr color
    · intro o ho v hv
      rcases List.mem_cons.1 ho with ho | ho
      · cases ho
        rw [List.mem_singleton.1 hv]
        exact Or.inr mix
      · cases List.mem_singleton.1 ho
  obtain ⟨members, custom, -, keys, -, -, mem, closed⟩ :=
    program_refersOnly (by decide) fields typed h
  have none : custom = [] := by
    refine List.eq_nil_iff_forall_not_mem.2 fun name hn => ?_
    obtain ⟨other, t, ht, scalar⟩ := (mem name).1 hn
    have all : ∀ t ∈ paintSchema.types, t.isScalar = true →
        t.name ∈ ["ID", "String", "Boolean", "Int", "Float"] := by
      decide
    refine other ?_
    rw [← Schema.name_of_find? ht]
    exact all t (Schema.mem_of_find? ht) scalar
  refine ⟨program, h, ?_, ?_⟩
  · cases h
    rfl
  · rw [keys, none] at closed
    exact closed

end Programs

end Shape

end QueryTypes
