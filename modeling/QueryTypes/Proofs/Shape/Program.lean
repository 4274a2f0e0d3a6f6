import QueryTypes.Proofs.Shape.Batch
import QueryTypes.Proofs.Shape.Drafts
import QueryTypes.Proofs.Shape.NamedTypes

/-!
# When a batch has a program

Definitions are shaped one by one (`QueryTypes.Shape.shapesOf`), so there is one equation for all of
them together: if each has shapes, then what is left to go wrong is that the name of a shape comes
up again, and the first one that does is told
(`QueryTypes.Shape.addDefinitions_of_hasShapes`). A batch has a program exactly if every definition
has shapes, no two shapes share a name, and the values of the enumerations that are declared can be
read (`QueryTypes.Shape.program_eq_ok_iff`). The program is then put together of three parts: what
every program begins with, the named types, and the shapes.
-/

namespace QueryTypes

open GraphQL (Definition Document Fragment Operation)

namespace Shape

open TypeScript (Alias Program)

/-! ### Names that come up again -/

section Repeated

variable {seen names more : List String} {name : String}

/-- Which names were seen before matters, not in which order. -/
theorem firstRepeated_congr (h : ∀ name, name ∈ seen ↔ name ∈ more) :
    firstRepeated seen names = firstRepeated more names := by
  induction names generalizing seen more with
  | nil => rfl
  | cons name rest ih =>
    have next : ∀ other, other ∈ name :: seen ↔ other ∈ name :: more := fun other => by
      rw [List.mem_cons, List.mem_cons, h]
    simp only [firstRepeated, h, ih next]

theorem firstRepeated_append (xs ys : List String) :
    firstRepeated seen (xs ++ ys) =
      (firstRepeated seen xs).or (firstRepeated (seen ++ xs) ys) := by
  induction xs generalizing seen with
  | nil => simp [firstRepeated]
  | cons name rest ih =>
    rw [List.cons_append, firstRepeated, firstRepeated]
    split
    · rfl
    · rw [ih]
      refine congrArg (Option.or _) (firstRepeated_congr fun other => ?_)
      simp only [List.mem_append, List.mem_cons]
      tauto

/-- A repeated name stands behind distinct names that were not seen before, and it was seen before
or is one of them. The induction takes the names that were passed to those that were seen. -/
theorem exists_split_of_firstRepeated (h : firstRepeated seen names = some name) :
    ∃ before after, names = before ++ name :: after ∧ before.Nodup ∧ before.Disjoint seen ∧
      (name ∈ seen ∨ name ∈ before) := by
  induction names generalizing seen with
  | nil => cases h
  | cons first rest ih =>
    rw [firstRepeated] at h
    split at h
    · next hseen =>
      obtain rfl := Option.some.inj h
      exact ⟨[], rest, rfl, List.nodup_nil, List.disjoint_nil_left _, Or.inl hseen⟩
    · next hnew =>
      obtain ⟨before, after, rfl, distinct, apart, again⟩ := ih h
      rw [List.disjoint_cons_right] at apart
      refine ⟨first :: before, after, rfl, List.nodup_cons.2 ⟨apart.1, distinct⟩,
        List.disjoint_cons_left.2 ⟨hnew, apart.2⟩, ?_⟩
      rw [List.mem_cons] at again ⊢
      tauto

/-- **The first repeated name** is the one that stands among the names before it, which are
distinct. -/
theorem firstRepeated_eq_some_iff : firstRepeated [] names = some name ↔
    ∃ before after, names = before ++ name :: after ∧ before.Nodup ∧ name ∈ before := by
  constructor
  · intro h
    obtain ⟨before, after, rfl, distinct, -, again⟩ := exists_split_of_firstRepeated h
    exact ⟨before, after, rfl, distinct, again.resolve_left List.not_mem_nil⟩
  · rintro ⟨before, after, rfl, distinct, again⟩
    have none : firstRepeated [] before = none :=
      firstRepeated_eq_none_iff.2 ⟨distinct, List.disjoint_nil_right _⟩
    rw [firstRepeated_append, none, Option.none_or, List.nil_append, firstRepeated, if_pos again]

end Repeated

/-! ### Definitions one by one -/

/-- The shapes of a definition; none if it fails to have any. -/
def shapesOf (context : Context) (d : Definition) : Shapes :=
  match ofDefinition context d with
  | .ok own => own
  | .error _ => {}

/-- A definition does not fail to have shapes. -/
def HasShapes (context : Context) (d : Definition) : Prop :=
  ofDefinition context d = .ok (shapesOf context d)

variable {context : Context} {d : Definition}

theorem hasShapes_of_eq_ok {own : Shapes} (h : ofDefinition context d = .ok own) :
    HasShapes context d ∧ shapesOf context d = own := by
  have same : shapesOf context d = own := by rw [shapesOf, h]
  exact ⟨by rw [HasShapes, same, h], same⟩

theorem HasShapes.map_name (h : HasShapes context d) :
    (shapesOf context d).aliases.map Alias.name = d.shapeNames :=
  (aliases_of_ofDefinition h).1

/-- The shapes of some definitions, all together. -/
def shapesOfAll (context : Context) (ds : List Definition) : Shapes :=
  ⟨ds.flatMap fun d => (shapesOf context d).aliases,
    appendReferences {} (ds.map (shapesOf context))⟩

theorem mem_appendReferences_iff {references : References} {owns : List Shapes} {name : String} :
    (name ∈ (appendReferences references owns).enums ↔
      name ∈ references.enums ∨ ∃ own ∈ owns, name ∈ own.references.enums) ∧
    (name ∈ (appendReferences references owns).inputs ↔
      name ∈ references.inputs ∨ ∃ own ∈ owns, name ∈ own.references.inputs) := by
  induction owns generalizing references with
  | nil => simp [appendReferences]
  | cons own rest ih =>
    have next : appendReferences references (own :: rest) =
        appendReferences (references.append own.references) rest := rfl
    simp only [next, ih, References.append, List.mem_append, List.mem_cons, exists_eq_or_imp,
      or_assoc, and_self]

/-- **What some definitions refer to** is what one of them refers to. -/
theorem mem_references_shapesOfAll_iff {ds : List Definition} {name : String} :
    (name ∈ (shapesOfAll context ds).references.enums ↔
      ∃ d ∈ ds, name ∈ (shapesOf context d).references.enums) ∧
    (name ∈ (shapesOfAll context ds).references.inputs ↔
      ∃ d ∈ ds, name ∈ (shapesOf context d).references.inputs) := by
  have none : name ∉ ([] : List String) := List.not_mem_nil
  simp only [shapesOfAll, mem_appendReferences_iff, List.mem_map, exists_exists_and_eq_and, none,
    false_or, and_self]

/-- Definitions refer to no more than others if each of them refers to no more than one of those. -/
theorem isPartOf_shapesOfAll {other : Context} {ds more : List Definition}
    (h : ∀ d ∈ ds, ∃ e ∈ more,
      (shapesOf context d).references.IsPartOf (shapesOf other e).references) :
    (shapesOfAll context ds).references.IsPartOf (shapesOfAll other more).references where
  enums name hn := by
    obtain ⟨d, hd, hn⟩ := mem_references_shapesOfAll_iff.1.1 hn
    obtain ⟨e, he, part⟩ := h d hd
    exact mem_references_shapesOfAll_iff.1.2 ⟨e, he, part.enums hn⟩
  inputs name hn := by
    obtain ⟨d, hd, hn⟩ := mem_references_shapesOfAll_iff.2.1 hn
    obtain ⟨e, he, part⟩ := h d hd
    exact mem_references_shapesOfAll_iff.2.2 ⟨e, he, part.inputs hn⟩

theorem map_name_shapesOfAll {ds : List Definition} (each : ∀ d ∈ ds, HasShapes context d) :
    (shapesOfAll context ds).aliases.map Alias.name = ds.flatMap Definition.shapeNames := by
  rw [shapesOfAll, List.map_flatMap]
  exact List.flatMap_congr fun d hd => (each d hd).map_name

/-- **Definitions that have shapes one by one** have them together, unless a name comes up again;
then the first one that does is the reason. -/
theorem addDefinitions_of_hasShapes {ds : List Definition} (each : ∀ d ∈ ds, HasShapes context d)
    (shapes : Shapes) :
    addDefinitions context shapes ds =
      match firstRepeated (shapes.aliases.map Alias.name) (ds.flatMap Definition.shapeNames) with
      | some name => .error (.duplicateShape name)
      | none => .ok ⟨shapes.aliases ++ (shapesOfAll context ds).aliases,
          appendReferences shapes.references (ds.map (shapesOf context))⟩ := by
  induction ds generalizing shapes with
  | nil => simp [addDefinitions, firstRepeated, shapesOfAll, appendReferences]
  | cons d rest ih =>
    have own := each d (List.mem_cons_self ..)
    have others := fun e he => each e (List.mem_cons_of_mem _ he)
    -- the names of the first definition are compared with those so far, then count as such
    rw [addDefinitions, show ofDefinition context d = .ok (shapesOf context d) from own,
      List.flatMap_cons, firstRepeated_append]
    dsimp only
    rw [Shapes.add, own.map_name]
    cases firstRepeated (shapes.aliases.map Alias.name) d.shapeNames with
    | some name => rfl
    | none =>
      dsimp only
      rw [ih others, Option.none_or, List.map_append, own.map_name]
      simp only [shapesOfAll, List.flatMap_cons, List.append_assoc]
      rfl

/-! ### What definitions refer to -/

/-- Drafts note enumerations only, and only those that leaves are of. -/
theorem isInvariant_enums (schema : Schema) (isLeaf : String → Prop) :
    IsInvariant schema isLeaf fun draft =>
      ∀ name ∈ draft.enums, schema.IsEnum name ∧ isLeaf name where
  empty name hn := by cases hn
  typename _ _ _ h := h
  leaf _ _ _ hleaf h name hn := by
    rcases mem_enums_addEnums_iff.1 hn with hn | hn
    · exact h name hn
    · obtain ⟨rfl, henum⟩ := mem_leafEnums_iff.1 hn
      exact ⟨henum, hleaf⟩
  object _ _ _ hb h name hn := by
    rcases mem_enums_addEnums_iff.1 hn with hn | hn
    · exact h name hn
    · exact hb name hn
  masked name h := by rwa [(addFragment_eq _ name).2]

theorem isEnum_of_selectionDraft {document : String} {scope : SchemaType}
    {selections : List GraphQL.Selection} {draft : Draft}
    (h : selectionDraft context document scope selections = .ok draft) :
    ∀ name ∈ draft.enums, context.schema.IsEnum name := fun name hn =>
  ((isInvariant_enums context.schema fun _ => True).selectionDraft (fun _ _ _ _ => trivial)
    (fun _ _ => trivial) h name hn).1

/-- Spreads lose no enumerations. -/
def KeepsEnums (spread : SpreadRule) : Prop :=
  ∀ ⦃scope : Option SchemaType⦄ ⦃optional : Bool⦄ ⦃draft next : Draft⦄ ⦃name : String⦄,
    spread scope optional draft name = .ok next → draft.enums ⊆ next.enums

section Enumerations

variable {schema : Schema} {document : String} {spread : SpreadRule} {fragments : List Fragment}

mutual

/-- A selection loses no enumerations, and adds those that its leaves are of. -/
theorem enums_of_addSelection (keeps : KeepsEnums spread) : ∀ (s : GraphQL.Selection)
    {scope : Option SchemaType} {optional : Bool} {draft next : Draft},
    addSelection schema document spread scope optional draft s = .ok next →
      draft.enums ⊆ next.enums ∧
        ∀ name ∈ leafTypes schema scope s, schema.IsEnum name → name ∈ next.enums
  | .field _ fieldName _ _ selections, scope, optional, draft, next, h => by
    rw [addSelection] at h
    by_cases hname : fieldName = "__typename"
    · rw [if_pos hname] at h
      cases h
      cases selections <;> simp [leafTypes, selectedType?, hname, Draft.addMember]
    rw [if_neg hname] at h
    split at h
    · cases h
    next type hf =>
      have htype := selectedType?_of_fieldType hname hf
      cases selections with
      | none =>
        cases h
        rw [leafTypes, htype]
        refine ⟨fun name hn => mem_enums_addEnums_iff.2 (Or.inl hn), fun name hn henum => ?_⟩
        obtain rfl := List.mem_singleton.1 hn
        exact mem_enums_addEnums_iff.2 (Or.inr (mem_leafEnums_iff.2 ⟨rfl, henum⟩))
      | some selections =>
        dsimp only at h
        split at h
        · cases h
        next below hb =>
          cases h
          rw [leafTypes, htype]
          exact ⟨fun name hn => mem_enums_addEnums_iff.2 (Or.inl hn), fun name hn henum =>
            mem_enums_addEnums_iff.2
              (Or.inr ((enums_of_addSelections keeps selections hb).2 name hn henum))⟩
  | .spread fragment _, scope, optional, draft, next, h => by
    rw [addSelection] at h
    rw [leafTypes]
    exact ⟨keeps h, nofun⟩
  | .inlineFragment none _ selections, scope, optional, draft, next, h => by
    rw [addSelection] at h
    rw [leafTypes]
    exact enums_of_addSelections keeps selections h
  | .inlineFragment (some condition) _ selections, scope, optional, draft, next, h => by
    rw [addSelection] at h
    split at h
    · cases h
    next type htype =>
      rw [leafTypes, htype]
      exact enums_of_addSelections keeps selections h

theorem enums_of_addSelections (keeps : KeepsEnums spread) : ∀ (selections : List GraphQL.Selection)
    {scope : Option SchemaType} {optional : Bool} {draft next : Draft},
    addSelections schema document spread scope optional draft selections = .ok next →
      draft.enums ⊆ next.enums ∧
        ∀ name ∈ leafTypesInAll schema scope selections, schema.IsEnum name → name ∈ next.enums
  | [], _, _, _, _, h => by
    cases h
    exact ⟨List.Subset.refl _, nofun⟩
  | s :: rest, scope, optional, draft, next, h => by
    rw [addSelections] at h
    split at h
    · cases h
    next middle hmiddle =>
      have first := enums_of_addSelection keeps s hmiddle
      have others := enums_of_addSelections keeps rest h
      rw [leafTypesInAll]
      refine ⟨List.Subset.trans first.1 others.1, fun name hn henum => ?_⟩
      rcases List.mem_append.1 hn with hn | hn
      · exact others.1 (first.2 name hn henum)
      · exact others.2 name hn henum

end

theorem keepsEnums_openSpread (depth : Nat) :
    KeepsEnums (openSpread schema document fragments depth) := by
  induction depth with
  | zero =>
    intro scope optional draft next name h
    rw [openSpread] at h
    split at h <;> cases h
  | succ depth ih =>
    intro scope optional draft next name h
    rw [openSpread] at h
    split at h
    · cases h
    · exact (enums_of_addSelections ih _ h).1

/-- **Spreads lose no enumerations**, masked or not. -/
theorem keepsEnums_spreadIn (masking : Bool) :
    KeepsEnums (spreadIn schema masking fragments document) := by
  unfold spreadIn
  split
  · intro scope optional draft next name h
    cases h
    rw [(addFragment_eq draft name).2]
    exact List.Subset.refl _
  · exact keepsEnums_openSpread _

end Enumerations

/-- **What a definition refers to** are enumerations and input object types of the schema. -/
theorem isSound_shapesOf (context : Context) (d : Definition) :
    (shapesOf context d).references.IsSound context.schema := by
  cases h : ofDefinition context d with
  | error e =>
    rw [shapesOf, h]
    exact ⟨nofun, nofun⟩
  | ok own =>
    rw [(hasShapes_of_eq_ok h).2]
    cases d with
    | operation o =>
      obtain ⟨_, _, _, draft, -, -, -, hdraft, rfl⟩ := ofOperation_eq_ok_iff.1 h
      refine ⟨fun name hn => ?_, fun name hn => ?_⟩
      · rcases List.mem_append.1 hn with hn | hn
        · exact (mem_allInputReferences_iff.1.1 hn).2
        · exact isEnum_of_selectionDraft hdraft name hn
      · rcases List.mem_append.1 hn with hn | hn
        · exact (mem_allInputReferences_iff.2.1 hn).2
        · cases hn
    | fragment f =>
      obtain ⟨_, draft, -, hdraft, rfl⟩ := ofFragment_eq_ok_iff.1 h
      exact ⟨isEnum_of_selectionDraft hdraft, nofun⟩
    | _ =>
      cases h
      exact ⟨nofun, nofun⟩

theorem isSound_shapesOfAll (context : Context) (ds : List Definition) :
    (shapesOfAll context ds).references.IsSound context.schema := by
  constructor
  · intro name hn
    obtain ⟨d, -, hn⟩ := mem_references_shapesOfAll_iff.1.1 hn
    exact (isSound_shapesOf context d).enums name hn
  · intro name hn
    obtain ⟨d, -, hn⟩ := mem_references_shapesOfAll_iff.2.1 hn
    exact (isSound_shapesOf context d).inputs name hn

/-! ### Batches -/

/-- What all shapes of a batch depend on. -/
def contextOf (schema : Schema) (masking : Bool) (documents : List Document) : Context :=
  ⟨schema, masking, documents.flatMap Document.fragments⟩

variable {schema : Schema} {masking : Bool} {scalars : ScalarTable} {documents : List Document}
  {program : Program}

/-- Of a batch whose definitions have shapes, the first repeated name is all that can go wrong. -/
theorem ofDocuments_of_hasShapes
    (each : ∀ d ∈ documents.flatMap Document.definitions,
      HasShapes (contextOf schema masking documents) d) :
    ofDocuments schema masking documents =
      match firstRepeated [] ((documents.flatMap Document.definitions).flatMap
        Definition.shapeNames) with
      | some name => .error (.duplicateShape name)
      | none => .ok (shapesOfAll (contextOf schema masking documents)
          (documents.flatMap Document.definitions)) :=
  addDefinitions_of_hasShapes each {}

/-- **A batch has shapes** exactly if each of its definitions has, and no name comes up again. -/
theorem ofDocuments_eq_ok_iff {shapes : Shapes} :
    ofDocuments schema masking documents = .ok shapes ↔
      (∀ d ∈ documents.flatMap Document.definitions,
        HasShapes (contextOf schema masking documents) d) ∧
      ((documents.flatMap Document.definitions).flatMap Definition.shapeNames).Nodup ∧
      shapes = shapesOfAll (contextOf schema masking documents)
        (documents.flatMap Document.definitions) := by
  constructor
  · intro h
    have each : ∀ d ∈ documents.flatMap Document.definitions,
        HasShapes (contextOf schema masking documents) d := by
      intro d hd
      obtain ⟨owns, each, -⟩ := exists_of_ofDocuments h
      obtain ⟨own, -, hown⟩ := exists_partner each hd
      exact (hasShapes_of_eq_ok hown).1
    have distinct := nodup_names_of_ofDocuments h
    rw [ofDocuments_of_hasShapes each] at h
    split at h
    · cases h
    · cases h
      refine ⟨each, ?_, rfl⟩
      rw [← map_name_shapesOfAll each]
      exact distinct
  · rintro ⟨each, distinct, rfl⟩
    rw [ofDocuments_of_hasShapes each,
      firstRepeated_eq_none_iff.2 ⟨distinct, List.disjoint_nil_right _⟩]

/-- The declarations that every program begins with. -/
def preamble (schema : Schema) (scalars : ScalarTable) : List Alias :=
  [maybeAlias, { name := "Scalars", type := scalarsType schema scalars }]

/-- **A program has three parts.** -/
theorem aliases_programOf_eq (schema : Schema) (scalars : ScalarTable) (shapes : Shapes) :
    (programOf schema scalars shapes).aliases =
      preamble schema scalars ++ (namedTypes schema shapes.references ++ shapes.aliases) :=
  aliases_programOf schema scalars shapes

/-- **A batch has a program** exactly if each of its definitions has shapes, no two shapes share a
name, and the values of all enumerations that are declared can be read. -/
theorem program_eq_ok_iff : Shape.program schema masking scalars documents = .ok program ↔
    (∀ d ∈ documents.flatMap Document.definitions,
      HasShapes (contextOf schema masking documents) d) ∧
    ((documents.flatMap Document.definitions).flatMap Definition.shapeNames).Nodup ∧
    unreadableEnum? schema (shapesOfAll (contextOf schema masking documents)
      (documents.flatMap Document.definitions)).references = none ∧
    program = programOf schema scalars (shapesOfAll (contextOf schema masking documents)
      (documents.flatMap Document.definitions)) := by
  constructor
  · intro h
    obtain ⟨shapes, hshapes, hread, rfl⟩ := exists_of_program h
    obtain ⟨each, distinct, rfl⟩ := ofDocuments_eq_ok_iff.1 hshapes
    exact ⟨each, distinct, hread, rfl⟩
  · rintro ⟨each, distinct, hread, rfl⟩
    rw [Shape.program, ofDocuments_eq_ok_iff.2 ⟨each, distinct, rfl⟩]
    dsimp only
    rw [hread]

/-- **Of a batch whose definitions have shapes**, the first repeated name of a shape is told, and
there is no program. -/
theorem program_eq_duplicateShape_iff
    (each : ∀ d ∈ documents.flatMap Document.definitions,
      HasShapes (contextOf schema masking documents) d) {name : String} :
    Shape.program schema masking scalars documents = .error (.duplicateShape name) ↔
      firstRepeated [] ((documents.flatMap Document.definitions).flatMap
        Definition.shapeNames) = some name := by
  rw [Shape.program, ofDocuments_of_hasShapes each]
  cases firstRepeated [] ((documents.flatMap Document.definitions).flatMap
      Definition.shapeNames) with
  | some first => simp
  | none =>
    dsimp only
    split <;> simp

end Shape

end QueryTypes
