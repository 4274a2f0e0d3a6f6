import QueryTypes.Proofs.GraphQL.Scrubbing
import QueryTypes.Proofs.Shape.Declarations

/-!
# Shapes of scrubbed documents

Shapes do not depend on directives: the selections of a document add the same members before and
after the internal directives are taken off (`QueryTypes.Shape.selectionDraft_withoutDirectives`).
Scrubbing also drops declarations of variables. These have members in one shape each, and they may
be why an input object type or an enumeration is declared.

So the shapes of scrubbed documents are those of the documents as written, one by one, with some
members of variables left out (`QueryTypes.Shape.LeftOf`), and the named types are some of those
that were declared before (`QueryTypes.Shape.program_scrub`).
-/

namespace QueryTypes

open GraphQL (Definition Document Fragment Operation Selection VariableDefinition)

namespace GraphQL

variable {isInternal : String → Bool}

/-- A fragment without internal directives. -/
def Fragment.withoutDirectives (isInternal : String → Bool) (f : Fragment) : Fragment :=
  { f with
    directives := Directive.keepExternal isInternal f.directives
    selections := Selection.withoutDirectivesInAll isInternal f.selections }

/-- Scrubbing leaves as many fragments as there were. -/
theorem Document.fragments_scrub (isInternal : String → Bool) (document : Document) :
    (document.scrub isInternal).fragments =
      document.fragments.map (Fragment.withoutDirectives isInternal) := by
  rw [fragments, fragments, definitions_scrub, List.filterMap_map, List.map_filterMap]
  refine List.filterMap_congr fun d _ => ?_
  cases d <;> rfl

theorem Document.flatMap_fragments_scrub (isInternal : String → Bool) (documents : List Document) :
    (documents.map (scrub isInternal)).flatMap fragments =
      (documents.flatMap fragments).map (Fragment.withoutDirectives isInternal) := by
  rw [List.flatMap_map, List.map_flatMap]
  exact List.flatMap_congr fun document _ => fragments_scrub isInternal document

/-- The variables that are used in a scrubbed document are those that scrubbing went by. -/
theorem Document.usedVariables_scrub (isInternal : String → Bool) {document : Document}
    (h : document.IsParsed) :
    (document.scrub isInternal).usedVariables =
      (document.withoutDirectives isInternal).usedVariables :=
  usedVariables_keepVariables isInternal _ h

end GraphQL

namespace Shape

open TypeScript (Alias Member Program TypeExpr)

variable {schema : Schema} {isInternal : String → Bool}

/-! ### Selections -/

section Selections

variable {document : String} {spread : SpreadRule}

mutual

theorem addSelection_withoutDirectives : ∀ (s : Selection) (scope : Option SchemaType)
    (optional : Bool) (draft : Draft),
    addSelection schema document spread scope optional draft (s.withoutDirectives isInternal) =
      addSelection schema document spread scope optional draft s
  | .field _ _ _ _ none, _, _, _ => by
    rw [Selection.withoutDirectives, addSelection, addSelection]
  | .field _ name _ _ (some selections), scope, optional, draft => by
    rw [Selection.withoutDirectives, addSelection, addSelection]
    cases fieldType document scope name with
    | error e => rfl
    | ok type =>
      dsimp only
      rw [addSelections_withoutDirectives selections]
  | .spread _ _, _, _, _ => by
    rw [Selection.withoutDirectives, addSelection, addSelection]
  | .inlineFragment none _ selections, scope, optional, draft => by
    rw [Selection.withoutDirectives, addSelection, addSelection]
    exact addSelections_withoutDirectives selections scope optional draft
  | .inlineFragment (some condition) _ selections, scope, optional, draft => by
    rw [Selection.withoutDirectives, addSelection, addSelection]
    cases schema.find? condition with
    | none => rfl
    | some type => exact addSelections_withoutDirectives selections _ _ draft

/-- **Directives add nothing.** -/
theorem addSelections_withoutDirectives : ∀ (selections : List Selection)
    (scope : Option SchemaType) (optional : Bool) (draft : Draft),
    addSelections schema document spread scope optional draft
        (Selection.withoutDirectivesInAll isInternal selections) =
      addSelections schema document spread scope optional draft selections
  | [], _, _, _ => by rw [Selection.withoutDirectivesInAll]
  | s :: rest, scope, optional, draft => by
    rw [Selection.withoutDirectivesInAll, addSelections, addSelections,
      addSelection_withoutDirectives s scope optional draft]
    cases addSelection schema document spread scope optional draft s with
    | error e => rfl
    | ok next => exact addSelections_withoutDirectives rest scope optional next

end

end Selections

/-- Fragments keep their names and their order, so they are found in the same places. -/
theorem findFragment?_withoutDirectives (fragments : List Fragment) (name : String) :
    findFragment? (fragments.map (Fragment.withoutDirectives isInternal)) name =
      (findFragment? fragments name).map (Fragment.withoutDirectives isInternal) := by
  rw [findFragment?, ← List.map_reverse, List.find?_map, findFragment?]
  rfl

/-- Opened spreads add the same. The induction is on how many spreads may be opened on the way. -/
theorem openSpread_withoutDirectives (document : String) (fragments : List Fragment)
    (depth : Nat) :
    openSpread schema document (fragments.map (Fragment.withoutDirectives isInternal)) depth =
      openSpread schema document fragments depth := by
  induction depth with
  | zero =>
    funext _ _ _ name
    rw [openSpread, openSpread, findFragment?_withoutDirectives]
    cases findFragment? fragments name <;> rfl
  | succ depth ih =>
    funext scope optional draft name
    rw [openSpread, openSpread, findFragment?_withoutDirectives, ih]
    cases findFragment? fragments name with
    | none => rfl
    | some fragment => exact addSelections_withoutDirectives fragment.selections _ _ draft

/-- **Selections have the same draft without internal directives**, also below spreads. -/
theorem selectionDraft_withoutDirectives (masking : Bool) (fragments : List Fragment)
    (document : String) (scope : SchemaType) (selections : List Selection) :
    selectionDraft ⟨schema, masking, fragments.map (Fragment.withoutDirectives isInternal)⟩ document
        scope (Selection.withoutDirectivesInAll isInternal selections) =
      selectionDraft ⟨schema, masking, fragments⟩ document scope selections := by
  rw [selectionDraft, addSelections_withoutDirectives, selectionDraft]
  dsimp only
  rw [spreadIn, spreadIn, openSpread_withoutDirectives, List.length_map]

/-! ### Variables -/

/-- An object type with only the members of some keys; without any, the type for no variables. -/
def onlyKeys (kept : List String) : TypeExpr → TypeExpr
  | .object members => match members.filter fun m => decide (m.key ∈ kept) with
    | [] => noVariables
    | left => .object left
  | type => type

/-- **The variables that are left have their members**, unchanged and in order. -/
theorem inputsType_keepVariables (isInternal : String → Bool) (used : List String)
    (vs : List VariableDefinition) :
    inputsType schema ((vs.map (VariableDefinition.withoutDirectives isInternal)).filter
        fun v => decide (v.name ∈ used)) =
      onlyKeys used (inputsType schema vs) := by
  cases vs with
  | nil => rfl
  | cons first rest =>
    have members : ((first :: rest).map fun v => inputMember schema v.name v.type).filter
          (fun m => decide (m.key ∈ used)) =
        (((first :: rest).map (VariableDefinition.withoutDirectives isInternal)).filter
          fun v => decide (v.name ∈ used)).map fun v => inputMember schema v.name v.type := by
      rw [List.filter_map, List.filter_map, List.map_map]
      rfl
    have all : inputsType schema (first :: rest) =
        .object ((first :: rest).map fun v => inputMember schema v.name v.type) := rfl
    rw [all, onlyKeys, members]
    cases ((first :: rest).map (VariableDefinition.withoutDirectives isInternal)).filter
      fun v => decide (v.name ∈ used) <;> rfl

/-! ### Definitions -/

/-- What scrubbing leaves of the shapes of some documents: of the shape of an operation's variables
the members of those that are still used in the scrubbed document, and all of any other shape. -/
inductive LeftOf (isInternal : String → Bool) (documents : List Document) : Alias → Alias → Prop
  /-- The shape of the variables of an operation. -/
  | variablesShape {document : Document} {o : Operation} {name : String} {type : TypeExpr}
    (member : document ∈ documents) (operation : .operation o ∈ document.definitions)
    (named : o.name = some name) :
    LeftOf isInternal documents { name := Naming.variablesShape name o.kind, type := type }
      { name := Naming.variablesShape name o.kind
        type := onlyKeys (document.scrub isInternal).usedVariables type }
  /-- The shape of the result of an operation. -/
  | shape {document : Document} {o : Operation} {name : String} {type : TypeExpr}
    (member : document ∈ documents) (operation : .operation o ∈ document.definitions)
    (named : o.name = some name) :
    LeftOf isInternal documents { name := Naming.shape name o.kind, type := type }
      { name := Naming.shape name o.kind, type := type }
  /-- The shape of a fragment. -/
  | fragmentShape {document : Document} {f : Fragment} {type : TypeExpr}
    (member : document ∈ documents) (fragment : .fragment f ∈ document.definitions) :
    LeftOf isInternal documents { name := Naming.fragmentShape f.name, type := type }
      { name := Naming.fragmentShape f.name, type := type }

/-- What scrubbing leaves of shapes, and of what they refer to. -/
structure Shapes.IsLeftOf (isInternal : String → Bool) (documents : List Document)
    (whole left : Shapes) : Prop where
  /-- What is left refers to no more than the whole. -/
  references : left.references.IsPartOf whole.references
  /-- Every shape is left, if not with all members. -/
  aliases : List.Forall₂ (LeftOf isInternal documents) whole.aliases left.aliases

section Definitions

variable {masking : Bool} {documents : List Document} {document : Document}

theorem selectionDraft_scrub (isInternal : String → Bool) (documents : List Document)
    (document : String) (scope : SchemaType) (selections : List Selection) :
    selectionDraft (contextOf schema masking (documents.map (Document.scrub isInternal))) document
        scope (Selection.withoutDirectivesInAll isInternal selections) =
      selectionDraft (contextOf schema masking documents) document scope selections := by
  rw [contextOf, Document.flatMap_fragments_scrub]
  exact selectionDraft_withoutDirectives ..

/-- Fewer variables are of fewer types. -/
theorem isPartOf_keepVariables (isInternal : String → Bool) (used : List String)
    (vs : List VariableDefinition) :
    (allInputReferences schema (((vs.map (VariableDefinition.withoutDirectives isInternal)).filter
        fun v => decide (v.name ∈ used)).map fun v => v.type.baseName)).IsPartOf
      (allInputReferences schema (vs.map fun v => v.type.baseName)) := by
  refine isPartOf_allInputReferences fun name hn => ?_
  obtain ⟨v, hv, rfl⟩ := List.mem_map.1 hn
  obtain ⟨w, hw, rfl⟩ := List.mem_map.1 (List.mem_of_mem_filter hv)
  exact List.mem_map.2 ⟨w, hw, rfl⟩

/-- **A definition that has shapes has them scrubbed**, and refers to no more than before. -/
theorem hasShapes_scrubbed (parsed : document.IsParsed) (member : document ∈ documents)
    {d : Definition} (hd : d ∈ document.definitions)
    (h : HasShapes (contextOf schema masking documents) d) :
    HasShapes (contextOf schema masking (documents.map (Document.scrub isInternal)))
        (d.scrubbed isInternal (document.withoutDirectives isInternal).usedVariables) ∧
      Shapes.IsLeftOf isInternal documents (shapesOf (contextOf schema masking documents) d)
        (shapesOf (contextOf schema masking (documents.map (Document.scrub isInternal)))
          (d.scrubbed isInternal (document.withoutDirectives isInternal).usedVariables)) := by
  rw [← Document.usedVariables_scrub isInternal parsed]
  cases d with
  | operation o =>
    obtain ⟨name, root, inputs, draft, hname, hroot, hinputs, hdraft, hown⟩ :=
      ofOperation_eq_ok_iff.1 h
    obtain ⟨known, rfl⟩ := variablesType_eq_ok_iff.1 hinputs
    -- the types of the variables that are left were in the schema before
    have fewer : ∀ v ∈ (o.variableDefinitions.map
        (VariableDefinition.withoutDirectives isInternal)).filter
          (fun v => decide (v.name ∈ (document.scrub isInternal).usedVariables)),
        (schema.find? v.type.baseName).isSome := by
      intro v hv
      obtain ⟨w, hw, rfl⟩ := List.mem_map.1 (List.mem_of_mem_filter hv)
      exact known w hw
    have new : ofDefinition (contextOf schema masking (documents.map (Document.scrub isInternal)))
        ((Definition.operation o).scrubbed isInternal
          (document.scrub isInternal).usedVariables) = .ok _ :=
      ofOperation_eq_ok_iff.2 ⟨name, root, _, draft, hname, hroot,
        variablesType_eq_ok_iff.2 ⟨fewer, rfl⟩,
        (selectionDraft_scrub isInternal documents name root o.selections).trans hdraft, rfl⟩
    obtain ⟨has, own⟩ := hasShapes_of_eq_ok new
    rw [own, hown, inputsType_keepVariables]
    exact ⟨has, (isPartOf_keepVariables ..).append _,
      .cons (.variablesShape member hd hname) (.cons (.shape member hd hname) .nil)⟩
  | fragment f =>
    obtain ⟨scope, draft, hscope, hdraft, hown⟩ := ofFragment_eq_ok_iff.1 h
    have new : ofDefinition (contextOf schema masking (documents.map (Document.scrub isInternal)))
        ((Definition.fragment f).scrubbed isInternal
          (document.scrub isInternal).usedVariables) = .ok _ :=
      ofFragment_eq_ok_iff.2 ⟨scope, draft, hscope,
        (selectionDraft_scrub isInternal documents f.name scope f.selections).trans hdraft, rfl⟩
    obtain ⟨has, own⟩ := hasShapes_of_eq_ok new
    rw [own, hown]
    exact ⟨has, ⟨List.Subset.refl _, List.Subset.refl _⟩,
      .cons (.fragmentShape member hd) .nil⟩
  | _ => exact ⟨rfl, ⟨fun _ hn => hn, fun _ hn => hn⟩, .nil⟩

end Definitions

/-! ### Batches -/

section Batches

variable {masking : Bool} {scalars : ScalarTable} {documents : List Document} {program : Program}

/-- The definitions of scrubbed documents. -/
theorem mem_flatMap_definitions_scrub_iff {left : Definition} :
    left ∈ (documents.map (Document.scrub isInternal)).flatMap Document.definitions ↔
      ∃ document ∈ documents, ∃ d ∈ document.definitions,
        left = d.scrubbed isInternal (document.withoutDirectives isInternal).usedVariables := by
  rw [List.flatMap_map, List.mem_flatMap]
  simp only [Document.definitions_scrub, List.mem_map, eq_comm]

/-- Scrubbing keeps the names of shapes. -/
theorem shapeNames_scrub (isInternal : String → Bool) (documents : List Document) :
    shapeNames (documents.map (Document.scrub isInternal)) = shapeNames documents := by
  rw [shapeNames, shapeNames, List.flatMap_map, List.flatMap_assoc, List.flatMap_assoc]
  refine List.flatMap_congr fun document _ => ?_
  rw [Document.definitions_scrub, List.flatMap_map]
  exact List.flatMap_congr fun d _ => Definition.shapeNames_scrubbed d

/-- Lists that are made of the same parts in two ways are related if this is so part by part. -/
theorem forall₂_flatMap {α β γ : Type} {R : β → γ → Prop} {f : α → List β} {g : α → List γ}
    {xs : List α} (h : ∀ x ∈ xs, List.Forall₂ R (f x) (g x)) :
    List.Forall₂ R (xs.flatMap f) (xs.flatMap g) := by
  induction xs with
  | nil => exact .nil
  | cons x rest ih =>
    rw [List.flatMap_cons, List.flatMap_cons]
    exact List.rel_append (h x (List.mem_cons_self ..))
      (ih fun y hy => h y (List.mem_cons_of_mem _ hy))

/-- **What scrubbing leaves of a batch.** -/
theorem isLeftOf_shapesOfAll (isInternal : String → Bool)
    (parsed : ∀ document ∈ documents, document.IsParsed)
    (each : ∀ d ∈ documents.flatMap Document.definitions,
      HasShapes (contextOf schema masking documents) d) :
    Shapes.IsLeftOf isInternal documents
      (shapesOfAll (contextOf schema masking documents) (documents.flatMap Document.definitions))
      (shapesOfAll (contextOf schema masking (documents.map (Document.scrub isInternal)))
        ((documents.map (Document.scrub isInternal)).flatMap Document.definitions)) := by
  have one : ∀ document ∈ documents, ∀ d ∈ document.definitions,
      Shapes.IsLeftOf isInternal documents (shapesOf (contextOf schema masking documents) d)
        (shapesOf (contextOf schema masking (documents.map (Document.scrub isInternal)))
          (d.scrubbed isInternal (document.withoutDirectives isInternal).usedVariables)) :=
    fun document hdocument d hd => (hasShapes_scrubbed (parsed document hdocument) hdocument hd
      (each d (List.mem_flatMap.2 ⟨document, hdocument, hd⟩))).2
  refine ⟨isPartOf_shapesOfAll fun left hleft => ?_, ?_⟩
  · obtain ⟨document, hdocument, d, hd, rfl⟩ := mem_flatMap_definitions_scrub_iff.1 hleft
    exact ⟨d, List.mem_flatMap.2 ⟨document, hdocument, hd⟩,
      (one document hdocument d hd).references⟩
  · rw [shapesOfAll, shapesOfAll, List.flatMap_map, List.flatMap_assoc, List.flatMap_assoc]
    refine forall₂_flatMap fun document hdocument => ?_
    rw [Document.definitions_scrub, List.flatMap_map]
    exact forall₂_flatMap fun d hd => (one document hdocument d hd).aliases

/-- **Scrubbing leaves the shapes.** If a batch of parsed documents has a program, then the scrubbed
documents have one, with shapes of the same names in the same order. The shapes of results and of
fragments are the same; the shape of the variables of an operation keeps the members of those that
are still used in the scrubbed document, in order and unchanged, and stands for no variables if
there are none. The named types are some of those that the batch had, with the same
declarations. -/
theorem program_scrub (schema : Schema) (isInternal : String → Bool) (masking : Bool)
    (scalars : ScalarTable) {documents : List Document} {program : Program}
    (parsed : ∀ document ∈ documents, ∃ text, Document.parse? text = some document)
    (h : Shape.program schema masking scalars documents = .ok program) :
    ∃ scrubbed named left shapes kept,
      Shape.program schema masking scalars (documents.map (Document.scrub isInternal)) =
        .ok scrubbed ∧
      program.aliases = preamble schema scalars ++ (named ++ shapes) ∧
      scrubbed.aliases = preamble schema scalars ++ (left ++ kept) ∧
      left.Sublist named ∧
      shapes.map Alias.name = shapeNames documents ∧
      kept.map Alias.name = shapeNames documents ∧
      List.Forall₂ (LeftOf isInternal documents) shapes kept := by
  have parsed : ∀ document ∈ documents, document.IsParsed := by
    intro document hdocument
    obtain ⟨text, htext⟩ := parsed document hdocument
    exact Document.isParsed_of_parse? htext
  obtain ⟨each, distinct, readable, rfl⟩ := program_eq_ok_iff.1 h
  have all : ∀ left ∈ (documents.map (Document.scrub isInternal)).flatMap Document.definitions,
      HasShapes (contextOf schema masking (documents.map (Document.scrub isInternal))) left := by
    intro left hleft
    obtain ⟨document, hdocument, d, hd, rfl⟩ := mem_flatMap_definitions_scrub_iff.1 hleft
    exact (hasShapes_scrubbed (parsed document hdocument) hdocument hd
      (each d (List.mem_flatMap.2 ⟨document, hdocument, hd⟩))).1
  have part := isLeftOf_shapesOfAll isInternal parsed each
  -- a name that came up again now would have done so before
  have names := shapeNames_scrub isInternal documents
  refine ⟨_, _, _, _, _, program_eq_ok_iff.2 ⟨all, ?_, ?_, rfl⟩, aliases_programOf_eq ..,
    aliases_programOf_eq .., ?_, map_name_shapesOfAll each, ?_, part.aliases⟩
  · rw [shapeNames, shapeNames] at names
    rw [names]
    exact distinct
  · exact unreadableEnum?_eq_none_of_isPartOf part.references readable
  · exact namedTypes_sublist (isSound_shapesOfAll (contextOf schema masking documents) _)
      part.references
  · exact (map_name_shapesOfAll all).trans names

/-- A query with a variable that only an internal directive uses. -/
def mixQuery : String :=
  "query Q($id: ID, $mix: Mix) \x7b paint(id: $id) @list(mix: $mix) \x7b id \x7d \x7d"

/-- The input object type of that variable is declared for the query as it is written, along with
what it leads to, but not for the scrubbed query. -/
theorem program_scrub_mix : ∃ document program scrubbed,
    Document.parse? mixQuery = some document ∧
      Shape.program paintSchema true ScalarTable.builtIn [document] = .ok program ∧
      Shape.program paintSchema true ScalarTable.builtIn [document.scrub (· == "list")] =
        .ok scrubbed ∧
      program.aliasNames = ["Maybe", "Scalars", "Color", "Mix", "QQueryVariables", "QQuery"] ∧
      scrubbed.aliasNames.Sublist program.aliasNames ∧ "Mix" ∉ scrubbed.aliasNames := by
  have names : (Document.parse? mixQuery).bind (fun document =>
      (Shape.program paintSchema true ScalarTable.builtIn [document]).toOption.map
        Program.aliasNames) =
      some ["Maybe", "Scalars", "Color", "Mix", "QQueryVariables", "QQuery"] := by
    decide +kernel
  have fewer : (Document.parse? mixQuery).all (fun document =>
      (Shape.program paintSchema true ScalarTable.builtIn
        [document.scrub (· == "list")]).toOption.all fun scrubbed =>
          !scrubbed.aliasNames.contains "Mix") = true := by
    decide +kernel
  obtain ⟨document, hdocument, names⟩ := Option.bind_eq_some_iff.1 names
  rw [hdocument, Option.all_some] at fewer
  cases h : Shape.program paintSchema true ScalarTable.builtIn [document] with
  | error e =>
    rw [h] at names
    cases names
  | ok program =>
    rw [h] at names
    obtain ⟨scrubbed, named, left, shapes, kept, hs, whole, part, sub, shapeNames, keptNames, -⟩ :=
      program_scrub paintSchema (· == "list") true ScalarTable.builtIn
        (fun other ho => ⟨mixQuery, (List.mem_singleton.1 ho).symm ▸ hdocument⟩) h
    refine ⟨document, program, scrubbed, hdocument, h, hs, Option.some.inj names, ?_, ?_⟩
    · rw [Program.aliasNames, Program.aliasNames, whole, part, List.map_append, List.map_append,
        List.map_append, List.map_append, shapeNames, keptNames]
      exact ((sub.map _).append_right _).append_left _
    · rw [List.map_singleton] at hs
      rw [hs] at fewer
      simpa [Except.toOption] using fewer

end Batches

end Shape

end QueryTypes
