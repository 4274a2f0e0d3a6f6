import QueryTypes.Proofs.Shape.Declarations

/-!
# Batches in another order

The order of the documents of a batch matters for the order of the shapes and for nothing else
(`QueryTypes.Shape.program_perm`). What could make a difference is the table of fragments, in which
the last fragment of a name counts. But a batch with two fragments of one name has no program in any
order, and distinct names are found alike in any order (`QueryTypes.Shape.findFragment?_perm`).
Named types are declared in an order of their own.

As long as fragments stay masked, the table is not looked at: the shapes of a definition are those
that it has alone (`QueryTypes.Shape.shapesOf_masked`).
-/

namespace QueryTypes

open GraphQL (Definition Document Fragment)

namespace Shape

open TypeScript (Alias Program)

variable {schema : Schema} {masking : Bool}

/-! ### Fragments in another order -/

section Fragments

variable {fragments others : List Fragment}

theorem findFragment?_eq_some_iff (distinct : (fragments.map Fragment.name).Nodup) {name : String}
    {f : Fragment} : findFragment? fragments name = some f ↔ f ∈ fragments ∧ f.name = name := by
  constructor
  · exact mem_of_findFragment?
  · rintro ⟨hf, rfl⟩
    obtain ⟨g, hg⟩ := exists_findFragment? ⟨f, hf, rfl⟩
    obtain ⟨mem, name⟩ := mem_of_findFragment? hg
    rw [hg, List.inj_on_of_nodup_map distinct mem hf name]

/-- **Fragments of distinct names are found in any order.** -/
theorem findFragment?_perm (h : fragments.Perm others)
    (distinct : (fragments.map Fragment.name).Nodup) (name : String) :
    findFragment? fragments name = findFragment? others name := by
  refine Option.ext fun f => ?_
  rw [findFragment?_eq_some_iff distinct,
    findFragment?_eq_some_iff ((h.map Fragment.name).nodup_iff.1 distinct), h.mem_iff]

/-- Opened spreads depend on what is found for each name. The induction is on how many spreads may
be opened on the way. -/
theorem openSpread_congr (same : ∀ name, findFragment? fragments name = findFragment? others name)
    (document : String) (depth : Nat) :
    openSpread schema document fragments depth = openSpread schema document others depth := by
  induction depth with
  | zero =>
    funext _ _ _ name
    rw [openSpread, openSpread, same]
  | succ depth ih =>
    funext _ _ _ name
    rw [openSpread, openSpread, same, ih]

theorem spreadIn_perm (h : fragments.Perm others)
    (distinct : (fragments.map Fragment.name).Nodup) (document : String) :
    spreadIn schema masking fragments document = spreadIn schema masking others document := by
  rw [spreadIn, spreadIn, h.length_eq, openSpread_congr (findFragment?_perm h distinct)]

/-- Definitions depend on fragments by what their spreads add. -/
theorem ofDefinition_congr (same : ∀ document, spreadIn schema masking fragments document =
      spreadIn schema masking others document) :
    ofDefinition ⟨schema, masking, fragments⟩ = ofDefinition ⟨schema, masking, others⟩ := by
  have drafts : selectionDraft ⟨schema, masking, fragments⟩ =
      selectionDraft ⟨schema, masking, others⟩ := by
    funext document scope selections
    rw [selectionDraft, selectionDraft, same]
  funext d
  cases d <;> simp only [ofDefinition, ofOperation, ofFragment, drafts]

theorem shapesOf_congr {context other : Context}
    (same : ofDefinition context = ofDefinition other) : shapesOf context = shapesOf other := by
  funext d
  rw [shapesOf, shapesOf, same]

/-- **Masked, the shapes of a definition are those that it has alone.** -/
theorem shapesOf_masked (schema : Schema) (fragments : List Fragment) :
    shapesOf ⟨schema, true, fragments⟩ = shapesOf ⟨schema, true, []⟩ :=
  shapesOf_congr (ofDefinition_congr fun _ => rfl)

/-- Shapes of distinct names have fragments of distinct names. -/
theorem nodup_map_name_fragments {documents : List Document} (h : (shapeNames documents).Nodup) :
    ((documents.flatMap Document.fragments).map Fragment.name).Nodup := by
  have sub : ∀ ds : List Definition,
      (((ds.filterMap Definition.fragment?).map Fragment.name).map Naming.fragmentShape).Sublist
        (ds.flatMap Definition.shapeNames) := by
    intro ds
    induction ds with
    | nil => exact List.Sublist.refl _
    | cons d rest ih =>
      rw [List.flatMap_cons]
      cases d with
      | fragment f => exact ih.cons_cons _
      | _ => exact ih.trans (List.sublist_append_right _ _)
  have all : documents.flatMap Document.fragments =
      (documents.flatMap Document.definitions).filterMap Definition.fragment? :=
    (List.filterMap_flatMap ..).symm
  rw [all]
  exact List.Nodup.of_map _ (h.sublist (sub _))

end Fragments

/-! ### Documents in another order -/

/-- The shapes of a document. -/
def groupOf (context : Context) (document : Document) : List Alias :=
  document.definitions.flatMap fun d => (shapesOf context d).aliases

theorem aliases_shapesOfAll (context : Context) (documents : List Document) :
    (shapesOfAll context (documents.flatMap Document.definitions)).aliases =
      documents.flatMap (groupOf context) :=
  List.flatMap_assoc

variable {scalars : ScalarTable} {documents others : List Document} {program : Program}

/-- Definitions have the same shapes in another order of the documents. -/
theorem ofDefinition_perm (h : documents.Perm others) (distinct : (shapeNames documents).Nodup) :
    ofDefinition (contextOf schema masking others) =
      ofDefinition (contextOf schema masking documents) :=
  ofDefinition_congr fun document =>
    (spreadIn_perm (h.flatMap_right _) (nodup_map_name_fragments distinct) document).symm

/-- Documents refer to the same in any order. -/
theorem isPartOf_of_perm (context : Context) (h : documents.Perm others) :
    (shapesOfAll context (documents.flatMap Document.definitions)).references.IsPartOf
      (shapesOfAll context (others.flatMap Document.definitions)).references :=
  isPartOf_shapesOfAll fun d hd =>
    ⟨d, (h.flatMap_right Document.definitions).subset hd, References.IsPartOf.refl _⟩

/-- Named types are declared alike in any order of the documents. -/
theorem namedTypes_perm (h : documents.Perm others) :
    namedTypes schema (shapesOfAll (contextOf schema masking documents)
        (others.flatMap Document.definitions)).references =
      namedTypes schema (shapesOfAll (contextOf schema masking documents)
        (documents.flatMap Document.definitions)).references :=
  namedTypes_congr (isSound_shapesOfAll (contextOf schema masking documents) _)
    (isPartOf_of_perm _ h.symm) (isPartOf_of_perm _ h)

/-- **A batch that has a program has one in any order**, with the same named types and with the
shapes of each document. -/
theorem exists_program_of_perm (h : documents.Perm others)
    (hp : Shape.program schema masking scalars documents = .ok program) :
    ∃ permuted named, Shape.program schema masking scalars others = .ok permuted ∧
      program.aliases = preamble schema scalars ++ (named ++
        documents.flatMap (groupOf (contextOf schema masking documents))) ∧
      permuted.aliases = preamble schema scalars ++ (named ++
        others.flatMap (groupOf (contextOf schema masking documents))) := by
  obtain ⟨each, distinct, readable, rfl⟩ := program_eq_ok_iff.1 hp
  have same : ofDefinition (contextOf schema masking others) =
      ofDefinition (contextOf schema masking documents) := ofDefinition_perm h distinct
  have shapes := shapesOf_congr same
  have all : ∀ ds, shapesOfAll (contextOf schema masking others) ds =
      shapesOfAll (contextOf schema masking documents) ds := by
    intro ds
    rw [shapesOfAll, shapesOfAll, shapes]
  have definitions : (documents.flatMap Document.definitions).Perm
      (others.flatMap Document.definitions) := h.flatMap_right _
  -- everything is said by the fragments in the first order; only the definitions are permuted
  refine ⟨programOf schema scalars (shapesOfAll (contextOf schema masking documents)
      (others.flatMap Document.definitions)),
    namedTypes schema (shapesOfAll (contextOf schema masking documents)
      (documents.flatMap Document.definitions)).references,
    program_eq_ok_iff.2 ⟨fun d hd => ?_, ?_, ?_, ?_⟩, ?_, ?_⟩
  · have own := each d (definitions.mem_iff.2 hd)
    rwa [HasShapes, shapes, same]
  · exact (definitions.flatMap_right _).nodup_iff.1 distinct
  · rw [all]
    exact unreadableEnum?_eq_none_of_isPartOf (isPartOf_of_perm _ h.symm) readable
  · rw [all]
  · rw [aliases_programOf_eq, aliases_shapesOfAll]
  · rw [aliases_programOf_eq, aliases_shapesOfAll, namedTypes_perm h]

/-- **The order of a batch.** In another order of its documents, a batch has a program exactly if it
has one in the first order. The programs then begin alike and declare the same named types in the
same order, and the shapes of each document, which are those of its definitions, stand where the
document does. If fragments stay masked, the shapes of a definition are those that it has alone:
they depend on the schema and the definition only. -/
theorem program_perm (schema : Schema) (scalars : ScalarTable) :
    (∀ masking (documents others : List Document), documents.Perm others →
      (∃ failure other, Shape.program schema masking scalars documents = .error failure ∧
        Shape.program schema masking scalars others = .error other) ∨
      ∃ program permuted named group,
        Shape.program schema masking scalars documents = .ok program ∧
        Shape.program schema masking scalars others = .ok permuted ∧
        program.aliases = preamble schema scalars ++ (named ++ documents.flatMap group) ∧
        permuted.aliases = preamble schema scalars ++ (named ++ others.flatMap group) ∧
        ∀ document ∈ documents, (group document).map Alias.name =
          document.definitions.flatMap Definition.shapeNames) ∧
    ∀ (documents : List Document) (program : Program),
      Shape.program schema true scalars documents = .ok program →
        ∃ named, program.aliases = preamble schema scalars ++ (named ++
            (documents.flatMap Document.definitions).flatMap fun d =>
              (shapesOf ⟨schema, true, []⟩ d).aliases) ∧
          ∀ d ∈ documents.flatMap Document.definitions,
            (shapesOf ⟨schema, true, []⟩ d).aliases.map Alias.name = d.shapeNames := by
  refine ⟨fun masking documents others h => ?_, fun documents program hp => ?_⟩
  · cases hp : Shape.program schema masking scalars documents with
    | ok program =>
      obtain ⟨permuted, named, hpermuted, aliases, others⟩ := exists_program_of_perm h hp
      obtain ⟨each, -, -, -⟩ := program_eq_ok_iff.1 hp
      refine Or.inr ⟨program, permuted, named, _, rfl, hpermuted, aliases, others, ?_⟩
      intro document hdocument
      rw [groupOf, List.map_flatMap]
      exact List.flatMap_congr fun d hd =>
        (each d (List.mem_flatMap.2 ⟨document, hdocument, hd⟩)).map_name
    | error failure =>
      cases hother : Shape.program schema masking scalars others with
      | error other => exact Or.inl ⟨failure, other, rfl, rfl⟩
      | ok permuted =>
        -- then there would be a program in the first order as well
        obtain ⟨program, -, again, -, -⟩ := exists_program_of_perm h.symm hother
        cases hp.symm.trans again
  · obtain ⟨each, -, -, rfl⟩ := program_eq_ok_iff.1 hp
    have alone : shapesOf (contextOf schema true documents) = shapesOf ⟨schema, true, []⟩ :=
      shapesOf_masked schema _
    refine ⟨_, aliases_programOf_eq .., fun d hd => ?_⟩
    rw [← alone]
    exact (each d hd).map_name

/-- The paints have the same program when the fragment comes before the query that spreads it, but
for the place of its shape; and masked, each definition has the shapes that it has alone. -/
theorem program_perm_paint :
    (∃ program permuted,
      Shape.program paintSchema false ScalarTable.builtIn paintDocuments = .ok program ∧
      Shape.program paintSchema false ScalarTable.builtIn paintDocuments.reverse = .ok permuted ∧
      program.aliases.Perm permuted.aliases ∧
      program.aliasNames =
        ["Maybe", "Scalars", "Color", "Mix", "QQueryVariables", "QQuery", "PFragment"] ∧
      permuted.aliasNames =
        ["Maybe", "Scalars", "Color", "Mix", "PFragment", "QQueryVariables", "QQuery"]) ∧
    ∃ program, Shape.program paintSchema true ScalarTable.builtIn paintDocuments = .ok program ∧
      ∀ d ∈ paintDocuments.flatMap Document.definitions,
        (shapesOf ⟨paintSchema, true, []⟩ d).aliases ⊆ program.aliases := by
  obtain ⟨order, masked⟩ := program_perm paintSchema ScalarTable.builtIn
  constructor
  · obtain ⟨program, h⟩ : ∃ program,
        Shape.program paintSchema false ScalarTable.builtIn paintDocuments = .ok program := ⟨_, rfl⟩
    obtain ⟨failure, -, fails, -⟩ | ⟨_, permuted, named, group, hp, hpermuted, first, second, -⟩ :=
      order false paintDocuments paintDocuments.reverse (List.reverse_perm _).symm
    · cases h.symm.trans fails
    · obtain rfl := Except.ok.inj (h.symm.trans hp)
      refine ⟨program, permuted, h, hpermuted, ?_, ?_, ?_⟩
      · rw [first, second]
        exact (((List.reverse_perm _).symm.flatMap_right group).append_left named).append_left _
      · cases h
        rfl
      · cases hpermuted
        rfl
  · obtain ⟨program, h⟩ : ∃ program,
        Shape.program paintSchema true ScalarTable.builtIn paintDocuments = .ok program := ⟨_, rfl⟩
    obtain ⟨named, aliases, -⟩ := masked paintDocuments program h
    refine ⟨program, h, fun d hd a ha => ?_⟩
    rw [aliases, List.mem_append, List.mem_append]
    exact Or.inr (Or.inr (List.mem_flatMap.2 ⟨d, hd, ha⟩))

end Shape

end QueryTypes
