import QueryTypes.Proofs.Shape.Success

/-!
# Failures while fragments are not masked

While fragments are not masked, a spread takes the type of its fragment as it finds it, and only the
fragment itself, wherever it comes in the batch, checks that there is such a type. So a field may be
looked up on a type that is not there (`QueryTypes.Shape.exists_unstated_failure`). For batches
without cycles this is the only way in which shapes fail without the generator saying why, and it
does not come up if all fragments are for types of the schema
(`QueryTypes.Shape.program_unmasked_iff`).
-/

namespace QueryTypes

open GraphQL (Acyclic acyclic_of_rank Document Fragment Selection)

namespace Shape

variable {schema : Schema} {masking : Bool} {documents : List Document}

/-- Without cycles, a failure to have shapes is stated exactly if it is none of a field without a
type. -/
theorem isStated_iff_not_meetsNoType (acyclic : Acyclic (documents.flatMap Document.fragments))
    {e : ShapeError} (h : ofDocuments schema false documents = .error e) :
    e.isStated = true ↔ ¬ MeetsNoType schema false documents := by
  constructor
  · intro stated meets
    obtain ⟨name, document, herror⟩ := meets.exists_error
    cases h.symm.trans herror
    cases stated
  · intro right
    rcases isStated_or_of_ofDocuments_eq_error h with stated | meets | ⟨name, document, deep⟩
    · exact stated
    · exact absurd meets right
    · exact absurd deep (depth_not_mem_checksOf (fun _ => acyclic) name document)

/-- A batch that has shapes has a program, or it fails in a way that is stated, exactly if the values
of the enumerations that are declared for it can be read; so it is the former. -/
theorem program_or_isStated_iff_of_ofDocuments {shapes : Shapes} {scalars : ScalarTable}
    (h : ofDocuments schema masking documents = .ok shapes) :
    ((∃ program, Shape.program schema masking scalars documents = .ok program) ∨
        ∃ e, Shape.program schema masking scalars documents = .error e ∧ e.isStated = true) ↔
      ∀ name, DeclaresEnum schema documents name → name ∉ schema.unreadable := by
  obtain ⟨each, -, rfl⟩ := ofDocuments_eq_ok_iff.1 h
  have declared := fun name => @mem_reachableEnums_shapesOfAll_iff _ _ _ name each
  simp only [← declared, ← unreadableEnum?_eq_none_iff]
  rw [Shape.program, h]
  dsimp only
  cases unreadableEnum? schema (shapesOfAll (contextOf schema masking documents)
      (documents.flatMap Document.definitions)).references with
  | none => exact iff_of_true (Or.inl ⟨_, rfl⟩) rfl
  | some name =>
    refine iff_of_false ?_ (Option.some_ne_none name)
    rintro (⟨program, hprogram⟩ | ⟨e, herror, stated⟩)
    · cases hprogram
    · cases herror
      cases stated

/-- **When a batch without cycles fails only in ways that are stated**, with fragments not masked.
It has a program or fails in a way that is stated, unless it meets a field without a type to look it
up in, or it passes all checks and the values of an enumeration that is declared for it cannot be
read. The former does not happen if all fragments are for types of the schema. -/
theorem program_unmasked_iff (schema : Schema) (scalars : ScalarTable) (documents : List Document)
    (acyclic : Acyclic (documents.flatMap Document.fragments)) :
    (((∃ program, Shape.program schema false scalars documents = .ok program) ∨
        ∃ e, Shape.program schema false scalars documents = .error e ∧ e.isStated = true) ↔
      ¬ MeetsNoType schema false documents ∧
        (PassesAll schema false documents →
          ∀ name, DeclaresEnum schema documents name → name ∉ schema.unreadable)) ∧
    ((∀ f ∈ documents.flatMap Document.fragments, (schema.find? f.condition).isSome) →
      ¬ MeetsNoType schema false documents) := by
  constructor
  · cases hshapes : ofDocuments schema false documents with
    | error e =>
      have fails : Shape.program schema false scalars documents = .error e := by
        rw [Shape.program, hshapes]
      have vain : ¬ PassesAll schema false documents := fun passes => by
        obtain ⟨shapes, hok⟩ := passesAll_iff.1 passes
        cases hshapes.symm.trans hok
      rw [fails, ← isStated_iff_not_meetsNoType acyclic hshapes]
      constructor
      · rintro (⟨program, h⟩ | ⟨_, h, stated⟩)
        · cases h
        · cases h
          exact ⟨stated, fun passes => absurd passes vain⟩
      · rintro ⟨stated, -⟩
        exact Or.inr ⟨e, rfl, stated⟩
    | ok shapes =>
      have passes : PassesAll schema false documents := passesAll_iff.2 ⟨shapes, hshapes⟩
      have right : ¬ MeetsNoType schema false documents := fun meets => by
        obtain ⟨name, document, herror⟩ := meets.exists_error
        cases hshapes.symm.trans herror
      rw [program_or_isStated_iff_of_ofDocuments hshapes, and_iff_right right]
      exact ⟨fun readable _ => readable, fun readable => readable passes⟩
  · intro conditions meets
    obtain ⟨name, document, hfield⟩ := meets.exists_mem
    exact field_none_not_mem_checksOf (fun _ => conditions) name document hfield

/-- A query, and a fragment for a type of the schema that it spreads. -/
theorem program_unmasked_iff_paint :
    Acyclic (paintDocuments.flatMap Document.fragments) ∧
      ¬ MeetsNoType paintSchema false paintDocuments ∧
      ∃ program, Shape.program paintSchema false ScalarTable.builtIn paintDocuments =
        .ok program := by
  have acyclic : Acyclic (paintDocuments.flatMap Document.fragments) :=
    acyclic_of_rank (fun _ => 0) (by decide)
  have settled := program_unmasked_iff paintSchema ScalarTable.builtIn paintDocuments acyclic
  exact ⟨acyclic, settled.2 (by decide), _, rfl⟩

/-- **A failure that is not stated.** A query spreads a fragment for a type that the schema lacks,
and since the query comes first, a field is looked up on a type that is not there. With the fragment
first, the type is missed. -/
theorem exists_unstated_failure :
    ∃ types schema query turned,
      Document.parse? "type Query \x7b a: String \x7d" = some types ∧
      Schema.ofDocument types = .ok schema ∧
      Document.parse? "query Q \x7b ...F \x7d fragment F on Nope \x7b a \x7d" = some query ∧
      turned = ⟨query.definitions.reverse⟩ ∧
      Acyclic ([query].flatMap Document.fragments) ∧
      Shape.program schema false ScalarTable.builtIn [query] =
        .error (.fieldOfUnknownType "a" "Q") ∧
      (ShapeError.fieldOfUnknownType "a" "Q").isStated = false ∧
      Shape.program schema false ScalarTable.builtIn [turned] =
        .error (.unknownType "Nope" "F") := by
  have all : (batchOf? "type Query \x7b a: String \x7d"
      "query Q \x7b ...F \x7d fragment F on Nope \x7b a \x7d").any (fun (schema, query) =>
        ([query].flatMap Document.fragments).all
            (fun f => decide (Selection.spreadsInAll f.selections = [])) &&
          decide (failureOf (Shape.program schema false ScalarTable.builtIn [query]) =
            some (.fieldOfUnknownType "a" "Q")) &&
          decide (failureOf (Shape.program schema false ScalarTable.builtIn
            [⟨query.definitions.reverse⟩]) = some (.unknownType "Nope" "F"))) = true := by
    decide +kernel
  obtain ⟨types, schema, query, htypes, hschema, hquery, seen⟩ := exists_of_any_batchOf? all
  simp only [Bool.and_eq_true, decide_eq_true_eq, List.all_eq_true] at seen
  obtain ⟨⟨plain, fails⟩, other⟩ := seen
  have acyclic : Acyclic ([query].flatMap Document.fragments) := by
    refine acyclic_of_rank (fun _ => 0) fun f hf g _ spreads => ?_
    rw [plain f hf] at spreads
    cases spreads
  exact ⟨types, schema, query, _, htypes, hschema, hquery, rfl, acyclic,
    failureOf_eq_some_iff.1 fails, rfl, failureOf_eq_some_iff.1 other⟩

end Shape

end QueryTypes
