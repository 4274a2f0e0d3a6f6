import QueryTypes.Proofs.Shape.Program

/-!
# How batches fail

The checks of a batch are those of its definitions, each followed by a check of the names of its
shapes (`QueryTypes.Shape.checksOf`). A batch fails by the first check that is in vain, and it has
shapes if there is none (`QueryTypes.Shape.failureOf_ofDocuments`).

Most checks fail in a way that is stated. The others are those of fields on a type that is not there
and those of the depth of spreads, and both come up only where spreads are opened
(`QueryTypes.Shape.isStated_or_of_ofDocuments_eq_error`).
-/

namespace QueryTypes

open GraphQL (Acyclic Definition Document Fragment)

/-- Whether a failure is stated by the generator of shapes, or else comes up where it looks
something up. -/
def ShapeError.isStated : ShapeError → Bool
  | fieldOfUnknownType _ _ | fragmentCycle _ _ | unreadableEnum _ => false
  | _ => true

namespace Shape

variable {schema : Schema} {masking : Bool} {documents : List Document} {fragments : List Fragment}
  {e : ShapeError}

/-! ### The checks of a batch -/

/-- The checks of some definitions, when the names of some shapes are taken. -/
def batchChecks (context : Context) : List String → List Definition → List Check
  | _, [] => []
  | seen, d :: rest => definitionChecks context d ++
      .fresh seen d.shapeNames :: batchChecks context (seen ++ d.shapeNames) rest

/-- **All that is checked of a batch**, in order. -/
def checksOf (schema : Schema) (masking : Bool) (documents : List Document) : List Check :=
  batchChecks (contextOf schema masking documents) [] (documents.flatMap Document.definitions)

theorem failureOf_addDefinitions (context : Context) (shapes : Shapes) (ds : List Definition) :
    failureOf (addDefinitions context shapes ds) =
      firstFailure? context.schema context.fragments
        (batchChecks context (shapes.aliases.map TypeScript.Alias.name) ds) := by
  induction ds generalizing shapes with
  | nil => rfl
  | cons d rest ih =>
    rw [addDefinitions, batchChecks, firstFailure?_append, ← failureOf_ofDefinition]
    cases hown : ofDefinition context d with
    | error e => rfl
    | ok own =>
      rw [failureOf, Option.none_or, firstFailure?_cons, Check.failure?,
        ← (aliases_of_ofDefinition hown).1]
      dsimp only
      unfold Shapes.add
      cases firstRepeated (shapes.aliases.map TypeScript.Alias.name)
          (own.aliases.map TypeScript.Alias.name) with
      | some name => rfl
      | none =>
        dsimp only
        rw [ih, List.map_append]
        rfl

/-- **A batch fails by its first check in vain**, and it has shapes if no check is in vain. -/
theorem failureOf_ofDocuments (schema : Schema) (masking : Bool) (documents : List Document) :
    failureOf (ofDocuments schema masking documents) =
      firstFailure? schema (documents.flatMap Document.fragments)
        (checksOf schema masking documents) :=
  failureOf_addDefinitions (contextOf schema masking documents) {}
    (documents.flatMap Document.definitions)

/-! ### Which checks there are -/

namespace ChecksOnly

variable {context : Context} {fits : Option SchemaType → Prop} {P : Check → Prop} {check : Check}

theorem of_mem_batchChecks (only : ChecksOnly context.schema fits P)
    (opened : context.masking = false → Opens context.schema context.fragments fits P)
    (fresh : ∀ seen names, P (.fresh seen names)) {ds : List Definition} {seen : List String}
    (h : check ∈ batchChecks context seen ds) : P check := by
  induction ds generalizing seen with
  | nil => cases h
  | cons d rest ih =>
    rw [batchChecks] at h
    rcases List.mem_append.1 h with h | h
    · exact only.of_mem_definitionChecks opened h
    · rcases List.mem_cons.1 h with rfl | h
      · exact fresh seen _
      · exact ih h

/-- **What holds of all checks of a batch.** -/
theorem of_mem_checksOf (only : ChecksOnly schema fits P)
    (opened : masking = false → Opens schema (documents.flatMap Document.fragments) fits P)
    (fresh : ∀ seen names, P (.fresh seen names))
    (h : check ∈ checksOf schema masking documents) : P check := by
  have whole : ChecksOnly (contextOf schema masking documents).schema fits P := only
  exact whole.of_mem_batchChecks opened fresh h

end ChecksOnly

/-- Without cycles, no chain of spreads gets too long. -/
theorem depth_not_mem_checksOf
    (acyclic : masking = false → Acyclic (documents.flatMap Document.fragments))
    (name document : String) : .depth name document ∉ checksOf schema masking documents := by
  have only : ChecksOnly schema (fun _ => True) fun check => check ≠ .depth name document :=
    ⟨fun _ => trivial, fun _ _ => trivial, fun _ _ _ => nofun, fun _ _ deep _ => deep _ _⟩
  exact fun h => only.of_mem_checksOf
    (fun unmasked => ⟨fun _ _ => trivial, Or.inl (acyclic unmasked)⟩) (fun _ _ => nofun) h rfl

/-- **Fields have a type to be looked up in**, if the fragments that are opened are for types of the
schema. -/
theorem field_none_not_mem_checksOf
    (conditions : masking = false →
      ∀ f ∈ documents.flatMap Document.fragments, (schema.find? f.condition).isSome)
    (name document : String) : .field none name document ∉ checksOf schema masking documents := by
  have only : ChecksOnly schema (fun scope => ∃ t ∈ schema.types, scope = some t) fun check =>
      check ≠ .field none name document := by
    refine ⟨fun ht => ⟨_, ht, rfl⟩, ?_, ?_, fun _ field _ _ => field _ _ _⟩
    · rintro _ name type ⟨t, ht, rfl⟩ htype
      rw [selectedType?] at htype
      split at htype
      · cases htype
      · obtain ⟨u, hu⟩ := Option.isSome_iff_exists.1 (Schema.isSome_find?_of_field? ht htype)
        exact ⟨u, Schema.mem_of_find? hu, hu⟩
    · rintro _ _ _ ⟨t, -, rfl⟩
      exact nofun
  refine fun h => only.of_mem_checksOf (fun unmasked => ⟨fun f hf => ?_, Or.inr fun _ _ => nofun⟩)
    (fun _ _ => nofun) h rfl
  obtain ⟨t, ht⟩ := Option.isSome_iff_exists.1 (conditions unmasked f hf)
  exact ⟨t, Schema.mem_of_find? ht, ht⟩

/-! ### Failures that are stated -/

/-- A check fails in a way that is stated, unless there is no type to look up a field in, or too
many spreads were opened on the way. -/
theorem Check.isStated_of_failure? {check : Check}
    (h : check.failure? schema fragments = some e) :
    e.isStated = true ∨ (∃ name document, check = .field none name document) ∨
      ∃ name document, check = .depth name document := by
  cases check with
  | field scope name document =>
    rcases eq_of_field_failure? h with ⟨rfl, rfl⟩ | ⟨type, rfl, rfl⟩
    · exact Or.inr (Or.inl ⟨name, document, rfl⟩)
    · exact Or.inl rfl
  | depth name document => exact Or.inr (Or.inr ⟨name, document, rfl⟩)
  | fresh seen names =>
    obtain ⟨name, -, rfl⟩ := Option.map_eq_some_iff.1 h
    exact Or.inl rfl
  | _ =>
    rw [failure?] at h
    obtain rfl := eq_of_ite_eq_some h
    exact Or.inl rfl

/-! ### How batches fail -/

/-- No check of a batch is in vain. -/
def PassesAll (schema : Schema) (masking : Bool) (documents : List Document) : Prop :=
  ∀ check ∈ checksOf schema masking documents,
    check.failure? schema (documents.flatMap Document.fragments) = none

/-- **A batch has shapes exactly if no check is in vain.** -/
theorem passesAll_iff : PassesAll schema masking documents ↔
    ∃ shapes, ofDocuments schema masking documents = .ok shapes := by
  rw [PassesAll, ← List.findSome?_eq_none_iff, ← firstFailure?, ← failureOf_ofDocuments]
  cases ofDocuments schema masking documents <;> simp [failureOf]

/-- **A batch meets a field without a type to look it up in**: the check of a field on a type that
is not there is the first in vain. -/
def MeetsNoType (schema : Schema) (masking : Bool) (documents : List Document) : Prop :=
  ∃ before name document after,
    checksOf schema masking documents = before ++ .field none name document :: after ∧
      ∀ check ∈ before, check.failure? schema (documents.flatMap Document.fragments) = none

theorem MeetsNoType.exists_mem (h : MeetsNoType schema masking documents) :
    ∃ name document, .field none name document ∈ checksOf schema masking documents := by
  obtain ⟨before, name, document, after, all, -⟩ := h
  refine ⟨name, document, ?_⟩
  rw [all]
  exact List.mem_append_right _ (List.mem_cons_self ..)

/-- The failure is then not stated. -/
theorem MeetsNoType.exists_error (h : MeetsNoType schema masking documents) : ∃ name document,
    ofDocuments schema masking documents = .error (.fieldOfUnknownType name document) := by
  obtain ⟨before, name, document, after, all, passes⟩ := h
  refine ⟨name, document, failureOf_eq_some_iff.1 ?_⟩
  rw [failureOf_ofDocuments]
  exact List.findSome?_eq_some_iff.2 ⟨before, _, after, all, rfl, passes⟩

/-- **A batch fails in a way that is stated**, unless it meets a field without a type or a chain of
spreads gets too long. -/
theorem isStated_or_of_ofDocuments_eq_error
    (h : ofDocuments schema masking documents = .error e) :
    e.isStated = true ∨ MeetsNoType schema masking documents ∨
      ∃ name document, .depth name document ∈ checksOf schema masking documents := by
  rw [← failureOf_eq_some_iff, failureOf_ofDocuments] at h
  obtain ⟨before, check, after, all, fails, passes⟩ := List.findSome?_eq_some_iff.1 h
  rcases Check.isStated_of_failure? fails with stated | ⟨name, document, rfl⟩ |
    ⟨name, document, rfl⟩
  · exact Or.inl stated
  · exact Or.inr (Or.inl ⟨before, name, document, after, all, passes⟩)
  · refine Or.inr (Or.inr ⟨name, document, ?_⟩)
    rw [all]
    exact List.mem_append_right _ (List.mem_cons_self ..)

end Shape

end QueryTypes
