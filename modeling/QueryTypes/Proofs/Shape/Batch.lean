import Mathlib.Data.List.Forall2
import QueryTypes.Proofs.Shape.Checks

/-!
# Which shapes a batch has

The shapes of a batch are those of its definitions, one after another
(`QueryTypes.Shape.exists_of_ofDocuments`), under the names that go with the definitions
(`QueryTypes.Shape.aliases_of_ofDefinition`). A batch whose definitions all have shapes can
fail for one more reason only, two shapes of one name, and that reason does not arise as long as
no two definitions share a name (`QueryTypes.Shape.not_duplicateShape_of_nodup`).
-/

namespace QueryTypes

open GraphQL (Document Definition Fragment Operation Selection VariableDefinition)

/-! ### Failures of one definition -/

/-- Whether a failure is about one definition by itself, whatever else is in the batch. -/
def ShapeError.isLocal : ShapeError → Bool
  | duplicateShape _ => false
  | unreadableEnum _ => false
  | refused _ => false
  | _ => true

namespace Shape

open TypeScript (Alias Program)

variable {context : Context} {schema : Schema} {masking : Bool}

/-- A check fails for a reason that lies in one definition only, unless it is that of names. -/
theorem Check.isLocal_of_failure? {fragments : List Fragment} {check : Check} {e : ShapeError}
    (h : check.failure? schema fragments = some e) :
    e.isLocal = true ∨ ∃ seen names, check = .fresh seen names := by
  cases check with
  | field scope name document =>
    rcases eq_of_field_failure? h with ⟨-, rfl⟩ | ⟨type, -, rfl⟩ <;> exact Or.inl rfl
  | depth name document =>
    obtain rfl : _ = e := Option.some.inj h
    exact Or.inl rfl
  | fresh seen names => exact Or.inr ⟨seen, names, rfl⟩
  | _ =>
    rw [failure?] at h
    obtain rfl := eq_of_ite_eq_some h
    exact Or.inl rfl

/-- **A definition without shapes has itself to blame.** -/
theorem isLocal_of_ofDefinition {d : Definition} {e : ShapeError}
    (h : ofDefinition context d = .error e) : e.isLocal = true := by
  rw [← failureOf_eq_some_iff, failureOf_ofDefinition] at h
  obtain ⟨check, mem, fails⟩ := List.exists_of_findSome?_eq_some h
  refine (Check.isLocal_of_failure? fails).resolve_right ?_
  rintro ⟨seen, names, rfl⟩
  have only : ChecksOnly context.schema (fun _ => True) fun check => check ≠ .fresh seen names :=
    ⟨fun _ => trivial, fun _ _ => trivial, fun _ _ _ => nofun, fun _ _ _ fresh => fresh _ _⟩
  exact only.of_mem_definitionChecks
    (fun _ => ⟨fun _ _ => trivial, Or.inr fun _ _ => nofun⟩) mem rfl

/-! ### Variables -/

/-- **Variables have members** exactly if their types are in the schema. -/
theorem variableMembers_eq_ok_iff {document : String} {vs : List VariableDefinition}
    {members : List TypeScript.Member} :
    variableMembers schema document vs = .ok members ↔
      (∀ v ∈ vs, (schema.find? v.type.baseName).isSome) ∧
        members = vs.map fun v => inputMember schema v.name v.type := by
  induction vs generalizing members with
  | nil => simp only [variableMembers, List.not_mem_nil, List.map_nil, Except.ok.injEq, eq_comm,
      IsEmpty.forall_iff, implies_true, true_and]
  | cons v rest ih =>
    rw [variableMembers, variableMember, List.forall_mem_cons, List.map_cons]
    cases hv : schema.find? v.type.baseName with
    | none => simp
    | some type =>
      dsimp only
      cases hr : variableMembers schema document rest with
      | error e =>
        refine iff_of_false (fun h => by cases h) fun h => ?_
        cases hr.symm.trans (ih.2 ⟨h.1.2, rfl⟩)
      | ok others =>
        obtain ⟨there, rfl⟩ := ih.1 hr
        exact ⟨fun h => ⟨⟨rfl, there⟩, (Except.ok.inj h).symm⟩,
          fun h => congrArg Except.ok h.2.symm⟩

/-- The type of the variables of an operation, if their types are in the schema. -/
def inputsType (schema : Schema) : List VariableDefinition → TypeScript.TypeExpr
  | [] => noVariables
  | vs => .object (vs.map fun v => inputMember schema v.name v.type)

theorem variablesType_eq_ok_iff {document : String} {vs : List VariableDefinition}
    {type : TypeScript.TypeExpr} :
    variablesType schema document vs = .ok type ↔
      (∀ v ∈ vs, (schema.find? v.type.baseName).isSome) ∧ type = inputsType schema vs := by
  cases vs with
  | nil => simp only [variablesType, inputsType, List.not_mem_nil, Except.ok.injEq, eq_comm,
      IsEmpty.forall_iff, implies_true, true_and]
  | cons v rest =>
    rw [variablesType, inputsType]
    · cases hm : variableMembers schema document (v :: rest) with
      | error e =>
        refine iff_of_false (fun h => by cases h) fun h => ?_
        cases hm.symm.trans (variableMembers_eq_ok_iff.2 ⟨h.1, rfl⟩)
      | ok members =>
        obtain ⟨there, rfl⟩ := variableMembers_eq_ok_iff.1 hm
        exact ⟨fun h => ⟨there, (Except.ok.inj h).symm⟩, fun h => congrArg Except.ok h.2.symm⟩
    all_goals exact List.cons_ne_nil _ _

/-! ### Shapes of one definition -/

/-- **When an operation has shapes**: it has a name, its root type is in the schema, its variables
have a type and what it selects has a draft. -/
theorem ofOperation_eq_ok_iff {o : Operation} {shapes : Shapes} :
    ofOperation context o = .ok shapes ↔
      ∃ name root inputs draft, o.name = some name ∧ context.schema.root? o.kind = some root ∧
        variablesType context.schema name o.variableDefinitions = .ok inputs ∧
        selectionDraft context name root o.selections = .ok draft ∧
        shapes =
          { aliases := [{ name := Naming.variablesShape name o.kind, type := inputs },
              { name := Naming.shape name o.kind, type := draft.toType }]
            references := (allInputReferences context.schema
              (o.variableDefinitions.map fun v => v.type.baseName)).append ⟨draft.enums, []⟩ } := by
  constructor
  · intro h
    unfold ofOperation at h
    split at h
    · cases h
    next name hname =>
      split at h
      · cases h
      next root hroot =>
        split at h
        · cases h
        next inputs hinputs =>
          split at h
          · cases h
          next draft hdraft =>
            cases h
            exact ⟨name, root, inputs, draft, hname, hroot, hinputs, hdraft, rfl⟩
  · rintro ⟨name, root, inputs, draft, hname, hroot, hinputs, hdraft, rfl⟩
    simp only [ofOperation, hname, hroot, hinputs, hdraft]

/-- **When a fragment has a shape**: the type it applies to is in the schema, and what it selects
has a draft. -/
theorem ofFragment_eq_ok_iff {f : Fragment} {shapes : Shapes} :
    ofFragment context f = .ok shapes ↔
      ∃ scope draft, context.schema.find? f.condition = some scope ∧
        selectionDraft context f.name scope f.selections = .ok draft ∧
        shapes =
          { aliases := [{ name := Naming.fragmentShape f.name, type := draft.toType }]
            references := ⟨draft.enums, []⟩ } := by
  constructor
  · intro h
    unfold ofFragment at h
    split at h
    · cases h
    next scope hscope =>
      split at h
      · cases h
      next draft hdraft =>
        cases h
        exact ⟨scope, draft, hscope, hdraft, rfl⟩
  · rintro ⟨scope, draft, hscope, hdraft, rfl⟩
    simp only [ofFragment, hscope, hdraft]

/-- An operation with shapes has a name, its root type is in the schema, its variables have a type
and what it selects has a draft. -/
theorem exists_of_ofOperation {o : Operation} {shapes : Shapes}
    (h : ofOperation context o = .ok shapes) :
    ∃ name root inputs draft, o.name = some name ∧ context.schema.root? o.kind = some root ∧
      variablesType context.schema name o.variableDefinitions = .ok inputs ∧
      selectionDraft context name root o.selections = .ok draft ∧
      shapes.aliases = [{ name := Naming.variablesShape name o.kind, type := inputs },
        { name := Naming.shape name o.kind, type := draft.toType }] := by
  obtain ⟨name, root, inputs, draft, hname, hroot, hinputs, hdraft, rfl⟩ :=
    ofOperation_eq_ok_iff.1 h
  exact ⟨name, root, inputs, draft, hname, hroot, hinputs, hdraft, rfl⟩

/-- The type that a fragment with a shape applies to is in the schema. -/
theorem exists_of_ofFragment {f : Fragment} {shapes : Shapes}
    (h : ofFragment context f = .ok shapes) :
    ∃ scope data, context.schema.find? f.condition = some scope ∧
      shapes.aliases = [{ name := Naming.fragmentShape f.name, type := data }] := by
  obtain ⟨scope, draft, hscope, -, rfl⟩ := ofFragment_eq_ok_iff.1 h
  exact ⟨scope, draft.toType, hscope, rfl⟩

/-- **The shapes of a definition have the names that go with it**, and other files may use
them. -/
theorem aliases_of_ofDefinition {d : Definition} {shapes : Shapes}
    (h : ofDefinition context d = .ok shapes) :
    shapes.aliases.map Alias.name = d.shapeNames ∧ ∀ a ∈ shapes.aliases, a.exported = true := by
  cases d with
  | operation o =>
    obtain ⟨name, root, inputs, draft, hname, -, -, -, aliases⟩ := exists_of_ofOperation h
    rw [aliases, Definition.shapeNames, hname]
    exact ⟨rfl, by simp⟩
  | fragment f =>
    obtain ⟨scope, data, -, aliases⟩ := exists_of_ofFragment h
    rw [aliases, Definition.shapeNames]
    exact ⟨rfl, by simp⟩
  | _ =>
    cases h
    exact ⟨rfl, fun a ha => by cases ha⟩

/-! ### Adding shapes -/

/-- No name comes up again exactly if the names are distinct and none was seen before. -/
theorem firstRepeated_eq_none_iff {seen names : List String} :
    firstRepeated seen names = none ↔ names.Nodup ∧ names.Disjoint seen := by
  induction names generalizing seen with
  | nil => simp [firstRepeated]
  | cons name rest ih =>
    rw [firstRepeated, List.nodup_cons, List.disjoint_cons_left]
    split
    · next hm => exact iff_of_false (by simp) fun h => h.2.1 hm
    · next hm =>
      rw [ih, List.disjoint_cons_right]
      constructor
      · rintro ⟨distinct, first, apart⟩
        exact ⟨⟨first, distinct⟩, hm, apart⟩
      · rintro ⟨⟨first, distinct⟩, -, apart⟩
        exact ⟨distinct, first, apart⟩

/-- Shapes can be added exactly if their names are new and distinct. -/
theorem add_eq_ok_iff {old new result : Shapes} :
    old.add new = .ok result ↔
      ((new.aliases.map Alias.name).Nodup ∧
        (new.aliases.map Alias.name).Disjoint (old.aliases.map Alias.name)) ∧
      result = ⟨old.aliases ++ new.aliases, old.references.append new.references⟩ := by
  rw [← firstRepeated_eq_none_iff, Shapes.add]
  split
  · next hr => simp [hr]
  · next hr => simp [hr, eq_comm]

/-- Shapes that cannot be added share a name with those before them or among themselves. -/
theorem not_nodup_of_add_eq_error {old new : Shapes} {e : ShapeError}
    (h : old.add new = .error e) :
    ¬ (old.aliases.map Alias.name ++ new.aliases.map Alias.name).Nodup := by
  intro distinct
  rw [List.nodup_append'] at distinct
  have none : firstRepeated (old.aliases.map Alias.name) (new.aliases.map Alias.name) = none :=
    firstRepeated_eq_none_iff.2 ⟨distinct.2.1, List.disjoint_symm distinct.2.2⟩
  rw [Shapes.add, none] at h
  cases h

/-- The references of some shapes, in order, behind others. -/
def appendReferences (references : References) (owns : List Shapes) : References :=
  owns.foldl (fun all own => all.append own.references) references

/-- **The shapes of some definitions are those of each of them, in order.** -/
theorem exists_of_addDefinitions {shapes result : Shapes} {ds : List Definition}
    (h : addDefinitions context shapes ds = .ok result) :
    ∃ owns : List Shapes, List.Forall₂ (fun d own => ofDefinition context d = .ok own) ds owns ∧
      result = ⟨shapes.aliases ++ owns.flatMap Shapes.aliases,
        appendReferences shapes.references owns⟩ := by
  induction ds generalizing shapes with
  | nil =>
    cases h
    exact ⟨[], .nil, by simp [appendReferences]⟩
  | cons d rest ih =>
    rw [addDefinitions] at h
    split at h
    · cases h
    next own hown =>
      split at h
      · cases h
      next next hadd =>
        obtain ⟨owns, each, rfl⟩ := ih h
        obtain ⟨-, rfl⟩ := add_eq_ok_iff.1 hadd
        refine ⟨own :: owns, .cons hown each, ?_⟩
        rw [List.flatMap_cons, List.append_assoc]
        rfl

/-- No two of the shapes that are put together have one name. -/
theorem nodup_names_of_addDefinitions {shapes result : Shapes} {ds : List Definition}
    (h : addDefinitions context shapes ds = .ok result)
    (distinct : (shapes.aliases.map Alias.name).Nodup) :
    (result.aliases.map Alias.name).Nodup := by
  induction ds generalizing shapes with
  | nil =>
    cases h
    exact distinct
  | cons d rest ih =>
    rw [addDefinitions] at h
    split at h
    · cases h
    split at h
    · cases h
    next next hadd =>
      obtain ⟨⟨new, apart⟩, rfl⟩ := add_eq_ok_iff.1 hadd
      refine ih h ?_
      rw [List.map_append, List.nodup_append']
      exact ⟨distinct, new, List.disjoint_symm apart⟩

/-- Definitions fail to have shapes together because one of them has none, or because two
shapes have one name. -/
theorem isLocal_or_not_nodup_of_addDefinitions {shapes : Shapes} {ds : List Definition}
    {e : ShapeError} (h : addDefinitions context shapes ds = .error e) :
    e.isLocal = true ∨
      ¬ (shapes.aliases.map Alias.name ++ ds.flatMap Definition.shapeNames).Nodup := by
  induction ds generalizing shapes with
  | nil => cases h
  | cons d rest ih =>
    rw [addDefinitions] at h
    split at h
    · next hd =>
      cases h
      exact Or.inl (isLocal_of_ofDefinition hd)
    next own hown =>
      have names := (aliases_of_ofDefinition hown).1
      rw [List.flatMap_cons, ← List.append_assoc, ← names]
      split at h
      · next hadd =>
        -- the names up to this definition are a part of all names
        refine Or.inr fun distinct => not_nodup_of_add_eq_error hadd ?_
        exact distinct.sublist (List.sublist_append_left ..)
      next next hadd =>
        obtain ⟨-, rfl⟩ := add_eq_ok_iff.1 hadd
        rw [← List.map_append]
        exact ih h

/-! ### Batches -/

variable {documents : List Document} {shapes : Shapes}

/-- **The shapes of a batch are those of its definitions.** -/
theorem exists_of_ofDocuments (h : ofDocuments schema masking documents = .ok shapes) :
    ∃ owns : List Shapes,
      List.Forall₂
        (fun d own => ofDefinition
          ⟨schema, masking, documents.flatMap Document.fragments⟩ d = .ok own)
        (documents.flatMap Document.definitions) owns ∧
      shapes = ⟨owns.flatMap Shapes.aliases, appendReferences {} owns⟩ := by
  obtain ⟨owns, each, rfl⟩ := exists_of_addDefinitions h
  exact ⟨owns, each, rfl⟩

/-- **No two shapes of a batch have one name.** -/
theorem nodup_names_of_ofDocuments (h : ofDocuments schema masking documents = .ok shapes) :
    (shapes.aliases.map Alias.name).Nodup :=
  nodup_names_of_addDefinitions h List.nodup_nil

/-- A member of the first of two related lists has a partner in the second. -/
theorem exists_partner {α β : Type} {R : α → β → Prop} {xs : List α} {ys : List β}
    (h : List.Forall₂ R xs ys) {x : α} (hx : x ∈ xs) : ∃ y ∈ ys, R x y := by
  induction h with
  | nil => simp at hx
  | cons hr _ ih =>
    rcases List.mem_cons.1 hx with rfl | hx
    · exact ⟨_, List.mem_cons_self .., hr⟩
    · obtain ⟨y, hy, hxy⟩ := ih hx
      exact ⟨y, List.mem_cons_of_mem _ hy, hxy⟩

/-- Every definition of a batch that has shapes has shapes itself, and they are among those of
the batch. -/
theorem exists_own_of_ofDocuments (h : ofDocuments schema masking documents = .ok shapes)
    {document : Document} (hdoc : document ∈ documents) {d : Definition}
    (hd : d ∈ document.definitions) :
    ∃ own : Shapes,
      ofDefinition ⟨schema, masking, documents.flatMap Document.fragments⟩ d = .ok own ∧
        own.aliases ⊆ shapes.aliases := by
  obtain ⟨owns, each, rfl⟩ := exists_of_ofDocuments h
  obtain ⟨own, hown, hd⟩ := exists_partner each (List.mem_flatMap.2 ⟨document, hdoc, hd⟩)
  exact ⟨own, hd, fun a ha => List.mem_flatMap.2 ⟨own, hown, ha⟩⟩

/-- **Without definitions of one name there are no shapes of one name.** -/
theorem not_duplicateShape_of_nodup
    (distinct : ((documents.flatMap Document.definitions).filterMap Definition.name?).Nodup)
    (name : String) : ofDocuments schema masking documents ≠ .error (.duplicateShape name) := by
  intro h
  rcases isLocal_or_not_nodup_of_addDefinitions h with hl | hn
  · simp [ShapeError.isLocal] at hl
  · exact hn (Definition.nodup_flatMap_shapeNames distinct)

/-! ### The program of a batch -/

variable {scalars : ScalarTable} {program : Program}

theorem exists_of_program (h : Shape.program schema masking scalars documents = .ok program) :
    ∃ shapes, ofDocuments schema masking documents = .ok shapes ∧
      unreadableEnum? schema shapes.references = none ∧
      program = programOf schema scalars shapes := by
  unfold Shape.program at h
  split at h
  · cases h
  next shapes hshapes =>
    split at h
    · cases h
    next hread =>
      cases h
      exact ⟨shapes, hshapes, hread, rfl⟩

theorem program_ne_duplicateShape
    (distinct : ((documents.flatMap Document.definitions).filterMap Definition.name?).Nodup)
    (name : String) :
    Shape.program schema masking scalars documents ≠ .error (.duplicateShape name) := by
  intro h
  unfold Shape.program at h
  split at h
  · next hs =>
    cases h
    exact not_duplicateShape_of_nodup distinct name hs
  · split at h <;> cases h

theorem aliases_programOf (schema : Schema) (scalars : ScalarTable) (shapes : Shapes) :
    (programOf schema scalars shapes).aliases =
      maybeAlias :: { name := "Scalars", type := scalarsType schema scalars } ::
        (namedTypes schema shapes.references ++ shapes.aliases) := by
  rw [Program.aliases, programOf, List.filterMap_map]
  exact List.filterMap_some

end Shape

end QueryTypes
