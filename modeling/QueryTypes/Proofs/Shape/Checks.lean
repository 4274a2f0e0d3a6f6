import QueryTypes.Proofs.Shape.Drafts
import QueryTypes.Proofs.Shape.Names

/-!
# What is checked, and what fails first

What the shapes of a definition need is checked one after the other: the name and the root type of
an operation, the types of variables, the types that fragments are for, fields on the types that they
are selected on, and fragments that are spread. All these checks stand in one list
(`QueryTypes.Shape.definitionChecks`), in the order of the text, with the checks of a fragment at
each place where a spread opens it. A definition fails by the first check that is in vain, and it has
shapes if there is none (`QueryTypes.Shape.failureOf_ofDefinition`). So how definitions fail is read
off which checks there are (`QueryTypes.Shape.ChecksOnly.of_mem_definitionChecks`).
-/

namespace QueryTypes

open GraphQL (Acyclic Definition Fragment OperationKind Selection)

namespace Shape

/-! ### Checks -/

/-- Something that the shapes of a batch need, along with the name of the document that needs it. -/
inductive Check where
  /-- An operation has a name. -/
  | named (name : Option String)
  /-- The schema has a root type. -/
  | root (kind : OperationKind) (document : String)
  /-- The type of a variable is in the schema. -/
  | variableType (name type document : String)
  /-- A type that a fragment is for is in the schema. -/
  | condition (type document : String)
  /-- A field is one of the type that it is selected on. -/
  | field (scope : Option SchemaType) (name document : String)
  /-- A fragment that is spread is in the batch. -/
  | fragment (name document : String)
  /-- A chain of spreads goes no further. This is checked where it does. -/
  | depth (fragment document : String)
  /-- The names of shapes are new. -/
  | fresh (seen names : List String)

/-- How a check fails, if it is in vain. -/
def Check.failure? (schema : Schema) (fragments : List Fragment) : Check → Option ShapeError
  | named name => if name.isSome then none else some .unnamedOperation
  | root kind document =>
    if (schema.root? kind).isSome then none else some (.missingRoot kind document)
  | variableType name type document =>
    if (schema.find? type).isSome then none else some (.unknownVariableType name document)
  | condition type document =>
    if (schema.find? type).isSome then none else some (.unknownType type document)
  | field scope name document => match fieldType document scope name with
    | .error e => some e
    | .ok _ => none
  | fragment name document =>
    if (findFragment? fragments name).isSome then none else some (.unknownFragment name document)
  | depth name document => some (.fragmentCycle name document)
  | fresh seen names => (firstRepeated seen names).map .duplicateShape

theorem eq_of_ite_eq_some {found : Bool} {e other : ShapeError}
    (h : (if found then none else some other) = some e) : other = e := by
  cases found with
  | false => exact Option.some.inj h
  | true => cases h

/-- A field that is looked up in vain has no type to be looked up in, or is none of it. -/
theorem Check.eq_of_field_failure? {schema : Schema} {fragments : List Fragment}
    {scope : Option SchemaType} {name document : String} {e : ShapeError}
    (h : (Check.field scope name document).failure? schema fragments = some e) :
    scope = none ∧ e = .fieldOfUnknownType name document ∨
      ∃ type, scope = some type ∧ e = .unknownField type.name name document := by
  cases scope with
  | none => exact Or.inl ⟨rfl, (Option.some.inj h).symm⟩
  | some type =>
    rw [failure?, fieldType] at h
    cases hf : type.field? name with
    | none =>
      rw [hf] at h
      exact Or.inr ⟨type, rfl, (Option.some.inj h).symm⟩
    | some found =>
      rw [hf] at h
      cases h

/-- How some checks fail: by the first of them that is in vain. -/
def firstFailure? (schema : Schema) (fragments : List Fragment) (checks : List Check) :
    Option ShapeError :=
  checks.findSome? (Check.failure? schema fragments)

mutual

/-- The checks of a selection, given those of the spreads. -/
def checks (schema : Schema) (document : String) (inside : String → List Check)
    (scope : Option SchemaType) : Selection → List Check
  | .field _ name _ _ none =>
    if name = "__typename" then [] else [.field scope name document]
  | .field _ name _ _ (some selections) =>
    if name = "__typename" then []
    else .field scope name document :: match selectedType? scope name with
      | none => []
      | some type => checksInAll schema document inside (schema.find? type.baseName) selections
  | .spread name _ => inside name
  | .inlineFragment none _ selections => checksInAll schema document inside scope selections
  | .inlineFragment (some condition) _ selections =>
    .condition condition document :: match schema.find? condition with
      | none => []
      | some type => checksInAll schema document inside (some type) selections

/-- The checks of some selections, in order. -/
def checksInAll (schema : Schema) (document : String) (inside : String → List Check)
    (scope : Option SchemaType) : List Selection → List Check
  | [] => []
  | selection :: rest =>
    checks schema document inside scope selection ++
      checksInAll schema document inside scope rest

end

/-- The checks of a spread that is opened. -/
def openChecks (schema : Schema) (document : String) (fragments : List Fragment) :
    Nat → String → List Check
  | 0, name => .fragment name document :: match findFragment? fragments name with
    | none => []
    | some _ => [.depth name document]
  | depth + 1, name => .fragment name document :: match findFragment? fragments name with
    | none => []
    | some fragment => checksInAll schema document (openChecks schema document fragments depth)
        (schema.find? fragment.condition) fragment.selections

/-- The checks of a spread in a batch with these fragments. -/
def spreadChecks (schema : Schema) (masking : Bool) (fragments : List Fragment)
    (document : String) : String → List Check :=
  if masking then fun _ => [] else openChecks schema document fragments fragments.length

/-- The checks of what a document selects from a type. -/
def selectionChecks (context : Context) (document : String) (scope : Option SchemaType)
    (selections : List Selection) : List Check :=
  match scope with
  | none => []
  | some type => checksInAll context.schema document
      (spreadChecks context.schema context.masking context.fragments document) (some type)
        selections

/-- The checks of a definition. -/
def definitionChecks (context : Context) : Definition → List Check
  | .operation o => .named o.name :: match o.name with
    | none => []
    | some name => .root o.kind name ::
        ((o.variableDefinitions.map fun v => .variableType v.name v.type.baseName name) ++
          selectionChecks context name (context.schema.root? o.kind) o.selections)
  | .fragment f => .condition f.condition f.name ::
      selectionChecks context f.name (context.schema.find? f.condition) f.selections
  | _ => []

/-! ### Failures are checks in vain -/

/-- How something fails, if it does. -/
def failureOf {α : Type} : Except ShapeError α → Option ShapeError
  | .error e => some e
  | .ok _ => none

theorem failureOf_eq_some_iff {α : Type} {result : Except ShapeError α} {e : ShapeError} :
    failureOf result = some e ↔ result = .error e := by
  cases result <;> simp [failureOf]

variable {schema : Schema} {document : String} {fragments : List Fragment} {spread : SpreadRule}
  {inside : String → List Check} {scope : Option SchemaType}

theorem firstFailure?_append (checks more : List Check) :
    firstFailure? schema fragments (checks ++ more) =
      (firstFailure? schema fragments checks).or (firstFailure? schema fragments more) :=
  List.findSome?_append

theorem firstFailure?_cons (check : Check) (more : List Check) :
    firstFailure? schema fragments (check :: more) =
      (check.failure? schema fragments).or (firstFailure? schema fragments more) := by
  rw [firstFailure?, List.findSome?_cons]
  cases check.failure? schema fragments <;> rfl

/-- A spread fails by its first check in vain. -/
def FailsBy (schema : Schema) (fragments : List Fragment) (spread : SpreadRule)
    (inside : String → List Check) : Prop :=
  ∀ scope optional draft name,
    failureOf (spread scope optional draft name) = firstFailure? schema fragments (inside name)

mutual

theorem failureOf_addSelection (fails : FailsBy schema fragments spread inside) :
    ∀ (s : Selection) (scope : Option SchemaType) (optional : Bool) (draft : Draft),
      failureOf (addSelection schema document spread scope optional draft s) =
        firstFailure? schema fragments (checks schema document inside scope s)
  | .field _ name _ _ none, scope, optional, draft => by
    rw [addSelection, checks]
    by_cases hname : name = "__typename"
    · rw [if_pos hname, if_pos hname]
      rfl
    rw [if_neg hname, if_neg hname, firstFailure?_cons, Check.failure?]
    cases fieldType document scope name <;> rfl
  | .field _ name _ _ (some selections), scope, optional, draft => by
    rw [addSelection, checks]
    by_cases hname : name = "__typename"
    · rw [if_pos hname, if_pos hname]
      rfl
    rw [if_neg hname, if_neg hname, firstFailure?_cons, Check.failure?]
    cases hf : fieldType document scope name with
    | error e => rfl
    | ok type =>
      rw [selectedType?_of_fieldType hname hf, Option.none_or]
      dsimp only
      rw [← failureOf_addSelections fails selections _ false {}]
      cases addSelections schema document spread (schema.find? type.baseName) false {}
        selections <;> rfl
  | .spread name _, scope, optional, draft => by
    rw [addSelection, checks]
    exact fails scope optional draft name
  | .inlineFragment none _ selections, scope, optional, draft => by
    rw [addSelection, checks]
    exact failureOf_addSelections fails selections scope optional draft
  | .inlineFragment (some condition) _ selections, scope, optional, draft => by
    rw [addSelection, checks, firstFailure?_cons, Check.failure?]
    cases schema.find? condition with
    | none => rfl
    | some type => exact failureOf_addSelections fails selections _ _ draft

/-- **Selections fail by their first check in vain.** -/
theorem failureOf_addSelections (fails : FailsBy schema fragments spread inside) :
    ∀ (selections : List Selection) (scope : Option SchemaType) (optional : Bool) (draft : Draft),
      failureOf (addSelections schema document spread scope optional draft selections) =
        firstFailure? schema fragments (checksInAll schema document inside scope selections)
  | [], _, _, _ => by
    rw [addSelections, checksInAll]
    rfl
  | s :: rest, scope, optional, draft => by
    rw [addSelections, checksInAll, firstFailure?_append,
      ← failureOf_addSelection fails s scope optional draft]
    cases addSelection schema document spread scope optional draft s with
    | error e => rfl
    | ok next => exact failureOf_addSelections fails rest scope optional next

end

/-- The induction is on how many more spreads may be opened on the way. -/
theorem failsBy_openSpread (depth : Nat) :
    FailsBy schema fragments (openSpread schema document fragments depth)
      (openChecks schema document fragments depth) := by
  induction depth with
  | zero =>
    intro scope optional draft name
    rw [openSpread, openChecks, firstFailure?_cons, Check.failure?]
    cases findFragment? fragments name <;> rfl
  | succ depth ih =>
    intro scope optional draft name
    rw [openSpread, openChecks, firstFailure?_cons, Check.failure?]
    cases findFragment? fragments name with
    | none => rfl
    | some fragment => exact failureOf_addSelections ih fragment.selections _ _ draft

theorem failsBy_spreadIn (masking : Bool) :
    FailsBy schema fragments (spreadIn schema masking fragments document)
      (spreadChecks schema masking fragments document) := by
  unfold spreadIn spreadChecks
  split
  · exact fun _ _ _ _ => rfl
  · exact failsBy_openSpread _

theorem failureOf_variablesType (vs : List GraphQL.VariableDefinition) :
    failureOf (variablesType schema document vs) =
      firstFailure? schema fragments
        (vs.map fun v => .variableType v.name v.type.baseName document) := by
  have members : ∀ vs, failureOf (variableMembers schema document vs) =
      firstFailure? schema fragments
        (vs.map fun v => .variableType v.name v.type.baseName document) := by
    intro vs
    induction vs with
    | nil => rfl
    | cons v rest ih =>
      rw [variableMembers, variableMember, List.map_cons, firstFailure?_cons, Check.failure?, ← ih]
      cases schema.find? v.type.baseName with
      | none => rfl
      | some type =>
        dsimp only
        cases variableMembers schema document rest <;> rfl
  cases vs with
  | nil => rfl
  | cons v rest =>
    rw [variablesType, ← members]
    · cases variableMembers schema document (v :: rest) <;> rfl
    · exact List.cons_ne_nil _ _

theorem failureOf_selectionDraft (context : Context) (document : String) (scope : SchemaType)
    (selections : List Selection) :
    failureOf (selectionDraft context document scope selections) =
      firstFailure? context.schema context.fragments
        (selectionChecks context document (some scope) selections) :=
  failureOf_addSelections (failsBy_spreadIn context.masking) selections (some scope) false {}

/-- **A definition fails by its first check in vain.** -/
theorem failureOf_ofDefinition (context : Context) (d : Definition) :
    failureOf (ofDefinition context d) =
      firstFailure? context.schema context.fragments (definitionChecks context d) := by
  cases d with
  | operation o =>
    rw [ofDefinition, ofOperation, definitionChecks, firstFailure?_cons, Check.failure?]
    cases o.name with
    | none => rfl
    | some name =>
      dsimp only
      rw [firstFailure?_cons, Check.failure?, firstFailure?_append, ← failureOf_variablesType]
      cases context.schema.root? o.kind with
      | none => rfl
      | some root =>
        dsimp only
        rw [← failureOf_selectionDraft]
        cases variablesType context.schema name o.variableDefinitions with
        | error e => rfl
        | ok inputs => cases selectionDraft context name root o.selections <;> rfl
  | fragment f =>
    rw [ofDefinition, ofFragment, definitionChecks, firstFailure?_cons, Check.failure?]
    cases context.schema.find? f.condition with
    | none => rfl
    | some scope =>
      dsimp only
      rw [← failureOf_selectionDraft]
      cases selectionDraft context f.name scope f.selections <;> rfl
  | _ => rfl

/-! ### Which checks there are -/

/-- What holds of all checks, apart from those of the depth of spreads and of names, as long as
something holds of the types that fields are selected on. -/
structure ChecksOnly (schema : Schema) (fits : Option SchemaType → Prop) (P : Check → Prop) :
    Prop where
  /-- Types of the schema fit. -/
  type {type : SchemaType} : type ∈ schema.types → fits (some type)
  /-- The types of fields fit. -/
  below {scope : Option SchemaType} {name : String} {type : GraphQL.TypeRef} :
    fits scope → selectedType? scope name = some type → fits (schema.find? type.baseName)
  /-- It holds of the fields of types that fit. -/
  field {scope : Option SchemaType} (name document : String) :
    fits scope → P (.field scope name document)
  /-- It holds of all other checks. -/
  other (check : Check) : (∀ scope name document, check ≠ .field scope name document) →
    (∀ name document, check ≠ .depth name document) →
    (∀ seen names, check ≠ .fresh seen names) → P check

namespace ChecksOnly

variable {context : Context} {fits : Option SchemaType → Prop} {P : Check → Prop} {check : Check}
  {name : String}

mutual

theorem of_mem_checks (only : ChecksOnly schema fits P) : ∀ (s : Selection)
    {scope : Option SchemaType}, fits scope →
      (∀ name ∈ s.spreads, ∀ check ∈ inside name, P check) →
      check ∈ checks schema document inside scope s → P check
  | .field _ name _ _ none, scope, hfits, _, h => by
    rw [checks] at h
    split at h
    · cases h
    · rw [List.mem_singleton.1 h]
      exact only.field name document hfits
  | .field _ name _ _ (some selections), scope, hfits, spreads, h => by
    rw [checks] at h
    rw [Selection.spreads] at spreads
    split at h
    · cases h
    rcases List.mem_cons.1 h with rfl | h
    · exact only.field name document hfits
    · split at h
      · cases h
      · next htype => exact of_mem_checksInAll only selections (only.below hfits htype) spreads h
  | .spread name _, scope, _, spreads, h => by
    rw [checks] at h
    rw [Selection.spreads] at spreads
    exact spreads name (List.mem_singleton_self _) check h
  | .inlineFragment none _ selections, scope, hfits, spreads, h => by
    rw [checks] at h
    rw [Selection.spreads] at spreads
    exact of_mem_checksInAll only selections hfits spreads h
  | .inlineFragment (some condition) _ selections, scope, _, spreads, h => by
    rw [checks] at h
    rw [Selection.spreads] at spreads
    rcases List.mem_cons.1 h with rfl | h
    · exact only.other _ nofun nofun nofun
    · split at h
      · cases h
      · next htype =>
        have fits := only.type (Schema.mem_of_find? htype)
        exact of_mem_checksInAll only selections fits spreads h

theorem of_mem_checksInAll (only : ChecksOnly schema fits P) : ∀ (selections : List Selection)
    {scope : Option SchemaType}, fits scope →
      (∀ name ∈ Selection.spreadsInAll selections, ∀ check ∈ inside name, P check) →
      check ∈ checksInAll schema document inside scope selections → P check
  | [], _, _, _, h => by
    rw [checksInAll] at h
    cases h
  | s :: rest, scope, hfits, spreads, h => by
    rw [checksInAll] at h
    rw [Selection.spreadsInAll] at spreads
    rcases List.mem_append.1 h with h | h
    · exact of_mem_checks only s hfits (fun name hn => spreads name (List.mem_append_left _ hn)) h
    · exact of_mem_checksInAll only rest hfits
        (fun name hn => spreads name (List.mem_append_right _ hn)) h

end

/-- The depth of spreads is not checked where chains of spreads end before. The induction is on how
many more spreads may be opened on the way. -/
theorem of_mem_openChecks (only : ChecksOnly schema fits P)
    (conditions : ∀ f ∈ fragments, fits (schema.find? f.condition)) {depth : Nat} :
    ∀ {names : List String},
      ChainsEnd fragments depth names ∨ (∀ name document, P (.depth name document)) →
      ∀ name ∈ names, ∀ check ∈ openChecks schema document fragments depth name, P check := by
  induction depth with
  | zero =>
    intro names ends name hn check h
    rw [openChecks] at h
    rcases List.mem_cons.1 h with rfl | h
    · exact only.other _ nofun nofun nofun
    · split at h
      · cases h
      · next fragment hfragment =>
        rw [List.mem_singleton.1 h]
        refine ends.elim (fun ends => ?_) fun deep => deep name document
        cases hfragment.symm.trans (ends name hn)
  | succ depth ih =>
    intro names ends name hn check h
    rw [openChecks] at h
    rcases List.mem_cons.1 h with rfl | h
    · exact only.other _ nofun nofun nofun
    · split at h
      · cases h
      · next fragment hfragment =>
        exact only.of_mem_checksInAll fragment.selections
          (conditions fragment (mem_of_findFragment? hfragment).1)
          (ih (ends.imp_left fun ends => ends name hn fragment hfragment)) h

/-- What has to hold if spreads are opened: the types of fragments fit, and spreads make no cycle
unless it holds of the checks of their depth. -/
def Opens (schema : Schema) (fragments : List Fragment) (fits : Option SchemaType → Prop)
    (P : Check → Prop) : Prop :=
  (∀ f ∈ fragments, fits (schema.find? f.condition)) ∧
    (Acyclic fragments ∨ ∀ name document, P (.depth name document))

/-- Spreads are checked as far as the fragments that they open are, unless they are masked. -/
theorem of_mem_spreadChecks (only : ChecksOnly schema fits P) {masking : Bool}
    (opened : masking = false → Opens schema fragments fits P)
    (h : check ∈ spreadChecks schema masking fragments document name) : P check := by
  unfold spreadChecks at h
  split at h
  · cases h
  · next unmasked =>
    obtain ⟨conditions, ends⟩ := opened (Bool.not_eq_true _ ▸ unmasked)
    exact only.of_mem_openChecks conditions
      (ends.imp_left fun acyclic => chainsEnd_of_acyclic acyclic [name]) name
      (List.mem_singleton_self name) check h

theorem of_mem_selectionChecks (only : ChecksOnly context.schema fits P)
    (opened : context.masking = false → Opens context.schema context.fragments fits P)
    (known : ∀ type, scope = some type → type ∈ context.schema.types) {selections : List Selection}
    (h : check ∈ selectionChecks context document scope selections) : P check := by
  cases scope with
  | none => cases h
  | some type =>
    exact only.of_mem_checksInAll selections (only.type (known type rfl))
      (fun _ _ _ hc => only.of_mem_spreadChecks opened hc) h

/-- **What holds of all checks of a definition.** -/
theorem of_mem_definitionChecks (only : ChecksOnly context.schema fits P)
    (opened : context.masking = false → Opens context.schema context.fragments fits P)
    {d : Definition}
    (h : check ∈ definitionChecks context d) : P check := by
  cases d with
  | operation o =>
    rw [definitionChecks] at h
    rcases List.mem_cons.1 h with rfl | h
    · exact only.other _ nofun nofun nofun
    split at h
    · cases h
    rcases List.mem_cons.1 h with rfl | h
    · exact only.other _ nofun nofun nofun
    rcases List.mem_append.1 h with h | h
    · obtain ⟨v, -, rfl⟩ := List.mem_map.1 h
      exact only.other _ nofun nofun nofun
    · refine only.of_mem_selectionChecks opened (fun type hroot => ?_) h
      obtain ⟨name, -, htype⟩ := Option.bind_eq_some_iff.1 hroot
      exact Schema.mem_of_find? htype
  | fragment f =>
    rw [definitionChecks] at h
    rcases List.mem_cons.1 h with rfl | h
    · exact only.other _ nofun nofun nofun
    · exact only.of_mem_selectionChecks opened (fun type htype => Schema.mem_of_find? htype) h
  | _ => cases h

end ChecksOnly

end Shape

end QueryTypes
