import QueryTypes.Proofs.Shape.Inlining
import QueryTypes.Proofs.Shape.Occurrences

/-!
# What holds of every draft

A draft grows in few ways: by the name of a type, by a leaf, by an object type that is a finished
draft itself, or by the mark of a fragment. What holds of the empty draft and is kept by each of
these (`QueryTypes.Shape.IsInvariant`) holds of the draft of every selection set, masked or not
(`QueryTypes.Shape.IsInvariant.selectionDraft`). A property may rest on what the types of leaves
are, and these are read off the definitions as they are written (`QueryTypes.Shape.leafTypes`):
opening a spread leads to the leaves of its fragment, and to no others.
-/

namespace QueryTypes

namespace Shape

open GraphQL (Definition Fragment Selection TypeRef)
open TypeScript (Member TypeExpr)

/-! ### Leaves of selections -/

/-- The type of a field, if it is selected where it has one. The name of a type is no such field. -/
def selectedType? (scope : Option SchemaType) (name : String) : Option TypeRef :=
  if name = "__typename" then none else scope.bind fun t => t.field? name

mutual

/-- The named types of the fields without a selection set that a selection selects, apart from what
it selects by spreads. -/
def leafTypes (schema : Schema) (scope : Option SchemaType) : Selection → List String
  | .field _ name _ _ none => ((selectedType? scope name).map TypeRef.baseName).toList
  | .field _ name _ _ (some selections) => match selectedType? scope name with
    | none => []
    | some type => leafTypesInAll schema (schema.find? type.baseName) selections
  | .spread _ _ => []
  | .inlineFragment none _ selections => leafTypesInAll schema scope selections
  | .inlineFragment (some condition) _ selections =>
    leafTypesInAll schema (schema.find? condition) selections

/-- The named types of the fields without a selection set that some selections select. -/
def leafTypesInAll (schema : Schema) (scope : Option SchemaType) : List Selection → List String
  | [] => []
  | selection :: rest => leafTypes schema scope selection ++ leafTypesInAll schema scope rest

end

/-- The type that a definition selects from. -/
def scopeOf? (schema : Schema) : Definition → Option SchemaType
  | .operation o => schema.root? o.kind
  | .fragment f => schema.find? f.condition
  | _ => none

/-- **The named types of the fields without a selection set** that a definition selects. -/
def leafTypesOf (schema : Schema) (d : Definition) : List String :=
  leafTypesInAll schema (scopeOf? schema d) d.selections

/-! ### Growing drafts -/

theorem mem_insertMember {member m : Member} {members : List Member}
    (h : m ∈ insertMember member members) : m = member ∨ m ∈ members := by
  induction members with
  | nil => exact Or.inl (List.mem_singleton.1 h)
  | cons old rest ih =>
    rw [insertMember] at h
    split at h
    · rcases List.mem_cons.1 h with rfl | h
      · split
        · exact Or.inl rfl
        · exact Or.inr (List.mem_cons_self ..)
      · exact Or.inr (List.mem_cons_of_mem _ h)
    · rcases List.mem_cons.1 h with rfl | h
      · exact Or.inr (List.mem_cons_self ..)
      · exact (ih h).imp_right (List.mem_cons_of_mem _)

theorem mem_enums_addEnums_iff {draft : Draft} {enums : List String} {name : String} :
    name ∈ (draft.addEnums enums).enums ↔ name ∈ draft.enums ∨ name ∈ enums := by
  rw [Draft.addEnums]
  induction enums generalizing draft with
  | nil => simp
  | cons enum rest ih =>
    have one : name ∈ (draft.addEnum enum).enums ↔ name ∈ draft.enums ∨ name = enum := by
      unfold Draft.addEnum
      split
      · next h => exact ⟨Or.inl, fun hn => hn.elim id fun hn => hn ▸ h⟩
      · simp
    rw [List.foldl_cons, ih, one, List.mem_cons, or_assoc]

theorem addFragment_eq (draft : Draft) (name : String) :
    (draft.addFragment name).members = draft.members ∧
      (draft.addFragment name).enums = draft.enums := by
  unfold Draft.addFragment
  split <;> exact ⟨rfl, rfl⟩

/-! ### Invariants -/

/-- A property of drafts that the empty draft has and every step keeps, as long as leaves are of
certain types. -/
structure IsInvariant (schema : Schema) (isLeaf : String → Prop) (P : Draft → Prop) : Prop where
  /-- The empty draft has it. -/
  empty : P {}
  /-- The member for the name of a type keeps it. -/
  typename {draft : Draft} (key : String) (scope : Option SchemaType) (optional : Bool) :
    P draft → P (draft.addMember (.mk key (typenameType scope) optional false))
  /-- The member for a leaf keeps it. -/
  leaf {draft : Draft} (key : String) (type : TypeRef) (optional : Bool) :
    isLeaf type.baseName → P draft →
      P ((draft.addMember
        (.mk key (typeOf (leaf schema type.baseName) type) optional false)).addEnums
          (leafEnums schema type.baseName))
  /-- The member for an object type of which it holds keeps it. -/
  object {draft below : Draft} (key : String) (type : TypeRef) (optional : Bool) :
    P below → P draft →
      P ((draft.addMember (.mk key (typeOf below.toType type) optional false)).addEnums below.enums)
  /-- The mark of a fragment keeps it. -/
  masked {draft : Draft} (name : String) : P draft → P (draft.addFragment name)

/-- Spreads keep a property of drafts. -/
def Keeps (P : Draft → Prop) (spread : SpreadRule) : Prop :=
  ∀ ⦃scope : Option SchemaType⦄ ⦃optional : Bool⦄ ⦃draft next : Draft⦄ ⦃name : String⦄,
    spread scope optional draft name = .ok next → P draft → P next

section Invariants

variable {schema : Schema} {isLeaf : String → Prop} {P : Draft → Prop} {document : String}
  {spread : SpreadRule} {fragments : List Fragment}

/-- A field that has a type where it is selected is not the name of a type. -/
theorem selectedType?_of_fieldType {scope : Option SchemaType} {name : String} {type : TypeRef}
    (hname : name ≠ "__typename") (h : fieldType document scope name = .ok type) :
    selectedType? scope name = some type := by
  rw [selectedType?, if_neg hname, scope_of_fieldType h]

namespace IsInvariant

mutual

theorem addSelection (inv : IsInvariant schema isLeaf P) (hs : Keeps P spread) :
    ∀ (s : Selection) {scope : Option SchemaType} {optional : Bool} {draft next : Draft},
      (∀ name ∈ leafTypes schema scope s, isLeaf name) →
      Shape.addSelection schema document spread scope optional draft s = .ok next →
        P draft → P next
  | .field responseName name _ _ selections, scope, optional, draft, next, leaves, h, hp => by
    rw [Shape.addSelection] at h
    by_cases hname : name = "__typename"
    · rw [if_pos hname] at h
      cases h
      exact inv.typename _ scope optional hp
    rw [if_neg hname] at h
    cases hf : fieldType document scope name with
    | error e =>
      rw [hf] at h
      cases h
    | ok type =>
      rw [hf] at h
      have htype := selectedType?_of_fieldType hname hf
      cases selections with
      | none =>
        cases h
        rw [leafTypes, htype] at leaves
        exact inv.leaf _ type optional (leaves _ (List.mem_singleton_self _)) hp
      | some selections =>
        rw [leafTypes, htype] at leaves
        dsimp only at h leaves
        split at h
        · cases h
        next below hb =>
          cases h
          exact inv.object _ type optional (addSelections inv hs selections leaves hb inv.empty) hp
  | .spread name _, scope, optional, draft, next, _, h, hp => by
    rw [Shape.addSelection] at h
    exact hs h hp
  | .inlineFragment none _ selections, scope, optional, draft, next, leaves, h, hp => by
    rw [Shape.addSelection] at h
    rw [leafTypes] at leaves
    exact addSelections inv hs selections leaves h hp
  | .inlineFragment (some condition) _ selections, scope, optional, draft, next, leaves, h, hp => by
    rw [Shape.addSelection] at h
    rw [leafTypes] at leaves
    split at h
    · cases h
    next type htype =>
      rw [htype] at leaves
      exact addSelections inv hs selections leaves h hp

theorem addSelections (inv : IsInvariant schema isLeaf P) (hs : Keeps P spread) :
    ∀ (selections : List Selection) {scope : Option SchemaType} {optional : Bool}
      {draft next : Draft}, (∀ name ∈ leafTypesInAll schema scope selections, isLeaf name) →
      Shape.addSelections schema document spread scope optional draft selections = .ok next →
        P draft → P next
  | [], scope, optional, draft, next, _, h, hp => by
    cases h
    exact hp
  | s :: rest, scope, optional, draft, next, leaves, h, hp => by
    rw [Shape.addSelections] at h
    rw [leafTypesInAll] at leaves
    split at h
    · cases h
    next middle hmiddle =>
      have first := addSelection inv hs s (fun name hn => leaves name (List.mem_append_left _ hn))
        hmiddle hp
      exact addSelections inv hs rest (fun name hn => leaves name (List.mem_append_right _ hn)) h
        first

end

/-- A spread that is opened keeps what the selections of its fragment keep. The induction is on how
many more spreads may be opened on the way. -/
theorem openSpread (inv : IsInvariant schema isLeaf P)
    (leaves : ∀ f ∈ fragments, ∀ name ∈ leafTypesOf schema (.fragment f), isLeaf name)
    (depth : Nat) : Keeps P (Shape.openSpread schema document fragments depth) := by
  induction depth with
  | zero =>
    intro scope optional draft next name h
    rw [Shape.openSpread] at h
    split at h <;> cases h
  | succ depth ih =>
    intro scope optional draft next name h hp
    rw [Shape.openSpread] at h
    split at h
    · cases h
    next fragment hfragment =>
      have mem := (mem_of_findFragment? hfragment).1
      exact inv.addSelections ih fragment.selections (leaves fragment mem) h hp

theorem spreadIn (inv : IsInvariant schema isLeaf P)
    (leaves : ∀ f ∈ fragments, ∀ name ∈ leafTypesOf schema (.fragment f), isLeaf name)
    (masking : Bool) : Keeps P (Shape.spreadIn schema masking fragments document) := by
  unfold Shape.spreadIn
  split
  · intro scope optional draft next name h hp
    cases h
    exact inv.masked name hp
  · exact inv.openSpread leaves _

/-- **What every step keeps holds of the draft of every selection set**, provided that the leaves of
the selections and of all fragments are of the right types. -/
theorem selectionDraft (inv : IsInvariant schema isLeaf P) {masking : Bool}
    (leaves : ∀ f ∈ fragments, ∀ name ∈ leafTypesOf schema (.fragment f), isLeaf name)
    {scope : SchemaType} {selections : List Selection} {draft : Draft}
    (own : ∀ name ∈ leafTypesInAll schema (some scope) selections, isLeaf name)
    (h : Shape.selectionDraft ⟨schema, masking, fragments⟩ document scope selections =
      .ok draft) : P draft :=
  inv.addSelections (inv.spreadIn leaves masking) selections own h inv.empty

end IsInvariant

end Invariants

end Shape

end QueryTypes
