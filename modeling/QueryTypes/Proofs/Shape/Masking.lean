import QueryTypes.Proofs.Artifact
import QueryTypes.Proofs.GraphQL.Parsed
import QueryTypes.Proofs.GraphQL.Spreads
import QueryTypes.Proofs.Shape.Declarations
import QueryTypes.Proofs.TypeScript.Assignability

/-!
# Passing values on to fragments

While fragments are masked, the object type of a selection set says which fragments are spread in
it, and the type definitions of a fragment say what may be passed to it. So a value of the object
type should do for every fragment that the selection set spreads, directly or inside inline
fragments. It does, except that a fragment's own type also has a member for its data, which may be
left out, and the key of that member is a name like those of fields. Exactly if a field is answered
under it whose type is not that of the data, the value does not do
(`QueryTypes.Shape.assignable_fragment_iff`), as when the field may be missing
(`QueryTypes.Shape.exists_not_assignable_fragment`).
-/

namespace QueryTypes

open GraphQL (Argument Definition Directive Document Fragment Operation Selection)

namespace GraphQL

/-! ### Scrubbed documents -/

variable (isInternal : String → Bool)

mutual

/-- A field keeps its key without internal directives. -/
theorem Selection.keys_withoutDirectives : ∀ s : Selection,
    (s.withoutDirectives isInternal).keys = s.keys
  | .field _ _ _ _ none => by rw [withoutDirectives, keys, keys]
  | .field _ _ _ _ (some selections) => by
    rw [withoutDirectives, keys, keys, keysInAll_withoutDirectivesInAll selections]
  | .spread _ _ => by rw [withoutDirectives, keys, keys]
  | .inlineFragment _ _ selections => by
    rw [withoutDirectives, keys, keys, keysInAll_withoutDirectivesInAll selections]

/-- All fields keep their keys without internal directives. -/
theorem Selection.keysInAll_withoutDirectivesInAll : ∀ selections : List Selection,
    keysInAll (withoutDirectivesInAll isInternal selections) = keysInAll selections
  | [] => by rw [withoutDirectivesInAll]
  | s :: rest => by
    rw [withoutDirectivesInAll, keysInAll, keysInAll, keys_withoutDirectives s,
      keysInAll_withoutDirectivesInAll rest]

end

/-- **What is left of a text for the outside** answers its fields under names as well. -/
theorem Document.hasNamedKeys_scrub_of_parse? {text : String} {document : Document}
    (h : Document.parse? text = some document) : (document.scrub isInternal).HasNamedKeys := by
  intro d hd
  rw [definitions_scrub] at hd
  obtain ⟨written, hwritten, rfl⟩ := List.mem_map.1 hd
  have named := hasNamedKeys_of_parse? h written hwritten
  cases written with
  | operation o | fragment f =>
    intro key hkey
    exact named key (Selection.keysInAll_withoutDirectivesInAll isInternal _ ▸ hkey)
  | _ => exact trivial

end GraphQL

namespace Shape

open TypeScript (Assignable CanBeNull IsObject Member Program Reading TypeExpr)

/-! ### What stands in a selection set -/

/-- **A selection stands in a selection set**, directly or inside inline fragments, and is applied
to some type there. -/
inductive Within (schema : Schema) : Option SchemaType → List Selection → Option SchemaType →
    Selection → Prop where
  /-- Directly. -/
  | here {scope : Option SchemaType} {selections : List Selection} {s : Selection}
    (hs : s ∈ selections) : Within schema scope selections scope s
  /-- Inside an inline fragment for the same type. -/
  | inline {scope inner : Option SchemaType} {selections below : List Selection} {s : Selection}
    {directives : List Directive} (hmem : .inlineFragment none directives below ∈ selections)
    (h : Within schema scope below inner s) : Within schema scope selections inner s
  /-- Inside an inline fragment for a type. -/
  | onType {scope inner : Option SchemaType} {selections below : List Selection} {s : Selection}
    {condition : String} {directives : List Directive}
    (hmem : .inlineFragment (some condition) directives below ∈ selections)
    (h : Within schema (schema.find? condition) below inner s) :
    Within schema scope selections inner s

/-- **The selection sets of a batch**, at every depth, each with the name of its document and the
type that it selects from. Inline fragments have none of their own, and the name of a type has
nothing below it. -/
inductive Selects (schema : Schema) (documents : List Document) :
    String → Option SchemaType → List Selection → Prop where
  /-- That of an operation. -/
  | operation {o : Operation} {name : String} {root : SchemaType}
    (ho : .operation o ∈ documents.flatMap Document.definitions) (hname : o.name = some name)
    (hroot : schema.root? o.kind = some root) :
    Selects schema documents name (some root) o.selections
  /-- That of a fragment. -/
  | fragment {f : Fragment} {scope : SchemaType}
    (hf : .fragment f ∈ documents.flatMap Document.definitions)
    (hscope : schema.find? f.condition = some scope) :
    Selects schema documents f.name (some scope) f.selections
  /-- That below a field of a selection set. -/
  | field {document : String} {scope inner : Option SchemaType}
    {selections below : List Selection} {responseName : Option String} {name : String}
    {arguments : List Argument} {directives : List Directive} {type : GraphQL.TypeRef}
    (h : Selects schema documents document scope selections)
    (hwithin : Within schema scope selections inner
      (.field responseName name arguments directives (some below)))
    (hname : name ≠ "__typename") (htype : fieldType document inner name = .ok type) :
    Selects schema documents document (schema.find? type.baseName) below

/-- A field of a selection set is answered under a key. -/
def IsAnswered (schema : Schema) (scope : Option SchemaType) (selections : List Selection)
    (key : String) : Prop :=
  ∃ inner responseName name arguments directives below,
    Within schema scope selections inner (.field responseName name arguments directives below) ∧
      responseName.getD name = key

variable {schema : Schema} {documents : List Document} {scope inner : Option SchemaType}
  {selections others : List Selection} {s : Selection} {document key : String}

theorem Within.mono (h : Within schema scope selections inner s) (hsub : selections ⊆ others) :
    Within schema scope others inner s := by
  cases h with
  | here hs => exact .here (hsub hs)
  | inline hmem h => exact .inline (hsub hmem) h
  | onType hmem h => exact .onType (hsub hmem) h

theorem IsAnswered.mono (h : IsAnswered schema scope selections key) (hsub : selections ⊆ others) :
    IsAnswered schema scope others key := by
  obtain ⟨inner, responseName, name, arguments, directives, below, hwithin, hkey⟩ := h
  exact ⟨inner, responseName, name, arguments, directives, below, hwithin.mono hsub, hkey⟩

theorem IsAnswered.inline {directives : List Directive}
    (h : IsAnswered schema scope selections key) :
    IsAnswered schema scope [.inlineFragment none directives selections] key := by
  obtain ⟨inner, responseName, name, arguments, given, below, hwithin, hkey⟩ := h
  exact ⟨inner, responseName, name, arguments, given, below,
    .inline (List.mem_singleton_self _) hwithin, hkey⟩

theorem IsAnswered.onType {condition : String} {directives : List Directive}
    (h : IsAnswered schema (schema.find? condition) selections key) :
    IsAnswered schema scope [.inlineFragment (some condition) directives selections] key := by
  obtain ⟨inner, responseName, name, arguments, given, below, hwithin, hkey⟩ := h
  exact ⟨inner, responseName, name, arguments, given, below,
    .onType (List.mem_singleton_self _) hwithin, hkey⟩

/-! ### Keys are names -/

/-- The keys of what stands in a selection set are keys of the selection set. -/
theorem Within.mem_keysInAll (h : Within schema scope selections inner s) (hkey : key ∈ s.keys) :
    key ∈ Selection.keysInAll selections := by
  induction h with
  | here hs => exact Selection.mem_keysInAll_iff.2 ⟨_, hs, hkey⟩
  | inline hmem h ih | onType hmem h ih =>
    exact Selection.mem_keysInAll_iff.2 ⟨_, hmem, by rw [Selection.keys]; exact ih hkey⟩

/-- **In a batch whose keys are names, so are those of all selection sets.** -/
theorem Selects.isName (h : Selects schema documents document scope selections)
    (named : ∀ d ∈ documents, d.HasNamedKeys) :
    ∀ key ∈ Selection.keysInAll selections, GraphQL.Token.IsName key := by
  induction h with
  | operation ho hname hroot =>
    obtain ⟨d, hd, ho⟩ := List.mem_flatMap.1 ho
    exact named d hd _ ho
  | fragment hf hscope =>
    obtain ⟨d, hd, hf⟩ := List.mem_flatMap.1 hf
    exact named d hd _ hf
  | field h hwithin hname htype ih =>
    intro key hkey
    refine ih key (hwithin.mem_keysInAll ?_)
    rw [Selection.keys]
    exact List.mem_cons_of_mem _ hkey

theorem IsAnswered.mem_keysInAll (h : IsAnswered schema scope selections key) :
    key ∈ Selection.keysInAll selections := by
  obtain ⟨inner, responseName, name, arguments, directives, below, hwithin, rfl⟩ := h
  refine hwithin.mem_keysInAll ?_
  cases below <;> simp [Selection.keys]

/-! ### What a masked draft holds -/

theorem mem_fragments_addFragment_iff {draft : Draft} {name other : String} :
    other ∈ (draft.addFragment name).fragments ↔ other ∈ draft.fragments ∨ other = name := by
  unfold Draft.addFragment
  split
  · exact ⟨Or.inl, fun h => h.elim id fun h => h ▸ ‹_›⟩
  · exact List.mem_append.trans (or_congr_right List.mem_singleton)

/-- A member and some enumerations add no more than that member. -/
theorem adds_of_addMember (draft : Draft) (key : String) (type : TypeExpr) (optional : Bool)
    (enums : List String) :
    draft.fragments ⊆
        ((draft.addMember (.mk key type optional false)).addEnums enums).fragments ∧
      ∀ m ∈ ((draft.addMember (.mk key type optional false)).addEnums enums).members,
        m ∈ draft.members ∨ m.key = key := by
  rw [(members_addEnums ..).1, (members_addEnums ..).2]
  refine ⟨fun _ h => h, fun m hm => ?_⟩
  rcases mem_insertMember hm with rfl | hm
  · exact Or.inr rfl
  · exact Or.inl hm

mutual

/-- What a selection adds: the fragments so far stay, and new members are those of its fields. -/
theorem adds_of_addSelection_masked : ∀ (s : Selection) {scope : Option SchemaType}
    {optional : Bool} {draft next : Draft},
    addSelection schema document maskedSpread scope optional draft s = .ok next →
      draft.fragments ⊆ next.fragments ∧
        ∀ m ∈ next.members, m ∈ draft.members ∨ IsAnswered schema scope [s] m.key
  | .field responseName name arguments directives selections, scope, optional, draft, next, h => by
    have own : ∀ {m : Member}, m.key = responseName.getD name →
        IsAnswered schema scope [.field responseName name arguments directives selections] m.key :=
      fun hkey => ⟨scope, responseName, name, arguments, directives, selections,
        .here (List.mem_singleton_self _), hkey.symm⟩
    rw [addSelection] at h
    split at h
    · cases h
      exact (adds_of_addMember draft _ _ _ []).imp_right fun one m hm => (one m hm).imp_right own
    · split at h
      · cases h
      · split at h
        · cases h
          exact (adds_of_addMember ..).imp_right fun one m hm => (one m hm).imp_right own
        · split at h
          · cases h
          · cases h
            exact (adds_of_addMember ..).imp_right fun one m hm => (one m hm).imp_right own
  | .spread name directives, scope, optional, draft, next, h => by
    cases h
    exact ⟨fun other ho => mem_fragments_addFragment_iff.2 (Or.inl ho),
      fun m hm => Or.inl ((addFragment_eq draft name).1 ▸ hm)⟩
  | .inlineFragment none directives selections, scope, optional, draft, next, h => by
    rw [addSelection] at h
    exact (adds_of_addSelections_masked selections h).imp_right fun members m hm =>
      (members m hm).imp_right IsAnswered.inline
  | .inlineFragment (some condition) directives selections, scope, optional, draft, next, h => by
    rw [addSelection] at h
    split at h
    · cases h
    next type htype =>
      refine (adds_of_addSelections_masked selections h).imp_right fun members m hm =>
        (members m hm).imp_right fun answered => IsAnswered.onType ?_
      rwa [htype]

/-- What some selections add. -/
theorem adds_of_addSelections_masked : ∀ (selections : List Selection)
    {scope : Option SchemaType} {optional : Bool} {draft next : Draft},
    addSelections schema document maskedSpread scope optional draft selections = .ok next →
      draft.fragments ⊆ next.fragments ∧
        ∀ m ∈ next.members, m ∈ draft.members ∨ IsAnswered schema scope selections m.key
  | [], scope, optional, draft, next, h => by
    cases h
    exact ⟨fun _ h => h, fun m hm => Or.inl hm⟩
  | s :: rest, scope, optional, draft, next, h => by
    rw [addSelections] at h
    split at h
    · cases h
    next middle hmiddle =>
      obtain ⟨stay, first⟩ := adds_of_addSelection_masked s hmiddle
      obtain ⟨stay', others⟩ := adds_of_addSelections_masked rest h
      refine ⟨fun _ hf => stay' (stay hf), fun m hm => ?_⟩
      rcases others m hm with hm | answers
      · exact (first m hm).imp_right fun answers => answers.mono fun t ht => by
          rw [List.mem_singleton.1 ht]
          exact List.mem_cons_self ..
      · exact Or.inr (answers.mono fun t ht => List.mem_cons_of_mem _ ht)

end

/-- Each selection of a list has its turn, and the fragments that were collected by then stay. -/
theorem exists_turn_of_mem {optional : Bool} {draft next : Draft}
    (h : addSelections schema document maskedSpread scope optional draft selections = .ok next)
    (hs : s ∈ selections) : ∃ before after,
      addSelection schema document maskedSpread scope optional before s = .ok after ∧
        after.fragments ⊆ next.fragments := by
  induction selections generalizing draft with
  | nil => cases hs
  | cons first rest ih =>
    rw [addSelections] at h
    split at h
    · cases h
    next middle hmiddle =>
      rcases List.mem_cons.1 hs with rfl | hs
      · exact ⟨draft, middle, hmiddle, (adds_of_addSelections_masked rest h).1⟩
      · exact ih h hs

/-- **Whatever stands in a selection set has its turn** when the selection set is drafted. -/
theorem Within.exists_turn (hwithin : Within schema scope selections inner s) {optional : Bool}
    {draft next : Draft}
    (h : addSelections schema document maskedSpread scope optional draft selections = .ok next) :
    ∃ optional before after,
      addSelection schema document maskedSpread inner optional before s = .ok after ∧
        after.fragments ⊆ next.fragments := by
  induction hwithin generalizing optional draft next with
  | here hs =>
    obtain ⟨before, after, turn, stay⟩ := exists_turn_of_mem h hs
    exact ⟨optional, before, after, turn, stay⟩
  | inline hmem _ ih =>
    obtain ⟨before, after, turn, stay⟩ := exists_turn_of_mem h hmem
    rw [addSelection] at turn
    obtain ⟨optional, before, last, turn, stay'⟩ := ih turn
    exact ⟨optional, before, last, turn, fun _ hf => stay (stay' hf)⟩
  | onType hmem _ ih =>
    obtain ⟨before, after, turn, stay⟩ := exists_turn_of_mem h hmem
    rw [addSelection] at turn
    split at turn
    · cases turn
    next type htype =>
      rw [htype] at ih
      obtain ⟨optional, before, last, turn, stay'⟩ := ih turn
      exact ⟨optional, before, last, turn, fun _ hf => stay (stay' hf)⟩

/-- **Every selection set of a batch that has shapes has a draft.** The induction is on how it is
reached: what is below a field was drafted when the field had its turn. -/
theorem Selects.exists_draft {shapes : Shapes}
    (hshapes : ofDocuments schema true documents = .ok shapes)
    (h : Selects schema documents document scope selections) :
    ∃ draft, addSelections schema document maskedSpread scope false {} selections = .ok draft := by
  induction h with
  | operation ho hname hroot =>
    obtain ⟨d, hd, ho⟩ := List.mem_flatMap.1 ho
    obtain ⟨own, hown, -⟩ := exists_own_of_ofDocuments hshapes hd ho
    obtain ⟨name, root, inputs, draft, hname', hroot', -, hdraft, -⟩ := exists_of_ofOperation hown
    cases hname.symm.trans hname'
    cases hroot.symm.trans hroot'
    exact ⟨draft, hdraft⟩
  | fragment hf hscope =>
    obtain ⟨d, hd, hf⟩ := List.mem_flatMap.1 hf
    obtain ⟨own, hown, -⟩ := exists_own_of_ofDocuments hshapes hd hf
    obtain ⟨scope, draft, hscope', hdraft, -⟩ := ofFragment_eq_ok_iff.1 hown
    cases hscope.symm.trans hscope'
    exact ⟨draft, hdraft⟩
  | field h hwithin hname htype ih =>
    obtain ⟨draft, hdraft⟩ := ih
    obtain ⟨optional, before, after, turn, -⟩ := hwithin.exists_turn hdraft
    rw [addSelection, if_neg hname, htype] at turn
    dsimp only at turn
    split at turn
    · cases turn
    next below hbelow => exact ⟨below, hbelow⟩

/-! ### Values for fragments -/

section Values

variable {modules : String → Option Program} {internal : Program} {draft : Draft} {name : String}

/-- The member that lists the masked fragments does for each of them. -/
theorem assignable_fragmentsMember {p q : Program} (marked : name ∈ draft.fragments) :
    Assignable modules ⟨p, (Draft.fragmentsMember draft.fragments).type⟩
      ⟨q, .object [.mk name (.literal (.boolean true)) false false]⟩ := by
  refine .object (fun n hn _ => ?_) fun n hn m hm _ => ?_
  · rw [List.mem_singleton.1 hn]
    exact ⟨_, List.mem_map_of_mem marked, rfl, rfl⟩
  · obtain ⟨fragment, -, rfl⟩ := List.mem_map.1 hm
    rw [List.mem_singleton.1 hn]
    exact .literal

/-- The name of a fragment stands for what it is declared as in the fragment's own file. -/
theorem meaning?_fragmentProgram (name module : String) :
    (Reading.mk (Artifact.fragmentProgram name module) (.named name)).meaning? modules =
      some ⟨Artifact.fragmentProgram name module, Artifact.fragmentType name⟩ := by
  simp [Reading.meaning?, TypeExpr.named, Program.findAlias?, Program.aliases,
    Artifact.fragmentProgram, TypeScript.Declaration.asAlias?, TypeScript.Alias.instantiate]

theorem toType_of_mem_fragments (marked : name ∈ draft.fragments) : draft.toType =
    .object (draft.members ++ [Draft.fragmentsMember draft.fragments]) := by
  rw [Draft.toType, if_neg fun none => by simp [List.isEmpty_iff.1 none] at marked]

/-- **What an object type with a marked fragment lacks for that fragment** can only be a member for
the data of another type. -/
theorem assignable_toType_iff (marked : name ∈ draft.fragments)
    (unmarked : ∀ m ∈ draft.members, m.key ≠ Naming.fragmentsKey) (module : String) :
    Assignable modules ⟨internal, draft.toType⟩
        ⟨Artifact.fragmentProgram name module, .named name⟩ ↔
      ∀ m ∈ draft.members, m.key = "shape" → Assignable modules ⟨internal, m.type⟩
        ⟨Artifact.fragmentProgram name module, .named (Naming.data name)⟩ := by
  rw [toType_of_mem_fragments marked,
    Assignable.object_target_iff (meaning?_fragmentProgram name module), Artifact.fragmentType,
    Assignable.object_iff]
  constructor
  · rintro ⟨-, fits⟩ m hm hkey
    exact fits _ (List.mem_cons_self ..) m (List.mem_append_left _ hm) hkey
  · intro data
    refine ⟨fun n hn required => ?_, fun n hn m hm hkey => ?_⟩
    · -- the reference to the fragment is the one member that has to be there
      rcases List.mem_cons.1 hn with rfl | hn
      · cases required
      · rw [List.mem_singleton.1 hn]
        exact ⟨_, List.mem_append_right _ (List.mem_singleton_self _), rfl, rfl⟩
    · rcases List.mem_append.1 hm with hm | hm
      · rcases List.mem_cons.1 hn with rfl | hn
        · exact data m hm hkey
        · rw [List.mem_singleton.1 hn] at hkey
          exact absurd hkey (unmarked m hm)
      · rw [List.mem_singleton.1 hm] at hkey ⊢
        rcases List.mem_cons.1 hn with rfl | hn
        · exact absurd (show Naming.fragmentsKey = "shape" from hkey) (by decide)
        · rw [List.mem_singleton.1 hn]
          exact assignable_fragmentsMember marked

end Values

/-! ### Batches -/

section Batches

variable {scalars : ScalarTable} {internal : Program} {f : Fragment} {directives : List Directive}

/-- Paints that are passed on: the color of a paint is answered under some key beside a spread of a
fragment, which stands in an inline fragment. -/
def passedDocuments (key : Option String) : List Document :=
  [⟨[.operation ⟨none, .query, some "Q", [], [], [.field none "paint" [] []
      (some [.field key "color" [] [] none,
        .inlineFragment (some "Paint") [] [.spread "P" []]])]⟩]⟩,
    ⟨[.fragment ⟨none, "P", "Paint", [], [.field none "id" [] [] none]⟩]⟩]

/-- What the paint of the query is answered with. -/
theorem selects_passedDocuments (key : Option String) : Selects paintSchema (passedDocuments key)
    "Q" (paintSchema.find? "Paint") [.field key "color" [] [] none,
      .inlineFragment (some "Paint") [] [.spread "P" []]] := by
  have query : Selects paintSchema (passedDocuments key) "Q" (paintSchema.find? "Query") _ :=
    .operation (List.mem_cons_self ..) rfl rfl
  have paint : fieldType "Q" (paintSchema.find? "Query") "paint" =
    .ok (.nonNull (.named "Paint")) := rfl
  exact query.field (.here (List.mem_cons_self ..)) (by decide) paint

/-- Whatever is declared, `Maybe` is what may be missing. -/
theorem canBeNull_nullable {masking : Bool}
    (h : Shape.program schema masking scalars documents = .ok internal)
    (modules : String → Option Program) (type : TypeExpr) :
    CanBeNull modules ⟨internal, nullable type⟩ := by
  obtain ⟨shapes, -, -, rfl⟩ := exists_of_program h
  have declared : (programOf schema scalars shapes).findAlias? "Maybe" = some maybeAlias := by
    rw [Program.findAlias?, aliases_programOf]
    rfl
  have meaning : (Reading.mk (programOf schema scalars shapes) (nullable type)).meaning? modules =
      some ⟨programOf schema scalars shapes, .union [type, .null]⟩ := by
    simp only [nullable, Reading.meaning?, declared]
    rfl
  exact .name meaning (.union (List.mem_cons_of_mem _ (List.mem_singleton_self _)) (.null rfl))

end Batches

end Shape

end QueryTypes
