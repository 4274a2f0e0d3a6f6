import Mathlib.Data.List.Induction
import Mathlib.Data.List.Nodup
import Mathlib.Data.Option.Basic
import QueryTypes.Shape.Batch

/-!
# Occurrences of fields

A selection set selects fields, directly and through fragments. Its *occurrences*
(`QueryTypes.Shape.occurrencesOf`) are these fields from first to last, each with what stands
around it: the type it is selected on, the type conditions and directives on the way, and whether
some condition on the way changes the type, which makes the member optional.

An object type has a member for each key that occurs, and the member of a key is made from one
occurrence only, the first that is not optional, or else the first
(`QueryTypes.Shape.firstKept`). So the type of a selection set that has one is read off its
occurrences (`QueryTypes.Shape.exists_typedAll_of_selectionDraft`).
-/

namespace QueryTypes

namespace Shape

open GraphQL (Directive Fragment Selection TypeRef)
open TypeScript (Member TypeExpr)

/-! ### Occurrences -/

/-- What stands around a field. -/
structure Surrounding where
  /-- The type the field is selected on. -/
  scope : Option SchemaType
  /-- Whether members are optional there. -/
  optional : Bool := false
  /-- The type conditions on the way. -/
  conditions : List String := []
  /-- The directives on the way. -/
  guards : List Directive := []

namespace Surrounding

/-- Inside something with these directives. -/
def guard (around : Surrounding) (directives : List Directive) : Surrounding :=
  { around with guards := around.guards ++ directives }

/-- Inside a fragment on a type. -/
def enter (around : Surrounding) (condition : String) (inner : Option SchemaType) :
    Surrounding :=
  { around with
    scope := inner
    optional := optionalInside around.optional around.scope inner
    conditions := around.conditions ++ [condition] }

end Surrounding

/-- A field as it occurs in a selection set. -/
structure Occurrence where
  /-- The key under which the field is answered. -/
  key : String
  /-- The name of the field. -/
  name : String
  /-- What is selected below the field. -/
  selections : Option (List Selection)
  /-- What stands around the field, its own directives included. -/
  around : Surrounding

/-- Whether the member for an occurrence is optional. -/
def Occurrence.isOptional (o : Occurrence) : Bool := o.around.optional

mutual

/-- The occurrences in a selection, given those behind a spread. -/
def occurrencesIn (schema : Schema) (spread : Surrounding → String → List Occurrence)
    (around : Surrounding) : Selection → List Occurrence
  | .field responseName name _ directives selections =>
    [⟨responseName.getD name, name, selections, around.guard directives⟩]
  | .spread fragment directives => spread (around.guard directives) fragment
  | .inlineFragment none directives selections =>
    occurrencesInAll schema spread (around.guard directives) selections
  | .inlineFragment (some condition) directives selections =>
    occurrencesInAll schema spread
      ((around.guard directives).enter condition (schema.find? condition)) selections

/-- The occurrences in some selections, in order. -/
def occurrencesInAll (schema : Schema) (spread : Surrounding → String → List Occurrence)
    (around : Surrounding) : List Selection → List Occurrence
  | [] => []
  | selection :: rest =>
    occurrencesIn schema spread around selection ++ occurrencesInAll schema spread around rest

end

/-- The occurrences behind a spread, as far as a chain of so many spreads leads. -/
def spreadOccurrences (schema : Schema) (fragments : List Fragment) :
    Nat → Surrounding → String → List Occurrence
  | 0, _, _ => []
  | depth + 1, around, name => match findFragment? fragments name with
    | none => []
    | some fragment =>
      occurrencesInAll schema (spreadOccurrences schema fragments depth)
        (around.enter fragment.condition (schema.find? fragment.condition)) fragment.selections

/-- **The occurrences in the selections on a type.** If no fragment spreads itself, no chain of
spreads is longer than the list of fragments. -/
def occurrencesOf (schema : Schema) (fragments : List Fragment) (scope : Option SchemaType)
    (selections : List Selection) : List Occurrence :=
  occurrencesInAll schema (spreadOccurrences schema fragments fragments.length) { scope := scope }
    selections

namespace Occurrence

/-- The type of the field that names the type of its object. -/
def typenameRef : TypeRef := .nonNull (.named "String")

/-- The type of the field that occurs. -/
def type? (o : Occurrence) : Option TypeRef :=
  if o.name = "__typename" then some typenameRef
  else o.around.scope.bind fun scope => scope.field? o.name

/-- The occurrences below a field. -/
def below (schema : Schema) (fragments : List Fragment) (o : Occurrence) : List Occurrence :=
  match o.selections with
  | none => []
  | some selections =>
    occurrencesOf schema fragments (o.type?.bind fun type => schema.find? type.baseName) selections

end Occurrence

/-! ### What stands around occurrences -/

/-- Something holds inside directives and type conditions if it holds around them. -/
structure Surrounding.Preserves (schema : Schema) (P : Surrounding → Prop) : Prop where
  /-- It holds inside directives. -/
  guard : ∀ around directives, P around → P (around.guard directives)
  /-- It holds inside a type condition. -/
  enter : ∀ around condition, P around → P (around.enter condition (schema.find? condition))

section Around

variable {schema : Schema} {P : Surrounding → Prop}
  {spread : Surrounding → String → List Occurrence}

mutual

theorem of_mem_occurrencesIn (hp : Surrounding.Preserves schema P)
    (hs : ∀ around, P around → ∀ name, ∀ o ∈ spread around name, P o.around) :
    ∀ (s : Selection) (around : Surrounding), P around →
      ∀ o ∈ occurrencesIn schema spread around s, P o.around
  | .field _ _ _ directives _, around, ha, o, ho => by
    rw [occurrencesIn] at ho
    rw [List.mem_singleton.1 ho]
    exact hp.guard around directives ha
  | .spread name directives, around, ha, o, ho => by
    rw [occurrencesIn] at ho
    exact hs _ (hp.guard around directives ha) name o ho
  | .inlineFragment none directives selections, around, ha, o, ho => by
    rw [occurrencesIn] at ho
    exact of_mem_occurrencesInAll hp hs selections _ (hp.guard around directives ha) o ho
  | .inlineFragment (some condition) directives selections, around, ha, o, ho => by
    rw [occurrencesIn] at ho
    exact of_mem_occurrencesInAll hp hs selections _
      (hp.enter _ condition (hp.guard around directives ha)) o ho

theorem of_mem_occurrencesInAll (hp : Surrounding.Preserves schema P)
    (hs : ∀ around, P around → ∀ name, ∀ o ∈ spread around name, P o.around) :
    ∀ (selections : List Selection) (around : Surrounding), P around →
      ∀ o ∈ occurrencesInAll schema spread around selections, P o.around
  | [], _, _, o, ho => by
    rw [occurrencesInAll] at ho
    cases ho
  | s :: rest, around, ha, o, ho => by
    rw [occurrencesInAll, List.mem_append] at ho
    rcases ho with ho | ho
    · exact of_mem_occurrencesIn hp hs s around ha o ho
    · exact of_mem_occurrencesInAll hp hs rest around ha o ho

end

theorem of_mem_spreadOccurrences (hp : Surrounding.Preserves schema P)
    (fragments : List Fragment) (depth : Nat) :
    ∀ around, P around → ∀ name, ∀ o ∈ spreadOccurrences schema fragments depth around name,
      P o.around := by
  induction depth with
  | zero =>
    intro around _ name o ho
    cases ho
  | succ depth ih =>
    intro around ha name o ho
    rw [spreadOccurrences] at ho
    split at ho
    · cases ho
    next fragment _ =>
      exact of_mem_occurrencesInAll hp ih _ _ (hp.enter around fragment.condition ha) o ho

/-- **What directives and type conditions preserve holds around every occurrence.** -/
theorem of_mem_occurrencesOf (hp : Surrounding.Preserves schema P) {fragments : List Fragment}
    {scope : Option SchemaType} {selections : List Selection} (hstart : P { scope := scope }) :
    ∀ o ∈ occurrencesOf schema fragments scope selections, P o.around :=
  of_mem_occurrencesInAll hp (of_mem_spreadOccurrences hp fragments fragments.length) selections _
    hstart

end Around

section Scopes

variable {schema : Schema} {fragments : List Fragment} {selections : List Selection}
  {o : Occurrence}

/-- The type around a field is the one that the selections start from, or that of a type
condition on the way. -/
theorem scope_of_mem_occurrencesOf {scope : Option SchemaType}
    (ho : o ∈ occurrencesOf schema fragments scope selections) :
    o.around.scope = scope ∨
      ∃ condition ∈ o.around.conditions, o.around.scope = schema.find? condition := by
  refine of_mem_occurrencesOf
    (P := fun around => around.scope = scope ∨
      ∃ condition ∈ around.conditions, around.scope = schema.find? condition)
    ⟨fun _ _ h => h, fun around condition _ => ?_⟩ (Or.inl rfl) o ho
  exact Or.inr ⟨condition, List.mem_append_right _ (List.mem_singleton_self _), rfl⟩

/-- A member is required only if every type condition on the way names the type that the
selections start from. -/
theorem conditions_of_required {q : SchemaType}
    (ho : o ∈ occurrencesOf schema fragments (some q) selections)
    (required : o.isOptional = false) : ∀ condition ∈ o.around.conditions, condition = q.name := by
  have h := of_mem_occurrencesOf
    (P := fun around => around.optional = false →
      scopeName around.scope = some q.name ∧ ∀ condition ∈ around.conditions, condition = q.name)
    ⟨fun _ _ h => h, fun around condition h hoptional => ?_⟩
    (fun _ => ⟨rfl, fun _ hc => nomatch hc⟩) o ho
  · exact (h required).2
  · obtain ⟨before, same⟩ : around.optional = false ∧
        scopeName (schema.find? condition) = scopeName around.scope := by
      simpa [Surrounding.enter, optionalInside] using hoptional
    obtain ⟨hscope, hall⟩ := h before
    have found : scopeName (schema.find? condition) = some q.name := same.trans hscope
    refine ⟨found, fun c hc => ?_⟩
    rcases List.mem_append.1 hc with hc | hc
    · exact hall c hc
    · rw [List.mem_singleton.1 hc]
      obtain ⟨t, ht, hname⟩ := Option.map_eq_some_iff.1 found
      exact (Schema.name_of_find? ht).symm.trans hname

end Scopes

/-! ### The first that stays -/

/-- The first of some things that has a key and is not optional; if all that have the key are
optional, the first of them. -/
def firstKept {α : Type} (key : α → String) (isOptional : α → Bool) (xs : List α) (k : String) :
    Option α :=
  (xs.find? fun x => decide (key x = k) && !isOptional x).or
    (xs.find? fun x => decide (key x = k))

section FirstKept

variable {α : Type} {key : α → String} {isOptional : α → Bool} {xs : List α} {k : String}

theorem key_of_firstKept {x : α} (h : firstKept key isOptional xs k = some x) :
    key x = k ∧ x ∈ xs := by
  rcases Option.or_eq_some_iff.1 h with h | ⟨-, h⟩
  · have hx := List.find?_some h
    rw [Bool.and_eq_true, decide_eq_true_eq] at hx
    exact ⟨hx.1, List.mem_of_find?_eq_some h⟩
  · have hx := List.find?_some h
    rw [decide_eq_true_eq] at hx
    exact ⟨hx, List.mem_of_find?_eq_some h⟩

/-- What has a key leaves something that stays under it. -/
theorem exists_firstKept {x : α} (hx : x ∈ xs) :
    ∃ y, firstKept key isOptional xs (key x) = some y := by
  have some : (xs.find? fun y => decide (key y = key x)).isSome :=
    List.find?_isSome.2 ⟨x, hx, decide_eq_true rfl⟩
  obtain ⟨y, hy⟩ := Option.isSome_iff_exists.1 some
  unfold firstKept
  rw [hy]
  cases xs.find? _ with
  | none => exact ⟨y, rfl⟩
  | some z => exact ⟨z, rfl⟩

/-- What stays under a key is optional only if all that have the key are. -/
theorem isOptional_firstKept {x y : α} (hx : x ∈ xs) (required : isOptional x = false)
    (h : firstKept key isOptional xs (key x) = some y) : isOptional y = false := by
  rcases Option.or_eq_some_iff.1 h with h | ⟨hnone, -⟩
  · have hy := List.find?_some h
    rw [Bool.and_eq_true, Bool.not_eq_true'] at hy
    exact hy.2
  · have := List.find?_eq_none.1 hnone x hx
    simp [required] at this

/-- One more behind the others: it takes the place of what stays if that is optional and it is
not, and stays where nothing was. -/
theorem firstKept_concat (x : α) :
    firstKept key isOptional (xs ++ [x]) k =
      if key x = k then
        match firstKept key isOptional xs k with
        | none => some x
        | some y => if isOptional y && !isOptional x then some x else some y
      else firstKept key isOptional xs k := by
  unfold firstKept
  rw [List.find?_append, List.find?_append]
  by_cases hk : key x = k
  · rw [if_pos hk]
    cases hr : xs.find? fun y => decide (key y = k) && !isOptional y with
    | some y =>
      have hy := List.find?_some hr
      rw [Bool.and_eq_true, Bool.not_eq_true'] at hy
      simp [hy.2]
    | none =>
      cases ho : xs.find? fun y => decide (key y = k) with
      | none => cases hx : isOptional x <;> simp [hk, hx]
      | some y =>
        -- none of the others is required, so the one that stays may be left out
        have hy : isOptional y = true := by
          have := List.find?_eq_none.1 hr y (List.mem_of_find?_eq_some ho)
          have key := List.find?_some ho
          rw [decide_eq_true_eq] at key
          simpa [key] using this
        cases hx : isOptional x <;> simp [hk, hx, hy]
  · simp [hk]

end FirstKept

/-! ### Members -/

/-- The keys of an object type after one more member. -/
theorem map_key_insertMember (member : Member) (members : List Member) :
    (insertMember member members).map Member.key =
      if member.key ∈ members.map Member.key then members.map Member.key
      else members.map Member.key ++ [member.key] := by
  induction members with
  | nil => simp [insertMember]
  | cons old rest ih =>
    rw [insertMember]
    by_cases hk : old.key = member.key
    · have there : member.key ∈ (old :: rest).map Member.key := by
        rw [List.map_cons, hk]
        exact List.mem_cons_self ..
      rw [if_pos hk, if_pos there, List.map_cons, List.map_cons]
      split
      · rw [hk]
      · rfl
    · rw [if_neg hk, List.map_cons, ih, List.map_cons]
      simp only [List.mem_cons, Ne.symm hk, false_or]
      split <;> rfl

theorem find?_insertMember (member : Member) (members : List Member) (k : String) :
    (insertMember member members).find? (fun m => decide (m.key = k)) =
      if member.key = k then
        match members.find? fun m => decide (m.key = k) with
        | none => some member
        | some old => if old.isOptional && !member.isOptional then some member else some old
      else members.find? fun m => decide (m.key = k) := by
  induction members with
  | nil =>
    rw [insertMember]
    by_cases hk : member.key = k <;> simp [hk]
  | cons old rest ih =>
    rw [insertMember]
    by_cases hm : old.key = member.key
    · rw [if_pos hm]
      by_cases hk : member.key = k
      · have ho : old.key = k := hm.trans hk
        by_cases hc : (old.isOptional && !member.isOptional) = true <;> simp [hc, hk, ho]
      · have ho : old.key ≠ k := fun e => hk (hm.symm.trans e)
        by_cases hc : (old.isOptional && !member.isOptional) = true <;> simp [hc, hk, ho]
    · rw [if_neg hm]
      by_cases ho : old.key = k
      · have hk : member.key ≠ k := fun e => hm (ho.trans e.symm)
        simp [ho, hk]
      · simp [ho, ih]

/-- The members of an object type that some members are added to, one after another. -/
def mergeMembers (members : List Member) : List Member :=
  members.foldl (fun all member => insertMember member all) []

theorem mergeMembers_concat (members : List Member) (member : Member) :
    mergeMembers (members ++ [member]) = insertMember member (mergeMembers members) := by
  rw [mergeMembers, List.foldl_append]
  rfl

theorem nodup_keys_mergeMembers (members : List Member) :
    ((mergeMembers members).map Member.key).Nodup := by
  induction members using List.reverseRecOn with
  | nil => exact List.nodup_nil
  | append_singleton members member ih =>
    rw [mergeMembers_concat, map_key_insertMember]
    split
    · exact ih
    · next hnew =>
      rw [List.nodup_append]
      refine ⟨ih, List.nodup_singleton _, fun a ha b hb => ?_⟩
      rw [List.mem_singleton.1 hb]
      rintro rfl
      exact hnew ha

theorem find?_mergeMembers (members : List Member) (k : String) :
    (mergeMembers members).find? (fun m => decide (m.key = k)) =
      firstKept Member.key Member.isOptional members k := by
  induction members using List.reverseRecOn with
  | nil => rfl
  | append_singleton members member ih =>
    rw [mergeMembers_concat, find?_insertMember, firstKept_concat, ih]
    cases firstKept Member.key Member.isOptional members k <;> rfl

/-- **The member of a key is the first that stays.** -/
theorem mem_mergeMembers_iff {members : List Member} {m : Member} :
    m ∈ mergeMembers members ↔
      firstKept Member.key Member.isOptional members m.key = some m := by
  rw [← find?_mergeMembers]
  constructor
  · intro hm
    have some : (mergeMembers members).find? (fun n => decide (n.key = m.key)) |>.isSome :=
      List.find?_isSome.2 ⟨m, hm, decide_eq_true rfl⟩
    obtain ⟨n, hn⟩ := Option.isSome_iff_exists.1 some
    have key := List.find?_some hn
    rw [decide_eq_true_eq] at key
    rw [hn, List.inj_on_of_nodup_map (nodup_keys_mergeMembers members)
      (List.mem_of_find?_eq_some hn) hm key]
  · exact List.mem_of_find?_eq_some

/-! ### Types of occurrences -/

mutual

/-- The type of the member for an occurrence. -/
inductive Typed (schema : Schema) (fragments : List Fragment) : Occurrence → TypeExpr → Prop where
  /-- The name of the object's type. -/
  | typename {o : Occurrence} (hname : o.name = "__typename") :
    Typed schema fragments o (typenameType o.around.scope)
  /-- A leaf. -/
  | leaf {o : Occurrence} {type : TypeRef} (hname : o.name ≠ "__typename")
    (htype : o.type? = some type) (hnone : o.selections = none) :
    Typed schema fragments o (typeOf (leaf schema type.baseName) type)
  /-- An object, with a member for each key that occurs below. -/
  | object {o : Occurrence} {type : TypeRef} {members : List Member}
    (hname : o.name ≠ "__typename") (htype : o.type? = some type)
    (hsome : o.selections.isSome) (hbelow : TypedAll schema fragments
      (o.below schema fragments) members) :
    Typed schema fragments o (typeOf (.object (mergeMembers members)) type)

/-- The members for some occurrences, one each. -/
inductive TypedAll (schema : Schema) (fragments : List Fragment) :
    List Occurrence → List Member → Prop where
  /-- There are no members without occurrences. -/
  | nil : TypedAll schema fragments [] []
  /-- The first occurrence has the first member. -/
  | cons {o : Occurrence} {type : TypeExpr} {os : List Occurrence} {members : List Member}
    (htype : Typed schema fragments o type) (hrest : TypedAll schema fragments os members) :
    TypedAll schema fragments (o :: os) (.mk o.key type o.isOptional false :: members)

end

section Members

variable {schema : Schema} {fragments : List Fragment} {os ps : List Occurrence}
  {members others : List Member}

theorem TypedAll.append (h : TypedAll schema fragments os members)
    (h' : TypedAll schema fragments ps others) :
    TypedAll schema fragments (os ++ ps) (members ++ others) := by
  induction os generalizing members with
  | nil =>
    cases h
    exact h'
  | cons o os ih =>
    cases h with
    | cons htype hrest => exact .cons htype (ih hrest)

/-- Looking for an occurrence and for a member by the same test finds one made of the other. -/
theorem TypedAll.find? (h : TypedAll schema fragments os members) (p : String → Bool → Bool) :
    (os.find? (fun o => p o.key o.isOptional) = none ∧
        members.find? (fun m => p m.key m.isOptional) = none) ∨
      ∃ o m, os.find? (fun o => p o.key o.isOptional) = some o ∧
        members.find? (fun m => p m.key m.isOptional) = some m ∧
        m.key = o.key ∧ m.isOptional = o.isOptional ∧ Typed schema fragments o m.type := by
  induction os generalizing members with
  | nil =>
    cases h
    exact Or.inl ⟨rfl, rfl⟩
  | cons o os ih =>
    cases h with
    | @cons _ type _ members htype hrest =>
      have same : p (Member.mk o.key type o.isOptional false).key
          (Member.mk o.key type o.isOptional false).isOptional = p o.key o.isOptional := rfl
      rw [List.find?_cons, List.find?_cons, same]
      cases hp : p o.key o.isOptional with
      | true => exact Or.inr ⟨o, _, rfl, rfl, rfl, rfl, htype⟩
      | false => exact ih hrest

/-- **The member of a key is made of the occurrence that stays.** -/
theorem TypedAll.exists_member (h : TypedAll schema fragments os members) {k : String}
    {o : Occurrence} (ho : firstKept Occurrence.key Occurrence.isOptional os k = some o) :
    ∃ m ∈ mergeMembers members,
      m.key = k ∧ m.isOptional = o.isOptional ∧ Typed schema fragments o m.type := by
  have key := (key_of_firstKept ho).1
  unfold firstKept at ho
  have found : ∃ m, firstKept Member.key Member.isOptional members k = some m ∧
      m.key = o.key ∧ m.isOptional = o.isOptional ∧ Typed schema fragments o m.type := by
    unfold firstKept
    -- one that is required is looked for first, then any
    rcases h.find? fun key isOptional => decide (key = k) && !isOptional with
      ⟨hos, hms⟩ | ⟨o', m, hos, hms, rest⟩
    · rw [hos, Option.none_or] at ho
      rw [hms, Option.none_or]
      rcases h.find? fun key _ => decide (key = k) with ⟨hos, -⟩ | ⟨o', m, hos, hms, rest⟩
      · rw [hos] at ho
        cases ho
      · obtain rfl := Option.some.inj (hos.symm.trans ho)
        exact ⟨m, hms, rest⟩
    · rw [hos, Option.some_or] at ho
      obtain rfl := Option.some.inj ho
      exact ⟨m, by rw [hms, Option.some_or], rest⟩
  obtain ⟨m, hm, hkey, rest⟩ := found
  rw [key] at hkey
  refine ⟨m, mem_mergeMembers_iff.2 ?_, hkey, rest⟩
  rw [hkey]
  exact hm

/-- Members have the keys of the occurrences. -/
theorem TypedAll.map_key (h : TypedAll schema fragments os members) :
    members.map Member.key = os.map Occurrence.key := by
  induction os generalizing members with
  | nil =>
    cases h
    rfl
  | cons o os ih =>
    cases h with
    | cons htype hrest =>
      rw [List.map_cons, List.map_cons, ih hrest]
      rfl

/-- A member is made of an occurrence that stays. -/
theorem TypedAll.exists_firstKept (h : TypedAll schema fragments os members) {m : Member}
    (hm : m ∈ mergeMembers members) :
    ∃ o, firstKept Occurrence.key Occurrence.isOptional os m.key = some o ∧
      m.isOptional = o.isOptional ∧ Typed schema fragments o m.type := by
  have there : m.key ∈ os.map Occurrence.key := by
    rw [← h.map_key]
    exact List.mem_map_of_mem (key_of_firstKept (mem_mergeMembers_iff.1 hm)).2
  obtain ⟨p, hp, hkey⟩ := List.mem_map.1 there
  obtain ⟨o, ho⟩ : ∃ o, firstKept Occurrence.key Occurrence.isOptional os m.key = some o := by
    rw [← hkey]
    exact Shape.exists_firstKept hp
  -- the member that the occurrence makes is this one, as keys are told apart
  obtain ⟨n, hn, hkey, rest⟩ := h.exists_member ho
  rw [List.inj_on_of_nodup_map (nodup_keys_mergeMembers members) hm hn hkey.symm]
  rw [hkey]
  exact ⟨o, ho, rest⟩

end Members

/-! ### Drafts -/

section Drafts

variable {schema : Schema} {fragments : List Fragment} {document : String}

/-- Two ways to open spreads find the same occurrences behind each spread that has a draft. -/
def AgreesOn (spread : SpreadRule) (behind other : Surrounding → String → List Occurrence) :
    Prop :=
  ∀ ⦃around : Surrounding⦄ ⦃draft next : Draft⦄ ⦃name : String⦄,
    spread around.scope around.optional draft name = .ok next →
      behind around name = other around name

variable {spread : SpreadRule} {behind other : Surrounding → String → List Occurrence}

mutual

theorem occurrencesIn_eq (hs : AgreesOn spread behind other) : ∀ (s : Selection)
    (around : Surrounding) {draft next : Draft},
    addSelection schema document spread around.scope around.optional draft s = .ok next →
      occurrencesIn schema behind around s = occurrencesIn schema other around s
  | .field _ _ _ _ _, _, _, _, _ => by rw [occurrencesIn, occurrencesIn]
  | .spread name directives, around, draft, next, h => by
    rw [addSelection] at h
    rw [occurrencesIn, occurrencesIn]
    exact @hs (around.guard directives) _ _ _ h
  | .inlineFragment none directives selections, around, draft, next, h => by
    rw [addSelection] at h
    rw [occurrencesIn, occurrencesIn]
    exact occurrencesInAll_eq hs selections (around.guard directives) h
  | .inlineFragment (some condition) directives selections, around, draft, next, h => by
    rw [addSelection] at h
    split at h
    · cases h
    next type htype =>
      rw [occurrencesIn, occurrencesIn, htype]
      exact occurrencesInAll_eq hs selections
        ((around.guard directives).enter condition (some type)) h

theorem occurrencesInAll_eq (hs : AgreesOn spread behind other) : ∀ (selections : List Selection)
    (around : Surrounding) {draft next : Draft},
    addSelections schema document spread around.scope around.optional draft selections =
        .ok next →
      occurrencesInAll schema behind around selections =
        occurrencesInAll schema other around selections
  | [], _, _, _, _ => by rw [occurrencesInAll, occurrencesInAll]
  | s :: rest, around, draft, next, h => by
    rw [addSelections] at h
    split at h
    · cases h
    next middle hmiddle =>
      rw [occurrencesInAll, occurrencesInAll, occurrencesIn_eq hs s around hmiddle,
        occurrencesInAll_eq hs rest around h]

end

/-- If a spread has a draft, longer chains of spreads lead to no more occurrences: the chain
ends before the depth does. -/
theorem agreesOn_spreadOccurrences (depth : Nat) : ∀ more, depth ≤ more →
    AgreesOn (openSpread schema document fragments depth)
      (spreadOccurrences schema fragments depth) (spreadOccurrences schema fragments more) := by
  induction depth with
  | zero =>
    intro more _ around draft next name h
    rw [openSpread] at h
    split at h <;> cases h
  | succ depth ih =>
    intro more hmore around draft next name h
    obtain ⟨more, rfl⟩ : ∃ m, more = m + 1 := ⟨more - 1, by omega⟩
    rw [openSpread] at h
    split at h
    · cases h
    next fragment hfragment =>
      rw [spreadOccurrences, spreadOccurrences, hfragment]
      exact occurrencesInAll_eq (ih more (by omega)) fragment.selections
        (around.enter fragment.condition (schema.find? fragment.condition)) h

/-- A draft goes on to another one by the members for some occurrences. -/
def Adds (schema : Schema) (fragments : List Fragment) (os : List Occurrence)
    (draft next : Draft) : Prop :=
  ∃ members, TypedAll schema fragments os members ∧
    next.members = members.foldl (fun all m => insertMember m all) draft.members ∧
      next.fragments = draft.fragments

theorem Adds.trans {os ps : List Occurrence} {draft middle next : Draft}
    (h : Adds schema fragments os draft middle) (h' : Adds schema fragments ps middle next) :
    Adds schema fragments (os ++ ps) draft next := by
  obtain ⟨members, typed, hmembers, hfragments⟩ := h
  obtain ⟨others, typed', hmembers', hfragments'⟩ := h'
  refine ⟨members ++ others, typed.append typed', ?_, hfragments'.trans hfragments⟩
  rw [List.foldl_append, ← hmembers, hmembers']

/-- References to enumerations add no members. -/
theorem members_addEnums (draft : Draft) (enums : List String) :
    (draft.addEnums enums).members = draft.members ∧
      (draft.addEnums enums).fragments = draft.fragments := by
  rw [Draft.addEnums]
  induction enums generalizing draft with
  | nil => exact ⟨rfl, rfl⟩
  | cons enum rest ih =>
    rw [List.foldl_cons]
    have one : (draft.addEnum enum).members = draft.members ∧
        (draft.addEnum enum).fragments = draft.fragments := by
      unfold Draft.addEnum
      split <;> exact ⟨rfl, rfl⟩
    rw [(ih _).1, (ih _).2]
    exact one

theorem Adds.one {o : Occurrence} {type : TypeExpr} (h : Typed schema fragments o type)
    (draft : Draft) (enums : List String) :
    Adds schema fragments [o] draft
      ((draft.addMember (.mk o.key type o.isOptional false)).addEnums enums) :=
  ⟨[.mk o.key type o.isOptional false], .cons h .nil, (members_addEnums ..).1,
    (members_addEnums ..).2⟩

/-- What a spread adds to a draft are the members for the occurrences behind it. -/
def AddsOccurrences (schema : Schema) (fragments : List Fragment) (spread : SpreadRule)
    (behind : Surrounding → String → List Occurrence) : Prop :=
  ∀ ⦃around : Surrounding⦄ ⦃draft next : Draft⦄ ⦃name : String⦄,
    spread around.scope around.optional draft name = .ok next →
      Adds schema fragments (behind around name) draft next

/-- A field has a type where it is selected. -/
theorem scope_of_fieldType {scope : Option SchemaType} {name : String} {type : TypeRef}
    (h : fieldType document scope name = .ok type) :
    (scope.bind fun t => t.field? name) = some type := by
  cases scope with
  | none => cases h
  | some t =>
    rw [fieldType] at h
    rw [Option.bind_some]
    split at h
    · cases h
    next found =>
      cases h
      exact found

mutual

theorem adds_of_addSelection (hs : AddsOccurrences schema fragments spread
      (spreadOccurrences schema fragments fragments.length)) : ∀ (s : Selection)
    (around : Surrounding) {draft next : Draft},
    addSelection schema document spread around.scope around.optional draft s = .ok next →
      Adds schema fragments (occurrencesIn schema
        (spreadOccurrences schema fragments fragments.length) around s) draft next
  | .field responseName name _ directives selections, around, draft, next, h => by
    rw [addSelection] at h
    rw [occurrencesIn]
    by_cases hname : name = "__typename"
    · rw [if_pos hname] at h
      cases h
      exact Adds.one (.typename hname) draft []
    rw [if_neg hname] at h
    cases hf : fieldType document around.scope name with
    | error e =>
      rw [hf] at h
      cases h
    | ok type =>
      rw [hf] at h
      have htype : (Occurrence.mk (responseName.getD name) name selections
          (around.guard directives)).type? = some type := by
        rw [Occurrence.type?, if_neg hname]
        exact scope_of_fieldType hf
      cases selections with
      | none =>
        cases h
        exact Adds.one (.leaf hname htype rfl) ..
      | some selections =>
        dsimp only at h
        cases hb : addSelections schema document spread (schema.find? type.baseName) false {}
            selections with
        | error e =>
          rw [hb] at h
          cases h
        | ok below =>
          rw [hb] at h
          cases h
          obtain ⟨members, typed, hmembers, hfragments⟩ :=
            adds_of_addSelections hs selections { scope := schema.find? type.baseName } hb
          -- no fragments are intersected, as spreads add what they select
          have made : below.toType = .object (mergeMembers members) := by
            rw [Draft.toType, hmembers, hfragments]
            simp [mergeMembers]
          rw [made]
          refine Adds.one (.object hname htype rfl ?_) ..
          rw [Occurrence.below, htype]
          exact typed
  | .spread name directives, around, draft, next, h => by
    rw [addSelection] at h
    rw [occurrencesIn]
    exact @hs (around.guard directives) _ _ _ h
  | .inlineFragment none directives selections, around, draft, next, h => by
    rw [addSelection] at h
    rw [occurrencesIn]
    exact adds_of_addSelections hs selections (around.guard directives) h
  | .inlineFragment (some condition) directives selections, around, draft, next, h => by
    rw [addSelection] at h
    split at h
    · cases h
    next type htype =>
      rw [occurrencesIn, htype]
      exact adds_of_addSelections hs selections
        ((around.guard directives).enter condition (some type)) h

theorem adds_of_addSelections (hs : AddsOccurrences schema fragments spread
      (spreadOccurrences schema fragments fragments.length)) : ∀ (selections : List Selection)
    (around : Surrounding) {draft next : Draft},
    addSelections schema document spread around.scope around.optional draft selections =
        .ok next →
      Adds schema fragments (occurrencesInAll schema
        (spreadOccurrences schema fragments fragments.length) around selections) draft next
  | [], _, _, _, h => by
    cases h
    exact ⟨[], .nil, rfl, rfl⟩
  | s :: rest, around, draft, next, h => by
    rw [addSelections] at h
    split at h
    · cases h
    next middle hmiddle =>
      rw [occurrencesInAll]
      exact (adds_of_addSelection hs s around hmiddle).trans
        (adds_of_addSelections hs rest around h)

end

/-- An open spread adds the members for what is behind it. The induction is on how many spreads
may still be opened; what they lead to is found at every greater depth too. -/
theorem addsOccurrences_openSpread (depth : Nat) (hd : depth ≤ fragments.length) :
    AddsOccurrences schema fragments (openSpread schema document fragments depth)
      (spreadOccurrences schema fragments fragments.length) := by
  induction depth with
  | zero =>
    intro around draft next name h
    rw [openSpread] at h
    split at h <;> cases h
  | succ depth ih =>
    intro around draft next name h
    rw [← agreesOn_spreadOccurrences (depth + 1) fragments.length hd h]
    rw [openSpread] at h
    split at h
    · cases h
    next fragment hfragment =>
      rw [spreadOccurrences, hfragment]
      dsimp only
      have inside := adds_of_addSelections (ih (by omega)) fragment.selections
        (around.enter fragment.condition (schema.find? fragment.condition)) h
      have same := occurrencesInAll_eq
        (agreesOn_spreadOccurrences depth fragments.length (by omega)) fragment.selections
        (around.enter fragment.condition (schema.find? fragment.condition)) h
      rw [same]
      exact inside

end Drafts

/-- **The shape of a selection set is read off its occurrences**, as long as fragments are not
masked. -/
theorem exists_typedAll_of_selectionDraft {schema : Schema} {fragments : List Fragment}
    {document : String} {scope : SchemaType} {selections : List Selection} {draft : Draft}
    (h : selectionDraft ⟨schema, false, fragments⟩ document scope selections = .ok draft) :
    ∃ members, TypedAll schema fragments (occurrencesOf schema fragments (some scope) selections)
      members ∧ draft.toType = .object (mergeMembers members) := by
  obtain ⟨members, typed, hmembers, hfragments⟩ :=
    adds_of_addSelections (addsOccurrences_openSpread fragments.length (Nat.le_refl _)) selections
      { scope := some scope } h
  refine ⟨members, typed, ?_⟩
  rw [Draft.toType, hmembers, hfragments]
  simp [mergeMembers]

end Shape

end QueryTypes
