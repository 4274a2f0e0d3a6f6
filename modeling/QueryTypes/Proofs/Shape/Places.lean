import QueryTypes.Proofs.Shape.Merging

/-!
# Places

A shape is read off one occurrence of each key, and a response answers all occurrences of a key
at once. Where the two meet is a *place*: the occurrences that an object type is made of, those that
are selected from an object, and the type of the object. Execution gets from place to place
(`QueryTypes.Shape.Reachable`), and a place is *faithful* if it selects each key that the object
type requires and no key that the object type lacks, and if names are spelled out right
(`QueryTypes.Shape.Faithful`).

As long as selections can be merged, the two sides of a place agree in the shape of what they have
in common (`QueryTypes.Shape.Reachable.invariant`). So of the value under a key, all that is left to
ask is whether the objects in it conform to the object type that they meet
(`QueryTypes.Shape.member_cases`).
-/

namespace QueryTypes

namespace Shape

open GraphQL (Fragment Selection TypeRef)
open TypeScript (Member TypeExpr)

/-! ### Places -/

/-- Where an object meets an object type. -/
structure Place where
  /-- The occurrences that the object type is made of. -/
  drafted : List Occurrence
  /-- The occurrences that are selected from. -/
  merged : List Occurrence
  /-- The type of the object. -/
  type : SchemaType

/-- The occurrence that makes the member of a key. -/
def Place.kept? (p : Place) (key : String) : Option Occurrence :=
  firstKept Occurrence.key Occurrence.isOptional p.drafted key

/-- The occurrences that an operation selects from its root. -/
def Execution.occurrences (e : Execution) (root : SchemaType) (selections : List Selection) :
    List Occurrence :=
  occurrencesOf e.schema e.fragments (some root) selections

/-- **What an operation can be answered with**: an object of its root type. -/
def Responds (e : Execution) (root : SchemaType) (selections : List Selection) (v : Response) :
    Prop :=
  Completes e (.nonNull (.named root.name)) (e.occurrences root selections) v

/-- **The places that execution gets to**: the root, and from a place that can be answered, each
object that can be the value of a key. -/
inductive Reachable (e : Execution) (root : SchemaType) (selections : List Selection) :
    Place → Prop where
  /-- The whole response. -/
  | start {fields : List (String × Response)}
    (h : Executes e root (e.occurrences root selections) fields) :
    Reachable e root selections
      ⟨e.occurrences root selections, e.occurrences root selections, root⟩
  /-- An object under a key: the object type is made of what one occurrence selects, and the object
  answers what all of them select. -/
  | step {p : Place} {key : String} {a b : Occurrence} {rest : List Occurrence} {t : TypeRef}
    {o : SchemaType} {fields : List (String × Response)} (hp : Reachable e root selections p)
    (kept : p.kept? key = some a) (group : e.group p.type p.merged key = b :: rest)
    (hname : b.name ≠ "__typename") (hfield : p.type.field? b.name = some t)
    (ho : o ∈ e.schema.types) (hobject : o.isObject = true)
    (hsub : e.schema.isSubtype o.name t.baseName = true)
    (h : Executes e o (e.below (b :: rest)) fields) :
    Reachable e root selections
      ⟨a.below e.schema e.fragments, e.below (b :: rest), o⟩

/-- **The keys of an object type are those of an object**, and names are spelled out right. -/
structure Faithful (e : Execution) (p : Place) : Prop where
  /-- Every key that may not be left out is selected. -/
  required : ∀ a ∈ p.drafted, a.isOptional = false →
    a.key ∈ (e.selected p.type p.merged).map Occurrence.key
  /-- Every key that is selected has a member. -/
  declared : ∀ b ∈ e.selected p.type p.merged, b.key ∈ p.drafted.map Occurrence.key
  /-- A name that is spelled out is the name of the object's type. -/
  named : ∀ key a b rest, p.kept? key = some a → e.group p.type p.merged key = b :: rest →
    SpellsRight p.type a b

/-- **Selections that can be merged**, as GraphQL asks of every operation. -/
def Mergeable (schema : Schema) (fragments : List Fragment) (os : List Occurrence) : Prop :=
  ∀ a ∈ os, ∀ b ∈ os, a.key = b.key → Merges schema fragments a b

/-! ### What holds of all places -/

/-- What holds of every place that execution gets to. -/
structure Place.Invariant (e : Execution) (p : Place) : Prop where
  /-- The type belongs to the schema. -/
  type : p.type ∈ e.schema.types
  /-- The members have the shape of the answers. -/
  shapes : ∀ a ∈ p.drafted, ∀ b ∈ p.merged, a.key = b.key → SameShape e.schema e.fragments a b
  /-- What is selected can be merged. -/
  merges : Mergeable e.schema e.fragments p.merged
  /-- What is selected from an object is selected on types that the object's type stands for. -/
  scopes : ∀ b ∈ p.merged, e.applies p.type b = true → SelectedFrom e.schema p.type b

section Places

variable {e : Execution} {root : SchemaType} {selections : List Selection} {p : Place}
  {key : String} {a b : Occurrence} {rest : List Occurrence} {t : TypeRef} {o : SchemaType}

theorem mem_group {type : SchemaType} {os : List Occurrence} {g : Occurrence}
    (hg : g ∈ e.group type os key) : g ∈ os ∧ e.applies type g = true ∧ g.key = key := by
  obtain ⟨hselected, hkey⟩ := List.mem_filter.1 hg
  obtain ⟨hmem, happlies⟩ := List.mem_filter.1 hselected
  exact ⟨hmem, happlies, of_decide_eq_true hkey⟩

theorem mem_group_of_eq {type : SchemaType} {os : List Occurrence}
    (group : e.group type os key = b :: rest) : b ∈ e.group type os key := by
  rw [group]
  exact List.mem_cons_self ..

/-- What applies to objects of a type is selected on types that the type stands for, if it stands
for the one that the selections start from. -/
theorem selectedFrom_of_applies {scope : Option SchemaType} {g : Occurrence}
    (start : ∀ q, scope = some q → q ∈ e.schema.types ∧ e.schema.isSubtype o.name q.name = true)
    (hg : g ∈ occurrencesOf e.schema e.fragments scope selections)
    (happlies : e.applies o g = true) : SelectedFrom e.schema o g := by
  intro q hq
  rcases scope_of_mem_occurrencesOf hg with hscope | ⟨condition, hmem, hscope⟩
  · exact start q (hscope ▸ hq)
  · rw [hq] at hscope
    have hfind := hscope.symm
    refine ⟨Schema.mem_of_find? hfind, ?_⟩
    rw [Schema.name_of_find? hfind]
    rw [Execution.applies, Bool.and_eq_true, List.all_eq_true] at happlies
    exact happlies.1 condition hmem

theorem Place.Invariant.start (hroot : root ∈ e.schema.types) (mergeable : Mergeable e.schema
      e.fragments (e.occurrences root selections)) :
    Place.Invariant e
      ⟨e.occurrences root selections, e.occurrences root selections, root⟩ where
  type := hroot
  shapes a ha b hb hkey := (mergeable a ha b hb hkey).shape
  merges := mergeable
  scopes b hb happlies := by
    refine selectedFrom_of_applies (fun q hq => ?_) hb happlies
    cases hq
    exact ⟨hroot, Schema.isSubtype_refl _⟩

namespace Place.Invariant

variable (valid : e.schema.IsValid) (inv : Place.Invariant e p)

include inv in
/-- What answers a key is selected on types that the object's type stands for. -/
theorem selectedFrom_of_mem_group {g : Occurrence} (hg : g ∈ e.group p.type p.merged key) :
    SelectedFrom e.schema p.type g :=
  inv.scopes g (mem_group hg).1 (mem_group hg).2.1

include valid inv in
/-- All that answers a key selects the same field, and what it selects below can be merged. -/
theorem merges_of_mem_group {g h : Occurrence} (hg : g ∈ e.group p.type p.merged key)
    (hh : h ∈ e.group p.type p.merged key) :
    g.name = h.name ∧ ∀ x ∈ g.below e.schema e.fragments, ∀ y ∈ h.below e.schema e.fragments,
      x.key = y.key → Merges e.schema e.fragments x y :=
  (inv.merges g (mem_group hg).1 h (mem_group hh).1
      ((mem_group hg).2.2.trans (mem_group hh).2.2.symm)).same_of_selectedFrom valid inv.type
    (inv.selectedFrom_of_mem_group hg) (inv.selectedFrom_of_mem_group hh)

include inv in
/-- The member of a key has the shape of what answers the key. -/
theorem shape_of_mem_group {g : Occurrence} (kept : p.kept? key = some a)
    (hg : g ∈ e.group p.type p.merged key) : SameShape e.schema e.fragments a g :=
  inv.shapes a (key_of_firstKept kept).2 g (mem_group hg).1
    ((key_of_firstKept kept).1.trans (mem_group hg).2.2.symm)

include valid inv in
/-- **The invariant holds one step further down.** -/
theorem step (kept : p.kept? key = some a)
    (group : e.group p.type p.merged key = b :: rest) (hname : b.name ≠ "__typename")
    (hfield : p.type.field? b.name = some t) (ho : o ∈ e.schema.types)
    (hsub : e.schema.isSubtype o.name t.baseName = true) :
    Place.Invariant e ⟨a.below e.schema e.fragments, e.below (b :: rest), o⟩ where
  type := ho
  shapes x hx y hy hkey := by
    obtain ⟨g, hg, hy⟩ := List.mem_flatMap.1 hy
    exact (inv.shape_of_mem_group kept (group ▸ hg)).of_mem_below hx hy hkey
  merges x hx y hy hkey := by
    obtain ⟨g, hg, hx⟩ := List.mem_flatMap.1 hx
    obtain ⟨h, hh, hy⟩ := List.mem_flatMap.1 hy
    exact (inv.merges_of_mem_group valid (group ▸ hg) (group ▸ hh)).2 x hx y hy hkey
  scopes y hy happlies := by
    obtain ⟨g, hg, hy⟩ := List.mem_flatMap.1 hy
    have hgroup : g ∈ e.group p.type p.merged key := group ▸ hg
    have same := (inv.merges_of_mem_group valid hgroup (mem_group_of_eq group)).1
    rw [Occurrence.below] at hy
    split at hy
    · cases hy
    · refine selectedFrom_of_applies (fun q hq => ?_) hy happlies
      -- the field of the object refines the field that was selected
      obtain ⟨u, hu, hfind⟩ := Option.bind_eq_some_iff.1 hq
      have refines := refines_of_field? valid inv.type (inv.selectedFrom_of_mem_group hgroup)
        (same ▸ hname) (same ▸ hfield) hu
      refine ⟨Schema.mem_of_find? hfind, ?_⟩
      rw [Schema.name_of_find? hfind]
      exact valid.isSubtype_trans hsub refines.2

end Place.Invariant

/-- The invariant holds wherever execution gets to. -/
theorem Reachable.invariant (valid : e.schema.IsValid) (hroot : root ∈ e.schema.types)
    (mergeable : Mergeable e.schema e.fragments (e.occurrences root selections))
    (h : Reachable e root selections p) : Place.Invariant e p := by
  induction h with
  | start _ => exact .start hroot mergeable
  | step _ kept group hname hfield ho _ hsub _ ih =>
    exact ih.step valid kept group hname hfield ho hsub

/-- Wherever execution gets to, there is an answer. -/
theorem Reachable.exists_executes (h : Reachable e root selections p) :
    ∃ fields, Executes e p.type p.merged fields := by
  cases h with
  | start h => exact ⟨_, h⟩
  | step _ _ _ _ _ _ _ _ h => exact ⟨_, h⟩

/-! ### One key -/

theorem exists_group {type : SchemaType} {os : List Occurrence}
    (h : key ∈ (e.selected type os).map Occurrence.key) :
    ∃ b rest, e.group type os key = b :: rest := by
  obtain ⟨b, hb, hkey⟩ := List.mem_map.1 h
  have mem : b ∈ e.group type os key := List.mem_filter.2 ⟨hb, decide_eq_true hkey⟩
  cases hgroup : e.group type os key with
  | nil =>
    rw [hgroup] at mem
    cases mem
  | cons b rest => exact ⟨b, rest, rfl⟩

theorem mem_keys_of_group {type : SchemaType} {os : List Occurrence}
    (group : e.group type os key = b :: rest) :
    key ∈ (e.selected type os).map Occurrence.key := by
  obtain ⟨hselected, hkey⟩ := List.mem_filter.1 (mem_group_of_eq group)
  exact List.mem_map.2 ⟨b, hselected, of_decide_eq_true hkey⟩

variable {v : Response} {expr : TypeExpr}

/-- **The member of a key and the values that it meets.** Either these hold no objects, and they
conform exactly if names are spelled out right. Or they hold nothing but objects, and they conform
exactly if all these objects conform to the object type in the member. -/
theorem member_cases (valid : e.schema.IsValid) (inv : Place.Invariant e p)
    (kept : p.kept? key = some a) (group : e.group p.type p.merged key = b :: rest)
    (typed : Typed e.schema e.fragments a expr) :
    (∀ v, Answers e p.type (b :: rest) v →
      (Conforms v expr ↔ SpellsRight p.type a b) ∧ ∀ fields, ¬ v.Holds (.object fields)) ∨
    a.name ≠ "__typename" ∧ b.name ≠ "__typename" ∧ ∃ t members,
      p.type.field? b.name = some t ∧
      TypedAll e.schema e.fragments (a.below e.schema e.fragments) members ∧
      ∀ v, Answers e p.type (b :: rest) v →
        (Conforms v expr ↔ ∀ w, v.Holds w → Conforms w (.object (mergeMembers members))) ∧
        ∀ w, v.Holds w → ∃ o fields, w = .object fields ∧ o ∈ e.schema.types ∧
          o.isObject = true ∧ e.schema.isSubtype o.name t.baseName = true ∧
          Executes e o (e.below (b :: rest)) fields := by
  have scope := inv.selectedFrom_of_mem_group (mem_group_of_eq group)
  have shape := inv.shape_of_mem_group kept (mem_group_of_eq group)
  cases shape with
  | leaf ha hb hleaf hnone _ =>
    refine Or.inl fun v h =>
      ⟨conforms_iff_spellsRight valid inv.type scope ha hb hleaf hnone typed h, ?_⟩
    intro fields hw
    cases h with
    | typename _ => cases hw
    | field hname hfield h =>
      have hsub := (refines_of_field? valid inv.type scope hname hfield hb).2
      have named := completes_of_holds h hw
      rw [valid.eq_of_not_isComposite hsub hleaf] at named
      cases eq_leaf_of_completes valid hleaf named (by nofun)
  | composite ha hb alike hname hname' _ hcomposite hsome _ _ =>
    obtain ⟨t, ht, fits, hsub⟩ := exists_field_of_type? valid inv.type scope hname' hb
    cases typed with
    | typename hname'' => exact absurd hname'' hname
    | leaf _ _ hnone =>
      rw [hnone] at hsome
      cases hsome
    | object _ hu _ below =>
      rw [ha] at hu
      cases hu
      refine Or.inr ⟨hname, hname', t, _, ht, below, fun v h => ?_⟩
      cases h with
      | typename hname'' => exact absurd hname'' hname'
      | field _ hfield h =>
        rw [hfield] at ht
        cases ht
        refine ⟨conforms_typeOf_iff (fits.trans_alike alike.symm) h, fun w hw => ?_⟩
        exact exists_object_of_completes (valid.isComposite_of_isSubtype hsub hcomposite)
          (completes_of_holds h hw) fun hnull => not_holds_null (hnull ▸ hw)

end Places

end Shape

end QueryTypes
