import QueryTypes.Proofs.Shape.Responses

/-!
# Selections of one key

GraphQL allows a key to be selected several times as long as the selections can be merged. They
are answered in the same shape, whatever objects they are selected from
(`QueryTypes.Shape.SameShape`), and unless they are selected from objects of two different types,
they select the same field (`QueryTypes.Shape.Merges`).

So if one of the selections of a key makes the member and another one answers it, then up to the
objects inside, the value fits: a value without objects fails to conform only where the name of
one type is spelled out and another name or another string is the answer
(`QueryTypes.Shape.conforms_iff_spellsRight`).
-/

namespace QueryTypes

namespace Shape

open GraphQL (Fragment TypeRef)
open TypeScript (Member TypeExpr)

/-! ### Selections that can be merged -/

section Merging

variable (schema : Schema) (fragments : List Fragment)

/-- **Two occurrences are answered in the same shape**: with leaves of one type, or with objects in
which equal keys are answered in the same shape again. -/
inductive SameShape : Occurrence → Occurrence → Prop where
  /-- Both have the same type, and nothing is selected below. -/
  | leaf {a b : Occurrence} {t : TypeRef} (ha : a.type? = some t) (hb : b.type? = some t)
    (hleaf : schema.isComposite t.baseName = false) (hnone : a.selections = none)
    (hnone' : b.selections = none) : SameShape a b
  /-- Both are objects in the same wrappers. -/
  | composite {a b : Occurrence} {t u : TypeRef} (ha : a.type? = some t) (hb : b.type? = some u)
    (alike : t.Alike u) (hname : a.name ≠ "__typename") (hname' : b.name ≠ "__typename")
    (hcomposite : schema.isComposite t.baseName = true)
    (hcomposite' : schema.isComposite u.baseName = true) (hsome : a.selections.isSome)
    (hsome' : b.selections.isSome)
    (below : ∀ x ∈ a.below schema fragments, ∀ y ∈ b.below schema fragments,
      x.key = y.key → SameShape x y) : SameShape a b

/-- **Two occurrences of one key can be merged.** -/
inductive Merges : Occurrence → Occurrence → Prop where
  /-- No object answers both, but the answers have the same shape. -/
  | apart {a b : Occurrence} {p q : SchemaType} (ha : a.around.scope = some p)
    (hb : b.around.scope = some q) (hp : p.isObject = true) (hq : q.isObject = true)
    (hne : p ≠ q) (shape : SameShape schema fragments a b) : Merges a b
  /-- Both select the same field, and what they select below can be merged. -/
  | same {a b : Occurrence} (hname : a.name = b.name) (shape : SameShape schema fragments a b)
    (below : ∀ x ∈ a.below schema fragments, ∀ y ∈ b.below schema fragments,
      x.key = y.key → Merges x y) : Merges a b

variable {schema fragments} {a b : Occurrence}

/-- An occurrence is selected on a type that objects of some type are objects of. -/
def SelectedFrom (schema : Schema) (o : SchemaType) (a : Occurrence) : Prop :=
  ∀ q, a.around.scope = some q → q ∈ schema.types ∧ schema.isSubtype o.name q.name = true

theorem Merges.shape (h : Merges schema fragments a b) : SameShape schema fragments a b := by
  cases h with
  | apart _ _ _ _ _ shape => exact shape
  | same _ shape _ => exact shape

/-- Equal keys below are answered in the same shape. -/
theorem SameShape.of_mem_below (h : SameShape schema fragments a b) {x y : Occurrence}
    (hx : x ∈ a.below schema fragments) (hy : y ∈ b.below schema fragments)
    (hkey : x.key = y.key) : SameShape schema fragments x y := by
  cases h with
  | leaf _ _ _ hnone _ =>
    rw [Occurrence.below, hnone] at hx
    cases hx
  | composite _ _ _ _ _ _ _ _ _ below => exact below x hx y hy hkey

/-- What can be merged and answers one object selects the same field. -/
theorem Merges.same_of_selectedFrom (valid : schema.IsValid) (h : Merges schema fragments a b)
    {o : SchemaType} (ho : o ∈ schema.types) (ha : SelectedFrom schema o a)
    (hb : SelectedFrom schema o b) :
    a.name = b.name ∧ ∀ x ∈ a.below schema fragments, ∀ y ∈ b.below schema fragments,
      x.key = y.key → Merges schema fragments x y := by
  cases h with
  | same hname _ below => exact ⟨hname, below⟩
  | @apart _ _ p q hp hq pobject qobject hne _ =>
    obtain ⟨pmem, psub⟩ := ha p hp
    obtain ⟨qmem, qsub⟩ := hb q hq
    refine absurd ?_ hne
    rw [← valid.eq_of_isObject ho pmem pobject psub, ← valid.eq_of_isObject ho qmem qobject qsub]

end Merging

/-! ### Values of one key -/

section Values

variable {e : Execution} {t u : TypeRef} {os : List Occurrence} {v w : Response} {name : String}

theorem not_holds_null : ¬ v.Holds .null := by
  intro h
  generalize hnull : Response.null = n at h
  induction h with
  | list _ _ ih => exact ih hnull
  | _ => cases hnull

/-- The values of a type without fields are leaves. -/
theorem eq_leaf_of_completes (valid : e.schema.IsValid)
    (hleaf : e.schema.isComposite name = false) (h : Completes e (.named name) os v)
    (hv : v ≠ .null) : v = .leaf name := by
  cases h with
  | null _ => exact absurd rfl hv
  | leaf _ => rfl
  | object htype hobject hsub _ =>
    rw [valid.eq_of_not_isComposite hsub hleaf |>.symm, Schema.isComposite,
      Schema.find?_name htype] at hleaf
    dsimp only at hleaf
    rw [SchemaType.isComposite_of_isObject hobject] at hleaf
    cases hleaf

/-- The values of a type with fields are objects. -/
theorem exists_object_of_completes (composite : e.schema.isComposite name = true)
    (h : Completes e (.named name) os v) (hv : v ≠ .null) :
    ∃ o fields, v = .object fields ∧ o ∈ e.schema.types ∧ o.isObject = true ∧
      e.schema.isSubtype o.name name = true ∧ Executes e o os fields := by
  cases h with
  | null _ => exact absurd rfl hv
  | leaf hleaf =>
    rw [composite] at hleaf
    cases hleaf
  | object htype hobject hsub h => exact ⟨_, _, rfl, htype, hobject, hsub, h⟩

theorem ne_null_of_completes (h : Completes e t os v) (ht : t.isNonNull = true) : v ≠ .null := by
  cases h with
  | null h =>
    rw [ht] at h
    cases h
  | nonNull hv _ => exact hv
  | list _ => nofun
  | leaf _ => nofun
  | object _ _ _ _ => nofun

/-- A value outside all lists is what it holds. -/
theorem holds_self_of_completes (h : Completes e t os v) (fits : t.Fits (.named name))
    (hv : v ≠ .null) : v.Holds v := by
  induction t generalizing v with
  | named _ =>
    cases h with
    | null _ => exact absurd rfl hv
    | leaf _ => exact .leaf
    | object _ _ _ _ => exact .object
  | list _ _ => cases fits
  | nonNull t ih =>
    cases fits with
    | stricter fits =>
      cases h with
      | null h => cases h
      | nonNull _ h => exact ih h fits hv

end Values

/-! ### The member and the answer -/

/-- If a member spells out the name of an object type, then the answer is the name of the object's
type, and that is the name. -/
def SpellsRight (type : SchemaType) (a b : Occurrence) : Prop :=
  a.name = "__typename" → ∀ q, a.around.scope = some q → q.isObject = true →
    b.name = "__typename" ∧ q.name = type.name

section Members

variable {e : Execution} {type : SchemaType} {a b : Occurrence} {rest : List Occurrence}
  {v : Response} {expr : TypeExpr}

/-- Where an occurrence with a type is selected, there is a field that answers it. -/
theorem exists_field_of_type? (valid : e.schema.IsValid) (htype : type ∈ e.schema.types)
    (scope : SelectedFrom e.schema type b) (hname : b.name ≠ "__typename") {u : TypeRef}
    (hb : b.type? = some u) : ∃ t, type.field? b.name = some t ∧ e.schema.Refines t u := by
  rw [Occurrence.type?, if_neg hname] at hb
  obtain ⟨q, hq, hfield⟩ := Option.bind_eq_some_iff.1 hb
  obtain ⟨qmem, qsub⟩ := scope q hq
  exact valid.exists_field htype qmem qsub hfield

/-- The field that answers an occurrence may take the place of the one that is selected. -/
theorem refines_of_field? (valid : e.schema.IsValid) (htype : type ∈ e.schema.types)
    (scope : SelectedFrom e.schema type b) (hname : b.name ≠ "__typename") {t u : TypeRef}
    (hfield : type.field? b.name = some t) (hb : b.type? = some u) : e.schema.Refines t u := by
  obtain ⟨t', ht', refines⟩ := exists_field_of_type? valid htype scope hname hb
  rw [hfield] at ht'
  cases ht'
  exact refines

/-- What is some string conforms to the type of a name, unless another name is spelled out. -/
theorem conforms_typenameType_iff {scope : Option SchemaType}
    (hv : Conforms v (.keyword "string")) : Conforms v (typenameType scope) ↔
      ∀ q, scope = some q → q.isObject = true → Conforms v (.literal (.string q.name)) := by
  cases scope with
  | none => exact iff_of_true hv fun q hq => nomatch hq
  | some q =>
    rw [typenameType]
    by_cases hq : q.isObject = true
    · rw [if_pos hq]
      refine ⟨fun h p hp _ => ?_, fun h => h q rfl hq⟩
      cases hp
      exact h
    · rw [if_neg hq]
      refine iff_of_true hv fun p hp hobject => ?_
      cases hp
      exact absurd hobject hq

/-- **An answer without objects conforms exactly if no other name is spelled out.** -/
theorem conforms_iff_spellsRight (valid : e.schema.IsValid) (htype : type ∈ e.schema.types)
    (scope : SelectedFrom e.schema type b) {u : TypeRef}
    (ha : a.type? = some u) (hb : b.type? = some u)
    (hleaf : e.schema.isComposite u.baseName = false) (hnone : a.selections = none)
    (typed : Typed e.schema e.fragments a expr) (h : Answers e type (b :: rest) v) :
    Conforms v expr ↔ SpellsRight type a b := by
  cases typed with
  | object _ _ hsome _ =>
    rw [hnone] at hsome
    cases hsome
  | typename hname =>
    rw [Occurrence.type?, if_pos hname] at ha
    cases ha
    cases h with
    | typename hname' =>
      -- a name answers, and it must be the one that is spelled out
      rw [conforms_typenameType_iff (.typename .string)]
      constructor
      · intro conforms _ q hq hobject
        exact ⟨hname', (conforms_literal_iff.1 (conforms q hq hobject)).symm⟩
      · intro spells q hq hobject
        exact conforms_literal_iff.2 (spells hname q hq hobject).2.symm
    | field hname' hfield h =>
      -- some other string answers, which is no name that is spelled out
      obtain ⟨fits, hsub⟩ := refines_of_field? valid htype scope hname' hfield hb
      have there := ne_null_of_completes h (fits.isNonNull rfl)
      have named := completes_of_holds h (holds_self_of_completes h fits.of_nonNull there)
      rw [valid.eq_of_not_isComposite hsub hleaf] at named
      rw [eq_leaf_of_completes valid hleaf named there,
        show Occurrence.typenameRef.baseName = "String" from rfl,
        conforms_typenameType_iff .string]
      constructor
      · intro conforms _ q hq hobject
        exact absurd (conforms q hq hobject) not_conforms_leaf_literal
      · intro spells q hq hobject
        exact absurd (spells hname q hq hobject).1 hname'
  | leaf hname ht _ =>
    rw [ha] at ht
    cases ht
    refine iff_of_true ?_ fun h => absurd h hname
    cases h with
    | typename hname' =>
      rw [Occurrence.type?, if_pos hname'] at hb
      cases hb
      exact .typename (conforms_leaf ..)
    | field hname' hfield h =>
      obtain ⟨fits, hsub⟩ := refines_of_field? valid htype scope hname' hfield hb
      refine (conforms_typeOf_iff fits h).2 fun w hw => ?_
      have named := completes_of_holds h hw
      rw [valid.eq_of_not_isComposite hsub hleaf] at named
      rw [eq_leaf_of_completes valid hleaf named (fun hnull => not_holds_null (hnull ▸ hw))]
      exact conforms_leaf ..

end Members

end Shape

end QueryTypes
