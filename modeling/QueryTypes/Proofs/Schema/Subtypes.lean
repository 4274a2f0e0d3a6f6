import Mathlib.Data.List.Nodup
import QueryTypes.Schema.Basic

/-!
# Types that stand for others

Where a field has an interface or a union for its type, its value is an object of some other
type: an object type stands for itself, for the unions it is a member of and for the interfaces it
implements (`QueryTypes.Schema.isSubtype`). In a valid schema
(`QueryTypes.Schema.IsValid`) an object type has every field of the types it stands for, at a
type that is the same or stricter (`QueryTypes.Schema.IsValid.exists_field`): nothing is null
that could not be, and what it names stands for what was named there.
-/

namespace QueryTypes

open GraphQL (TypeRef OperationKind)

/-! ### Wrappers -/

namespace GraphQL.TypeRef

/-- Lists and nulls of the first type are lists and nulls of the second. -/
inductive Fits : TypeRef → TypeRef → Prop where
  /-- Names are not compared. -/
  | named {a b : String} : Fits (.named a) (.named b)
  /-- Both are lists. -/
  | list {t u : TypeRef} (h : Fits t u) : Fits (.list t) (.list u)
  /-- Neither is null. -/
  | nonNull {t u : TypeRef} (h : Fits t u) : Fits (.nonNull t) (.nonNull u)
  /-- Only the second may be null. -/
  | stricter {t u : TypeRef} (h : Fits t u) : Fits (.nonNull t) u

/-- Two types have the same wrappers. -/
inductive Alike : TypeRef → TypeRef → Prop where
  /-- Names are not compared. -/
  | named {a b : String} : Alike (.named a) (.named b)
  /-- Both are lists. -/
  | list {t u : TypeRef} (h : Alike t u) : Alike (.list t) (.list u)
  /-- Neither is null. -/
  | nonNull {t u : TypeRef} (h : Alike t u) : Alike (.nonNull t) (.nonNull u)

theorem Alike.refl : ∀ t : TypeRef, Alike t t
  | .named _ => .named
  | .list t => .list (refl t)
  | .nonNull t => .nonNull (refl t)

theorem Alike.symm {t u : TypeRef} (h : Alike t u) : Alike u t := by
  induction h with
  | named => exact .named
  | list _ ih => exact .list ih
  | nonNull _ ih => exact .nonNull ih

theorem Fits.refl : ∀ t : TypeRef, Fits t t
  | .named _ => .named
  | .list t => .list (refl t)
  | .nonNull t => .nonNull (refl t)

theorem Fits.trans_alike {t u w : TypeRef} (h : Fits t u) (h' : Alike u w) : Fits t w := by
  induction h generalizing w with
  | named =>
    cases h'
    exact .named
  | list _ ih =>
    cases h' with
    | list h' => exact .list (ih h')
  | nonNull _ ih =>
    cases h' with
    | nonNull h' => exact .nonNull (ih h')
  | stricter _ ih => exact .stricter (ih h')

/-- What fits a type that is never null fits the type that may be. -/
theorem Fits.of_nonNull {t u : TypeRef} (h : Fits t (.nonNull u)) : Fits t u := by
  induction t with
  | named _ => cases h
  | list _ _ => cases h
  | nonNull t ih =>
    cases h with
    | nonNull h => exact .stricter h
    | stricter h => exact .stricter (ih h)

/-- What fits a type that is never null is never null either. -/
theorem Fits.isNonNull {t u : TypeRef} (h : Fits t u) (hu : u.isNonNull = true) :
    t.isNonNull = true := by
  cases h with
  | named => cases hu
  | list _ => cases hu
  | nonNull _ => rfl
  | stricter _ => rfl

end GraphQL.TypeRef

/-! ### Types of types -/

namespace SchemaType

/-- The interfaces that a type implements. -/
def interfaces (t : SchemaType) : List String :=
  match t.body with
  | .object interfaces _ => interfaces
  | .interface interfaces _ => interfaces
  | _ => []

/-- The types that a union is made of. -/
def members (t : SchemaType) : List String :=
  match t.body with
  | .union members => members
  | _ => []

/-- Whether the type is an interface. -/
def isInterface (t : SchemaType) : Bool :=
  match t.body with
  | .interface _ _ => true
  | _ => false

/-- Whether there are fields to select from values of the type. -/
def isComposite (t : SchemaType) : Bool :=
  match t.body with
  | .object _ _ => true
  | .interface _ _ => true
  | .union _ => true
  | _ => false

variable {t : SchemaType}

theorem isComposite_of_isObject (h : t.isObject = true) : t.isComposite = true := by
  obtain ⟨_, body⟩ := t
  cases body with
  | object _ _ => rfl
  | _ => cases h

theorem isComposite_of_isInterface (h : t.isInterface = true) : t.isComposite = true := by
  obtain ⟨_, body⟩ := t
  cases body with
  | interface _ _ => rfl
  | _ => cases h

/-- A type that others are members of is a union. -/
theorem body_of_mem_members {name : String} (h : name ∈ t.members) :
    ∃ names, t.body = .union names := by
  unfold members at h
  split at h
  next names hnames => exact ⟨names, hnames⟩
  · cases h

/-- A type that implements something has fields. -/
theorem isComposite_of_mem_interfaces {name : String} (h : name ∈ t.interfaces) :
    t.isComposite = true := by
  obtain ⟨_, body⟩ := t
  cases body with
  | object _ _ => rfl
  | interface _ _ => rfl
  | _ => cases h

theorem not_isObject_of_isInterface (h : t.isInterface = true) : t.isObject = false := by
  obtain ⟨_, body⟩ := t
  cases body with
  | interface _ _ => rfl
  | _ => cases h

end SchemaType

/-! ### Subtypes -/

namespace Schema

/-- Whether there are fields to select from values of a named type. -/
def isComposite (schema : Schema) (name : String) : Bool :=
  match schema.find? name with
  | some t => t.isComposite
  | none => false

/-- **Whether a type stands for another**: for itself, for a union it is a member of, or for an
interface it implements. -/
def isSubtype (schema : Schema) (a b : String) : Bool :=
  a == b ||
    (match schema.find? b with
      | some t => t.members.contains a
      | none => false) ||
    match schema.find? a with
      | some t => t.interfaces.contains b
      | none => false

/-- A type that may take the place of another: it is as strict or stricter, and what it names
stands for what the other names. -/
def Refines (schema : Schema) (t u : TypeRef) : Prop :=
  t.Fits u ∧ schema.isSubtype t.baseName u.baseName = true

/-- What GraphQL asks of the types that operations select from. -/
structure IsValid (schema : Schema) : Prop where
  /-- Operations start from objects. -/
  roots : ∀ kind root, schema.root? kind = some root → root.isObject = true
  /-- Unions are made of object types. -/
  members : ∀ t ∈ schema.types, ∀ name ∈ t.members,
    ∃ o, schema.find? name = some o ∧ o.isObject = true
  /-- What implements an interface implements those that the interface implements, and has its
  fields at types that may take the place of theirs. -/
  interfaces : ∀ t ∈ schema.types, ∀ name ∈ t.interfaces,
    ∃ i, schema.find? name = some i ∧ i.isInterface = true ∧
      (∀ other ∈ i.interfaces, other ∈ t.interfaces) ∧
      ∀ field u, i.field? field = some u → ∃ v, t.field? field = some v ∧ schema.Refines v u

variable {schema : Schema}

/-- A type of the schema is the one of its name. -/
theorem find?_name {t : SchemaType} (h : t ∈ schema.types) : schema.find? t.name = some t := by
  have there : (schema.find? t.name).isSome := isSome_find?_iff.2 (List.mem_map_of_mem h)
  obtain ⟨u, hu⟩ := Option.isSome_iff_exists.1 there
  rw [hu, List.inj_on_of_nodup_map schema.names_nodup (mem_of_find? hu) h (name_of_find? hu)]

theorem isSubtype_refl (a : String) : schema.isSubtype a a = true := by
  simp [isSubtype]

/-- The three ways in which a type stands for another. -/
theorem isSubtype_iff {a b : String} : schema.isSubtype a b = true ↔
    a = b ∨ (∃ t, schema.find? b = some t ∧ a ∈ t.members) ∨
      ∃ t, schema.find? a = some t ∧ b ∈ t.interfaces := by
  unfold isSubtype
  cases schema.find? a <;> cases schema.find? b <;> simp [or_assoc]

theorem refines_refl (t : TypeRef) : schema.Refines t t := ⟨.refl t, isSubtype_refl _⟩

namespace IsValid

variable {o q : SchemaType} {a b c : String}

/-- What stands for a type stands for all that the type stands for. -/
theorem isSubtype_trans (valid : schema.IsValid) (h : schema.isSubtype a b = true)
    (h' : schema.isSubtype b c = true) : schema.isSubtype a c = true := by
  rcases isSubtype_iff.1 h' with rfl | ⟨u, hu, hb⟩ | ⟨t, ht, hc⟩
  · exact h
  · -- a member of a union is an object type, and only itself stands for it
    obtain ⟨m, hm, hobject⟩ := valid.members u (mem_of_find? hu) b hb
    rcases isSubtype_iff.1 h with rfl | ⟨n, hn, hmem⟩ | ⟨t, ht, hi⟩
    · exact h'
    · rw [hm] at hn
      cases hn
      obtain ⟨names, hbody⟩ := SchemaType.body_of_mem_members hmem
      rw [SchemaType.isObject, hbody] at hobject
      cases hobject
    · obtain ⟨i, hi', hinterface, -⟩ := valid.interfaces t (mem_of_find? ht) b hi
      rw [hm] at hi'
      cases hi'
      rw [SchemaType.not_isObject_of_isInterface hinterface] at hobject
      cases hobject
  · rcases isSubtype_iff.1 h with rfl | ⟨n, hn, hmem⟩ | ⟨s, hs, hi⟩
    · exact h'
    · -- a union implements nothing
      rw [ht] at hn
      cases hn
      obtain ⟨names, hbody⟩ := SchemaType.body_of_mem_members hmem
      rw [SchemaType.interfaces, hbody] at hc
      cases hc
    · obtain ⟨i, hi', -, further, -⟩ := valid.interfaces s (mem_of_find? hs) b hi
      rw [ht] at hi'
      cases hi'
      exact isSubtype_iff.2 (Or.inr (Or.inr ⟨s, hs, further c hc⟩))

/-- Among object types, each stands for itself only. -/
theorem eq_of_isObject (valid : schema.IsValid) (ho : o ∈ schema.types) (hq : q ∈ schema.types)
    (object : q.isObject = true) (h : schema.isSubtype o.name q.name = true) : o = q := by
  rcases isSubtype_iff.1 h with hname | ⟨t, ht, hmem⟩ | ⟨t, ht, hi⟩
  · exact List.inj_on_of_nodup_map schema.names_nodup ho hq hname
  · rw [find?_name hq] at ht
    cases ht
    obtain ⟨names, hbody⟩ := SchemaType.body_of_mem_members hmem
    rw [SchemaType.isObject, hbody] at object
    cases object
  · obtain ⟨i, hi', hinterface, -⟩ := valid.interfaces t (mem_of_find? ht) _ hi
    rw [find?_name hq] at hi'
    cases hi'
    rw [SchemaType.not_isObject_of_isInterface hinterface] at object
    cases object

/-- Only itself stands for a type that has no fields to select from. -/
theorem eq_of_not_isComposite (valid : schema.IsValid) (h : schema.isSubtype a b = true)
    (leaf : schema.isComposite b = false) : a = b := by
  rcases isSubtype_iff.1 h with hname | ⟨t, ht, hmem⟩ | ⟨t, ht, hi⟩
  · exact hname
  · obtain ⟨names, hbody⟩ := SchemaType.body_of_mem_members hmem
    rw [isComposite, ht] at leaf
    dsimp only at leaf
    rw [SchemaType.isComposite, hbody] at leaf
    cases leaf
  · obtain ⟨i, hi', hinterface, -⟩ := valid.interfaces t (mem_of_find? ht) _ hi
    rw [isComposite, hi'] at leaf
    dsimp only at leaf
    rw [SchemaType.isComposite_of_isInterface hinterface] at leaf
    cases leaf

/-- What stands for a type with fields to select from has such fields too. -/
theorem isComposite_of_isSubtype (valid : schema.IsValid) (h : schema.isSubtype a b = true)
    (composite : schema.isComposite b = true) : schema.isComposite a = true := by
  rcases isSubtype_iff.1 h with rfl | ⟨t, ht, hmem⟩ | ⟨t, ht, hi⟩
  · exact composite
  · obtain ⟨m, hm, hobject⟩ := valid.members t (mem_of_find? ht) a hmem
    rw [isComposite, hm]
    exact SchemaType.isComposite_of_isObject hobject
  · rw [isComposite, ht]
    exact SchemaType.isComposite_of_mem_interfaces hi

/-- **An object type has the fields of every type it stands for**, at types that may take the
place of theirs. -/
theorem exists_field (valid : schema.IsValid) (ho : o ∈ schema.types) (hq : q ∈ schema.types)
    (h : schema.isSubtype o.name q.name = true) {field : String} {u : TypeRef}
    (hu : q.field? field = some u) : ∃ v, o.field? field = some v ∧ schema.Refines v u := by
  rcases isSubtype_iff.1 h with hname | ⟨t, ht, hmem⟩ | ⟨t, ht, hi⟩
  · rw [List.inj_on_of_nodup_map schema.names_nodup ho hq hname]
    exact ⟨u, hu, refines_refl u⟩
  · -- a union has no fields of its own
    rw [find?_name hq] at ht
    cases ht
    obtain ⟨names, hbody⟩ := SchemaType.body_of_mem_members hmem
    rw [SchemaType.field?, SchemaType.fields, hbody] at hu
    cases hu
  · rw [find?_name ho] at ht
    cases ht
    obtain ⟨i, hi', -, -, fields⟩ := valid.interfaces o ho _ hi
    rw [find?_name hq] at hi'
    cases hi'
    exact fields field u hu

end IsValid

end Schema

end QueryTypes
