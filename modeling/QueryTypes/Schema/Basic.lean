import QueryTypes.GraphQL.Syntax
import QueryTypes.Keyed

/-!
# Schemas

A schema is a list of named types and the root types of the three kinds of
operations. Fields refer to types by name, through list and non-null wrappers.

Two facts hold of every schema and are part of its type: no two types share a
name, and every name that a type or a root mentions is the name of a type. The
function `QueryTypes.Schema.ofTypes?` makes a schema of a list of types that
meets them.

A schema may have enumerations that are declared in a way that shows only when their
values are read. They are types like the others, and the schema notes their names.
-/

namespace QueryTypes

open GraphQL (TypeRef OperationKind)

/-- What a type of a schema is. -/
inductive SchemaTypeBody where
  /-- A scalar type. -/
  | scalar
  /-- An object type: the interfaces it implements and its fields. -/
  | object (interfaces : List String) (fields : List (String × TypeRef))
  /-- An interface type: the interfaces it implements and its fields. -/
  | interface (interfaces : List String) (fields : List (String × TypeRef))
  /-- A union of other types. -/
  | union (members : List String)
  /-- An enumeration. -/
  | enum (values : List String)
  /-- An input object type. -/
  | inputObject (fields : List (String × TypeRef))
  deriving DecidableEq, Inhabited

/-- A type of a schema. -/
structure SchemaType where
  /-- The type's name. -/
  name : String
  /-- What the type is. -/
  body : SchemaTypeBody
  deriving DecidableEq, Inhabited

namespace SchemaType

/-- The fields of a type; only objects, interfaces and input objects have any. -/
def fields (t : SchemaType) : List (String × TypeRef) :=
  match t.body with
  | .object _ fields => fields
  | .interface _ fields => fields
  | .inputObject fields => fields
  | _ => []

/-- The type of a field. -/
def field? (t : SchemaType) (name : String) : Option TypeRef :=
  Keyed.lookup name t.fields

/-- Whether the type is an object type. -/
def isObject (t : SchemaType) : Bool :=
  match t.body with
  | .object _ _ => true
  | _ => false

/-- Whether the type is a scalar. -/
def isScalar (t : SchemaType) : Bool :=
  match t.body with
  | .scalar => true
  | _ => false

/-- Whether the type is an input object type. -/
def isInputObject (t : SchemaType) : Bool :=
  match t.body with
  | .inputObject _ => true
  | _ => false

/-- The values of an enumeration. -/
def enumValues? (t : SchemaType) : Option (List String) :=
  match t.body with
  | .enum values => some values
  | _ => none

/-- The names of the types that a type mentions. -/
def mentions (t : SchemaType) : List String :=
  let ofFields (fields : List (String × TypeRef)) := fields.map fun f => f.2.baseName
  match t.body with
  | .scalar => []
  | .object interfaces fields => interfaces ++ ofFields fields
  | .interface interfaces fields => interfaces ++ ofFields fields
  | .union members => members
  | .enum _ => []
  | .inputObject fields => ofFields fields

theorem mem_mentions_of_field? {t : SchemaType} {name : String} {type : TypeRef}
    (h : t.field? name = some type) : type.baseName ∈ t.mentions := by
  have mem : ∀ fields : List (String × TypeRef), Keyed.lookup name fields = some type →
      type.baseName ∈ fields.map fun f => f.2.baseName := by
    intro fields
    induction fields with
    | nil => simp
    | cons entry rest ih =>
      obtain ⟨key, value⟩ := entry
      by_cases hk : key = name
      · simp only [Keyed.lookup_cons, hk, if_true, Option.some.injEq]
        rintro rfl
        simp
      · simp only [Keyed.lookup_cons, hk, if_false]
        intro h
        exact List.mem_cons_of_mem _ (ih h)
  obtain ⟨typeName, body⟩ := t
  cases body <;> simp_all [field?, fields, mentions]

end SchemaType

/-- The root type of each kind of operation, by name. -/
structure RootTypes where
  /-- The type that queries start from. -/
  query : Option String := none
  /-- The type that mutations start from. -/
  mutation : Option String := none
  /-- The type that subscriptions start from. -/
  subscription : Option String := none
  deriving DecidableEq, Inhabited

namespace RootTypes

/-- The root type of a kind of operation. -/
def get (roots : RootTypes) : OperationKind → Option String
  | .query => roots.query
  | .mutation => roots.mutation
  | .subscription => roots.subscription

/-- Gives a kind of operation its root type. -/
def set (roots : RootTypes) (kind : OperationKind) (name : String) : RootTypes :=
  match kind with
  | .query => { roots with query := some name }
  | .mutation => { roots with mutation := some name }
  | .subscription => { roots with subscription := some name }

/-- The names of the root types that are given. -/
def names (roots : RootTypes) : List String :=
  roots.query.toList ++ roots.mutation.toList ++ roots.subscription.toList

end RootTypes

/-- Named types that know all the types they mention, and the root types among them. -/
structure Schema where
  /-- The types. -/
  types : List SchemaType
  /-- The root types. -/
  roots : RootTypes
  /-- The enumerations whose values cannot be read. -/
  unreadable : List String := []
  /-- No two types share a name. -/
  names_nodup : (types.map SchemaType.name).Nodup
  /-- Every mentioned type is there. -/
  closed : ∀ t ∈ types, ∀ name ∈ t.mentions, name ∈ types.map SchemaType.name
  /-- Every root type is there. -/
  roots_closed : ∀ name ∈ roots.names, name ∈ types.map SchemaType.name

namespace Schema

instance : Inhabited Schema := ⟨⟨[], {}, [], by decide, by decide, by decide⟩⟩

/-- The schema with these types and roots, if names are unique and known. -/
def ofTypes? (types : List SchemaType) (roots : RootTypes) : Option Schema :=
  if h : (types.map SchemaType.name).Nodup ∧
      (∀ t ∈ types, ∀ name ∈ t.mentions, name ∈ types.map SchemaType.name) ∧
      ∀ name ∈ roots.names, name ∈ types.map SchemaType.name
  then some ⟨types, roots, [], h.1, h.2.1, h.2.2⟩
  else none

/-- The type of a name. -/
def find? (schema : Schema) (name : String) : Option SchemaType :=
  schema.types.find? fun t => t.name = name

/-- The root type of a kind of operation. -/
def root? (schema : Schema) (kind : OperationKind) : Option SchemaType :=
  (schema.roots.get kind).bind schema.find?

theorem name_of_find? {schema : Schema} {name : String} {t : SchemaType}
    (h : schema.find? name = some t) : t.name = name := by
  simpa using List.find?_some h

theorem mem_of_find? {schema : Schema} {name : String} {t : SchemaType}
    (h : schema.find? name = some t) : t ∈ schema.types :=
  List.mem_of_find?_eq_some h

theorem isSome_find?_iff {schema : Schema} {name : String} :
    (schema.find? name).isSome ↔ name ∈ schema.types.map SchemaType.name := by
  simp [find?, List.find?_isSome]

/-- The type of a field is a type of the schema. -/
theorem isSome_find?_of_field? {schema : Schema} {t : SchemaType} {name : String}
    {type : TypeRef} (ht : t ∈ schema.types) (h : t.field? name = some type) :
    (schema.find? type.baseName).isSome :=
  isSome_find?_iff.2 (schema.closed t ht _ (SchemaType.mem_mentions_of_field? h))

/-- An operation kind that has a root type by name has one. -/
theorem isSome_root?_iff {schema : Schema} {kind : OperationKind} :
    (schema.root? kind).isSome ↔ (schema.roots.get kind).isSome := by
  cases h : schema.roots.get kind with
  | none => simp [root?, h]
  | some name =>
    have mem : name ∈ schema.roots.names := by
      cases kind <;> simp_all [RootTypes.get, RootTypes.names]
    simp [root?, h, isSome_find?_iff, schema.roots_closed name mem]

end Schema

end QueryTypes
