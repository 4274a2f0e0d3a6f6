import QueryTypes.GraphQL.Parser
import QueryTypes.Json.Basic
import QueryTypes.Schema.Standard

/-!
# Schemas from introspection

A schema is also built of what a server says about itself: the JSON value that answers
the introspection query. Everything has to be spelled out in it. Types are known by the
names in the value, a type with a standard name is that standard type, and fields of
objects and interfaces have output types while arguments and input fields have input
types. Of several types with one name the last counts, at the place of the first.

The value is gone through in a fixed order, since the first fault is the one that is told:
the types with their names, kinds and enumeration values, then the root types, then the
directives, and at last what the types consist of. Where a list is expected, an object or
a text stands for the list of its names or characters, so an empty one is an empty list.
-/

namespace QueryTypes

/-- Why an introspection result describes no schema. -/
inductive IntrospectionError where
  /-- Something is left out, unknown, or not of the kind it has to be. -/
  | invalid
  /-- An object lacks a member that is taken for granted. -/
  | missingMember
  /-- Something that is taken for an object is none. -/
  | notAnObject
  deriving DecidableEq

namespace Introspection

open GraphQL (TypeRef)

/-- A result, or the first fault. -/
abbrev Reading (α : Type) := Except IntrospectionError α

/-- What is there, or a fault if nothing is. -/
def orInvalid {α : Type} : Option α → Reading α
  | some a => .ok a
  | none => .error .invalid

/-! ### Members -/

/-- Whether a value counts as nothing: null, false, zero, or something empty. -/
def isNothing : Json → Bool
  | .null => true
  | .bool b => !b
  | .int n => n = 0
  | .float x => x == 0.0
  | .string s => s = ""
  | .array items => items.isEmpty
  | .object members => members.isEmpty

/-- The items of a list, or what stands for them. -/
def elements : Json → Reading (List Json)
  | .array items => .ok items
  | .object members => .ok (members.map fun (name, _) => .string name)
  | .string s => .ok (s.toList.map fun c => .string (String.ofList [c]))
  | _ => .error .invalid

/-- A member that every such object has. -/
def required (value : Json) (key : String) : Reading Json :=
  match value with
  | .object members => match Keyed.lookup key members with
    | some member => .ok member
    | none => .error .missingMember
  | _ => .error .invalid

/-- A member of an object that may be left out or null. -/
def optional? (value : Json) (key : String) : Reading (Option Json) :=
  match value with
  | .object members => .ok ((Keyed.lookup key members).filter fun member => !member.isNull)
  | _ => .error .notAnObject

/-- A member of an object that may be neither left out nor null. -/
def given (value : Json) (key : String) : Reading Json := do
  orInvalid (← optional? value key)

/-- Whether a text is a name of GraphQL. -/
def isName (text : String) : Bool :=
  match text.toList with
  | [] => false
  | c :: rest => GraphQL.Token.isNameStart c && rest.all GraphQL.Token.isNameRest

/-- The name that a value is. -/
def nameOf (value : Json) : Reading String :=
  orInvalid (value.string?.filter isName)

/-- Whether a value can be looked up as a name. -/
def isSingle : Json → Bool
  | .array _ | .object _ => false
  | _ => true

/-- A value under which something can be stored, though it need not be a name. -/
def key (value : Json) : Reading Json :=
  if isSingle value then .ok value else .error .invalid

/-! ### Kinds of types -/

/-- The kind of a type. -/
def kindOfBody : SchemaTypeBody → String
  | .scalar => "SCALAR"
  | .object _ _ => "OBJECT"
  | .interface _ _ => "INTERFACE"
  | .union _ => "UNION"
  | .enum _ => "ENUM"
  | .inputObject _ => "INPUT_OBJECT"

/-- The kinds of types that may be handed in. -/
def inputKinds : List String := ["SCALAR", "ENUM", "INPUT_OBJECT"]

/-- The kinds of types that may come out. -/
def outputKinds : List String := ["SCALAR", "ENUM", "OBJECT", "INTERFACE", "UNION"]

/-- The names and kinds of all types. -/
abbrev Kinds := List (String × String)

/-! ### References -/

mutual

/-- The type that a reference stands for. -/
def refOfJson : Json → Reading TypeRef
  | .object members => match Keyed.lookup "kind" members with
    | some (.string "LIST") => (innerRef members).map TypeRef.list
    | some (.string "NON_NULL") => match innerRef members with
      | .ok (.nonNull _) => .error .invalid
      | .ok inner => .ok (.nonNull inner)
      | .error e => .error e
    | _ => match Keyed.lookup "name" members with
      | some (.string name) => .ok (.named name)
      | _ => .error .invalid
  | _ => .error .notAnObject

/-- The type inside a list or non-null wrapper. -/
def innerRef : List (String × Json) → Reading TypeRef
  | [] => .error .invalid
  | (key, value) :: rest =>
    if key = "ofType" then (if isNothing value then .error .invalid else refOfJson value)
    else innerRef rest

end

/-- A reference to a type of one of some kinds, with any wrappers. -/
def refOfKind (kinds : Kinds) (allowed : List String) (value : Json) : Reading TypeRef := do
  let ref ← refOfJson value
  let kind ← orInvalid (Keyed.lookup ref.baseName kinds)
  if allowed.contains kind then return ref else .error .invalid

/-- The name of a type of one kind, referred to without wrappers. -/
def nameOfKind (kinds : Kinds) (kind : String) (value : Json) : Reading String := do
  match ← refOfKind kinds [kind] value with
  | .named name => return name
  | _ => .error .invalid

/-! ### Arguments and fields -/

/-- Checks that a default value is written as a constant value, if there is one. -/
def checkDefault (value : Option Json) : Reading Unit :=
  match value with
  | none => .ok ()
  | some (.string text) => match GraphQL.Token.ofString? text with
    | none => .error .invalid
    | some tokens => match GraphQL.Parser.value true GraphQL.maxNesting tokens with
      | some (_, []) => .ok ()
      | _ => .error .invalid
  | some _ => .error .invalid

/-- An argument or input field, whose name is not looked at yet. -/
def input (kinds : Kinds) (value : Json) : Reading (Json × TypeRef) := do
  let name ← required value "name"
  let type ← refOfKind kinds inputKinds (← required value "type")
  checkDefault (← optional? value "defaultValue")
  return (← key name, type)

/-- Things with names, of which the last of each name counts at the place of the first. -/
def withNames {α : Type} (found : List (Json × α)) : Reading (List (String × α)) := do
  let entries ← found.mapM fun (name, a) => return (← nameOf name, a)
  return Keyed.insertAll [] entries

/-- Arguments or input fields. -/
def inputs (kinds : Kinds) (values : Json) : Reading (List (String × TypeRef)) := do
  withNames (← (← elements values).mapM (input kinds))

/-- A field of an object or interface type, whose name is not looked at yet. -/
def output (kinds : Kinds) (value : Json) : Reading (Json × TypeRef) := do
  let name ← required value "name"
  let type ← refOfKind kinds outputKinds (← required value "type")
  let _ ← inputs kinds (← given value "args")
  return (← key name, type)

/-- The fields of an object or interface type. -/
def outputs (kinds : Kinds) (value : Json) : Reading (List (String × TypeRef)) := do
  withNames (← (← elements (← given value "fields")).mapM (output kinds))

/-- The interfaces of a type; an interface type need not list any. -/
def interfaces (kinds : Kinds) (kind : String) (value : Json) : Reading (List String) := do
  match ← optional? value "interfaces" with
  | some refs => (← elements refs).mapM (nameOfKind kinds "INTERFACE")
  | none => if kind = "INTERFACE" then return [] else .error .invalid

/-! ### Types -/

/-- A type with its name and kind, as the value spells it out. -/
structure Described where
  /-- The type's name. -/
  name : String
  /-- The type's kind. -/
  kind : String
  /-- The values of an enumeration. -/
  values : List String := []
  /-- The value that says more. -/
  value : Json

/-- The values of an enumeration. -/
def enumValues (value : Json) : Reading (List String) := do
  let names ← (← elements value).mapM fun item => do key (← required item "name")
  let texts ← names.mapM nameOf
  if texts.any fun text => text = "true" || text = "false" || text = "null" then .error .invalid
  else return texts.eraseDups

/-- Whether a value is the name of a standard type. -/
def isStandard (name : Json) : Bool := (name.string?.bind Schema.standardType?).isSome

/-- The kind of a type, and the values of an enumeration; the rest is not looked at yet. A
standard name may be that of a scalar, of an object or of an enumeration. -/
def describe (value : Json) : Reading Described := do
  let name ← required value "name"
  let kind ← orInvalid ((value.member? "kind").bind Json.string?)
  let plain (values : List String) : Reading Described :=
    return { name := ← nameOf name, kind := kind, values := values, value := value }
  match kind with
  | "SCALAR" | "OBJECT" => plain []
  | "INTERFACE" => if isStandard name then .error .invalid else plain []
  | "UNION" =>
    let _ ← given value "possibleTypes"
    if isStandard name then .error .invalid else plain []
  | "INPUT_OBJECT" =>
    let _ ← given value "inputFields"
    if isStandard name then .error .invalid else plain []
  | "ENUM" =>
    let values ← given value "enumValues"
    if !isSingle name then .error .invalid
    else if isStandard name then plain [] else plain (← enumValues values)
  | _ => .error .invalid

/-- The kind that a type of this name has in the end. -/
def Described.actualKind (d : Described) : String :=
  match Schema.standardType? d.name with
  | some standard => kindOfBody standard.body
  | none => d.kind

/-- What a type consists of, by its kind. -/
def bodyOf (kinds : Kinds) (d : Described) : Reading SchemaTypeBody := do
  match d.kind with
  | "SCALAR" => return .scalar
  | "OBJECT" =>
    return .object (← interfaces kinds d.kind d.value) (← outputs kinds d.value)
  | "INTERFACE" =>
    return .interface (← interfaces kinds d.kind d.value) (← outputs kinds d.value)
  | "UNION" =>
    return .union (← (← elements (← given d.value "possibleTypes")).mapM
      (nameOfKind kinds "OBJECT"))
  | "INPUT_OBJECT" => return .inputObject (← inputs kinds (← given d.value "inputFields"))
  | _ => return .enum d.values

/-- A type of the schema. Whatever is wrong inside it is a fault of the whole value. -/
def typeOf (kinds : Kinds) (d : Described) : Reading SchemaType :=
  match Schema.standardType? d.name with
  | some standard => .ok standard
  | none => match bodyOf kinds d with
    | .ok body => .ok ⟨d.name, body⟩
    | .error _ => .error .invalid

/-! ### The schema -/

/-- A root type: nothing, or the name of an object type. -/
def root (kinds : Kinds) (schema : Json) (key : String) : Reading (Option String) := do
  match ← optional? schema key with
  | none => return none
  | some ref => return some (← nameOfKind kinds "OBJECT" ref)

/-- Checks that a directive is spelled out. -/
def checkDirective (kinds : Kinds) (value : Json) : Reading Unit := do
  let arguments ← given value "args"
  let locations ← given value "locations"
  let name ← required value "name"
  let places ← elements locations
  let _ ← inputs kinds arguments
  let _ ← nameOf name
  for place in places do
    if !(place.string?.any GraphQL.Parser.directiveLocations.contains) then
      .error .invalid

/-- Checks the directives, if there are any. -/
def checkDirectives (kinds : Kinds) (schema : Json) : Reading Unit := do
  match ← optional? schema "directives" with
  | none => return ()
  | some values =>
    if isNothing values then return ()
    else for value in ← elements values do
      checkDirective kinds value

/-- The schema that an introspection result describes. -/
def schemaOf (value : Json) : Reading Schema := do
  let schema ← orInvalid ((value.member? "__schema").filter fun s => s.object?.isSome)
  let described ← (← elements (← required schema "types")).mapM describe
  let types := (Keyed.insertAll [] (described.map fun d => (d.name, d))).map Prod.snd
  let kinds := types.map fun d => (d.name, d.actualKind)
  let roots : RootTypes := {
    query := ← root kinds schema "queryType"
    mutation := ← root kinds schema "mutationType"
    subscription := ← root kinds schema "subscriptionType" }
  checkDirectives kinds schema
  let built ← types.mapM (typeOf kinds)
  orInvalid (Schema.ofTypes? (Schema.withStandardTypes [] built) roots)

end Introspection

end QueryTypes
