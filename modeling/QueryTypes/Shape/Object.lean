import QueryTypes.Schema.Basic
import QueryTypes.Shape.Draft
import QueryTypes.Shape.Error

/-!
# Object types of selections

The object type that a selection set describes, with a member for each field. A selection
set says this in part through fragments, and a member is *optional* if it applies to some
other type than the one around it.

Masked or not, adding selections (`QueryTypes.Shape.addSelections`) differs only in what a
spread adds, so that is a function handed to it: the mark of the fragment
(`QueryTypes.Shape.maskedSpread`), or the fragment's own selections
(`QueryTypes.Shape.openSpread`). Fragments may spread fragments; as long as none spreads
itself, no chain of spreads is longer than the list of fragments, which is what the depth
counts down. Selections are added in order, so the first failure in this order is the one
that is met.
-/

namespace QueryTypes

namespace Shape

open GraphQL (TypeRef Selection Fragment)
open TypeScript (TypeExpr Member)

/-! ### Wrappers -/

/-- A type whose value may be missing. -/
def nullable (type : TypeExpr) : TypeExpr := .reference "Maybe" [type]

/-- A list of values of a type. -/
def listOf (type : TypeExpr) : TypeExpr := .reference "Array" [type]

/-- A type inside the wrappers of a reference: a list at each list, and `Maybe` at each
place that is not marked as present. -/
def wrapped (inner : TypeExpr) : Bool → TypeRef → TypeExpr
  | true, .named _ => inner
  | false, .named _ => nullable inner
  | true, .list item => listOf (wrapped inner false item)
  | false, .list item => nullable (listOf (wrapped inner false item))
  | _, .nonNull type => wrapped inner true type

/-- The type of a value whose GraphQL type refers to `inner`. -/
def typeOf (inner : TypeExpr) (type : TypeRef) : TypeExpr := wrapped inner false type

/-! ### Leaves -/

/-- The type of a scalar, as an entry of the table of scalars. -/
def scalarEntry (name : String) : TypeExpr := .indexed "Scalars" name

/-- The type of a leaf: an enumeration by its name, anything else from the table of
scalars. -/
def leaf (schema : Schema) (name : String) : TypeExpr :=
  match (schema.find? name).bind SchemaType.enumValues? with
  | some _ => .named name
  | none => scalarEntry name

/-- The enumeration that a leaf refers to, if it does. -/
def leafEnums (schema : Schema) (name : String) : List String :=
  match (schema.find? name).bind SchemaType.enumValues? with
  | some _ => [name]
  | none => []

/-! ### Fields -/

/-- The type of the field that names the type of its object: the name itself on an object
type, else some string. -/
def typenameType (scope : Option SchemaType) : TypeExpr :=
  match scope with
  | some type => if type.isObject then .literal (.string type.name) else .keyword "string"
  | none => .keyword "string"

/-- The name of the type around a part. -/
def scopeName (scope : Option SchemaType) : Option String := scope.map SchemaType.name

/-- The type of a field in a scope. -/
def fieldType (document : String) (scope : Option SchemaType) (name : String) :
    Except ShapeError TypeRef :=
  match scope with
  | none => .error (.fieldOfUnknownType name document)
  | some type => match type.field? name with
    | none => .error (.unknownField type.name name document)
    | some fieldType => .ok fieldType

/-! ### Selections -/

/-- What a spread of the fragment of a name adds to a draft: how it does so may depend on the
type around it, and on whether members are optional there. -/
abbrev SpreadRule := Option SchemaType → Bool → Draft → String → Except ShapeError Draft

/-- Whether members are optional inside a fragment: they are if they were before, or if the
fragment applies to another type than the one around it. -/
def optionalInside (optional : Bool) (scope inner : Option SchemaType) : Bool :=
  optional || scopeName inner != scopeName scope

mutual

/-- Adds what a selection says to an object type of some scope. -/
def addSelection (schema : Schema) (document : String) (spread : SpreadRule)
    (scope : Option SchemaType) (optional : Bool) (draft : Draft) :
    Selection → Except ShapeError Draft
  | .field responseName name _ _ selections =>
    let key := responseName.getD name
    if name = "__typename" then
      .ok (draft.addMember (.mk key (typenameType scope) optional false))
    else match fieldType document scope name with
      | .error e => .error e
      | .ok type => match selections with
        | none => .ok ((draft.addMember
            (.mk key (typeOf (leaf schema type.baseName) type) optional false)).addEnums
              (leafEnums schema type.baseName))
        | some selections =>
          match addSelections schema document spread (schema.find? type.baseName) false {}
              selections with
          | .error e => .error e
          | .ok below => .ok ((draft.addMember
              (.mk key (typeOf below.toType type) optional false)).addEnums below.enums)
  | .spread fragment _ => spread scope optional draft fragment
  | .inlineFragment none _ selections =>
    addSelections schema document spread scope optional draft selections
  | .inlineFragment (some condition) _ selections =>
    match schema.find? condition with
    | none => .error (.unknownType condition document)
    | some type => addSelections schema document spread (some type)
        (optionalInside optional scope (some type)) draft selections

/-- Adds what some selections say, in order. -/
def addSelections (schema : Schema) (document : String) (spread : SpreadRule)
    (scope : Option SchemaType) (optional : Bool) (draft : Draft) :
    List Selection → Except ShapeError Draft
  | [] => .ok draft
  | selection :: rest =>
    match addSelection schema document spread scope optional draft selection with
    | .error e => .error e
    | .ok next => addSelections schema document spread scope optional next rest

end

/-! ### Spreads -/

/-- The fragment of a name; the last one if there are several. -/
def findFragment? (fragments : List Fragment) (name : String) : Option Fragment :=
  fragments.reverse.find? fun f => f.name = name

/-- What a spread adds while its fragment is masked. -/
def maskedSpread : SpreadRule := fun _ _ draft name => .ok (draft.addFragment name)

/-- What a spread adds while its fragment is not masked. -/
def openSpread (schema : Schema) (document : String) (fragments : List Fragment) :
    Nat → SpreadRule
  | 0, _, _, _, name => match findFragment? fragments name with
    | none => .error (.unknownFragment name document)
    | some _ => .error (.fragmentCycle name document)
  | depth + 1, scope, optional, draft, name => match findFragment? fragments name with
    | none => .error (.unknownFragment name document)
    | some fragment =>
      let inner := schema.find? fragment.condition
      addSelections schema document (openSpread schema document fragments depth) inner
        (optionalInside optional scope inner) draft fragment.selections

/-- What a spread adds in a batch with these fragments. -/
def spreadIn (schema : Schema) (masking : Bool) (fragments : List Fragment)
    (document : String) : SpreadRule :=
  if masking then maskedSpread
  else openSpread schema document fragments fragments.length

end Shape

end QueryTypes
