import QueryTypes.Keyed

/-!
# JSON values

A JSON value with the members of its objects in the order of the text. Whole
numbers of any size and floating-point numbers are told apart, because settings
treat them differently. Looking a member up takes the first of its name; a
reader keeps one member for each name.
-/

namespace QueryTypes

/-- A JSON value. -/
inductive Json where
  /-- The null value. -/
  | null
  /-- A truth value. -/
  | bool (value : Bool)
  /-- A number written without fraction and exponent. -/
  | int (value : Int)
  /-- Any other number. -/
  | float (value : Float)
  /-- A text. -/
  | string (value : String)
  /-- A list of values. -/
  | array (items : List Json)
  /-- Named values in the order of the text. -/
  | object (members : List (String × Json))
  deriving Inhabited

namespace Json

/-- The member of an object, if the value is one and has it. -/
def member? (value : Json) (key : String) : Option Json :=
  match value with
  | object members => Keyed.lookup key members
  | _ => none

/-- The text, if the value is one. -/
def string? : Json → Option String
  | string value => some value
  | _ => none

/-- The truth value, if the value is one. -/
def bool? : Json → Option Bool
  | bool value => some value
  | _ => none

/-- The items, if the value is a list. -/
def array? : Json → Option (List Json)
  | array items => some items
  | _ => none

/-- The members, if the value is an object. -/
def object? : Json → Option (List (String × Json))
  | object members => some members
  | _ => none

/-- Whether the value is the null value. -/
def isNull : Json → Bool
  | null => true
  | _ => false

end Json

end QueryTypes
