import QueryTypes.Json.Basic
import QueryTypes.Decimal.Shortest
import QueryTypes.Text.Quoted

/-!
# Writing JSON

A JSON value on one line, in pure ASCII and without blanks.
-/

namespace QueryTypes

namespace Json

mutual

/-- The text of a value. -/
def write : Json → String
  | null => "null"
  | bool true => "true"
  | bool false => "false"
  | int value => toString value
  | float value => Decimal.floatText value
  | string value => Text.quoted value
  | array items => "[" ++ Text.join "," (writeItems items) ++ "]"
  | object members => "\x7b" ++ Text.join "," (writeMembers members) ++ "\x7d"

/-- The texts of the items of a list. -/
def writeItems : List Json → List String
  | [] => []
  | item :: rest => write item :: writeItems rest

/-- The texts of the members of an object. -/
def writeMembers : List (String × Json) → List String
  | [] => []
  | (key, value) :: rest => (Text.quoted key ++ ":" ++ write value) :: writeMembers rest

end

end Json

end QueryTypes
