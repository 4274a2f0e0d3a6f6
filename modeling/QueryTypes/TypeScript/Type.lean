import QueryTypes.Text.Quoted
import QueryTypes.Text.SingleQuoted

/-!
# TypeScript types

The type expressions that the generated files are made of, and their text. An
object type goes over several lines, one member a line, each level four blanks
further to the right; everything else stays on its line.

An expression may hold a *hole*: a place where a type is still missing. A hole
has no text, so `QueryTypes.TypeScript.TypeExpr.render?` refuses an expression
with a hole and names the first one;
`QueryTypes.TypeScript.TypeExpr.render` is the text of an expression without.
-/

namespace QueryTypes

namespace TypeScript

/-! ### Type expressions -/

/-- A literal that is used as a type. -/
inductive Literal where
  /-- `true` or `false`. -/
  | boolean (value : Bool)
  /-- A string. -/
  | string (value : String)
  /-- A whole number. -/
  | integer (value : Int)
  deriving DecidableEq, Inhabited

mutual

/-- A type expression. -/
inductive TypeExpr where
  /-- A type that is written as a keyword, such as `null` or `string`. -/
  | keyword (name : String)
  /-- A named type with its arguments. -/
  | reference (name : String) (arguments : List TypeExpr)
  /-- The type found in an object type under an index. -/
  | indexed (object index : String)
  /-- A literal. -/
  | literal (value : Literal)
  /-- One of several types. -/
  | union (types : List TypeExpr)
  /-- An object type. -/
  | object (members : List Member)
  /-- A place where a type is missing. -/
  | hole (label : String)

/-- A member of an object type. -/
inductive Member where
  /-- A key and its type, and whether it may be left out and may not be assigned. -/
  | mk (key : String) (type : TypeExpr) (optional readonly : Bool)

end

instance : Inhabited TypeExpr := ⟨.union []⟩

namespace Member

/-- The member's key. -/
def key : Member → String
  | mk key _ _ _ => key

/-- The member's type. -/
def type : Member → TypeExpr
  | mk _ type _ _ => type

/-- Whether the member may be left out. -/
def isOptional : Member → Bool
  | mk _ _ optional _ => optional

/-- Whether the member may not be assigned. -/
def isReadonly : Member → Bool
  | mk _ _ _ readonly => readonly

end Member

namespace TypeExpr

/-- The type with the one value `null`. -/
def null : TypeExpr := keyword "null"

/-- The type with the one value `undefined`. -/
def undefined : TypeExpr := keyword "undefined"

/-- A named type without arguments. -/
def named (name : String) : TypeExpr := reference name []

end TypeExpr

/-! ### Property keys -/

/-- The characters that may begin an identifier. -/
def isIdentifierStart (c : Char) : Bool :=
  ('A' ≤ c && c ≤ 'Z') || ('a' ≤ c && c ≤ 'z') || c = '_' || c = '$'

/-- The characters that may continue an identifier. -/
def isIdentifierRest (c : Char) : Bool :=
  isIdentifierStart c || ('0' ≤ c && c ≤ '9')

/-- Whether the characters form an identifier. -/
def isIdentifier : List Char → Bool
  | [] => false
  | c :: rest => isIdentifierStart c && rest.all isIdentifierRest

/-- Whether a key is written without quotes: an identifier, which one line end may
follow. -/
def isBareKey (key : List Char) : Bool :=
  isIdentifier key || (key.getLast? = some '\n' && isIdentifier key.dropLast)

/-- A property key, in quotes unless it can do without. -/
def propertyKey (key : String) : String :=
  if isBareKey key.toList then key else Text.quoted key

/-! ### Text -/

/-- The text of a literal. -/
def Literal.render : Literal → String
  | boolean true => "true"
  | boolean false => "false"
  | string value => Text.quoted value
  | integer value => toString value

/-- The blanks before a line at some depth. There are none before the first level. -/
def indentation (depth : Int) : String := Text.blanks (4 * depth).toNat

mutual

/-- The text of a type expression inside an object type of this depth. -/
def TypeExpr.render (depth : Int) : TypeExpr → String
  | .keyword name => name
  | .reference name [] => name
  | .reference name (argument :: rest) =>
    name ++ "<" ++ Text.join ", " (argument.render depth :: TypeExpr.renderAll depth rest) ++ ">"
  | .indexed object index => object ++ "[" ++ Text.quoted index ++ "]"
  | .literal value => value.render
  | .union types => Text.join " | " (TypeExpr.renderAll depth types)
  | .object [] => "\x7b\x7d"
  | .object (member :: rest) =>
    "\x7b\n" ++ Text.join "\n" (member.render (depth + 1) :: Member.renderAll (depth + 1) rest) ++
      "\n" ++ indentation depth ++ "\x7d"
  | .hole _ => ""

/-- The texts of several type expressions. -/
def TypeExpr.renderAll (depth : Int) : List TypeExpr → List String
  | [] => []
  | type :: rest => type.render depth :: TypeExpr.renderAll depth rest

/-- The line of a member at some depth. -/
def Member.render (depth : Int) : Member → String
  | .mk key type optional readonly =>
    indentation depth ++ (if readonly then "readonly " else "") ++ propertyKey key ++
      (if optional then "?" else "") ++ ": " ++ type.render depth ++ ";"

/-- The lines of several members. -/
def Member.renderAll (depth : Int) : List Member → List String
  | [] => []
  | member :: rest => member.render depth :: Member.renderAll depth rest

end

/-! ### Holes -/

mutual

/-- The first hole of an expression, in the order of the text. -/
def TypeExpr.firstHole : TypeExpr → Option String
  | .reference _ arguments => TypeExpr.firstHoleIn arguments
  | .union types => TypeExpr.firstHoleIn types
  | .object members => Member.firstHoleIn members
  | .hole label => some label
  | _ => none

/-- The first hole of several expressions. -/
def TypeExpr.firstHoleIn : List TypeExpr → Option String
  | [] => none
  | type :: rest => match type.firstHole with
    | some label => some label
    | none => TypeExpr.firstHoleIn rest

/-- The first hole of a member. -/
def Member.firstHole : Member → Option String
  | .mk _ type _ _ => type.firstHole

/-- The first hole of several members. -/
def Member.firstHoleIn : List Member → Option String
  | [] => none
  | member :: rest => match member.firstHole with
    | some label => some label
    | none => Member.firstHoleIn rest

end

/-- A type expression has a hole and so no text. -/
structure HoleError where
  /-- What stands in the hole. -/
  label : String
  deriving DecidableEq

/-- What is said about a hole. -/
def HoleError.message (e : HoleError) : String :=
  "Cannot print type node " ++ Text.quotedName e.label

/-- The text of a type expression, if it has no hole. -/
def TypeExpr.render? (depth : Int) (type : TypeExpr) : Except HoleError String :=
  match type.firstHole with
  | some label => .error ⟨label⟩
  | none => .ok (type.render depth)

/-- A type expression has a text exactly if it has no hole. -/
theorem TypeExpr.render?_eq_ok_iff {depth : Int} {type : TypeExpr} {text : String} :
    type.render? depth = .ok text ↔ type.firstHole = none ∧ type.render depth = text := by
  unfold TypeExpr.render?
  cases type.firstHole <;> simp

end TypeScript

end QueryTypes
