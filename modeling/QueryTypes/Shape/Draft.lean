import QueryTypes.Naming
import QueryTypes.TypeScript.Type

/-!
# Object types in the making

An object type grows member by member. A member comes up once under each response key, at
the place where the key came up first; a required member takes the place of an optional one
of the same key. Masked fragments are collected into one last member. Along with the type go
the enumerations it refers to, also those of members that gave way to others.
-/

namespace QueryTypes

namespace Shape

open TypeScript (TypeExpr Member)

/-- An object type in the making. -/
structure Draft where
  /-- The members so far, no two of one key. -/
  members : List Member := []
  /-- The masked fragments so far, each once. -/
  fragments : List String := []
  /-- The enumerations referred to so far, each once. -/
  enums : List String := []
  deriving Inhabited

/-- Adds a member. A member of the same key stays, unless it is optional and the new one
is not. -/
def insertMember (member : Member) : List Member → List Member
  | [] => [member]
  | old :: rest =>
    if old.key = member.key then
      (if old.isOptional && !member.isOptional then member else old) :: rest
    else old :: insertMember member rest

namespace Draft

/-- Adds a member. -/
def addMember (draft : Draft) (member : Member) : Draft :=
  { draft with members := insertMember member draft.members }

/-- Adds a masked fragment. -/
def addFragment (draft : Draft) (fragment : String) : Draft :=
  if fragment ∈ draft.fragments then draft
  else { draft with fragments := draft.fragments ++ [fragment] }

/-- Adds a reference to an enumeration. -/
def addEnum (draft : Draft) (enum : String) : Draft :=
  if enum ∈ draft.enums then draft else { draft with enums := draft.enums ++ [enum] }

/-- Adds references to enumerations. -/
def addEnums (draft : Draft) (enums : List String) : Draft := enums.foldl addEnum draft

/-- The member that lists the masked fragments. -/
def fragmentsMember (fragments : List String) : Member :=
  .mk Naming.fragmentsKey
    (.object (fragments.map fun name => .mk name (.literal (.boolean true)) false false))
    false false

/-- The finished object type. -/
def toType (draft : Draft) : TypeExpr :=
  .object (draft.members ++
    if draft.fragments.isEmpty then [] else [fragmentsMember draft.fragments])

end Draft

end Shape

end QueryTypes
