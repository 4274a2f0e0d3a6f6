import QueryTypes.TypeScript.Type

/-!
# Regular type expressions

A type expression is regular (`QueryTypes.TypeScript.TypeExpr.IsRegular`) if its names could not be
taken for keywords or truth values and its unions are unions of at least two types, of which none is
a union itself. Keys of members and indices may be any texts. A regular type expression has no hole,
and so it has a text (`QueryTypes.TypeScript.TypeExpr.render?_of_isRegular`).
-/

namespace QueryTypes

namespace TypeScript

/-- The types that are written as keywords. -/
def keywords : List String :=
  ["string", "number", "boolean", "any", "never", "null", "undefined"]

theorem isIdentifier_of_mem_keywords : ∀ name ∈ keywords, isIdentifier name.toList = true := by
  decide

/-- **A name that a type may be referred to by**: an identifier that is no keyword and no truth
value. -/
structure IsTypeName (name : String) : Prop where
  /-- It is an identifier. -/
  identifier : isIdentifier name.toList = true
  /-- It is no keyword. -/
  not_keyword : name ∉ keywords
  /-- It is no truth value. -/
  not_truth : ∀ value, name ≠ (Literal.boolean value).render

namespace TypeExpr

/-- Whether a type expression is one of several types. -/
def isUnion : TypeExpr → Bool
  | .union _ => true
  | _ => false

end TypeExpr

mutual

/-- **A regular type expression** is made of keywords, names, literals and object types, and of
unions of at least two types of which none is a union itself. Any texts may be keys and indices. -/
def TypeExpr.IsRegular : TypeExpr → Prop
  | .keyword name => name ∈ keywords
  | .reference name arguments => IsTypeName name ∧ TypeExpr.IsRegularInAll arguments
  | .indexed object _ => IsTypeName object
  | .literal _ => True
  | .union types => 2 ≤ types.length ∧ (∀ type ∈ types, type.isUnion = false) ∧
    TypeExpr.IsRegularInAll types
  | .object members => Member.IsRegularInAll members
  | .hole _ => False

/-- Several type expressions are regular. -/
def TypeExpr.IsRegularInAll : List TypeExpr → Prop
  | [] => True
  | type :: rest => type.IsRegular ∧ TypeExpr.IsRegularInAll rest

/-- The type of a member is regular. -/
def Member.IsRegular : Member → Prop
  | .mk _ type _ _ => type.IsRegular

/-- The types of several members are regular. -/
def Member.IsRegularInAll : List Member → Prop
  | [] => True
  | member :: rest => member.IsRegular ∧ Member.IsRegularInAll rest

end

theorem TypeExpr.isRegularInAll_iff {types : List TypeExpr} :
    TypeExpr.IsRegularInAll types ↔ ∀ type ∈ types, type.IsRegular := by
  induction types with
  | nil => simp [TypeExpr.IsRegularInAll]
  | cons type rest ih => rw [TypeExpr.IsRegularInAll, ih, List.forall_mem_cons]

theorem Member.isRegularInAll_iff {members : List Member} :
    Member.IsRegularInAll members ↔ ∀ m ∈ members, m.IsRegular := by
  induction members with
  | nil => simp [Member.IsRegularInAll]
  | cons m rest ih => rw [Member.IsRegularInAll, ih, List.forall_mem_cons]

/-- Literals are regular. -/
theorem TypeExpr.isRegular_literal (value : Literal) : (TypeExpr.literal value).IsRegular := by
  rw [TypeExpr.IsRegular]
  trivial

/-! ### Texts -/

mutual

/-- A regular type expression has no hole. -/
theorem TypeExpr.firstHole_eq_none : ∀ {type : TypeExpr}, type.IsRegular → type.firstHole = none
  | .keyword _, _ | .indexed _ _, _ | .literal _, _ => by rw [TypeExpr.firstHole] <;> nofun
  | .reference _ _, h => by
    rw [TypeExpr.IsRegular] at h
    rw [TypeExpr.firstHole]
    exact TypeExpr.firstHoleIn_eq_none h.2
  | .union _, h => by
    rw [TypeExpr.IsRegular] at h
    rw [TypeExpr.firstHole]
    exact TypeExpr.firstHoleIn_eq_none h.2.2
  | .object _, h => by
    rw [TypeExpr.IsRegular] at h
    rw [TypeExpr.firstHole]
    exact Member.firstHoleIn_eq_none h
  | .hole _, h => by
    rw [TypeExpr.IsRegular] at h
    exact h.elim

theorem TypeExpr.firstHoleIn_eq_none : ∀ {types : List TypeExpr},
    TypeExpr.IsRegularInAll types → TypeExpr.firstHoleIn types = none
  | [], _ => by rw [TypeExpr.firstHoleIn]
  | type :: rest, h => by
    rw [TypeExpr.IsRegularInAll] at h
    rw [TypeExpr.firstHoleIn, TypeExpr.firstHole_eq_none h.1]
    exact TypeExpr.firstHoleIn_eq_none h.2

theorem Member.firstHoleIn_eq_none : ∀ {members : List Member},
    Member.IsRegularInAll members → Member.firstHoleIn members = none
  | [], _ => by rw [Member.firstHoleIn]
  | .mk _ type _ _ :: rest, h => by
    rw [Member.IsRegularInAll, Member.IsRegular] at h
    rw [Member.firstHoleIn, Member.firstHole, TypeExpr.firstHole_eq_none h.1]
    exact Member.firstHoleIn_eq_none h.2

end

/-- **A regular type expression has a text.** -/
theorem TypeExpr.render?_of_isRegular {type : TypeExpr} (h : type.IsRegular) (depth : Int) :
    type.render? depth = .ok (type.render depth) := by
  rw [TypeExpr.render?, TypeExpr.firstHole_eq_none h]

end TypeScript

end QueryTypes
