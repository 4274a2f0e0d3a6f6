import QueryTypes.Keyed
import QueryTypes.TypeScript.Program

/-!
# Assignability

Whether a value of one type may be passed where another type is expected is a matter of the
structure of both types (`QueryTypes.TypeScript.Assignable`). A required member of the object type
that is expected has to be there, a member of the same key has to have an assignable type, and
other members do no harm. Names stand for what they are declared as, in the file that the type is
written in or in the one that it imports them from, so a type is compared together with the program
that it is read in (`QueryTypes.TypeScript.Reading`).
-/

namespace QueryTypes

namespace TypeScript

/-! ### What names stand for -/

mutual

/-- The type with types in the place of parameters. -/
def TypeExpr.substitute (arguments : List (String × TypeExpr)) : TypeExpr → TypeExpr
  | .keyword name => .keyword name
  | .reference name own => match own, Keyed.lookup name arguments with
    | [], some type => type
    | _, _ => .reference name (TypeExpr.substituteInAll arguments own)
  | .indexed object index => .indexed object index
  | .literal value => .literal value
  | .union types => .union (TypeExpr.substituteInAll arguments types)
  | .object members => .object (Member.substituteInAll arguments members)
  | .hole label => .hole label

/-- Several types with types in the place of parameters. -/
def TypeExpr.substituteInAll (arguments : List (String × TypeExpr)) :
    List TypeExpr → List TypeExpr
  | [] => []
  | type :: rest => type.substitute arguments :: TypeExpr.substituteInAll arguments rest

/-- A member with types in the place of parameters. -/
def Member.substitute (arguments : List (String × TypeExpr)) : Member → Member
  | .mk key type optional readonly => .mk key (type.substitute arguments) optional readonly

/-- Several members with types in the place of parameters. -/
def Member.substituteInAll (arguments : List (String × TypeExpr)) : List Member → List Member
  | [] => []
  | member :: rest => member.substitute arguments :: Member.substituteInAll arguments rest

end

/-- The type that a name with arguments is declared as. -/
def Alias.instantiate (a : Alias) (arguments : List TypeExpr) : TypeExpr :=
  match a.parameters with
  | [] => a.type
  | parameters => a.type.substitute (parameters.zip arguments)

/-- A type as it is read in a program, where its names are looked up. -/
structure Reading where
  /-- The program that the type is read in. -/
  program : Program
  /-- The type. -/
  type : TypeExpr

/-- What a type stands for, if it is a name that its program declares or imports, or an entry of an
object type. Paths of imports lead to modules. -/
def Reading.meaning? (modules : String → Option Program) : Reading → Option Reading
  | ⟨program, .reference name arguments⟩ => match program.findAlias? name with
    | some a => some ⟨program, a.instantiate arguments⟩
    | none => match arguments, program.imports.find? fun i => i.names.contains name with
      | [], some i => (modules i.source).map fun other => ⟨other, .named name⟩
      | _, _ => none
  | ⟨program, .indexed object index⟩ =>
    match (program.findAlias? object).map Alias.type with
    | some (.object members) =>
      (members.find? fun m => m.key = index).map fun m => ⟨program, m.type⟩
    | _ => none
  | _ => none

/-! ### Assignability -/

/-- The keyword for all values of a literal's sort. -/
def Literal.keyword : Literal → String
  | boolean _ => "boolean"
  | string _ => "string"
  | integer _ => "number"

/-- **Values of one type may be passed where another is expected.** These are the rules for types
that shapes are made of. The type that the settings give a scalar is a keyword here, whatever its
text; unless it is one of those that stand for any value or for none, it is assignable to the same
text only. -/
inductive Assignable (modules : String → Option Program) : Reading → Reading → Prop where
  /-- A keyword to itself. -/
  | keyword {p q : Program} {name : String} :
    Assignable modules ⟨p, .keyword name⟩ ⟨q, .keyword name⟩
  /-- A literal to itself. -/
  | literal {p q : Program} {value : Literal} :
    Assignable modules ⟨p, .literal value⟩ ⟨q, .literal value⟩
  /-- A literal to the keyword for its sort. -/
  | widened {p q : Program} {value : Literal} :
    Assignable modules ⟨p, .literal value⟩ ⟨q, .keyword value.keyword⟩
  /-- No value to every type. -/
  | never {p : Program} {t : Reading} : Assignable modules ⟨p, .keyword "never"⟩ t
  /-- Any value to every type but that without values. -/
  | any {p : Program} {t : Reading} (hmeaning : t.meaning? modules = none)
    (hnever : t.type ≠ .keyword "never") : Assignable modules ⟨p, .keyword "any"⟩ t
  /-- Every type to those of all values. -/
  | top {s : Reading} {q : Program} {name : String} (hname : name = "any" ∨ name = "unknown") :
    Assignable modules s ⟨q, .keyword name⟩
  /-- A name, if what it stands for is assignable. -/
  | source {s meaning t : Reading} (hmeaning : s.meaning? modules = some meaning)
    (h : Assignable modules meaning t) : Assignable modules s t
  /-- To a name, if to what it stands for. -/
  | target {s t meaning : Reading} (hmeaning : t.meaning? modules = some meaning)
    (h : Assignable modules s meaning) : Assignable modules s t
  /-- One of several types, if each of them is assignable. -/
  | each {p : Program} {types : List TypeExpr} {t : Reading}
    (h : ∀ type ∈ types, Assignable modules ⟨p, type⟩ t) : Assignable modules ⟨p, .union types⟩ t
  /-- To one of several types, if to some of them. -/
  | one {s : Reading} {q : Program} {types : List TypeExpr} {type : TypeExpr}
    (hmem : type ∈ types) (h : Assignable modules s ⟨q, type⟩) :
    Assignable modules s ⟨q, .union types⟩
  /-- Lists, if their items are. -/
  | array {p q : Program} {item expected : TypeExpr}
    (hp : (Reading.mk p (.reference "Array" [item])).meaning? modules = none)
    (hq : (Reading.mk q (.reference "Array" [expected])).meaning? modules = none)
    (h : Assignable modules ⟨p, item⟩ ⟨q, expected⟩) :
    Assignable modules ⟨p, .reference "Array" [item]⟩ ⟨q, .reference "Array" [expected]⟩
  /-- **Objects**, if required members are there, and members of one key have assignable types. -/
  | object {p q : Program} {members expected : List Member}
    (covers : ∀ n ∈ expected, n.isOptional = false →
      ∃ m ∈ members, m.key = n.key ∧ m.isOptional = false)
    (fits : ∀ n ∈ expected, ∀ m ∈ members, m.key = n.key →
      Assignable modules ⟨p, m.type⟩ ⟨q, n.type⟩) :
    Assignable modules ⟨p, .object members⟩ ⟨q, .object expected⟩

namespace Assignable

variable {modules : String → Option Program} {p q : Program} {s t meaning : Reading}
  {members expected : List Member}

/-- **Between object types** there is no other way than by their members. -/
theorem object_iff : Assignable modules ⟨p, .object members⟩ ⟨q, .object expected⟩ ↔
    (∀ n ∈ expected, n.isOptional = false →
      ∃ m ∈ members, m.key = n.key ∧ m.isOptional = false) ∧
    ∀ n ∈ expected, ∀ m ∈ members, m.key = n.key →
      Assignable modules ⟨p, m.type⟩ ⟨q, n.type⟩ := by
  constructor
  · intro h
    cases h with
    | source hmeaning h => cases hmeaning
    | target hmeaning h => cases hmeaning
    | object covers fits => exact ⟨covers, fits⟩
  · rintro ⟨covers, fits⟩
    exact .object covers fits

/-- An object type is assignable to a name exactly if it is to what the name stands for. -/
theorem object_target_iff (hmeaning : t.meaning? modules = some meaning) :
    Assignable modules ⟨p, .object members⟩ t ↔
      Assignable modules ⟨p, .object members⟩ meaning := by
  constructor
  · intro h
    cases h with
    | top hname => cases hmeaning
    | source hmeaning h => cases hmeaning
    | target hmeaning' h =>
      obtain rfl := Option.some.inj (hmeaning.symm.trans hmeaning')
      exact h
    | one hmem h => cases hmeaning
    | object covers fits => cases hmeaning
  · exact .target hmeaning

end Assignable

/-! ### Missing values and objects -/

/-- A value of the type may be missing. -/
inductive CanBeNull (modules : String → Option Program) : Reading → Prop where
  /-- There is no other value. -/
  | null {s : Reading} (htype : s.type = .null) : CanBeNull modules s
  /-- It may be missing by one of several types. -/
  | union {p : Program} {types : List TypeExpr} {type : TypeExpr} (hmem : type ∈ types)
    (h : CanBeNull modules ⟨p, type⟩) : CanBeNull modules ⟨p, .union types⟩
  /-- It may be missing by what a name stands for. -/
  | name {s meaning : Reading} (hmeaning : s.meaning? modules = some meaning)
    (h : CanBeNull modules meaning) : CanBeNull modules s

/-- The type is an object type, or a name for one. -/
inductive IsObject (modules : String → Option Program) : Reading → Prop where
  /-- An object type. -/
  | object {p : Program} {members : List Member} : IsObject modules ⟨p, .object members⟩
  /-- A name for an object type. -/
  | name {s meaning : Reading} (hmeaning : s.meaning? modules = some meaning)
    (h : IsObject modules meaning) : IsObject modules s

section Missing

variable {modules : String → Option Program} {p : Program} {s t meaning : Reading}

/-- A value of a name may be missing only by what the name stands for. -/
theorem CanBeNull.follow (h : CanBeNull modules s)
    (hmeaning : s.meaning? modules = some meaning) : CanBeNull modules meaning := by
  cases h with
  | null htype =>
    obtain ⟨program, type⟩ := s
    cases htype
    cases hmeaning
  | union hmem h => cases hmeaning
  | name hmeaning' h =>
    obtain rfl := Option.some.inj (hmeaning.symm.trans hmeaning')
    exact h

/-- A value of several types may be missing only by one of them. -/
theorem CanBeNull.exists_of_union {types : List TypeExpr}
    (h : CanBeNull modules ⟨p, .union types⟩) : ∃ type ∈ types, CanBeNull modules ⟨p, type⟩ := by
  cases h with
  | null htype => cases htype
  | union hmem h => exact ⟨_, hmem, h⟩
  | name hmeaning h => cases hmeaning

/-- What stands for nothing else and is no union has no missing value but by being `null`. -/
theorem CanBeNull.eq_null (h : CanBeNull modules s) (hmeaning : s.meaning? modules = none)
    (hunion : ∀ types, s.type ≠ .union types) : s.type = .null := by
  cases h with
  | null htype => exact htype
  | union hmem h => exact absurd rfl (hunion _)
  | name hmeaning' h => cases hmeaning.symm.trans hmeaning'

/-- A name is a name for an object type only by what it stands for. -/
theorem IsObject.follow (h : IsObject modules s) (hmeaning : s.meaning? modules = some meaning) :
    IsObject modules meaning := by
  cases h with
  | object => cases hmeaning
  | name hmeaning' h =>
    obtain rfl := Option.some.inj (hmeaning.symm.trans hmeaning')
    exact h

/-- What stands for nothing else is an object type only by itself. -/
theorem IsObject.exists_members (h : IsObject modules s) (hmeaning : s.meaning? modules = none) :
    ∃ members, s.type = .object members := by
  cases h with
  | object => exact ⟨_, rfl⟩
  | name hmeaning' h => cases hmeaning.symm.trans hmeaning'

/-- **Where an object is expected, no value may be missing.** The induction is on how the one type
is assignable to the other: each rule leads to a type that can be missing, and to one of objects. -/
theorem Assignable.not_isObject (h : Assignable modules s t) (missing : CanBeNull modules s) :
    ¬ IsObject modules t := by
  intro isObject
  induction h with
  | keyword | top => cases (isObject.exists_members rfl).choose_spec
  | literal | widened => cases missing.eq_null rfl nofun
  | never | any => exact absurd (TypeExpr.keyword.inj (missing.eq_null rfl nofun)) (by decide)
  | source hmeaning h ih => exact ih (missing.follow hmeaning) isObject
  | target hmeaning h ih => exact ih missing (isObject.follow hmeaning)
  | each h ih =>
    obtain ⟨type, hmem, missing⟩ := missing.exists_of_union
    exact ih type hmem missing isObject
  | one hmem h ih => cases (isObject.exists_members rfl).choose_spec
  | array hp hq h ih => cases (isObject.exists_members hq).choose_spec
  | object covers fits ih => cases missing.eq_null rfl nofun

end Missing

end TypeScript

end QueryTypes
