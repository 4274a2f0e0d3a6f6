import QueryTypes.TypeScript.Program

/-!
# Names that types refer to

A type expression refers to other types by name: with arguments, without any, or by an entry of
an object type. A program whose types refer only to names that it declares or imports is
*closed* (`QueryTypes.TypeScript.Program.IsClosed`).

To say which names and which entries may stand in a type, at any depth, there is
`QueryTypes.TypeScript.TypeExpr.RefersOnly`.
-/

namespace QueryTypes

namespace TypeScript

mutual

/-- The names that a type expression refers to, in the order of the text. -/
def TypeExpr.references : TypeExpr → List String
  | .keyword _ => []
  | .reference name arguments => name :: TypeExpr.referencesInAll arguments
  | .indexed object _ => [object]
  | .literal _ => []
  | .union types => TypeExpr.referencesInAll types
  | .object members => Member.referencesInAll members
  | .hole _ => []

/-- The names that several type expressions refer to. -/
def TypeExpr.referencesInAll : List TypeExpr → List String
  | [] => []
  | type :: rest => type.references ++ TypeExpr.referencesInAll rest

/-- The names that a member refers to. -/
def Member.references : Member → List String
  | .mk _ type _ _ => type.references

/-- The names that several members refer to. -/
def Member.referencesInAll : List Member → List String
  | [] => []
  | member :: rest => member.references ++ Member.referencesInAll rest

end

@[simp] theorem TypeExpr.references_named (name : String) : (named name).references = [name] := by
  rw [named, references, referencesInAll]

@[simp] theorem TypeExpr.references_null : null.references = [] := by
  rw [null, references]

@[simp] theorem TypeExpr.references_undefined : undefined.references = [] := by
  rw [undefined, references]

/-! ### Names and entries of a kind -/

mutual

/-- Whatever a type expression refers to, at any depth, is of a kind: the names of types are among
some names, and the entries of object types among some entries. -/
def TypeExpr.RefersOnly (names : String → Prop) (entries : String → String → Prop) :
    TypeExpr → Prop
  | .keyword _ => True
  | .reference name arguments => names name ∧ TypeExpr.RefersOnlyInAll names entries arguments
  | .indexed object index => entries object index
  | .literal _ => True
  | .union types => TypeExpr.RefersOnlyInAll names entries types
  | .object members => Member.RefersOnlyInAll names entries members
  | .hole _ => True

/-- Whatever several type expressions refer to is of a kind. -/
def TypeExpr.RefersOnlyInAll (names : String → Prop) (entries : String → String → Prop) :
    List TypeExpr → Prop
  | [] => True
  | type :: rest =>
    type.RefersOnly names entries ∧ TypeExpr.RefersOnlyInAll names entries rest

/-- Whatever a member refers to is of a kind. -/
def Member.RefersOnly (names : String → Prop) (entries : String → String → Prop) :
    Member → Prop
  | .mk _ type _ _ => type.RefersOnly names entries

/-- Whatever several members refer to is of a kind. -/
def Member.RefersOnlyInAll (names : String → Prop) (entries : String → String → Prop) :
    List Member → Prop
  | [] => True
  | member :: rest =>
    member.RefersOnly names entries ∧ Member.RefersOnlyInAll names entries rest

end

section RefersOnly

variable {names more : String → Prop} {entries others : String → String → Prop}

theorem TypeExpr.refersOnlyInAll_iff {types : List TypeExpr} :
    TypeExpr.RefersOnlyInAll names entries types ↔
      ∀ type ∈ types, type.RefersOnly names entries := by
  induction types with
  | nil => simp [TypeExpr.RefersOnlyInAll]
  | cons type rest ih => rw [TypeExpr.RefersOnlyInAll, ih, List.forall_mem_cons]

theorem Member.refersOnlyInAll_iff {members : List Member} :
    Member.RefersOnlyInAll names entries members ↔
      ∀ m ∈ members, m.RefersOnly names entries := by
  induction members with
  | nil => simp [Member.RefersOnlyInAll]
  | cons m rest ih => rw [Member.RefersOnlyInAll, ih, List.forall_mem_cons]

/-- An object type refers to what its members refer to. -/
theorem TypeExpr.refersOnly_object_iff {members : List Member} :
    (TypeExpr.object members).RefersOnly names entries ↔
      ∀ m ∈ members, m.RefersOnly names entries := by
  rw [TypeExpr.RefersOnly, Member.refersOnlyInAll_iff]

mutual

theorem TypeExpr.RefersOnly.mono (hn : ∀ name, names name → more name)
    (he : ∀ object index, entries object index → others object index) :
    ∀ {type : TypeExpr}, type.RefersOnly names entries → type.RefersOnly more others
  | .keyword _, _ => by rw [TypeExpr.RefersOnly]; trivial
  | .reference name arguments, h => by
    rw [TypeExpr.RefersOnly] at h ⊢
    exact ⟨hn name h.1, TypeExpr.RefersOnlyInAll.mono hn he h.2⟩
  | .indexed object index, h => by
    rw [TypeExpr.RefersOnly] at h ⊢
    exact he object index h
  | .literal _, _ => by rw [TypeExpr.RefersOnly]; trivial
  | .union types, h => by
    rw [TypeExpr.RefersOnly] at h ⊢
    exact TypeExpr.RefersOnlyInAll.mono hn he h
  | .object members, h => by
    rw [TypeExpr.RefersOnly] at h ⊢
    exact Member.RefersOnlyInAll.mono hn he h
  | .hole _, _ => by rw [TypeExpr.RefersOnly]; trivial

theorem TypeExpr.RefersOnlyInAll.mono (hn : ∀ name, names name → more name)
    (he : ∀ object index, entries object index → others object index) :
    ∀ {types : List TypeExpr}, TypeExpr.RefersOnlyInAll names entries types →
      TypeExpr.RefersOnlyInAll more others types
  | [], _ => by rw [TypeExpr.RefersOnlyInAll]; trivial
  | type :: rest, h => by
    rw [TypeExpr.RefersOnlyInAll] at h ⊢
    exact ⟨TypeExpr.RefersOnly.mono hn he h.1, TypeExpr.RefersOnlyInAll.mono hn he h.2⟩

theorem Member.RefersOnly.mono (hn : ∀ name, names name → more name)
    (he : ∀ object index, entries object index → others object index) :
    ∀ {member : Member}, member.RefersOnly names entries → member.RefersOnly more others
  | .mk _ _ _ _, h => by
    rw [Member.RefersOnly] at h ⊢
    exact TypeExpr.RefersOnly.mono hn he h

theorem Member.RefersOnlyInAll.mono (hn : ∀ name, names name → more name)
    (he : ∀ object index, entries object index → others object index) :
    ∀ {members : List Member}, Member.RefersOnlyInAll names entries members →
      Member.RefersOnlyInAll more others members
  | [], _ => by rw [Member.RefersOnlyInAll]; trivial
  | member :: rest, h => by
    rw [Member.RefersOnlyInAll] at h ⊢
    exact ⟨Member.RefersOnly.mono hn he h.1, Member.RefersOnlyInAll.mono hn he h.2⟩

end

end RefersOnly

/-! ### Closed programs -/

/-- The names that an alias refers to, apart from its own parameters. -/
def Alias.freeReferences (a : Alias) : List String :=
  a.type.references.filter fun name => !a.parameters.contains name

/-- Every name that the types of a program refer to is declared or imported by it. -/
def Program.IsClosed (program : Program) : Prop :=
  ∀ a ∈ program.aliases, ∀ name ∈ a.freeReferences,
    name ∈ program.importedNames ∨ name ∈ program.aliasNames

/-- A program is closed if all that it refers to is among what it imports and declares. -/
theorem Program.isClosed_of_subset {program : Program}
    (h : program.aliases.flatMap Alias.freeReferences ⊆
      program.importedNames ++ program.aliasNames) : program.IsClosed := by
  intro a ha name hname
  exact List.mem_append.1 (h (List.mem_flatMap.2 ⟨a, ha, hname⟩))

end TypeScript

end QueryTypes
