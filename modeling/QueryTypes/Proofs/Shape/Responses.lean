import QueryTypes.Proofs.Schema.Subtypes
import QueryTypes.Proofs.Shape.Occurrences

/-!
# Responses

What an operation can be answered with (`QueryTypes.Shape.Completes`), and what a type expression
admits (`QueryTypes.Shape.Conforms`).

At an object, the keys of the response are those of the occurrences that *apply*: the object's
type stands for every type condition on the way, and no directive removes the occurrence. The
first occurrence of a key says which field answers it, and what is selected below all occurrences
of the key is selected from the value of that field. Values of scalars and enumerations are
opaque: only their type is known.

The wrappers of a type are the same business on both sides. A value conforms to a wrapped type
exactly if what it holds inside its lists conforms to what is wrapped
(`QueryTypes.Shape.conforms_typeOf_iff`).
-/

namespace QueryTypes

namespace Shape

open GraphQL (Directive Fragment TypeRef)
open TypeScript (Member TypeExpr)

/-! ### Values -/

/-- A value in a response. -/
inductive Response where
  /-- Nothing. -/
  | null
  /-- Some value of a scalar or an enumeration. -/
  | leaf (type : String)
  /-- The name of the type of an object. -/
  | typename (name : String)
  /-- A list. -/
  | list (items : List Response)
  /-- An object, with a value for each key. -/
  | object (fields : List (String × Response))

namespace Response

/-- What a value holds: itself, or if it is a list, what its items hold. Nulls hold nothing. -/
inductive Holds : Response → Response → Prop where
  /-- A leaf holds itself. -/
  | leaf {type : String} : Holds (.leaf type) (.leaf type)
  /-- A name holds itself. -/
  | typename {name : String} : Holds (.typename name) (.typename name)
  /-- An object holds itself. -/
  | object {fields : List (String × Response)} : Holds (.object fields) (.object fields)
  /-- A list holds what its items hold. -/
  | list {items : List Response} {item value : Response} (hitem : item ∈ items)
    (h : Holds item value) : Holds (.list items) value

mutual

/-- Of everything that a value holds, something holds that passes to an object from all that its
values hold. -/
theorem of_holds {P : Response → Prop} (hleaf : ∀ type, P (.leaf type))
    (htypename : ∀ name, P (.typename name))
    (hobject : ∀ fields, (∀ f ∈ fields, ∀ w, f.2.Holds w → P w) → P (.object fields)) :
    ∀ v : Response, ∀ w, v.Holds w → P w
  | .null => fun _ h => nomatch h
  | .leaf type => fun _ h => by
    cases h
    exact hleaf type
  | .typename name => fun _ h => by
    cases h
    exact htypename name
  | .list items => fun w h => by
    cases h with
    | list hitem h => exact of_holdsInAll hleaf htypename hobject items _ hitem w h
  | .object fields => fun _ h => by
    cases h
    exact hobject fields (of_holdsInFields hleaf htypename hobject fields)

theorem of_holdsInAll {P : Response → Prop} (hleaf : ∀ type, P (.leaf type))
    (htypename : ∀ name, P (.typename name))
    (hobject : ∀ fields, (∀ f ∈ fields, ∀ w, f.2.Holds w → P w) → P (.object fields)) :
    ∀ items : List Response, ∀ v ∈ items, ∀ w, v.Holds w → P w
  | [] => fun _ hv => nomatch hv
  | item :: rest => fun v hv => by
    rcases List.mem_cons.1 hv with he | hv
    · rw [he]
      exact of_holds hleaf htypename hobject item
    · exact of_holdsInAll hleaf htypename hobject rest v hv

theorem of_holdsInFields {P : Response → Prop} (hleaf : ∀ type, P (.leaf type))
    (htypename : ∀ name, P (.typename name))
    (hobject : ∀ fields, (∀ f ∈ fields, ∀ w, f.2.Holds w → P w) → P (.object fields)) :
    ∀ fields : List (String × Response), ∀ f ∈ fields, ∀ w, f.2.Holds w → P w
  | [] => fun _ hf => nomatch hf
  | (key, value) :: rest => fun f hf => by
    rcases List.mem_cons.1 hf with he | hf
    · rw [he]
      exact of_holds hleaf htypename hobject value
    · exact of_holdsInFields hleaf htypename hobject rest f hf

end

end Response

/-! ### Execution -/

/-- What an operation is executed against. -/
structure Execution where
  /-- The schema. -/
  schema : Schema
  /-- The fragments at hand. -/
  fragments : List Fragment
  /-- The truth values of the variables. -/
  flags : String → Bool

/-- The truth value that a directive is given. -/
def condition? (flags : String → Bool) (d : Directive) : Option Bool :=
  match d.arguments.find? fun a => a.name = "if" with
  | some ⟨_, .boolean value⟩ => some value
  | some ⟨_, .variable name⟩ => some (flags name)
  | _ => none

/-- Whether a directive removes what it stands at. -/
def removes (flags : String → Bool) (d : Directive) : Bool :=
  if d.name = "skip" then condition? flags d == some true
  else if d.name = "include" then condition? flags d == some false
  else false

namespace Execution

/-- Whether an occurrence is selected from objects of a type. -/
def applies (e : Execution) (type : SchemaType) (o : Occurrence) : Bool :=
  o.around.conditions.all (fun c => e.schema.isSubtype type.name c) &&
    o.around.guards.all fun d => !removes e.flags d

/-- The occurrences that are selected from objects of a type. -/
def selected (e : Execution) (type : SchemaType) (os : List Occurrence) : List Occurrence :=
  os.filter (e.applies type)

/-- The occurrences that are selected under one key. -/
def group (e : Execution) (type : SchemaType) (os : List Occurrence) (key : String) :
    List Occurrence :=
  (e.selected type os).filter fun o => o.key = key

/-- The occurrences below some occurrences. -/
def below (e : Execution) (os : List Occurrence) : List Occurrence :=
  os.flatMap (Occurrence.below e.schema e.fragments)

end Execution

mutual

/-- **The values of a type**, given what is selected from its objects. -/
inductive Completes (e : Execution) : TypeRef → List Occurrence → Response → Prop where
  /-- Where it is not forbidden, a value may be null. -/
  | null {type : TypeRef} {os : List Occurrence} (h : type.isNonNull = false) :
    Completes e type os .null
  /-- Null may be forbidden. -/
  | nonNull {type : TypeRef} {os : List Occurrence} {value : Response} (hv : value ≠ .null)
    (h : Completes e type os value) : Completes e (.nonNull type) os value
  /-- A list has any number of items. -/
  | list {type : TypeRef} {os : List Occurrence} {items : List Response}
    (h : ∀ item ∈ items, Completes e type os item) : Completes e (.list type) os (.list items)
  /-- A scalar or an enumeration has some value. -/
  | leaf {name : String} {os : List Occurrence} (h : e.schema.isComposite name = false) :
    Completes e (.named name) os (.leaf name)
  /-- A composite type has the objects of the object types that stand for it. -/
  | object {name : String} {type : SchemaType} {os : List Occurrence}
    {fields : List (String × Response)} (htype : type ∈ e.schema.types)
    (hobject : type.isObject = true) (hsub : e.schema.isSubtype type.name name = true)
    (h : Executes e type os fields) : Completes e (.named name) os (.object fields)

/-- The objects of an object type have a value for each key that is selected. -/
inductive Executes (e : Execution) :
    SchemaType → List Occurrence → List (String × Response) → Prop where
  /-- Each selected key occurs once, and is answered by the occurrences under it. -/
  | mk {type : SchemaType} {os : List Occurrence} {fields : List (String × Response)}
    (nodup : (fields.map Prod.fst).Nodup)
    (keys : ∀ key, key ∈ fields.map Prod.fst ↔ key ∈ (e.selected type os).map Occurrence.key)
    (answers : ∀ f ∈ fields, Answers e type (e.group type os f.1) f.2) :
    Executes e type os fields

/-- What the occurrences of one key are answered with, at an object of some type. -/
inductive Answers (e : Execution) : SchemaType → List Occurrence → Response → Prop where
  /-- The name of the object's type. -/
  | typename {type : SchemaType} {o : Occurrence} {rest : List Occurrence}
    (hname : o.name = "__typename") : Answers e type (o :: rest) (.typename type.name)
  /-- The value of a field of the object, from which everything below is selected. -/
  | field {type : SchemaType} {o : Occurrence} {rest : List Occurrence} {t : TypeRef}
    {value : Response} (hname : o.name ≠ "__typename") (hfield : type.field? o.name = some t)
    (h : Completes e t (e.below (o :: rest)) value) : Answers e type (o :: rest) value

end

section Completion

variable {e : Execution} {t : TypeRef} {os : List Occurrence} {v w : Response}

/-- What a value of a type holds are values of the named type under the wrappers. -/
theorem completes_of_holds (h : Completes e t os v) (hw : v.Holds w) :
    Completes e (.named t.baseName) os w := by
  induction t generalizing v with
  | named name =>
    cases h with
    | null _ => cases hw
    | leaf h =>
      cases hw
      exact .leaf h
    | object htype hobject hsub h =>
      cases hw
      exact .object htype hobject hsub h
  | list item ih =>
    cases h with
    | null _ => cases hw
    | list h =>
      cases hw with
      | list hitem hw => exact ih (h _ hitem) hw
  | nonNull type ih =>
    cases h with
    | null h => cases h
    | nonNull _ h => exact ih h hw

/-- The value of a type that holds one value. -/
def wrap : TypeRef → Response → Response
  | .named _, value => value
  | .list item, value => .list [wrap item value]
  | .nonNull type, value => wrap type value

theorem holds_wrap (fields : List (String × Response)) (t : TypeRef) :
    (wrap t (.object fields)).Holds (.object fields) := by
  induction t with
  | named _ => exact .object
  | list item ih => exact .list (List.mem_singleton_self _) ih
  | nonNull type ih => exact ih

/-- **Wherever objects can be, there can be one.** -/
theorem completes_wrap {fields : List (String × Response)}
    (h : Completes e (.named t.baseName) os (.object fields)) :
    Completes e t os (wrap t (.object fields)) := by
  induction t with
  | named _ => exact h
  | list item ih =>
    refine .list fun value hvalue => ?_
    rw [List.mem_singleton.1 hvalue]
    exact ih h
  | nonNull type ih =>
    refine .nonNull (fun hnull => ?_) (ih h)
    have held := holds_wrap fields type
    rw [wrap] at hnull
    rw [hnull] at held
    cases held

end Completion

/-! ### Conformance -/

/-- **What a type expression admits**, object types read structurally: every key of an object
belongs to a member, every member that may not be left out is there, and the values fit. The name
of a type is also just some string. -/
inductive Conforms : Response → TypeExpr → Prop where
  /-- A value may be missing. -/
  | missing {type : TypeExpr} : Conforms .null (nullable type)
  /-- A value that may be missing need not be. -/
  | present {value : Response} {type : TypeExpr} (h : Conforms value type) :
    Conforms value (nullable type)
  /-- The items of a list fit the type of the items. -/
  | list {items : List Response} {type : TypeExpr} (h : ∀ item ∈ items, Conforms item type) :
    Conforms (.list items) (listOf type)
  /-- The value of an enumeration. -/
  | enum {name : String} : Conforms (.leaf name) (.named name)
  /-- The value of a scalar. -/
  | scalar {name : String} : Conforms (.leaf name) (scalarEntry name)
  /-- Some string. -/
  | string : Conforms (.leaf "String") (.keyword "string")
  /-- The name of a type, spelled out. -/
  | literal {name : String} : Conforms (.typename name) (.literal (.string name))
  /-- The name of a type, wherever any string may be. -/
  | typename {name : String} {type : TypeExpr} (h : Conforms (.leaf "String") type) :
    Conforms (.typename name) type
  /-- An object. -/
  | object {fields : List (String × Response)} {members : List Member}
    (required : ∀ m ∈ members, m.isOptional = false → m.key ∈ fields.map Prod.fst)
    (declared : ∀ f ∈ fields, ∃ m ∈ members, m.key = f.1)
    (fits : ∀ f ∈ fields, ∀ m ∈ members, m.key = f.1 → Conforms f.2 m.type) :
    Conforms (.object fields) (.object members)

section Conformance

variable {v : Response} {type inner : TypeExpr}

/-- A value that is there conforms to a type that may be missing as it does to the type. -/
theorem conforms_nullable_iff (hv : v ≠ .null) : Conforms v (nullable type) ↔ Conforms v type := by
  refine ⟨fun h => ?_, .present⟩
  generalize hn : nullable type = expr at h
  induction h with
  | missing => exact absurd rfl hv
  | present h _ =>
    cases hn
    exact h
  | typename _ ih => exact .typename (ih (by nofun) hn)
  | list _ _ => simp [nullable, listOf] at hn
  | enum => simp [nullable, TypeExpr.named] at hn
  | scalar => cases hn
  | string => cases hn
  | literal => cases hn
  | object _ _ _ _ => cases hn

theorem conforms_listOf_iff {items : List Response} :
    Conforms (.list items) (listOf type) ↔ ∀ item ∈ items, Conforms item type := by
  refine ⟨fun h => ?_, .list⟩
  generalize hl : listOf type = expr at h
  cases h with
  | present _ => simp [nullable, listOf] at hl
  | list h =>
    cases hl
    exact h

/-- What it means for an object to conform to an object type. -/
theorem conforms_object_iff {fields : List (String × Response)} {members : List Member} :
    Conforms (.object fields) (.object members) ↔
      (∀ m ∈ members, m.isOptional = false → m.key ∈ fields.map Prod.fst) ∧
        (∀ f ∈ fields, ∃ m ∈ members, m.key = f.1) ∧
          ∀ f ∈ fields, ∀ m ∈ members, m.key = f.1 → Conforms f.2 m.type := by
  constructor
  · intro h
    generalize ho : TypeExpr.object members = expr at h
    cases h with
    | present _ => cases ho
    | object required declared fits =>
      cases ho
      exact ⟨required, declared, fits⟩
  · rintro ⟨required, declared, fits⟩
    exact .object required declared fits

/-- The name of a type conforms to one literal only. -/
theorem conforms_literal_iff {name other : String} :
    Conforms (.typename name) (.literal (.string other)) ↔ name = other := by
  constructor
  · intro h
    generalize hl : TypeExpr.literal (.string other) = expr at h
    cases h with
    | present _ => cases hl
    | literal =>
      cases hl
      rfl
    | typename h =>
      subst hl
      cases h
  · rintro rfl
    exact .literal

/-- Some string is no literal. -/
theorem not_conforms_leaf_literal {name : String} {value : TypeScript.Literal} :
    ¬ Conforms (.leaf name) (.literal value) := by
  intro h
  cases h

/-- The value of a scalar or an enumeration fits the type for it. -/
theorem conforms_leaf (schema : Schema) (name : String) :
    Conforms (.leaf name) (leaf schema name) := by
  unfold leaf
  split
  · exact .enum
  · exact .scalar

/-- Where a value is there, it does not matter whether it may be missing. -/
theorem conforms_wrapped_iff (hv : v ≠ .null) (u : TypeRef) :
    Conforms v (wrapped inner false u) ↔ Conforms v (wrapped inner true u) := by
  cases u with
  | named _ => exact conforms_nullable_iff hv
  | list _ => exact conforms_nullable_iff hv
  | nonNull _ => exact Iff.rfl

/-- **A value conforms to a wrapped type if what it holds conforms to what is wrapped**, as long
as it is a value of a type whose wrappers fit. The induction is on the wrappers; null is met
where both may be null only. -/
theorem conforms_typeOf_iff {e : Execution} {t u : TypeRef} {os : List Occurrence}
    (fits : t.Fits u) (h : Completes e t os v) :
    Conforms v (typeOf inner u) ↔ ∀ w, v.Holds w → Conforms w inner := by
  rw [typeOf]
  induction fits generalizing v with
  | named =>
    rw [wrapped]
    cases h with
    | null _ => exact ⟨fun _ w hw => (nomatch hw), fun _ => .missing⟩
    | leaf _ =>
      rw [conforms_nullable_iff (v := .leaf _) (by nofun)]
      refine ⟨fun h w hw => ?_, fun h => h _ .leaf⟩
      cases hw
      exact h
    | object _ _ _ _ =>
      rw [conforms_nullable_iff (v := .object _) (by nofun)]
      refine ⟨fun h w hw => ?_, fun h => h _ .object⟩
      cases hw
      exact h
  | list _ ih =>
    rw [wrapped]
    cases h with
    | null _ => exact ⟨fun _ w hw => (nomatch hw), fun _ => .missing⟩
    | list h =>
      rw [conforms_nullable_iff (v := .list _) (by nofun), conforms_listOf_iff]
      constructor
      · intro all w hw
        cases hw with
        | list hitem hw => exact (ih (h _ hitem)).1 (all _ hitem) w hw
      · intro all item hitem
        exact (ih (h item hitem)).2 fun w hw => all w (.list hitem hw)
  | nonNull _ ih =>
    cases h with
    | null h => cases h
    | nonNull hv h =>
      -- null is ruled out, so it does not matter whether the type allows it
      exact (conforms_wrapped_iff hv _).symm.trans (ih h)
  | stricter _ ih =>
    cases h with
    | null h => cases h
    | nonNull _ h => exact ih h

end Conformance

end Shape

end QueryTypes
