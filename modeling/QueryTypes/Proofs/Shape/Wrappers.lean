import QueryTypes.Proofs.Shape.Declarations

/-!
# Wrappers of types

The type of an input is wrapped place by place as its GraphQL type is: in `Maybe` where a place is
not marked as present, and in `Array` where it is a list
(`QueryTypes.Shape.inputType_wraps`). The wrappers can be taken off again, and what comes out is the
GraphQL type (`QueryTypes.TypeScript.TypeExpr.reading?`). The *places* of a type are those that are
so many lists deep (`QueryTypes.GraphQL.TypeRef.place?`), and the places of the two types correspond
to each other. A selected leaf has the type that an input of its GraphQL type has.
-/

namespace QueryTypes

namespace GraphQL

namespace TypeRef

/-- **A proper reference** marks no place as present twice, as the grammar has it. -/
def IsProper : TypeRef → Prop
  | named _ => True
  | list item => item.IsProper
  | nonNull type => type.isNonNull = false ∧ type.IsProper

/-- The reference without the mark that its place is present. -/
def unmarked : TypeRef → TypeRef
  | nonNull type => type
  | type => type

/-- What a list is a list of. -/
def item? : TypeRef → Option TypeRef
  | list item => some item
  | _ => none

/-- **The place so many lists deep**, as the reference that stands there. -/
def place? : Nat → TypeRef → Option TypeRef
  | 0, type => some type
  | depth + 1, type => type.unmarked.item?.bind (place? depth)

end TypeRef

end GraphQL

open GraphQL (Argument Directive TypeRef)

namespace TypeScript

namespace TypeExpr

/-- What a type has inside a wrapper of a name. -/
def inside? (wrapper : String) : TypeExpr → Option TypeExpr
  | .reference name [inner] => if name = wrapper then some inner else none
  | _ => none

/-- The type of a value that is there. -/
def present (type : TypeExpr) : TypeExpr := (type.inside? "Maybe").getD type

/-- **The place so many arrays deep**, as the type that stands there. -/
def place? : Nat → TypeExpr → Option TypeExpr
  | 0, type => some type
  | depth + 1, type => (type.present.inside? "Array").bind (place? depth)

/-- **The reference that a type is read as**: a name or an entry of a table is a type whose values
are there, `Array` a list whose values are there, and what is inside `Maybe` need not be there. -/
def reading? : TypeExpr → Option TypeRef
  | .reference name [] => some (.nonNull (.named name))
  | .indexed _ name => some (.nonNull (.named name))
  | .reference name [inner] =>
    if name = "Maybe" then inner.reading?.map TypeRef.unmarked
    else if name = "Array" then inner.reading?.map fun item => .nonNull (.list item)
    else none
  | _ => none

end TypeExpr

end TypeScript

namespace Shape

open TypeScript (TypeExpr Member)

/-! ### One place -/

/-- A type that is in no wrapper. -/
def IsBare (inner : TypeExpr) : Prop := ∀ wrapper, inner.inside? wrapper = none

variable {inner : TypeExpr} {schema : Schema} {type : TypeRef}

/-- **One place of a type**: what is there is inside `Maybe`, unless it is marked as present. -/
theorem typeOf_eq (inner : TypeExpr) (type : TypeRef) : typeOf inner type =
    if type.isNonNull then wrapped inner true type.unmarked
    else nullable (wrapped inner true type.unmarked) := by
  cases type <;> rfl

/-- What is there is not inside `Maybe`, and it is inside `Array` if it is a list. -/
theorem inside?_wrapped (h : IsBare inner) (plain : type.isNonNull = false) :
    (wrapped inner true type).inside? "Maybe" = none ∧
      (wrapped inner true type).inside? "Array" = type.item?.map (typeOf inner) := by
  cases type with
  | named _ => exact ⟨h _, h _⟩
  | list _ => exact ⟨rfl, rfl⟩
  | nonNull _ => cases plain

theorem isNonNull_unmarked (h : type.IsProper) : type.unmarked.isNonNull = false := by
  cases type with
  | named _ => rfl
  | list _ => rfl
  | nonNull _ => exact h.1

/-- Inside `Maybe` is what is not marked as present. -/
theorem inside?_maybe_typeOf (h : IsBare inner) (proper : type.IsProper) :
    (typeOf inner type).inside? "Maybe" =
      if type.isNonNull then none else some (wrapped inner true type.unmarked) := by
  rw [typeOf_eq]
  split
  · exact (inside?_wrapped h (isNonNull_unmarked proper)).1
  · rfl

/-- The type of a value that is there is wrapped as one that is marked so. -/
theorem present_typeOf (h : IsBare inner) (proper : type.IsProper) :
    (typeOf inner type).present = wrapped inner true type.unmarked := by
  rw [TypeExpr.present, inside?_maybe_typeOf h proper, typeOf_eq]
  split <;> rfl

/-! ### All places -/

/-- A place that holds a list is the list, or the list marked as present. -/
theorem eq_of_item? {item : TypeRef} (h : type.unmarked.item? = some item) :
    type = .list item ∨ type = .nonNull (.list item) := by
  cases type with
  | named _ => cases h
  | list _ =>
    cases h
    exact Or.inl rfl
  | nonNull type =>
    cases type with
    | list _ =>
      cases h
      exact Or.inr rfl
    | _ => cases h

/-- The items of a proper list are proper, and have the name of the list. -/
theorem of_item? {item : TypeRef} (proper : type.IsProper)
    (h : type.unmarked.item? = some item) : item.IsProper ∧ item.baseName = type.baseName := by
  obtain rfl | rfl := eq_of_item? h
  · exact ⟨proper, rfl⟩
  · exact ⟨proper.2, rfl⟩

/-- **The places of a type are those of its reference**, wrapped in the same way. -/
theorem place?_typeOf (h : IsBare inner) (proper : type.IsProper) (depth : Nat) :
    (typeOf inner type).place? depth = (type.place? depth).map (typeOf inner) := by
  induction depth generalizing type with
  | zero => rfl
  | succ depth ih =>
    rw [TypeExpr.place?, TypeRef.place?, present_typeOf h proper,
      (inside?_wrapped h (isNonNull_unmarked proper)).2]
    cases hitem : type.unmarked.item? with
    | none => rfl
    | some item => exact ih (of_item? proper hitem).1

/-- A place of a proper reference is proper, and has the name of the whole. -/
theorem of_place? {depth : Nat} {place : TypeRef} (proper : type.IsProper)
    (h : type.place? depth = some place) : place.IsProper ∧ place.baseName = type.baseName := by
  induction depth generalizing type with
  | zero =>
    obtain rfl := Option.some.inj h
    exact ⟨proper, rfl⟩
  | succ depth ih =>
    obtain ⟨item, hitem, deeper⟩ := Option.bind_eq_some_iff.1 h
    obtain ⟨hitem, name⟩ := of_item? proper hitem
    obtain ⟨hplace, same⟩ := ih hitem deeper
    exact ⟨hplace, same.trans name⟩

/-- **What is wrapped as a reference is read as the reference**, if what is inside is read as the
name inside. Where a value is there, it is read as marked so. -/
theorem reading?_wrapped (h : inner.reading? = some (.nonNull (.named type.baseName)))
    (proper : type.IsProper) :
    (type.isNonNull = false → (wrapped inner true type).reading? = some (.nonNull type)) ∧
      (typeOf inner type).reading? = some type := by
  have maybe : ∀ {t : TypeExpr} {r : TypeRef}, t.reading? = some (.nonNull r) →
      (nullable t).reading? = some r := by
    intro t r ht
    rw [nullable, TypeExpr.reading?, if_pos rfl, ht]
    rfl
  induction type with
  | named name => exact ⟨fun _ => h, maybe h⟩
  | list item ih =>
    have many : (wrapped inner true (.list item)).reading? = some (.nonNull (.list item)) := by
      rw [wrapped, listOf, TypeExpr.reading?, if_neg (by decide), if_pos rfl]
      exact congrArg (Option.map _) (ih h proper).2
    exact ⟨fun _ => many, maybe many⟩
  | nonNull type ih => exact ⟨nofun, (ih h proper.2).1 proper.1⟩

/-! ### Inputs and leaves -/

/-- An input that is no list is a name, or an entry of the table of scalars. -/
theorem inputLeaf_cases (schema : Schema) (name : String) :
    inputLeaf schema name = .named name ∨ inputLeaf schema name = scalarEntry name := by
  have leaves : leaf schema name = .named name ∨ leaf schema name = scalarEntry name := by
    unfold leaf
    split
    · exact Or.inl rfl
    · exact Or.inr rfl
  unfold inputLeaf
  split
  · split
    · exact Or.inl rfl
    · exact leaves
  · exact leaves

theorem isBare_inputLeaf (schema : Schema) (name : String) : IsBare (inputLeaf schema name) := by
  intro wrapper
  obtain h | h := inputLeaf_cases schema name <;> rw [h] <;> rfl

theorem reading?_inputLeaf (schema : Schema) (name : String) :
    (inputLeaf schema name).reading? = some (.nonNull (.named name)) := by
  obtain h | h := inputLeaf_cases schema name <;> rw [h] <;> rfl

/-- **The type of an input is read as its reference.** -/
theorem reading?_inputType (proper : type.IsProper) :
    (inputType schema type).reading? = some type :=
  (reading?_wrapped (reading?_inputLeaf schema _) proper).2

theorem place?_inputType (proper : type.IsProper) (depth : Nat) :
    (inputType schema type).place? depth = (type.place? depth).map (inputType schema) := by
  rw [inputType, place?_typeOf (isBare_inputLeaf schema _) proper]
  refine Option.map_congr fun place hplace => ?_
  rw [inputType, (of_place? proper hplace).2]

/-- A leaf is no input object type. -/
theorem exists_of_isLeaf {name : String} (h : schema.IsLeaf name) :
    ∃ t, schema.find? name = some t ∧ t.isInputObject = false := by
  rcases h with ⟨⟨name, body⟩, ht, kind⟩ | ⟨⟨name, body⟩, ht, kind⟩
  · cases body with
    | scalar => exact ⟨_, ht, rfl⟩
    | _ => cases kind
  · cases body with
    | enum _ => exact ⟨_, ht, rfl⟩
    | _ => cases kind

/-- **An input of a leaf type is a leaf**, and refers to what the leaf refers to. -/
theorem input_of_isLeaf {name : String} (h : schema.IsLeaf name) :
    inputLeaf schema name = leaf schema name ∧
      inputReferences schema name = ⟨leafEnums schema name, []⟩ := by
  obtain ⟨t, ht, kind⟩ := exists_of_isLeaf h
  have other : ¬ t.isInputObject = true := Bool.eq_false_iff.1 kind
  simp only [inputLeaf, inputReferences, ht, if_neg other, and_self]

/-- **A selected leaf has the type of an input**, and what the input refers to is added. -/
theorem addSelection_of_isLeaf {document name : String} {spread : SpreadRule}
    {scope : Option SchemaType} {optional : Bool} {draft : Draft} {responseName : Option String}
    {arguments : List Argument} {directives : List Directive}
    (hleaf : schema.IsLeaf type.baseName) (hname : name ≠ "__typename")
    (htype : fieldType document scope name = .ok type) :
    addSelection schema document spread scope optional draft
      (.field responseName name arguments directives none) =
        .ok ((draft.addMember (.mk (responseName.getD name) (inputType schema type) optional
          false)).addEnums (inputReferences schema type.baseName).enums) := by
  obtain ⟨same, references⟩ := input_of_isLeaf hleaf
  simp only [addSelection, if_neg hname, htype, references, inputType, same]

/-- **The type of an input says place by place what its GraphQL type says.** Its places are the
places of the GraphQL type, and each is inside `Maybe` exactly if it is not marked as present and
inside `Array` exactly if it is a list. So it is read as the GraphQL type, and no other type has it.
A selected field whose type is a leaf gets the type of an input, and refers to the enumeration that
the input refers to. -/
theorem inputType_wraps (proper : type.IsProper) :
    (∀ depth, (inputType schema type).place? depth =
      (type.place? depth).map (inputType schema)) ∧
    (∀ depth, ∀ place ∈ type.place? depth,
      ((inputType schema place).inside? "Maybe").isSome = !place.isNonNull ∧
      ((inputType schema place).present.inside? "Array").isSome = place.unmarked.item?.isSome) ∧
    (inputType schema type).reading? = some type ∧
    (∀ other : TypeRef, other.IsProper →
      (inputType schema other = inputType schema type ↔ other = type)) ∧
    (schema.IsLeaf type.baseName → (inputReferences schema type.baseName).inputs = [] ∧
      ∀ (document : String) (spread : SpreadRule) (scope : Option SchemaType) (optional : Bool)
        (draft : Draft) (responseName : Option String) (name : String) (arguments : List Argument)
        (directives : List Directive), name ≠ "__typename" →
        fieldType document scope name = .ok type →
        addSelection schema document spread scope optional draft
          (.field responseName name arguments directives none) =
            .ok ((draft.addMember (.mk (responseName.getD name) (inputType schema type) optional
              false)).addEnums (inputReferences schema type.baseName).enums)) := by
  refine ⟨place?_inputType proper, fun depth place hplace => ?_, reading?_inputType proper,
    fun other hother => ⟨fun same => ?_, fun same => by rw [same]⟩, fun hleaf => ?_⟩
  · have bare := isBare_inputLeaf schema place.baseName
    have hproper := (of_place? proper hplace).1
    rw [inputType, inside?_maybe_typeOf bare hproper, present_typeOf bare hproper,
      (inside?_wrapped bare (isNonNull_unmarked hproper)).2, Option.isSome_map]
    cases place.isNonNull <;> exact ⟨rfl, rfl⟩
  · have reading : (inputType schema other).reading? = some other := reading?_inputType hother
    rw [same, reading?_inputType proper] at reading
    exact (Option.some.inj reading).symm
  · refine ⟨by rw [(input_of_isLeaf hleaf).2], ?_⟩
    intro document spread scope optional draft responseName name arguments directives
    exact addSelection_of_isLeaf hleaf

/-- The colors of a palette: lists that are there, of lists that need not be there. -/
theorem inputType_wraps_colors :
    let colors : TypeRef := .nonNull (.list (.list (.nonNull (.named "Color"))))
    let others : TypeRef := .list (.nonNull (.list (.nonNull (.named "Color"))))
    let palette : SchemaType := ⟨"Palette", .object [] [("colors", colors)]⟩
    colors.IsProper ∧ others.IsProper ∧ paintSchema.IsLeaf "Color" ∧
      (inputType paintSchema colors).place? 1 = some (nullable (listOf (.named "Color"))) ∧
      (inputType paintSchema colors).reading? = some colors ∧
      inputType paintSchema others ≠ inputType paintSchema colors ∧
      addSelection paintSchema "Q" maskedSpread (some palette) false {}
        (.field none "colors" [] [] none) =
          .ok ((({} : Draft).addMember
            (.mk "colors" (inputType paintSchema colors) false false)).addEnums ["Color"]) := by
  intro colors others palette
  have hcolors : colors.IsProper := ⟨rfl, rfl, trivial⟩
  have hothers : others.IsProper := ⟨rfl, rfl, trivial⟩
  have leaf : paintSchema.IsLeaf "Color" := Or.inr ⟨_, rfl, rfl⟩
  obtain ⟨places, -, reading, told, field⟩ := @inputType_wraps paintSchema colors hcolors
  refine ⟨hcolors, hothers, leaf, places 1, reading, fun same => ?_, ?_⟩
  · exact absurd ((told others hothers).1 same) (by decide)
  · exact (field leaf).2 "Q" maskedSpread (some palette) false {} none "colors" [] []
      (by decide) rfl

end Shape

end QueryTypes
