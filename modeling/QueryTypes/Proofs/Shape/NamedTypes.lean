import Mathlib.Logic.Relation
import QueryTypes.Proofs.SortedNames
import QueryTypes.Shape.NamedTypes

/-!
# Which named types are declared

An input object type leads to the input object types of its fields (`QueryTypes.Shape.LeadsTo`), so
what some shapes refer to are the input object types that can be reached from those they name.
Following the fields for as many rounds as the schema has types finds all of them
(`QueryTypes.Shape.mem_reachableInputs_iff`): a round that finds nothing new is the last, and every
other round uses up a type.

The declared names are therefore described by membership alone
(`QueryTypes.Shape.mem_namedTypeNames_iff`). Neither their order nor the way in which the references
were come by matters, and fewer references lead to a part of the declarations
(`QueryTypes.Shape.namedTypes_congr`, `QueryTypes.Shape.namedTypes_sublist`).
-/

namespace QueryTypes

/-! ### Kinds of types -/

namespace Schema

/-- A scalar of a schema. -/
def IsScalar (schema : Schema) (name : String) : Prop :=
  ∃ t, schema.find? name = some t ∧ t.isScalar = true

/-- An enumeration of a schema. -/
def IsEnum (schema : Schema) (name : String) : Prop :=
  ∃ t, schema.find? name = some t ∧ t.enumValues?.isSome = true

/-- An input object type of a schema. -/
def IsInputObject (schema : Schema) (name : String) : Prop :=
  ∃ t, schema.find? name = some t ∧ t.isInputObject = true

/-- A type whose values have no fields. -/
def IsLeaf (schema : Schema) (name : String) : Prop := schema.IsScalar name ∨ schema.IsEnum name

/-- A type that variables and the fields of input object types can have. -/
def IsInput (schema : Schema) (name : String) : Prop :=
  schema.IsLeaf name ∨ schema.IsInputObject name

variable {schema : Schema} {name : String}

theorem IsInputObject.not_isEnum (h : schema.IsInputObject name) : ¬ schema.IsEnum name := by
  rintro ⟨t, ht, henum⟩
  obtain ⟨u, hu, hinput⟩ := h
  obtain rfl : t = u := Option.some.inj (ht.symm.trans hu)
  obtain ⟨typeName, body⟩ := t
  cases body <;> simp_all [SchemaType.isInputObject, SchemaType.enumValues?]

theorem IsInputObject.mem_names (h : schema.IsInputObject name) :
    name ∈ schema.types.map SchemaType.name := by
  obtain ⟨t, ht, -⟩ := h
  exact isSome_find?_iff.1 (Option.isSome_iff_exists.2 ⟨t, ht⟩)

end Schema

namespace Shape

open TypeScript (Alias)

variable {schema : Schema} {name other : String} {names : List String}

/-! ### References of inputs -/

theorem mem_leafEnums_iff : other ∈ leafEnums schema name ↔ other = name ∧ schema.IsEnum other := by
  suffices h : other ∈ leafEnums schema name ↔ other = name ∧ schema.IsEnum name from
    h.trans (and_congr_right fun same => by rw [same])
  unfold leafEnums Schema.IsEnum
  cases schema.find? name with
  | none => simp
  | some t => cases h : t.enumValues? <;> simp [h]

theorem mem_enums_inputReferences_iff :
    other ∈ (inputReferences schema name).enums ↔ other = name ∧ schema.IsEnum other := by
  rw [← mem_leafEnums_iff, inputReferences]
  cases hf : schema.find? name with
  | none => simp [leafEnums, hf]
  | some t =>
    dsimp only
    split
    · next hinput =>
      refine iff_of_false List.not_mem_nil fun h => ?_
      obtain ⟨rfl, henum⟩ := mem_leafEnums_iff.1 h
      exact Schema.IsInputObject.not_isEnum ⟨t, hf, hinput⟩ henum
    · rfl

theorem mem_inputs_inputReferences_iff :
    other ∈ (inputReferences schema name).inputs ↔ other = name ∧ schema.IsInputObject other := by
  suffices h : other ∈ (inputReferences schema name).inputs ↔
      other = name ∧ schema.IsInputObject name from
    h.trans (and_congr_right fun same => by rw [same])
  unfold inputReferences Schema.IsInputObject
  cases schema.find? name with
  | none => simp
  | some t => cases h : t.isInputObject <;> simp [h]

/-- **Inputs refer to their types**, as far as these are enumerations and input object types. -/
theorem mem_allInputReferences_iff :
    (name ∈ (allInputReferences schema names).enums ↔ name ∈ names ∧ schema.IsEnum name) ∧
      (name ∈ (allInputReferences schema names).inputs ↔
        name ∈ names ∧ schema.IsInputObject name) := by
  induction names with
  | nil => simp [allInputReferences]
  | cons first rest ih =>
    simp only [allInputReferences, References.append, List.mem_append,
      mem_enums_inputReferences_iff, mem_inputs_inputReferences_iff, ih, List.mem_cons,
      or_and_right, and_self]

/-! ### Reachable input object types -/

/-- An input object type has a field of another one. -/
def LeadsTo (schema : Schema) (name other : String) : Prop :=
  other ∈ inputFieldTypes schema name ∧ schema.IsInputObject other

/-- An input object type can be reached from some. -/
def ReachedInput (schema : Schema) (names : List String) (other : String) : Prop :=
  ∃ name ∈ names, Relation.ReflTransGen (LeadsTo schema) name other

theorem mem_beyond_iff {known latest : List String} :
    other ∈ beyond schema known latest ↔
      (∃ name ∈ latest, LeadsTo schema name other) ∧ other ∉ known := by
  rw [beyond, SortedNames.mem_ofList, List.mem_filter, List.mem_flatMap]
  simp only [fieldReferences, mem_allInputReferences_iff.2, LeadsTo, Bool.not_eq_true',
    List.contains_eq_mem, decide_eq_false_iff_not]

/-- What is known stays known. -/
theorem subset_reach (rounds : Nat) (known latest : List String) :
    known ⊆ reach schema rounds known latest := by
  induction rounds generalizing known latest with
  | zero => exact fun _ hn => hn
  | succ rounds ih =>
    rw [reach]
    split
    · exact fun _ hn => hn
    · exact fun _ hn => ih _ _ (List.mem_append_right _ hn)

/-- Only what can be reached becomes known. -/
theorem reachedInput_of_mem_reach (rounds : Nat) : ∀ {known latest : List String},
    latest ⊆ known → (∀ name ∈ known, ReachedInput schema names name) →
      ∀ other ∈ reach schema rounds known latest, ReachedInput schema names other := by
  induction rounds with
  | zero => exact fun _ reached => reached
  | succ rounds ih =>
    intro known latest sub reached
    rw [reach]
    split
    · exact reached
    next new _ =>
      refine ih (List.subset_append_left _ _) fun name hn => ?_
      rcases List.mem_append.1 hn with hn | hn
      · obtain ⟨⟨before, hbefore, leads⟩, -⟩ := mem_beyond_iff.1 hn
        obtain ⟨start, hstart, path⟩ := reached before (sub hbefore)
        exact ⟨start, hstart, path.tail leads⟩
      · exact reached name hn

/-- The names of types that are not known yet. -/
def unknownTypes (schema : Schema) (known : List String) : List String :=
  (schema.types.map SchemaType.name).filter fun name => !known.contains name

/-- A round that finds something new uses up a type. -/
theorem length_unknownTypes_lt {known new : List String} (h : other ∈ new)
    (hinput : schema.IsInputObject other) (hnew : other ∉ known) :
    (unknownTypes schema (new ++ known)).length < (unknownTypes schema known).length := by
  have left : unknownTypes schema (new ++ known) =
      (unknownTypes schema known).filter fun name => !new.contains name := by
    rw [unknownTypes, unknownTypes, List.filter_filter]
    refine List.filter_congr fun name _ => ?_
    simp
  rw [left, List.length_filter_lt_length_iff_exists]
  refine ⟨other, List.mem_filter.2 ⟨hinput.mem_names, ?_⟩, ?_⟩
  · simpa using hnew
  · simpa using h

/-- **The known types lead to known types only.** The induction is on the rounds that are left, of
which there are as many as types that are not known yet. What led out of the known types before has
been followed, apart from the latest of them. -/
theorem mem_reach_of_leadsTo (rounds : Nat) : ∀ {known latest : List String},
    (unknownTypes schema known).length ≤ rounds →
    (∀ name ∈ known, name ∉ latest → ∀ other, LeadsTo schema name other → other ∈ known) →
      ∀ name ∈ reach schema rounds known latest, ∀ other, LeadsTo schema name other →
        other ∈ reach schema rounds known latest := by
  induction rounds with
  | zero =>
    intro known latest few followed name hn other leads
    have none : unknownTypes schema known = [] := List.length_eq_zero_iff.1 (Nat.le_zero.1 few)
    have known := List.filter_eq_nil_iff.1 none other leads.2.mem_names
    rw [reach]
    simpa using known
  | succ rounds ih =>
    intro known latest few followed
    -- what the latest types lead to is known or is found in this round
    have found : ∀ name ∈ known, ∀ other, LeadsTo schema name other →
        other ∉ beyond schema known latest → other ∈ known := by
      intro name hn other leads old
      by_cases hl : name ∈ latest
      · by_contra new
        exact old (mem_beyond_iff.2 ⟨⟨name, hl, leads⟩, new⟩)
      · exact followed name hn hl other leads
    rw [reach]
    split
    · next hb =>
      exact fun name hn other leads =>
        found name hn other leads (by rw [hb]; exact List.not_mem_nil)
    next new hb =>
      obtain ⟨first, hfirst⟩ := List.exists_mem_of_ne_nil _ hb
      obtain ⟨⟨_, _, leads⟩, unknown⟩ := mem_beyond_iff.1 hfirst
      have fewer := length_unknownTypes_lt hfirst leads.2 unknown
      refine ih (by omega) fun name hn old other leads => ?_
      rw [List.mem_append] at hn ⊢
      by_cases ho : other ∈ beyond schema known latest
      · exact Or.inl ho
      · exact Or.inr (found name (hn.resolve_left old) other leads ho)

/-- **Following the fields finds what can be reached, and nothing else.** -/
theorem mem_reachableInputs_iff :
    other ∈ reachableInputs schema names ↔ ReachedInput schema names other := by
  rw [reachableInputs, SortedNames.mem_ofList]
  constructor
  · exact reachedInput_of_mem_reach _ (List.Subset.refl _) (fun name hn => ⟨name, hn, .refl⟩) other
  · rintro ⟨name, hn, path⟩
    have enough : (unknownTypes schema names).length ≤ schema.types.length := by
      rw [← List.length_map SchemaType.name]
      exact List.length_filter_le ..
    induction path with
    | refl => exact subset_reach _ _ _ hn
    | tail _ leads ih =>
      exact mem_reach_of_leadsTo _ enough (fun _ hk hl => absurd hk hl) _ ih _ leads

/-! ### Declared names -/

variable {references more : References}

/-- The names of the declarations of all named types that can be reached. -/
def namedTypeNames (schema : Schema) (references : References) : List String :=
  SortedNames.ofList
    (reachableInputs schema references.inputs ++ reachableEnums schema references)

theorem mem_reachableEnums_iff : name ∈ reachableEnums schema references ↔
    name ∈ references.enums ∨ ∃ input, ReachedInput schema references.inputs input ∧
      name ∈ inputFieldTypes schema input ∧ schema.IsEnum name := by
  rw [reachableEnums, List.mem_append, List.mem_flatMap]
  simp only [mem_reachableInputs_iff, fieldReferences, mem_allInputReferences_iff.1]

/-- **Declared are the input object types that can be reached, the enumerations that are referred to
at once, and those that fields of the former refer to.** -/
theorem mem_namedTypeNames_iff : name ∈ namedTypeNames schema references ↔
    ReachedInput schema references.inputs name ∨ name ∈ references.enums ∨
      ∃ input, ReachedInput schema references.inputs input ∧
        name ∈ inputFieldTypes schema input ∧ schema.IsEnum name := by
  rw [namedTypeNames, SortedNames.mem_ofList, List.mem_append, mem_reachableInputs_iff,
    mem_reachableEnums_iff]

theorem map_name_namedTypes (schema : Schema) (references : References) :
    (namedTypes schema references).map Alias.name = namedTypeNames schema references := by
  rw [namedTypes, List.map_map]
  refine (List.map_congr_left fun name _ => ?_).trans (List.map_id _)
  rw [Function.comp_apply]
  split <;> rfl

/-- References go to enumerations and input object types, and are told apart. -/
structure References.IsSound (schema : Schema) (references : References) : Prop where
  /-- What is noted as an enumeration is one. -/
  enums : ∀ name ∈ references.enums, schema.IsEnum name
  /-- What is noted as an input object type is one. -/
  inputs : ∀ name ∈ references.inputs, schema.IsInputObject name

theorem ReachedInput.isInputObject (sound : ∀ name ∈ names, schema.IsInputObject name)
    (h : ReachedInput schema names other) : schema.IsInputObject other := by
  obtain ⟨name, hn, path⟩ := h
  cases path with
  | refl => exact sound _ hn
  | tail _ leads => exact leads.2

/-- Named types that are declared are enumerations or input object types. -/
theorem References.IsSound.kind (sound : references.IsSound schema)
    (h : name ∈ namedTypeNames schema references) :
    schema.IsEnum name ∨ schema.IsInputObject name := by
  rcases mem_namedTypeNames_iff.1 h with h | h | ⟨_, _, _, h⟩
  · exact Or.inr (h.isInputObject sound.inputs)
  · exact Or.inl (sound.enums name h)
  · exact Or.inl h

/-! ### Declarations -/

/-- The declaration of a named type. -/
def declaration (schema : Schema) (name : String) : Alias :=
  if ((schema.find? name).bind SchemaType.enumValues?).isSome then enumAlias schema name
  else inputAlias schema name

/-- **A named type is declared the same wherever it is**: what its declaration says is in the
schema. -/
theorem namedTypes_eq (sound : references.IsSound schema) :
    namedTypes schema references =
      (namedTypeNames schema references).map (declaration schema) := by
  refine List.map_congr_left fun name hn => ?_
  have kind := sound.kind hn
  have isEnum : ((schema.find? name).bind SchemaType.enumValues?).isSome = true ↔
      schema.IsEnum name := by
    rw [Option.isSome_iff_exists, Schema.IsEnum]
    simp only [Option.bind_eq_some_iff, Option.isSome_iff_exists]
    exact ⟨fun ⟨v, t, ht, hv⟩ => ⟨t, ht, v, hv⟩, fun ⟨t, ht, v, hv⟩ => ⟨v, t, ht, hv⟩⟩
  have mem : name ∈ reachableEnums schema references ↔ schema.IsEnum name := by
    constructor
    · intro h
      rcases mem_reachableEnums_iff.1 h with h | ⟨_, _, _, h⟩
      · exact sound.enums name h
      · exact h
    · intro h
      rcases mem_namedTypeNames_iff.1 hn with hr | hr
      · exact absurd h (hr.isInputObject sound.inputs).not_isEnum
      · exact mem_reachableEnums_iff.2 hr
  rw [declaration]
  by_cases henum : schema.IsEnum name
  · rw [if_pos (mem.2 henum), if_pos (isEnum.2 henum)]
  · rw [if_neg fun h => henum (mem.1 h), if_neg fun h => henum (isEnum.1 h)]

/-- References among others. -/
structure References.IsPartOf (references more : References) : Prop where
  /-- The enumerations are among the others. -/
  enums : references.enums ⊆ more.enums
  /-- The input object types are among the others. -/
  inputs : references.inputs ⊆ more.inputs

theorem References.IsPartOf.refl (references : References) : references.IsPartOf references :=
  ⟨List.Subset.refl _, List.Subset.refl _⟩

theorem References.IsPartOf.append (part : references.IsPartOf more) (others : References) :
    (references.append others).IsPartOf (more.append others) where
  enums _ hn := List.mem_append.2 ((List.mem_append.1 hn).imp_left fun h => part.enums h)
  inputs _ hn := List.mem_append.2 ((List.mem_append.1 hn).imp_left fun h => part.inputs h)

/-- Fewer inputs refer to no more. -/
theorem isPartOf_allInputReferences {others : List String} (sub : names ⊆ others) :
    (allInputReferences schema names).IsPartOf (allInputReferences schema others) where
  enums _ hn := mem_allInputReferences_iff.1.2
    ((mem_allInputReferences_iff.1.1 hn).imp_left fun h => sub h)
  inputs _ hn := mem_allInputReferences_iff.2.2
    ((mem_allInputReferences_iff.2.1 hn).imp_left fun h => sub h)

theorem ReachedInput.mono {others : List String} (h : ReachedInput schema names other)
    (sub : names ⊆ others) : ReachedInput schema others other := by
  obtain ⟨name, hn, path⟩ := h
  exact ⟨name, sub hn, path⟩

theorem reachableEnums_subset (part : references.IsPartOf more) :
    reachableEnums schema references ⊆ reachableEnums schema more := by
  intro name hn
  refine mem_reachableEnums_iff.2 ?_
  rcases mem_reachableEnums_iff.1 hn with h | ⟨input, hr, h⟩
  · exact Or.inl (part.enums h)
  · exact Or.inr ⟨input, hr.mono part.inputs, h⟩

theorem namedTypeNames_sublist (part : references.IsPartOf more) :
    (namedTypeNames schema references).Sublist (namedTypeNames schema more) := by
  refine SortedNames.ofList_sublist fun name hn => List.mem_append.2 ?_
  rcases List.mem_append.1 hn with h | h
  · exact Or.inl (mem_reachableInputs_iff.2 ((mem_reachableInputs_iff.1 h).mono part.inputs))
  · exact Or.inr (reachableEnums_subset part h)

/-- **Fewer references lead to a part of the declarations.** -/
theorem namedTypes_sublist (sound : more.IsSound schema) (part : references.IsPartOf more) :
    (namedTypes schema references).Sublist (namedTypes schema more) := by
  have own : references.IsSound schema :=
    ⟨fun name hn => sound.enums name (part.enums hn),
      fun name hn => sound.inputs name (part.inputs hn)⟩
  rw [namedTypes_eq own, namedTypes_eq sound]
  exact (namedTypeNames_sublist part).map _

/-- **Only which references there are matters** for the declarations. -/
theorem namedTypes_congr (sound : references.IsSound schema) (part : references.IsPartOf more)
    (whole : more.IsPartOf references) :
    namedTypes schema references = namedTypes schema more := by
  have other : more.IsSound schema :=
    ⟨fun name hn => sound.enums name (whole.enums hn),
      fun name hn => sound.inputs name (whole.inputs hn)⟩
  refine (namedTypes_sublist other part).eq_of_length_le ?_
  exact (namedTypes_sublist sound whole).length_le

/-- All values can be read exactly if no enumeration that can be reached is noted as unreadable. -/
theorem unreadableEnum?_eq_none_iff : unreadableEnum? schema references = none ↔
    ∀ name ∈ reachableEnums schema references, name ∉ schema.unreadable := by
  rw [unreadableEnum?, List.find?_eq_none]
  simp only [List.contains_eq_mem, decide_eq_true_eq]

/-- Fewer references lead to no more unreadable values. -/
theorem unreadableEnum?_eq_none_of_isPartOf (part : references.IsPartOf more)
    (h : unreadableEnum? schema more = none) : unreadableEnum? schema references = none :=
  unreadableEnum?_eq_none_iff.2 fun name hn =>
    unreadableEnum?_eq_none_iff.1 h name (reachableEnums_subset part hn)

end Shape

end QueryTypes
