import Mathlib.Data.List.Nodup
import QueryTypes.GraphQL.Scrub
import QueryTypes.Naming

/-!
# Names of shapes

An operation has two shapes and a fragment has one, all named after it. The endings of these
names are taken from a fixed table in which no ending is the end of another, so the name of a
shape tells which operation or fragment it belongs to, and which of its shapes it is
(`QueryTypes.Naming.Facet.append_ending_injective`). Definitions of different names therefore
never have shapes of one name. Scrubbing changes neither the name of a definition nor those of
its shapes.
-/

namespace QueryTypes

open GraphQL (Definition Document OperationKind)

namespace Naming

/-- What a shape describes about the operation or fragment it is named after. -/
inductive Facet where
  /-- The variables of an operation. -/
  | input (kind : OperationKind)
  /-- The result of an operation. -/
  | result (kind : OperationKind)
  /-- The data of a fragment. -/
  | fragment
  deriving DecidableEq

namespace Facet

/-- The end of the names of shapes of this facet. -/
def ending : Facet → String
  | input kind => suffix kind ++ "Variables"
  | result kind => suffix kind
  | fragment => "Fragment"

/-- All facets. -/
def all : List Facet :=
  [input .query, input .mutation, input .subscription, result .query,
    result .mutation, result .subscription, fragment]

theorem mem_all (facet : Facet) : facet ∈ all := by
  rcases facet with kind | kind | _
  · cases kind <;> decide
  · cases kind <;> decide
  · decide

/-- No ending is the end of another one. -/
theorem eq_of_isSuffixOf {a b : Facet}
    (h : a.ending.toList.isSuffixOf b.ending.toList = true) : a = b := by
  have table : ∀ a ∈ all, ∀ b ∈ all,
      a.ending.toList.isSuffixOf b.ending.toList = true → a = b := by
    decide +kernel
  exact table a (mem_all a) b (mem_all b) h

/-- **A name with an ending tells the name and the ending.** -/
theorem append_ending_injective {m n : String} {a b : Facet}
    (h : m ++ a.ending = n ++ b.ending) : m = n ∧ a = b := by
  have chars : m.toList ++ a.ending.toList = n.toList ++ b.ending.toList := by
    rw [← String.toList_append, ← String.toList_append, h]
  have left : a.ending.toList <:+ n.toList ++ b.ending.toList := ⟨m.toList, chars⟩
  have same : a = b := by
    rcases List.suffix_or_suffix_of_suffix left (List.suffix_append n.toList _) with hs | hs
    · exact eq_of_isSuffixOf (List.isSuffixOf_iff_suffix.2 hs)
    · exact (eq_of_isSuffixOf (List.isSuffixOf_iff_suffix.2 hs)).symm
  subst same
  exact ⟨String.toList_inj.1 (List.append_cancel_right chars), rfl⟩

end Facet

theorem shape_eq (name : String) (kind : OperationKind) :
    shape name kind = name ++ (Facet.result kind).ending := rfl

theorem fragmentShape_eq (name : String) :
    fragmentShape name = name ++ Facet.fragment.ending := rfl

theorem variablesShape_eq (name : String) (kind : OperationKind) :
    variablesShape name kind = name ++ (Facet.input kind).ending := by
  rw [variablesShape, variablesOfShape, shape, Facet.ending, String.append_assoc]

end Naming

/-! ### Definitions and their shapes -/

namespace GraphQL

/-- The name of an operation or fragment, if it is one and has a name. -/
def Definition.name? : Definition → Option String
  | .operation o => o.name
  | .fragment f => some f.name
  | _ => none

/-- The names of the shapes of a definition. -/
def Definition.shapeNames : Definition → List String
  | .operation o => match o.name with
    | some name => [Naming.variablesShape name o.kind, Naming.shape name o.kind]
    | none => []
  | .fragment f => [Naming.fragmentShape f.name]
  | _ => []

/-- A shape is named after its definition. -/
theorem Definition.exists_facet_of_mem_shapeNames {d : Definition} {shape : String}
    (h : shape ∈ d.shapeNames) :
    ∃ name facet, d.name? = some name ∧ shape = name ++ Naming.Facet.ending facet := by
  cases d with
  | operation o =>
    rw [shapeNames] at h
    split at h
    · next name hname =>
      rcases List.mem_cons.1 h with rfl | h
      · exact ⟨name, _, hname, Naming.variablesShape_eq name o.kind⟩
      · rw [List.mem_singleton.1 h]
        exact ⟨name, _, hname, Naming.shape_eq name o.kind⟩
    · simp at h
  | fragment f =>
    rw [shapeNames, List.mem_singleton] at h
    subst h
    exact ⟨f.name, _, rfl, Naming.fragmentShape_eq f.name⟩
  | _ => simp [shapeNames] at h

/-- A definition with a shape has a name of its own. -/
theorem Definition.nodup_shapeNames (d : Definition) : d.shapeNames.Nodup := by
  cases d with
  | operation o =>
    rw [shapeNames]
    split
    · next name _ =>
      rw [List.nodup_cons, List.mem_singleton, Naming.variablesShape_eq, Naming.shape_eq]
      refine ⟨fun h => ?_, List.nodup_singleton _⟩
      exact absurd (Naming.Facet.append_ending_injective h).2 (by simp)
    · exact List.nodup_nil
  | fragment f => exact List.nodup_singleton _
  | _ => exact List.nodup_nil

/-- Definitions that share the name of a shape share their name. -/
theorem Definition.name?_eq_of_mem_shapeNames {c d : Definition} {shape : String}
    (hc : shape ∈ c.shapeNames) (hd : shape ∈ d.shapeNames) :
    ∃ name, c.name? = some name ∧ d.name? = some name := by
  obtain ⟨m, a, hm, rfl⟩ := exists_facet_of_mem_shapeNames hc
  obtain ⟨n, b, hn, h⟩ := exists_facet_of_mem_shapeNames hd
  obtain ⟨rfl, -⟩ := Naming.Facet.append_ending_injective h
  exact ⟨m, hm, hn⟩

/-- **Definitions of different names have shapes of different names.** -/
theorem Definition.nodup_flatMap_shapeNames {ds : List Definition}
    (h : (ds.filterMap Definition.name?).Nodup) : (ds.flatMap Definition.shapeNames).Nodup := by
  induction ds with
  | nil => exact List.nodup_nil
  | cons d rest ih =>
    rw [List.flatMap_cons, List.nodup_append]
    have tail : (rest.filterMap Definition.name?).Nodup :=
      h.sublist ((List.sublist_cons_self d rest).filterMap _)
    refine ⟨nodup_shapeNames d, ih tail, fun shape hd other hr => ?_⟩
    rintro rfl
    obtain ⟨e, he, hm⟩ := List.mem_flatMap.1 hr
    obtain ⟨name, hname, hother⟩ := name?_eq_of_mem_shapeNames hd hm
    rw [List.filterMap_cons_some hname, List.nodup_cons] at h
    exact h.1 (List.mem_filterMap.2 ⟨e, he, hother⟩)

/-! ### Scrubbing keeps names -/

variable {isInternal : String → Bool} {used : List String}

/-- What scrubbing leaves of a definition, given the variables that count as used. -/
def Definition.scrubbed (isInternal : String → Bool) (used : List String) (d : Definition) :
    Definition :=
  (d.withoutDirectives isInternal).keepVariables used

theorem Document.definitions_scrub (isInternal : String → Bool) (document : Document) :
    (document.scrub isInternal).definitions = document.definitions.map
      (Definition.scrubbed isInternal (document.withoutDirectives isInternal).usedVariables) := by
  rw [Document.scrub, Document.withoutUnusedVariables, Document.withoutDirectives, List.map_map]
  rfl

@[simp] theorem Definition.name?_scrubbed (d : Definition) :
    (d.scrubbed isInternal used).name? = d.name? := by
  cases d <;> rfl

@[simp] theorem Definition.shapeNames_scrubbed (d : Definition) :
    (d.scrubbed isInternal used).shapeNames = d.shapeNames := by
  cases d <;> rfl

theorem Document.filterMap_name?_scrub (isInternal : String → Bool) (document : Document) :
    (document.scrub isInternal).definitions.filterMap Definition.name? =
      document.definitions.filterMap Definition.name? := by
  rw [Document.definitions_scrub, List.filterMap_map]
  exact List.filterMap_congr fun d _ => Definition.name?_scrubbed d

end GraphQL

end QueryTypes
