import Mathlib.Data.List.Perm.Subperm
import Mathlib.Logic.Relation
import QueryTypes.GraphQL.Syntax

/-!
# Spreads

A selection set spreads fragments by their names (`QueryTypes.GraphQL.Selection.spreadsInAll`),
at any depth of fields and inline fragments, and the fragments it spreads may spread others. So a
batch of fragments is a graph (`QueryTypes.GraphQL.Fragment.Spreads`), and what a selection set
takes from it are the fragments that can be reached (`QueryTypes.GraphQL.Fragment.ReachedFrom`).

If no fragment reaches itself (`QueryTypes.GraphQL.Acyclic`), no chain of spreads is longer than
the list of fragments (`QueryTypes.GraphQL.Acyclic.length_lt`).
-/

namespace QueryTypes

namespace GraphQL

/-! ### Names of fragments -/

mutual

/-- The names of the fragments that a selection spreads, in the order of the text. -/
def Selection.spreads : Selection → List String
  | .field _ _ _ _ none => []
  | .field _ _ _ _ (some selections) => spreadsInAll selections
  | .spread fragment _ => [fragment]
  | .inlineFragment _ _ selections => spreadsInAll selections

/-- The names of the fragments that some selections spread. -/
def Selection.spreadsInAll : List Selection → List String
  | [] => []
  | selection :: rest => selection.spreads ++ spreadsInAll rest

end

/-- What an operation or fragment selects. -/
def Definition.selections : Definition → List Selection
  | .operation o => o.selections
  | .fragment f => f.selections
  | _ => []

/-- The names of the fragments that a definition spreads. -/
def Definition.spreads (d : Definition) : List String := Selection.spreadsInAll d.selections

theorem Document.mem_fragments_iff {document : Document} {f : Fragment} :
    f ∈ document.fragments ↔ .fragment f ∈ document.definitions := by
  rw [fragments, List.mem_filterMap]
  constructor
  · rintro ⟨d, hd, hf⟩
    cases d with
    | fragment g =>
      obtain rfl : g = f := Option.some.inj hf
      exact hd
    | _ => cases hf
  · intro hf
    exact ⟨_, hf, rfl⟩

/-- The fragments of a batch are among its definitions. -/
theorem Document.mem_flatMap_fragments_iff {documents : List Document} {f : Fragment} :
    f ∈ documents.flatMap fragments ↔ .fragment f ∈ documents.flatMap definitions := by
  simp only [List.mem_flatMap, mem_fragments_iff]

/-! ### The graph of fragments -/

/-- A fragment spreads another one of a batch. -/
def Fragment.Spreads (batch : List Fragment) (f g : Fragment) : Prop :=
  g ∈ batch ∧ g.name ∈ Selection.spreadsInAll f.selections

/-- A fragment of a batch is spread by some selections, maybe through other fragments. -/
def Fragment.ReachedFrom (batch : List Fragment) (selections : List Selection) (f : Fragment) :
    Prop :=
  ∃ g ∈ batch, g.name ∈ Selection.spreadsInAll selections ∧
    Relation.ReflTransGen (Fragment.Spreads batch) g f

/-- No fragment of a batch reaches itself through spreads. -/
def Acyclic (batch : List Fragment) : Prop :=
  ∀ f ∈ batch, ¬ Relation.TransGen (Fragment.Spreads batch) f f

variable {batch : List Fragment}

theorem Fragment.mem_of_reflTransGen {f g : Fragment} (hf : f ∈ batch)
    (h : Relation.ReflTransGen (Fragment.Spreads batch) f g) : g ∈ batch := by
  induction h with
  | refl => exact hf
  | tail _ hspread _ => exact hspread.1

/-- What is reached belongs to the batch. -/
theorem Fragment.ReachedFrom.mem {selections : List Selection} {f : Fragment}
    (h : Fragment.ReachedFrom batch selections f) : f ∈ batch := by
  obtain ⟨g, hg, -, hreach⟩ := h
  exact mem_of_reflTransGen hg hreach

/-- Fragments can be put in an order in which each spreads only such as come before it; then none
reaches itself. -/
theorem acyclic_of_rank (rank : Fragment → Nat)
    (h : ∀ f ∈ batch, ∀ g ∈ batch, g.name ∈ Selection.spreadsInAll f.selections →
      rank g < rank f) : Acyclic batch := by
  intro f hf cycle
  have descends : ∀ g, Relation.TransGen (Fragment.Spreads batch) f g →
      g ∈ batch ∧ rank g < rank f := by
    intro g hg
    induction hg with
    | single hspread => exact ⟨hspread.1, h f hf _ hspread.1 hspread.2⟩
    | tail _ hspread ih =>
      exact ⟨hspread.1, Nat.lt_trans (h _ ih.1 _ hspread.1 hspread.2) ih.2⟩
  exact Nat.lt_irrefl _ (descends f cycle).2

/-- **Without cycles, a chain of spreads passes no fragment twice**, so one more fragment of the
batch finds room behind those that lead to it. -/
theorem Acyclic.length_lt (acyclic : Acyclic batch) {trail : List Fragment} {f : Fragment}
    (hf : f ∈ batch) (distinct : trail.Nodup) (sub : trail ⊆ batch)
    (leads : ∀ g ∈ trail, Relation.TransGen (Fragment.Spreads batch) g f) :
    (f :: trail).Nodup ∧ trail.length < batch.length := by
  have new : f ∉ trail := fun hm => acyclic f hf (leads f hm)
  have longer : (f :: trail).Nodup := List.nodup_cons.2 ⟨new, distinct⟩
  have within : f :: trail ⊆ batch := List.cons_subset.2 ⟨hf, sub⟩
  exact ⟨longer, (longer.subperm within).length_le⟩

end GraphQL

end QueryTypes
