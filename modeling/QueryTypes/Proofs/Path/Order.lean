import Mathlib.Data.List.Lex
import Mathlib.Data.String.Basic
import QueryTypes.Path.Basic

/-!
# Sorting by components

Paths are compared component by component, which is the lexicographic order of their components
(`QueryTypes.Path.partsBefore_iff`). Sorting neither adds nor loses a path, and if no two paths have
the same components, the sorted list is strictly increasing. So it does not depend on the order that
the paths came in (`QueryTypes.Path.sort_eq_of_perm`).
-/

namespace QueryTypes

namespace Path

variable {path : Path} {paths others : List Path}

/-- The components of the first path come before those of the second. -/
def Precedes (p q : Path) : Prop := p.parts < q.parts

theorem Precedes.trans {p q r : Path} (first : p.Precedes q) (second : q.Precedes r) :
    p.Precedes r :=
  lt_trans (α := List String) first second

theorem Precedes.not_precedes {p q : Path} (h : p.Precedes q) : ¬ q.Precedes p :=
  lt_asymm (α := List String) h

/-- **Components are compared one by one.** -/
theorem partsBefore_iff {xs ys : List String} : partsBefore xs ys = true ↔ xs < ys := by
  induction xs generalizing ys with
  | nil =>
    cases ys with
    | nil => simp [partsBefore]
    | cons y ys => simp [partsBefore]
  | cons x xs ih =>
    cases ys with
    | nil => simp [partsBefore]
    | cons y ys =>
      rw [partsBefore, List.cons_lt_cons_iff]
      by_cases same : x = y
      · subst same
        simp [ih]
      · simp [same]

/-! ### Sorting -/

/-- A path that is put at its place is one more. -/
theorem perm_insertSorted (path : Path) (paths : List Path) :
    (insertSorted path paths).Perm (path :: paths) := by
  induction paths with
  | nil => exact List.Perm.refl _
  | cons other rest ih =>
    rw [insertSorted]
    split
    · exact List.Perm.refl _
    · exact (ih.cons other).trans (List.Perm.swap path other rest)

/-- **Sorting neither adds nor loses a path.** -/
theorem perm_sort (paths : List Path) : (sort paths).Perm paths := by
  induction paths with
  | nil => exact List.Perm.refl _
  | cons path rest ih => exact (perm_insertSorted path (sort rest)).trans (ih.cons path)

/-- A path that is put at its place leaves the order strict, if it is a new one. -/
theorem pairwise_insertSorted (sorted : paths.Pairwise Precedes)
    (new : ∀ other ∈ paths, path.parts ≠ other.parts) :
    (insertSorted path paths).Pairwise Precedes := by
  induction paths with
  | nil => exact List.pairwise_singleton _ _
  | cons other rest ih =>
    obtain ⟨first, sortedRest⟩ := List.pairwise_cons.1 sorted
    rw [insertSorted]
    split
    · next before =>
      have here : path.Precedes other := partsBefore_iff.1 before
      refine List.pairwise_cons.2 ⟨fun q hq => ?_, sorted⟩
      rcases List.mem_cons.1 hq with rfl | hq
      · exact here
      · exact here.trans (first q hq)
    · next behind =>
      -- the two are not alike, so what is not before comes after
      have there : other.Precedes path := by
        have notBefore : ¬ path.parts < other.parts := fun lt => behind (partsBefore_iff.2 lt)
        have ne := new other (List.mem_cons_self ..)
        exact lt_of_le_of_ne (not_lt.1 notBefore) (Ne.symm ne)
      have newRest : ∀ q ∈ rest, path.parts ≠ q.parts :=
        fun q hq => new q (List.mem_cons_of_mem _ hq)
      refine List.pairwise_cons.2 ⟨fun q hq => ?_, ih sortedRest newRest⟩
      rcases List.mem_cons.1 ((perm_insertSorted path rest).mem_iff.1 hq) with rfl | hq
      · exact there
      · exact first q hq

/-- **Sorted paths are in strictly increasing order**, if no two have the same components. -/
theorem pairwise_sort (distinct : (paths.map parts).Nodup) : (sort paths).Pairwise Precedes := by
  induction paths with
  | nil => exact List.Pairwise.nil
  | cons path rest ih =>
    rw [List.map_cons, List.nodup_cons] at distinct
    refine pairwise_insertSorted (ih distinct.2) fun other ho same => distinct.1 ?_
    rw [same]
    exact List.mem_map_of_mem ((perm_sort rest).mem_iff.1 ho)

/-- Lists in strictly increasing order that hold the same paths are the same. -/
theorem eq_of_perm_of_pairwise (h : paths.Perm others) (sorted : paths.Pairwise Precedes)
    (sortedOthers : others.Pairwise Precedes) : paths = others :=
  h.eq_of_pairwise (fun _ _ _ _ before after => absurd after before.not_precedes) sorted
    sortedOthers

/-- **Sorting does not depend on the order that the paths come in.** -/
theorem sort_eq_of_perm (h : paths.Perm others) (distinct : (paths.map parts).Nodup) :
    sort paths = sort others := by
  have distinctOthers : (others.map parts).Nodup := (h.map parts).nodup_iff.1 distinct
  have same : (sort paths).Perm (sort others) :=
    (perm_sort paths).trans (h.trans (perm_sort others).symm)
  exact eq_of_perm_of_pairwise same (pairwise_sort distinct) (pairwise_sort distinctOthers)

end Path

end QueryTypes
