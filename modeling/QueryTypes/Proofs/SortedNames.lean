import Mathlib.Data.List.Perm.Subperm
import Mathlib.Data.List.Sort
import Mathlib.Data.String.Basic
import QueryTypes.SortedNames

/-!
# Sorting by name

Sorted names stand in strictly increasing order, so no name comes twice, and the sorted list says
nothing about a list but which names are in it: fewer names are sorted to a part of the list
(`QueryTypes.SortedNames.ofList_sublist`).
-/

namespace QueryTypes

namespace SortedNames

variable {name : String} {names others : List String}

/-- A name that is put at its place leaves the order strict. -/
theorem pairwise_insert (h : names.Pairwise (· < ·)) : (insert name names).Pairwise (· < ·) := by
  induction names with
  | nil => exact List.pairwise_singleton _ _
  | cons other rest ih =>
    obtain ⟨first, sorted⟩ := List.pairwise_cons.1 h
    unfold insert
    split
    · exact h
    next hne =>
      split
      · next hlt =>
        refine List.pairwise_cons.2 ⟨fun x hx => ?_, h⟩
        rcases List.mem_cons.1 hx with rfl | hx
        · exact hlt
        · exact lt_trans hlt (first x hx)
      · next hge =>
        have below : other < name := lt_of_le_of_ne (not_lt.1 hge) (Ne.symm hne)
        refine List.pairwise_cons.2 ⟨fun x hx => ?_, ih sorted⟩
        rcases mem_insert.1 hx with rfl | hx
        · exact below
        · exact first x hx

/-- **Sorted names are in strictly increasing order.** -/
theorem pairwise_ofList (names : List String) : (ofList names).Pairwise (· < ·) := by
  induction names with
  | nil => exact List.Pairwise.nil
  | cons name rest ih => exact pairwise_insert ih

/-- No name comes twice. -/
theorem nodup_ofList (names : List String) : (ofList names).Nodup :=
  (pairwise_ofList names).imp fun h => ne_of_lt h

/-- **Fewer names are sorted to a part of the list.** -/
theorem ofList_sublist (h : names ⊆ others) : (ofList names).Sublist (ofList others) := by
  have sub : ofList names ⊆ ofList others := fun name hn => mem_ofList.2 (h (mem_ofList.1 hn))
  exact List.sublist_of_subperm_of_pairwise ((nodup_ofList names).subperm sub)
    (pairwise_ofList names) (pairwise_ofList others)

/-- Only which names there are matters. -/
theorem ofList_congr (h : ∀ name, name ∈ names ↔ name ∈ others) : ofList names = ofList others :=
  (ofList_sublist fun name => (h name).1).antisymm (ofList_sublist fun name => (h name).2)

end SortedNames

end QueryTypes
