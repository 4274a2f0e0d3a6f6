import Mathlib.Data.List.Nodup
import QueryTypes.Run

/-!
# The documents that a run works on

Filters keep some of the documents in their order. The run stops at once exactly if two of the
documents that get type definitions have one file (`QueryTypes.Run.firstClash_eq_none_iff`). The
internal shapes are made from the shared documents behind the entries that need a store: each
such document is there (`QueryTypes.Run.exists_mem_storeDocuments`), no other is
(`QueryTypes.Run.exists_of_mem_storeDocuments`), and none is there twice
(`QueryTypes.Run.nodup_ids_storeDocuments`).
-/

namespace QueryTypes

/-- Filters keep documents in their order. -/
theorem Hooks.runPre_sublist (hooks : Hooks) (documents : List CollectedDocument) :
    (hooks.runPre documents).Sublist documents := by
  unfold runPre
  induction hooks.pre generalizing documents with
  | nil => exact List.Sublist.refl _
  | cons passes rest ih => exact (ih _).trans List.filter_sublist

namespace Run

variable {settings : Settings}

/-! ### Clashes -/

/-- **No clash is found exactly if no two documents have one file.** -/
theorem firstClash_eq_none_iff {before documents : List CollectedDocument} :
    firstClash settings before documents = none ↔
      (documents.map fun d => settings.artifactFile d.name).Nodup ∧
        (documents.map fun d => settings.artifactFile d.name).Disjoint
          (before.map fun d => settings.artifactFile d.name) := by
  induction documents generalizing before with
  | nil => simp [firstClash]
  | cons d rest ih =>
    rw [firstClash, List.map_cons, List.nodup_cons, List.disjoint_cons_left]
    split
    · next other hother =>
      have same := List.find?_some hother
      rw [decide_eq_true_eq] at same
      refine iff_of_false (by simp) fun h => h.2.1 ?_
      exact List.mem_map.2 ⟨other, List.mem_of_find?_eq_some hother, same⟩
    · next hnone =>
      have new : settings.artifactFile d.name ∉
          before.map fun d => settings.artifactFile d.name := by
        intro hm
        obtain ⟨other, ho, same⟩ := List.mem_map.1 hm
        exact List.find?_eq_none.1 hnone other ho (decide_eq_true same)
      -- the first document joins those before, and the rest is compared with all of them
      rw [ih, List.map_append, List.disjoint_append_right, List.map_singleton,
        List.disjoint_singleton]
      constructor
      · rintro ⟨distinct, apart, first⟩
        exact ⟨⟨first, distinct⟩, new, apart⟩
      · rintro ⟨⟨first, distinct⟩, -, apart⟩
        exact ⟨distinct, apart, first⟩

/-! ### The built-in shapes -/

theorem builtInShapes_eq_ok_iff {settings : Settings} {schema : Schema}
    {layout : TypeScript.Layout} {documents : List GraphQL.Document} {text : String} :
    builtInShapes settings schema layout documents = .ok text ↔
      ∃ program, Shape.program schema settings.fragmentMasking
        (ScalarTable.withOverrides settings.scalars) documents = .ok program ∧
        layout.renderProgram program = text := by
  unfold builtInShapes
  cases Shape.program schema settings.fragmentMasking
    (ScalarTable.withOverrides settings.scalars) documents <;> simp [Except.map]

theorem builtInShapes_eq_error_iff {settings : Settings} {schema : Schema}
    {layout : TypeScript.Layout} {documents : List GraphQL.Document} {e : ShapeError} :
    builtInShapes settings schema layout documents = .error e ↔
      Shape.program schema settings.fragmentMasking
        (ScalarTable.withOverrides settings.scalars) documents = .error e := by
  unfold builtInShapes
  cases Shape.program schema settings.fragmentMasking
    (ScalarTable.withOverrides settings.scalars) documents <;> simp [Except.map]

/-! ### Documents that need a store -/

/-- No document is shaped twice. -/
theorem nodup_ids_storeDocuments (seen : List Nat) (documents : List CollectedDocument) :
    ((storeDocuments seen documents).map SharedDocument.id).Nodup ∧
      ∀ shared ∈ storeDocuments seen documents, shared.id ∉ seen := by
  induction documents generalizing seen with
  | nil => exact ⟨List.nodup_nil, fun shared hs => by cases hs⟩
  | cons d rest ih =>
    rw [storeDocuments]
    split
    · next hd =>
      obtain ⟨distinct, new⟩ := ih (d.document.id :: seen)
      refine ⟨?_, fun shared hs => ?_⟩
      · rw [List.map_cons, List.nodup_cons]
        refine ⟨fun hm => ?_, distinct⟩
        obtain ⟨shared, hs, same⟩ := List.mem_map.1 hm
        exact new shared hs (by rw [same]; exact List.mem_cons_self ..)
      · rcases List.mem_cons.1 hs with rfl | hs
        · exact hd.2
        · exact fun hm => new shared hs (List.mem_cons_of_mem _ hm)
    · exact ih seen

/-- Only documents that need a store are shaped. -/
theorem exists_of_mem_storeDocuments {seen : List Nat} {documents : List CollectedDocument}
    {shared : SharedDocument} (h : shared ∈ storeDocuments seen documents) :
    ∃ d ∈ documents, d.generateStore = true ∧ d.document = shared := by
  induction documents generalizing seen with
  | nil => cases h
  | cons d rest ih =>
    rw [storeDocuments] at h
    split at h
    · next hd =>
      rcases List.mem_cons.1 h with rfl | h
      · exact ⟨d, List.mem_cons_self .., hd.1, rfl⟩
      · obtain ⟨e, he, found⟩ := ih h
        exact ⟨e, List.mem_cons_of_mem _ he, found⟩
    · obtain ⟨e, he, found⟩ := ih h
      exact ⟨e, List.mem_cons_of_mem _ he, found⟩

/-- Every document that needs a store is shaped, under its number. -/
theorem exists_mem_storeDocuments {documents : List CollectedDocument} {d : CollectedDocument}
    (hd : d ∈ documents) (store : d.generateStore = true) (seen : List Nat) :
    d.document.id ∈ seen ∨
      ∃ shared ∈ storeDocuments seen documents, shared.id = d.document.id := by
  induction documents generalizing seen with
  | nil => cases hd
  | cons e rest ih =>
    rw [storeDocuments]
    rcases List.mem_cons.1 hd with rfl | hd
    · by_cases hm : d.document.id ∈ seen
      · exact Or.inl hm
      · rw [if_pos ⟨store, hm⟩]
        exact Or.inr ⟨d.document, List.mem_cons_self .., rfl⟩
    · split
      · rcases ih hd (e.document.id :: seen) with hm | ⟨shared, hs, same⟩
        · rcases List.mem_cons.1 hm with same | hm
          · exact Or.inr ⟨e.document, List.mem_cons_self .., same.symm⟩
          · exact Or.inl hm
        · exact Or.inr ⟨shared, List.mem_cons_of_mem _ hs, same⟩
      · exact ih hd seen

/-- Entries of one number share one document. -/
def Sharing (documents : List CollectedDocument) : Prop :=
  ∀ c ∈ documents, ∀ d ∈ documents, c.document.id = d.document.id → c.document = d.document

/-- **Every document that needs a store is shaped**, if entries of one number share it. -/
theorem document_mem_storeDocuments {documents : List CollectedDocument}
    (sharing : Sharing documents) {d : CollectedDocument} (hd : d ∈ documents)
    (store : d.generateStore = true) : d.document ∈ storeDocuments [] documents := by
  rcases exists_mem_storeDocuments hd store [] with hm | ⟨shared, hs, same⟩
  · cases hm
  · obtain ⟨e, he, -, rfl⟩ := exists_of_mem_storeDocuments hs
    rw [← sharing e he d hd same]
    exact hs

end Run

end QueryTypes
