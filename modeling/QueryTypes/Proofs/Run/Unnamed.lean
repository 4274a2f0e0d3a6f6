import QueryTypes.Proofs.Run.Imports

/-!
# Operations without a name

Operations without a name are passed over when documents are collected, but they stay in their
document. If another definition of the same document is collected and kept, then the document is
shaped, and an operation without a name has no shape. So such an operation breaks a run that would
succeed without it, unless the filters drop everything else in its document.
-/

namespace QueryTypes

open GraphQL (Definition Document)

/-! ### Leaving them out -/

namespace GraphQL

/-- Whether a definition is an operation without a name. -/
def Definition.isUnnamed : Definition → Bool
  | .operation o => o.name.isNone
  | _ => false

/-- Whether some operation of a document has no name. -/
def Document.hasUnnamed (document : Document) : Bool :=
  document.definitions.any Definition.isUnnamed

/-- The document without the operations that have no name. -/
def Document.withoutUnnamed (document : Document) : Document :=
  { document with definitions := document.definitions.filter fun d => !d.isUnnamed }

theorem Document.withoutUnnamed_eq {document : Document} (h : document.hasUnnamed = false) :
    document.withoutUnnamed = document := by
  rw [hasUnnamed, List.any_eq_false] at h
  rw [withoutUnnamed, List.filter_eq_self.2 fun d hd => by simpa using h d hd]

end GraphQL

/-- The document without the operations that have no name; it is still known by its number. -/
def SharedDocument.withoutUnnamed (shared : SharedDocument) : SharedDocument :=
  { shared with document := shared.document.withoutUnnamed }

theorem SharedDocument.withoutUnnamed_eq {shared : SharedDocument}
    (h : shared.document.hasUnnamed = false) : shared.withoutUnnamed = shared := by
  rw [withoutUnnamed, Document.withoutUnnamed_eq h]

/-- The entry with its document without the operations that have no name. -/
def CollectedDocument.withoutUnnamed (d : CollectedDocument) : CollectedDocument :=
  { d with
    document := d.document.withoutUnnamed
    asWritten := d.asWritten.withoutUnnamed }

/-- Whether an entry is kept depends on its name and kind only. -/
def Hooks.GoByNames (hooks : Hooks) : Prop :=
  ∀ passes ∈ hooks.pre, ∀ c d : CollectedDocument, c.name = d.name → c.kind = d.kind →
    passes c = passes d

/-- Filters on names and kinds go by them. -/
theorem Hooks.GoByNames.addPre {hooks : Hooks} (h : hooks.GoByNames) (filter : DocumentFilter) :
    (hooks.addPre filter).GoByNames := by
  intro passes hp c d hname hkind
  rcases List.mem_append.1 hp with hp | hp
  · exact h passes hp c d hname hkind
  · rw [List.mem_singleton.1 hp]
    dsimp only
    rw [hname, hkind]

/-- Which entries are kept does not depend on operations without a name. -/
theorem Hooks.GoByNames.runPre_map {hooks : Hooks} (h : hooks.GoByNames)
    (documents : List CollectedDocument) :
    hooks.runPre (documents.map CollectedDocument.withoutUnnamed) =
      (hooks.runPre documents).map CollectedDocument.withoutUnnamed := by
  have same : ∀ passes ∈ hooks.pre, passes ∘ CollectedDocument.withoutUnnamed = passes :=
    fun passes hp => funext fun d => h passes hp d.withoutUnnamed d rfl rfl
  unfold runPre
  generalize hooks.pre = filters at same
  induction filters generalizing documents with
  | nil => rfl
  | cons passes rest ih =>
    rw [List.foldl_cons, List.foldl_cons, List.filter_map, same passes (List.mem_cons_self ..)]
    exact ih _ fun other ho => same other (List.mem_cons_of_mem _ ho)

namespace Run

variable {σ ε : Type} {context : RunContext} {documents : List CollectedDocument}

/-! ### Runs with and without them -/

/-- A run depends on the documents that are kept. -/
theorem generate_congr {others : List CollectedDocument}
    (h : context.hooks.runPre documents = context.hooks.runPre others) (output : Output σ ε)
    (state : σ) :
    generate output context state documents = generate output context state others := by
  unfold generate
  rw [h]

/-- Entries of documents in which every operation has a name are left alone. -/
theorem withoutUnnamed_eq_of_gathered {sources : List SharedDocument}
    (g : Collection.Gathered sources documents) {d : CollectedDocument} (hd : d ∈ documents)
    (h : d.document.document.hasUnnamed = false) : d.withoutUnnamed = d := by
  obtain ⟨shared, -, he⟩ := g.exists_source hd
  obtain ⟨document, written, -, -⟩ := Collection.document_of_mem_entriesOf he
  obtain ⟨name, kind, own, asWritten, store, artifact⟩ := d
  dsimp only at document written h
  subst document written
  rw [CollectedDocument.withoutUnnamed, SharedDocument.withoutUnnamed_eq h]

/-- **A document with an operation without a name has no shapes.** -/
theorem exists_error_of_hasUnnamed {sources : List SharedDocument}
    (g : Collection.Gathered sources documents) {kept : List CollectedDocument}
    (hk : kept ⊆ documents)
    (hs : context.shapes = builtInShapes context.settings context.schema context.layout)
    {d : CollectedDocument} (hd : d ∈ kept) (h : d.document.document.hasUnnamed = true) :
    ∃ e, context.shapes (scrubbedDocuments context.settings kept) = .error e := by
  cases shaped : context.shapes (scrubbedDocuments context.settings kept) with
  | error e => exact ⟨e, rfl⟩
  | ok text =>
    rw [hs, builtInShapes_eq_ok_iff] at shaped
    obtain ⟨program, hprogram, -⟩ := shaped
    obtain ⟨shapes, hshapes, -⟩ := Shape.exists_of_program hprogram
    obtain ⟨definition, hmem, unnamed⟩ := List.any_eq_true.1 h
    obtain ⟨own, hown⟩ := exists_own_of_kept g hk hshapes hd hmem
    cases definition with
    | operation o =>
      obtain ⟨name, -, -, -, hname, -⟩ := Shape.exists_of_ofOperation hown
      have none : o.name = none := Option.isNone_iff_eq_none.1 unnamed
      cases none.symm.trans hname
    | _ => cases unnamed

/-- **An operation without a name breaks a run exactly if its document is shaped.** Of a run that
succeeds once the operations without a name are left out: with them, the run succeeds and writes the
same files if and only if no document that the filters keep holds one. Otherwise the internal shapes
cannot be made, and no file is written at all. -/
theorem generate_with_unnamed_iff {tree : FileTree} {path : Path} {excluded : List Path}
    {collection : Collection} (hc : Collection.ofTree tree path excluded = (collection, none))
    (hs : context.shapes = builtInShapes context.settings context.schema context.layout)
    (filters : context.hooks.GoByNames) {output : Output σ ε} {state last : σ}
    {writes : List Written} {paths : List Path}
    (done : generate output.recorded context (state, [])
      (collection.documents.map CollectedDocument.withoutUnnamed) = ((last, writes), .ok paths)) :
    ((∃ next more all, generate output.recorded context (state, []) collection.documents =
        ((next, more), .ok all) ∧
        ∀ file, file ∈ more.map Prod.fst ↔ file ∈ writes.map Prod.fst) ↔
      ∀ d ∈ context.hooks.runPre collection.documents, d.document.document.hasUnnamed = false) ∧
    ((∃ d ∈ context.hooks.runPre collection.documents, d.document.document.hasUnnamed = true) →
      ∃ next e, generate output.recorded context (state, []) collection.documents =
        ((next, []), .error (.shapes e))) := by
  obtain ⟨sources, g⟩ := Collection.exists_gathered_of_ofTree hc
  have sublist := context.hooks.runPre_sublist collection.documents
  have stops : (∃ d ∈ context.hooks.runPre collection.documents,
      d.document.document.hasUnnamed = true) → ∃ next e,
      generate output.recorded context (state, []) collection.documents =
        ((next, []), .error (.shapes e)) := by
    rintro ⟨d, hd, unnamed⟩
    have clash : firstClash context.settings [] (wanted context collection.documents) = none := by
      rw [wanted_of_gathered g]
      exact firstClash_of_gathered g sublist context.settings
    obtain ⟨e, he⟩ := exists_error_of_hasUnnamed g sublist.subset hs hd unnamed
    obtain ⟨next, hnext⟩ := generate_of_error output clash he state
    exact ⟨next, e, hnext⟩
  refine ⟨⟨?_, fun named => ⟨last, writes, paths, ?_, fun file => Iff.rfl⟩⟩, stops⟩
  · rintro ⟨next, more, all, run, -⟩ d hd
    by_contra unnamed
    obtain ⟨other, e, fails⟩ := stops ⟨d, hd, eq_true_of_ne_false unnamed⟩
    cases run.symm.trans fails
  · -- the kept documents are the same, with and without
    rw [← done]
    refine generate_congr ?_ _ _
    rw [filters.runPre_map, List.map_congr_left fun d hd =>
      withoutUnnamed_eq_of_gathered g (sublist.subset hd) (named d hd), List.map_id']

/-- A tree with a file that holds a query and an operation without a name, and a file that holds a
fragment. -/
def unnamedTree : FileTree :=
  { entries :=
      [((1, ["a.graphql"]), .file "query Q \x7b a \x7d \x7b a \x7d"),
        ((2, ["b.graphql"]), .file "fragment F on Query \x7b a \x7d")]
    directory := [] }

/-- A run without the operations that have no name, given that it succeeds. -/
theorem exists_run_withoutUnnamed (context : RunContext)
    (collected : (Collection.ofTree unnamedTree .here []).2.isNone = true)
    (succeeds : (generate silent.recorded context ((), [])
      ((Collection.ofTree unnamedTree .here []).1.documents.map
        CollectedDocument.withoutUnnamed)).2.isOk = true) :
    ∃ collection last writes paths, Collection.ofTree unnamedTree .here [] = (collection, none) ∧
      generate silent.recorded context ((), [])
        (collection.documents.map CollectedDocument.withoutUnnamed) =
          ((last, writes), .ok paths) := by
  rcases tree : Collection.ofTree unnamedTree .here [] with ⟨collection, failure⟩
  rw [tree] at collected succeeds
  obtain rfl : failure = none := Option.isNone_iff_eq_none.1 collected
  rcases run : generate silent.recorded context ((), [])
    (collection.documents.map CollectedDocument.withoutUnnamed) with ⟨⟨last, writes⟩, e | paths⟩
  · rw [run] at succeeds
    cases succeeds
  · exact ⟨collection, last, writes, paths, rfl, run⟩

/-- If the filters drop the query, then the operation beside it does no harm. -/
theorem generate_with_unnamed_dropped : ∃ collection last writes paths,
    Collection.ofTree unnamedTree .here [] = (collection, none) ∧
    generate silent.recorded sampleContext ((), [])
      (collection.documents.map CollectedDocument.withoutUnnamed) = ((last, writes), .ok paths) ∧
    (∃ d ∈ collection.documents, d.document.document.hasUnnamed = true) ∧
    ∃ next more all, generate silent.recorded sampleContext ((), []) collection.documents =
      ((next, more), .ok all) ∧
      ∀ file, file ∈ more.map Prod.fst ↔ file ∈ writes.map Prod.fst := by
  have unnamed : (Collection.ofTree unnamedTree .here []).1.documents.any
      (fun d => d.document.document.hasUnnamed) = true := by decide +kernel
  have named : (sampleContext.hooks.runPre (Collection.ofTree unnamedTree .here []).1.documents).all
      (fun d => !d.document.document.hasUnnamed) = true := by decide +kernel
  obtain ⟨collection, last, writes, paths, tree, run⟩ :=
    exists_run_withoutUnnamed sampleContext (by decide +kernel) (by decide +kernel)
  rw [tree] at unnamed named
  have filters : sampleContext.hooks.GoByNames := by
    intro passes hp c d _ kind
    rw [List.mem_singleton.1 hp]
    dsimp only
    rw [kind]
  refine ⟨collection, last, writes, paths, tree, run, List.any_eq_true.1 unnamed,
    (generate_with_unnamed_iff tree rfl filters run).1.2 fun d hd => ?_⟩
  simpa using List.all_eq_true.1 named d hd

/-- **An operation without a name can break a run.** Without it, the run succeeds; with it, the
internal shapes cannot be made, for want of a name, and no file is written. -/
theorem exists_run_broken_by_unnamed : ∃ collection last writes paths next,
    Collection.ofTree unnamedTree .here [] = (collection, none) ∧
    generate silent.recorded openContext ((), [])
      (collection.documents.map CollectedDocument.withoutUnnamed) = ((last, writes), .ok paths) ∧
    generate silent.recorded openContext ((), []) collection.documents =
      ((next, []), .error (.shapes .unnamedOperation)) := by
  have clash : firstClash openContext.settings [] (wanted openContext
      (Collection.ofTree unnamedTree .here []).1.documents) = none :=
    Option.isNone_iff_eq_none.1 (by decide +kernel)
  have shapes : openContext.shapes (scrubbedDocuments openContext.settings
      (openContext.hooks.runPre (Collection.ofTree unnamedTree .here []).1.documents)) =
        .error .unnamedOperation := by
    decide +kernel
  obtain ⟨collection, last, writes, paths, tree, run⟩ :=
    exists_run_withoutUnnamed openContext (by decide +kernel) (by decide +kernel)
  rw [tree] at clash shapes
  obtain ⟨next, fails⟩ := generate_of_error silent clash shapes ()
  exact ⟨collection, last, writes, paths, next, tree, run, fails⟩

end Run

end QueryTypes
