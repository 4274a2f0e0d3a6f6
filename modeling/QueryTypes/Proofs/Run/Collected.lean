import QueryTypes.Proofs.Artifact
import QueryTypes.Proofs.Collection
import QueryTypes.Proofs.Run.Failures
import QueryTypes.Proofs.Settings

/-!
# Runs on collected documents

A run on documents that were collected without a failure writes everything or nothing
(`QueryTypes.Run.generate_collected`). Only the internal shapes can fail, and they come first:
names that were collected are distinct, so no two files clash and no two shapes share a name;
every entry is found in its document; and a definition that has shapes finds the type it applies
to in the schema when its type definitions are made.
-/

namespace QueryTypes

open GraphQL (Definition Document)

namespace Run

variable {σ ε : Type} {sources : List SharedDocument} {documents kept : List CollectedDocument}
  {settings : Settings} {schema : Schema} {masking : Bool}

/-! ### Collected documents in a run -/

theorem sharing_of_gathered (g : Collection.Gathered sources documents) (hk : kept ⊆ documents) :
    Sharing kept := by
  intro c hc d hd same
  exact List.inj_on_of_nodup_map g.ids_nodup (g.document_mem (hk hc)) (g.document_mem (hk hd)) same

/-- **The shaped documents of a run define distinct names.** -/
theorem nodup_names_scrubbedDocuments (g : Collection.Gathered sources documents)
    (hk : kept ⊆ documents) (settings : Settings) :
    (((scrubbedDocuments settings kept).flatMap Document.definitions).filterMap
      Definition.name?).Nodup := by
  have chosen : storeDocuments [] kept ⊆ sources := by
    intro shared hs
    obtain ⟨d, hd, -, rfl⟩ := exists_of_mem_storeDocuments hs
    exact g.document_mem (hk hd)
  have names := g.nodup_names chosen (nodup_ids_storeDocuments [] kept).1
  rw [List.filterMap_flatMap] at names ⊢
  rw [scrubbedDocuments, List.flatMap_map]
  simpa only [Document.filterMap_name?_scrub] using names

/-- No two collected documents have one file. -/
theorem firstClash_of_gathered (g : Collection.Gathered sources documents)
    (hk : kept.Sublist documents) (settings : Settings) :
    firstClash settings [] kept = none := by
  refine firstClash_eq_none_iff.2 ⟨?_, List.disjoint_nil_right _⟩
  have names : (kept.map CollectedDocument.name).Nodup :=
    g.names_nodup.sublist (hk.map CollectedDocument.name)
  refine List.Nodup.map_on (fun c hc d hd same => ?_) (List.Nodup.of_map _ names)
  have name := settings.artifactFile_injective (g.isName (hk.subset hc)) (g.isName (hk.subset hd))
    same
  exact List.inj_on_of_nodup_map names hc hd name

/-- All collected documents get type definitions. -/
theorem wanted_of_gathered (g : Collection.Gathered sources documents) (context : RunContext) :
    wanted context documents = context.hooks.runPre documents := by
  refine List.filter_eq_self.2 fun d hd => ?_
  obtain ⟨shared, -, he⟩ :=
    g.exists_source ((context.hooks.runPre_sublist documents).subset hd)
  exact (Collection.document_of_mem_entriesOf he).2.2.2

/-- Every definition in the document of an entry is shaped along with the entry. -/
theorem exists_own_of_kept (g : Collection.Gathered sources documents) (hk : kept ⊆ documents)
    {shapes : Shape.Shapes}
    (h : Shape.ofDocuments schema masking (scrubbedDocuments settings kept) = .ok shapes)
    {d : CollectedDocument} (hd : d ∈ kept) {definition : Definition}
    (hmem : definition ∈ d.document.document.definitions) :
    ∃ own, Shape.ofDefinition
      ⟨schema, masking, (scrubbedDocuments settings kept).flatMap Document.fragments⟩
      (definition.scrubbed settings.isInternal
        (d.document.document.withoutDirectives settings.isInternal).usedVariables) = .ok own := by
  obtain ⟨shared, -, he⟩ := g.exists_source (hk hd)
  have store := (Collection.document_of_mem_entriesOf he).2.2.1
  have shaped : d.document.document.scrub settings.isInternal ∈ scrubbedDocuments settings kept :=
    List.mem_map.2 ⟨_, document_mem_storeDocuments (sharing_of_gathered g hk) hd store, rfl⟩
  have scrubbed : definition.scrubbed settings.isInternal
      (d.document.document.withoutDirectives settings.isInternal).usedVariables ∈
      (d.document.document.scrub settings.isInternal).definitions := by
    rw [Document.definitions_scrub]
    exact List.mem_map.2 ⟨definition, hmem, rfl⟩
  obtain ⟨own, hown, -⟩ := Shape.exists_own_of_ofDocuments h shaped scrubbed
  exact ⟨own, hown⟩

/-- **Shapes of the batch mean type definitions of every entry**: the definition is found in
the document as written, and the type it applies to was found when it was shaped. -/
theorem exists_artifactProgram (g : Collection.Gathered sources documents)
    (hk : kept ⊆ documents) {context : RunContext} {shapes : Shape.Shapes}
    (h : Shape.ofDocuments context.schema masking (scrubbedDocuments context.settings kept) =
      .ok shapes) {d : CollectedDocument} (hd : d ∈ kept) :
    ∃ program, (artifactProgram context d : Except (RunError ε) TypeScript.Program) =
      .ok program := by
  obtain ⟨shared, -, he⟩ := g.exists_source (hk hd)
  obtain ⟨document, written, -, -⟩ := Collection.document_of_mem_entriesOf he
  obtain ⟨found, hfound⟩ := Collection.exists_find?_of_mem_entriesOf he
  rw [← document] at hfound
  obtain ⟨own, hown⟩ := exists_own_of_kept g hk h hd (Document.mem_of_find? hfound).1
  obtain ⟨program, hprogram⟩ := Artifact.exists_program_of_ofDefinition found hown d.name
    (Path.specifier context.directory (context.settings.artifactFile d.name).parent
      context.settings.internalFile)
  refine ⟨program, ?_⟩
  rw [artifactProgram, written, ← document, hfound]
  dsimp only
  rw [hprogram]

/-- Results that are all there are the results of a list. -/
theorem exists_map_ok {α β γ : Type} {f : α → Except γ β} {xs : List α}
    (h : ∀ x ∈ xs, ∃ y, f x = .ok y) : ∃ ys : List β, xs.map f = ys.map .ok := by
  rcases exists_map_ok_or_first_error f xs with all | ⟨before, x, after, e, rfl, -, he⟩
  · exact all
  · obtain ⟨y, hy⟩ := h x (List.mem_append_right _ (List.mem_cons_self ..))
    rw [hy] at he
    cases he

/-! ### All or nothing -/

/-- **A run on collected documents writes everything or nothing.** Either the internal shapes
cannot be made, for another reason than two shapes of one name, and then no file is written. Or
the run writes the internal shapes, one file for each document that the filters keep, in order,
and the file that gathers those; and it returns the paths of the documents' files. -/
theorem generate_collected {tree : FileTree} {path : Path} {excluded : List Path}
    {collection : Collection} (hc : Collection.ofTree tree path excluded = (collection, none))
    {context : RunContext}
    (hs : context.shapes = builtInShapes context.settings context.schema context.layout)
    {output : Output σ ε} (hw : output.NeverFails) (state : σ)
    (hk : context.hooks.runPre collection.documents = kept) :
    (∃ next e, generate output.recorded context (state, []) collection.documents =
        ((next, []), .error (.shapes e)) ∧ ∀ name, e ≠ .duplicateShape name) ∨
    ∃ next text programs writes,
      context.shapes (scrubbedDocuments context.settings kept) = .ok text ∧
      kept.map (artifactProgram (ε := ε) context) = programs.map .ok ∧
      generate output.recorded context (state, []) collection.documents =
        ((next, writes), .ok (artifactFiles context kept)) ∧
      writes = finishedFiles context kept text programs ∧
      writes.map Prod.fst = context.settings.internalFile :: artifactFiles context kept ++
        [context.settings.indexFile] := by
  subst hk
  obtain ⟨sources, g⟩ := Collection.exists_gathered_of_ofTree hc
  have sublist := context.hooks.runPre_sublist collection.documents
  have all := wanted_of_gathered g context
  -- collected names are distinct, so no two documents have one file
  have clash : firstClash context.settings [] (wanted context collection.documents) = none := by
    rw [all]
    exact firstClash_of_gathered g sublist context.settings
  cases shaped : context.shapes (scrubbedDocuments context.settings
      (context.hooks.runPre collection.documents)) with
  | error e =>
    obtain ⟨next, hnext⟩ := generate_of_error output clash shaped state
    refine Or.inl ⟨next, e, hnext, ?_⟩
    rintro name rfl
    rw [hs, builtInShapes_eq_error_iff] at shaped
    exact Shape.program_ne_duplicateShape
      (nodup_names_scrubbedDocuments g sublist.subset context.settings) name shaped
  | ok text =>
    have batch := shaped
    rw [hs, builtInShapes_eq_ok_iff] at batch
    obtain ⟨program, hprogram, -⟩ := batch
    obtain ⟨shapes, hshapes, -⟩ := Shape.exists_of_program hprogram
    -- every name that type definitions look up was found when the batch was shaped
    obtain ⟨programs, hprograms⟩ := exists_map_ok fun d hd =>
      exists_artifactProgram (ε := ε) g sublist.subset hshapes hd
    have made : (wanted context collection.documents).map (artifactProgram (ε := ε) context) =
        programs.map .ok := by
      rw [all]
      exact hprograms
    obtain ⟨next, hnext⟩ := generate_of_programs hw clash shaped made state
    rw [all] at hnext
    exact Or.inr ⟨next, text, programs, _, rfl, hprograms, hnext, rfl,
      map_fst_finishedFiles hprograms text⟩

/-- A tree with a file that holds a query and a fragment. -/
def sampleTree : FileTree :=
  { entries := [((1, ["a.graphql"]),
      .file "query Q($id: ID) \x7b a(id: $id) ...F \x7d fragment F on Query \x7b b: a \x7d")]
    directory := [] }

/-- A schema with one field. -/
def sampleSchema : Schema :=
  { types := [⟨"Query", .object [] [("a", .named "ID")]⟩, ⟨"ID", .scalar⟩]
    roots := { query := some "Query" }
    names_nodup := by decide
    closed := by decide
    roots_closed := by decide }

/-- A run on the documents of the tree that keeps the fragment only. -/
def sampleContext : RunContext :=
  { settings := {}
    schema := sampleSchema
    layout := {}
    hooks := { pre := [fun d => d.kind = .fragment] }
    directory := []
    shapes := builtInShapes {} sampleSchema {} }

/-- An output that keeps nothing. -/
def silent : Output Unit Empty := ⟨fun _ _ _ => ((), .ok ()), fun _ _ => ()⟩

theorem generate_collected_sample : ∃ collection kept,
    Collection.ofTree sampleTree .here [] = (collection, none) ∧
    sampleContext.hooks.runPre collection.documents = kept ∧ kept.length = 1 ∧
    ((∃ next e, generate silent.recorded sampleContext ((), []) collection.documents =
        ((next, []), .error (.shapes e)) ∧ ∀ name, e ≠ .duplicateShape name) ∨
    ∃ next text programs writes,
      sampleContext.shapes (scrubbedDocuments sampleContext.settings kept) = .ok text ∧
      kept.map (artifactProgram (ε := Empty) sampleContext) = programs.map .ok ∧
      generate silent.recorded sampleContext ((), []) collection.documents =
        ((next, writes), .ok (artifactFiles sampleContext kept)) ∧
      writes = finishedFiles sampleContext kept text programs ∧
      writes.map Prod.fst = sampleContext.settings.internalFile ::
        artifactFiles sampleContext kept ++ [sampleContext.settings.indexFile]) := by
  have collected : (Collection.ofTree sampleTree .here []).2.isNone = true := by decide +kernel
  have kept : (sampleContext.hooks.runPre
      (Collection.ofTree sampleTree .here []).1.documents).length = 1 := by decide +kernel
  obtain ⟨⟨collection, failure⟩, tree⟩ : ∃ result, Collection.ofTree sampleTree .here [] = result :=
    ⟨_, rfl⟩
  rw [tree] at collected kept
  obtain rfl : failure = none := Option.isNone_iff_eq_none.1 collected
  exact ⟨collection, _, tree, rfl, kept,
    generate_collected tree rfl (fun _ _ _ => rfl) () rfl⟩

end Run

end QueryTypes
