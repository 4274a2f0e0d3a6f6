import QueryTypes.Proofs.Run.Collected

/-!
# Generated files fit together

Type definitions are made from documents as written, and the internal shapes from scrubbed
ones. They meet in names only, and these agree: whatever the type definitions of a document
import, the internal shapes declare and export (`QueryTypes.Run.exists_alias_of_imported`), and
where they import it from is the file of the internal shapes. The file that gathers all others
leads back to each of them (`QueryTypes.Run.files_fit_together`).
-/

namespace QueryTypes

open GraphQL (Definition Document)

namespace Run

open TypeScript (Program)

variable {σ ε : Type} {context : RunContext} {documents : List CollectedDocument}

/-! ### One document -/

/-- A document whose type definitions and shapes are made of the same names: it needs a store,
and the document that is shaped holds a definition of the same name and kind as the one found in
the document as written. -/
def IsAligned (d : CollectedDocument) : Prop :=
  d.generateStore = true ∧
    ∀ found, d.asWritten.document.find? d.name d.kind = .ok found →
      ∃ e ∈ d.document.document.definitions, found.Describes e

/-- The type definitions of a document are those of the definition found under its name. -/
theorem exists_found_of_artifactProgram {d : CollectedDocument} {program : Program}
    (h : (artifactProgram context d : Except (RunError ε) Program) = .ok program) :
    ∃ found, d.asWritten.document.find? d.name d.kind = .ok found ∧
      Artifact.ofDefinition context.schema d.name found (Path.specifier context.directory
        (context.settings.artifactFile d.name).parent context.settings.internalFile) =
          .ok program := by
  unfold artifactProgram at h
  split at h
  · cases h
  next found hfound =>
    dsimp only at h
    split at h
    · cases h
    next program' hprogram =>
      cases h
      exact ⟨found, hfound, hprogram⟩

/-- Only names of the grammar can be looked up in a parsed document. -/
theorem isName_of_artifactProgram {d : CollectedDocument} {program : Program}
    (parsed : ∃ text, Document.parse? text = some d.asWritten.document)
    (h : (artifactProgram context d : Except (RunError ε) Program) = .ok program) :
    GraphQL.Token.IsName d.name := by
  obtain ⟨text, htext⟩ := parsed
  obtain ⟨found, hfound, -⟩ := exists_found_of_artifactProgram h
  obtain ⟨hmem, hname⟩ := Document.mem_of_find? hfound
  have hparsed := GraphQL.Document.isParsed_of_parse? htext _ hmem
  cases found with
  | operation o => exact hparsed.name d.name hname
  | fragment f =>
    have same : f.name = d.name := Option.some.inj hname
    rw [← same]
    exact hparsed

/-- **What type definitions import, the internal shapes export.** -/
theorem exists_alias_of_imported (sharing : Sharing documents) {d : CollectedDocument}
    (hd : d ∈ documents) (aligned : IsAligned d) {masking : Bool} {scalars : ScalarTable}
    {internal : Program}
    (hinternal : Shape.program context.schema masking scalars
      (scrubbedDocuments context.settings documents) = .ok internal) {program : Program}
    (hprogram : (artifactProgram context d : Except (RunError ε) Program) = .ok program)
    {name : String} (hname : name ∈ program.importedNames) :
    ∃ a ∈ internal.aliases, a.name = name ∧ a.exported = true := by
  obtain ⟨found, hfound, hprogram⟩ := exists_found_of_artifactProgram hprogram
  obtain ⟨e, he, describes⟩ := aligned.2 found hfound
  obtain ⟨-, imported, -⟩ :=
    Artifact.imports_of_ofDefinition (Document.mem_of_find? hfound).2 hprogram
  obtain ⟨shapes, hshapes, -, rfl⟩ := Shape.exists_of_program hinternal
  have shaped : d.document.document.scrub context.settings.isInternal ∈
      scrubbedDocuments context.settings documents :=
    List.mem_map.2 ⟨d.document, document_mem_storeDocuments sharing hd aligned.1, rfl⟩
  have scrubbed : e.scrubbed context.settings.isInternal
      (d.document.document.withoutDirectives context.settings.isInternal).usedVariables ∈
      (d.document.document.scrub context.settings.isInternal).definitions := by
    rw [Document.definitions_scrub]
    exact List.mem_map.2 ⟨e, he, rfl⟩
  obtain ⟨own, hown, sub⟩ := Shape.exists_own_of_ofDocuments hshapes shaped scrubbed
  obtain ⟨names, exported⟩ := Shape.aliases_of_ofDefinition hown
  -- the definition was looked up as written: what is scrubbed from it takes no name away
  have mem : name ∈ own.aliases.map TypeScript.Alias.name := by
    rw [names, Definition.shapeNames_scrubbed, describes.shapeNames_eq]
    exact imported hname
  obtain ⟨a, ha, rfl⟩ := List.mem_map.1 mem
  refine ⟨a, ?_, rfl, exported a ha⟩
  rw [Shape.aliases_programOf]
  exact List.mem_cons_of_mem _ (List.mem_cons_of_mem _ (List.mem_append_right _ (sub ha)))

/-- A collected entry is made from the document that is shaped. -/
theorem isAligned_of_gathered {sources : List SharedDocument}
    (g : Collection.Gathered sources documents) {d : CollectedDocument} (hd : d ∈ documents) :
    IsAligned d := by
  obtain ⟨shared, -, he⟩ := g.exists_source hd
  obtain ⟨document, written, store, -⟩ := Collection.document_of_mem_entriesOf he
  refine ⟨store, fun found hfound => ?_⟩
  rw [written] at hfound
  rw [document]
  exact ⟨found.toDefinition, (Document.mem_of_find? hfound).1, found.describes_toDefinition⟩

/-- A run that gets past the internal shapes has their text. -/
theorem exists_shapes_of_writeShapes {output : Output σ ε} {state : σ}
    (h : (writeShapes output context state documents).2 = .ok ()) :
    ∃ text, context.shapes (scrubbedDocuments context.settings documents) = .ok text := by
  unfold writeShapes at h
  dsimp only at h
  split at h
  · cases h
  next text htext => exact ⟨text, htext⟩

/-! ### All documents -/

/-- **Generated files fit together.** Suppose that a run gets past the internal shapes. What the
type definitions of a document import is exported by the internal shapes; they refer to nothing
else but what they declare; and they import it from the file of the internal shapes, whose name
they give without its double suffix. If all documents have type definitions, the file that
gathers them leads to each of their files, in order. -/
theorem files_fit_together {internalStem indexStem : String}
    (orderly : context.settings.IsOrderly internalStem indexStem)
    (hs : context.shapes = builtInShapes context.settings context.schema context.layout)
    (sharing : Sharing (context.hooks.runPre documents))
    (parsed : ∀ d ∈ wanted context documents,
      ∃ text, Document.parse? text = some d.asWritten.document)
    (aligned : ∀ d ∈ wanted context documents, IsAligned d) {output : Output σ ε} {state : σ}
    (reached : (writeShapes output context state (context.hooks.runPre documents)).2 = .ok ()) :
    ∃ internal : Program,
      Shape.program context.schema context.settings.fragmentMasking
        (ScalarTable.withOverrides context.settings.scalars)
        (scrubbedDocuments context.settings (context.hooks.runPre documents)) = .ok internal ∧
      context.shapes (scrubbedDocuments context.settings (context.hooks.runPre documents)) =
        .ok (context.layout.renderProgram internal) ∧
      (∀ d ∈ wanted context documents, ∀ program : Program,
        (artifactProgram context d : Except (RunError ε) Program) = .ok program →
          (∀ name ∈ program.importedNames,
            ∃ a ∈ internal.aliases, a.name = name ∧ a.exported = true) ∧
          program.IsClosed ∧
          ∀ i ∈ program.imports, ∃ front,
            context.settings.internalFile.absolute context.directory =
              front ++ [context.settings.internalFileName] ∧
            Path.absolute context.directory
              ((context.settings.artifactFile d.name).parent.append i.source) =
              front ++ [internalStem]) ∧
      ((∀ d ∈ wanted context documents, ∃ program : Program,
          (artifactProgram context d : Except (RunError ε) Program) = .ok program) →
        ∃ sources, (manifestOf context.directory
            (artifactFiles context (wanted context documents))
            context.settings.indexFile).sources = sources ++ runtimeModules ∧
          List.Forall₂ (fun d source => ∃ front,
            (context.settings.artifactFile d.name).absolute context.directory =
              front ++ [d.name ++ ".d.ts"] ∧
            Path.absolute context.directory (context.settings.indexFile.parent.append source) =
              front ++ [d.name]) (wanted context documents) sources) := by
  obtain ⟨text, htext⟩ := exists_shapes_of_writeShapes reached
  have batch := htext
  rw [hs, builtInShapes_eq_ok_iff] at batch
  obtain ⟨internal, hinternal, rfl⟩ := batch
  refine ⟨internal, hinternal, htext, fun d hd program hprogram => ⟨fun name hname => ?_, ?_, ?_⟩,
    fun programs => ⟨_, rfl, ?_⟩⟩
  · exact exists_alias_of_imported sharing (List.mem_of_mem_filter hd) (aligned d hd) hinternal
      hprogram hname
  · obtain ⟨found, hfound, hmade⟩ := exists_found_of_artifactProgram hprogram
    exact (Artifact.imports_of_ofDefinition (Document.mem_of_find? hfound).2 hmade).2.2
  · intro i hi
    have name := isName_of_artifactProgram (parsed d hd) hprogram
    obtain ⟨found, hfound, hmade⟩ := exists_found_of_artifactProgram hprogram
    have source := (Artifact.imports_of_ofDefinition (Document.mem_of_find? hfound).2 hmade).1 i hi
    refine ⟨context.settings.artifactDirectory.absolute context.directory,
      orderly.absolute_internalFile context.directory, ?_⟩
    -- all documents have their files in one directory, so the way is the same from each
    rw [source, context.settings.parent_artifactFile name,
      orderly.absolute_import context.directory]
  · rw [artifactFiles, List.map_map, List.forall₂_map_right_iff, List.forall₂_same]
    intro d hd
    obtain ⟨program, hprogram⟩ := programs d hd
    have name := isName_of_artifactProgram (parsed d hd) hprogram
    exact ⟨context.settings.artifactDirectory.absolute context.directory,
      Settings.IsOrderly.absolute_artifactFile context.directory name,
      orderly.absolute_export context.directory name⟩

/-- A run on the documents of the tree, without filters. -/
def openContext : RunContext := { sampleContext with hooks := {} }

theorem isOrderly_sample : openContext.settings.IsOrderly "_internal" "index" :=
  (Settings.hasUsualNames_of_default {} _).isOrderly

theorem files_fit_together_sample : ∃ collection,
    Collection.ofTree sampleTree .here [] = (collection, none) ∧
    collection.documents.length = 2 ∧ ∃ internal : Program,
      Shape.program openContext.schema openContext.settings.fragmentMasking
        (ScalarTable.withOverrides openContext.settings.scalars)
        (scrubbedDocuments openContext.settings
          (openContext.hooks.runPre collection.documents)) = .ok internal ∧
      openContext.shapes (scrubbedDocuments openContext.settings
        (openContext.hooks.runPre collection.documents)) =
          .ok (openContext.layout.renderProgram internal) ∧
      (∀ d ∈ wanted openContext collection.documents, ∀ program : Program,
        (artifactProgram openContext d : Except (RunError Empty) Program) = .ok program →
          (∀ name ∈ program.importedNames,
            ∃ a ∈ internal.aliases, a.name = name ∧ a.exported = true) ∧
          program.IsClosed ∧
          ∀ i ∈ program.imports, ∃ front,
            openContext.settings.internalFile.absolute openContext.directory =
              front ++ [openContext.settings.internalFileName] ∧
            Path.absolute openContext.directory
              ((openContext.settings.artifactFile d.name).parent.append i.source) =
              front ++ ["_internal"]) := by
  have collected : (Collection.ofTree sampleTree .here []).2.isNone = true := by decide +kernel
  have two : (Collection.ofTree sampleTree .here []).1.documents.length = 2 := by decide +kernel
  have written : (writeShapes silent openContext () (openContext.hooks.runPre
      (Collection.ofTree sampleTree .here []).1.documents)).2.toOption = some () := by
    decide +kernel
  obtain ⟨⟨collection, failure⟩, tree⟩ : ∃ result, Collection.ofTree sampleTree .here [] = result :=
    ⟨_, rfl⟩
  rw [tree] at collected two written
  obtain rfl : failure = none := Option.isNone_iff_eq_none.1 collected
  obtain ⟨sources, g⟩ := Collection.exists_gathered_of_ofTree tree
  have reached : (writeShapes silent openContext ()
      (openContext.hooks.runPre collection.documents)).2 = .ok () := by
    revert written
    cases (writeShapes silent openContext () (openContext.hooks.runPre collection.documents)).2
    · intro written
      cases written
    · intro _
      rfl
  have mem : ∀ d ∈ wanted openContext collection.documents, d ∈ collection.documents :=
    fun d hd => (openContext.hooks.runPre_sublist _).subset (List.mem_of_mem_filter hd)
  have builtIn : openContext.shapes =
      builtInShapes openContext.settings openContext.schema openContext.layout := rfl
  have fit := files_fit_together isOrderly_sample builtIn
    (sharing_of_gathered g (openContext.hooks.runPre_sublist _).subset)
    (fun d hd => by
      obtain ⟨shared, hshared, he⟩ := g.exists_source (mem d hd)
      rw [(Collection.document_of_mem_entriesOf he).2.1]
      exact g.parsed shared hshared)
    (fun d hd => isAligned_of_gathered g (mem d hd)) reached
  obtain ⟨internal, hinternal, text, each, -⟩ := fit
  exact ⟨collection, tree, two, internal, hinternal, text, each⟩

end Run

end QueryTypes
