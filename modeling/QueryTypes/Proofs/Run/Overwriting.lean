import QueryTypes.Proofs.Run.Collected
import QueryTypes.Proofs.Run.Writes

/-!
# Where the files of a run are

A run overwrites a file if it writes two files in one place; what the place holds in the end was
written there last (`QueryTypes.Run.lastWritten`). Under the usual names of files and directories,
the type definitions of collected documents and the file that gathers them never come together, as
the documents have different names. The internal shapes can be overwritten, though: a document may
have the name that their file is made of. This is found out neither before the run nor later
(`QueryTypes.Run.exists_internalFile_overwritten`), and it is the only way in which files of a run
meet (`QueryTypes.Run.files_apart_iff`).
-/

namespace QueryTypes

open GraphQL.Token (IsName)

namespace Run

variable {σ ε : Type} {context : RunContext}

/-! ### What is left in a place -/

/-- The places that some paths lead to. -/
def places (context : RunContext) (paths : List Path) : List (List String) :=
  paths.map fun path => path.absolute context.directory

/-- **What a place holds** after some files were written. -/
def lastWritten (context : RunContext) (files : List Written) (place : List String) :
    Option String :=
  Keyed.lookup place (files.reverse.map fun file => (file.1.absolute context.directory, file.2))

theorem lastWritten_cons (file : Written) (files : List Written) (place : List String) :
    lastWritten context (file :: files) place = (lastWritten context files place).or
      (if file.1.absolute context.directory = place then some file.2 else none) := by
  rw [lastWritten, List.reverse_cons, List.map_append, Keyed.lookup_append]
  rfl

theorem lastWritten_eq_none {files : List Written} {place : List String}
    (h : place ∉ places context (files.map Prod.fst)) :
    lastWritten context files place = none := by
  refine Keyed.lookup_eq_none ?_
  rw [places, List.map_map] at h
  rw [List.map_map, List.map_reverse, List.mem_reverse]
  exact h

/-- **Files in different places keep their texts.** -/
theorem lastWritten_of_nodup {files : List Written}
    (h : (places context (files.map Prod.fst)).Nodup) {file : Written} (hf : file ∈ files) :
    lastWritten context files (file.1.absolute context.directory) = some file.2 := by
  induction files with
  | nil => cases hf
  | cons first rest ih =>
    obtain ⟨new, distinct⟩ := List.nodup_cons.1 h
    rw [lastWritten_cons]
    rcases List.mem_cons.1 hf with rfl | hf
    · rw [lastWritten_eq_none new, if_pos rfl]
      rfl
    · rw [ih distinct hf]
      rfl

/-- What is written later stays. -/
theorem lastWritten_of_nodup_tail {files : List Written}
    (h : (places context (files.tail.map Prod.fst)).Nodup) {file : Written}
    (hf : file ∈ files.tail) :
    lastWritten context files (file.1.absolute context.directory) = some file.2 := by
  cases files with
  | nil => cases hf
  | cons first rest =>
    have later : lastWritten context rest (file.1.absolute context.directory) = some file.2 :=
      lastWritten_of_nodup h hf
    rw [lastWritten_cons, later]
    rfl

/-! ### The files of a run -/

section Names

variable {documents : List CollectedDocument} (names : context.settings.HasUsualNames)
  (isName : ∀ d ∈ documents, IsName d.name)

include names isName

/-- Type definitions of documents with different names and the file that gathers them are in
different places. -/
theorem nodup_places_artifactFiles (distinct : (documents.map CollectedDocument.name).Nodup) :
    (places context (artifactFiles context documents ++ [context.settings.indexFile])).Nodup := by
  rw [places, List.map_append, List.nodup_append]
  refine ⟨?_, List.nodup_singleton _, ?_⟩
  · rw [artifactFiles, List.map_map]
    refine List.Nodup.map_on (fun c hc d hd same => ?_) (List.Nodup.of_map _ distinct)
    have name := Settings.IsOrderly.absolute_artifactFile_injective context.directory
      (isName c hc) (isName d hd) same
    exact List.inj_on_of_nodup_map distinct hc hd name
  · intro place hplace other ho
    obtain ⟨path, hpath, rfl⟩ := List.mem_map.1 hplace
    obtain ⟨d, hd, rfl⟩ := List.mem_map.1 hpath
    rw [List.mem_singleton.1 ho]
    exact names.absolute_ne_indexFile context.directory
      (Settings.IsOrderly.absolute_artifactFile context.directory (isName d hd))

/-- The internal shapes are where another file is exactly if a document has their name. -/
theorem internalFile_mem_places_iff :
    context.settings.internalFile.absolute context.directory ∈
        places context (artifactFiles context documents ++ [context.settings.indexFile]) ↔
      ∃ d ∈ documents, d.name = "_internal" := by
  have own := names.isOrderly.absolute_internalFile context.directory
  rw [places, List.map_append, List.mem_append, List.map_singleton, List.mem_singleton,
    or_iff_left (names.absolute_ne_indexFile context.directory own), artifactFiles, List.map_map,
    List.mem_map]
  refine exists_congr fun d => and_congr_right fun hd => ?_
  exact names.absolute_artifactFile_eq_iff context.directory (isName d hd)

/-- **All files are in different places** exactly if no document has the name that the file of the
internal shapes is made of. -/
theorem nodup_places_iff (distinct : (documents.map CollectedDocument.name).Nodup) :
    (places context (context.settings.internalFile :: artifactFiles context documents ++
      [context.settings.indexFile])).Nodup ↔ ∀ d ∈ documents, d.name ≠ "_internal" := by
  have others := nodup_places_artifactFiles names isName distinct
  have apart := not_congr (internalFile_mem_places_iff names isName)
  push Not at apart
  rw [List.cons_append, places, List.map_cons, List.nodup_cons]
  exact (and_iff_left others).trans apart

end Names

/-- **Files of a run meet in one way only**, if files and directories have their usual names and the
documents were collected without a failure. All files but the internal shapes are in places of their
own and keep their texts, however the run ends. If no document that the filters keep is named
`_internal`, this is so for the internal shapes as well. A run that succeeds has written all files,
and it has written no path twice exactly in this case. -/
theorem files_apart_iff {tree : FileTree} {path : Path} {excluded : List Path}
    {collection : Collection} (hc : Collection.ofTree tree path excluded = (collection, none))
    (names : context.settings.HasUsualNames) {output : Output σ ε} {state next : σ}
    {writes : List Written} {result : Except (RunError ε) (List Path)}
    (run : generate output.recorded context (state, []) collection.documents =
      ((next, writes), result)) :
    ((places context (writes.tail.map Prod.fst)).Nodup ∧ ∀ file ∈ writes.tail,
        lastWritten context writes (file.1.absolute context.directory) = some file.2) ∧
    ((∀ d ∈ context.hooks.runPre collection.documents, d.name ≠ "_internal") →
      (places context (writes.map Prod.fst)).Nodup ∧ ∀ file ∈ writes,
        lastWritten context writes (file.1.absolute context.directory) = some file.2) ∧
    ∀ paths, result = .ok paths → ∃ text programs,
      internalShapes context collection.documents = .ok text ∧
      (context.hooks.runPre collection.documents).map (artifactProgram (ε := ε) context) =
        programs.map .ok ∧
      writes = finishedFiles context (context.hooks.runPre collection.documents) text programs ∧
      ((writes.map Prod.fst).Nodup ↔
        ∀ d ∈ context.hooks.runPre collection.documents, d.name ≠ "_internal") := by
  obtain ⟨sources, g⟩ := Collection.exists_gathered_of_ofTree hc
  have kept := context.hooks.runPre_sublist collection.documents
  have isName : ∀ d ∈ context.hooks.runPre collection.documents, IsName d.name :=
    fun d hd => g.isName (kept.subset hd)
  have distinct : ((context.hooks.runPre collection.documents).map CollectedDocument.name).Nodup :=
    g.names_nodup.sublist (kept.map CollectedDocument.name)
  have wrote := writes_of_generate run
  have planned := wrote.sublist
  rw [wanted_of_gathered g context] at planned
  -- what is written is a part of what is planned, in the same order
  have later : (places context (writes.tail.map Prod.fst)).Nodup := by
    rw [List.map_tail]
    exact (nodup_places_artifactFiles names isName distinct).sublist (planned.tail.map _)
  refine ⟨⟨later, fun file hf => lastWritten_of_nodup_tail later hf⟩, fun none => ?_,
    fun paths hpaths => ?_⟩
  · have apart : (places context (writes.map Prod.fst)).Nodup :=
      ((nodup_places_iff names isName distinct).2 none).sublist (planned.map _)
    exact ⟨apart, fun file hf => lastWritten_of_nodup apart hf⟩
  · subst hpaths
    cases wrote with
    | @all text programs hshapes hprograms =>
      rw [wanted_of_gathered g context] at hprograms
      refine ⟨text, programs, hshapes, hprograms, by rw [wanted_of_gathered g context], ?_⟩
      rw [wanted_of_gathered g context, map_fst_finishedFiles hprograms]
      constructor
      · rintro apart d hd name
        -- the file of the document is that of the shapes
        have file : context.settings.artifactFile d.name = context.settings.internalFile := by
          rw [name, names.internalFile_eq]
        refine (List.nodup_cons.1 apart).1 (List.mem_append_left _ ?_)
        exact List.mem_map.2 ⟨d, hd, file⟩
      · intro none
        exact List.Nodup.of_map _ ((nodup_places_iff names isName distinct).2 none)

/-! ### Two runs -/

/-- A run on the documents of a tree, if they are collected without a failure and it succeeds. -/
theorem exists_run (tree : FileTree) (context : RunContext)
    (collected : (Collection.ofTree tree .here []).2.isNone = true)
    (succeeds : (generate silent.recorded context ((), [])
      (Collection.ofTree tree .here []).1.documents).2.isOk = true) :
    ∃ collection next writes paths, Collection.ofTree tree .here [] = (collection, none) ∧
      generate silent.recorded context ((), []) collection.documents =
        ((next, writes), .ok paths) := by
  rcases htree : Collection.ofTree tree .here [] with ⟨collection, failure⟩
  rw [htree] at collected succeeds
  obtain rfl : failure = none := Option.isNone_iff_eq_none.1 collected
  rcases hrun : generate silent.recorded context ((), []) collection.documents with
    ⟨⟨next, writes⟩, e | paths⟩
  · rw [hrun] at succeeds
    cases succeeds
  · exact ⟨collection, next, writes, paths, rfl, hrun⟩

/-- The files of the query and of the fragment are in places of their own. -/
theorem files_apart_iff_sample : ∃ collection next writes paths,
    Collection.ofTree sampleTree .here [] = (collection, none) ∧
    sampleContext.settings.HasUsualNames ∧
    generate silent.recorded sampleContext ((), []) collection.documents =
      ((next, writes), .ok paths) ∧
    (writes.map Prod.fst).Nodup ∧ ∀ file ∈ writes, lastWritten sampleContext writes
      (file.1.absolute sampleContext.directory) = some file.2 := by
  have none : ((sampleContext.hooks.runPre (Collection.ofTree sampleTree .here []).1.documents).all
      fun d => d.name ≠ "_internal") = true := by decide +kernel
  obtain ⟨collection, next, writes, paths, tree, run⟩ :=
    exists_run sampleTree sampleContext (by decide +kernel) (by decide +kernel)
  rw [tree] at none
  have names : sampleContext.settings.HasUsualNames := Settings.hasUsualNames_of_default {} _
  have apart := (files_apart_iff tree names run).2.1 fun d hd => by
    simpa using List.all_eq_true.1 none d hd
  exact ⟨collection, next, writes, paths, tree, names, run, List.Nodup.of_map _ apart.1, apart.2⟩

/-- A tree with a file that holds a query with the name of the file of internal shapes. -/
def internalTree : FileTree :=
  { entries := [((1, ["a.graphql"]), .file "query _internal \x7b a \x7d")]
    directory := [] }

/-- A run on the documents of that tree, without filters. -/
def internalContext : RunContext := { sampleContext with hooks := {} }

/-- **The internal shapes can be overwritten.** The run succeeds and has written one path twice, and
the shapes are not what is left there. -/
theorem exists_internalFile_overwritten : ∃ collection next writes paths text,
    Collection.ofTree internalTree .here [] = (collection, none) ∧
    internalContext.settings.HasUsualNames ∧
    generate silent.recorded internalContext ((), []) collection.documents =
      ((next, writes), .ok paths) ∧
    ¬ (writes.map Prod.fst).Nodup ∧
    internalShapes internalContext collection.documents = .ok text ∧
    lastWritten internalContext writes
      (internalContext.settings.internalFile.absolute internalContext.directory) ≠
        some (finishedFile internalContext internalContext.settings.internalFile text).2 := by
  have twice : ¬ ((generate silent.recorded internalContext ((), [])
      (Collection.ofTree internalTree .here []).1.documents).1.2.map Prod.fst).Nodup := by
    decide +kernel
  have changed : lastWritten internalContext (generate silent.recorded internalContext ((), [])
      (Collection.ofTree internalTree .here []).1.documents).1.2
      (internalContext.settings.internalFile.absolute internalContext.directory) ≠
        (generate silent.recorded internalContext ((), [])
          (Collection.ofTree internalTree .here []).1.documents).1.2.head?.map Prod.snd := by
    decide +kernel
  obtain ⟨collection, next, writes, paths, tree, run⟩ :=
    exists_run internalTree internalContext (by decide +kernel) (by decide +kernel)
  rw [tree, run] at twice changed
  cases writes with
  | nil => exact absurd List.nodup_nil twice
  | cons file files =>
    obtain ⟨text, hshapes, rfl⟩ := (writes_of_generate run).first
    exact ⟨collection, next, _, paths, text, tree, Settings.hasUsualNames_of_default {} _, run,
      twice, hshapes, changed⟩

end Run

end QueryTypes
