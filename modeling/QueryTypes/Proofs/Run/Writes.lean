import QueryTypes.Proofs.Run.Failures

/-!
# What any run writes

Nothing is known here of an output: whether a file can be written may depend on all that was
written before. Even so there are only three things that a run can have written
(`QueryTypes.Run.Writes`). It has written nothing, or it began with the internal shapes and went on
with the files of some of its documents, in order, or it succeeded and has written all files.
-/

namespace QueryTypes

namespace Run

variable {σ ε : Type}

/-- **What a run can have written**, next to what it answers. -/
inductive Writes (context : RunContext) (documents : List CollectedDocument) :
    List Written → Except (RunError ε) (List Path) → Prop where
  /-- Nothing. -/
  | nothing {e : RunError ε} : Writes context documents [] (.error e)
  /-- The internal shapes, and then the files of some documents. -/
  | part {text : String} {files : List Written} {e : RunError ε}
    (hshapes : internalShapes context documents = .ok text)
    (hfiles : (files.map Prod.fst).Sublist (artifactFiles context (wanted context documents))) :
    Writes context documents
      (finishedFile context context.settings.internalFile text :: files) (.error e)
  /-- All files. -/
  | all {text : String} {programs : List TypeScript.Program}
    (hshapes : internalShapes context documents = .ok text)
    (hprograms : (wanted context documents).map (artifactProgram (ε := ε) context) =
      programs.map .ok) :
    Writes context documents (finishedFiles context (wanted context documents) text programs)
      (.ok (artifactFiles context (wanted context documents)))

/-- What is written goes to the files of the run, in order. -/
theorem Writes.sublist {context : RunContext} {documents : List CollectedDocument}
    {writes : List Written} {result : Except (RunError ε) (List Path)}
    (h : Writes context documents writes result) :
    (writes.map Prod.fst).Sublist (context.settings.internalFile ::
      artifactFiles context (wanted context documents) ++ [context.settings.indexFile]) := by
  cases h with
  | nothing => exact List.nil_sublist _
  | part hshapes hfiles => exact (hfiles.trans (List.sublist_append_left ..)).cons_cons _
  | all hshapes hprograms => rw [map_fst_finishedFiles hprograms]

/-- The first file of a run holds the internal shapes. -/
theorem Writes.first {context : RunContext} {documents : List CollectedDocument} {file : Written}
    {files : List Written} {result : Except (RunError ε) (List Path)}
    (h : Writes context documents (file :: files) result) :
    ∃ text, internalShapes context documents = .ok text ∧
      file = finishedFile context context.settings.internalFile text := by
  cases h with
  | part hshapes _ => exact ⟨_, hshapes, rfl⟩
  | all hshapes _ => exact ⟨_, hshapes, rfl⟩

variable (output : Output σ ε) (context : RunContext)

/-! ### One step -/

/-- A file is written as it is finished, or it is not written. -/
theorem exists_writeFile (state : σ × List Written) (path : Path) (text : String) :
    (∃ next, writeFile output.recorded context state path text =
        ((next, state.2 ++ [finishedFile context path text]), .ok ())) ∨
      ∃ next cause, writeFile output.recorded context state path text =
        ((next, state.2), .error (.write path cause)) := by
  unfold writeFile Output.recorded
  dsimp only
  rcases output.write state.1 path ((postHooks context).runPost path.print text) with
    ⟨next, cause | done⟩
  · exact Or.inr ⟨next, cause, rfl⟩
  · exact Or.inl ⟨next, rfl⟩

/-- The first step writes the internal shapes, or nothing. -/
theorem exists_writeShapes (state : σ × List Written) (documents : List CollectedDocument) :
    (∃ next text, internalShapes context documents = .ok text ∧
        writeShapes output.recorded context state (context.hooks.runPre documents) =
          ((next, state.2 ++ [finishedFile context context.settings.internalFile text]),
            .ok ())) ∨
      ∃ next e, writeShapes output.recorded context state (context.hooks.runPre documents) =
        ((next, state.2), .error e) := by
  unfold writeShapes internalShapes
  dsimp only
  cases context.shapes (scrubbedDocuments context.settings (context.hooks.runPre documents)) with
  | error e => exact Or.inr ⟨_, _, rfl⟩
  | ok text =>
    rcases exists_writeFile output context (output.report state.1 _, state.2)
      context.settings.internalFile text with ⟨next, hnext⟩ | ⟨next, cause, hnext⟩
    · exact Or.inl ⟨next, text, rfl, hnext⟩
    · exact Or.inr ⟨next, _, hnext⟩

/-- A document's turn writes its file, or nothing. -/
theorem exists_writeArtifact (state : σ × List Written) (d : CollectedDocument) :
    (∃ next program, artifactProgram (ε := ε) context d = .ok program ∧
        writeArtifact output.recorded context state d =
          ((next, state.2 ++ [finishedArtifact context d program]),
            .ok (context.settings.artifactFile d.name))) ∨
      ∃ next e, writeArtifact output.recorded context state d = ((next, state.2), .error e) := by
  unfold writeArtifact
  cases artifactProgram (ε := ε) context d with
  | error e => exact Or.inr ⟨state.1, e, rfl⟩
  | ok program =>
    dsimp only
    rcases exists_writeFile output context state (context.settings.artifactFile d.name)
      (context.layout.renderProgram program) with ⟨next, hnext⟩ | ⟨next, cause, hnext⟩
    · rw [hnext]
      exact Or.inl ⟨_, program, rfl, rfl⟩
    · rw [hnext]
      exact Or.inr ⟨next, _, rfl⟩

/-- **The second step writes files of its documents, in order**, and all of them if none of its
results is a failure. -/
theorem exists_writeArtifacts (state : σ × List Written) (documents : List CollectedDocument) :
    ∃ next files results, writeArtifacts output.recorded context state documents =
        ((next, state.2 ++ files), results) ∧
      (files.map Prod.fst).Sublist (artifactFiles context documents) ∧
      ∀ paths, firstFailure results = .ok paths → paths = artifactFiles context documents ∧
        ∃ programs, documents.map (artifactProgram (ε := ε) context) = programs.map .ok ∧
          files = List.zipWith (finishedArtifact context) documents programs := by
  induction documents generalizing state with
  | nil =>
    refine ⟨state.1, [], [], by rw [List.append_nil]; rfl, List.nil_sublist _, ?_⟩
    rintro paths hpaths
    cases hpaths
    exact ⟨rfl, [], rfl, rfl⟩
  | cons d rest ih =>
    rw [writeArtifacts_cons]
    rcases exists_writeArtifact output context state d with
      ⟨next, program, hprogram, hnext⟩ | ⟨next, e, hnext⟩
    · obtain ⟨last, files, results, hlast, sublist, done⟩ :=
        ih (next, state.2 ++ [finishedArtifact context d program])
      refine ⟨last, finishedArtifact context d program :: files,
        .ok (context.settings.artifactFile d.name) :: results, ?_, sublist.cons_cons _,
        fun paths hpaths => ?_⟩
      · rw [hnext, hlast, List.append_assoc]
        rfl
      · dsimp only [firstFailure] at hpaths
        split at hpaths
        · cases hpaths
        next others hothers =>
          cases hpaths
          obtain ⟨rfl, programs, hprograms, rfl⟩ := done others hothers
          exact ⟨rfl, program :: programs, by rw [List.map_cons, hprogram, hprograms]; rfl, rfl⟩
    · obtain ⟨last, files, results, hlast, sublist, -⟩ := ih (next, state.2)
      refine ⟨last, files, .error e :: results, by rw [hnext, hlast], sublist.cons _,
        fun paths hpaths => by cases hpaths⟩

/-- The last step writes the file that gathers the others, or nothing. -/
theorem exists_writeIndex (state : σ × List Written) (paths : List Path) :
    (∃ next, writeIndex output.recorded context state paths = ((next, state.2 ++
        [finishedFile context context.settings.indexFile (indexText context paths)]),
          .ok paths)) ∨
      ∃ next e, writeIndex output.recorded context state paths =
        ((next, state.2), .error e) := by
  unfold writeIndex
  dsimp only
  rcases exists_writeFile output context state context.settings.indexFile
    (indexText context paths) with ⟨next, hnext⟩ | ⟨next, cause, hnext⟩
  · rw [hnext]
    exact Or.inl ⟨_, rfl⟩
  · rw [hnext]
    exact Or.inr ⟨next, _, rfl⟩

/-! ### The whole run -/

variable {output context}

/-- **A run has written one of the three.** -/
theorem writes_of_generate {state next : σ} {documents : List CollectedDocument}
    {writes : List Written} {result : Except (RunError ε) (List Path)}
    (h : generate output.recorded context (state, []) documents = ((next, writes), result)) :
    Writes context documents writes result := by
  cases hclash : firstClash context.settings [] (wanted context documents) with
  | some pair =>
    unfold generate at h
    dsimp only at h
    rw [show (context.hooks.runPre documents).filter _ = wanted context documents from rfl,
      hclash] at h
    cases h
    exact .nothing
  | none =>
    rw [generate_of_distinct _ (firstClash_eq_none_iff.1 hclash).1] at h
    rcases exists_writeShapes output context
      (output.recorded.report (state, []) (opening context documents)) documents with
      ⟨shaped, text, hshapes, hshaped⟩ | ⟨shaped, e, hshaped⟩
    · obtain ⟨turned, files, results, hturned, sublist, done⟩ := exists_writeArtifacts output
        context (shaped, [finishedFile context context.settings.internalFile text])
        (wanted context documents)
      rw [hshaped] at h
      dsimp only [Output.recorded] at h hturned
      rw [List.nil_append, hturned] at h
      cases hresults : firstFailure results with
      | error e =>
        rw [hresults] at h
        cases h
        exact .part hshapes sublist
      | ok paths =>
        obtain ⟨rfl, programs, hprograms, rfl⟩ := done paths hresults
        rw [hresults] at h
        dsimp only at h
        rcases exists_writeIndex output context (turned,
            finishedFile context context.settings.internalFile text ::
              List.zipWith (finishedArtifact context) (wanted context documents) programs)
          (artifactFiles context (wanted context documents)) with ⟨last, hlast⟩ | ⟨last, e, hlast⟩
        · cases h.symm.trans hlast
          exact .all hshapes hprograms
        · -- without the last file there is a part of the files only
          cases h.symm.trans hlast
          exact .part hshapes sublist
    · rw [hshaped] at h
      cases h
      exact .nothing

end Run

end QueryTypes
