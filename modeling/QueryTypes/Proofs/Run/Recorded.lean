import QueryTypes.Run

/-!
# What a run writes

To say which files a run writes, and in which order, an output is given a memory of the files
that it has written (`QueryTypes.Output.recorded`). The memory changes nothing about the run
(`QueryTypes.Run.generate_recorded`), it only shows what happens to the files.

A run in which nothing fails remembers the file of the internal shapes, one file a document, and the
file that gathers them (`QueryTypes.Run.finishedFiles`).
-/

namespace QueryTypes

variable {σ ε : Type}

/-- A written file: its path and its text. -/
abbrev Written := Path × String

namespace Output

/-- The output together with the files it has written, in order. -/
def recorded (output : Output σ ε) : Output (σ × List Written) ε where
  write state path text :=
    match output.write state.1 path text with
    | (next, .ok _) => ((next, state.2 ++ [(path, text)]), .ok ())
    | (next, .error cause) => ((next, state.2), .error cause)
  report state record := (output.report state.1 record, state.2)

/-- No write ever fails. -/
def NeverFails (output : Output σ ε) : Prop :=
  ∀ (state : σ) (path : Path) (text : String), (output.write state path text).2 = .ok ()

end Output

namespace Run

/-- A file as it is written, its text transformed by the hooks. -/
def finishedFile (context : RunContext) (path : Path) (text : String) : Written :=
  (path, (postHooks context).runPost path.print text)

/-- The file of a document's type definitions, as it is written. -/
def finishedArtifact (context : RunContext) (d : CollectedDocument)
    (program : TypeScript.Program) : Written :=
  finishedFile context (context.settings.artifactFile d.name) (context.layout.renderProgram program)

/-- The files of some documents' type definitions. -/
def artifactFiles (context : RunContext) (documents : List CollectedDocument) : List Path :=
  documents.map fun d => context.settings.artifactFile d.name

/-- All files of a run as they are written: the internal shapes, the type definitions of every
document, and the file that gathers those. -/
def finishedFiles (context : RunContext) (documents : List CollectedDocument) (shapes : String)
    (programs : List TypeScript.Program) : List Written :=
  finishedFile context context.settings.internalFile shapes ::
    List.zipWith (finishedArtifact context) documents programs ++
      [finishedFile context context.settings.indexFile
        (indexText context (artifactFiles context documents))]

/-- The documents of a run that get type definitions. -/
def wanted (context : RunContext) (documents : List CollectedDocument) :
    List CollectedDocument :=
  (context.hooks.runPre documents).filter fun d => d.generateArtifact

variable {output : Output σ ε} {context : RunContext}

/-- The paths of all files of a run. -/
theorem map_fst_finishedFiles {documents : List CollectedDocument}
    {programs : List TypeScript.Program}
    (h : documents.map (artifactProgram (ε := ε) context) = programs.map .ok) (text : String) :
    (finishedFiles context documents text programs).map Prod.fst =
      context.settings.internalFile :: artifactFiles context documents ++
        [context.settings.indexFile] := by
  have artifacts : (List.zipWith (finishedArtifact context) documents programs).map Prod.fst =
      artifactFiles context documents := by
    induction documents generalizing programs with
    | nil => rw [List.zipWith_nil_left]; rfl
    | cons d rest ih =>
      cases programs with
      | nil => cases h
      | cons program programs =>
        rw [List.zipWith_cons_cons, List.map_cons, ih (List.cons.inj h).2]
        rfl
  rw [finishedFiles, List.cons_append, List.map_cons, List.map_append, artifacts]
  rfl

/-! ### The memory changes nothing -/

/-- What is left of a result when the memory of its state is dropped. -/
def forget {α : Type} (result : (σ × List Written) × α) : σ × α := (result.1.1, result.2)

theorem writeFile_recorded (state : σ × List Written) (path : Path) (text : String) :
    forget (writeFile output.recorded context state path text) =
      writeFile output context state.1 path text := by
  unfold writeFile Output.recorded
  dsimp only
  rcases output.write state.1 path ((postHooks context).runPost path.print text) with
    ⟨next, cause | done⟩ <;> rfl

theorem writeShapes_recorded (state : σ × List Written) (documents : List CollectedDocument) :
    forget (writeShapes output.recorded context state documents) =
      writeShapes output context state.1 documents := by
  unfold writeShapes
  dsimp only
  split
  · rfl
  · exact writeFile_recorded ..

theorem writeArtifact_recorded (state : σ × List Written) (d : CollectedDocument) :
    forget (writeArtifact output.recorded context state d) =
      writeArtifact output context state.1 d := by
  unfold writeArtifact
  split
  · rfl
  next program _ =>
    dsimp only
    rw [← writeFile_recorded]
    rcases writeFile output.recorded context state (context.settings.artifactFile d.name)
      (context.layout.renderProgram program) with ⟨next, e | done⟩ <;> rfl

theorem writeArtifacts_cons (output : Output σ ε) (context : RunContext) (state : σ)
    (d : CollectedDocument) (rest : List CollectedDocument) :
    writeArtifacts output context state (d :: rest) =
      ((writeArtifacts output context (writeArtifact output context state d).1 rest).1,
        (writeArtifact output context state d).2 ::
          (writeArtifacts output context (writeArtifact output context state d).1 rest).2) := rfl

theorem writeArtifacts_recorded (state : σ × List Written) (documents : List CollectedDocument) :
    forget (writeArtifacts output.recorded context state documents) =
      writeArtifacts output context state.1 documents := by
  induction documents generalizing state with
  | nil => rfl
  | cons d rest ih =>
    rw [writeArtifacts_cons, writeArtifacts_cons, ← writeArtifact_recorded]
    exact congrArg (fun last : σ × List (Except (RunError ε) Path) =>
      (last.1, (writeArtifact output.recorded context state d).2 :: last.2)) (ih _)

theorem writeIndex_recorded (state : σ × List Written) (paths : List Path) :
    forget (writeIndex output.recorded context state paths) =
      writeIndex output context state.1 paths := by
  unfold writeIndex
  dsimp only
  rw [← writeFile_recorded]
  rcases writeFile output.recorded context state context.settings.indexFile
    (indexText context paths) with ⟨next, e | done⟩ <;> rfl

/-- **A run does not notice that its files are remembered.** -/
theorem generate_recorded (state : σ × List Written) (documents : List CollectedDocument) :
    forget (generate output.recorded context state documents) =
      generate output context state.1 documents := by
  unfold generate
  dsimp only
  split
  · rfl
  · rw [show output.report state.1 _ = (output.recorded.report state _).1 from rfl,
      ← writeShapes_recorded]
    rcases writeShapes output.recorded context (output.recorded.report state _) _ with
      ⟨shaped, e | done⟩
    · rfl
    · dsimp only [forget]
      rw [← writeArtifacts_recorded]
      dsimp only [forget]
      split
      · rfl
      · exact writeIndex_recorded ..

end Run

end QueryTypes
