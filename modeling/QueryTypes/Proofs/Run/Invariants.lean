import QueryTypes.Proofs.Run.Failures

/-!
# What a run keeps

All that a run does to its output is to report and to write. So what every report and every write
keeps is true after a whole run, however it ends (`QueryTypes.Run.Keeps.generate`). And if in all
states of some kind the files of a run can be written, and the states stay of that kind, then the
run succeeds (`QueryTypes.Run.generate_of_writable`).
-/

namespace QueryTypes

namespace Run

variable {σ ε : Type} {output : Output σ ε} {I : σ → Prop}

/-! ### What is true after a run -/

/-- **Reports and writes keep a property** of an output's state. -/
structure Keeps (output : Output σ ε) (I : σ → Prop) : Prop where
  /-- Reports keep it. -/
  report : ∀ {state : σ} (record : Log.Record), I state → I (output.report state record)
  /-- Writes keep it, whether they succeed or not. -/
  write : ∀ {state : σ} (path : Path) (text : String), I state →
    I (output.write state path text).1

namespace Keeps

variable (keeps : Keeps output I) (context : RunContext) {state : σ}

include keeps

theorem writeFile (path : Path) (text : String) (h : I state) :
    I (Run.writeFile output context state path text).1 := by
  have kept := keeps.write path ((postHooks context).runPost path.print text) h
  unfold Run.writeFile
  rcases hres : output.write state path ((postHooks context).runPost path.print text) with
    ⟨next, e | done⟩ <;> rwa [hres] at kept

theorem writeShapes (documents : List CollectedDocument) (h : I state) :
    I (Run.writeShapes output context state documents).1 := by
  unfold Run.writeShapes
  dsimp only
  split
  · exact keeps.report _ h
  · exact keeps.writeFile context _ _ (keeps.report _ h)

theorem writeArtifact (d : CollectedDocument) (h : I state) :
    I (Run.writeArtifact output context state d).1 := by
  unfold Run.writeArtifact
  split
  · exact h
  next program _ =>
    have kept := keeps.writeFile context (context.settings.artifactFile d.name)
      (context.layout.renderProgram program) h
    dsimp only
    split
    · next hres => rwa [hres] at kept
    · next hres =>
      rw [hres] at kept
      exact keeps.report _ kept

/-- The second step keeps what each of its turns keeps. -/
theorem writeArtifacts (documents : List CollectedDocument) (h : I state) :
    I (Run.writeArtifacts output context state documents).1 := by
  induction documents generalizing state with
  | nil => exact h
  | cons d rest ih => exact ih (keeps.writeArtifact context d h)

theorem writeIndex (paths : List Path) (h : I state) :
    I (Run.writeIndex output context state paths).1 := by
  have kept := keeps.writeFile context context.settings.indexFile (indexText context paths) h
  unfold Run.writeIndex
  dsimp only
  split
  · next hres => rwa [hres] at kept
  · next hres =>
    rw [hres] at kept
    exact keeps.report _ kept

/-- **A run keeps what reports and writes keep**, whether it succeeds or not. -/
theorem generate (documents : List CollectedDocument) (h : I state) :
    I (Run.generate output context state documents).1 := by
  unfold Run.generate
  dsimp only
  split
  · exact keeps.report _ h
  · have shaped := keeps.writeShapes context (context.hooks.runPre documents)
      (keeps.report (opening context documents) h)
    dsimp only [opening] at shaped
    split
    · next hres => rwa [hres] at shaped
    · next hres =>
      rw [hres] at shaped
      have turned := keeps.writeArtifacts context
        ((context.hooks.runPre documents).filter fun d => d.generateArtifact) shaped
      split
      · exact turned
      · exact keeps.writeIndex context _ turned

end Keeps

/-! ### Runs whose files can be written -/

/-- **In states of some kind a file can be written**, and the state is still of that kind. -/
def Writable (output : Output σ ε) (I : σ → Prop) (file : Written) : Prop :=
  ∀ state, I state → ∃ next, output.write state file.1 file.2 = (next, .ok ()) ∧ I next

variable {context : RunContext} {state : σ}

theorem writeFile_of_writable {path : Path} {text : String}
    (file : Writable output I (finishedFile context path text)) (h : I state) :
    ∃ next, writeFile output context state path text = (next, .ok ()) ∧ I next := by
  obtain ⟨next, written, hnext⟩ := file state h
  refine ⟨next, ?_, hnext⟩
  unfold writeFile
  rw [show (finishedFile context path text).2 =
    (postHooks context).runPost path.print text from rfl] at written
  rw [show output.write state path _ = (next, .ok ()) from written]

/-- The turns of documents whose files can be written all succeed. -/
theorem writeArtifacts_of_writable
    (reports : ∀ {state : σ} (record : Log.Record), I state → I (output.report state record))
    {documents : List CollectedDocument} {programs : List TypeScript.Program}
    (hp : documents.map (artifactProgram (ε := ε) context) = programs.map .ok)
    (files : ∀ file ∈ List.zipWith (finishedArtifact context) documents programs,
      Writable output I file) (h : I state) :
    ∃ next results, writeArtifacts output context state documents = (next, results) ∧
      firstFailure results = .ok (artifactFiles context documents) ∧ I next := by
  induction documents generalizing state programs with
  | nil => exact ⟨state, [], rfl, rfl, h⟩
  | cons d rest ih =>
    cases programs with
    | nil => cases hp
    | cons program programs =>
      obtain ⟨first, others⟩ := List.cons.inj hp
      rw [List.zipWith_cons_cons] at files
      obtain ⟨next, written, hnext⟩ := writeFile_of_writable
        (files _ (List.mem_cons_self ..)) h
      obtain ⟨last, results, hlast, paths, done⟩ := ih others
        (fun file hfile => files file (List.mem_cons_of_mem _ hfile)) (reports (report .debug
          ("Wrote " ++ (context.settings.artifactFile d.name).print)) hnext)
      have turn : writeArtifact output context state d = (output.report next (report .debug
          ("Wrote " ++ (context.settings.artifactFile d.name).print)),
            .ok (context.settings.artifactFile d.name)) := by
        unfold writeArtifact
        rw [first]
        dsimp only
        rw [written]
      refine ⟨last, .ok (context.settings.artifactFile d.name) :: results, ?_, ?_, done⟩
      · rw [writeArtifacts_cons, turn, hlast]
      · rw [firstFailure, paths]
        rfl

/-- **A run whose files can all be written succeeds.** -/
theorem generate_of_writable
    (reports : ∀ {state : σ} (record : Log.Record), I state → I (output.report state record))
    {documents : List CollectedDocument} {text : String} {programs : List TypeScript.Program}
    (distinct : (artifactFiles context (wanted context documents)).Nodup)
    (hs : internalShapes context documents = .ok text)
    (hp : (wanted context documents).map (artifactProgram (ε := ε) context) = programs.map .ok)
    (files : ∀ file ∈ finishedFiles context (wanted context documents) text programs,
      Writable output I file) (h : I state) :
    ∃ next, generate output context state documents =
      (next, .ok (artifactFiles context (wanted context documents))) ∧ I next := by
  have internal : Writable output I (finishedFile context context.settings.internalFile text) :=
    files _ (List.mem_append_left _ (List.mem_cons_self ..))
  have index : Writable output I (finishedFile context context.settings.indexFile
      (indexText context (artifactFiles context (wanted context documents)))) :=
    files _ (List.mem_append_right _ (List.mem_cons_self ..))
  obtain ⟨shaped, hshaped, ishaped⟩ :=
    writeFile_of_writable internal (reports (report .debug ("Generating internal shapes for " ++
      toString (scrubbedDocuments context.settings (context.hooks.runPre documents)).length ++
        " documents")) (reports (opening context documents) h))
  obtain ⟨turned, results, hturned, paths, iturned⟩ := writeArtifacts_of_writable reports hp
    (fun file hfile => files file (List.mem_append_left _ (List.mem_cons_of_mem _ hfile))) ishaped
  obtain ⟨last, hlast, ilast⟩ := writeFile_of_writable index iturned
  have first : writeShapes output context (output.report state (opening context documents))
      (context.hooks.runPre documents) = (shaped, .ok ()) := by
    unfold writeShapes
    dsimp only
    rw [show context.shapes _ = .ok text from hs]
    exact hshaped
  rw [generate_of_distinct _ distinct, first]
  dsimp only
  rw [hturned]
  dsimp only
  rw [paths]
  dsimp only
  unfold writeIndex
  dsimp only
  rw [hlast]
  exact ⟨_, rfl, reports _ ilast⟩

end Run

end QueryTypes
