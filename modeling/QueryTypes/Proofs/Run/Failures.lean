import QueryTypes.Proofs.Run.Documents
import QueryTypes.Proofs.Run.Recorded

/-!
# Runs in which something fails

Whether a file can be written may depend on its path (`QueryTypes.Output.FailsAt`). A run then ends
in one of six ways (`QueryTypes.Run.Ends`), and each says what was written by then and what the run
answers. Nothing is written if two documents have one file, if there are no internal shapes, or if
their file cannot be written. After that every document has its turn (`QueryTypes.Run.turn`),
whatever happens to others; the file that gathers the others is written if all turns succeed, and
otherwise the run answers with the first failure in document order.

The six ways are those in which a run ends, and no others (`QueryTypes.Run.generate_iff_ends`). If
no write fails, only the internal shapes and the documents themselves decide
(`QueryTypes.Run.generate_of_programs`).
-/

namespace QueryTypes

variable {σ ε : Type}

/-- Whether a file can be written depends on its path, and so does the cause if it cannot. -/
def Output.FailsAt (output : Output σ ε) (fails : Path → Option ε) : Prop :=
  ∀ (state : σ) (path : Path) (text : String), (output.write state path text).2 =
    match fails path with
    | none => .ok ()
    | some cause => .error cause

theorem Output.NeverFails.failsAt {output : Output σ ε} (h : output.NeverFails) :
    output.FailsAt fun _ => none := h

namespace Run

/-! ### The ways in which a run ends -/

/-- **The turn of a document**: its file as it is written, or why there is none. It depends on no
other document. -/
def turn (context : RunContext) (fails : Path → Option ε) (d : CollectedDocument) :
    Except (RunError ε) Written :=
  match artifactProgram context d with
  | .error e => .error e
  | .ok program => match fails (context.settings.artifactFile d.name) with
    | some cause => .error (.write (context.settings.artifactFile d.name) cause)
    | none => .ok (finishedArtifact context d program)

/-- The internal shapes of a run. -/
def internalShapes (context : RunContext) (documents : List CollectedDocument) :
    Except ShapeError String :=
  context.shapes (scrubbedDocuments context.settings (context.hooks.runPre documents))

/-- **A run gets past its internal shapes**: no two documents have one file, there are internal
shapes, and they are written. -/
structure GetsPastShapes (context : RunContext) (fails : Path → Option ε)
    (documents : List CollectedDocument) (text : String) : Prop where
  /-- No two documents have one file. -/
  distinct : (artifactFiles context (wanted context documents)).Nodup
  /-- There are internal shapes. -/
  shapes : internalShapes context documents = .ok text
  /-- Their file can be written. -/
  written : fails context.settings.internalFile = none

/-- **How a run ends**: what it has written by then, and what it answers. -/
inductive Ends (context : RunContext) (fails : Path → Option ε)
    (documents : List CollectedDocument) :
    List Written → Except (RunError ε) (List Path) → Prop where
  /-- Two documents have one file. The first document whose file is that of one before it is named,
  and that one. -/
  | clash {before after : List CollectedDocument} {first second : CollectedDocument}
    (hwanted : wanted context documents = before ++ second :: after)
    (distinct : (artifactFiles context before).Nodup) (hfirst : first ∈ before)
    (same : context.settings.artifactFile first.name =
      context.settings.artifactFile second.name) :
    Ends context fails documents []
      (.error (.clash first second (context.settings.artifactFile second.name)))
  /-- There are no internal shapes. -/
  | noShapes {e : ShapeError} (distinct : (artifactFiles context (wanted context documents)).Nodup)
    (hshapes : internalShapes context documents = .error e) :
    Ends context fails documents [] (.error (.shapes e))
  /-- The internal shapes cannot be written. -/
  | noInternalFile {text : String} {cause : ε}
    (distinct : (artifactFiles context (wanted context documents)).Nodup)
    (hshapes : internalShapes context documents = .ok text)
    (hfails : fails context.settings.internalFile = some cause) :
    Ends context fails documents [] (.error (.write context.settings.internalFile cause))
  /-- The turn of a document fails, and none before it does. The files of all others whose turns
  succeed are written. -/
  | noArtifact {text : String} {before after : List CollectedDocument} {d : CollectedDocument}
    {e : RunError ε} (past : GetsPastShapes context fails documents text)
    (hwanted : wanted context documents = before ++ d :: after)
    (hbefore : ∀ b ∈ before, ∃ file, turn context fails b = .ok file)
    (hd : turn context fails d = .error e) :
    Ends context fails documents
      (finishedFile context context.settings.internalFile text ::
        (wanted context documents).filterMap fun d => (turn context fails d).toOption)
      (.error e)
  /-- All turns succeed, and the file that gathers the others cannot be written. -/
  | noIndex {text : String} {files : List Written} {cause : ε}
    (past : GetsPastShapes context fails documents text)
    (hfiles : (wanted context documents).map (turn context fails) = files.map .ok)
    (hfails : fails context.settings.indexFile = some cause) :
    Ends context fails documents
      (finishedFile context context.settings.internalFile text :: files)
      (.error (.write context.settings.indexFile cause))
  /-- All turns succeed, and the file that gathers the others is written last. -/
  | complete {text : String} {files : List Written}
    (past : GetsPastShapes context fails documents text)
    (hfiles : (wanted context documents).map (turn context fails) = files.map .ok)
    (hindex : fails context.settings.indexFile = none) :
    Ends context fails documents
      (finishedFile context context.settings.internalFile text :: files ++
        [finishedFile context context.settings.indexFile
          (indexText context (artifactFiles context (wanted context documents)))])
      (.ok (artifactFiles context (wanted context documents)))

variable {output : Output σ ε} {context : RunContext} {fails : Path → Option ε}
  {documents : List CollectedDocument}

/-! ### One step -/

theorem writeFile_of_failsAt (hw : output.FailsAt fails) (context : RunContext)
    (state : σ × List Written) (path : Path) (text : String) :
    ∃ next, writeFile output.recorded context state path text =
      match fails path with
      | none => ((next, state.2 ++ [finishedFile context path text]), .ok ())
      | some cause => ((next, state.2), .error (.write path cause)) := by
  have done := hw state.1 path ((postHooks context).runPost path.print text)
  unfold writeFile Output.recorded
  dsimp only
  rcases hres : output.write state.1 path ((postHooks context).runPost path.print text) with
    ⟨next, result⟩
  rw [hres] at done
  dsimp only at done
  rw [done]
  exact ⟨next, by cases fails path <;> rfl⟩

/-- The first step writes the internal shapes, or nothing. -/
theorem writeShapes_of_failsAt (hw : output.FailsAt fails) (context : RunContext)
    (documents : List CollectedDocument) (state : σ × List Written) :
    ∃ next, writeShapes output.recorded context state (context.hooks.runPre documents) =
      match internalShapes context documents with
      | .error e => ((next, state.2), .error (.shapes e))
      | .ok text => match fails context.settings.internalFile with
        | none =>
          ((next, state.2 ++ [finishedFile context context.settings.internalFile text]), .ok ())
        | some cause =>
          ((next, state.2), .error (.write context.settings.internalFile cause)) := by
  unfold writeShapes internalShapes
  dsimp only
  cases context.shapes (scrubbedDocuments context.settings (context.hooks.runPre documents)) with
  | error e => exact ⟨_, rfl⟩
  | ok text => exact writeFile_of_failsAt hw context (output.report state.1 _, state.2) _ text

/-- A document's turn adds its file, or nothing. -/
theorem writeArtifact_of_failsAt (hw : output.FailsAt fails) (context : RunContext)
    (state : σ × List Written) (d : CollectedDocument) :
    ∃ next, writeArtifact output.recorded context state d =
      ((next, state.2 ++ (turn context fails d).toOption.toList),
        (turn context fails d).map fun _ => context.settings.artifactFile d.name) := by
  unfold writeArtifact turn
  cases artifactProgram context d with
  | error e => exact ⟨state.1, by simp [Except.toOption, Except.map]⟩
  | ok program =>
    obtain ⟨next, hnext⟩ := writeFile_of_failsAt hw context state
      (context.settings.artifactFile d.name) (context.layout.renderProgram program)
    dsimp only
    rw [hnext]
    cases fails (context.settings.artifactFile d.name) with
    | none => exact ⟨_, rfl⟩
    | some cause => exact ⟨next, by simp [Except.toOption, Except.map]⟩

/-- **The second step gives every document its turn**, whatever happens to others. -/
theorem writeArtifacts_of_failsAt (hw : output.FailsAt fails) (context : RunContext)
    (state : σ × List Written) (documents : List CollectedDocument) :
    ∃ next, writeArtifacts output.recorded context state documents =
      ((next, state.2 ++ documents.filterMap fun d => (turn context fails d).toOption),
        documents.map fun d =>
          (turn context fails d).map fun _ => context.settings.artifactFile d.name) := by
  induction documents generalizing state with
  | nil => exact ⟨state.1, by rw [List.filterMap_nil, List.append_nil]; rfl⟩
  | cons d rest ih =>
    obtain ⟨next, hnext⟩ := writeArtifact_of_failsAt hw context state d
    obtain ⟨last, hlast⟩ := ih (next, state.2 ++ (turn context fails d).toOption.toList)
    refine ⟨last, ?_⟩
    rw [writeArtifacts_cons, hnext, hlast, List.append_assoc, List.filterMap_cons]
    cases (turn context fails d).toOption <;> rfl

theorem writeIndex_of_failsAt (hw : output.FailsAt fails) (context : RunContext)
    (state : σ × List Written) (paths : List Path) :
    ∃ next, writeIndex output.recorded context state paths =
      match fails context.settings.indexFile with
      | none => ((next, state.2 ++
          [finishedFile context context.settings.indexFile (indexText context paths)]), .ok paths)
      | some cause => ((next, state.2), .error (.write context.settings.indexFile cause)) := by
  obtain ⟨next, hnext⟩ := writeFile_of_failsAt hw context state context.settings.indexFile
    (indexText context paths)
  unfold writeIndex
  dsimp only
  rw [hnext]
  cases fails context.settings.indexFile with
  | none => exact ⟨_, rfl⟩
  | some cause => exact ⟨next, rfl⟩

/-! ### The first failure, and the first clash -/

/-- Among results of which the first to fail is known, that failure is met. -/
theorem firstFailure_append {α : Type} {before after : List (Except (RunError ε) α)}
    {e : RunError ε} (h : ∀ r ∈ before, ∃ a, r = .ok a) :
    firstFailure (before ++ .error e :: after) = .error e := by
  induction before with
  | nil => rfl
  | cons r rest ih =>
    obtain ⟨a, rfl⟩ := h r (List.mem_cons_self ..)
    rw [List.cons_append, firstFailure, ih fun r hr => h r (List.mem_cons_of_mem _ hr)]

/-- Either all of some results are there, or one of them is the first to fail. -/
theorem exists_map_ok_or_first_error {α β γ : Type} (f : α → Except γ β) (xs : List α) :
    (∃ ys : List β, xs.map f = ys.map .ok) ∨
      ∃ before x after e, xs = before ++ x :: after ∧ (∀ b ∈ before, ∃ y, f b = .ok y) ∧
        f x = .error e := by
  induction xs with
  | nil => exact Or.inl ⟨[], rfl⟩
  | cons x rest ih =>
    cases hx : f x with
    | error e => exact Or.inr ⟨[], x, rest, e, rfl, (fun b hb => nomatch hb), hx⟩
    | ok y =>
      rcases ih with ⟨ys, hys⟩ | ⟨before, z, after, e, rfl, hbefore, hz⟩
      · exact Or.inl ⟨y :: ys, by rw [List.map_cons, List.map_cons, hx, hys]⟩
      · refine Or.inr ⟨x :: before, z, after, e, rfl, fun b hb => ?_, hz⟩
        rcases List.mem_cons.1 hb with rfl | hb
        · exact ⟨y, hx⟩
        · exact hbefore b hb

/-- **The clash that is found** is that of the first document whose file is the file of one before
it, and of that one. -/
theorem firstClash_eq_some_iff {settings : Settings} {earlier documents : List CollectedDocument}
    {first second : CollectedDocument}
    (h : (earlier.map fun d => settings.artifactFile d.name).Nodup) :
    firstClash settings earlier documents = some (first, second) ↔
      ∃ before after, documents = before ++ second :: after ∧
        ((earlier ++ before).map fun d => settings.artifactFile d.name).Nodup ∧
        first ∈ earlier ++ before ∧
        settings.artifactFile first.name = settings.artifactFile second.name := by
  induction documents generalizing earlier with
  | nil => simp [firstClash]
  | cons d rest ih =>
    rw [firstClash]
    split
    · next other hother =>
      have same := List.find?_some hother
      rw [decide_eq_true_eq] at same
      have mem := List.mem_of_find?_eq_some hother
      constructor
      · intro hfound
        obtain ⟨rfl, rfl⟩ := Prod.mk.inj (Option.some.inj hfound)
        exact ⟨[], rest, rfl, by rwa [List.append_nil], by rwa [List.append_nil], same⟩
      · rintro ⟨before, after, hsplit, distinct, hfirst, hsame⟩
        cases before with
        | nil =>
          obtain ⟨rfl, rfl⟩ := List.cons.inj hsplit
          rw [List.append_nil] at hfirst
          rw [List.inj_on_of_nodup_map h mem hfirst (same.trans hsame.symm)]
        | cons b before =>
          -- the document itself has a file that was there before
          obtain ⟨rfl, -⟩ := List.cons.inj hsplit
          rw [List.map_append, List.nodup_append] at distinct
          exact absurd same (distinct.2.2 _ (List.mem_map_of_mem mem) _
            (List.mem_map_of_mem (List.mem_cons_self ..)))
    · next hnone =>
      have new : ∀ other ∈ earlier,
          settings.artifactFile other.name ≠ settings.artifactFile d.name := fun other ho same =>
        List.find?_eq_none.1 hnone other ho (decide_eq_true same)
      have distinctNext : ((earlier ++ [d]).map fun d => settings.artifactFile d.name).Nodup := by
        rw [List.map_append, List.nodup_append]
        refine ⟨h, List.nodup_singleton _, fun path hpath other ho => ?_⟩
        obtain ⟨e, he, rfl⟩ := List.mem_map.1 hpath
        rw [List.mem_singleton.1 ho]
        exact new e he
      rw [ih distinctNext]
      constructor
      · rintro ⟨before, after, rfl, distinct, hfirst, same⟩
        rw [List.append_assoc] at distinct hfirst
        exact ⟨d :: before, after, rfl, distinct, hfirst, same⟩
      · rintro ⟨before, after, hsplit, distinct, hfirst, same⟩
        cases before with
        | nil =>
          obtain ⟨rfl, rfl⟩ := List.cons.inj hsplit
          rw [List.append_nil] at hfirst
          exact absurd same (new first hfirst)
        | cons b before =>
          obtain ⟨rfl, rfl⟩ := List.cons.inj hsplit
          exact ⟨before, after, rfl, by rwa [List.append_assoc], by rwa [List.append_assoc], same⟩

/-! ### The whole run -/

/-- The clash that is found among all documents. -/
theorem firstClash_nil_eq_some_iff {settings : Settings} {documents : List CollectedDocument}
    {first second : CollectedDocument} :
    firstClash settings [] documents = some (first, second) ↔
      ∃ before after, documents = before ++ second :: after ∧
        (before.map fun d => settings.artifactFile d.name).Nodup ∧ first ∈ before ∧
        settings.artifactFile first.name = settings.artifactFile second.name := by
  have none : (([] : List CollectedDocument).map fun d => settings.artifactFile d.name).Nodup :=
    List.nodup_nil
  simpa only [List.nil_append] using firstClash_eq_some_iff none

theorem firstClash_of_distinct (h : (artifactFiles context (wanted context documents)).Nodup) :
    firstClash context.settings [] (wanted context documents) = none :=
  firstClash_eq_none_iff.2 ⟨h, List.disjoint_nil_right _⟩

/-- The report with which a run begins. -/
def opening (context : RunContext) (documents : List CollectedDocument) : Log.Record :=
  report .info ("Generating types for " ++ toString (context.hooks.runPre documents).length ++
    " documents")

/-- The steps of a run on documents of which no two have one file. -/
theorem generate_of_distinct (output : Output σ ε)
    (h : (artifactFiles context (wanted context documents)).Nodup) (state : σ) :
    generate output context state documents =
      match writeShapes output context (output.report state (opening context documents))
        (context.hooks.runPre documents) with
      | (state, .error e) => (state, .error e)
      | (state, .ok _) => match writeArtifacts output context state (wanted context documents) with
        | (state, results) => match firstFailure results with
          | .error e => (state, .error e)
          | .ok paths => writeIndex output context state paths := by
  have clash := firstClash_of_distinct h
  unfold generate opening
  dsimp only
  rewrite [show (context.hooks.runPre documents).filter _ = wanted context documents from rfl,
    clash]
  rfl

/-- A run in which a clash is found writes nothing. -/
theorem generate_of_firstClash (output : Output σ ε) {first second : CollectedDocument}
    (clash : firstClash context.settings [] (wanted context documents) = some (first, second))
    (state : σ) :
    ∃ next, generate output.recorded context (state, []) documents = ((next, []),
      .error (.clash first second (context.settings.artifactFile second.name))) := by
  unfold generate
  dsimp only
  rw [show (context.hooks.runPre documents).filter _ = wanted context documents from rfl, clash]
  exact ⟨_, rfl⟩

/-- What a run writes and answers once its internal shapes are written: all documents have their
turns, and if no turn fails, the file that gathers the others is written. -/
def afterShapes (context : RunContext) (fails : Path → Option ε)
    (documents : List CollectedDocument) : List Written × Except (RunError ε) (List Path) :=
  let files := (wanted context documents).filterMap fun d => (turn context fails d).toOption
  let index := context.settings.indexFile
  match firstFailure ((wanted context documents).map fun d =>
      (turn context fails d).map fun _ => context.settings.artifactFile d.name) with
  | .error e => (files, .error e)
  | .ok paths => match fails index with
    | some cause => (files, .error (.write index cause))
    | none => (files ++ [finishedFile context index (indexText context paths)], .ok paths)

/-- A run that gets past its internal shapes writes them and does what is left to do. -/
theorem generate_of_getsPastShapes (hw : output.FailsAt fails) {text : String}
    (past : GetsPastShapes context fails documents text) (state : σ) :
    ∃ next, generate output.recorded context (state, []) documents =
      ((next, finishedFile context context.settings.internalFile text ::
        (afterShapes context fails documents).1), (afterShapes context fails documents).2) := by
  obtain ⟨shaped, hshaped⟩ := writeShapes_of_failsAt hw context documents
    (output.recorded.report (state, []) (opening context documents))
  rw [past.shapes, past.written] at hshaped
  obtain ⟨last, hlast⟩ := writeArtifacts_of_failsAt hw context
    (shaped, [finishedFile context context.settings.internalFile text])
    (wanted context documents)
  rw [generate_of_distinct _ past.distinct, hshaped]
  unfold afterShapes
  dsimp only [Output.recorded] at hlast ⊢
  rw [List.nil_append, hlast]
  dsimp only
  cases firstFailure ((wanted context documents).map fun d =>
      (turn context fails d).map fun _ => context.settings.artifactFile d.name) with
  | error e => exact ⟨last, rfl⟩
  | ok paths =>
    obtain ⟨next, hnext⟩ := writeIndex_of_failsAt hw context (last, _) paths
    refine ⟨next, hnext.trans ?_⟩
    cases fails context.settings.indexFile <;> rfl

/-- Turns that all succeed write their files, and have the paths of these as their results. -/
theorem turns_eq {documents : List CollectedDocument} {files : List Written}
    (h : documents.map (turn context fails) = files.map .ok) :
    (documents.filterMap fun d => (turn context fails d).toOption) = files ∧
      firstFailure (documents.map fun d =>
        (turn context fails d).map fun _ => context.settings.artifactFile d.name) =
          .ok (artifactFiles context documents) := by
  induction documents generalizing files with
  | nil =>
    cases files with
    | nil => exact ⟨rfl, rfl⟩
    | cons file files => cases h
  | cons d rest ih =>
    cases files with
    | nil => cases h
    | cons file files =>
      obtain ⟨first, others⟩ := List.cons.inj h
      obtain ⟨written, paths⟩ := ih others
      rw [List.filterMap_cons, List.map_cons, first, written]
      refine ⟨rfl, ?_⟩
      rw [show (Except.ok file : Except (RunError ε) Written).map _ = .ok _ from rfl, firstFailure,
        paths]
      rfl

/-- What a run ends with is what it does. -/
theorem exists_generate_of_ends (hw : output.FailsAt fails) {writes : List Written}
    {result : Except (RunError ε) (List Path)} (h : Ends context fails documents writes result)
    (state : σ) :
    ∃ next, generate output.recorded context (state, []) documents = ((next, writes), result) := by
  cases h with
  | @clash before after first second hwanted distinct hfirst same =>
    have clash : firstClash context.settings [] (wanted context documents) =
        some (first, second) :=
      firstClash_nil_eq_some_iff.2 ⟨before, after, hwanted, distinct, hfirst, same⟩
    exact generate_of_firstClash output clash state
  | noShapes distinct hshapes =>
    obtain ⟨shaped, hshaped⟩ := writeShapes_of_failsAt hw context documents
      (output.recorded.report (state, []) (opening context documents))
    rw [hshapes] at hshaped
    rw [generate_of_distinct _ distinct, hshaped]
    exact ⟨shaped, rfl⟩
  | noInternalFile distinct hshapes hfails =>
    obtain ⟨shaped, hshaped⟩ := writeShapes_of_failsAt hw context documents
      (output.recorded.report (state, []) (opening context documents))
    rw [hshapes, hfails] at hshaped
    rw [generate_of_distinct _ distinct, hshaped]
    exact ⟨shaped, rfl⟩
  | @noArtifact text before after d e past hwanted hbefore hd =>
    have failure : firstFailure ((wanted context documents).map fun d =>
        (turn context fails d).map fun _ => context.settings.artifactFile d.name) = .error e := by
      rw [hwanted, List.map_append, List.map_cons, hd]
      refine firstFailure_append fun r hr => ?_
      obtain ⟨b, hb, rfl⟩ := List.mem_map.1 hr
      obtain ⟨file, hfile⟩ := hbefore b hb
      exact ⟨_, by rw [hfile]; rfl⟩
    have left := generate_of_getsPastShapes hw past state
    rwa [afterShapes, failure] at left
  | noIndex past hfiles hfails =>
    obtain ⟨written, paths⟩ := turns_eq hfiles
    have left := generate_of_getsPastShapes hw past state
    rwa [afterShapes, paths, written, hfails] at left
  | complete past hfiles hindex =>
    obtain ⟨written, paths⟩ := turns_eq hfiles
    have left := generate_of_getsPastShapes hw past state
    rwa [afterShapes, paths, written, hindex] at left

/-- **Every run ends in one of the six ways.** -/
theorem exists_ends (context : RunContext) (fails : Path → Option ε)
    (documents : List CollectedDocument) :
    ∃ writes result, Ends context fails documents writes result := by
  cases hclash : firstClash context.settings [] (wanted context documents) with
  | some pair =>
    obtain ⟨first, second⟩ := pair
    obtain ⟨before, after, hwanted, distinct, hfirst, same⟩ :=
      firstClash_nil_eq_some_iff.1 hclash
    exact ⟨_, _, .clash hwanted distinct hfirst same⟩
  | none =>
    have distinct : (artifactFiles context (wanted context documents)).Nodup :=
      (firstClash_eq_none_iff.1 hclash).1
    cases hshapes : internalShapes context documents with
    | error e => exact ⟨_, _, .noShapes distinct hshapes⟩
    | ok text =>
      cases hinternal : fails context.settings.internalFile with
      | some cause => exact ⟨_, _, .noInternalFile distinct hshapes hinternal⟩
      | none =>
        have past : GetsPastShapes context fails documents text := ⟨distinct, hshapes, hinternal⟩
        rcases exists_map_ok_or_first_error (turn context fails) (wanted context documents) with
          ⟨files, hfiles⟩ | ⟨before, d, after, e, hwanted, hbefore, hd⟩
        · cases hindex : fails context.settings.indexFile with
          | some cause => exact ⟨_, _, .noIndex past hfiles hindex⟩
          | none => exact ⟨_, _, .complete past hfiles hindex⟩
        · exact ⟨_, _, .noArtifact past hwanted hbefore hd⟩

/-- The turn of a document depends on the settings, the schema and what is done to every text, and
neither on filters nor on internal shapes. -/
theorem turn_congr {other : RunContext} (hsettings : other.settings = context.settings)
    (hschema : other.schema = context.schema) (hlayout : other.layout = context.layout)
    (hdirectory : other.directory = context.directory)
    (hpost : other.hooks.post = context.hooks.post) (fails : Path → Option ε)
    (d : CollectedDocument) : turn other fails d = turn context fails d := by
  obtain ⟨settings, schema, layout, hooks, directory, shapes⟩ := context
  obtain ⟨settings', schema', layout', hooks', directory', shapes'⟩ := other
  dsimp only at hsettings hschema hlayout hdirectory hpost
  subst hsettings hschema hlayout hdirectory
  have post : ∀ path text, (postHooks ⟨settings', schema', layout', hooks', directory',
      shapes'⟩).runPost path text =
        (postHooks ⟨settings', schema', layout', hooks, directory', shapes⟩).runPost path text := by
    intro path text
    unfold postHooks Hooks.runPost Hooks.addPost
    dsimp only
    split
    · rw [hpost]
    · split <;> simp only [hpost]
  unfold turn finishedArtifact finishedFile
  simp only [post]
  rfl

/-- A run without internal shapes writes nothing. -/
theorem generate_of_error (output : Output σ ε)
    (clash : firstClash context.settings [] (wanted context documents) = none) {e : ShapeError}
    (hs : context.shapes (scrubbedDocuments context.settings
      (context.hooks.runPre documents)) = .error e) (state : σ) :
    ∃ next, generate output.recorded context (state, []) documents =
      ((next, []), .error (.shapes e)) := by
  rw [generate_of_distinct _ (firstClash_eq_none_iff.1 clash).1]
  unfold writeShapes
  dsimp only
  rw [hs]
  exact ⟨_, rfl⟩

/-- Programs of type definitions are files as long as no write fails. -/
theorem map_turn_of_programs {documents : List CollectedDocument}
    {programs : List TypeScript.Program}
    (hp : documents.map (artifactProgram (ε := ε) context) = programs.map .ok) :
    documents.map (turn (ε := ε) context fun _ => none) =
      (List.zipWith (finishedArtifact context) documents programs).map .ok := by
  induction documents generalizing programs with
  | nil => rfl
  | cons d rest ih =>
    cases programs with
    | nil => cases hp
    | cons program programs =>
      obtain ⟨first, others⟩ := List.cons.inj hp
      rw [List.map_cons, ih others, turn, first, List.zipWith_cons_cons, List.map_cons]

/-- **A run in which nothing fails writes** the internal shapes, the type definitions of every
document that gets some, in order, and the file that gathers them. -/
theorem generate_of_programs (hw : output.NeverFails)
    (clash : firstClash context.settings [] (wanted context documents) = none) {text : String}
    (hs : context.shapes (scrubbedDocuments context.settings
      (context.hooks.runPre documents)) = .ok text) {programs : List TypeScript.Program}
    (hp : (wanted context documents).map (artifactProgram (ε := ε) context) =
      programs.map .ok) (state : σ) :
    ∃ next, generate output.recorded context (state, []) documents =
      ((next, finishedFiles context (wanted context documents) text programs),
        .ok (artifactFiles context (wanted context documents))) :=
  exists_generate_of_ends hw.failsAt
    (.complete ⟨(firstClash_eq_none_iff.1 clash).1, hs, rfl⟩ (map_turn_of_programs hp) rfl) state

/-! ### A run with faults -/

/-- An output that refuses to write some files and keeps nothing. -/
def refusing (fails : Path → Option ε) : Output Unit ε where
  write _ path _ := ((), match fails path with
    | none => .ok ()
    | some cause => .error cause)
  report _ _ := ()

theorem failsAt_refusing (fails : Path → Option ε) : (refusing fails).FailsAt fails :=
  fun _ _ _ => rfl

/-- A run that filters nothing, with shapes of its own. -/
def faultyContext : RunContext where
  settings := {}
  schema :=
    { types := [⟨"Query", .object [] [("a", .named "Query")]⟩]
      roots := { query := some "Query" }
      names_nodup := by decide
      closed := by decide
      roots_closed := by decide }
  layout := {}
  hooks := {}
  directory := []
  shapes _ := .ok "shapes"

/-- A shared document with two fragments. -/
def faultyShared : SharedDocument :=
  ⟨0, ⟨[.fragment ⟨none, "F", "Query", [], []⟩, .fragment ⟨none, "G", "Query", [], []⟩]⟩⟩

/-- An entry of that document. -/
def faultyEntry (name : String) : CollectedDocument :=
  { name := name, kind := .fragment, document := faultyShared }

/-- One file cannot be written. -/
def faults (path : Path) : Option String :=
  if path.name = "G.d.ts" then some "full" else none

end Run

end QueryTypes
