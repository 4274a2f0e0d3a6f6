import QueryTypes.Artifact
import QueryTypes.Hook
import QueryTypes.Log
import QueryTypes.Path.Specifier
import QueryTypes.Settings.Basic
import QueryTypes.Shape.Batch

/-!
# A run

A run turns collected documents into files, in three steps. First the documents that need
a store are scrubbed, each shared document once, and their internal shapes are written as
one file. Then every document that needs type definitions gets its file, made from the
document as written. Last comes the file that gathers them all.

Two documents whose files would have one path stop the run before anything is written. A
failure in the first step stops it there. In the second step every document has its turn,
whatever happens to others; the run then fails with the first failure in document order,
and without the last file.

Where files go and reports are kept is up to the `QueryTypes.Output` that a run is given:
a state with an operation for each. How shapes are generated is a function handed in.
-/

namespace QueryTypes

/-- Where a run writes its files and reports. A file that cannot be written has a cause of
type `ε`. -/
structure Output (σ ε : Type) where
  /-- Writes a file. -/
  write : σ → Path → String → σ × Except ε Unit
  /-- Takes a report. -/
  report : σ → Log.Record → σ

/-- Why a run fails. -/
inductive RunError (ε : Type) where
  /-- Two documents would be written to one file. -/
  | clash (first second : CollectedDocument) (path : Path)
  /-- The internal shapes cannot be generated. -/
  | shapes (error : ShapeError)
  /-- A document does not hold what it was collected for. -/
  | lookup (error : LookupError)
  /-- A document does not fit the schema. -/
  | resolution (error : Artifact.ResolutionError)
  /-- A file cannot be written. -/
  | write (path : Path) (cause : ε)

/-- A document as a message names it. -/
def CollectedDocument.describe (d : CollectedDocument) : String :=
  d.kind.word ++ " " ++ Text.quotedName d.name

/-- What is said about a failure, given how to put the cause of a failed write. -/
def RunError.message {ε : Type} (describe : ε → String) : RunError ε → String
  | clash first second path =>
    first.describe ++ " and " ++ second.describe ++ " would both be written to " ++ path.print
  | shapes error => error.message
  | lookup error => error.message
  | resolution error => error.message
  | write path cause => path.writeFailure (describe cause)

/-- What a run works with. -/
structure RunContext where
  /-- The settings. -/
  settings : Settings
  /-- The schema of all documents. -/
  schema : Schema
  /-- How files are laid out. -/
  layout : TypeScript.Layout
  /-- The hooks around the run. -/
  hooks : Hooks
  /-- The working directory. -/
  directory : List String
  /-- The generator of internal shapes. -/
  shapes : List GraphQL.Document → Except ShapeError String

/-- The built-in generator of internal shapes. -/
def builtInShapes (settings : Settings) (schema : Schema) (layout : TypeScript.Layout)
    (documents : List GraphQL.Document) : Except ShapeError String :=
  (Shape.program schema settings.fragmentMasking
    (ScalarTable.withOverrides settings.scalars) documents).map layout.renderProgram

namespace Run

/-! ### Before anything is written -/

/-- The transformations of every text: those of the hooks, and the configured header. -/
def postHooks (context : RunContext) : Hooks :=
  match context.settings.header with
  | none => context.hooks
  | some header =>
    if header = "" then context.hooks else context.hooks.addPost (withHeader header)

/-- The first document whose file is also the file of a document before it. -/
def firstClash (settings : Settings) : List CollectedDocument → List CollectedDocument →
    Option (CollectedDocument × CollectedDocument)
  | _, [] => none
  | before, d :: rest =>
    match before.find? fun other =>
        settings.artifactFile other.name = settings.artifactFile d.name with
    | some other => some (other, d)
    | none => firstClash settings (before ++ [d]) rest

/-- The shared documents of some entries that need a store, each once, in the order of
their first such entry. -/
def storeDocuments : List Nat → List CollectedDocument → List SharedDocument
  | _, [] => []
  | seen, d :: rest =>
    if d.generateStore ∧ d.document.id ∉ seen then
      d.document :: storeDocuments (d.document.id :: seen) rest
    else storeDocuments seen rest

/-- The documents that the generator of shapes is given. -/
def scrubbedDocuments (settings : Settings) (documents : List CollectedDocument) :
    List GraphQL.Document :=
  (storeDocuments [] documents).map fun d => d.document.scrub settings.isInternal

/-! ### Texts of files -/

/-- The program of type definitions of a document. -/
def artifactProgram {ε : Type} (context : RunContext) (d : CollectedDocument) :
    Except (RunError ε) TypeScript.Program :=
  match d.asWritten.document.find? d.name d.kind with
  | .error e => .error (.lookup e)
  | .ok found =>
    let file := context.settings.artifactFile d.name
    let module := Path.specifier context.directory file.parent context.settings.internalFile
    match Artifact.ofDefinition context.schema d.name found module with
    | .error e => .error (.resolution e)
    | .ok program => .ok program

/-- The text of the file that gathers the others. -/
def indexText (context : RunContext) (paths : List Path) : String :=
  context.layout.renderManifest
    (manifestOf context.directory paths context.settings.indexFile)

/-! ### The steps -/

variable {σ ε : Type}

/-- Writes a file, its text transformed by the hooks. -/
def writeFile (output : Output σ ε) (context : RunContext) (state : σ) (path : Path)
    (text : String) : σ × Except (RunError ε) Unit :=
  match output.write state path ((postHooks context).runPost path.print text) with
  | (next, .ok _) => (next, .ok ())
  | (next, .error cause) => (next, .error (.write path cause))

/-- A report of a run. -/
def report (level : Log.Level) (message : String) : Log.Record :=
  Log.record level "orchestrator" message

/-- Generates the internal shapes and writes them. -/
def writeShapes (output : Output σ ε) (context : RunContext) (state : σ)
    (documents : List CollectedDocument) : σ × Except (RunError ε) Unit :=
  let scrubbed := scrubbedDocuments context.settings documents
  let state := output.report state (report .debug
    ("Generating internal shapes for " ++ toString scrubbed.length ++ " documents"))
  match context.shapes scrubbed with
  | .error e => (state, .error (.shapes e))
  | .ok text => writeFile output context state context.settings.internalFile text

/-- Writes the type definitions of a document. -/
def writeArtifact (output : Output σ ε) (context : RunContext) (state : σ)
    (d : CollectedDocument) : σ × Except (RunError ε) Path :=
  match artifactProgram context d with
  | .error e => (state, .error e)
  | .ok program =>
    let path := context.settings.artifactFile d.name
    match writeFile output context state path (context.layout.renderProgram program) with
    | (next, .error e) => (next, .error e)
    | (next, .ok _) =>
      (output.report next (report .debug ("Wrote " ++ path.print)), .ok path)

/-- Writes the type definitions of some documents; a failure does not keep the others from
their turn. -/
def writeArtifacts (output : Output σ ε) (context : RunContext) :
    σ → List CollectedDocument → σ × List (Except (RunError ε) Path)
  | state, [] => (state, [])
  | state, d :: rest =>
    let (next, result) := writeArtifact output context state d
    let (last, results) := writeArtifacts output context next rest
    (last, result :: results)

/-- All results, or the first failure among them. -/
def firstFailure {α : Type} : List (Except (RunError ε) α) → Except (RunError ε) (List α)
  | [] => .ok []
  | .error e :: _ => .error e
  | .ok a :: rest => match firstFailure rest with
    | .error e => .error e
    | .ok as => .ok (a :: as)

/-- Writes the file that gathers the others. -/
def writeIndex (output : Output σ ε) (context : RunContext) (state : σ) (paths : List Path) :
    σ × Except (RunError ε) (List Path) :=
  let path := context.settings.indexFile
  match writeFile output context state path (indexText context paths) with
  | (next, .error e) => (next, .error e)
  | (next, .ok _) =>
    (output.report next (report .info
      ("Wrote " ++ toString paths.length ++ " artifacts and " ++ path.print)), .ok paths)

/-- The whole run: the paths of the type definitions, in document order. -/
def generate (output : Output σ ε) (context : RunContext) (state : σ)
    (documents : List CollectedDocument) : σ × Except (RunError ε) (List Path) :=
  let kept := context.hooks.runPre documents
  let state := output.report state (report .info
    ("Generating types for " ++ toString kept.length ++ " documents"))
  let wanted := kept.filter fun d => d.generateArtifact
  match firstClash context.settings [] wanted with
  | some (first, second) =>
    (state, .error (.clash first second (context.settings.artifactFile second.name)))
  | none =>
    match writeShapes output context state kept with
    | (state, .error e) => (state, .error e)
    | (state, .ok _) =>
      let (state, results) := writeArtifacts output context state wanted
      match firstFailure results with
      | .error e => (state, .error e)
      | .ok paths => writeIndex output context state paths

end Run

end QueryTypes
