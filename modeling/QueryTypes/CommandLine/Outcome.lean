import QueryTypes.Collection
import QueryTypes.CommandLine.Command
import QueryTypes.Generator
import QueryTypes.GraphQL.Printer
import QueryTypes.Schema.OfFiles
import QueryTypes.Settings.Reading

/-!
# Outcomes of commands

What a command prints, what it reports, how it ends and which files there are then. A
command runs on a file tree. It ends well, or fails with something said about it, or was not
understood in the first place. A few failures say nothing; they cut the command short.
-/

namespace QueryTypes

namespace CommandLine

/-! ### Failures -/

/-- Why a command fails. -/
inductive Failure where
  /-- There are no settings. -/
  | settings (error : SettingsError)
  /-- There is no schema. -/
  | schema (error : SchemaFileError)
  /-- The documents cannot be collected. -/
  | documents (error : CollectionError)
  /-- The directory of layouts cannot be looked at. -/
  | layout (obstacle : FileTree.Obstacle)
  /-- The run fails. -/
  | run (error : RunError FileTree.Obstacle)
  /-- A file does not hold a document. -/
  | document (file : String)
  /-- A path cannot be looked at. -/
  | path (obstacle : FileTree.Obstacle)

/-- The words for causes that this library does not word itself. -/
structure Causes where
  /-- Why a text cannot be read. -/
  text : String
  /-- Why a file cannot be written. -/
  obstacle : FileTree.Obstacle → String

/-- What is said about a failure, if anything is. -/
def Failure.message? (causes : Causes) : Failure → Option String
  | settings (.configuration error) => some (error.message causes.text)
  | settings _ => none
  | schema (.unreachable _ _) | schema (.notJson _ .tooManyDigits)
  | schema (.introspection _ .missingMember) | schema (.introspection _ .notAnObject) => none
  | schema error => some (error.message causes.text)
  | documents (.unreachable _ _) => none
  | documents error => some (error.message causes.text)
  | layout _ => none
  | run (.shapes (.fieldOfUnknownType _ _)) | run (.shapes (.fragmentCycle _ _))
  | run (.shapes (.unreadableEnum _)) | run (.write _ .nullCharacter) => none
  | run error => some (error.message causes.obstacle)
  | document file => some ("Error parsing " ++ file ++ ": " ++ causes.text)
  | path _ => none

/-! ### Outcomes -/

/-- How a command ends. -/
inductive Ending where
  /-- All is done. -/
  | done
  /-- Something went wrong. -/
  | failed (failure : Failure)
  /-- The command line makes no sense. -/
  | misused (error : UsageError)

/-- What a command leaves behind. -/
structure Outcome where
  /-- How it ended. -/
  ending : Ending
  /-- The lines it printed. -/
  lines : List String := []
  /-- What it reported. -/
  log : List Log.Record := []
  /-- Which reports are shown. -/
  display : Log.Display := .plain
  /-- The files as they are then. -/
  tree : FileTree

namespace Outcome

/-- The number that stands for the ending of a command. -/
def exitCode (o : Outcome) : Nat :=
  match o.ending with
  | .done => 0
  | .failed _ => 1
  | .misused _ => 2

/-- What is printed. -/
def output (o : Outcome) : String := (o.lines.map (· ++ "\n")).foldl (· ++ ·) ""

/-- What is said besides: the reports that are shown, and then what went wrong. -/
def complaints (causes : Causes) (o : Outcome) : String :=
  let shown := o.log.map fun r => o.display.show r.level r.message
  let last := match o.ending with
    | .done => none
    | .failed failure => failure.message? causes
    | .misused error => some error.message
  let said := match last with
    | none => ""
    | some message => "Error: " ++ message ++ "\n"
  shown.foldl (· ++ ·) "" ++ said

/-- Goes on to fail. -/
def fail (o : Outcome) (failure : Failure) : Outcome := { o with ending := .failed failure }

/-- Prints some lines more. -/
def print (o : Outcome) (lines : List String) : Outcome := { o with lines := o.lines ++ lines }

/-- Reports some records more. -/
def report (o : Outcome) (log : List Log.Record) : Outcome := { o with log := o.log ++ log }

end Outcome

/-! ### Settings given on the command line -/

/-- Values that are given, each with its name. -/
def givenValues (values : List (String × Option Yaml.Value)) : List (String × Yaml.Value) :=
  values.filterMap fun (name, value) => value.map fun v => (name, v)

/-- The settings that a command line gives itself. -/
def Generation.values (given : Generation) : List (String × Yaml.Value) :=
  let directory (text : Option String) : Option Yaml.Value :=
    (text.filter (· ≠ "")).map .text
  givenValues [("output_dir", directory given.output),
    ("template_dir", directory given.templateDirectory),
    ("fragment_masking", given.fragmentMasking.map .bool)]

namespace Command

/-- The file of settings of a command: the one that is given, or the one found in the
working directory. -/
def settingsFile (tree : FileTree) (given : Option String) :
    Except SettingsError (Option Path) :=
  match given with
  | some text => .ok (some (Path.ofString text))
  | none => match tree.findSettings? ⟨.root, tree.directory⟩ with
    | .ok found => .ok found
    | .error obstacle => .error (.unreachable obstacle)

/-- The settings of a command. -/
def settings (tree : FileTree) (file : Option String) (given : List (String × Yaml.Value)) :
    Except SettingsError Settings := do
  Settings.load tree (← settingsFile tree file) given

/-- A path as the place it stands for. -/
def resolved (tree : FileTree) (path : Path) : String :=
  (Path.mk .root (path.absolute tree.directory)).print

/-! ### Generating -/

/-- Generates type definitions for collected documents. -/
def generateFor (settings : Settings) (schema : Schema) (documents : List CollectedDocument)
    (o : Outcome) : Outcome :=
  match Generator.run { settings := settings, schema := schema } o.tree documents with
  | .error obstacle => o.fail (.layout obstacle)
  | .ok (disk, result) =>
    let o := { o with tree := disk.tree }.report disk.log
    match result with
    | .error error => o.fail (.run error)
    | .ok paths => o.print ["Done! Generated " ++ toString paths.length ++ " artifacts in " ++
        settings.outputDirectory.print]

/-- Generates type definitions. -/
def runGenerate (tree : FileTree) (given : Generation) : Outcome :=
  let o : Outcome := { ending := .done, display := .configured given.verbose, tree := tree }
  let schemaPath := Path.ofString given.schema
  let documentsPath := Path.ofString given.documents
  let ifVerbose (lines : List String) : List String := if given.verbose then lines else []
  match settings tree given.config given.values with
  | .error error => o.fail (.settings error)
  | .ok settings =>
    let o := o.print (ifVerbose
      ["Schema: " ++ resolved tree schemaPath, "Documents: " ++ resolved tree documentsPath])
    match if given.verbose then FileTree.obstacleIn? settings.outputDirectory else none with
    | some .nullCharacter => o.fail (.path .nullCharacter)
    | _ =>
      let o := o.print (ifVerbose ["Output: " ++ resolved tree settings.outputDirectory])
      let o := o.print ["Loading schema..."]
      match Schema.ofTree tree schemaPath with
      | .error error => o.fail (.schema error)
      | .ok schema =>
        let o := o.print ["Collecting documents..."]
        let (collection, failure) := Collection.ofTree tree documentsPath [schemaPath]
        let o := o.report collection.log
        match failure with
        | some error => o.fail (.documents error)
        | none =>
          let documents := collection.documents
          let operations := documents.countP fun d => d.kind = .operation
          let o := o.print (ifVerbose ["  Operations: " ++ toString operations,
            "  Fragments: " ++ toString (documents.length - operations)])
          generateFor settings schema documents (o.print ["Generating types..."])

/-! ### Scrubbing -/

/-- Prints a document without internal directives and unused variables. -/
def runScrub (tree : FileTree) (given : Scrubbing) : Outcome :=
  let o : Outcome := { ending := .done, tree := tree }
  let directives := if given.directives.isEmpty then none
    else some (Yaml.Value.list (given.directives.map .text))
  match settings tree given.config (givenValues [("internal_directives", directives)]) with
  | .error error => o.fail (.settings error)
  | .ok settings =>
    match (tree.read? (Path.ofString given.document)).bind GraphQL.Document.parse? with
    | none => o.fail (.document given.document)
    | some document => o.print [(document.scrub settings.isInternal).print]

/-! ### Commands -/

/-- How the tool is used. -/
def usage : List String :=
  ["Usage: gql-tsgen generate -s SCHEMA -d DOCUMENTS [-o OUTPUT] [-c CONFIG]",
   "           [--template-dir DIRECTORY] [--fragment-masking | --no-fragment-masking] [-v]",
   "       gql-tsgen scrub [--directive NAME]... [-c CONFIG] DOCUMENT"]

/-- The version of the tool. -/
def versionText : String := "gql-tsgen, version 0.1.0"

/-- Runs a command on a file tree. -/
def run (tree : FileTree) : Command → Outcome
  | generate given => runGenerate tree given
  | scrub given => runScrub tree given
  | help => { ending := .done, lines := usage, tree := tree }
  | version => { ending := .done, lines := [versionText], tree := tree }

/-- How a command line ends that is no command. A path that no system can look at is not a
matter of usage. -/
def endingOf : UsageError → Ending
  | .nullCharacter _ => .failed (.path .nullCharacter)
  | error => .misused error

/-- Runs a command line on a file tree. -/
def runTexts (tree : FileTree) (texts : List String) : Outcome :=
  match Request.ofTexts texts with
  | .error error => { ending := endingOf error, tree := tree }
  | .ok request => match request.checked tree with
    | .error error => { ending := endingOf error, tree := tree }
    | .ok command => command.run tree

end Command

end CommandLine

end QueryTypes
