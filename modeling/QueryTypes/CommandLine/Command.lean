import QueryTypes.CommandLine.Arguments
import QueryTypes.FileTree.Basic

/-!
# Commands

The tool has two commands: one generates type definitions for the documents of a project,
the other prints a document as the rest of the application sees it. Paths that a command
reads from have to exist, and be files or directories as the command needs them.

A command line is first taken apart, as far as that is possible without looking at files: this
is a `QueryTypes.CommandLine.Request`. Then its paths are checked in the order in which they
are given, and only then it is asked whether anything is missing or too much.
-/

namespace QueryTypes

namespace CommandLine

/-- What the command that generates type definitions is given. -/
structure Generation where
  /-- Where the schema is. -/
  schema : String
  /-- Where the documents are. -/
  documents : String
  /-- Where the type definitions go. -/
  output : Option String
  /-- The file of settings. -/
  config : Option String
  /-- The directory of layouts. -/
  templateDirectory : Option String
  /-- Whether fragments stay masked. -/
  fragmentMasking : Option Bool
  /-- Whether everything is told. -/
  verbose : Bool

/-- What the command that prints a document is given. -/
structure Scrubbing where
  /-- Where the document is. -/
  document : String
  /-- The directives to take out, if not the usual ones. -/
  directives : List String
  /-- The file of settings. -/
  config : Option String

/-- A command. -/
inductive Command where
  /-- Generates type definitions. -/
  | generate (given : Generation)
  /-- Prints a document without internal directives and unused variables. -/
  | scrub (given : Scrubbing)
  /-- Tells how the tool is used. -/
  | help
  /-- Tells which version of the tool this is. -/
  | version

/-- A command line taken apart. -/
inductive Request where
  /-- Asks for type definitions. -/
  | generate (arguments : List Argument)
  /-- Asks for a document without internal directives and unused variables. -/
  | scrub (arguments : List Argument)
  /-- Asks how the tool is used. -/
  | help
  /-- Asks for the version of the tool. -/
  | version

namespace Request

/-! ### From texts -/

/-- The option that asks for help. -/
def helpForm : OptionForm := { word := "help", hasValue := false }

/-- The options of the command that generates type definitions. -/
def generationForms : List OptionForm :=
  [{ word := "schema", letter := some 's', path := some .either },
   { word := "documents", letter := some 'd', path := some .either },
   { word := "output", letter := some 'o', path := some .anything },
   { word := "config", letter := some 'c', path := some .file },
   { word := "template-dir", path := some .directory },
   { word := "fragment-masking", hasValue := false },
   { word := "no-fragment-masking", hasValue := false },
   { word := "verbose", letter := some 'v', hasValue := false },
   helpForm]

/-- The options of the command that prints a document. -/
def scrubbingForms : List OptionForm :=
  [{ word := "directive" }, { word := "config", letter := some 'c', path := some .file },
   helpForm]

/-- What the texts behind the name of a command ask for. -/
def named (name : String) (texts : List String) : Except UsageError Request := do
  match name with
  | "generate" =>
    let arguments ← Argument.read generationForms texts
    return if Argument.isGiven "help" arguments then .help else .generate arguments
  | "scrub" =>
    let arguments ← Argument.read scrubbingForms texts
    return if Argument.isGiven "help" arguments then .help else .scrub arguments
  | other => .error (.unknownCommand other)

/-- What a command line asks for. -/
def ofTexts : List String → Except UsageError Request
  | [] => .error .missingCommand
  | "--help" :: _ => .ok .help
  | "--version" :: _ => .ok .version
  | ["--"] => .error .missingCommand
  | "--" :: name :: rest => named name rest
  | name :: rest =>
    if 1 < name.length ∧ name.toList.head? = some '-' then .error (.unknownOption name)
    else named name rest

/-! ### Paths -/

/-- What a written path leads to. Only a directory may have a slash or a dot behind it,
and nothing written leads nowhere. -/
def entryAt? (tree : FileTree) (text : String) : Option FileTree.Entry :=
  let last := (Text.splitOn '/' text.toList).getLast?.getD []
  match tree.find? (Path.ofString text) with
  | some (.file content) => if last = [] ∨ last = ['.'] then none else some (.file content)
  | some .directory => if text = "" then none else some .directory
  | none => none

/-- Checks that a path leads to what is needed. -/
def checkPath (tree : FileTree) (need : PathNeed) (text : String) : Except UsageError Unit :=
  if text.toList.contains '\x00' then .error (.nullCharacter text)
  else match need, entryAt? tree text with
    | .anything, _ | .either, some _ | .file, some (.file _) | .directory, some .directory =>
      .ok ()
    | _, none => .error (.missingPath text)
    | _, some _ => .error (.wrongPath text)

/-- The paths that are given as options, with what they have to lead to. -/
def optionPaths (forms : List OptionForm) (arguments : List Argument) :
    List (PathNeed × String) :=
  (Argument.wordsWithValues arguments).filterMap fun word => do
    let form ← forms.find? fun f => f.word = word
    return (← form.path, ← Argument.valueOf? word arguments)

/-- All paths that are given, with what they have to lead to, in the order in which they are
looked at. -/
def paths : Request → List (PathNeed × String)
  | generate arguments => optionPaths generationForms arguments
  | scrub arguments => optionPaths scrubbingForms arguments ++
      ((Argument.operands arguments).take 1).map fun text => (.file, text)
  | help | version => []

/-- Checks some paths up to the first fault. -/
def checkPaths (tree : FileTree) : List (PathNeed × String) → Except UsageError Unit
  | [] => .ok ()
  | (need, text) :: rest => do
    checkPath tree need text
    checkPaths tree rest

/-! ### Commands -/

/-- The value of an option that a command needs. -/
def required (word : String) (arguments : List Argument) : Except UsageError String :=
  match Argument.valueOf? word arguments with
  | some value => .ok value
  | none => .error (.missingOption word)

/-- The command that is asked for, if nothing is missing or too much. -/
def command : Request → Except UsageError Command
  | generate arguments => match Argument.operands arguments with
    | extra :: _ => .error (.unexpectedOperand extra)
    | [] => return .generate {
        schema := ← required "schema" arguments
        documents := ← required "documents" arguments
        output := Argument.valueOf? "output" arguments
        config := Argument.valueOf? "config" arguments
        templateDirectory := Argument.valueOf? "template-dir" arguments
        fragmentMasking := Argument.choice? "fragment-masking" "no-fragment-masking" arguments
        verbose := Argument.isGiven "verbose" arguments }
  | scrub arguments => match Argument.operands arguments with
    | [] => .error (.missingOperand "DOCUMENT")
    | _ :: extra :: _ => .error (.unexpectedOperand extra)
    | [document] => return .scrub {
        document := document
        directives := Argument.valuesOf "directive" arguments
        config := Argument.valueOf? "config" arguments }
  | help => .ok .help
  | version => .ok .version

/-- The command that is asked for, its paths checked. -/
def checked (tree : FileTree) (request : Request) : Except UsageError Command := do
  checkPaths tree request.paths
  request.command

end Request

end CommandLine

end QueryTypes
