import QueryTypes.Collected
import QueryTypes.FileTree.Basic
import QueryTypes.GraphQL.Parser
import QueryTypes.Log

/-!
# Collecting documents

The named operations and fragments of the files below a path, in the order of the files
and, within a file, of the definitions. All entries of one file share its document. Files
without any operation or fragment are passed over, and so are operations without a name,
with a warning. A name may be used once, whatever for, because files are named after it.
-/

namespace QueryTypes

/-- Why documents cannot be collected. -/
inductive CollectionError where
  /-- A path cannot be looked at. -/
  | unreachable (path : Path) (obstacle : FileTree.Obstacle)
  /-- A file does not hold a document. -/
  | unparsable (file : Path)
  /-- A name is used twice for one kind. -/
  | duplicate (kind : DocumentKind) (name : String) (file : Path)
  /-- A name is used for both kinds. -/
  | bothKinds (name : String) (file : Path)
  deriving DecidableEq

/-- What is said about a failure, given what the parser or the system says about a file. -/
def CollectionError.message (cause : String) : CollectionError → String
  | unreachable path _ => "Could not look at " ++ path.print ++ ": " ++ cause
  | unparsable file => "Error parsing " ++ file.print ++ ": " ++ cause
  | duplicate kind name file =>
    "Duplicate " ++ kind.word ++ " name " ++ Text.quotedName name ++ " in " ++ file.print
  | bothKinds name file =>
    "Name " ++ Text.quotedName name ++ " in " ++ file.print ++
      " is used by both an operation and a fragment"

/-- The documents collected so far, and what was reported. -/
structure Collection where
  /-- The entries in order. -/
  documents : List CollectedDocument := []
  /-- The reports in order. -/
  log : List Log.Record := []
  deriving Inhabited

namespace Collection

/-- The endings of files that hold documents. -/
def endings : List String := [".graphql", ".gql"]

/-- Adds an entry, if its name is new. -/
def addNamed (c : Collection) (file : Path) (shared : SharedDocument) (name : String)
    (kind : DocumentKind) : Except CollectionError Collection :=
  match c.documents.find? fun d => d.name = name with
  | some other =>
    if other.kind = kind then .error (.duplicate kind name file)
    else .error (.bothKinds name file)
  | none => .ok { c with
      documents := c.documents ++ [{ name := name, kind := kind, document := shared }] }

/-- Reports that an operation without a name is passed over. -/
def skipAnonymous (c : Collection) (file : Path) : Collection :=
  { c with log := c.log ++
      [Log.record .warning "loader" ("Skipping anonymous operation in " ++ file.print)] }

/-- Adds what a definition gives rise to. -/
def addDefinition (c : Collection) (file : Path) (shared : SharedDocument) :
    GraphQL.Definition → Except CollectionError Collection
  | .operation o => match o.name with
    | none => .ok (c.skipAnonymous file)
    | some name => c.addNamed file shared name .operation
  | .fragment f => c.addNamed file shared f.name .fragment
  | _ => .ok c

/-- Adds what some definitions give rise to, up to the first failure. -/
def addDefinitions (c : Collection) (file : Path) (shared : SharedDocument) :
    List GraphQL.Definition → Collection × Option CollectionError
  | [] => (c, none)
  | d :: rest => match c.addDefinition file shared d with
    | .error e => (c, some e)
    | .ok next => next.addDefinitions file shared rest

/-- Adds what the text of a file gives rise to. The number is the one its document will be
known by. -/
def addFile (c : Collection) (file : Path) (text : String) (id : Nat) :
    Collection × Option CollectionError :=
  match GraphQL.Document.parse? text with
  | none => (c, some (.unparsable file))
  | some document =>
    if document.definitions.any GraphQL.Definition.isExecutable then
      c.addDefinitions file ⟨id, document⟩ document.definitions
    else (c, none)

/-- Adds what some files give rise to, up to the first failure. -/
def addFiles (c : Collection) : Nat → List (Path × String) →
    Collection × Option CollectionError
  | _, [] => (c, none)
  | id, (file, text) :: rest => match c.addFile file text id with
    | (next, some e) => (next, some e)
    | (next, none) => next.addFiles (id + 1) rest

/-- The files below a path that hold documents, with their texts, without excluded ones. -/
def filesOf (tree : FileTree) (path : Path) (excluded : List Path) :
    Except CollectionError (List (Path × String)) :=
  match excluded.find? fun p => FileTree.obstacleIn? p = some .nullCharacter with
  | some p => .error (.unreachable p .nullCharacter)
  | none => match tree.filesAt path endings with
    | .error obstacle => .error (.unreachable path obstacle)
    | .ok files =>
      let out := excluded.map fun p => p.absolute tree.directory
      .ok ((files.filter fun file => !out.contains (file.absolute tree.directory)).filterMap
        fun file => (tree.read? file).map fun text => (file, text))

/-- The documents of the files below a path, and the failure if there is one. -/
def ofTree (tree : FileTree) (path : Path) (excluded : List Path) :
    Collection × Option CollectionError :=
  match filesOf tree path excluded with
  | .error e => ({}, some e)
  | .ok files => addFiles {} 0 files

end Collection

end QueryTypes
