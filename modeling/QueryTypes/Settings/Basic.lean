import QueryTypes.Path.Basic
import QueryTypes.GraphQL.Scrub
import QueryTypes.TypeScript.Program
import QueryTypes.FileTree.Basic

/-!
# Settings of a run

Where files go, which directives are internal, how scalars are typed and how files are
laid out. All generated files are below the output directory: the file that gathers the
others directly in it, the internal shapes and the type definitions of documents in a
directory of their own.
-/

namespace QueryTypes

/-- The settings of a run. -/
structure Settings where
  /-- The directory that all generated files are in. -/
  outputDirectory : Path := Path.ofString "generated"
  /-- The directory of the type definitions, inside the output directory. -/
  artifactDirectoryName : String := "artifacts"
  /-- The file of the internal shapes, among the type definitions. -/
  internalFileName : String := "_internal.d.ts"
  /-- The file that gathers the others, inside the output directory. -/
  indexFileName : String := "index.d.ts"
  /-- The directives that never leave this tool. -/
  internalDirectives : List String := GraphQL.defaultInternalDirectives
  /-- The TypeScript types of some scalars. -/
  scalars : List (String × String) := []
  /-- Whether fragments stay masked in shapes. -/
  fragmentMasking : Bool := true
  /-- A directory with layouts. -/
  templateDirectory : Option Path := none
  /-- A text to put in front of every file. -/
  header : Option String := none
  deriving Inhabited

namespace Settings

/-- The directory of the type definitions. -/
def artifactDirectory (s : Settings) : Path := s.outputDirectory.append s.artifactDirectoryName

/-- The file of the internal shapes. -/
def internalFile (s : Settings) : Path := s.artifactDirectory.append s.internalFileName

/-- The file that gathers the others. -/
def indexFile (s : Settings) : Path := s.outputDirectory.append s.indexFileName

/-- The file of the type definitions of a document. -/
def artifactFile (s : Settings) (name : String) : Path :=
  s.artifactDirectory.append (name ++ ".d.ts")

/-- Whether a directive never leaves this tool. -/
def isInternal (s : Settings) (directive : String) : Bool :=
  s.internalDirectives.contains directive

end Settings

/-! ### Layouts -/

/-- The name of the file that lays out programs. -/
def programLayoutName : String := "program.ts.j2"

/-- The name of the file that lays out manifests. -/
def manifestLayoutName : String := "index.ts.j2"

/-- The layouts found in a directory; what is not there is laid out as usual. -/
def FileTree.layoutAt (tree : FileTree) (directory : Option Path) :
    Except FileTree.Obstacle TypeScript.Layout :=
  match directory with
  | none => .ok {}
  | some path => match tree.examine path with
    | .error obstacle => .error obstacle
    | .ok (some .directory) =>
      let fixed (name : String) : Option String :=
        (tree.bytes? (path.append name)).map TypeScript.Layout.textOfFile
      .ok { program := fixed programLayoutName, manifest := fixed manifestLayoutName }
    | .ok _ => .ok {}

/-! ### Settings files -/

/-- The names that a file of settings may have, in the order in which they are tried. -/
def settingsFileNames : List String := ["gql-tsgen.yml", "gql-tsgen.yaml"]

/-- The first of some paths that leads to a file. -/
def FileTree.firstFile? (tree : FileTree) : List Path → Except FileTree.Obstacle (Option Path)
  | [] => .ok none
  | path :: rest => match tree.examine path with
    | .error obstacle => .error obstacle
    | .ok (some (.file _)) => .ok (some path)
    | .ok _ => tree.firstFile? rest

/-- The file of settings in a directory. -/
def FileTree.findSettings? (tree : FileTree) (directory : Path) :
    Except FileTree.Obstacle (Option Path) :=
  tree.firstFile? (settingsFileNames.map directory.append)

end QueryTypes
