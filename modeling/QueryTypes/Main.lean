import QueryTypes.CommandLine.Outcome

/-!
# The command line tool

Reads the files a command needs into a file tree, runs the command on it, and writes the
files that are new or different. Everything else is decided by
`QueryTypes.CommandLine.Command.runTexts`.
-/

namespace QueryTypes

namespace CommandLine

/-! ### Reading files -/

/-- Puts a directory into a tree, with those above it. -/
def withDirectory (tree : FileTree) (place : List String) : FileTree :=
  (List.range place.length).foldl (fun t n => t.put (place.take (n + 1)) .directory) tree

/-- How deep directories may be nested. -/
def maxDepth : Nat := 64

/-- Puts what is at a place of the disk, and below it, into a tree. A file that holds no
text is passed over. -/
def readPlace : Nat → FileTree → List String → IO FileTree
  | 0, tree, _ => return tree
  | depth + 1, tree, place => do
    let text := "/" ++ Text.join "/" place
    let path := (← IO.currentDir) / text
    if ← path.isDir then
      let mut found := withDirectory tree place
      for entry in ← path.readDir do
        found ← readPlace depth found (place ++ [entry.fileName])
      return found
    else if ← path.pathExists then
      let above := withDirectory tree place.dropLast
      try
        return above.put place (.file (← IO.FS.readFile text))
      catch _ => return above
    else return tree

/-- Puts what a path leads to into a tree. -/
def readPath (tree : FileTree) (path : Path) : IO FileTree :=
  readPlace maxDepth tree (path.absolute tree.directory)

/-- The paths that a command reads from, as they are written. -/
def Command.inputs : Command → List String
  | generate given => [given.schema, given.documents] ++ given.config.toList ++
      given.templateDirectory.toList ++ given.output.toList
  | scrub given => given.document :: given.config.toList
  | help | version => []

/-- The directories that the settings of a command name besides. -/
def Command.directories (tree : FileTree) : Command → List Path
  | generate given => match settings tree given.config given.values with
    | .ok settings => settings.outputDirectory :: settings.templateDirectory.toList
    | .error _ => []
  | _ => []

/-- The files that a command line needs. -/
def readInputs (texts : List String) : IO FileTree := do
  let directory := (Path.ofString (← IO.currentDir).toString).parts
  let start := withDirectory (.empty directory) directory
  match (Request.ofTexts texts).bind Request.command with
  | .error _ => return start
  | .ok command =>
    let paths := (command.inputs ++ settingsFileNames).map Path.ofString
    let tree ← paths.foldlM readPath start
    (command.directories tree).foldlM readPath tree

/-! ### Writing files -/

/-- Writes the files of a tree that are not in another one. -/
def writeChanges (before after : FileTree) : IO Unit := do
  for (place, text) in after.filesBelow [] do
    if before.content? place ≠ some (.file text) then
      IO.FS.createDirAll ("/" ++ Text.join "/" place.dropLast)
      IO.FS.writeFile ("/" ++ Text.join "/" place) text

/-- The words for causes. -/
def causes : Causes := ⟨"syntax error", FileTree.Obstacle.message⟩

end CommandLine

end QueryTypes

/-- Runs the command line that the tool is given. -/
def main (arguments : List String) : IO UInt32 := do
  let before ← QueryTypes.CommandLine.readInputs arguments
  let outcome := QueryTypes.CommandLine.Command.runTexts before arguments
  try
    QueryTypes.CommandLine.writeChanges before outcome.tree
  catch error =>
    IO.eprintln ("Error: " ++ toString error)
    return 1
  IO.print outcome.output
  IO.eprint (outcome.complaints QueryTypes.CommandLine.causes)
  return outcome.exitCode.toUInt32
