import QueryTypes.FileTree.Basic
import QueryTypes.Log

/-!
# Writing to disk

Files are written into a file tree, with the directories they need. A file that already
reads as its new text is left alone, so that nothing that watches it is disturbed. The
disk keeps the list of the files it has written and reports those it has skipped.
-/

namespace QueryTypes

/-- A file tree, the files written into it so far, and what was reported. -/
structure Disk where
  /-- The files and directories. -/
  tree : FileTree
  /-- The files written so far, in order. -/
  written : List Path := []
  /-- What was reported so far. -/
  log : List Log.Record := []
  deriving Inhabited

namespace Disk

/-- Writes a file. On failure the directories made on the way stay. -/
def write (disk : Disk) (path : Path) (text : String) : Disk × Except FileTree.Obstacle Unit :=
  match disk.tree.examine path with
  | .error e => (disk, .error e)
  | .ok _ =>
    if disk.tree.read? path = some text then
      ({ disk with log := disk.log ++
          [Log.record .debug "writer" ("Unchanged, skipping " ++ path.print)] }, .ok ())
    else match disk.tree.makeDirectory path.parent with
      | (tree, .error e) => ({ disk with tree := tree }, .error e)
      | (tree, .ok _) => match tree.store path text with
        | .error e => ({ disk with tree := tree }, .error e)
        | .ok tree' => ({ disk with tree := tree', written := disk.written ++ [path] }, .ok ())

end Disk

/-- What is said about an obstacle. -/
def FileTree.Obstacle.message : FileTree.Obstacle → String
  | missing => "No such file or directory"
  | notDirectory => "Not a directory"
  | isDirectory => "Is a directory"
  | nameTooLong => "File name too long"
  | nullCharacter => "Null character in a path"

end QueryTypes
