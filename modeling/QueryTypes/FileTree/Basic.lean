import QueryTypes.Path.Basic
import QueryTypes.Keyed

/-!
# File trees

A file system as far as this library needs one: directories and text files under a
root, each known by the components of its way from the root, and a working directory.
A path is walked component by component, and every component but the last has to be a
directory that exists. There are no links, so a double dot leads one directory up. Names and
paths have a greatest length, and no path holds a null character.
-/

namespace QueryTypes

/-- What stands at a place of a file tree. -/
inductive FileTree.Entry where
  /-- A file and its text. -/
  | file (text : String)
  /-- A directory. -/
  | directory
  deriving DecidableEq, Inhabited

/-- Files and directories under a root. -/
structure FileTree where
  /-- What stands where, by the components from the root, with their number in front so that
  places of different depth are told apart at once. The root itself is a directory that needs
  no entry. -/
  entries : List ((Nat × List String) × FileTree.Entry)
  /-- The working directory. -/
  directory : List String
  deriving Inhabited

namespace FileTree

/-- A tree with nothing in it but the root. -/
def empty (directory : List String) : FileTree := ⟨[], directory⟩

/-- What stands at a place. -/
def content? (tree : FileTree) (place : List String) : Option Entry :=
  if place = [] then some .directory else Keyed.lookup (place.length, place) tree.entries

/-- Puts something at a place. -/
def put (tree : FileTree) (place : List String) (entry : Entry) : FileTree :=
  { tree with entries := Keyed.insert (place.length, place) entry tree.entries }

theorem content?_put (tree : FileTree) {place : List String} (other : List String)
    (entry : Entry) (h : place ≠ []) :
    (tree.put place entry).content? other =
      if place = other then some entry else tree.content? other := by
  unfold content? put
  by_cases ho : other = []
  · subst ho; simp [h]
  · by_cases hp : place = other
    · subst hp; simp [h, Keyed.lookup_insert]
    · simp [ho, hp, Keyed.lookup_insert]

/-- Whether a place is a directory. -/
def isDirectoryAt (tree : FileTree) (place : List String) : Bool :=
  tree.content? place = some .directory

/-! ### Walking -/

/-- Why a place cannot be reached or used. The system that keeps the files has its own
words for it. -/
inductive Obstacle where
  /-- A component does not exist. -/
  | missing
  /-- A component is a file where a directory is needed. -/
  | notDirectory
  /-- There is a directory where a file is needed. -/
  | isDirectory
  /-- A component is too long to be a name, or the path as a whole is too long. -/
  | nameTooLong
  /-- There is a null character in the path. -/
  | nullCharacter
  deriving DecidableEq

/-- The longest name of a file or directory, in bytes. -/
def maxNameBytes : Nat := 255

/-- The longest path, in bytes. -/
def maxPathBytes : Nat := 4095

/-- What is wrong with a path by itself, wherever it leads. -/
def obstacleIn? (path : Path) : Option Obstacle :=
  let text := path.print
  if text.toList.contains '\x00' then some .nullCharacter
  else if maxPathBytes < text.utf8ByteSize then some .nameTooLong
  else none

/-- The place that some components lead to from a directory; the last one need not exist. -/
def walk (tree : FileTree) : List String → List String → Except Obstacle (List String)
  | place, [] => .ok place
  | place, part :: rest =>
    match tree.content? place with
    | none => .error .missing
    | some (.file _) => .error .notDirectory
    | some .directory =>
      if part = ".." then walk tree place.dropLast rest
      else if maxNameBytes < part.utf8ByteSize then .error .nameTooLong
      else walk tree (place ++ [part]) rest

/-- The place that the components of a path are seen from. -/
def start (tree : FileTree) (path : Path) : List String :=
  match path.anchor with
  | .relative => tree.directory
  | _ => []

/-- The place a path leads to. -/
def locate (tree : FileTree) (path : Path) : Except Obstacle (List String) :=
  match obstacleIn? path with
  | some obstacle => .error obstacle
  | none => tree.walk (tree.start path) path.parts

/-- What a path leads to, if it leads anywhere. -/
def find? (tree : FileTree) (path : Path) : Option Entry :=
  match tree.locate path with
  | .ok place => tree.content? place
  | .error _ => none

/-- What a path leads to, if it leads anywhere. Nothing can be said of a path that has a
component on its way that is too long, or is too long itself. -/
def examine (tree : FileTree) (path : Path) : Except Obstacle (Option Entry) :=
  match tree.locate path with
  | .error .nameTooLong => .error .nameTooLong
  | _ => .ok (tree.find? path)

/-- Whether a path leads to a file. -/
def isFile (tree : FileTree) (path : Path) : Bool :=
  match tree.find? path with
  | some (.file _) => true
  | _ => false

/-- Whether a path leads to a directory. -/
def isDirectory (tree : FileTree) (path : Path) : Bool :=
  tree.find? path = some .directory

/-- The text of a file as it is stored. -/
def bytes? (tree : FileTree) (path : Path) : Option String :=
  match tree.find? path with
  | some (.file text) => some text
  | _ => none

/-- The text of a file as it is read, with one line ending. -/
def read? (tree : FileTree) (path : Path) : Option String :=
  (tree.bytes? path).map Text.ofFile

/-! ### Making files and directories -/

/-- Makes the directories along a path that do not exist yet. If one cannot be made, those
before it stay. -/
def makeDirectories (tree : FileTree) (place : List String) :
    List String → FileTree × Except Obstacle Unit
  | [] => (tree, if tree.isDirectoryAt place then .ok () else .error .notDirectory)
  | part :: rest =>
    match tree.content? place with
    | none => (tree, .error .missing)
    | some (.file _) => (tree, .error .notDirectory)
    | some .directory =>
      if part = ".." then makeDirectories tree place.dropLast rest
      else if maxNameBytes < part.utf8ByteSize then (tree, .error .nameTooLong)
      else
        let next := place ++ [part]
        match tree.content? next with
        | none => makeDirectories (tree.put next .directory) next rest
        | some _ => makeDirectories tree next rest

/-- Makes the directory a path leads to, and those on the way. -/
def makeDirectory (tree : FileTree) (path : Path) : FileTree × Except Obstacle Unit :=
  match obstacleIn? path with
  | some obstacle => (tree, .error obstacle)
  | none => tree.makeDirectories (tree.start path) path.parts

/-- Stores the text of a file whose directory exists. -/
def store (tree : FileTree) (path : Path) (text : String) : Except Obstacle FileTree :=
  match tree.locate path with
  | .error e => .error e
  | .ok place => match tree.content? place with
    | some .directory => .error .isDirectory
    | _ => .ok (tree.put place (.file text))

/-! ### Listing -/

/-- The components behind a directory, if the place is inside it. -/
def below? : List String → List String → Option (List String)
  | [], rest => some rest
  | _ :: _, [] => none
  | x :: xs, y :: ys => if x = y then below? xs ys else none

/-- The files inside a directory, by their components from there. -/
def filesBelow (tree : FileTree) (place : List String) : List (List String × String) :=
  tree.entries.filterMap fun ((_, other), entry) => match entry with
    | .file text => (below? place other).map fun rest => (rest, text)
    | .directory => none

/-- The files with one of some endings at a path: the file itself, or all files inside the
directory, sorted. Where there is nothing there are no files, unless it cannot be known. -/
def filesAt (tree : FileTree) (path : Path) (endings : List String) :
    Except Obstacle (List Path) :=
  let ends (name : String) : Bool :=
    endings.any fun ending => Text.endsWith ending.toList name.toList
  match tree.locate path with
  | .error .nameTooLong => .error .nameTooLong
  | .error .nullCharacter => .error .nullCharacter
  | .error _ => .ok []
  | .ok place =>
    if tree.isFile path then .ok (if ends path.name then [path] else [])
    else
      let below := (tree.filesBelow place).map fun (rest, _) => path.join ⟨.relative, rest⟩
      .ok (Path.sort (below.filter fun p => ends p.name))

end FileTree

end QueryTypes
