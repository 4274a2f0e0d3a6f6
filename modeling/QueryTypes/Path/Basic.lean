import QueryTypes.Text.Basic

/-!
# Paths

Paths in the notation of POSIX: components separated by slashes. Reading a path drops
empty components and single dots but keeps double dots, since a component may be
something else than what it looks like. A path begins at the working directory, at the
root, or, if it is written with exactly two slashes at the front, at a root of its own.

Two readings of a path as a place in a file system stand side by side.
`QueryTypes.Path.absolute` goes by the text alone, a double dot taking back the component
before it; how a file tree walks along a path is the business of
`QueryTypes.FileTree`.
-/

namespace QueryTypes

/-- Where a path begins. -/
inductive Path.Anchor where
  /-- The working directory. -/
  | relative
  /-- The root. -/
  | root
  /-- The root that is written with two slashes. -/
  | doubleRoot
  deriving DecidableEq, Inhabited

/-- A path: where it begins, and its components. -/
structure Path where
  /-- Where the path begins. -/
  anchor : Path.Anchor
  /-- The components, none empty or a single dot. -/
  parts : List String
  deriving DecidableEq, Inhabited

namespace Path

/-! ### Reading and printing -/

/-- Where a written path begins. -/
def anchorOf : List Char → Anchor
  | '/' :: '/' :: '/' :: _ => .root
  | '/' :: '/' :: _ => .doubleRoot
  | '/' :: _ => .root
  | _ => .relative

/-- The components of a written path. -/
def partsOf (text : List Char) : List String :=
  ((Text.splitOn '/' text).filter fun part => part ≠ [] ∧ part ≠ ['.']).map String.ofList

/-- The path that a text writes. -/
def ofString (text : String) : Path := ⟨anchorOf text.toList, partsOf text.toList⟩

/-- The text of an anchor. -/
def Anchor.text : Anchor → String
  | relative => ""
  | root => "/"
  | doubleRoot => "//"

/-- The text of a path; the working directory itself is a dot. -/
def print (path : Path) : String :=
  if path.anchor = .relative ∧ path.parts = [] then "."
  else path.anchor.text ++ Text.join "/" path.parts

/-- The working directory. -/
def here : Path := ⟨.relative, []⟩

/-! ### Parts of a path -/

/-- A path seen from another one. -/
def join (base path : Path) : Path :=
  match path.anchor with
  | .relative => ⟨base.anchor, base.parts ++ path.parts⟩
  | _ => path

/-- A written path seen from another one. -/
def append (base : Path) (text : String) : Path := base.join (ofString text)

/-- The path without its last component. -/
def parent (path : Path) : Path := ⟨path.anchor, path.parts.dropLast⟩

/-- The last component, empty if there is none. -/
def name (path : Path) : String := path.parts.getLast?.getD ""

/-- What a file name ends with from its last dot on, if that is neither its first nor its
last character. -/
def suffixOf (name : List Char) : List Char :=
  let ending := (name.reverse.takeWhile (· ≠ '.')).reverse
  let before := name.length - ending.length
  if 1 < before ∧ ending ≠ [] then '.' :: ending else []

/-- The suffix of the path's last component. -/
def suffix (path : Path) : String := String.ofList (suffixOf path.name.toList)

/-! ### Order -/

/-- Whether one list of components comes before another, component by component. -/
def partsBefore : List String → List String → Bool
  | [], [] => false
  | [], _ :: _ => true
  | _ :: _, [] => false
  | x :: xs, y :: ys => if x = y then partsBefore xs ys else decide (x < y)

/-- Puts a path before the first that comes after it. -/
def insertSorted (path : Path) : List Path → List Path
  | [] => [path]
  | other :: rest =>
    if partsBefore path.parts other.parts then path :: other :: rest
    else other :: insertSorted path rest

/-- Paths in the order of their components. -/
def sort : List Path → List Path
  | [] => []
  | path :: rest => insertSorted path (sort rest)

/-! ### Places -/

/-- The components left when every double dot takes back the component before it, with
the components before in reverse order. At the root there is nothing to take back. -/
def normalizeOnto : List String → List String → List String
  | done, [] => done.reverse
  | done, ".." :: rest => normalizeOnto done.tail rest
  | done, part :: rest => normalizeOnto (part :: done) rest

/-- The components left when every double dot takes back the component before it. -/
def normalize (parts : List String) : List String := normalizeOnto [] parts

/-- The components of the place a path stands for, by its text alone, in a working
directory. -/
def absolute (directory : List String) (path : Path) : List String :=
  match path.anchor with
  | .relative => normalize (directory ++ path.parts)
  | _ => normalize path.parts

/-- What is said about a file that cannot be written. -/
def writeFailure (path : Path) (cause : String) : String :=
  "Could not write " ++ path.print ++ ": " ++ cause

end Path

end QueryTypes
