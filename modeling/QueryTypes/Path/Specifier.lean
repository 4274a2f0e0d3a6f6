import QueryTypes.Path.Basic
import QueryTypes.TypeScript.Program

/-!
# Module specifiers

One generated file imports another by the way from its own directory to the other file,
without the file's double suffix. The way always begins with a dot and a slash, even
where it goes upwards from there.

The file that gathers all others lists them by their specifiers, followed by the two
modules that belong to every application.
-/

namespace QueryTypes

namespace Path

/-! ### Ways between places -/

/-- What is left of two lists of components after what they begin with in common. -/
def dropCommon : List String → List String → List String × List String
  | x :: xs, y :: ys => if x = y then dropCommon xs ys else (x :: xs, y :: ys)
  | xs, ys => (xs, ys)

/-- The way from one place to another: up to the last directory they share, and down from
there. -/
def wayTo (start target : List String) : List String :=
  let (up, down) := dropCommon start target
  up.map (fun _ => "..") ++ down

/-- A way as text; no way at all is a dot. -/
def wayText (way : List String) : String :=
  if way = [] then "." else Text.join "/" way

/-! ### Double suffixes -/

/-- A text without the suffix at its end: a dot, and behind it at least one character that
is neither dot nor slash. The text is given and returned back to front. -/
def dropSuffix? (reversed : List Char) : Option (List Char) :=
  let isInner (c : Char) : Bool := c ≠ '.' ∧ c ≠ '/'
  match reversed.takeWhile isInner, reversed.dropWhile isInner with
  | [], _ => none
  | _ :: _, '.' :: rest => some rest
  | _ :: _, _ => none

/-- A text without a double suffix at its end; a text that has none is left alone. -/
def stripDoubleSuffix (text : List Char) : List Char :=
  match (dropSuffix? text.reverse).bind dropSuffix? with
  | some rest => rest.reverse
  | none => text

/-! ### Specifiers -/

/-- The specifier of a place as seen from another. -/
def specifierBetween (start target : List String) : String :=
  "./" ++ String.ofList (stripDoubleSuffix (wayText (wayTo start target)).toList)

/-- The specifier of a file as seen from a directory. -/
def specifier (directory : List String) (start target : Path) : String :=
  specifierBetween (absolute directory start) (absolute directory target)

end Path

/-- The modules that every application brings along. -/
def runtimeModules : List String := ["./runtime", "./stores"]

/-- The manifest that gathers some files and the modules of every application. -/
def manifestOf (directory : List String) (paths : List Path) (manifestPath : Path) :
    TypeScript.Manifest :=
  let start := (Path.absolute directory manifestPath).dropLast
  ⟨paths.map (fun path => Path.specifierBetween start (Path.absolute directory path)) ++
    runtimeModules⟩

end QueryTypes
