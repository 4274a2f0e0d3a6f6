import QueryTypes.Collected
import QueryTypes.Glob
import QueryTypes.Text.Basic

/-!
# Hooks around a run

Before anything is generated, filters decide which collected documents take part. Before
a file is written, its text goes through transformations, which see the path as well; the
usual one puts a header in front. Hooks act in the order in which they were added.
-/

namespace QueryTypes

/-- A filter on names and kinds of documents. -/
structure DocumentFilter where
  /-- Patterns of which one has to cover the name; none at all let every name pass. -/
  including : List String := []
  /-- Patterns of which none may cover the name. -/
  excluding : List String := []
  /-- The kinds that pass, if not all. -/
  kinds : Option (List DocumentKind) := none
  deriving Inhabited

/-- Whether a filter lets a name and kind pass. -/
def DocumentFilter.passes (filter : DocumentFilter) (name : String) (kind : DocumentKind) :
    Bool :=
  (match filter.kinds with
    | none => true
    | some kinds => decide (kind ∈ kinds)) &&
  !filter.excluding.any (fun pattern => Glob.isMatch pattern name) &&
  (filter.including.isEmpty || filter.including.any fun pattern => Glob.isMatch pattern name)

/-- A transformation of the text of a file, given its path. -/
abbrev TextHook := String → String → String

/-- A text with a header in front: the header without the line ends at its end, and then a
blank line. -/
def withHeader (header : String) : TextHook := fun _ text =>
  String.ofList (Text.trimEnd '\n' header.toList) ++ "\n\n" ++ text

/-- The hooks of a run. -/
structure Hooks where
  /-- Which documents take part. -/
  pre : List (CollectedDocument → Bool) := []
  /-- What is done to every text. -/
  post : List TextHook := []

namespace Hooks

instance : Inhabited Hooks := ⟨{}⟩

/-- Adds a filter. -/
def addPre (hooks : Hooks) (filter : DocumentFilter) : Hooks :=
  { hooks with pre := hooks.pre ++ [fun d => filter.passes d.name d.kind] }

/-- Adds a transformation. -/
def addPost (hooks : Hooks) (hook : TextHook) : Hooks :=
  { hooks with post := hooks.post ++ [hook] }

/-- The documents that pass all filters, in order. -/
def runPre (hooks : Hooks) (documents : List CollectedDocument) : List CollectedDocument :=
  hooks.pre.foldl (fun kept passes => kept.filter passes) documents

/-- The text after all transformations. -/
def runPost (hooks : Hooks) (path text : String) : String :=
  hooks.post.foldl (fun current hook => hook path current) text

end Hooks

end QueryTypes
