import QueryTypes.Yaml.Tag

/-!
# Merged mappings

A mapping may ask for the entries of other mappings: under the key for that stands one of
them, or a sequence of them. Their entries come before its own, and of the mappings in a
sequence the last one comes first. Merging happens when somebody looks into the mapping, and
from then on it has all those entries wherever else it is part of the document. A mapping
that is merged into itself on the way brings the entries that it has by then.
-/

namespace QueryTypes

namespace Yaml

namespace Document

/-! ### Entries -/

/-- The entries of a mapping. -/
def entries? (d : Document) (n : Nat) : Option (List (Nat × Nat)) :=
  match d.node n with
  | .mapping _ entries => some entries
  | _ => none

/-- A document in which a node is another one. -/
def withNode (d : Document) (n : Nat) (node : Node) : Document :=
  { d with nodes := d.nodes.setIfInBounds n node }

/-- A document in which a mapping has other entries. -/
def withEntries (d : Document) (n : Nat) (entries : List (Nat × Nat)) : Document :=
  match d.node n with
  | .mapping tag _ => d.withNode n (.mapping tag entries)
  | _ => d

/-- Whether an entry asks for the entries of other mappings. -/
def isMerge (d : Document) (entry : Nat × Nat) : Bool := d.kind? entry.1 = some .merge

/-- What the first of some entries that asks for others asks for, and all entries but that. -/
def takeMerge? (d : Document) : List (Nat × Nat) → Option (Nat × List (Nat × Nat))
  | [] => none
  | entry :: rest =>
    if d.isMerge entry then some (entry.2, rest)
    else (d.takeMerge? rest).map fun (source, others) => (source, entry :: others)

/-- How many entries ask for others. -/
def mergeCount (d : Document) : Nat :=
  d.nodes.foldl (fun count node => match node with
    | .mapping _ entries => count + (entries.filter d.isMerge).length
    | _ => count) 0

/-- A document in which a key that may stand for the mapping around it is a text. -/
def withTextKey (d : Document) (entry : Nat × Nat) : Document :=
  if d.kind? entry.1 = some .value then d.withNode entry.1 (d.node entry.1).asText else d

/-! ### Merging -/

/-- A step that may change the document, or finds that something other than a mapping is to be
merged. -/
abbrev Change := StateT Document Option

/-- Merges into a mapping what it asks for, behind what was brought before, given enough
steps: each takes away one entry that asks for others. -/
def mergeBehind : Nat → List (Nat × Nat) → Nat → Change Unit
  | 0, _, _ => failure
  | fuel + 1, brought, n => do
    let d ← get
    let entries ← d.entries? n
    match d.takeMerge? entries with
    | none => set ((brought ++ entries).foldl withTextKey (d.withEntries n (brought ++ entries)))
    | some (source, others) =>
      let entriesOf (m : Nat) : Change (List (Nat × Nat)) := do
        mergeBehind fuel [] m
        (← get).entries? m
      set (d.withEntries n others)
      let more ← match d.node source with
        | .sequence _ items => pure (← items.mapM entriesOf).reverse.flatten
        | _ => entriesOf source
      mergeBehind fuel (brought ++ more) n

/-- The document in which a mapping has the entries that it asks for, if only mappings are to
be merged and no more entries ask for others than there may be. Its keys that may stand for
mappings are texts from then on. -/
def merged? (d : Document) (merges n : Nat) : Option Document :=
  ((mergeBehind (merges + 1) [] n).run d).map Prod.snd

end Document

end Yaml

end QueryTypes
