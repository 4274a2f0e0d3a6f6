import QueryTypes.Disk
import QueryTypes.Run
import QueryTypes.Settings.Basic

/-!
# Generating on a disk

A generator is set up for a file tree: it looks up how files are laid out, and then runs on
collected documents, with files and reports going to a fresh disk.
-/

namespace QueryTypes

/-- Files on a disk, and reports, of a run. -/
def Disk.output : Output Disk FileTree.Obstacle where
  write disk path text := disk.write path text
  report disk record := { disk with log := disk.log ++ [record] }

/-- What type definitions are generated with, on whatever tree. -/
structure Generator where
  /-- The settings. -/
  settings : Settings
  /-- The schema of all documents. -/
  schema : Schema
  /-- The hooks around a run. -/
  hooks : Hooks := {}
  /-- The generator of internal shapes, given how files are laid out. -/
  shapes : TypeScript.Layout → List GraphQL.Document → Except ShapeError String :=
    builtInShapes settings schema

namespace Generator

/-- What a run works with on a tree, given how files are laid out there. -/
def context (g : Generator) (tree : FileTree) (layout : TypeScript.Layout) : RunContext where
  settings := g.settings
  schema := g.schema
  layout := layout
  hooks := g.hooks
  directory := tree.directory
  shapes := g.shapes layout

/-- Runs on a tree: the disk as it is then, and what the run answers. -/
def run (g : Generator) (tree : FileTree) (documents : List CollectedDocument) :
    Except FileTree.Obstacle (Disk × Except (RunError FileTree.Obstacle) (List Path)) :=
  match tree.layoutAt g.settings.templateDirectory with
  | .error obstacle => .error obstacle
  | .ok layout => .ok (Run.generate Disk.output (g.context tree layout) { tree := tree } documents)

end Generator

end QueryTypes
