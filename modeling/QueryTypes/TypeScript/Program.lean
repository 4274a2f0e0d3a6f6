import QueryTypes.TypeScript.Type

/-!
# Programs of type declarations

A generated file is a list of declarations: imports of names from other files,
and aliases that give a name to a type. The text of a file has the imports
before the aliases, whatever their order in the program, and one blank line
between neighbours of different declarations.

A file that gathers all others is a `QueryTypes.TypeScript.Manifest`: it exports
again what other files export.
-/

namespace QueryTypes

namespace TypeScript

/-! ### Declarations -/

/-- Names taken from another file. -/
structure Import where
  /-- The imported names. -/
  names : List String
  /-- The path of the file they come from. -/
  source : String
  /-- Whether only types are imported. -/
  typeOnly : Bool := true
  deriving DecidableEq, Inhabited

/-- A name given to a type. -/
structure Alias where
  /-- The name. -/
  name : String
  /-- The type it stands for. -/
  type : TypeExpr
  /-- The names of its type parameters. -/
  parameters : List String := []
  /-- Whether other files may use it. -/
  exported : Bool := true
  deriving Inhabited

/-- A declaration of a program. -/
inductive Declaration where
  /-- Names taken from another file. -/
  | ofImport (value : Import)
  /-- A name given to a type. -/
  | ofAlias (value : Alias)
  deriving Inhabited

/-- The declarations of one file. -/
structure Program where
  /-- The declarations in order. -/
  body : List Declaration := []
  deriving Inhabited

namespace Declaration

/-- The import, if the declaration is one. -/
def asImport? : Declaration → Option Import
  | ofImport value => some value
  | ofAlias _ => none

/-- The alias, if the declaration is one. -/
def asAlias? : Declaration → Option Alias
  | ofImport _ => none
  | ofAlias value => some value

end Declaration

namespace Program

/-- The imports in order. -/
def imports (program : Program) : List Import :=
  program.body.filterMap Declaration.asImport?

/-- The aliases in order. -/
def aliases (program : Program) : List Alias :=
  program.body.filterMap Declaration.asAlias?

/-- The imported names in order. -/
def importedNames (program : Program) : List String :=
  program.imports.flatMap Import.names

/-- The names of the aliases in order. -/
def aliasNames (program : Program) : List String :=
  program.aliases.map Alias.name

/-- The first alias of a name. -/
def findAlias? (program : Program) (name : String) : Option Alias :=
  program.aliases.find? fun a => a.name = name

/-- The first hole of a program's types. -/
def firstHole (program : Program) : Option String :=
  program.aliases.findSome? fun a => a.type.firstHole

end Program

/-- A file that exports again what other files export. -/
structure Manifest where
  /-- The paths of the other files in order. -/
  sources : List String
  deriving DecidableEq, Inhabited

/-! ### Text -/

/-- The text of an import. -/
def Import.render (i : Import) : String :=
  (if i.typeOnly then "import type" else "import") ++ " \x7b " ++ Text.join ", " i.names ++
    " \x7d from " ++ Text.quoted i.source ++ ";"

/-- The text of an alias. -/
def Alias.render (a : Alias) : String :=
  (if a.exported then "export " else "") ++ "type " ++ a.name ++
    (if a.parameters.isEmpty then "" else "<" ++ Text.join ", " a.parameters ++ ">") ++
    " = " ++ a.type.render 0 ++ ";"

/-- The lines of the imports and the blank line after them; nothing without imports. -/
def Program.importLines (program : Program) : String :=
  if program.imports.isEmpty then ""
  else Text.join "" (program.imports.map fun i => i.render ++ "\n") ++ "\n"

/-- The aliases, a blank line between two of them. -/
def Program.aliasLines (program : Program) : String :=
  Text.join "\n" (program.aliases.map fun a => a.render ++ "\n")

/-- The text of a program. -/
def Program.render (program : Program) : String :=
  program.importLines ++ program.aliasLines

/-- The text of a manifest: one export a line. -/
def Manifest.render (manifest : Manifest) : String :=
  Text.join "" (manifest.sources.map fun s => "export * from " ++ Text.quoted s ++ ";\n")

/-! ### Layouts -/

/-- How files are laid out. Each of the two kinds of files has either its own layout
or a fixed text that takes its place. -/
structure Layout where
  /-- The fixed text of every program, if there is one. -/
  program : Option String := none
  /-- The fixed text of every manifest, if there is one. -/
  manifest : Option String := none
  deriving DecidableEq, Inhabited

/-- The fixed text that a layout file stands for: its text without one line end at the
end. -/
def Layout.textOfFile (contents : String) : String :=
  let chars := Text.universalNewlines contents.toList
  String.ofList (if chars.getLast? = some '\n' then chars.dropLast else chars)

/-- The text of a program under a layout. -/
def Layout.renderProgram (layout : Layout) (program : Program) : String :=
  layout.program.getD program.render

/-- The text of a program under a layout, if the layout needs no type with a hole. -/
def Layout.renderProgram? (layout : Layout) (program : Program) : Except HoleError String :=
  match layout.program, program.firstHole with
  | none, some label => .error ⟨label⟩
  | _, _ => .ok (layout.renderProgram program)

/-- The text of a manifest under a layout. -/
def Layout.renderManifest (layout : Layout) (manifest : Manifest) : String :=
  layout.manifest.getD manifest.render

/-- The text of an alias, if its type has no hole. -/
def Alias.render? (a : Alias) : Except HoleError String :=
  match a.type.firstHole with
  | some label => .error ⟨label⟩
  | none => .ok a.render

end TypeScript

end QueryTypes
