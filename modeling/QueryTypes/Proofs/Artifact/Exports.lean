import Mathlib.Data.List.Forall2
import Mathlib.Data.List.Nodup
import Mathlib.Data.List.TakeWhile
import QueryTypes.GraphQL.Token
import QueryTypes.Path.Specifier
import QueryTypes.Proofs.Artifact
import QueryTypes.Proofs.Path.Specifier

/-!
# What type definitions export

The type definitions of an operation or fragment declare a type under its own name, and the others
under its name with an ending that begins with a dollar sign. No GraphQL name holds a dollar sign,
so what is declared tells by its name whose it is and what it stands for
(`QueryTypes.Naming.Role.append_ending_injective`), and it is none of the shapes, whose endings are
made of letters.

All that is declared is exported. So type definitions of different names have no export in common,
and a file that exports again what they export never does so with one name of two of them
(`QueryTypes.Artifact.nodup_exports`).
-/

namespace QueryTypes

open GraphQL (Operation OperationKind Token)

/-! ### Declared names -/

namespace Naming

/-- What a declared type stands for. -/
inductive Role where
  /-- The operation or fragment itself. -/
  | itself
  /-- The variables of an operation. -/
  | input
  /-- The result of an operation. -/
  | result
  /-- What is handed over once a query is loaded. -/
  | afterLoad
  /-- The data of a fragment. -/
  | data
  deriving DecidableEq

namespace Role

/-- The end of the names of declared types of this role. -/
def ending : Role → String
  | itself => ""
  | input => "$input"
  | result => "$result"
  | afterLoad => "$afterLoad"
  | data => "$data"

theorem ending_injective : Function.Injective ending := by
  intro a b h
  cases a <;> cases b <;> first | rfl | exact absurd h (by decide)

/-- An ending begins with a dollar sign, if there is one. -/
theorem toList_ending (role : Role) :
    role.ending.toList = [] ∨ ∃ rest, role.ending.toList = '$' :: rest := by
  cases role with
  | itself => exact Or.inl rfl
  | _ => exact Or.inr ⟨_, rfl⟩

/-- The name ends where the first dollar sign is. -/
theorem takeWhile_append_ending {name : String} (h : '$' ∉ name.toList) (role : Role) :
    (name ++ role.ending).toList.takeWhile (· ≠ '$') = name.toList := by
  have plain : name.toList.takeWhile (· ≠ '$') = name.toList := by
    refine List.takeWhile_eq_self_iff.2 fun c hc => ?_
    exact decide_eq_true fun he => h (he ▸ hc)
  rw [String.toList_append]
  rcases toList_ending role with hnil | ⟨rest, hrest⟩
  · rw [hnil, List.append_nil, plain]
  · rw [hrest, Path.takeWhile_append_stop (by decide), plain]

/-- **A declared name tells the name it is derived from, and its role.** -/
theorem append_ending_injective {m n : String} {a b : Role} (hm : '$' ∉ m.toList)
    (hn : '$' ∉ n.toList) (h : m ++ a.ending = n ++ b.ending) : m = n ∧ a = b := by
  have same : m = n := by
    rw [← String.toList_inj, ← takeWhile_append_ending hm a, h, takeWhile_append_ending hn b]
  subst same
  exact ⟨rfl, ending_injective (String.append_right_inj m |>.1 h)⟩

/-- No shape is named like a declared type. -/
theorem ending_ne_facet (role : Role) (facet : Facet) : facet.ending ≠ role.ending := by
  have table : ∀ facet ∈ Facet.all, ∀ role : Role, facet.ending ≠ role.ending := by
    intro facet hf role
    revert facet
    cases role <;> decide
  exact table facet (Facet.mem_all facet) role

end Role

end Naming

/-- The roles of the types that are declared for a found definition, in order. -/
def NamedDefinition.roles : NamedDefinition → List Naming.Role
  | operation o => (if o.variableDefinitions.isEmpty then [] else [.input]) ++
      [.itself, .result] ++ if o.kind = .query then [.afterLoad] else []
  | fragment _ => [.itself, .data]

theorem NamedDefinition.nodup_roles (found : NamedDefinition) : found.roles.Nodup := by
  cases found with
  | operation o =>
    rw [roles]
    cases o.variableDefinitions.isEmpty <;> cases o.kind <;> decide
  | fragment f =>
    rw [roles]
    decide

/-! ### Exported names -/

namespace TypeScript

/-- The names that a program exports, in order. -/
def Program.exportedNames (program : Program) : List String :=
  (program.aliases.filter Alias.exported).map Alias.name

/-- The names that a manifest exports again, given the programs that its sources stand for. -/
def Manifest.exportedNames (manifest : Manifest) (programAt? : String → Option Program) :
    List String :=
  (manifest.sources.filterMap programAt?).flatMap Program.exportedNames

theorem Program.exportedNames_eq {program : Program}
    (h : ∀ a ∈ program.aliases, a.exported = true) :
    program.exportedNames = program.aliasNames := by
  rw [exportedNames, List.filter_eq_self.2 h, aliasNames]

/-- A manifest exports what the programs export that its sources stand for; of the sources that
stand for none, nothing is known. -/
theorem Manifest.exportedNames_eq {manifest : Manifest} {programAt? : String → Option Program}
    {programs : List Program} {others : List String}
    (h : manifest.sources.map programAt? = programs.map some ++ others.map fun _ => none) :
    manifest.exportedNames programAt? = programs.flatMap Program.exportedNames := by
  have found : manifest.sources.filterMap programAt? = programs := by
    have both := congrArg (List.filterMap id) h
    simpa [List.filterMap_map, Function.comp_def] using both
  rw [exportedNames, found]

end TypeScript

namespace Artifact

open TypeScript (Alias Declaration Manifest Program)

variable {schema : Schema} {name module : String} {found : NamedDefinition} {program : Program}

/-- The type definitions of an operation are declared in their roles, and exported. -/
theorem aliases_operationProgram (o : Operation) (name module : String) :
    (operationProgram name o.kind (!o.variableDefinitions.isEmpty) module).aliasNames =
        (NamedDefinition.operation o).roles.map (fun role => name ++ role.ending) ∧
      ∀ a ∈ (operationProgram name o.kind (!o.variableDefinitions.isEmpty) module).aliases,
        a.exported = true := by
  rw [NamedDefinition.roles]
  cases o.kind <;> cases o.variableDefinitions.isEmpty <;>
    simp [operationProgram, Program.aliasNames, Program.aliases, List.filterMap_cons,
      Declaration.asAlias?, Naming.Role.ending, Naming.input, Naming.result, Naming.afterLoad]

/-- The type definitions of a fragment are declared in their roles, and exported. -/
theorem aliases_fragmentProgram (f : GraphQL.Fragment) (module : String) :
    (fragmentProgram f.name module).aliasNames =
        (NamedDefinition.fragment f).roles.map (fun role => f.name ++ role.ending) ∧
      ∀ a ∈ (fragmentProgram f.name module).aliases, a.exported = true := by
  simp [fragmentProgram, Program.aliasNames, Program.aliases, List.filterMap_cons,
    Declaration.asAlias?, NamedDefinition.roles, Naming.Role.ending, Naming.data]

/-- **Type definitions are declared in their roles under the name of their definition**, and all
of them are exported. -/
theorem aliases_of_ofDefinition (hname : found.name? = some name)
    (h : ofDefinition schema name found module = .ok program) :
    program.aliasNames = found.roles.map (fun role => name ++ role.ending) ∧
      ∀ a ∈ program.aliases, a.exported = true := by
  cases found with
  | operation o =>
    obtain ⟨-, rfl⟩ := exists_of_ofOperation h
    exact aliases_operationProgram o name module
  | fragment f =>
    obtain ⟨-, rfl⟩ := exists_of_ofFragment h
    obtain rfl : f.name = name := Option.some.inj hname
    exact aliases_fragmentProgram f module

/-- Names that are declared in type definitions are distinct. -/
theorem nodup_aliasNames (hname : found.name? = some name)
    (h : ofDefinition schema name found module = .ok program) : program.aliasNames.Nodup := by
  rw [(aliases_of_ofDefinition hname h).1]
  refine found.nodup_roles.map fun a b hab => ?_
  exact Naming.Role.ending_injective (String.append_right_inj name |>.1 hab)

/-- Nothing is imported under a name that is declared. -/
theorem disjoint_importedNames (hname : found.name? = some name)
    (h : ofDefinition schema name found module = .ok program) :
    program.importedNames.Disjoint program.aliasNames := by
  intro imported hi ha
  rw [(aliases_of_ofDefinition hname h).1] at ha
  obtain ⟨role, -, rfl⟩ := List.mem_map.1 ha
  have shape := (imports_of_ofDefinition hname h).2.1 hi
  obtain ⟨other, facet, hother, he⟩ := GraphQL.Definition.exists_facet_of_mem_shapeNames shape
  -- the shape is named after the same definition
  obtain rfl : name = other := Option.some.inj (hname.symm.trans hother)
  exact Naming.Role.ending_ne_facet role facet (String.append_right_inj name |>.1 he).symm

/-! ### All type definitions -/

/-- A program of type definitions of a definition, made under its own name. -/
def HasProgram (schema : Schema) (found : NamedDefinition) (program : Program) : Prop :=
  ∃ name module, found.name? = some name ∧ ofDefinition schema name found module = .ok program

variable {definitions : List NamedDefinition} {programs : List Program}

/-- What is declared in the type definitions of some definitions is named after one of them. -/
theorem exists_name_of_mem_aliasNames (made : List.Forall₂ (HasProgram schema) definitions programs)
    {declared : String} (hd : declared ∈ programs.flatMap Program.aliasNames) :
    ∃ name ∈ definitions.filterMap NamedDefinition.name?, ∃ role,
      declared = name ++ Naming.Role.ending role := by
  induction made with
  | nil => cases hd
  | @cons found program definitions programs hprogram _ ih =>
    obtain ⟨name, module, hname, hmade⟩ := hprogram
    rw [List.filterMap_cons_some hname]
    rcases List.mem_append.1 hd with hd | hd
    · rw [(aliases_of_ofDefinition hname hmade).1] at hd
      obtain ⟨role, -, rfl⟩ := List.mem_map.1 hd
      exact ⟨name, List.mem_cons_self .., role, rfl⟩
    · obtain ⟨other, ho, rest⟩ := ih hd
      exact ⟨other, List.mem_cons_of_mem _ ho, rest⟩

/-- Definitions of different names have type definitions of different names. -/
theorem nodup_flatMap_aliasNames
    (plain : ∀ name ∈ definitions.filterMap NamedDefinition.name?, '$' ∉ name.toList)
    (distinct : (definitions.filterMap NamedDefinition.name?).Nodup)
    (made : List.Forall₂ (HasProgram schema) definitions programs) :
    (programs.flatMap Program.aliasNames).Nodup := by
  induction made with
  | nil => exact List.nodup_nil
  | @cons found program definitions programs hprogram rest ih =>
    obtain ⟨name, module, hname, hmade⟩ := hprogram
    rw [List.filterMap_cons_some hname] at plain distinct
    obtain ⟨new, distinct⟩ := List.nodup_cons.1 distinct
    have plainRest := fun n hn => plain n (List.mem_cons_of_mem _ hn)
    rw [List.flatMap_cons, List.nodup_append]
    refine ⟨nodup_aliasNames hname hmade, ih plainRest distinct, ?_⟩
    rintro declared hd _ ho rfl
    rw [(aliases_of_ofDefinition hname hmade).1] at hd
    obtain ⟨a, -, rfl⟩ := List.mem_map.1 hd
    obtain ⟨other, hother, b, same⟩ := exists_name_of_mem_aliasNames rest ho
    -- one name is declared twice, so two definitions have one name
    obtain ⟨rfl, -⟩ := Naming.Role.append_ending_injective (plain name (List.mem_cons_self ..))
      (plainRest other hother) same
    exact new hother

/-- All type definitions export what they declare, and import nothing under a name of it. -/
theorem exported_and_disjoint (made : List.Forall₂ (HasProgram schema) definitions programs) :
    ∀ program ∈ programs, (∀ a ∈ program.aliases, a.exported = true) ∧
      program.importedNames.Disjoint program.aliasNames := by
  induction made with
  | nil => exact fun program hp => nomatch hp
  | cons hprogram _ ih =>
    obtain ⟨name, module, hname, hmade⟩ := hprogram
    refine List.forall_mem_cons.2 ⟨⟨(aliases_of_ofDefinition hname hmade).2, ?_⟩, ih⟩
    exact disjoint_importedNames hname hmade

/-- **Type definitions of different names export different names.** The names declared in the type
definitions of some operations and fragments are distinct, within each file and across files; all
are exported, and none is the name of something that its file imports. So the manifest of these
files, whose sources stand for them and for the modules of every application, never exports one
name of two of them. -/
theorem nodup_exports
    (names : ∀ name ∈ definitions.filterMap NamedDefinition.name?,
      ∀ c ∈ name.toList, Token.isNameRest c = true)
    (distinct : (definitions.filterMap NamedDefinition.name?).Nodup)
    (made : List.Forall₂ (HasProgram schema) definitions programs) :
    (programs.flatMap Program.aliasNames).Nodup ∧
    (∀ program ∈ programs, (∀ a ∈ program.aliases, a.exported = true) ∧
      program.importedNames.Disjoint program.aliasNames) ∧
    ∀ (directory : List String) (paths : List Path) (index : Path)
      (programAt? : String → Option Program),
      (manifestOf directory paths index).sources.map programAt? =
        programs.map some ++ runtimeModules.map (fun _ => none) →
      ((manifestOf directory paths index).exportedNames programAt?).Nodup := by
  have plain : ∀ name ∈ definitions.filterMap NamedDefinition.name?, '$' ∉ name.toList := by
    intro name hname hm
    exact absurd (names name hname '$' hm) (by decide)
  have declared := nodup_flatMap_aliasNames plain distinct made
  have each := exported_and_disjoint made
  refine ⟨declared, each, fun directory paths index programAt? sources => ?_⟩
  rw [Manifest.exportedNames_eq sources, List.flatMap_congr fun program hp =>
    Program.exportedNames_eq (each program hp).1]
  exact declared

/-- A query, a mutation that is named like the result of the query, and a fragment that is named
like the variables of the query. -/
def alikeDefinitions : List NamedDefinition :=
  [.operation ⟨none, .query, some "Hello",
      [⟨none, "id", .named "ID", none, []⟩], [], [.field none "hello" [] [] none]⟩,
    .operation ⟨none, .mutation, some "HelloQuery", [], [], [.field none "hello" [] [] none]⟩,
    .fragment ⟨none, "HelloQueryVariables", "Query", [], [.field none "hello" [] [] none]⟩]

/-- A schema in which queries and mutations start from one type. -/
def alikeSchema : Schema :=
  { types := [⟨"Query", .object [] [("hello", .named "ID")]⟩, ⟨"ID", .scalar⟩]
    roots := { query := some "Query", mutation := some "Query" }
    names_nodup := by decide
    closed := by decide
    roots_closed := by decide }

/-- The type definitions of the three. -/
def alikePrograms : List Program :=
  [operationProgram "Hello" .query true defaultInternalModule,
    operationProgram "HelloQuery" .mutation false defaultInternalModule,
    fragmentProgram "HelloQueryVariables" defaultInternalModule]

/-- The files of the three, as a manifest finds them. -/
def alikeProgramAt? (source : String) : Option Program :=
  match source with
  | "./artifacts/Hello" => some (operationProgram "Hello" .query true defaultInternalModule)
  | "./artifacts/HelloQuery" =>
    some (operationProgram "HelloQuery" .mutation false defaultInternalModule)
  | "./artifacts/HelloQueryVariables" =>
    some (fragmentProgram "HelloQueryVariables" defaultInternalModule)
  | _ => none

theorem nodup_exports_alike :
    (alikeDefinitions.filterMap NamedDefinition.name?).Nodup ∧
    List.Forall₂ (HasProgram alikeSchema) alikeDefinitions alikePrograms ∧
    (alikePrograms.flatMap Program.aliasNames).Nodup ∧
    (∀ program ∈ alikePrograms, (∀ a ∈ program.aliases, a.exported = true) ∧
      program.importedNames.Disjoint program.aliasNames) ∧
    ((manifestOf [] (["Hello", "HelloQuery", "HelloQueryVariables"].map fun name =>
        Path.ofString ("/out/artifacts/" ++ name ++ ".d.ts"))
      (Path.ofString "/out/index.d.ts")).exportedNames alikeProgramAt?).Nodup := by
  have distinct : (alikeDefinitions.filterMap NamedDefinition.name?).Nodup := by decide
  have made : List.Forall₂ (HasProgram alikeSchema) alikeDefinitions alikePrograms :=
    .cons ⟨"Hello", defaultInternalModule, rfl, rfl⟩
      (.cons ⟨"HelloQuery", defaultInternalModule, rfl, rfl⟩
        (.cons ⟨"HelloQueryVariables", defaultInternalModule, rfl, rfl⟩ .nil))
  have letters : ∀ name ∈ alikeDefinitions.filterMap NamedDefinition.name?,
      name.toList.all Token.isNameRest = true := by decide
  obtain ⟨declared, each, manifest⟩ := nodup_exports
    (fun name hname => List.all_eq_true.1 (letters name hname)) distinct made
  refine ⟨distinct, made, declared, each, manifest _ _ _ _ ?_⟩
  have sources : (manifestOf [] (["Hello", "HelloQuery", "HelloQueryVariables"].map fun name =>
      Path.ofString ("/out/artifacts/" ++ name ++ ".d.ts"))
      (Path.ofString "/out/index.d.ts")).sources =
      ["./artifacts/Hello", "./artifacts/HelloQuery", "./artifacts/HelloQueryVariables",
        "./runtime", "./stores"] := by decide +kernel
  rw [sources]
  rfl

end Artifact

end QueryTypes
