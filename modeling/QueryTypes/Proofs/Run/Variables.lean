import QueryTypes.Proofs.GraphQL.Spreads
import QueryTypes.Proofs.Run.Writes
import QueryTypes.Proofs.Shape.Batch

/-!
# Variables that operations need

An operation needs the variables that stand in it and in the fragments it reaches, whichever
documents these are in (`QueryTypes.GraphQL.Operation.Needs`). What internal directives use does
not count. Documents are scrubbed one at a time, though: the shape of an operation's variables has
those that stand somewhere in the operation's own document
(`QueryTypes.Run.exists_variablesShape`). So a variable that only a fragment of another document
uses is lost, and this is the only way to lose one (`QueryTypes.Run.keeps_needed_variables_iff`).
-/

namespace QueryTypes

open GraphQL (Definition Document Fragment Operation VariableDefinition)

/-! ### Uses outside internal directives -/

namespace GraphQL

variable {isInternal : String → Bool}

/-- The variables that stand in a definition outside internal directives. -/
def Definition.externalVariables (isInternal : String → Bool) (d : Definition) : List String :=
  (d.withoutDirectives isInternal).usedVariables

/-- The variables that stand in a document outside internal directives. -/
def Document.externalVariables (isInternal : String → Bool) (document : Document) : List String :=
  document.definitions.flatMap (Definition.externalVariables isInternal)

/-- **What an operation needs**, given the fragments that it can reach. -/
inductive Operation.Needs (isInternal : String → Bool) (batch : List Fragment) (o : Operation) :
    String → Prop where
  /-- A variable that stands in the operation. -/
  | itself {name : String} (h : name ∈ (Definition.operation o).externalVariables isInternal) :
    Needs isInternal batch o name
  /-- A variable that stands in a fragment. -/
  | through {f : Fragment} {name : String} (hf : Fragment.ReachedFrom batch o.selections f)
    (h : name ∈ (Definition.fragment f).externalVariables isInternal) :
    Needs isInternal batch o name

theorem Document.usedVariables_withoutDirectives (document : Document) :
    (document.withoutDirectives isInternal).usedVariables =
      document.externalVariables isInternal := by
  rw [usedVariables, withoutDirectives, List.flatMap_map]
  rfl

theorem Document.subset_externalVariables {document : Document} {d : Definition}
    (hd : d ∈ document.definitions) :
    d.externalVariables isInternal ⊆ document.externalVariables isInternal :=
  fun _ hname => List.mem_flatMap.2 ⟨d, hd, hname⟩

/-- Scrubbing an operation leaves the declarations of variables that count as used. -/
theorem Operation.exists_scrubbed (isInternal : String → Bool) (o : Operation)
    (used : List String) :
    ∃ p : Operation, (Definition.operation o).scrubbed isInternal used = .operation p ∧
      p.name = o.name ∧ p.kind = o.kind ∧ p.variableDefinitions.map VariableDefinition.name =
        (o.variableDefinitions.map VariableDefinition.name).filter fun name =>
          decide (name ∈ used) := by
  refine ⟨_, rfl, rfl, rfl, ?_⟩
  rw [List.filter_map, List.filter_map, List.map_map]
  rfl

end GraphQL

/-! ### The shape of an operation's variables -/

namespace Shape

open TypeScript (TypeExpr Member Alias)

/-- The keys of an object type. Other types have none. -/
def keys : TypeExpr → List String
  | .object members => members.map Member.key
  | _ => []

variable {schema : Schema} {document : String} {vs : List VariableDefinition}

/-- **The type of an operation's variables has one member for each variable**, in order. -/
theorem keys_variablesType {type : TypeExpr} (h : variablesType schema document vs = .ok type) :
    keys type = vs.map VariableDefinition.name := by
  obtain ⟨-, rfl⟩ := variablesType_eq_ok_iff.1 h
  cases vs with
  | nil => rfl
  | cons v rest => exact List.map_map

end Shape

namespace Run

open TypeScript (Alias)

variable {σ ε : Type} {context : RunContext} {documents : List CollectedDocument}

/-- **The shape of an operation's variables** has those that the operation declares and that stand
in its own document outside internal directives. No other shape has its name. -/
theorem exists_variablesShape {settings : Settings} {schema : Schema} {masking : Bool}
    {shapes : Shape.Shapes}
    (h : Shape.ofDocuments schema masking (scrubbedDocuments settings documents) = .ok shapes)
    {shared : SharedDocument} (hshared : shared ∈ storeDocuments [] documents) {o : Operation}
    (ho : .operation o ∈ shared.document.definitions) :
    ∃ name a, o.name = some name ∧
      (∀ b, b ∈ shapes.aliases ∧ b.name = Naming.variablesShape name o.kind ↔ b = a) ∧
      Shape.keys a.type = (o.variableDefinitions.map VariableDefinition.name).filter fun name =>
        decide (name ∈ shared.document.externalVariables settings.isInternal) := by
  obtain ⟨p, hp, hname, hkind, hdeclared⟩ := o.exists_scrubbed settings.isInternal
    (shared.document.externalVariables settings.isInternal)
  have shaped : shared.document.scrub settings.isInternal ∈ scrubbedDocuments settings documents :=
    List.mem_map.2 ⟨shared, hshared, rfl⟩
  have scrubbed : .operation p ∈ (shared.document.scrub settings.isInternal).definitions := by
    rw [Document.definitions_scrub, Document.usedVariables_withoutDirectives]
    exact List.mem_map.2 ⟨.operation o, ho, hp⟩
  obtain ⟨own, hown, sub⟩ := Shape.exists_own_of_ofDocuments h shaped scrubbed
  obtain ⟨name, root, inputs, draft, pname, -, hinputs, -, aliases⟩ :=
    Shape.exists_of_ofOperation hown
  rw [hkind] at aliases
  have mem : { name := Naming.variablesShape name o.kind, type := inputs } ∈ shapes.aliases :=
    sub (by rw [aliases]; exact List.mem_cons_self ..)
  refine ⟨name, { name := Naming.variablesShape name o.kind, type := inputs },
    hname.symm.trans pname, fun b => ⟨fun hb => ?_, ?_⟩,
    (Shape.keys_variablesType hinputs).trans hdeclared⟩
  · exact List.inj_on_of_nodup_map (Shape.nodup_names_of_ofDocuments h) hb.1 mem hb.2
  · rintro rfl
    exact ⟨mem, rfl⟩

/-- The fragments of all documents whose shapes a run makes, as written. -/
def batchFragments (context : RunContext) (documents : List CollectedDocument) : List Fragment :=
  (storeDocuments [] (context.hooks.runPre documents)).flatMap fun shared =>
    shared.document.fragments

/-- The first file that a run on built-in shapes writes holds the shapes of its documents. -/
theorem exists_shapes_of_generate
    (hs : context.shapes = builtInShapes context.settings context.schema context.layout)
    {output : Output σ ε} {state next : σ} {file : Written} {files : List Written}
    {result : Except (RunError ε) (List Path)}
    (run : generate output.recorded context (state, []) documents =
      ((next, file :: files), result)) :
    ∃ shapes : Shape.Shapes,
      Shape.ofDocuments context.schema context.settings.fragmentMasking
        (scrubbedDocuments context.settings (context.hooks.runPre documents)) = .ok shapes ∧
      file = finishedFile context context.settings.internalFile (context.layout.renderProgram
        (Shape.programOf context.schema (ScalarTable.withOverrides context.settings.scalars)
          shapes)) := by
  obtain ⟨text, htext, rfl⟩ := (writes_of_generate run).first
  rw [internalShapes, hs, builtInShapes_eq_ok_iff] at htext
  obtain ⟨program, hprogram, rfl⟩ := htext
  obtain ⟨shapes, hshapes, -, rfl⟩ := Shape.exists_of_program hprogram
  exact ⟨shapes, hshapes, rfl⟩

/-- **Which needed variables a run keeps.** Suppose that a run on built-in shapes has written a
file. The first file it has written holds the shapes of all operations, each under a name of its
own. A variable of an operation is kept exactly if it stands, outside internal directives, in the
document of the operation. So all variables that the operation needs are kept exactly if each of
them that stands in a fragment the operation reaches stands in the operation's document too. -/
theorem keeps_needed_variables_iff
    (hs : context.shapes = builtInShapes context.settings context.schema context.layout)
    {output : Output σ ε} {state next : σ} {file : Written} {files : List Written}
    {result : Except (RunError ε) (List Path)}
    (run : generate output.recorded context (state, []) documents =
      ((next, file :: files), result)) :
    ∃ shapes : Shape.Shapes,
      Shape.ofDocuments context.schema context.settings.fragmentMasking
        (scrubbedDocuments context.settings (context.hooks.runPre documents)) = .ok shapes ∧
      file = finishedFile context context.settings.internalFile (context.layout.renderProgram
        (Shape.programOf context.schema (ScalarTable.withOverrides context.settings.scalars)
          shapes)) ∧
      ∀ shared ∈ storeDocuments [] (context.hooks.runPre documents), ∀ o : Operation,
        .operation o ∈ shared.document.definitions →
        ∃ name a, o.name = some name ∧
          (∀ b, b ∈ shapes.aliases ∧ b.name = Naming.variablesShape name o.kind ↔ b = a) ∧
          (∀ v ∈ o.variableDefinitions, v.name ∈ Shape.keys a.type ↔
            v.name ∈ shared.document.externalVariables context.settings.isInternal) ∧
          ((∀ v ∈ o.variableDefinitions,
              o.Needs context.settings.isInternal (batchFragments context documents) v.name →
                v.name ∈ Shape.keys a.type) ↔
            ∀ f, Fragment.ReachedFrom (batchFragments context documents) o.selections f →
              ∀ v ∈ o.variableDefinitions,
                v.name ∈ (Definition.fragment f).externalVariables context.settings.isInternal →
                v.name ∈ shared.document.externalVariables context.settings.isInternal) := by
  obtain ⟨shapes, hshapes, hfile⟩ := exists_shapes_of_generate hs run
  refine ⟨shapes, hshapes, hfile, fun shared hshared o ho => ?_⟩
  obtain ⟨name, a, hname, unique, hkeys⟩ := exists_variablesShape hshapes hshared ho
  have kept : ∀ v ∈ o.variableDefinitions, v.name ∈ Shape.keys a.type ↔
      v.name ∈ shared.document.externalVariables context.settings.isInternal := by
    intro v hv
    rw [hkeys, List.mem_filter, decide_eq_true_eq, and_iff_right (List.mem_map_of_mem hv)]
  refine ⟨name, a, hname, unique, kept, fun all f hf v hv hused => ?_, fun own v hv needs => ?_⟩
  · exact (kept v hv).1 (all v hv (.through hf hused))
  · refine (kept v hv).2 ?_
    cases needs with
    | itself hused => exact Document.subset_externalVariables ho hused
    | through hf hused => exact own _ hf v hv hused

/-! ### A query and a fragment -/

/-- A query that declares a variable and spreads a fragment. -/
def lookupQuery : Operation where
  description := none
  kind := .query
  name := some "Q"
  variableDefinitions := [⟨none, "id", .nonNull (.named "ID"), none, []⟩]
  directives := []
  selections := [.spread "F" []]

/-- The fragment, which uses the variable. -/
def lookupFragment : Fragment where
  description := none
  name := "F"
  condition := "Query"
  directives := []
  selections := [.field none "user" [⟨"id", .variable "id"⟩] []
    (some [.field none "name" [] [] none])]

/-- A schema for both. -/
def lookupSchema : Schema where
  types := [⟨"Query", .object [] [("user", .named "User")]⟩,
    ⟨"User", .object [] [("name", .named "String")]⟩, ⟨"ID", .scalar⟩, ⟨"String", .scalar⟩]
  roots := { query := some "Query" }
  names_nodup := by decide
  closed := by decide
  roots_closed := by decide

/-- A run with built-in shapes and nothing else set. -/
def lookupContext : RunContext where
  settings := {}
  schema := lookupSchema
  layout := {}
  hooks := {}
  directory := []
  shapes := builtInShapes {} lookupSchema {}

/-- The entries of the query and the fragment. -/
def lookupEntries (query fragment : SharedDocument) : List CollectedDocument :=
  [{ name := "Q", kind := .operation, document := query },
    { name := "F", kind := .fragment, document := fragment }]

/-- One document with both. -/
def lookupDocument : SharedDocument := ⟨0, ⟨[.operation lookupQuery, .fragment lookupFragment]⟩⟩

/-- A document with the query only. -/
def queryDocument : SharedDocument := ⟨0, ⟨[.operation lookupQuery]⟩⟩

/-- A document with the fragment only. -/
def fragmentDocument : SharedDocument := ⟨1, ⟨[.fragment lookupFragment]⟩⟩

/-- An output that refuses nothing. -/
def willing : Output Unit Empty := refusing fun _ => none

/-- Where the query and the fragment share a document, the variable is kept. -/
theorem keeps_needed_variables_iff_lookup : ∃ next file files result,
    generate willing.recorded lookupContext ((), [])
      (lookupEntries lookupDocument lookupDocument) = ((next, file :: files), result) ∧
    ∃ shapes : Shape.Shapes,
      Shape.ofDocuments lookupSchema true (scrubbedDocuments lookupContext.settings
        (lookupEntries lookupDocument lookupDocument)) = .ok shapes ∧
      ∃ a ∈ shapes.aliases, a.name = "QQueryVariables" ∧ "id" ∈ Shape.keys a.type := by
  obtain ⟨⟨⟨next, writes⟩, result⟩, run⟩ : ∃ outcome, generate willing.recorded lookupContext
      ((), []) (lookupEntries lookupDocument lookupDocument) = outcome := ⟨_, rfl⟩
  have wrote : (generate willing.recorded lookupContext ((), [])
      (lookupEntries lookupDocument lookupDocument)).1.2.isEmpty = false := by decide +kernel
  rw [run] at wrote
  cases writes with
  | nil => cases wrote
  | cons file files =>
    obtain ⟨shapes, hshapes, -, each⟩ := keeps_needed_variables_iff rfl run
    have shared : lookupDocument ∈ storeDocuments [] (lookupContext.hooks.runPre
        (lookupEntries lookupDocument lookupDocument)) := List.mem_cons_self ..
    obtain ⟨name, a, hname, unique, -, needed⟩ :=
      each lookupDocument shared lookupQuery (List.mem_cons_self ..)
    obtain rfl : "Q" = name := Option.some.inj hname
    have own : "id" ∈ lookupDocument.document.externalVariables
        lookupContext.settings.isInternal := by decide
    have reached : Fragment.ReachedFrom (batchFragments lookupContext
        (lookupEntries lookupDocument lookupDocument)) lookupQuery.selections lookupFragment :=
      ⟨lookupFragment, List.mem_cons_self .., List.mem_cons_self .., .refl⟩
    have kept := needed.2 (fun f _ v hv _ => by rw [List.mem_singleton.1 hv]; exact own)
      _ (List.mem_singleton_self _) (.through reached (by decide))
    obtain ⟨ha, name⟩ := (unique a).2 rfl
    exact ⟨next, file, files, result, run, shapes, hshapes, a, ha, name, kept⟩

/-- **A variable can be lost.** Where the query and the fragment are documents of their own, the run
succeeds, and the query's variables have a shape without the variable that the fragment needs. -/
theorem exists_needed_variable_lost : ∃ next file files paths,
    generate willing.recorded lookupContext ((), [])
      (lookupEntries queryDocument fragmentDocument) = ((next, file :: files), .ok paths) ∧
    ∃ shapes : Shape.Shapes,
      file = finishedFile lookupContext lookupContext.settings.internalFile
        (lookupContext.layout.renderProgram
          (Shape.programOf lookupSchema (ScalarTable.withOverrides []) shapes)) ∧
      (∃ v ∈ lookupQuery.variableDefinitions, v.name = "id" ∧
        lookupQuery.Needs lookupContext.settings.isInternal (batchFragments lookupContext
          (lookupEntries queryDocument fragmentDocument)) v.name) ∧
      ∀ a ∈ shapes.aliases, a.name = "QQueryVariables" → "id" ∉ Shape.keys a.type := by
  obtain ⟨⟨⟨next, writes⟩, result⟩, run⟩ : ∃ outcome, generate willing.recorded lookupContext
      ((), []) (lookupEntries queryDocument fragmentDocument) = outcome := ⟨_, rfl⟩
  have wrote : (generate willing.recorded lookupContext ((), [])
      (lookupEntries queryDocument fragmentDocument)).1.2.isEmpty = false := by decide +kernel
  have succeeds : (generate willing.recorded lookupContext ((), [])
      (lookupEntries queryDocument fragmentDocument)).2.isOk = true := by decide +kernel
  rw [run] at wrote succeeds
  cases result with
  | error e => cases succeeds
  | ok paths =>
    cases writes with
    | nil => cases wrote
    | cons file files =>
      obtain ⟨shapes, hshapes, hfile⟩ := exists_shapes_of_generate rfl run
      have shared : queryDocument ∈ storeDocuments [] (lookupContext.hooks.runPre
          (lookupEntries queryDocument fragmentDocument)) := List.mem_cons_self ..
      have reached : Fragment.ReachedFrom (batchFragments lookupContext
          (lookupEntries queryDocument fragmentDocument)) lookupQuery.selections lookupFragment :=
        ⟨lookupFragment, List.mem_cons_self .., List.mem_cons_self .., .refl⟩
      obtain ⟨name, a, hname, unique, hkeys⟩ :=
        exists_variablesShape hshapes shared (List.mem_cons_self ..)
      obtain rfl : "Q" = name := Option.some.inj hname
      refine ⟨next, file, files, paths, run, shapes, hfile, ⟨_, List.mem_singleton_self _, rfl,
        .through reached (by decide)⟩, fun b hb hname => ?_⟩
      rw [(unique b).1 ⟨hb, hname⟩, hkeys]
      decide

end Run

end QueryTypes
