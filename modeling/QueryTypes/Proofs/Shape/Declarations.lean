import QueryTypes.GraphQL.Parser
import QueryTypes.Proofs.Shape.Program
import QueryTypes.Schema.OfDocument

/-!
# Which names a program declares

A program declares `Maybe`, the table of scalars, the named types that are referred to, and the
shapes. Named types are distinct, shapes are, and no shape has the name of one of the first two; but
the name of a named type is up to the schema, and nothing keeps it apart from the rest. So all names
are distinct exactly if no named type that is declared takes one of the others
(`QueryTypes.Shape.nodup_aliasNames_iff`), and it may well take one
(`QueryTypes.Shape.exists_declared_twice`).
-/

namespace QueryTypes

open GraphQL (Definition Document)

namespace Shape

open TypeScript (Program)

/-- The names of the shapes of a batch, in order. -/
def shapeNames (documents : List Document) : List String :=
  (documents.flatMap Document.definitions).flatMap Definition.shapeNames

/-- The endings that shapes are told by are no endings of the names that every program begins
with. -/
theorem not_mem_shapeNames (documents : List Document) :
    "Maybe" ∉ shapeNames documents ∧ "Scalars" ∉ shapeNames documents := by
  have endings : ∀ facet ∈ Naming.Facet.all,
      facet.ending.toList.isSuffixOf "Maybe".toList = false ∧
        facet.ending.toList.isSuffixOf "Scalars".toList = false := by
    decide +kernel
  have ends : ∀ shape ∈ shapeNames documents, ∃ facet : Naming.Facet,
      facet.ending.toList.isSuffixOf shape.toList = true := by
    intro shape h
    obtain ⟨d, -, hd⟩ := List.mem_flatMap.1 h
    obtain ⟨name, facet, -, rfl⟩ := Definition.exists_facet_of_mem_shapeNames hd
    refine ⟨facet, List.isSuffixOf_iff_suffix.2 ?_⟩
    rw [String.toList_append]
    exact List.suffix_append ..
  constructor
  · intro h
    obtain ⟨facet, hf⟩ := ends _ h
    rw [(endings facet (Naming.Facet.mem_all facet)).1] at hf
    cases hf
  · intro h
    obtain ⟨facet, hf⟩ := ends _ h
    rw [(endings facet (Naming.Facet.mem_all facet)).2] at hf
    cases hf

variable {schema : Schema} {masking : Bool} {scalars : ScalarTable} {documents : List Document}
  {program : Program}

/-- The names of a program are those of its three parts. -/
theorem aliasNames_eq (h : Shape.program schema masking scalars documents = .ok program) :
    program.aliasNames = "Maybe" :: "Scalars" ::
      (namedTypeNames schema (shapesOfAll (contextOf schema masking documents)
        (documents.flatMap Document.definitions)).references ++ shapeNames documents) := by
  obtain ⟨each, -, -, rfl⟩ := program_eq_ok_iff.1 h
  rw [Program.aliasNames, aliases_programOf_eq, List.map_append, List.map_append,
    map_name_namedTypes, map_name_shapesOfAll each]
  rfl

/-- Names of the three parts are distinct exactly if those in the middle, which are distinct among
themselves, are none of the others. -/
theorem nodup_parts_iff {named shapes : List String} (sorted : named.Nodup)
    (distinct : shapes.Nodup) (first : "Maybe" ∉ shapes) (second : "Scalars" ∉ shapes) :
    ("Maybe" :: "Scalars" :: (named ++ shapes)).Nodup ↔
      ∀ name ∈ named, name ≠ "Maybe" ∧ name ≠ "Scalars" ∧ name ∉ shapes := by
  rw [List.nodup_cons, List.nodup_cons, List.nodup_append', List.mem_cons, List.mem_append,
    List.mem_append]
  constructor
  · rintro ⟨hfirst, hsecond, -, -, apart⟩ name hn
    refine ⟨?_, ?_, fun hs => apart hn hs⟩
    · rintro rfl
      exact hfirst (Or.inr (Or.inl hn))
    · rintro rfl
      exact hsecond (Or.inl hn)
  · intro apart
    refine ⟨?_, ?_, sorted, distinct, fun name hn hs => (apart name hn).2.2 hs⟩
    · rintro (h | h | h)
      · exact absurd h (by decide)
      · exact (apart _ h).1 rfl
      · exact first h
    · rintro (h | h)
      · exact (apart _ h).2.1 rfl
      · exact second h

/-- **When the names of a program are distinct.** A program declares `Maybe` and `Scalars`, then the
named types, which are enumerations and input object types of the schema in strictly increasing
order, and then the shapes of the definitions. All these names are distinct exactly if no named type
that is declared is called `Maybe` or `Scalars` or as one of the shapes. Two shapes of one name are
never declared: if all definitions have shapes, the first name that comes up again is told instead,
and there is no program. -/
theorem nodup_aliasNames_iff (schema : Schema) (masking : Bool) (scalars : ScalarTable)
    (documents : List Document) :
    (∀ program, Shape.program schema masking scalars documents = .ok program →
      ∃ named : List String,
        program.aliasNames = "Maybe" :: "Scalars" :: (named ++ shapeNames documents) ∧
        named.Pairwise (· < ·) ∧
        (∀ name ∈ named, schema.IsEnum name ∨ schema.IsInputObject name) ∧
        (program.aliasNames.Nodup ↔ ∀ name ∈ named,
          name ≠ "Maybe" ∧ name ≠ "Scalars" ∧ name ∉ shapeNames documents)) ∧
    ((∀ d ∈ documents.flatMap Document.definitions,
        HasShapes (contextOf schema masking documents) d) →
      ∀ name, Shape.program schema masking scalars documents = .error (.duplicateShape name) ↔
        ∃ before after, shapeNames documents = before ++ name :: after ∧ before.Nodup ∧
          name ∈ before) := by
  refine ⟨fun program h => ?_, fun each name => ?_⟩
  · have names := aliasNames_eq h
    obtain ⟨-, distinct, -, -⟩ := program_eq_ok_iff.1 h
    obtain ⟨first, second⟩ := not_mem_shapeNames documents
    refine ⟨_, names, SortedNames.pairwise_ofList _, fun name hn => ?_, ?_⟩
    · exact (isSound_shapesOfAll (contextOf schema masking documents) _).kind hn
    · rw [names]
      exact nodup_parts_iff (SortedNames.nodup_ofList _) distinct first second
  · rw [program_eq_duplicateShape_iff each]
    exact firstRepeated_eq_some_iff

/-! ### Paints -/

/-- Paints that are mixed of colors. -/
def paintSchema : Schema where
  types := [⟨"Query", .object [] [("paint", .nonNull (.named "Paint")), ("shade", .named "Color")]⟩,
    ⟨"Paint", .object [] [("id", .nonNull (.named "ID")), ("color", .named "Color")]⟩,
    ⟨"Mix", .inputObject [("base", .nonNull (.named "Color")), ("then", .list (.named "Mix"))]⟩,
    ⟨"Color", .enum ["RED", "BLUE"]⟩, ⟨"ID", .scalar⟩, ⟨"String", .scalar⟩]
  roots := { query := some "Query" }
  names_nodup := by decide
  closed := by decide
  roots_closed := by decide

/-- A query with a variable of an input object type, and a fragment that it spreads. -/
def paintDocuments : List Document :=
  [⟨[.operation ⟨none, .query, some "Q", [⟨none, "mix", .named "Mix", none, []⟩], [],
      [.field none "paint" [⟨"mix", .variable "mix"⟩] [] (some [.spread "P" []])]⟩]⟩,
    ⟨[.fragment ⟨none, "P", "Paint", [],
      [.field none "id" [] [] none, .field none "color" [] [] none]⟩]⟩]

/-- Two queries of one name. -/
def sameQueries : List Document :=
  [⟨[.operation ⟨none, .query, some "Q", [], [], [.field none "shade" [] [] none]⟩,
    .operation ⟨none, .query, some "Q", [], [], []⟩]⟩]

/-- The names of a program are distinct, and two queries of one name have no program. -/
theorem nodup_aliasNames_iff_paint : ∃ program,
    Shape.program paintSchema false ScalarTable.builtIn paintDocuments = .ok program ∧
      program.aliasNames =
        ["Maybe", "Scalars", "Color", "Mix", "QQueryVariables", "QQuery", "PFragment"] ∧
      program.aliasNames.Nodup ∧
      Shape.program paintSchema false ScalarTable.builtIn sameQueries =
        .error (.duplicateShape "QQueryVariables") := by
  obtain ⟨program, h⟩ : ∃ program,
      Shape.program paintSchema false ScalarTable.builtIn paintDocuments = .ok program := ⟨_, rfl⟩
  obtain ⟨named, names, -, -, distinct⟩ :=
    (nodup_aliasNames_iff paintSchema false ScalarTable.builtIn paintDocuments).1 program h
  have all : program.aliasNames =
      ["Maybe", "Scalars", "Color", "Mix", "QQueryVariables", "QQuery", "PFragment"] := by
    cases h
    rfl
  have middle : named = ["Color", "Mix"] := by
    have parts := names.symm.trans all
    have shapes : shapeNames paintDocuments = ["QQueryVariables", "QQuery", "PFragment"] := rfl
    rw [shapes, List.cons_inj_right, List.cons_inj_right] at parts
    exact (List.append_left_inj _).1 parts
  refine ⟨program, h, all, distinct.2 ?_, ?_⟩
  · rw [middle]
    decide
  · refine ((nodup_aliasNames_iff paintSchema false ScalarTable.builtIn sameQueries).2 ?_ _).2 ?_
    · intro d hd
      rcases List.mem_cons.1 hd with rfl | hd
      · rfl
      · rw [List.mem_singleton.1 hd]
        rfl
    · exact ⟨["QQueryVariables", "QQuery"], ["QQuery"], rfl, by decide, by decide⟩

/-- The names that are declared for one document, given the texts of the schema and the document. -/
def declaredNames? (types query : String) : Option (List String) :=
  match Document.parse? types, Document.parse? query with
  | some types, some query => match Schema.ofDocument types with
    | .ok schema => match Shape.program schema true ScalarTable.builtIn [query] with
      | .ok program => some program.aliasNames
      | .error _ => none
    | .error _ => none
  | _, _ => none

/-- **A name can be declared twice.** An enumeration is called as the shape of the query that
selects it. The batch has a program, and the program declares the name two times. -/
theorem exists_declared_twice : ∃ types query schema program,
    Document.parse? "type Query \x7b color: QQuery \x7d enum QQuery \x7b RED \x7d" = some types ∧
      Schema.ofDocument types = .ok schema ∧
      Document.parse? "query Q \x7b color \x7d" = some query ∧
      Shape.program schema true ScalarTable.builtIn [query] = .ok program ∧
      program.aliasNames = ["Maybe", "Scalars", "QQuery", "QQueryVariables", "QQuery"] ∧
      ¬ program.aliasNames.Nodup := by
  have names : declaredNames? "type Query \x7b color: QQuery \x7d enum QQuery \x7b RED \x7d"
      "query Q \x7b color \x7d" =
        some ["Maybe", "Scalars", "QQuery", "QQueryVariables", "QQuery"] := by
    decide +kernel
  unfold declaredNames? at names
  split at names
  · next types query htypes hquery =>
    split at names
    · next schema hschema =>
      split at names
      · next program hprogram =>
        have all := Option.some.inj names
        refine ⟨types, query, schema, program, htypes, hschema, hquery, hprogram, all, ?_⟩
        rw [all]
        decide
      · cases names
    · cases names
  · cases names

end Shape

end QueryTypes
