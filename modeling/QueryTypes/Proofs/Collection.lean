import Mathlib.Data.List.Nodup
import Mathlib.Data.List.Pairwise
import QueryTypes.Collection
import QueryTypes.Proofs.GraphQL.Parsed
import QueryTypes.Proofs.Shape.Names

/-!
# What a collection holds

When documents are collected without a failure, the entries are exactly those of the named
operations and fragments of the parsed files, file by file, and no two entries have one name
(`QueryTypes.Collection.Gathered`). So the definition behind an entry is there to be found, and
the documents of different files never define operations or fragments of one name.
-/

namespace QueryTypes

open GraphQL (Definition Document)

namespace Collection

/-- The entry that a definition of a shared document gives rise to. -/
def entryOf? (shared : SharedDocument) : Definition → Option CollectedDocument
  | .operation o => o.name.map fun name => { name := name, kind := .operation, document := shared }
  | .fragment f => some { name := f.name, kind := .fragment, document := shared }
  | _ => none

/-- The entries of a shared document, in the order of its definitions. -/
def entriesOf (shared : SharedDocument) : List CollectedDocument :=
  shared.document.definitions.filterMap (entryOf? shared)

variable {c next result : Collection} {file : Path} {shared : SharedDocument}

/-! ### Entries and their definitions -/

theorem map_name_entryOf? (shared : SharedDocument) (d : Definition) :
    (entryOf? shared d).map CollectedDocument.name = d.name? := by
  cases d with
  | operation o => cases h : o.name <;> simp [entryOf?, Definition.name?, h]
  | _ => rfl

theorem map_name_entriesOf (shared : SharedDocument) :
    (entriesOf shared).map CollectedDocument.name =
      shared.document.definitions.filterMap Definition.name? := by
  rw [entriesOf, List.map_filterMap]
  exact List.filterMap_congr fun d _ => map_name_entryOf? shared d

/-- An entry stands for a definition of the document it shares. -/
theorem exists_definition_of_mem_entriesOf {e : CollectedDocument} (h : e ∈ entriesOf shared) :
    ∃ d ∈ shared.document.definitions, entryOf? shared d = some e :=
  List.mem_filterMap.1 h

/-- An entry belongs to its document, takes part in the internal shapes and gets type
definitions. -/
theorem document_of_mem_entriesOf {e : CollectedDocument} (h : e ∈ entriesOf shared) :
    e.document = shared ∧ e.asWritten = shared ∧ e.generateStore = true ∧
      e.generateArtifact = true := by
  obtain ⟨d, -, hd⟩ := exists_definition_of_mem_entriesOf h
  cases d with
  | operation o =>
    obtain ⟨name, -, rfl⟩ := Option.map_eq_some_iff.1 hd
    exact ⟨rfl, rfl, rfl, rfl⟩
  | fragment f =>
    obtain rfl := Option.some.inj hd
    exact ⟨rfl, rfl, rfl, rfl⟩
  | _ => cases hd

/-- A definition is found under the name and kind of its entry. -/
theorem isSome_named?_of_entryOf? {d : Definition} {e : CollectedDocument}
    (h : entryOf? shared d = some e) : (d.named? e.name e.kind).isSome := by
  cases d with
  | operation o =>
    obtain ⟨name, hname, rfl⟩ := Option.map_eq_some_iff.1 h
    simp [Definition.named?, hname]
  | fragment f =>
    obtain rfl := Option.some.inj h
    simp [Definition.named?]
  | _ => cases h

/-- **The definition of an entry can be looked up.** -/
theorem exists_find?_of_mem_entriesOf {e : CollectedDocument} (h : e ∈ entriesOf shared) :
    ∃ found, shared.document.find? e.name e.kind = .ok found := by
  obtain ⟨d, hd, he⟩ := exists_definition_of_mem_entriesOf h
  have some : (shared.document.definitions.findSome?
      (Definition.named? e.name e.kind)).isSome :=
    List.findSome?_isSome_iff.2 ⟨d, hd, isSome_named?_of_entryOf? he⟩
  obtain ⟨found, hfound⟩ := Option.isSome_iff_exists.1 some
  refine ⟨found, ?_⟩
  rw [Document.find?, hfound]

/-! ### One step -/

/-- An entry is added exactly if its name is new. -/
theorem addNamed_eq_ok_iff {name : String} {kind : DocumentKind} :
    c.addNamed file shared name kind = .ok next ↔
      name ∉ c.documents.map CollectedDocument.name ∧
      next = { c with
        documents := c.documents ++ [{ name := name, kind := kind, document := shared }] } := by
  unfold addNamed
  split
  · next other hfind =>
    have there : name ∈ c.documents.map CollectedDocument.name :=
      List.mem_map.2 ⟨other, List.mem_of_find?_eq_some hfind, by simpa using List.find?_some hfind⟩
    refine iff_of_false (fun h => ?_) (fun h => h.1 there)
    split at h <;> cases h
  · next hfind =>
    have new : name ∉ c.documents.map CollectedDocument.name := by
      intro hm
      obtain ⟨d, hd, hname⟩ := List.mem_map.1 hm
      exact List.find?_eq_none.1 hfind d hd (by simpa using hname)
    simp only [Except.ok.injEq, new, not_false_eq_true, true_and]
    exact eq_comm

/-- A definition adds the entry it gives rise to, under a name that is new. -/
theorem documents_of_addDefinition {d : Definition}
    (h : c.addDefinition file shared d = .ok next) :
    next.documents = c.documents ++ (entryOf? shared d).toList ∧
      ∀ name, d.name? = some name → name ∉ c.documents.map CollectedDocument.name := by
  cases d with
  | operation o =>
    rw [addDefinition] at h
    split at h
    · next hname =>
      cases h
      refine ⟨?_, fun name hn => ?_⟩
      · simp [entryOf?, hname, skipAnonymous]
      · rw [Definition.name?, hname] at hn
        cases hn
    · next name hname =>
      obtain ⟨new, rfl⟩ := addNamed_eq_ok_iff.1 h
      refine ⟨by simp [entryOf?, hname], fun other ho => ?_⟩
      rw [Definition.name?, hname] at ho
      obtain rfl := Option.some.inj ho
      exact new
  | fragment f =>
    obtain ⟨new, rfl⟩ := addNamed_eq_ok_iff.1 h
    refine ⟨rfl, fun other ho => ?_⟩
    obtain rfl := Option.some.inj ho
    exact new
  | _ =>
    cases h
    exact ⟨(List.append_nil _).symm, fun name hn => by cases hn⟩

/-! ### Files -/

/-- Definitions add their entries in order, and names stay distinct. -/
theorem documents_of_addDefinitions {ds : List Definition}
    (h : c.addDefinitions file shared ds = (result, none))
    (distinct : (c.documents.map CollectedDocument.name).Nodup) :
    result.documents = c.documents ++ ds.filterMap (entryOf? shared) ∧
      (result.documents.map CollectedDocument.name).Nodup := by
  induction ds generalizing c with
  | nil =>
    cases h
    exact ⟨(List.append_nil _).symm, distinct⟩
  | cons d rest ih =>
    rw [addDefinitions] at h
    split at h
    · cases h
    next next hnext =>
      obtain ⟨added, new⟩ := documents_of_addDefinition hnext
      have distinctNext : (next.documents.map CollectedDocument.name).Nodup := by
        rw [added, List.map_append]
        cases he : entryOf? shared d with
        | none => simpa using distinct
        | some e =>
          -- an entry has the name of its definition, which is none of those before
          have name : d.name? = some e.name := by rw [← map_name_entryOf? shared, he]; rfl
          simpa [List.nodup_append, distinct] using
            fun a ha (hname : a.name = e.name) =>
              new e.name name (List.mem_map.2 ⟨a, ha, hname⟩)
      obtain ⟨documents, distinctResult⟩ := ih h distinctNext
      refine ⟨?_, distinctResult⟩
      rw [documents, added, List.append_assoc]
      cases he : entryOf? shared d with
      | none => simp [he]
      | some e => simp [he]

/-- What is known of entries that were collected without a failure: the shared documents they
come from, which are told apart by their numbers. -/
structure Gathered (sources : List SharedDocument) (documents : List CollectedDocument) :
    Prop where
  /-- The entries are those of the sources, in order. -/
  documents_eq : documents = sources.flatMap entriesOf
  /-- No two sources have one number. -/
  ids_nodup : (sources.map SharedDocument.id).Nodup
  /-- No two entries have one name. -/
  names_nodup : (documents.map CollectedDocument.name).Nodup
  /-- The sources are parsed texts. -/
  parsed : ∀ shared ∈ sources, ∃ text, Document.parse? text = some shared.document

/-- Collecting from some files adds sources whose numbers are at least the one it starts
with. -/
theorem exists_sources_of_addFiles {files : List (Path × String)} {id : Nat}
    (h : c.addFiles id files = (result, none))
    (distinct : (c.documents.map CollectedDocument.name).Nodup) :
    ∃ sources : List SharedDocument,
      result.documents = c.documents ++ sources.flatMap entriesOf ∧
      (sources.map SharedDocument.id).Nodup ∧ (∀ s ∈ sources, id ≤ s.id) ∧
      (result.documents.map CollectedDocument.name).Nodup ∧
      ∀ s ∈ sources, ∃ text, Document.parse? text = some s.document := by
  induction files generalizing c id with
  | nil =>
    cases h
    refine ⟨[], (List.append_nil _).symm, List.nodup_nil, ?_, distinct, ?_⟩ <;> simp
  | cons entry rest ih =>
    obtain ⟨path, text⟩ := entry
    rw [addFiles] at h
    split at h
    · cases h
    next next hnext =>
      unfold addFile at hnext
      split at hnext
      · cases hnext
      next document hparse =>
        split at hnext
        · -- The file becomes the first of the sources.
          obtain ⟨added, distinctNext⟩ := documents_of_addDefinitions hnext distinct
          obtain ⟨sources, documents, ids, bound, names, parsed⟩ := ih h distinctNext
          refine ⟨⟨id, document⟩ :: sources, ?_, ?_, ?_, names, ?_⟩
          · rw [documents, added, List.flatMap_cons, List.append_assoc]
            rfl
          · rw [List.map_cons, List.nodup_cons]
            refine ⟨fun hm => ?_, ids⟩
            -- those that follow have larger numbers
            obtain ⟨s, hs, hid⟩ := List.mem_map.1 hm
            have := bound s hs
            simp only at hid
            omega
          · intro s hs
            rcases List.mem_cons.1 hs with rfl | hs
            · exact Nat.le_refl _
            · exact Nat.le_of_succ_le (bound s hs)
          · intro s hs
            rcases List.mem_cons.1 hs with rfl | hs
            · exact ⟨text, hparse⟩
            · exact parsed s hs
        · cases hnext
          obtain ⟨sources, documents, ids, bound, names, parsed⟩ := ih h distinct
          exact ⟨sources, documents, ids, fun s hs => Nat.le_of_succ_le (bound s hs), names,
            parsed⟩

/-- **What is collected without a failure is gathered from parsed documents**, all entries of
which are there. -/
theorem exists_gathered_of_ofTree {tree : FileTree} {path : Path} {excluded : List Path}
    (h : ofTree tree path excluded = (result, none)) :
    ∃ sources, Gathered sources result.documents := by
  unfold ofTree at h
  split at h
  · cases h
  · obtain ⟨sources, documents, ids, -, names, parsed⟩ :=
      exists_sources_of_addFiles h (by simp)
    exact ⟨sources, by simpa using documents, ids, names, parsed⟩

/-! ### Gathered entries -/

namespace Gathered

variable {sources : List SharedDocument} {documents : List CollectedDocument}

/-- The entry of a source. -/
theorem exists_source (g : Gathered sources documents) {e : CollectedDocument}
    (he : e ∈ documents) : ∃ shared ∈ sources, e ∈ entriesOf shared := by
  rw [g.documents_eq] at he
  exact List.mem_flatMap.1 he

theorem document_mem (g : Gathered sources documents) {e : CollectedDocument}
    (he : e ∈ documents) : e.document ∈ sources := by
  obtain ⟨shared, hs, he⟩ := g.exists_source he
  rw [(document_of_mem_entriesOf he).1]
  exact hs

/-- The names of entries are names of the grammar. -/
theorem isName (g : Gathered sources documents) {e : CollectedDocument} (he : e ∈ documents) :
    GraphQL.Token.IsName e.name := by
  obtain ⟨shared, hs, he⟩ := g.exists_source he
  obtain ⟨text, htext⟩ := g.parsed shared hs
  obtain ⟨d, hd, he⟩ := exists_definition_of_mem_entriesOf he
  have parsed := GraphQL.Document.isParsed_of_parse? htext d hd
  cases d with
  | operation o =>
    obtain ⟨name, hname, rfl⟩ := Option.map_eq_some_iff.1 he
    exact parsed.name name hname
  | fragment f =>
    obtain rfl := Option.some.inj he
    exact parsed
  | _ => cases he

/-- Documents of different sources define nothing of one name. -/
theorem disjoint (g : Gathered sources documents) {s t : SharedDocument} (hs : s ∈ sources)
    (ht : t ∈ sources) (hne : s ≠ t) :
    (s.document.definitions.filterMap Definition.name?).Disjoint
      (t.document.definitions.filterMap Definition.name?) := by
  have names : ((sources.flatMap entriesOf).map CollectedDocument.name).Nodup := by
    rw [← g.documents_eq]
    exact g.names_nodup
  rw [List.map_flatMap, List.nodup_flatMap] at names
  have symmetric : Std.Symm (Function.onFun List.Disjoint fun a : SharedDocument =>
      (entriesOf a).map CollectedDocument.name) := ⟨fun _ _ h _ ha hb => h hb ha⟩
  have apart := names.2.forall hs ht hne
  simpa only [Function.onFun, map_name_entriesOf] using apart

/-- **Any choice of sources, each taken once, defines distinct names.** -/
theorem nodup_names (g : Gathered sources documents) {chosen : List SharedDocument}
    (hc : chosen ⊆ sources) (ids : (chosen.map SharedDocument.id).Nodup) :
    ((chosen.flatMap fun s => s.document.definitions).filterMap Definition.name?).Nodup := by
  have names : ((sources.flatMap entriesOf).map CollectedDocument.name).Nodup := by
    rw [← g.documents_eq]
    exact g.names_nodup
  rw [List.map_flatMap, List.nodup_flatMap] at names
  rw [List.filterMap_flatMap, List.nodup_flatMap]
  refine ⟨fun s hs => ?_, ?_⟩
  · rw [← map_name_entriesOf]
    exact names.1 s (hc hs)
  · refine (List.Nodup.of_map _ ids).pairwise_of_forall_ne fun s hs t ht hne => ?_
    exact g.disjoint (hc hs) (hc ht) hne

end Gathered

end Collection

end QueryTypes
