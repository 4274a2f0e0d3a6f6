import QueryTypes.Proofs.Collection.Failures
import QueryTypes.Proofs.FileTree.Listing

/-!
# What is collected from a tree

The files that documents are collected from are those that can be read at a path, have the right
ending and are not excluded (`QueryTypes.Collection.IsDocumentFile`), in the order of their
components. What comes of them depends on nothing else: the entries are those of all their named
operations and fragments, or else the first failure among their events is reported
(`QueryTypes.Collection.collects_exactly`). In particular the order in which the tree lists its
files does not matter.
-/

namespace QueryTypes

open GraphQL (Definition Document)

/-- The failure is one of the files that documents are collected from: it is not that a path cannot
be looked at. -/
def CollectionError.IsOfFiles : CollectionError → Prop
  | .unreachable _ _ => False
  | _ => True

namespace Collection

variable {tree other : FileTree} {path file : Path} {text : String} {excluded : List Path}
  {files : List (Path × String)} {e : CollectionError}

/-! ### Document files -/

/-- **A file that documents are collected from**, with its text. -/
structure IsDocumentFile (tree : FileTree) (path : Path) (excluded : List Path) (file : Path)
    (text : String) : Prop where
  /-- The path leads somewhere. -/
  start : ∃ place, tree.locate path = .ok place
  /-- The file is there, or below. -/
  below : ∃ rest, (∀ part ∈ rest, Path.IsPlain part) ∧ file = path.join ⟨.relative, rest⟩
  /-- Its name has one of the endings of documents. -/
  ending : FileTree.HasEnding endings file.name
  /-- It is none of the excluded files. -/
  kept : ∀ p ∈ excluded, p.absolute tree.directory ≠ file.absolute tree.directory
  /-- It is a file, and this is its text. -/
  text : tree.read? file = some text

/-- The files that are gone through; none if there is a path that cannot be looked at. -/
def documentFiles (tree : FileTree) (path : Path) (excluded : List Path) : List (Path × String) :=
  match filesOf tree path excluded with
  | .ok files => files
  | .error _ => []

/-- The files are listed unless the path cannot be looked at. -/
theorem filesOf_cases (tree : FileTree) (path : Path)
    (names : ∀ p ∈ excluded, FileTree.obstacleIn? p ≠ some .nullCharacter) :
    (∃ obstacle, tree.locate path = .error obstacle ∧
      filesOf tree path excluded = .error (.unreachable path obstacle)) ∨
    ∃ listed, tree.filesAt path endings = .ok listed ∧
      filesOf tree path excluded = .ok ((listed.filter fun file =>
        !(excluded.map fun p => p.absolute tree.directory).contains
          (file.absolute tree.directory)).filterMap
            fun file => (tree.read? file).map fun text => (file, text)) := by
  have named : excluded.find? (fun p => FileTree.obstacleIn? p = some .nullCharacter) = none :=
    List.find?_eq_none.2 fun p hp => by simpa using names p hp
  unfold filesOf
  rw [named]
  cases hlisted : tree.filesAt path endings with
  | error obstacle => exact Or.inl ⟨obstacle, FileTree.locate_of_filesAt_eq_error hlisted, rfl⟩
  | ok listed => exact Or.inr ⟨listed, rfl, rfl⟩

theorem mem_filterMap_read?_iff {listed : List Path} :
    (file, text) ∈ listed.filterMap (fun file => (tree.read? file).map fun text => (file, text)) ↔
      file ∈ listed ∧ tree.read? file = some text := by
  rw [List.mem_filterMap]
  constructor
  · rintro ⟨found, mem, h⟩
    obtain ⟨read, hread, same⟩ := Option.map_eq_some_iff.1 h
    cases same
    exact ⟨mem, hread⟩
  · rintro ⟨mem, hread⟩
    exact ⟨file, mem, by rw [hread]; rfl⟩

/-- **The files that are gone through** are the document files. -/
theorem mem_documentFiles_iff (proper : tree.IsProper)
    (names : ∀ p ∈ excluded, FileTree.obstacleIn? p ≠ some .nullCharacter) :
    (file, text) ∈ documentFiles tree path excluded ↔
      IsDocumentFile tree path excluded file text := by
  unfold documentFiles
  obtain ⟨obstacle, hpath, failed⟩ | ⟨listed, hlisted, found⟩ :=
    filesOf_cases tree path names
  · rw [failed]
    refine iff_of_false List.not_mem_nil fun h => ?_
    obtain ⟨place, hplace⟩ := h.start
    rw [hpath] at hplace
    cases hplace
  have kept : (!(excluded.map fun p => p.absolute tree.directory).contains
      (file.absolute tree.directory)) = true ↔
        ∀ p ∈ excluded, p.absolute tree.directory ≠ file.absolute tree.directory := by
    simp
  rw [found]
  dsimp only
  rw [mem_filterMap_read?_iff, List.mem_filter, kept]
  constructor
  · rintro ⟨⟨mem, out⟩, read⟩
    cases hpath : tree.locate path with
    | error obstacle =>
      -- no file is listed at a path that leads nowhere
      unfold FileTree.filesAt at hlisted
      rw [hpath] at hlisted
      cases obstacle <;> cases hlisted <;> cases mem
    | ok place =>
      obtain ⟨ends, below⟩ := (proper.mem_filesAt_iff hpath hlisted read).1 mem
      exact ⟨⟨place, hpath⟩, below, ends, out, read⟩
  · intro h
    obtain ⟨place, hpath⟩ := h.start
    exact ⟨⟨(proper.mem_filesAt_iff hpath hlisted h.text).2 ⟨h.ending, h.below⟩, h.kept⟩, h.text⟩

/-- The files are gone through in the order of their components. -/
theorem pairwise_documentFiles (proper : tree.IsProper)
    (names : ∀ p ∈ excluded, FileTree.obstacleIn? p ≠ some .nullCharacter) :
    (documentFiles tree path excluded).Pairwise fun f g => f.1.Precedes g.1 := by
  unfold documentFiles
  obtain ⟨obstacle, -, failed⟩ | ⟨listed, hlisted, found⟩ :=
    filesOf_cases tree path names
  · rw [failed]
    exact List.Pairwise.nil
  rw [found]
  dsimp only
  rw [List.pairwise_filterMap]
  refine List.Pairwise.imp ?_ ((proper.pairwise_filesAt hlisted).sublist List.filter_sublist)
  intro p q before f hf g hg
  obtain ⟨_, _, rfl⟩ := Option.map_eq_some_iff.1 hf
  obtain ⟨_, _, rfl⟩ := Option.map_eq_some_iff.1 hg
  exact before

/-- The order in which a tree lists its files does not matter. -/
theorem ofTree_of_isReordering (proper : tree.IsProper) (same : tree.IsReordering other)
    (path : Path) (excluded : List Path) :
    ofTree other path excluded = ofTree tree path excluded := by
  unfold ofTree filesOf
  simp only [same.filesAt proper, same.directory, same.read? proper]

/-! ### What comes of the files -/

/-- The entries of some documents, which are known by their places in the list. -/
def entriesOfAll (documents : List Document) : List CollectedDocument :=
  (documents.mapIdx SharedDocument.mk).flatMap entriesOf

/-- Every entry is taken from the document as written. -/
theorem asWritten_of_mem_entriesOfAll {documents : List Document} {d : CollectedDocument}
    (h : d ∈ entriesOfAll documents) : d.asWritten = d.document := by
  obtain ⟨shared, -, hd⟩ := List.mem_flatMap.1 h
  obtain ⟨document, asWritten, -, -⟩ := document_of_mem_entriesOf hd
  rw [document, asWritten]

/-- A first failure is one of the files. -/
theorem FirstFailure.isOfFiles {known : List Use} {events : List Event}
    (h : FirstFailure known events e) : e.IsOfFiles := by
  obtain ⟨before, event, after, -, -, fails⟩ := h
  cases fails <;> trivial

/-- **What comes of the document files.** They are collected if they are clean, and have a first
failure otherwise; if the path cannot be looked at, there are none. -/
theorem ofTree_cases (tree : FileTree) (path : Path)
    (names : ∀ p ∈ excluded, FileTree.obstacleIn? p ≠ some .nullCharacter) :
    (documentFiles tree path excluded = [] ∧ ∃ obstacle, tree.locate path = .error obstacle ∧
      ofTree tree path excluded = ({}, some (.unreachable path obstacle))) ∨
    (IsClean [] (events (documentFiles tree path excluded)) ∧
      ∃ c documents, ofTree tree path excluded = (c, none) ∧
        (documentFiles tree path excluded).map (fun file => Document.parse? file.2) =
          documents.map some ∧ c.documents = entriesOfAll documents) ∨
    ∃ c e, ofTree tree path excluded = (c, some e) ∧
      FirstFailure [] (events (documentFiles tree path excluded)) e := by
  unfold ofTree documentFiles
  obtain ⟨obstacle, hpath, failed⟩ | ⟨listed, -, found⟩ := filesOf_cases tree path names
  · rw [failed]
    exact Or.inl ⟨rfl, obstacle, hpath, rfl⟩
  · right
    rw [found]
    dsimp only
    rcases h : addFiles {} 0 _ with ⟨c, _ | e⟩
    · obtain ⟨documents, parsed, collected, clean⟩ := documents_of_addFiles h List.nodup_nil
      refine Or.inl ⟨clean, c, documents, rfl, parsed, ?_⟩
      simp only [Nat.zero_add] at collected
      exact collected
    · exact Or.inr ⟨c, e, rfl, firstFailure_of_addFiles h List.nodup_nil⟩

/-- A failure of the files is their first one. -/
theorem ofTree_eq_error_iff (names : ∀ p ∈ excluded, FileTree.obstacleIn? p ≠ some .nullCharacter) :
    (ofTree tree path excluded).2 = some e ∧ e.IsOfFiles ↔
      FirstFailure [] (events (documentFiles tree path excluded)) e := by
  obtain ⟨empty, obstacle, -, result⟩ | ⟨clean, c, documents, result, -⟩ |
    ⟨c, failure, result, first⟩ := ofTree_cases tree path names
  · rw [result, empty]
    refine iff_of_false ?_ fun first => first.not_isClean (.nil List.nodup_nil)
    rintro ⟨he, ofFiles⟩
    cases he
    exact ofFiles
  · rw [result]
    exact iff_of_false (fun h => nomatch h.1) fun first => first.not_isClean clean
  · rw [result]
    constructor
    · rintro ⟨he, -⟩
      cases he
      exact first
    · intro h
      obtain rfl := first.unique h
      exact ⟨rfl, first.isOfFiles⟩

/-- The files have a failure exactly if they are not clean. -/
theorem exists_ofTree_eq_error_iff
    (names : ∀ p ∈ excluded, FileTree.obstacleIn? p ≠ some .nullCharacter) :
    (∃ e, (ofTree tree path excluded).2 = some e ∧ e.IsOfFiles) ↔
      ¬ IsClean [] (events (documentFiles tree path excluded)) := by
  constructor
  · rintro ⟨e, h⟩
    exact ((ofTree_eq_error_iff names).1 h).not_isClean
  · intro unclean
    obtain ⟨empty, -⟩ | ⟨clean, -⟩ | ⟨c, e, -, first⟩ :=
      ofTree_cases tree path names
    · rw [empty] at unclean
      exact absurd (.nil List.nodup_nil) unclean
    · exact absurd clean unclean
    · exact ⟨e, (ofTree_eq_error_iff names).2 first⟩

/-- Clean files are collected, if the path leads somewhere. -/
theorem exists_ofTree_eq_of_isClean
    (names : ∀ p ∈ excluded, FileTree.obstacleIn? p ≠ some .nullCharacter)
    (clean : IsClean [] (events (documentFiles tree path excluded))) {place : List String}
    (hplace : tree.locate path = .ok place) : ∃ c, ofTree tree path excluded = (c, none) := by
  obtain ⟨-, obstacle, hpath, -⟩ | ⟨-, c, documents, result, -⟩ | ⟨c, e, -, first⟩ :=
    ofTree_cases tree path names
  · rw [hpath] at hplace
    cases hplace
  · exact ⟨c, result⟩
  · exact absurd clean first.not_isClean

/-- A tree with documents in two directories, and the file of a schema beside them. -/
def mixedTree : FileTree :=
  ((((FileTree.empty []).put ["b.gql"] (.file "query B \x7b a \x7d")).put ["a-b.gql"]
    (.file "\x7b a \x7d fragment F on T \x7b a \x7d")).put ["a", "x.graphql"]
      (.file "query A \x7b a \x7d type T \x7b a: ID \x7d")).put ["s.graphql"]
        (.file "query B \x7b a \x7d")
    |>.put ["a"] .directory

theorem isProper_mixedTree : mixedTree.IsProper := by
  refine FileTree.IsProper.put ?_ (by simp) (by decide +kernel) _
  refine FileTree.IsProper.put ?_ (by simp) (by decide +kernel) _
  refine FileTree.IsProper.put ?_ (by simp) (by decide +kernel) _
  refine FileTree.IsProper.put ?_ (by simp) (by decide +kernel) _
  exact FileTree.IsProper.put (FileTree.isProper_empty _) (by simp) (by decide +kernel) _

/-- The same tree, listed the other way round. -/
def mixedTreeReversed : FileTree := { mixedTree with entries := mixedTree.entries.reverse }

end Collection

end QueryTypes
