import QueryTypes.Proofs.Run.Failures

/-!
# What the generator of shapes is asked

The generator of internal shapes may keep a state of its own, such as a memory of what it was asked.
`QueryTypes.Run.generateAsking` is a run with such a generator; one that keeps nothing gives the run
as it is (`QueryTypes.Run.generateAsking_of_pure`). How often the generator is called, and with
what, shows in the state in which a run leaves it: that of one call with the scrubbed documents,
unless two documents have one file (`QueryTypes.Run.generateAsking_of_noClash`).

The documents are those behind the entries that need a store, each once, in the order of the first
such entry (`QueryTypes.Run.asks_once`). Documents are told apart by the numbers they are known by,
so two that are equal are asked for both.
-/

namespace QueryTypes

namespace Run

variable {σ ε τ : Type}

/-! ### A generator with a state -/

/-- A generator of internal shapes that keeps a state. -/
abbrev AskedShapes (τ : Type) := τ → List GraphQL.Document → τ × Except ShapeError String

/-- Asks for the internal shapes and writes them. -/
def writeShapesAsking (shapes : AskedShapes τ) (output : Output σ ε) (context : RunContext)
    (state : σ × τ) (documents : List CollectedDocument) : (σ × τ) × Except (RunError ε) Unit :=
  let scrubbed := scrubbedDocuments context.settings documents
  let reported := output.report state.1 (report .debug
    ("Generating internal shapes for " ++ toString scrubbed.length ++ " documents"))
  match shapes state.2 scrubbed with
  | (asked, .error e) => ((reported, asked), .error (.shapes e))
  | (asked, .ok text) =>
    let (next, result) := writeFile output context reported context.settings.internalFile text
    ((next, asked), result)

/-- The whole run, with a generator of internal shapes that keeps a state. -/
def generateAsking (shapes : AskedShapes τ) (output : Output σ ε) (context : RunContext)
    (state : σ × τ) (documents : List CollectedDocument) :
    (σ × τ) × Except (RunError ε) (List Path) :=
  let kept := context.hooks.runPre documents
  let reported := output.report state.1 (report .info
    ("Generating types for " ++ toString kept.length ++ " documents"))
  let wanted := kept.filter fun d => d.generateArtifact
  match firstClash context.settings [] wanted with
  | some (first, second) =>
    ((reported, state.2), .error (.clash first second (context.settings.artifactFile second.name)))
  | none =>
    match writeShapesAsking shapes output context (reported, state.2) kept with
    | (state, .error e) => (state, .error e)
    | ((next, asked), .ok _) =>
      let (next, results) := writeArtifacts output context next wanted
      match firstFailure results with
      | .error e => ((next, asked), .error e)
      | .ok paths =>
        let (last, result) := writeIndex output context next paths
        ((last, asked), result)

variable {output : Output σ ε} {context : RunContext} {documents : List CollectedDocument}

/-- Writing a file has nothing to do with the generator of internal shapes. -/
theorem writeFile_withShapes (shapes : List GraphQL.Document → Except ShapeError String)
    (state : σ) (path : Path) (text : String) :
    writeFile output { context with shapes := shapes } state path text =
      writeFile output context state path text := rfl

theorem writeIndex_withShapes (shapes : List GraphQL.Document → Except ShapeError String)
    (state : σ) (paths : List Path) :
    writeIndex output { context with shapes := shapes } state paths =
      writeIndex output context state paths := rfl

theorem writeArtifacts_withShapes (shapes : List GraphQL.Document → Except ShapeError String)
    (state : σ) (documents : List CollectedDocument) :
    writeArtifacts output { context with shapes := shapes } state documents =
      writeArtifacts output context state documents := by
  induction documents generalizing state with
  | nil => rfl
  | cons d rest ih =>
    rw [writeArtifacts_cons, writeArtifacts_cons, ih]
    rfl

/-- **A generator is called once**, with the scrubbed documents, if no two documents have one file:
this call leads from the state in which the run finds it to the one in which the run leaves it, and
for the rest only its answer matters. -/
theorem generateAsking_of_noClash (shapes : AskedShapes τ)
    (clash : firstClash context.settings []
      ((context.hooks.runPre documents).filter fun d => d.generateArtifact) = none)
    (state : σ) (asked : τ) :
    generateAsking shapes output context (state, asked) documents =
      let answered := generate output
        { context with shapes := fun scrubbed => (shapes asked scrubbed).2 } state documents
      ((answered.1, (shapes asked
        (scrubbedDocuments context.settings (context.hooks.runPre documents))).1), answered.2) := by
  unfold generateAsking generate writeShapesAsking writeShapes
  simp only [clash, writeFile_withShapes, writeArtifacts_withShapes, writeIndex_withShapes]
  rcases shapes asked (scrubbedDocuments context.settings (context.hooks.runPre documents)) with
    ⟨next, e | text⟩
  · rfl
  · dsimp only
    rcases writeFile output context _ context.settings.internalFile text with ⟨written, e | done⟩
    · rfl
    · dsimp only
      cases firstFailure (writeArtifacts output context written
        ((context.hooks.runPre documents).filter fun d => d.generateArtifact)).2 <;> rfl

/-- **A generator that keeps nothing** gives the run as it is. -/
theorem generateAsking_of_pure (state : σ) (asked : τ) (documents : List CollectedDocument) :
    generateAsking (fun asked scrubbed => (asked, context.shapes scrubbed)) output context
        (state, asked) documents =
      (((generate output context state documents).1, asked),
        (generate output context state documents).2) := by
  cases clash : firstClash context.settings []
    ((context.hooks.runPre documents).filter fun d => d.generateArtifact) with
  | some pair => simp only [generateAsking, generate, clash]
  | none => exact generateAsking_of_noClash _ clash state asked

/-- A generator that keeps the lists of documents that it was given, in the order of the calls. -/
def logged (shapes : List GraphQL.Document → Except ShapeError String) :
    AskedShapes (List (List GraphQL.Document)) :=
  fun calls scrubbed => (calls ++ [scrubbed], shapes scrubbed)

/-! ### The documents asked for -/

/-- The place of the first entry of a list that needs a store and has the document of this
number. -/
def firstStore (entries : List CollectedDocument) (id : Nat) : Nat :=
  entries.findIdx fun d => d.generateStore && d.document.id == id

/-- **The documents that some entries ask for.** -/
structure IsAsked (entries : List CollectedDocument) (sources : List SharedDocument) : Prop where
  /-- They are those behind the entries that need a store. -/
  mem_iff : ∀ shared, shared ∈ sources ↔
    ∃ d ∈ entries, d.generateStore = true ∧ d.document = shared
  /-- Each is there once. -/
  ids_nodup : (sources.map SharedDocument.id).Nodup
  /-- They are in the order of the first entries that need a store. -/
  ordered : sources.Pairwise fun a b => firstStore entries a.id < firstStore entries b.id

theorem firstStore_cons_self {d : CollectedDocument} (store : d.generateStore = true)
    (rest : List CollectedDocument) : firstStore (d :: rest) d.document.id = 0 := by
  simp [firstStore, List.findIdx_cons, store]

/-- An entry that needs no store, or has another document, only moves the places of the others. -/
theorem firstStore_cons_of_not {d : CollectedDocument} {id : Nat}
    (other : d.generateStore = true → d.document.id ≠ id) (rest : List CollectedDocument) :
    firstStore (d :: rest) id = firstStore rest id + 1 := by
  have no : (d.generateStore && d.document.id == id) = false := by
    simpa only [Bool.and_eq_false_imp, beq_eq_false_iff_ne] using other
  rw [firstStore, List.findIdx_cons, no]
  rfl

/-- **The shaped documents are in the order of the first entries that need a store**, whatever
documents were met before. -/
theorem storeDocuments_pairwise (seen : List Nat) (entries : List CollectedDocument) :
    (storeDocuments seen entries).Pairwise fun a b =>
      firstStore entries a.id < firstStore entries b.id := by
  induction entries generalizing seen with
  | nil => exact List.Pairwise.nil
  | cons d rest ih =>
    -- the documents of the rest keep their order, if the first entry has none of them
    have moved : ∀ ids : List Nat,
        (∀ b ∈ storeDocuments ids rest, d.generateStore = true → d.document.id ≠ b.id) →
        (storeDocuments ids rest).Pairwise fun a b =>
          firstStore (d :: rest) a.id < firstStore (d :: rest) b.id := by
      intro ids others
      refine (ih ids).imp_of_mem fun {a b} ha hb before => ?_
      rw [firstStore_cons_of_not (others a ha), firstStore_cons_of_not (others b hb)]
      exact Nat.succ_lt_succ before
    rw [storeDocuments]
    split
    · next chosen =>
      have others : ∀ b ∈ storeDocuments (d.document.id :: seen) rest,
          d.generateStore = true → d.document.id ≠ b.id := fun b hb _ same =>
        (nodup_ids_storeDocuments _ rest).2 b hb (same ▸ List.mem_cons_self ..)
      refine List.pairwise_cons.2 ⟨fun b hb => ?_, moved _ others⟩
      rw [firstStore_cons_self chosen.1, firstStore_cons_of_not (others b hb)]
      exact Nat.succ_pos _
    · next left =>
      refine moved seen fun b hb store same => ?_
      exact (nodup_ids_storeDocuments seen rest).2 b hb
        (same ▸ not_not.1 fun new => left ⟨store, new⟩)

/-- The shaped documents are those that are asked for. -/
theorem isAsked_storeDocuments {entries : List CollectedDocument} (sharing : Sharing entries) :
    IsAsked entries (storeDocuments [] entries) where
  mem_iff shared := by
    constructor
    · exact exists_of_mem_storeDocuments
    · rintro ⟨d, hd, store, rfl⟩
      exact document_mem_storeDocuments sharing hd store
  ids_nodup := (nodup_ids_storeDocuments [] entries).1
  ordered := storeDocuments_pairwise [] entries

/-- **What some entries ask for is determined**, and so is its order. -/
theorem IsAsked.unique {entries : List CollectedDocument} {sources others : List SharedDocument}
    (h : IsAsked entries sources) (h' : IsAsked entries others) : sources = others := by
  have same : sources.Perm others :=
    (List.perm_ext_iff_of_nodup h.ids_nodup.of_map h'.ids_nodup.of_map).2 fun shared =>
      (h.mem_iff shared).trans (h'.mem_iff shared).symm
  exact same.eq_of_pairwise (fun _ _ _ _ before after => absurd before (Nat.lt_asymm after))
    h.ordered h'.ordered

/-- **A run asks for its shapes exactly once**, whatever entries the step that asks is handed. The
call is with the scrubbed forms of the documents behind the entries that need a store, each document
once, in the order of the first such entries. If no two documents have one file, this is the only
call of the whole run, which with its calls kept does what it does. -/
theorem asks_once (sharing : Sharing (context.hooks.runPre documents)) (output : Output σ ε)
    (state : σ) :
    ∃ sources, IsAsked (context.hooks.runPre documents) sources ∧
      (∀ calls, (writeShapesAsking (logged context.shapes) output context (state, calls)
        (context.hooks.runPre documents)).1.2 =
          calls ++ [sources.map fun shared =>
            shared.document.scrub context.settings.isInternal]) ∧
      ((artifactFiles context (wanted context documents)).Nodup →
        generateAsking (logged context.shapes) output context (state, []) documents =
          (((generate output context state documents).1, [sources.map fun shared =>
            shared.document.scrub context.settings.isInternal]),
            (generate output context state documents).2)) := by
  refine ⟨_, isAsked_storeDocuments sharing, fun calls => ?_, fun distinct => ?_⟩
  · unfold writeShapesAsking logged
    dsimp only
    cases context.shapes (scrubbedDocuments context.settings (context.hooks.runPre documents)) <;>
      rfl
  · exact generateAsking_of_noClash (logged context.shapes) (firstClash_of_distinct distinct)
      state []

/-! ### A run that is asked for documents more than once -/

/-- A document with a directive that never leaves this tool. -/
def markedDocument : GraphQL.Document := ⟨[.fragment ⟨none, "F", "Query", [⟨"list", []⟩], []⟩]⟩

/-- Documents of which all but one are equal. -/
def numberedDocument (id : Nat) : SharedDocument :=
  ⟨id, if id = 2 then faultyShared.document else markedDocument⟩

/-- An entry of such a document. -/
def numberedEntry (name : String) (id : Nat) : CollectedDocument :=
  { name := name, kind := .fragment, document := numberedDocument id }

/-- Entries of three documents. The first only gets type definitions, and another gets none. -/
def numberedEntries : List CollectedDocument :=
  [{ numberedEntry "A" 0 with generateStore := false }, numberedEntry "B" 2, numberedEntry "C" 0,
    { numberedEntry "D" 1 with generateArtifact := false }, numberedEntry "E" 2]

/-- The call is with the document of the second entry first, and with both equal ones. -/
theorem asks_once_numbered : Sharing (faultyContext.hooks.runPre numberedEntries) ∧
    (artifactFiles faultyContext (wanted faultyContext numberedEntries)).Nodup ∧
    (generateAsking (logged faultyContext.shapes) (refusing faults) faultyContext ((), [])
      numberedEntries).1.2 = [[2, 0, 1].map fun id =>
        (numberedDocument id).document.scrub faultyContext.settings.isInternal] := by
  have sharing : Sharing (faultyContext.hooks.runPre numberedEntries) := by
    have each : ∀ d ∈ numberedEntries, d.document = numberedDocument d.document.id := by
      simp [numberedEntries, numberedEntry, numberedDocument]
    intro c hc d hd same
    rw [each c hc, each d hd, same]
  have distinct : (artifactFiles faultyContext (wanted faultyContext numberedEntries)).Nodup := by
    decide +kernel
  obtain ⟨sources, asked, -, run⟩ := asks_once sharing (refusing faults) ()
  obtain rfl : [2, 0, 1].map numberedDocument = sources :=
    (isAsked_storeDocuments sharing).unique asked
  rw [run distinct, List.map_map]
  exact ⟨sharing, distinct, rfl⟩

end Run

end QueryTypes
