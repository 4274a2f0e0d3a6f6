import Mathlib.Data.List.Forall2
import QueryTypes.Proofs.Run.Failures

/-!
# What is shaped and what is written of a document

An entry of a run carries two documents. One is scrubbed and goes into the internal shapes, the
other is the document as written, and from it come the type definitions of the entry. Neither has a
say in what is made from the other, and two runs show it.

* If the entries of two runs differ only in the documents that are shaped
  (`QueryTypes.CollectedDocument.SameOriginal`), then after the internal shapes both runs write the
  same files and answer the same: all that is left to do is `QueryTypes.Run.afterShapes`, and no
  shaped document occurs in it.
* If they differ only in the documents as written (`QueryTypes.CollectedDocument.SameShaped`), then
  the same documents are shaped, and the same internal shapes are written. What fails after that may
  differ; a run that does not get that far fails with one message either way.

The first comparison asks nothing about numbers of documents, the second asks that entries share
documents in one run as they do in the other (`QueryTypes.Run.SharedAlike`). Filters are functions
of the whole entry, so they must not tell entries that correspond apart. Those that go by names and
kinds do not (`QueryTypes.CollectedDocument.KeptAlike.addPre`).
-/

namespace QueryTypes

/-! ### Entries that differ in one of their documents -/

namespace CollectedDocument

/-- Entries that have all but their documents in common. -/
structure SameLabel (c d : CollectedDocument) : Prop where
  /-- They have one name. -/
  name : c.name = d.name
  /-- They are of one kind. -/
  kind : c.kind = d.kind
  /-- Both take part in the internal shapes, or neither does. -/
  generateStore : c.generateStore = d.generateStore
  /-- Both get type definitions, or neither does. -/
  generateArtifact : c.generateArtifact = d.generateArtifact

/-- Entries that differ at most in the document that is shaped. -/
structure SameOriginal (c d : CollectedDocument) : Prop extends SameLabel c d where
  /-- Both are written alike. -/
  asWritten : c.asWritten.document = d.asWritten.document

/-- Entries that differ at most in the document as written, and in the numbers that their documents
are known by. -/
structure SameShaped (c d : CollectedDocument) : Prop extends SameLabel c d where
  /-- The same is shaped. -/
  document : c.document.document = d.document.document

/-- No filter tells two entries apart. -/
def KeptAlike (hooks : Hooks) (c d : CollectedDocument) : Prop :=
  ∀ passes ∈ hooks.pre, passes c = passes d

/-- Filters on names and kinds do not tell entries of one label apart. -/
theorem KeptAlike.addPre {hooks : Hooks} {c d : CollectedDocument} (h : KeptAlike hooks c d)
    (same : SameLabel c d) (filter : DocumentFilter) : KeptAlike (hooks.addPre filter) c d := by
  intro passes hp
  rcases List.mem_append.1 hp with hp | hp
  · exact h passes hp
  · rw [List.mem_singleton.1 hp]
    dsimp only
    rw [same.name, same.kind]

/-- An entry without its documents. -/
def outline (d : CollectedDocument) : CollectedDocument :=
  { d with document := default, asWritten := default }

theorem name_outline (d : CollectedDocument) : d.outline.name = d.name := rfl

theorem describe_outline (d : CollectedDocument) : d.outline.describe = d.describe := rfl

theorem SameLabel.outline_eq {c d : CollectedDocument} (h : SameLabel c d) :
    c.outline = d.outline := by
  obtain ⟨name, kind, document, asWritten, store, artifact⟩ := c
  obtain ⟨rfl, rfl, rfl, rfl⟩ := h
  rfl

end CollectedDocument

open CollectedDocument

variable {R : CollectedDocument → CollectedDocument → Prop}
  {documents others : List CollectedDocument}

/-- What is kept of two lists corresponds as the lists do, if no filter tells entries apart that
correspond. -/
theorem Hooks.forall₂_runPre {hooks : Hooks}
    (h : List.Forall₂ (fun c d => R c d ∧ KeptAlike hooks c d) documents others) :
    List.Forall₂ R (hooks.runPre documents) (hooks.runPre others) := by
  unfold KeptAlike at h
  unfold runPre
  generalize hooks.pre = filters at h
  induction filters generalizing documents others with
  | nil => exact h.imp fun _ _ same => same.1
  | cons passes rest ih =>
    refine ih (List.Forall₂.imp (fun _ _ same => ⟨same.1, fun other ho =>
      same.2 other (List.mem_cons_of_mem _ ho)⟩) (List.rel_filter ?_ h))
    intro c d same
    exact iff_of_eq (congrArg (· = true) (same.2 passes (List.mem_cons_self ..)))

/-- What is computed alike from entries that correspond is computed alike from the lists. -/
theorem map_eq_of_forall₂ {α : Type} {f : CollectedDocument → α} (hf : ∀ c d, R c d → f c = f d)
    (h : List.Forall₂ R documents others) : documents.map f = others.map f := by
  induction h with
  | nil => rfl
  | cons same _ ih => rw [List.map_cons, List.map_cons, hf _ _ same, ih]

namespace Run

variable {σ ε : Type} {output : Output σ ε} {context : RunContext} {fails : Path → Option ε}

/-- The documents that get type definitions correspond as the lists do. -/
theorem forall₂_wanted (hR : ∀ c d, R c d → SameLabel c d)
    (h : List.Forall₂ (fun c d => R c d ∧ KeptAlike context.hooks c d) documents others) :
    List.Forall₂ R (wanted context documents) (wanted context others) :=
  List.rel_filter (fun c d same => iff_of_eq (congrArg (· = true) (hR c d same).generateArtifact))
    (Hooks.forall₂_runPre h)

/-! ### After the internal shapes -/

/-- **The turn of a document consults its original only.** -/
theorem turn_eq_of_sameOriginal {c d : CollectedDocument} (h : SameOriginal c d) :
    turn context fails c = turn context fails d := by
  obtain ⟨⟨name, kind, -, -⟩, asWritten⟩ := h
  unfold turn artifactProgram finishedArtifact
  rw [name, kind, asWritten]

/-- **What is left to do after the internal shapes** depends on the originals only. -/
theorem afterShapes_congr
    (h : List.Forall₂ (fun c d => SameOriginal c d ∧ KeptAlike context.hooks c d)
      documents others) :
    afterShapes context fails documents = afterShapes context fails others := by
  have same := forall₂_wanted (fun c d (same : SameOriginal c d) => same.toSameLabel) h
  have turns : (wanted context documents).map (turn context fails) =
      (wanted context others).map (turn context fails) :=
    map_eq_of_forall₂ (fun c d => turn_eq_of_sameOriginal) same
  have results : ((wanted context documents).map fun d =>
      (turn context fails d).map fun _ => context.settings.artifactFile d.name) =
        (wanted context others).map fun d =>
          (turn context fails d).map fun _ => context.settings.artifactFile d.name :=
    map_eq_of_forall₂ (fun c d same => by rw [turn_eq_of_sameOriginal same, same.name]) same
  have files : (wanted context documents).filterMap (fun d => (turn context fails d).toOption) =
      (wanted context others).filterMap fun d => (turn context fails d).toOption :=
    List.filterMap_map.symm.trans ((congrArg (List.filterMap Except.toOption) turns).trans
      List.filterMap_map)
  unfold afterShapes
  rw [files, results]

/-! ### Up to the internal shapes -/

/-- Entries share the document that is shaped in one list as they do in the other. -/
def SharedAlike (documents others : List CollectedDocument) : Prop :=
  ∀ p ∈ documents.zip others, ∀ q ∈ documents.zip others,
    p.1.document.id = q.1.document.id ↔ p.2.document.id = q.2.document.id

instance (documents others : List CollectedDocument) : Decidable (SharedAlike documents others) :=
  inferInstanceAs (Decidable (∀ p ∈ documents.zip others, ∀ q ∈ documents.zip others,
    p.1.document.id = q.1.document.id ↔ p.2.document.id = q.2.document.id))

/-- Lists that share alike are searched alike, from numbers seen on that stand for the same entries
on both sides. -/
theorem map_document_storeDocuments_congr {all : List (CollectedDocument × CollectedDocument)}
    (shared : ∀ p ∈ all, ∀ q ∈ all,
      p.1.document.id = q.1.document.id ↔ p.2.document.id = q.2.document.id)
    (h : List.Forall₂ (fun c d => SameShaped c d ∧ (c, d) ∈ all) documents others)
    {seen seen' : List Nat}
    (known : ∀ p ∈ all, p.1.document.id ∈ seen ↔ p.2.document.id ∈ seen') :
    (storeDocuments seen documents).map SharedDocument.document =
      (storeDocuments seen' others).map SharedDocument.document := by
  induction h generalizing seen seen' with
  | nil => rfl
  | @cons c d documents others same _ ih =>
    obtain ⟨same, pair⟩ := same
    have new : (c.generateStore = true ∧ c.document.id ∉ seen) ↔
        (d.generateStore = true ∧ d.document.id ∉ seen') := by
      rw [same.generateStore, known (c, d) pair]
    rw [storeDocuments, storeDocuments]
    by_cases store : d.generateStore = true ∧ d.document.id ∉ seen'
    · rw [if_pos (new.2 store), if_pos store, List.map_cons, List.map_cons, same.document]
      refine congrArg _ (ih fun p hp => ?_)
      rw [List.mem_cons, List.mem_cons, known p hp, shared p hp (c, d) pair]
    · rw [if_neg (mt new.1 store), if_neg store]
      exact ih known

/-- **The generator of shapes is given the same documents**, whatever is written in the
originals. -/
theorem scrubbedDocuments_congr
    (h : List.Forall₂ (fun c d => SameShaped c d ∧ KeptAlike context.hooks c d) documents others)
    (shared : SharedAlike documents others) :
    scrubbedDocuments context.settings (context.hooks.runPre documents) =
      scrubbedDocuments context.settings (context.hooks.runPre others) := by
  obtain ⟨length, pairs⟩ := List.forall₂_iff_zip.1 h
  have placed : List.Forall₂ (fun c d => (SameShaped c d ∧ (c, d) ∈ documents.zip others) ∧
      KeptAlike context.hooks c d) documents others :=
    List.forall₂_iff_zip.2 ⟨length, fun hm => ⟨⟨(pairs hm).1, hm⟩, (pairs hm).2⟩⟩
  have unseen : ∀ p ∈ documents.zip others,
      p.1.document.id ∈ ([] : List Nat) ↔ p.2.document.id ∈ ([] : List Nat) :=
    fun _ _ => iff_of_false List.not_mem_nil List.not_mem_nil
  have same := map_document_storeDocuments_congr shared (Hooks.forall₂_runPre placed) unseen
  unfold scrubbedDocuments
  simpa only [List.map_map, Function.comp_def] using
    congrArg (List.map (GraphQL.Document.scrub context.settings.isInternal)) same

/-- Clashes are found by names. -/
theorem firstClash_map {settings : Settings} {f : CollectedDocument → CollectedDocument}
    (hf : ∀ d, (f d).name = d.name) (before documents : List CollectedDocument) :
    firstClash settings (before.map f) (documents.map f) =
      (firstClash settings before documents).map (Prod.map f f) := by
  induction documents generalizing before with
  | nil => rfl
  | cons d rest ih =>
    have next := ih (before ++ [d])
    rw [List.map_append, List.map_singleton] at next
    rw [List.map_cons, firstClash, firstClash, List.find?_map, hf, next]
    simp only [Function.comp_def, hf]
    cases before.find? fun other =>
      decide (settings.artifactFile other.name = settings.artifactFile d.name) <;> rfl

/-- **Two runs start alike**: both write the same internal shapes first, or neither writes anything,
and they fail with the same message. -/
inductive StartAlike (context : RunContext) :
    (σ × List Written) × Except (RunError ε) (List Path) →
      (σ × List Written) × Except (RunError ε) (List Path) → Prop where
  /-- Both write the same internal shapes first. -/
  | shaped {next next' : σ} {text : String} {later later' : List Written}
    {result result' : Except (RunError ε) (List Path)} :
    StartAlike context
      ((next, finishedFile context context.settings.internalFile text :: later), result)
      ((next', finishedFile context context.settings.internalFile text :: later'), result')
  /-- Neither writes anything. -/
  | failed {next next' : σ} {e e' : RunError ε}
    (same : ∀ describe, e.message describe = e'.message describe) :
    StartAlike context ((next, []), .error e) ((next', []), .error e')

section Shaped

variable (h : List.Forall₂ (fun c d => SameShaped c d ∧ KeptAlike context.hooks c d)
  documents others)
include h

/-- The same clash is found, if any, but for the documents of the entries. -/
theorem firstClash_congr : (firstClash context.settings [] (wanted context documents)).map
    (Prod.map outline outline) = (firstClash context.settings [] (wanted context others)).map
      (Prod.map outline outline) := by
  have outlines : (wanted context documents).map outline = (wanted context others).map outline :=
    map_eq_of_forall₂ (fun c d same => same.toSameLabel.outline_eq)
      (forall₂_wanted (fun c d (same : SameShaped c d) => same.toSameLabel) h)
  rw [← firstClash_map name_outline, ← firstClash_map name_outline, outlines]

/-- **Both runs get past their internal shapes, or neither does.** -/
theorem getsPastShapes_congr (shared : SharedAlike documents others) {text : String} :
    GetsPastShapes context fails documents text ↔ GetsPastShapes context fails others text := by
  have files : artifactFiles context (wanted context documents) =
      artifactFiles context (wanted context others) :=
    map_eq_of_forall₂ (fun c d same => by rw [same.name])
      (forall₂_wanted (fun c d (same : SameShaped c d) => same.toSameLabel) h)
  have shapes : internalShapes context documents = internalShapes context others := by
    rw [internalShapes, internalShapes, scrubbedDocuments_congr h shared]
  exact ⟨fun past => ⟨files ▸ past.distinct, shapes ▸ past.shapes, past.written⟩,
    fun past => ⟨files.symm ▸ past.distinct, shapes.symm ▸ past.shapes, past.written⟩⟩

/-- **Runs with the same documents to shape start alike.** -/
theorem startAlike_of_sameShaped (hw : output.FailsAt fails)
    (shared : SharedAlike documents others) (state : σ) :
    StartAlike context (generate output.recorded context (state, []) documents)
      (generate output.recorded context (state, []) others) := by
  have clashes := firstClash_congr h
  have shapes : internalShapes context documents = internalShapes context others := by
    rw [internalShapes, internalShapes, scrubbedDocuments_congr h shared]
  cases hclash : firstClash context.settings [] (wanted context documents) with
  | some pair =>
    obtain ⟨first, second⟩ := pair
    rw [hclash] at clashes
    obtain ⟨⟨first', second'⟩, hclash', pairs⟩ := Option.map_eq_some_iff.1 clashes.symm
    obtain ⟨hfirst, hsecond⟩ := Prod.mk.inj pairs
    obtain ⟨next, hnext⟩ := generate_of_firstClash output hclash state
    obtain ⟨next', hnext'⟩ := generate_of_firstClash output hclash' state
    rw [hnext, hnext']
    refine .failed fun describe => ?_
    rw [RunError.message, RunError.message, ← describe_outline first, ← describe_outline second,
      ← name_outline second, ← hfirst, ← hsecond]
    rfl
  | none =>
    have hclash' : firstClash context.settings [] (wanted context others) = none := by
      rw [hclash] at clashes
      exact Option.map_eq_none_iff.1 clashes.symm
    have distinct := (firstClash_eq_none_iff.1 hclash).1
    have distinct' := (firstClash_eq_none_iff.1 hclash').1
    cases hshapes : internalShapes context documents with
    | error e =>
      obtain ⟨next, hnext⟩ := exists_generate_of_ends hw (.noShapes distinct hshapes) state
      obtain ⟨next', hnext'⟩ :=
        exists_generate_of_ends hw (.noShapes distinct' (shapes ▸ hshapes)) state
      rw [hnext, hnext']
      exact .failed fun _ => rfl
    | ok text =>
      cases hfile : fails context.settings.internalFile with
      | some cause =>
        obtain ⟨next, hnext⟩ :=
          exists_generate_of_ends hw (.noInternalFile distinct hshapes hfile) state
        obtain ⟨next', hnext'⟩ := exists_generate_of_ends hw
          (.noInternalFile distinct' (shapes ▸ hshapes) hfile) state
        rw [hnext, hnext']
        exact .failed fun _ => rfl
      | none =>
        obtain ⟨next, hnext⟩ :=
          generate_of_getsPastShapes hw ⟨distinct, hshapes, hfile⟩ state
        obtain ⟨next', hnext'⟩ :=
          generate_of_getsPastShapes hw ⟨distinct', shapes ▸ hshapes, hfile⟩ state
        rw [hnext, hnext']
        exact .shaped

end Shaped

/-! ### Both comparisons -/

/-- A run that keeps fragments, and whose internal shapes tell how many documents are shaped. -/
def countingContext : RunContext :=
  { faultyContext with
    hooks := ({} : Hooks).addPre { kinds := some [.fragment] }
    shapes := fun documents => .ok (toString documents.length) }

/-- An entry that is shaped on its own, though it is written together with others. -/
def shapedApart (name : String) : CollectedDocument :=
  { faultyEntry name with document := ⟨1, ⟨[]⟩⟩ }

/-- An entry that is shaped together with others, and not to be found where it was written. -/
def writtenApart (name : String) : CollectedDocument :=
  { faultyEntry name with asWritten := ⟨1, ⟨[]⟩⟩ }

theorem keptAlike_counting {c d : CollectedDocument} (same : SameLabel c d) :
    KeptAlike countingContext.hooks c d := by
  have unfiltered : KeptAlike {} c d := fun _ hp => nomatch hp
  exact unfiltered.addPre same _

end Run

end QueryTypes
