import QueryTypes.Proofs.GraphQL.Spreads
import QueryTypes.Shape.Batch

/-!
# Inlined fragments

A batch in which every spread is replaced by an inline fragment with the selections of the
fragment (`QueryTypes.Shape.inlined`) has no spreads left, so there is nothing in it to mask. Its
shapes are those of the batch as written without masking (`QueryTypes.Shape.program_inlined`): a
spread that is opened and an inline fragment add the same members, at every depth and along every
chain of spreads, and they fail alike.

Replacing goes as far as chains of spreads lead. It is enough to follow so many spreads as there
are fragments, as long as none spreads itself (`QueryTypes.Shape.chainsEnd_of_acyclic`).
-/

namespace QueryTypes

open GraphQL (Acyclic acyclic_of_rank Definition Directive Document Fragment Selection)

/-! ### Replacing spreads -/

namespace GraphQL

mutual

/-- A selection with something else in place of each spread. -/
def Selection.mapSpreads (replace : String → List Directive → Selection) : Selection → Selection
  | .field responseName name arguments directives none =>
    .field responseName name arguments directives none
  | .field responseName name arguments directives (some selections) =>
    .field responseName name arguments directives (some (mapSpreadsInAll replace selections))
  | .spread fragment directives => replace fragment directives
  | .inlineFragment condition directives selections =>
    .inlineFragment condition directives (mapSpreadsInAll replace selections)

/-- Some selections with something else in place of each spread. -/
def Selection.mapSpreadsInAll (replace : String → List Directive → Selection) :
    List Selection → List Selection
  | [] => []
  | selection :: rest => selection.mapSpreads replace :: mapSpreadsInAll replace rest

end

/-- A definition that selects something else. -/
def Definition.mapSelections (change : List Selection → List Selection) :
    Definition → Definition
  | .operation o => .operation { o with selections := change o.selections }
  | .fragment f => .fragment { f with selections := change f.selections }
  | d => d

section MapSpreads

variable {replace : String → List Directive → Selection}

mutual

theorem Selection.spreads_mapSpreads : ∀ s : Selection,
    (∀ name ∈ s.spreads, ∀ directives, (replace name directives).spreads = []) →
      (s.mapSpreads replace).spreads = []
  | .field _ _ _ _ none, _ => by rw [mapSpreads, spreads]
  | .field _ _ _ _ (some selections), h => by
    rw [spreads] at h
    rw [mapSpreads, spreads]
    exact spreadsInAll_mapSpreadsInAll selections h
  | .spread fragment directives, h => by
    rw [spreads] at h
    rw [mapSpreads]
    exact h fragment (List.mem_singleton_self _) directives
  | .inlineFragment _ _ selections, h => by
    rw [spreads] at h
    rw [mapSpreads, spreads]
    exact spreadsInAll_mapSpreadsInAll selections h

/-- No spreads are left if there are none in what takes their place. -/
theorem Selection.spreadsInAll_mapSpreadsInAll : ∀ selections : List Selection,
    (∀ name ∈ spreadsInAll selections, ∀ directives, (replace name directives).spreads = []) →
      spreadsInAll (mapSpreadsInAll replace selections) = []
  | [], _ => by rw [mapSpreadsInAll, spreadsInAll]
  | s :: rest, h => by
    rw [spreadsInAll] at h
    rw [mapSpreadsInAll, spreadsInAll,
      spreads_mapSpreads s fun name hn => h name (List.mem_append_left _ hn),
      spreadsInAll_mapSpreadsInAll rest fun name hn => h name (List.mem_append_right _ hn),
      List.append_nil]

end

end MapSpreads

end GraphQL

namespace Shape

/-! ### Inlining -/

/-- What takes the place of a spread: an inline fragment with the selections of the fragment, in
which spreads are replaced in turn, as far as a chain of so many spreads leads. What becomes of the
directives of the spread is up to `guards`. -/
def inlinedSpread (guards : List Directive → List Directive) (fragments : List Fragment) :
    Nat → String → List Directive → Selection
  | 0, name, directives => .spread name directives
  | depth + 1, name, directives => match findFragment? fragments name with
    | none => .spread name directives
    | some fragment => .inlineFragment (some fragment.condition) (guards directives)
        (Selection.mapSpreadsInAll (inlinedSpread guards fragments depth) fragment.selections)

/-- **A batch with the selections of fragments in place of their spreads.** -/
def inlined (guards : List Directive → List Directive) (documents : List Document) :
    List Document :=
  let fragments := documents.flatMap Document.fragments
  documents.map fun document => ⟨document.definitions.map (Definition.mapSelections
    (Selection.mapSpreadsInAll (inlinedSpread guards fragments fragments.length)))⟩

/-- Every chain of spreads that begins with one of some fragments ends within so many spreads, and
all fragments on it are known. -/
def EndsWithin (fragments : List Fragment) : Nat → List String → Prop
  | 0, names => names = []
  | depth + 1, names => ∀ name ∈ names, ∃ fragment, findFragment? fragments name = some fragment ∧
      EndsWithin fragments depth (Selection.spreadsInAll fragment.selections)

/-- Every chain of spreads that begins with one of some names ends within so many spreads, at the
latest where a name is not known. -/
def ChainsEnd (fragments : List Fragment) : Nat → List String → Prop
  | 0, names => ∀ name ∈ names, findFragment? fragments name = none
  | depth + 1, names => ∀ name ∈ names, ∀ fragment, findFragment? fragments name = some fragment →
      ChainsEnd fragments depth (Selection.spreadsInAll fragment.selections)

section Chains

variable {fragments : List Fragment}

theorem mem_of_findFragment? {name : String} {fragment : Fragment}
    (h : findFragment? fragments name = some fragment) :
    fragment ∈ fragments ∧ fragment.name = name := by
  have name := List.find?_some h
  exact ⟨List.mem_reverse.1 (List.mem_of_find?_eq_some h), of_decide_eq_true name⟩

/-- A name that a fragment has can be looked up. -/
theorem exists_findFragment? {name : String} (h : ∃ f ∈ fragments, f.name = name) :
    ∃ fragment, findFragment? fragments name = some fragment := by
  obtain ⟨f, hf, hname⟩ := h
  have found : (findFragment? fragments name).isSome :=
    List.find?_isSome.2 ⟨f, List.mem_reverse.2 hf, decide_eq_true hname⟩
  exact Option.isSome_iff_exists.1 found

/-- Chains of spreads end before they have passed all fragments. The induction is on how many
spreads are still to come; the trail are the fragments passed so far, and they all lead to what
comes next, so none of them comes next. -/
theorem chainsEnd_of_trail (acyclic : Acyclic fragments) (depth : Nat) :
    ∀ (trail : List Fragment) (names : List String), trail.Nodup → trail ⊆ fragments →
      fragments.length ≤ depth + trail.length →
      (∀ name ∈ names, ∀ g ∈ fragments, g.name = name → ∀ f ∈ trail,
        Relation.TransGen (Fragment.Spreads fragments) f g) →
      ChainsEnd fragments depth names := by
  induction depth with
  | zero =>
    intro trail names distinct sub long leads name hn
    by_contra found
    obtain ⟨g, hg⟩ := Option.ne_none_iff_exists'.1 found
    obtain ⟨hmem, hname⟩ := mem_of_findFragment? hg
    have := (acyclic.length_lt hmem distinct sub (leads name hn g hmem hname)).2
    omega
  | succ depth ih =>
    intro trail names distinct sub long leads name hn fragment hfragment
    obtain ⟨hmem, hname⟩ := mem_of_findFragment? hfragment
    have before := leads name hn fragment hmem hname
    refine ih (fragment :: trail) _ (acyclic.length_lt hmem distinct sub before).1
      (List.cons_subset.2 ⟨hmem, sub⟩) ?_ ?_
    · rw [List.length_cons]
      omega
    · intro next hnext g hg hgname f hf
      have spreads : Fragment.Spreads fragments fragment g := ⟨hg, hgname ▸ hnext⟩
      rcases List.mem_cons.1 hf with rfl | hf
      · exact .single spreads
      · exact (before f hf).tail spreads

/-- **Without cycles, no chain of spreads is longer than the list of fragments.** -/
theorem chainsEnd_of_acyclic (acyclic : Acyclic fragments) (names : List String) :
    ChainsEnd fragments fragments.length names :=
  chainsEnd_of_trail acyclic fragments.length [] names List.nodup_nil (List.nil_subset _)
    (Nat.le_add_right ..) fun _ _ _ _ _ _ hf => nomatch hf

/-- Where all names are known, chains of spreads end after the last spread. -/
theorem ChainsEnd.endsWithin (known : ∀ f ∈ fragments,
      ∀ name ∈ Selection.spreadsInAll f.selections, ∃ g ∈ fragments, g.name = name) {depth : Nat} :
    ∀ {names : List String}, ChainsEnd fragments depth names →
      (∀ name ∈ names, ∃ g ∈ fragments, g.name = name) → EndsWithin fragments depth names := by
  induction depth with
  | zero =>
    intro names ends there
    refine List.eq_nil_iff_forall_not_mem.2 fun name hn => ?_
    obtain ⟨fragment, hfragment⟩ := exists_findFragment? (there name hn)
    cases hfragment.symm.trans (ends name hn)
  | succ depth ih =>
    intro names ends there name hn
    obtain ⟨fragment, hfragment⟩ := exists_findFragment? (there name hn)
    exact ⟨fragment, hfragment, ih (ends name hn fragment hfragment)
      (known fragment (mem_of_findFragment? hfragment).1)⟩

/-- Without cycles, all chains of spreads of known fragments end. -/
theorem endsWithin_of_acyclic (acyclic : Acyclic fragments)
    (known : ∀ f ∈ fragments, ∀ name ∈ Selection.spreadsInAll f.selections,
      ∃ g ∈ fragments, g.name = name) {names : List String}
    (there : ∀ name ∈ names, ∃ g ∈ fragments, g.name = name) :
    EndsWithin fragments fragments.length names :=
  (chainsEnd_of_acyclic acyclic names).endsWithin known there

/-- Nothing is left of spreads that end within the depth. -/
theorem spreads_inlinedSpread (guards : List Directive → List Directive) {depth : Nat} :
    ∀ {names : List String}, EndsWithin fragments depth names → ∀ name ∈ names, ∀ directives,
      (inlinedSpread guards fragments depth name directives).spreads = [] := by
  induction depth with
  | zero =>
    intro names h name hn
    rw [EndsWithin] at h
    rw [h] at hn
    cases hn
  | succ depth ih =>
    intro names h name hn directives
    obtain ⟨fragment, hfragment, inner⟩ := h name hn
    rw [inlinedSpread, hfragment]
    exact Selection.spreadsInAll_mapSpreadsInAll _ (ih inner)

end Chains

/-! ### Drafts of inlined selections -/

section Drafts

variable {schema : Schema} {document : String} {spread other : SpreadRule}
  {replace : String → List Directive → Selection}

/-- What takes the place of a spread adds what the spread adds, under another rule for spreads. -/
def Replaces (schema : Schema) (document : String) (spread other : SpreadRule)
    (replace : String → List Directive → Selection) (name : String) : Prop :=
  ∀ directives scope optional draft,
    addSelection schema document other scope optional draft (replace name directives) =
      spread scope optional draft name

mutual

theorem addSelection_mapSpreads : ∀ (s : Selection) (scope : Option SchemaType) (optional : Bool)
    (draft : Draft), (∀ name ∈ s.spreads, Replaces schema document spread other replace name) →
      addSelection schema document other scope optional draft (s.mapSpreads replace) =
        addSelection schema document spread scope optional draft s
  | .field _ _ _ _ none, _, _, _, _ => by rw [Selection.mapSpreads, addSelection, addSelection]
  | .field _ name _ _ (some selections), scope, optional, draft, h => by
    rw [Selection.spreads] at h
    rw [Selection.mapSpreads, addSelection, addSelection]
    cases fieldType document scope name with
    | error e => rfl
    | ok type =>
      dsimp only
      rw [addSelections_mapSpreadsInAll selections _ _ _ h]
  | .spread name directives, scope, optional, draft, h => by
    rw [Selection.spreads] at h
    rw [Selection.mapSpreads, addSelection]
    exact h name (List.mem_singleton_self _) directives scope optional draft
  | .inlineFragment none _ selections, scope, optional, draft, h => by
    rw [Selection.spreads] at h
    rw [Selection.mapSpreads, addSelection, addSelection]
    exact addSelections_mapSpreadsInAll selections scope optional draft h
  | .inlineFragment (some condition) _ selections, scope, optional, draft, h => by
    rw [Selection.spreads] at h
    rw [Selection.mapSpreads, addSelection, addSelection]
    cases schema.find? condition with
    | none => rfl
    | some type => exact addSelections_mapSpreadsInAll selections _ _ draft h

/-- **Selections add the same** after each spread is replaced by something that adds what the spread
adds. -/
theorem addSelections_mapSpreadsInAll : ∀ (selections : List Selection)
    (scope : Option SchemaType) (optional : Bool) (draft : Draft),
    (∀ name ∈ Selection.spreadsInAll selections,
      Replaces schema document spread other replace name) →
      addSelections schema document other scope optional draft
          (Selection.mapSpreadsInAll replace selections) =
        addSelections schema document spread scope optional draft selections
  | [], _, _, _, _ => by rw [Selection.mapSpreadsInAll, addSelections, addSelections]
  | s :: rest, scope, optional, draft, h => by
    rw [Selection.spreadsInAll] at h
    rw [Selection.mapSpreadsInAll, addSelections, addSelections,
      addSelection_mapSpreads s scope optional draft fun name hn =>
        h name (List.mem_append_left _ hn)]
    cases addSelection schema document spread scope optional draft s with
    | error e => rfl
    | ok next =>
      exact addSelections_mapSpreadsInAll rest scope optional next fun name hn =>
        h name (List.mem_append_right _ hn)

end

variable {fragments : List Fragment}

/-- **An opened spread adds what its inline fragment adds**, as long as the fragment is on a type of
the schema. The induction is on how many spreads may be opened on the way. -/
theorem replaces_inlinedSpread (guards : List Directive → List Directive)
    (conditions : ∀ f ∈ fragments, (schema.find? f.condition).isSome) (document : String)
    (other : SpreadRule) {depth : Nat} : ∀ {names : List String},
      EndsWithin fragments depth names → ∀ name ∈ names,
        Replaces schema document (openSpread schema document fragments depth) other
          (inlinedSpread guards fragments depth) name := by
  induction depth with
  | zero =>
    intro names h name hn
    rw [EndsWithin] at h
    rw [h] at hn
    cases hn
  | succ depth ih =>
    intro names h name hn directives scope optional draft
    obtain ⟨fragment, hfragment, inner⟩ := h name hn
    obtain ⟨type, htype⟩ := Option.isSome_iff_exists.1
      (conditions fragment (mem_of_findFragment? hfragment).1)
    rw [inlinedSpread, openSpread, hfragment]
    dsimp only
    rw [addSelection, htype]
    exact addSelections_mapSpreadsInAll _ _ _ _ (ih inner)

end Drafts

/-! ### Batches -/

section Batches

variable {schema : Schema} {guards : List Directive → List Directive} {fragments : List Fragment}

/-- The selections of a batch, as they are inlined. -/
def inlineAll (guards : List Directive → List Directive) (fragments : List Fragment) :
    List Selection → List Selection :=
  Selection.mapSpreadsInAll (inlinedSpread guards fragments fragments.length)

theorem inlined_eq (guards : List Directive → List Directive) (documents : List Document) :
    inlined guards documents = documents.map fun document =>
      ⟨document.definitions.map (Definition.mapSelections
        (inlineAll guards (documents.flatMap Document.fragments)))⟩ := rfl

theorem definitions_inlined (guards : List Directive → List Directive)
    (documents : List Document) :
    (inlined guards documents).flatMap Document.definitions =
      (documents.flatMap Document.definitions).map (Definition.mapSelections
        (inlineAll guards (documents.flatMap Document.fragments))) := by
  rw [inlined_eq, List.flatMap_map, List.map_flatMap]

theorem selectionDraft_inlineAll (guards : List Directive → List Directive)
    (conditions : ∀ f ∈ fragments, (schema.find? f.condition).isSome) (others : List Fragment)
    (document : String) (scope : SchemaType) {selections : List Selection}
    (ends : EndsWithin fragments fragments.length (Selection.spreadsInAll selections)) :
    selectionDraft ⟨schema, true, others⟩ document scope (inlineAll guards fragments selections) =
      selectionDraft ⟨schema, false, fragments⟩ document scope selections :=
  addSelections_mapSpreadsInAll selections (some scope) false {}
    (replaces_inlinedSpread guards conditions document maskedSpread ends)

/-- **A definition has the shapes of its inlined form.** -/
theorem ofDefinition_mapSelections
    (conditions : ∀ f ∈ fragments, (schema.find? f.condition).isSome) (others : List Fragment)
    {d : Definition} (ends : EndsWithin fragments fragments.length d.spreads) :
    ofDefinition ⟨schema, true, others⟩ (d.mapSelections (inlineAll guards fragments)) =
      ofDefinition ⟨schema, false, fragments⟩ d := by
  cases d with
  | operation o =>
    have draft := fun document scope =>
      selectionDraft_inlineAll guards conditions others document scope ends
    rw [Definition.mapSelections, ofDefinition, ofDefinition, ofOperation, ofOperation]
    simp only [Definition.selections] at draft
    simp only [draft]
  | fragment f =>
    have draft := fun document scope =>
      selectionDraft_inlineAll guards conditions others document scope ends
    rw [Definition.mapSelections, ofDefinition, ofDefinition, ofFragment, ofFragment]
    simp only [Definition.selections] at draft
    simp only [draft]
  | _ => rfl

/-- Definitions that have the same shapes one by one have the same shapes together. -/
theorem addDefinitions_map {context other : Context} {change : Definition → Definition}
    {ds : List Definition} (h : ∀ d ∈ ds, ofDefinition other (change d) = ofDefinition context d)
    (shapes : Shapes) :
    addDefinitions other shapes (ds.map change) = addDefinitions context shapes ds := by
  induction ds generalizing shapes with
  | nil => rfl
  | cons d rest ih =>
    have others := fun d hd => h d (List.mem_cons_of_mem _ hd)
    rw [List.map_cons, addDefinitions, addDefinitions, h d (List.mem_cons_self ..)]
    cases ofDefinition context d with
    | error e => rfl
    | ok new =>
      dsimp only
      cases shapes.add new with
      | error e => rfl
      | ok next => exact ih others next

variable {documents : List Document}

/-- The chains of spreads of a batch without cycles end, whatever definition they begin in. -/
theorem endsWithin_spreads
    (known : ∀ d ∈ documents.flatMap Document.definitions, ∀ name ∈ d.spreads,
      ∃ f ∈ documents.flatMap Document.fragments, f.name = name)
    (acyclic : Acyclic (documents.flatMap Document.fragments)) {d : Definition}
    (hd : d ∈ documents.flatMap Document.definitions) :
    EndsWithin (documents.flatMap Document.fragments)
      (documents.flatMap Document.fragments).length d.spreads :=
  endsWithin_of_acyclic acyclic
    (fun _ hf => known _ (Document.mem_flatMap_fragments_iff.1 hf)) (known d hd)

/-- **Shapes without masking are the shapes of the inlined batch with masking**, and a batch without
the one has no shapes with the other for the same reason. Suppose that every spread names a fragment
of the batch, that no fragment reaches itself, and that fragments are on types of the schema; if
several fragments have one name, the last of them counts. Then the inlined batch has no spreads
left, and the two programs are the same. -/
theorem program_inlined (schema : Schema) (scalars : ScalarTable)
    (guards : List Directive → List Directive)
    (known : ∀ d ∈ documents.flatMap Document.definitions, ∀ name ∈ d.spreads,
      ∃ f ∈ documents.flatMap Document.fragments, f.name = name)
    (acyclic : Acyclic (documents.flatMap Document.fragments))
    (conditions : ∀ f ∈ documents.flatMap Document.fragments,
      (schema.find? f.condition).isSome) :
    (∀ d ∈ (inlined guards documents).flatMap Document.definitions, d.spreads = []) ∧
      Shape.program schema false scalars documents =
        Shape.program schema true scalars (inlined guards documents) := by
  have ends := fun d hd => endsWithin_spreads (d := d) known acyclic hd
  constructor
  · intro d hd
    rw [definitions_inlined] at hd
    obtain ⟨e, he, rfl⟩ := List.mem_map.1 hd
    have none := Selection.spreadsInAll_mapSpreadsInAll e.selections
      (spreads_inlinedSpread guards (ends e he))
    cases e with
    | operation o => exact none
    | fragment _ => exact none
    | _ => rfl
  · have shapes : ofDocuments schema true (inlined guards documents) =
        ofDocuments schema false documents := by
      rw [ofDocuments, ofDocuments, definitions_inlined]
      exact addDefinitions_map (fun d hd => ofDefinition_mapSelections conditions _ (ends d hd)) {}
    rw [Shape.program, Shape.program, shapes]

/-- An interface of things with an id, and users among them. -/
def nodeSchema : Schema where
  types := [⟨"ID", .scalar⟩, ⟨"String", .scalar⟩,
    ⟨"Node", .interface [] [("id", .nonNull (.named "ID"))]⟩,
    ⟨"User", .object ["Node"] [("id", .nonNull (.named "ID")), ("name", .named "String")]⟩,
    ⟨"Query", .object [] [("node", .named "Node")]⟩]
  roots := { query := some "Query" }
  names_nodup := by decide
  closed := by decide
  roots_closed := by decide

/-- A query in one document that spreads a fragment of another one, which spreads a third. -/
def nodeDocuments : List Document :=
  [⟨[.operation ⟨none, .query, some "Q", [], [],
      [.field none "node" [] [] (some [.field none "id" [] [] none, .spread "Named" []])]⟩]⟩,
    ⟨[.fragment ⟨none, "Named", "User", [],
        [.field none "name" [] [] none, .spread "Typed" []]⟩,
      .fragment ⟨none, "Typed", "Node", [], [.field none "__typename" [] [] none]⟩]⟩]

/-- A chain of two spreads that changes the type twice. -/
theorem program_inlined_node :
    (∀ d ∈ nodeDocuments.flatMap Document.definitions, ∀ name ∈ d.spreads,
      ∃ f ∈ nodeDocuments.flatMap Document.fragments, f.name = name) ∧
    Acyclic (nodeDocuments.flatMap Document.fragments) ∧
    (∀ f ∈ nodeDocuments.flatMap Document.fragments, (nodeSchema.find? f.condition).isSome) ∧
    (∀ d ∈ (inlined (fun _ => []) nodeDocuments).flatMap Document.definitions, d.spreads = []) ∧
    Shape.program nodeSchema false ScalarTable.builtIn nodeDocuments =
      Shape.program nodeSchema true ScalarTable.builtIn (inlined (fun _ => []) nodeDocuments) ∧
    ∃ program, Shape.program nodeSchema false ScalarTable.builtIn nodeDocuments = .ok program := by
  have known : ∀ d ∈ nodeDocuments.flatMap Document.definitions, ∀ name ∈ d.spreads,
      ∃ f ∈ nodeDocuments.flatMap Document.fragments, f.name = name := by decide
  have acyclic : Acyclic (nodeDocuments.flatMap Document.fragments) :=
    acyclic_of_rank (fun f => if f.name = "Named" then 1 else 0) (by decide)
  have conditions : ∀ f ∈ nodeDocuments.flatMap Document.fragments,
      (nodeSchema.find? f.condition).isSome := by decide
  obtain ⟨none, same⟩ := program_inlined nodeSchema ScalarTable.builtIn (fun _ => []) known acyclic
    conditions
  exact ⟨known, acyclic, conditions, none, same, _, rfl⟩

end Batches

end Shape

end QueryTypes
