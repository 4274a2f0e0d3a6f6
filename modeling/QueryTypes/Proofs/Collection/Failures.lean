import QueryTypes.Proofs.Collection

/-!
# When documents cannot be collected

On the way through some files, two things matter for whether they can be collected: a file that is
no document, and a name that is used (`QueryTypes.Collection.Event`). The files can be collected
exactly if all are documents and no name is used twice (`QueryTypes.Collection.IsClean`). Otherwise
it is the first event after clean ones that decides, and it says what the failure is
(`QueryTypes.Collection.FirstFailure`). Neither of the two notions looks at how files are gone
through, and for given files there is at most one first failure
(`QueryTypes.Collection.FirstFailure.unique`).

Going through files then gives all their entries, in order, if the files are clean
(`QueryTypes.Collection.documents_of_addFiles`), and their first failure otherwise
(`QueryTypes.Collection.firstFailure_of_addFiles`).
-/

namespace QueryTypes

open GraphQL (Definition Document)

namespace Collection

/-! ### Events -/

/-- What is come by on the way through some files. -/
inductive Event where
  /-- A file is no document. -/
  | unparsable (file : Path)
  /-- A definition in a file uses a name for a kind of document. -/
  | use (file : Path) (name : String) (kind : DocumentKind)

/-- A name and what it is used for. -/
abbrev Use := String × DocumentKind

/-- The name that an event uses, if it uses one. -/
def Event.use? : Event → Option Use
  | unparsable _ => none
  | use _ name kind => some (name, kind)

/-- The names that are used, in order. -/
def uses (events : List Event) : List Use := events.filterMap Event.use?

@[simp] theorem uses_nil : uses [] = [] := rfl

@[simp] theorem uses_append (first second : List Event) :
    uses (first ++ second) = uses first ++ uses second :=
  List.filterMap_append

/-- The event that a definition is: an operation with a name, or a fragment. -/
def eventOf? (file : Path) : Definition → Option Event
  | .operation o => o.name.map fun name => .use file name .operation
  | .fragment f => some (.use file f.name .fragment)
  | _ => none

/-- The events in a file with some text: those of its definitions, if it is a document. -/
def eventsOf (file : Path × String) : List Event :=
  match Document.parse? file.2 with
  | none => [.unparsable file.1]
  | some document => document.definitions.filterMap (eventOf? file.1)

/-- The events in some files, in order. -/
def events (files : List (Path × String)) : List Event := files.flatMap eventsOf

/-! ### The first failure -/

variable {known : List Use} {before first rest : List Event} {e other : CollectionError}

/-- **Nothing goes wrong** in some events, given the names used before them. -/
structure IsClean (known : List Use) (events : List Event) : Prop where
  /-- Every file is a document. -/
  parsed : ∀ file, Event.unparsable file ∉ events
  /-- No name is used twice. -/
  distinct : ((known ++ uses events).map Prod.fst).Nodup

/-- **An event is a failure**, given the names used before it. -/
inductive Event.FailsAfter (known : List Use) : Event → CollectionError → Prop where
  /-- The file is no document. -/
  | unparsable (file : Path) : FailsAfter known (.unparsable file) (.unparsable file)
  /-- The name is used for this kind already. -/
  | duplicate (file : Path) {name : String} {kind : DocumentKind} (h : (name, kind) ∈ known) :
    FailsAfter known (.use file name kind) (.duplicate kind name file)
  /-- The name is used for the other kind already. -/
  | bothKinds (file : Path) {name : String} {kind before : DocumentKind}
    (h : (name, before) ∈ known) (ne : before ≠ kind) :
    FailsAfter known (.use file name kind) (.bothKinds name file)

/-- **The first failure** among some events: all events before it are clean. -/
def FirstFailure (known : List Use) (events : List Event) (e : CollectionError) : Prop :=
  ∃ before event after, events = before ++ event :: after ∧ IsClean known before ∧
    event.FailsAfter (known ++ uses before) e

theorem IsClean.nil (distinct : (known.map Prod.fst).Nodup) : IsClean known [] :=
  ⟨nofun, by simpa using distinct⟩

/-- Events are clean if some of them are, and the others after those. -/
theorem isClean_append_iff :
    IsClean known (first ++ rest) ↔ IsClean known first ∧ IsClean (known ++ uses first) rest := by
  constructor
  · intro h
    have distinct := h.distinct
    rw [uses_append, ← List.append_assoc] at distinct
    refine ⟨⟨fun file hf => h.parsed file (List.mem_append_left _ hf), ?_⟩,
      ⟨fun file hf => h.parsed file (List.mem_append_right _ hf), distinct⟩⟩
    rw [List.map_append] at distinct
    exact distinct.of_append_left
  · rintro ⟨hfirst, hrest⟩
    refine ⟨fun file hf => ?_, ?_⟩
    · rcases List.mem_append.1 hf with hf | hf
      · exact hfirst.parsed file hf
      · exact hrest.parsed file hf
    · rw [uses_append, ← List.append_assoc]
      exact hrest.distinct

/-- What goes wrong after clean events goes wrong in the whole. -/
theorem FirstFailure.prepend (clean : IsClean known first)
    (h : FirstFailure (known ++ uses first) rest e) : FirstFailure known (first ++ rest) e := by
  obtain ⟨before, event, after, rfl, cleanBefore, fails⟩ := h
  refine ⟨first ++ before, event, after, (List.append_assoc ..).symm,
    isClean_append_iff.2 ⟨clean, cleanBefore⟩, ?_⟩
  rwa [uses_append, ← List.append_assoc]

/-- What comes after the first failure does not matter. -/
theorem FirstFailure.append (h : FirstFailure known first e) (rest : List Event) :
    FirstFailure known (first ++ rest) e := by
  obtain ⟨before, event, after, rfl, clean, fails⟩ := h
  exact ⟨before, event, after ++ rest, by rw [List.append_assoc, List.cons_append], clean, fails⟩

/-- An event is no failure where it is clean. -/
theorem Event.FailsAfter.not_isClean {event : Event} (h : event.FailsAfter known e) :
    ¬ IsClean known (event :: rest) := by
  intro clean
  have distinct := clean.distinct
  rw [List.map_append] at distinct
  have apart := (List.nodup_append'.1 distinct).2.2
  cases h with
  | unparsable file => exact clean.parsed file (List.mem_cons_self ..)
  | duplicate file h => exact apart (List.mem_map_of_mem h) (List.mem_cons_self ..)
  | bothKinds file h ne => exact apart (List.mem_map_of_mem h) (List.mem_cons_self ..)

/-- **Clean events have no first failure.** -/
theorem FirstFailure.not_isClean {events : List Event} (h : FirstFailure known events e) :
    ¬ IsClean known events := by
  obtain ⟨before, event, after, rfl, -, fails⟩ := h
  exact fun clean => fails.not_isClean (isClean_append_iff.1 clean).2

/-- An event fails in one way only, since names are used for one thing before it. -/
theorem Event.FailsAfter.unique {event : Event} (distinct : (known.map Prod.fst).Nodup)
    (h : event.FailsAfter known e) (h' : event.FailsAfter known other) : e = other := by
  have once : ∀ {name kind kind'}, (name, kind) ∈ known → (name, kind') ∈ known → kind = kind' :=
    fun hk hk' => congrArg Prod.snd (List.inj_on_of_nodup_map distinct hk hk' rfl)
  cases h with
  | unparsable file =>
    cases h'
    rfl
  | duplicate file hk =>
    cases h' with
    | duplicate _ _ => rfl
    | bothKinds _ hk' ne => exact absurd (once hk' hk) ne
  | bothKinds file hk ne =>
    cases h' with
    | duplicate _ hk' => exact absurd (once hk hk') ne
    | bothKinds _ _ _ => rfl

/-- An event that fails after clean ones is the first to fail: one further on that also comes after
clean ones is the same, since all events between the two would be clean. -/
theorem Event.FailsAfter.unique_of_append {event event' : Event} {between after after' : List Event}
    (tails : event :: after = between ++ event' :: after')
    (clean : IsClean known (before ++ between))
    (h : event.FailsAfter (known ++ uses before) e)
    (h' : event'.FailsAfter (known ++ uses (before ++ between)) other) : e = other := by
  obtain ⟨cleanBefore, cleanBetween⟩ := isClean_append_iff.1 clean
  cases between with
  | nil =>
    obtain ⟨rfl, -⟩ := List.cons.inj tails
    rw [List.append_nil] at h'
    exact h.unique cleanBefore.distinct h'
  | cons middle between =>
    obtain ⟨rfl, -⟩ := List.cons.inj tails
    exact absurd cleanBetween h.not_isClean

/-- **There is one first failure at most.** -/
theorem FirstFailure.unique {events : List Event} (h : FirstFailure known events e)
    (h' : FirstFailure known events other) : e = other := by
  obtain ⟨before, event, after, rfl, clean, fails⟩ := h
  obtain ⟨before', event', after', same, clean', fails'⟩ := h'
  rcases List.append_eq_append_iff.1 same with ⟨between, rfl, tails⟩ | ⟨between, rfl, tails⟩
  · exact fails.unique_of_append tails clean' fails'
  · exact (fails'.unique_of_append tails clean fails).symm

/-! ### Going through definitions -/

variable {c next result : Collection} {file : Path} {shared : SharedDocument}

/-- The names that the entries collected so far use. -/
def used (c : Collection) : List Use := c.documents.map fun d => (d.name, d.kind)

theorem map_fst_used (c : Collection) :
    c.used.map Prod.fst = c.documents.map CollectedDocument.name :=
  List.map_map

/-- The entries of definitions use the names that their events use. -/
theorem uses_filterMap_eventOf? (file : Path) (shared : SharedDocument) (ds : List Definition) :
    uses (ds.filterMap (eventOf? file)) =
      (ds.filterMap (entryOf? shared)).map fun d => (d.name, d.kind) := by
  rw [uses, List.filterMap_filterMap, List.map_filterMap]
  refine List.filterMap_congr fun d _ => ?_
  cases d with
  | operation o => cases h : o.name <;> simp [eventOf?, entryOf?, Event.use?, h]
  | _ => rfl

/-- The events of definitions are uses of names. -/
theorem not_mem_filterMap_eventOf? (file found : Path) (ds : List Definition) :
    Event.unparsable found ∉ ds.filterMap (eventOf? file) := by
  intro h
  obtain ⟨d, -, hd⟩ := List.mem_filterMap.1 h
  cases d with
  | operation o =>
    obtain ⟨name, -, same⟩ := Option.map_eq_some_iff.1 hd
    cases same
  | fragment f => cases hd
  | _ => cases hd

/-- A name that cannot be added is used already. -/
theorem failsAfter_of_addNamed {name : String} {kind : DocumentKind}
    (h : c.addNamed file shared name kind = .error e) :
    (Event.use file name kind).FailsAfter c.used e := by
  unfold addNamed at h
  split at h
  · next before hbefore =>
    have name_eq : before.name = name := by simpa using List.find?_some hbefore
    have there : (name, before.kind) ∈ c.used :=
      List.mem_map.2 ⟨before, List.mem_of_find?_eq_some hbefore, by rw [name_eq]⟩
    split at h
    · next same =>
      cases h
      exact .duplicate file (same ▸ there)
    · next ne =>
      cases h
      exact .bothKinds file there ne
  · cases h

/-- A definition that cannot be added is an event that fails. -/
theorem failsAfter_of_addDefinition {d : Definition}
    (h : c.addDefinition file shared d = .error e) :
    ∃ event, eventOf? file d = some event ∧ event.FailsAfter c.used e := by
  cases d with
  | operation o =>
    rw [addDefinition] at h
    split at h
    · cases h
    · next name hname => exact ⟨_, by rw [eventOf?, hname]; rfl, failsAfter_of_addNamed h⟩
  | fragment f => exact ⟨_, rfl, failsAfter_of_addNamed h⟩
  | _ => cases h

/-- After definitions were added, their names are used as well, each once. -/
theorem used_of_addDefinitions {ds : List Definition}
    (h : c.addDefinitions file shared ds = (result, none))
    (distinct : (c.used.map Prod.fst).Nodup) :
    result.used = c.used ++ uses (ds.filterMap (eventOf? file)) ∧
      IsClean c.used (ds.filterMap (eventOf? file)) := by
  rw [map_fst_used] at distinct
  obtain ⟨documents, names⟩ := documents_of_addDefinitions h distinct
  have all : result.used = c.used ++ uses (ds.filterMap (eventOf? file)) := by
    rw [uses_filterMap_eventOf? file shared, used, documents, List.map_append]
    rfl
  refine ⟨all, fun found => not_mem_filterMap_eventOf? file found ds, ?_⟩
  rw [← all, map_fst_used]
  exact names

/-- **Definitions that cannot all be added** hold a first failure. -/
theorem firstFailure_of_addDefinitions {ds : List Definition}
    (h : c.addDefinitions file shared ds = (result, some e))
    (distinct : (c.used.map Prod.fst).Nodup) :
    FirstFailure c.used (ds.filterMap (eventOf? file)) e := by
  induction ds generalizing c with
  | nil => cases h
  | cons d ds ih =>
    have split : (d :: ds).filterMap (eventOf? file) =
        [d].filterMap (eventOf? file) ++ ds.filterMap (eventOf? file) :=
      List.filterMap_append (l := [d])
    rw [addDefinitions] at h
    rw [split]
    split at h
    · next failure hfailure =>
      cases h
      obtain ⟨event, hevent, fails⟩ := failsAfter_of_addDefinition hfailure
      refine FirstFailure.append ⟨[], event, [], ?_, .nil distinct, ?_⟩ _
      · simp [hevent]
      · simpa using fails
    · next next hnext =>
      have one : c.addDefinitions file shared [d] = (next, none) := by
        rw [addDefinitions, hnext]
        rfl
      obtain ⟨used_next, clean⟩ := used_of_addDefinitions one distinct
      refine FirstFailure.prepend clean ?_
      rw [← used_next]
      refine ih h ?_
      rw [used_next]
      exact clean.distinct

/-! ### Going through files -/

/-- Documents without operations and fragments have no entries. -/
theorem entriesOf_of_not_isExecutable
    (h : ¬ shared.document.definitions.any Definition.isExecutable = true) :
    entriesOf shared = [] := by
  refine List.filterMap_eq_nil_iff.2 fun d hd => ?_
  have hnone : ¬ d.isExecutable = true := fun he => h (List.any_eq_true.2 ⟨d, hd, he⟩)
  cases d with
  | operation o => exact absurd rfl hnone
  | fragment f => exact absurd rfl hnone
  | _ => rfl

/-- **A file that is collected** is a document, and its entries are added. -/
theorem documents_of_addFile {text : String} {id : Nat}
    (h : c.addFile file text id = (result, none)) (distinct : (c.used.map Prod.fst).Nodup) :
    ∃ document, Document.parse? text = some document ∧
      result.documents = c.documents ++ entriesOf ⟨id, document⟩ ∧
      result.used = c.used ++ uses (eventsOf (file, text)) ∧
      IsClean c.used (eventsOf (file, text)) := by
  unfold addFile at h
  split at h
  · cases h
  · next document hparse =>
    have events_eq : eventsOf (file, text) = document.definitions.filterMap (eventOf? file) := by
      simp only [eventsOf, hparse]
    rw [events_eq]
    split at h
    · obtain ⟨used_eq, clean⟩ := used_of_addDefinitions h distinct
      rw [map_fst_used] at distinct
      exact ⟨document, hparse, (documents_of_addDefinitions h distinct).1, used_eq, clean⟩
    · next none =>
      cases h
      have no_entries : entriesOf ⟨id, document⟩ = [] := entriesOf_of_not_isExecutable none
      have no_uses : uses (document.definitions.filterMap (eventOf? file)) = [] := by
        rw [uses_filterMap_eventOf? file ⟨id, document⟩]
        exact congrArg (List.map _) no_entries
      refine ⟨document, hparse, ?_, ?_, fun found => not_mem_filterMap_eventOf? file found _, ?_⟩
      · rw [no_entries, List.append_nil]
      · rw [no_uses, List.append_nil]
      · rw [no_uses, List.append_nil]
        exact distinct

/-- **A file that is not collected** holds a first failure. -/
theorem firstFailure_of_addFile {text : String} {id : Nat}
    (h : c.addFile file text id = (result, some e)) (distinct : (c.used.map Prod.fst).Nodup) :
    FirstFailure c.used (eventsOf (file, text)) e := by
  unfold addFile at h
  split at h
  · next hparse =>
    cases h
    have events_eq : eventsOf (file, text) = [.unparsable file] := by
      simp only [eventsOf, hparse]
    rw [events_eq]
    exact ⟨[], _, [], rfl, .nil distinct, .unparsable file⟩
  · next document hparse =>
    have events_eq : eventsOf (file, text) = document.definitions.filterMap (eventOf? file) := by
      simp only [eventsOf, hparse]
    rw [events_eq]
    split at h
    · exact firstFailure_of_addDefinitions h distinct
    · cases h

/-- **Files that are collected** are documents, and their entries are added in order. -/
theorem documents_of_addFiles {files : List (Path × String)} {id : Nat}
    (h : c.addFiles id files = (result, none)) (distinct : (c.used.map Prod.fst).Nodup) :
    ∃ documents : List Document,
      files.map (fun file => Document.parse? file.2) = documents.map some ∧
      result.documents = c.documents ++
        (documents.mapIdx fun i document => SharedDocument.mk (id + i) document).flatMap entriesOf ∧
      IsClean c.used (events files) := by
  induction files generalizing c id with
  | nil =>
    cases h
    exact ⟨[], rfl, (List.append_nil _).symm, .nil distinct⟩
  | cons entry rest ih =>
    obtain ⟨path, text⟩ := entry
    rw [addFiles] at h
    split at h
    · cases h
    · next next hnext =>
      obtain ⟨document, parsed, added, used_next, clean⟩ := documents_of_addFile hnext distinct
      have distinctNext : (next.used.map Prod.fst).Nodup := by
        rw [used_next]
        exact clean.distinct
      obtain ⟨documents, parsedRest, addedRest, cleanRest⟩ := ih h distinctNext
      refine ⟨document :: documents, ?_, ?_, ?_⟩
      · rw [List.map_cons, List.map_cons, parsed, parsedRest]
      · rw [addedRest, added, List.append_assoc, List.mapIdx_cons, List.flatMap_cons]
        simp only [Nat.add_zero, Nat.add_assoc, Nat.add_comm 1]
      · rw [used_next] at cleanRest
        exact isClean_append_iff.2 ⟨clean, cleanRest⟩

/-- **Files that are not collected** hold a first failure. -/
theorem firstFailure_of_addFiles {files : List (Path × String)} {id : Nat}
    (h : c.addFiles id files = (result, some e)) (distinct : (c.used.map Prod.fst).Nodup) :
    FirstFailure c.used (events files) e := by
  induction files generalizing c id with
  | nil => cases h
  | cons entry rest ih =>
    obtain ⟨path, text⟩ := entry
    rw [addFiles] at h
    split at h
    · next failed failure hfailure =>
      cases h
      exact (firstFailure_of_addFile hfailure distinct).append _
    · next next hnext =>
      obtain ⟨document, -, -, used_next, clean⟩ := documents_of_addFile hnext distinct
      refine FirstFailure.prepend clean ?_
      rw [← used_next]
      refine ih h ?_
      rw [used_next]
      exact clean.distinct

end Collection

end QueryTypes
