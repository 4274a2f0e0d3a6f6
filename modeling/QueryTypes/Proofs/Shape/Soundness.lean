import QueryTypes.Proofs.Shape.Batch
import QueryTypes.Proofs.Shape.Places

/-!
# When shapes are sound

Every response of an operation conforms to the shape of the operation exactly if execution gets to
faithful places only (`QueryTypes.Shape.conforms_iff_faithful`): an answer of a faithful place
conforms as soon as the objects in it do, and an answer of a place can be put into an answer of the
place before.

That is so where no key is selected twice and nothing is removed by directives
(`QueryTypes.Shape.conforms_of_plain`). It is not so for an operation that selects one key twice
with different fields below: execution gets to a place that selects a key the object type lacks.
-/

namespace QueryTypes

namespace Shape

open GraphQL (Document Fragment Operation Selection TypeRef)
open TypeScript (Member TypeExpr)

section Places

variable {e : Execution} {root : SchemaType} {selections : List Selection} {p : Place}
  {key : String} {a b : Occurrence} {rest : List Occurrence} {v : Response}

/-! ### From faithful places to sound shapes -/

/-- **If execution gets to faithful places only, then what answers a place conforms.** The
induction is on the answer; what a key holds answers a place one step further down. -/
theorem conforms_of_faithful (valid : e.schema.IsValid) (hroot : root ∈ e.schema.types)
    (mergeable : Mergeable e.schema e.fragments (e.occurrences root selections))
    (faithful : ∀ p, Reachable e root selections p → Faithful e p)
    {q : Place} {fields : List (String × Response)} {members : List Member}
    (hq : Reachable e root selections q) (typed : TypedAll e.schema e.fragments q.drafted members)
    (h : Executes e q.type q.merged fields) :
    Conforms (.object fields) (.object (mergeMembers members)) := by
  -- the place is not fixed: further down, there are others
  refine Response.of_holds
    (P := fun w => ∀ fields, w = .object fields → ∀ p members, Reachable e root selections p →
      TypedAll e.schema e.fragments p.drafted members → Executes e p.type p.merged fields →
        Conforms w (.object (mergeMembers members)))
    (fun _ _ hw => nomatch hw) (fun _ _ hw => nomatch hw) ?_ _ _ .object fields rfl q members hq
    typed h
  rintro fields ih _ ⟨⟩ p members hp typed ⟨nodup, keys, answers⟩
  have inv := hp.invariant valid hroot mergeable
  have faith := faithful p hp
  refine .object ?_ ?_ ?_
  · intro m hm hrequired
    obtain ⟨a, kept, hoptional, -⟩ := typed.exists_firstKept hm
    rw [hrequired] at hoptional
    rw [keys, ← (key_of_firstKept kept).1]
    exact faith.required a (key_of_firstKept kept).2 hoptional.symm
  · intro f hf
    obtain ⟨b, hb, hkey⟩ := List.mem_map.1 ((keys f.1).1 (List.mem_map_of_mem hf))
    obtain ⟨a, ha, hkey'⟩ := List.mem_map.1 (faith.declared b hb)
    obtain ⟨c, kept⟩ := exists_firstKept ha
    obtain ⟨m, hm, hmkey, -⟩ := typed.exists_member kept
    exact ⟨m, hm, hmkey.trans (hkey'.trans hkey)⟩
  · intro f hf m hm hkey
    obtain ⟨a, kept, -, htyped⟩ := typed.exists_firstKept hm
    rw [hkey] at kept
    obtain ⟨b, rest, group⟩ := exists_group ((keys f.1).1 (List.mem_map_of_mem hf))
    have answer := answers f hf
    rw [group] at answer
    rcases member_cases valid inv kept group htyped with
      leaf | ⟨-, hname, t, below, hfield, hbelow, composite⟩
    · exact (leaf f.2 answer).1.2 (faith.named f.1 a b rest kept group)
    · obtain ⟨hiff, objects⟩ := composite f.2 answer
      refine hiff.2 fun w hw => ?_
      obtain ⟨o, inner, rfl, ho, hobject, hsub, hinner⟩ := objects w hw
      exact ih f hf _ hw inner rfl _ below
        (hp.step kept group hname hfield ho hobject hsub hinner) hbelow hinner

/-! ### From sound shapes to faithful places -/

/-- A place is faithful if one of its answers conforms. -/
theorem faithful_of_conforms (valid : e.schema.IsValid) (inv : Place.Invariant e p)
    {fields : List (String × Response)} {members : List Member}
    (typed : TypedAll e.schema e.fragments p.drafted members)
    (h : Executes e p.type p.merged fields)
    (conforms : Conforms (.object fields) (.object (mergeMembers members))) : Faithful e p := by
  obtain ⟨required, declared, fits⟩ := conforms_object_iff.1 conforms
  obtain ⟨nodup, keys, answers⟩ := h
  refine ⟨?_, ?_, ?_⟩
  · intro a ha hrequired
    obtain ⟨c, kept⟩ := exists_firstKept ha
    obtain ⟨m, hm, hkey, hoptional, -⟩ := typed.exists_member kept
    rw [isOptional_firstKept ha hrequired kept] at hoptional
    rw [← keys, ← hkey]
    exact required m hm hoptional
  · intro b hb
    obtain ⟨f, hf, hkey⟩ := List.mem_map.1 ((keys b.key).2 (List.mem_map_of_mem hb))
    obtain ⟨m, hm, hmkey⟩ := declared f hf
    obtain ⟨a, kept, -⟩ := typed.exists_firstKept hm
    rw [← hkey, ← hmkey, ← (key_of_firstKept kept).1]
    exact List.mem_map_of_mem (key_of_firstKept kept).2
  · intro key a b rest kept group
    obtain ⟨f, hf, rfl⟩ := List.mem_map.1 ((keys key).2 (mem_keys_of_group group))
    obtain ⟨m, hm, hmkey, -, htyped⟩ := typed.exists_member kept
    have answer := answers f hf
    rw [group] at answer
    rcases member_cases valid inv kept group htyped with leaf | ⟨hname, -⟩
    · exact (leaf f.2 answer).1.1 (fits f hf m hm hmkey)
    · exact fun h => absurd h hname

/-- The answer of one key may be replaced by another one. -/
theorem exists_executes_of_answers {type : SchemaType} {os : List Occurrence}
    {fields : List (String × Response)} (h : Executes e type os fields)
    (group : e.group type os key = b :: rest) (answer : Answers e type (b :: rest) v) :
    ∃ others, Executes e type os others ∧ (key, v) ∈ others := by
  obtain ⟨nodup, keys, answers⟩ := h
  have same : (fields.map fun f => if f.1 = key then (key, v) else f).map Prod.fst =
      fields.map Prod.fst := by
    rw [List.map_map]
    refine List.map_congr_left fun f _ => ?_
    by_cases hf : f.1 = key
    · simp [hf]
    · simp [hf]
  refine ⟨fields.map fun f => if f.1 = key then (key, v) else f, ⟨?_, ?_, ?_⟩, ?_⟩
  · rw [same]
    exact nodup
  · rw [same]
    exact keys
  · intro f hf
    obtain ⟨g, hg, rfl⟩ := List.mem_map.1 hf
    by_cases hk : g.1 = key
    · rw [if_pos hk, group]
      exact answer
    · rw [if_neg hk]
      exact answers g hg
  · obtain ⟨f, hf, hk⟩ := List.mem_map.1 ((keys key).2 (mem_keys_of_group group))
    exact List.mem_map.2 ⟨f, hf, if_pos hk⟩

/-- **If every response conforms, then so does what answers a place.** What answers it can be put
into an answer of the place before. -/
theorem Reachable.exists_conforms (valid : e.schema.IsValid) (hroot : root ∈ e.schema.types)
    (mergeable : Mergeable e.schema e.fragments (e.occurrences root selections))
    {members : List Member} (typed : TypedAll e.schema e.fragments
      (e.occurrences root selections) members)
    (sound : ∀ fields, Executes e root (e.occurrences root selections) fields →
      Conforms (.object fields) (.object (mergeMembers members)))
    (hp : Reachable e root selections p) :
    ∃ members, TypedAll e.schema e.fragments p.drafted members ∧
      ∀ fields, Executes e p.type p.merged fields →
        Conforms (.object fields) (.object (mergeMembers members)) := by
  induction hp with
  | start _ => exact ⟨members, typed, sound⟩
  | @step p key a b rest t o fields hp kept group hname hfield ho hobject hsub h ih =>
    obtain ⟨above, htyped, habove⟩ := ih
    have inv := hp.invariant valid hroot mergeable
    obtain ⟨m, hm, hmkey, -, hmember⟩ := htyped.exists_member kept
    obtain ⟨whole, hwhole⟩ := hp.exists_executes
    -- an answer further down, wrapped into an answer of the key
    have answer : ∀ inner, Executes e o (e.below (b :: rest)) inner →
        Answers e p.type (b :: rest) (wrap t (.object inner)) := fun inner hinner =>
      .field hname hfield (completes_wrap (.object ho hobject hsub hinner))
    rcases member_cases valid inv kept group hmember with
      leaf | ⟨-, -, u, below, -, hbelow, composite⟩
    · -- there is an object under the key, so it is no leaf
      exact absurd (holds_wrap fields t) ((leaf _ (answer fields h)).2 fields)
    · refine ⟨below, hbelow, fun inner hinner => ?_⟩
      obtain ⟨others, hothers, hmem⟩ :=
        exists_executes_of_answers hwhole group (answer inner hinner)
      have fits := (conforms_object_iff.1 (habove others hothers)).2.2 _ hmem m hm hmkey
      exact (composite _ (answer inner hinner)).1.1 fits _ (holds_wrap inner t)

/-! ### Whole operations -/

/-- A response is what the root is answered with. -/
theorem responds_iff (valid : e.schema.IsValid) (hroot : root ∈ e.schema.types)
    (hobject : root.isObject = true) : Responds e root selections v ↔
      ∃ fields, v = .object fields ∧ Executes e root (e.occurrences root selections) fields := by
  constructor
  · intro h
    have hv := ne_null_of_completes h rfl
    have composite : e.schema.isComposite root.name = true := by
      rw [Schema.isComposite, Schema.find?_name hroot]
      exact SchemaType.isComposite_of_isObject hobject
    cases h with
    | null h => cases h
    | nonNull _ h =>
      obtain ⟨o, fields, rfl, ho, -, hsub, hfields⟩ := exists_object_of_completes composite h hv
      obtain rfl := valid.eq_of_isObject ho hroot hobject hsub
      exact ⟨fields, rfl, hfields⟩
  · rintro ⟨fields, rfl, hfields⟩
    exact .nonNull (fun h => by cases h) (.object hroot hobject (Schema.isSubtype_refl _) hfields)

/-- What every response conforms to, if the occurrences of the operation make the object type. -/
theorem conforms_all_iff (valid : e.schema.IsValid) (hroot : root ∈ e.schema.types)
    (hobject : root.isObject = true)
    (mergeable : Mergeable e.schema e.fragments (e.occurrences root selections))
    {members : List Member} (typed : TypedAll e.schema e.fragments
      (e.occurrences root selections) members) :
    (∀ v, Responds e root selections v → Conforms v (.object (mergeMembers members))) ↔
      ∀ p, Reachable e root selections p → Faithful e p := by
  constructor
  · intro sound p hp
    obtain ⟨inner, htyped, conforms⟩ := hp.exists_conforms valid hroot mergeable typed
      fun fields h => sound _ ((responds_iff valid hroot hobject).2 ⟨fields, rfl, h⟩)
    obtain ⟨fields, h⟩ := hp.exists_executes
    exact faithful_of_conforms valid (hp.invariant valid hroot mergeable) htyped h
      (conforms fields h)
  · intro faithful v hv
    obtain ⟨fields, rfl, h⟩ := (responds_iff valid hroot hobject).1 hv
    exact conforms_of_faithful valid hroot mergeable faithful (.start h) typed h

/-! ### Where no key is selected twice -/

/-- **No key is selected twice**, at no depth, and no directive removes anything. -/
inductive Plain (schema : Schema) (fragments : List Fragment) : List Occurrence → Prop where
  /-- Here and below every occurrence. -/
  | mk {os : List Occurrence} (nodup : (os.map Occurrence.key).Nodup)
    (guards : ∀ o ∈ os, ∀ d ∈ o.around.guards, d.name ≠ "skip" ∧ d.name ≠ "include")
    (below : ∀ o ∈ os, Plain schema fragments (o.below schema fragments)) :
    Plain schema fragments os

/-- A place where an object type is made of the very occurrences that are selected from. -/
structure Place.IsPlain (e : Execution) (p : Place) : Prop where
  /-- They are the same. -/
  same : p.drafted = p.merged
  /-- No key is selected twice. -/
  plain : Plain e.schema e.fragments p.merged
  /-- What is required is selected on types that the object's type stands for. -/
  required : ∀ a ∈ p.merged, a.isOptional = false → ∀ condition ∈ a.around.conditions,
    e.schema.isSubtype p.type.name condition = true

/-- Only one occurrence answers a key. -/
theorem Place.IsPlain.group_eq (plain : Place.IsPlain e p) (kept : p.kept? key = some a)
    (group : e.group p.type p.merged key = b :: rest) : b = a ∧ rest = [] := by
  obtain ⟨nodup, -, -⟩ := plain.plain
  obtain ⟨hkey, hmem⟩ := key_of_firstKept kept
  rw [plain.same] at hmem
  have hb := mem_group (mem_group_of_eq group)
  refine ⟨List.inj_on_of_nodup_map nodup hb.1 hmem (hb.2.2.trans hkey.symm), ?_⟩
  refine List.eq_nil_iff_forall_not_mem.2 fun g hg => ?_
  -- a second one would have the key of the first
  have hg' := mem_group (group ▸ List.mem_cons_of_mem _ hg : g ∈ e.group p.type p.merged key)
  have sub : (b :: rest).Sublist p.merged :=
    group ▸ List.filter_sublist.trans List.filter_sublist
  have keys := nodup.sublist (sub.map Occurrence.key)
  rw [List.map_cons, List.nodup_cons] at keys
  exact keys.1 (List.mem_map.2 ⟨g, hg, hg'.2.2.trans hb.2.2.symm⟩)

/-- A plain operation gets to plain places only. -/
theorem Reachable.isPlain (valid : e.schema.IsValid) (hroot : root ∈ e.schema.types)
    (mergeable : Mergeable e.schema e.fragments (e.occurrences root selections))
    (plain : Plain e.schema e.fragments (e.occurrences root selections))
    (hp : Reachable e root selections p) : Place.IsPlain e p := by
  induction hp with
  | start _ =>
    refine ⟨rfl, plain, fun a ha required condition hc => ?_⟩
    rw [conditions_of_required ha required condition hc]
    exact Schema.isSubtype_refl _
  | @step p key a b rest t o fields hp kept group hname hfield ho hobject hsub h ih =>
    have inv := hp.invariant valid hroot mergeable
    have hfirst := mem_group_of_eq group
    obtain ⟨rfl, rfl⟩ := ih.group_eq kept group
    have one : e.below [b] = b.below e.schema e.fragments := List.append_nil _
    obtain ⟨-, -, below⟩ := ih.plain
    refine ⟨one.symm, ?_, ?_⟩
    · rw [one]
      exact below b (mem_group hfirst).1
    · rw [one]
      intro y hy required condition hc
      have shape := inv.shape_of_mem_group kept hfirst
      obtain ⟨u, hu⟩ : ∃ u, b.type? = some u := by
        cases shape with
        | leaf hu _ _ _ _ => exact ⟨_, hu⟩
        | composite hu _ _ _ _ _ _ _ _ _ => exact ⟨_, hu⟩
      have refines :=
        refines_of_field? valid inv.type (inv.selectedFrom_of_mem_group hfirst) hname hfield hu
      -- what is selected below starts from the named type of the field
      obtain ⟨s, hs⟩ : ∃ s, e.schema.find? u.baseName = some s := by
        rw [Occurrence.type?, if_neg hname] at hu
        obtain ⟨q, hq, hfield'⟩ := Option.bind_eq_some_iff.1 hu
        exact Option.isSome_iff_exists.1 (Schema.isSome_find?_of_field?
          (inv.selectedFrom_of_mem_group hfirst q hq).1 hfield')
      rw [Occurrence.below] at hy
      split at hy
      · cases hy
      · rw [hu, Option.bind_some, hs] at hy
        rw [conditions_of_required hy required condition hc, Schema.name_of_find? hs]
        exact valid.isSubtype_trans hsub refines.2

/-- **Where no key is selected twice and nothing is removed, every response conforms.** -/
theorem conforms_of_plain (valid : e.schema.IsValid) (hroot : root ∈ e.schema.types)
    (hobject : root.isObject = true)
    (mergeable : Mergeable e.schema e.fragments (e.occurrences root selections))
    (plain : Plain e.schema e.fragments (e.occurrences root selections))
    {members : List Member} (typed : TypedAll e.schema e.fragments
      (e.occurrences root selections) members)
    (h : Responds e root selections v) : Conforms v (.object (mergeMembers members)) := by
  refine (conforms_all_iff valid hroot hobject mergeable typed).2 (fun p hp => ?_) v h
  have inv := hp.invariant valid hroot mergeable
  have isPlain := hp.isPlain valid hroot mergeable plain
  obtain ⟨-, guards, -⟩ := isPlain.plain
  refine ⟨?_, ?_, ?_⟩
  · intro a ha required
    rw [isPlain.same] at ha
    refine List.mem_map_of_mem (List.mem_filter.2 ⟨ha, ?_⟩)
    rw [Execution.applies, Bool.and_eq_true, List.all_eq_true, List.all_eq_true]
    refine ⟨isPlain.required a ha required, fun d hd => ?_⟩
    -- no directive but these two removes anything
    obtain ⟨hskip, hinclude⟩ := guards a ha d hd
    rw [removes, if_neg hskip, if_neg hinclude]
    rfl
  · intro b hb
    rw [isPlain.same]
    exact List.mem_map_of_mem (List.mem_filter.1 hb).1
  · intro key a b rest kept group hname q hq hqobject
    have hfirst := mem_group_of_eq group
    obtain ⟨rfl, -⟩ := isPlain.group_eq kept group
    obtain ⟨qmem, qsub⟩ := inv.selectedFrom_of_mem_group hfirst q hq
    exact ⟨hname, congrArg SchemaType.name (valid.eq_of_isObject inv.type qmem hqobject qsub).symm⟩

end Places

/-- **The shape of an operation is sound exactly if execution gets to faithful places only.** The
operation belongs to a batch that has shapes, with fragments that are not masked, and its
selections can be merged. -/
theorem conforms_iff_faithful {schema : Schema} (valid : schema.IsValid) {scalars : ScalarTable}
    {documents : List Document} {program : TypeScript.Program}
    (h : Shape.program schema false scalars documents = .ok program) {fragments : List Fragment}
    (hfragments : documents.flatMap Document.fragments = fragments) {document : Document}
    (hdocument : document ∈ documents) {o : Operation} (ho : .operation o ∈ document.definitions)
    (mergeable : ∀ root, schema.root? o.kind = some root →
      Mergeable schema fragments (occurrencesOf schema fragments (some root) o.selections)) :
    ∃ name root, o.name = some name ∧ schema.root? o.kind = some root ∧
      ∃ a ∈ program.aliases, a.name = Naming.shape name o.kind ∧
        ((∀ flags v, Responds ⟨schema, fragments, flags⟩ root o.selections v →
            Conforms v a.type) ↔
          ∀ flags p, Reachable ⟨schema, fragments, flags⟩ root o.selections p →
            Faithful ⟨schema, fragments, flags⟩ p) := by
  subst hfragments
  obtain ⟨shapes, hshapes, -, rfl⟩ := exists_of_program h
  obtain ⟨own, hown, sub⟩ := exists_own_of_ofDocuments hshapes hdocument ho
  obtain ⟨name, root, inputs, draft, hname, hroot, -, hdraft, aliases⟩ := exists_of_ofOperation hown
  obtain ⟨members, typed, made⟩ := exists_typedAll_of_selectionDraft hdraft
  have there : root ∈ schema.types := by
    obtain ⟨_, -, hfind⟩ := Option.bind_eq_some_iff.1 hroot
    exact Schema.mem_of_find? hfind
  refine ⟨name, root, hname, hroot, { name := Naming.shape name o.kind, type := draft.toType },
    ?_, rfl, ?_⟩
  · rw [aliases_programOf]
    have mem := sub (show _ ∈ own.aliases from aliases ▸ List.mem_cons_of_mem _
      (List.mem_singleton_self _))
    exact List.mem_cons_of_mem _ (List.mem_cons_of_mem _ (List.mem_append_right _ mem))
  · rw [made]
    refine forall_congr' fun flags => ?_
    exact conforms_all_iff valid there (valid.roots o.kind root hroot) (mergeable root hroot) typed

/-! ### Two selections of one key -/

/-- A user with an id and a name. -/
def userType : SchemaType :=
  ⟨"User", .object [] [("id", .nonNull (.named "ID")), ("name", .named "String")]⟩

/-- Queries for a user. -/
def userQuery : SchemaType := ⟨"Query", .object [] [("user", .named "User")]⟩

/-- A schema with one user. -/
def userSchema : Schema where
  types := [⟨"ID", .scalar⟩, ⟨"String", .scalar⟩, userType, userQuery]
  roots := { query := some "Query" }
  names_nodup := by decide
  closed := by decide
  roots_closed := by decide

/-- The user's field of some name. -/
def selectUser (field : String) : Selection :=
  .field none "user" [] [] (some [.field none field [] [] none])

/-- A query for the user's id, which spreads a fragment. -/
def userOperation : Operation :=
  ⟨none, .query, some "Q", [], [], [selectUser "id", .spread "More" []]⟩

/-- The fragment, which asks for the user's name. -/
def userFragment : Fragment := ⟨none, "More", "Query", [], [selectUser "name"]⟩

/-- Both in one document. -/
def userDocument : Document := ⟨[.operation userOperation, .fragment userFragment]⟩

theorem isValid_userSchema : userSchema.IsValid where
  roots kind root h := by
    cases kind with
    | query =>
      cases h
      rfl
    | mutation => cases h
    | subscription => cases h
  members t ht name hname := by
    obtain rfl | rfl | rfl | rfl : t = ⟨"ID", .scalar⟩ ∨ t = ⟨"String", .scalar⟩ ∨
      t = userType ∨ t = userQuery := by simpa [userSchema] using ht
    all_goals cases hname
  interfaces t ht name hname := by
    obtain rfl | rfl | rfl | rfl : t = ⟨"ID", .scalar⟩ ∨ t = ⟨"String", .scalar⟩ ∨
      t = userType ∨ t = userQuery := by simpa [userSchema] using ht
    all_goals cases hname

/-- An occurrence of the user, under some type conditions. -/
def userOccurrence (conditions : List String) (field : String) : Occurrence :=
  ⟨"user", "user", some [.field none field [] [] none],
    { scope := some userQuery, conditions := conditions }⟩

/-- An occurrence of a field of the user. -/
def fieldOccurrence (field : String) : Occurrence :=
  ⟨field, field, none, { scope := some userType }⟩

theorem occurrencesOf_userOperation :
    occurrencesOf userSchema [userFragment] (some userQuery) userOperation.selections =
      [userOccurrence [] "id", userOccurrence ["Query"] "name"] := rfl

theorem below_userOccurrence (conditions : List String) (field : String) :
    (userOccurrence conditions field).below userSchema [userFragment] = [fieldOccurrence field] :=
  rfl

theorem sameShape_fieldOccurrence {field : String} (h : field = "id" ∨ field = "name") :
    SameShape userSchema [userFragment] (fieldOccurrence field) (fieldOccurrence field) := by
  rcases h with rfl | rfl
  · exact .leaf (t := .nonNull (.named "ID")) rfl rfl rfl rfl rfl
  · exact .leaf (t := .named "String") rfl rfl rfl rfl rfl

theorem merges_userOccurrence {c d : List String} {f g : String} (hf : f = "id" ∨ f = "name") :
    Merges userSchema [userFragment] (userOccurrence c f) (userOccurrence d g) := by
  refine .same rfl ?_ ?_
  · refine .composite (t := .named "User") (u := .named "User") rfl rfl (.refl _)
      (by simp [userOccurrence]) (by simp [userOccurrence]) rfl rfl rfl rfl ?_
    rw [below_userOccurrence, below_userOccurrence]
    intro x hx y hy hkey
    rw [List.mem_singleton.1 hx, List.mem_singleton.1 hy] at *
    obtain rfl : f = g := hkey
    exact sameShape_fieldOccurrence hf
  · rw [below_userOccurrence, below_userOccurrence]
    intro x hx y hy hkey
    rw [List.mem_singleton.1 hx, List.mem_singleton.1 hy] at *
    obtain rfl : f = g := hkey
    refine .same rfl (sameShape_fieldOccurrence hf) fun x hx => ?_
    cases hx

theorem mergeable_userOperation (root : SchemaType) (h : userSchema.root? .query = some root) :
    Mergeable userSchema [userFragment]
      (occurrencesOf userSchema [userFragment] (some root) userOperation.selections) := by
  cases h
  rw [occurrencesOf_userOperation]
  intro a ha b hb _
  rw [List.mem_pair] at ha hb
  rcases ha with rfl | rfl <;> rcases hb with rfl | rfl <;>
    exact merges_userOccurrence (by simp)

/-- The shape of the query: the fragment's selection of the user is lost. -/
def userShape : TypeExpr :=
  .object [.mk "user" (nullable (.object [.mk "id" (scalarEntry "ID") false false])) false false]

theorem exists_program_userDocument :
    ∃ program, Shape.program userSchema false ScalarTable.builtIn [userDocument] = .ok program ∧
      { name := "QQuery", type := userShape } ∈ program.aliases := by
  refine ⟨_, rfl, ?_⟩
  exact List.mem_of_getElem? (i := 3) rfl

theorem responds_userOperation (flags : String → Bool) :
    Responds ⟨userSchema, [userFragment], flags⟩ userQuery userOperation.selections
      (.object [("user", .object [("id", .leaf "ID"), ("name", .leaf "String")])]) := by
  have user : Completes ⟨userSchema, [userFragment], flags⟩ (.named "User")
      [fieldOccurrence "id", fieldOccurrence "name"]
      (.object [("id", .leaf "ID"), ("name", .leaf "String")]) := by
    have mem : userType ∈ userSchema.types := by simp [userSchema]
    refine .object mem rfl rfl ⟨by decide, ?_, ?_⟩
    · intro key
      exact Iff.rfl
    · intro f hf
      rcases List.mem_pair.1 hf with rfl | rfl
      · exact .field (by simp [fieldOccurrence]) rfl (.nonNull (by nofun) (.leaf rfl))
      · exact .field (by simp [fieldOccurrence]) rfl (.leaf rfl)
  have mem : userQuery ∈ userSchema.types := by simp [userSchema]
  refine .nonNull (by nofun) (.object mem rfl rfl ⟨by decide, ?_, ?_⟩)
  · intro key
    show key ∈ ["user"] ↔ key ∈ ["user", "user"]
    simp
  · intro f hf
    obtain rfl := List.mem_singleton.1 hf
    exact .field (by simp) rfl user

/-- **A key that is selected twice can break a shape**, even if the two selections can be merged:
the user is answered with a name that the shape does not have. -/
theorem exists_response_not_conforms :
    userSchema.IsValid ∧
    (∀ root, userSchema.root? .query = some root → Mergeable userSchema [userFragment]
      (occurrencesOf userSchema [userFragment] (some root) userOperation.selections)) ∧
    ∃ program, Shape.program userSchema false ScalarTable.builtIn [userDocument] = .ok program ∧
      ∃ a ∈ program.aliases, a.name = Naming.shape "Q" .query ∧ ∀ flags, ∃ v,
        Responds ⟨userSchema, [userFragment], flags⟩ userQuery userOperation.selections v ∧
          ¬ Conforms v a.type := by
  obtain ⟨program, hprogram, hmem⟩ := exists_program_userDocument
  refine ⟨isValid_userSchema, mergeable_userOperation, program, hprogram, _, hmem, rfl, ?_⟩
  intro flags
  refine ⟨_, responds_userOperation flags, fun h => ?_⟩
  -- the name is looked for among the keys of the user's shape
  have fits := (conforms_object_iff.1 h).2.2 _ (List.mem_singleton_self _) _
    (List.mem_singleton_self _) rfl
  have inner := (conforms_nullable_iff (v := .object _) (by nofun)).1 fits
  obtain ⟨m, hm, hkey⟩ := (conforms_object_iff.1 inner).2.1 ("name", .leaf "String")
    (List.mem_cons_of_mem _ (List.mem_singleton_self _))
  rw [List.mem_singleton.1 hm] at hkey
  exact absurd hkey (by decide)

/-- The query for the user meets the conditions. -/
theorem conforms_iff_faithful_user :
    userSchema.IsValid ∧ [userDocument].flatMap Document.fragments = [userFragment] ∧
    (∀ root, userSchema.root? .query = some root → Mergeable userSchema [userFragment]
      (occurrencesOf userSchema [userFragment] (some root) userOperation.selections)) ∧
    ∃ program, Shape.program userSchema false ScalarTable.builtIn [userDocument] = .ok program ∧
      ∃ name root, userOperation.name = some name ∧ userSchema.root? .query = some root ∧
        ∃ a ∈ program.aliases, a.name = Naming.shape name .query ∧
          ((∀ flags v, Responds ⟨userSchema, [userFragment], flags⟩ root
              userOperation.selections v → Conforms v a.type) ↔
            ∀ flags p, Reachable ⟨userSchema, [userFragment], flags⟩ root
              userOperation.selections p → Faithful ⟨userSchema, [userFragment], flags⟩ p) := by
  obtain ⟨program, hprogram, -⟩ := exists_program_userDocument
  exact ⟨isValid_userSchema, rfl, mergeable_userOperation, program, hprogram,
    conforms_iff_faithful isValid_userSchema hprogram rfl (List.mem_singleton_self _)
      (List.mem_cons_self ..) mergeable_userOperation⟩

end Shape

end QueryTypes
