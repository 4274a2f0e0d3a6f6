import QueryTypes.Proofs.Schema.Subtypes
import QueryTypes.Proofs.Shape.Masking

/-!
# The members of an object type

An object type is drafted selection by selection, and members take the places of others on the way.
What comes out can be said without the way: list the fields that occur
(`QueryTypes.Shape.Context.occurrences`), each with what stands around it, and for each key that
occurs take the first occurrence that is not optional, or else the first. The object type has a
member for each key, made from that occurrence, in the order in which the keys come up; while
fragments are masked, a last member lists those that are spread
(`QueryTypes.Shape.exists_members_of_selectionDraft`).

Whether an occurrence is optional is read off the type conditions on the way to it: it is not if all
of them name the type that the selections start from (`QueryTypes.Shape.Surrounding.IsTracked`).
-/

namespace QueryTypes

open GraphQL (Fragment Selection)

/-! ### Spreads of a selection set -/

mutual

/-- The fragments that a selection spreads in its own selection set, not below fields. -/
def GraphQL.Selection.ownSpreads : Selection → List String
  | .field _ _ _ _ _ => []
  | .spread name _ => [name]
  | .inlineFragment _ _ selections => ownSpreadsInAll selections

/-- The fragments that some selections spread in their own selection set, from first to last. -/
def GraphQL.Selection.ownSpreadsInAll : List Selection → List String
  | [] => []
  | selection :: rest => selection.ownSpreads ++ ownSpreadsInAll rest

end

namespace Shape

open TypeScript (Member TypeExpr)

/-! ### One more at the end -/

theorem eraseDups_concat (xs : List String) (x : String) :
    (xs ++ [x]).eraseDups = if x ∈ xs then xs.eraseDups else xs.eraseDups ++ [x] := by
  have one : [x].eraseDups = [x] := by rw [List.eraseDups_cons, List.filter_nil, List.eraseDups_nil]
  rw [List.eraseDups_append]
  by_cases h : x ∈ xs <;> simp [h, List.removeAll, one]

/-- **Keys stand in the order in which they came up.** -/
theorem map_key_mergeMembers (members : List Member) :
    (mergeMembers members).map Member.key = (members.map Member.key).eraseDups := by
  induction members using List.reverseRecOn with
  | nil => rfl
  | append_singleton members member ih =>
    rw [mergeMembers_concat, map_key_insertMember, ih, List.map_append, List.map_singleton,
      eraseDups_concat]
    simp only [List.mem_eraseDups]

/-- Some names with one more, if it is new. -/
def withNew (names : List String) (name : String) : List String :=
  if name ∈ names then names else names ++ [name]

/-- **Names of which only new ones are added** stand in the order in which they came up. -/
theorem foldl_withNew (names : List String) : names.foldl withNew [] = names.eraseDups := by
  induction names using List.reverseRecOn with
  | nil => rfl
  | append_singleton names name ih =>
    rw [List.foldl_append, List.foldl_cons, List.foldl_nil, eraseDups_concat, ih, withNew]
    simp only [List.mem_eraseDups]

theorem fragments_addFragment (draft : Draft) (name : String) :
    (draft.addFragment name).fragments = withNew draft.fragments name := by
  rw [Draft.addFragment, withNew]
  split <;> rfl

/-! ### Members made from occurrences -/

/-- **The member for an occurrence**, given the rule for spreads below it. -/
def Occurrence.member (schema : Schema) (document : String) (spread : SpreadRule)
    (o : Occurrence) : Except ShapeError Member :=
  if o.name = "__typename" then
    .ok (.mk o.key (typenameType o.around.scope) o.isOptional false)
  else match fieldType document o.around.scope o.name with
    | .error e => .error e
    | .ok type => match o.selections with
      | none => .ok (.mk o.key (typeOf (leaf schema type.baseName) type) o.isOptional false)
      | some selections =>
        match addSelections schema document spread (schema.find? type.baseName) false {}
            selections with
        | .error e => .error e
        | .ok below => .ok (.mk o.key (typeOf below.toType type) o.isOptional false)

section Collecting

variable {schema : Schema} {document : String} {spread full : SpreadRule}
  {behind : Surrounding → String → List Occurrence} {marks : String → List String}

theorem Occurrence.key_of_member {o : Occurrence} {m : Member}
    (h : o.member schema document full = .ok m) : m.key = o.key ∧ m.isOptional = o.isOptional := by
  unfold Occurrence.member at h
  split at h
  · cases h
    exact ⟨rfl, rfl⟩
  · split at h
    · cases h
    · split at h
      · cases h
        exact ⟨rfl, rfl⟩
      · split at h
        · cases h
        · cases h
          exact ⟨rfl, rfl⟩

/-- Members, one made from each occurrence. -/
def MadeFrom (schema : Schema) (document : String) (full : SpreadRule) :
    List Occurrence → List Member → Prop :=
  List.Forall₂ fun o m => o.member schema document full = .ok m

/-- Members have the keys of the occurrences that they are made from. -/
theorem MadeFrom.map_key {os : List Occurrence} {members : List Member}
    (h : MadeFrom schema document full os members) :
    members.map Member.key = os.map Occurrence.key := by
  induction h with
  | nil => rfl
  | cons made _ ih =>
    rw [List.map_cons, List.map_cons, ih, (Occurrence.key_of_member made).1]

/-- A draft goes on to another one by the members made from some occurrences and the marks of some
fragments. -/
structure Collects (schema : Schema) (document : String) (full : SpreadRule)
    (os : List Occurrence) (names : List String) (draft next : Draft) : Prop where
  /-- The members are added one after another. -/
  members : ∃ members, MadeFrom schema document full os members ∧
    next.members = members.foldl (fun all m => insertMember m all) draft.members
  /-- So are the fragments. -/
  fragments : next.fragments = names.foldl withNew draft.fragments

/-- A rule for spreads gives all that another one gives. -/
def Extends (spread full : SpreadRule) : Prop :=
  ∀ ⦃scope : Option SchemaType⦄ ⦃optional : Bool⦄ ⦃draft next : Draft⦄ ⦃name : String⦄,
    spread scope optional draft name = .ok next → full scope optional draft name = .ok next

/-- What a spread adds are members from the occurrences behind it, and marks. -/
def SpreadCollects (schema : Schema) (document : String) (spread full : SpreadRule)
    (behind : Surrounding → String → List Occurrence) (marks : String → List String) : Prop :=
  ∀ ⦃around : Surrounding⦄ ⦃draft next : Draft⦄ ⦃name : String⦄,
    spread around.scope around.optional draft name = .ok next →
      Collects schema document full (behind around name) (marks name) draft next

mutual

theorem addSelection_extends (more : Extends spread full) : ∀ (s : Selection)
    {scope : Option SchemaType} {optional : Bool} {draft next : Draft},
    addSelection schema document spread scope optional draft s = .ok next →
      addSelection schema document full scope optional draft s = .ok next
  | .field _ name _ _ selections, scope, optional, draft, next, h => by
    rw [addSelection] at h ⊢
    split at h
    · next hname => rwa [if_pos hname]
    · next hname =>
      rw [if_neg hname]
      cases hf : fieldType document scope name with
      | error e =>
        rw [hf] at h
        cases h
      | ok type =>
        rw [hf] at h
        cases selections with
        | none => exact h
        | some selections =>
          dsimp only at h ⊢
          split at h
          · cases h
          next below hb => rwa [addSelections_extends more selections hb]
  | .spread name _, scope, optional, draft, next, h => by
    rw [addSelection] at h ⊢
    exact more h
  | .inlineFragment none _ selections, scope, optional, draft, next, h => by
    rw [addSelection] at h ⊢
    exact addSelections_extends more selections h
  | .inlineFragment (some condition) _ selections, scope, optional, draft, next, h => by
    rw [addSelection] at h ⊢
    split at h
    · cases h
    next type htype => exact addSelections_extends more selections h

theorem addSelections_extends (more : Extends spread full) : ∀ (selections : List Selection)
    {scope : Option SchemaType} {optional : Bool} {draft next : Draft},
    addSelections schema document spread scope optional draft selections = .ok next →
      addSelections schema document full scope optional draft selections = .ok next
  | [], _, _, _, _, h => by
    rw [addSelections] at h ⊢
    exact h
  | s :: rest, scope, optional, draft, next, h => by
    rw [addSelections] at h ⊢
    split at h
    · cases h
    next middle hmiddle =>
      rw [addSelection_extends more s hmiddle]
      exact addSelections_extends more rest h

end

/-- A field adds the member that is made from it. -/
theorem collects_member {o : Occurrence} {m : Member}
    (made : o.member schema document full = .ok m) (draft : Draft) (enums : List String) :
    Collects schema document full [o] [] draft ((draft.addMember m).addEnums enums) :=
  ⟨⟨[m], .cons made .nil, (members_addEnums ..).1⟩, (members_addEnums ..).2⟩

theorem Collects.trans {os ps : List Occurrence} {names others : List String}
    {draft middle next : Draft} (h : Collects schema document full os names draft middle)
    (h' : Collects schema document full ps others middle next) :
    Collects schema document full (os ++ ps) (names ++ others) draft next := by
  obtain ⟨⟨members, made, hmembers⟩, hfragments⟩ := h
  obtain ⟨⟨members', made', hmembers'⟩, hfragments'⟩ := h'
  refine ⟨⟨members ++ members', List.rel_append made made', ?_⟩, ?_⟩
  · rw [List.foldl_append, ← hmembers, hmembers']
  · rw [List.foldl_append, ← hfragments, hfragments']

mutual

theorem collects_of_addSelection (more : Extends spread full)
    (hs : SpreadCollects schema document spread full behind marks) : ∀ (s : Selection)
    (around : Surrounding) {draft next : Draft},
    addSelection schema document spread around.scope around.optional draft s = .ok next →
      Collects schema document full (occurrencesIn schema behind around s)
        (s.ownSpreads.flatMap marks) draft next
  | .field responseName name _ directives selections, around, draft, next, h => by
    rw [addSelection] at h
    rw [occurrencesIn]
    by_cases hname : name = "__typename"
    · rw [if_pos hname] at h
      cases h
      exact collects_member (by rw [Occurrence.member, if_pos hname]; rfl) draft []
    rw [if_neg hname] at h
    cases hf : fieldType document around.scope name with
    | error e =>
      rw [hf] at h
      cases h
    | ok type =>
      rw [hf] at h
      have own : fieldType document (around.guard directives).scope name = .ok type := hf
      cases selections with
      | none =>
        cases h
        exact collects_member (by rw [Occurrence.member, if_neg hname, own]; rfl) ..
      | some selections =>
        dsimp only at h
        split at h
        · cases h
        next below hb =>
          cases h
          -- what is selected below has its draft under the full rule as well
          have full := addSelections_extends more selections hb
          exact collects_member (by
            rw [Occurrence.member, if_neg hname, own]
            dsimp only
            rw [full]
            rfl) ..
  | .spread name directives, around, draft, next, h => by
    rw [addSelection] at h
    rw [occurrencesIn, GraphQL.Selection.ownSpreads, List.flatMap_singleton]
    exact @hs (around.guard directives) _ _ _ h
  | .inlineFragment none directives selections, around, draft, next, h => by
    rw [addSelection] at h
    rw [occurrencesIn, GraphQL.Selection.ownSpreads]
    exact collects_of_addSelections more hs selections (around.guard directives) h
  | .inlineFragment (some condition) directives selections, around, draft, next, h => by
    rw [addSelection] at h
    split at h
    · cases h
    next type htype =>
      rw [occurrencesIn, GraphQL.Selection.ownSpreads, htype]
      exact collects_of_addSelections more hs selections
        ((around.guard directives).enter condition (some type)) h

theorem collects_of_addSelections (more : Extends spread full)
    (hs : SpreadCollects schema document spread full behind marks) :
    ∀ (selections : List Selection) (around : Surrounding) {draft next : Draft},
    addSelections schema document spread around.scope around.optional draft selections =
        .ok next →
      Collects schema document full (occurrencesInAll schema behind around selections)
        ((GraphQL.Selection.ownSpreadsInAll selections).flatMap marks) draft next
  | [], _, _, _, h => by
    cases h
    exact ⟨⟨[], .nil, rfl⟩, rfl⟩
  | s :: rest, around, draft, next, h => by
    rw [addSelections] at h
    split at h
    · cases h
    next middle hmiddle =>
      rw [occurrencesInAll, GraphQL.Selection.ownSpreadsInAll, List.flatMap_append]
      exact (collects_of_addSelection more hs s around hmiddle).trans
        (collects_of_addSelections more hs rest around h)

end

/-! ### The two rules for spreads -/

variable {fragments : List Fragment}

/-- A masked spread adds the mark of its fragment and no member. -/
theorem spreadCollects_maskedSpread : SpreadCollects schema document maskedSpread maskedSpread
    (fun _ _ => []) fun name => [name] := by
  intro around draft next name h
  cases h
  exact ⟨⟨[], .nil, (addFragment_eq draft name).1⟩, fragments_addFragment draft name⟩

/-- What can be opened in so many spreads can be opened in more. -/
theorem extends_openSpread (depth : Nat) : ∀ more, depth ≤ more →
    Extends (openSpread schema document fragments depth)
      (openSpread schema document fragments more) := by
  induction depth with
  | zero =>
    intro more _ scope optional draft next name h
    rw [openSpread] at h
    split at h <;> cases h
  | succ depth ih =>
    intro more hmore scope optional draft next name h
    obtain ⟨more, rfl⟩ : ∃ m, more = m + 1 := ⟨more - 1, by omega⟩
    rw [openSpread] at h ⊢
    split at h
    · cases h
    next fragment hfragment =>
      exact addSelections_extends (ih more (by omega)) fragment.selections h

/-- An open spread adds the members from the occurrences behind it, and no mark. The induction is on
how many spreads may be opened on the way; the members are those of the full rule all along. -/
theorem spreadCollects_openSpread {bound : Nat} (depth : Nat) (hd : depth ≤ bound) :
    SpreadCollects schema document (openSpread schema document fragments depth)
      (openSpread schema document fragments bound) (spreadOccurrences schema fragments depth)
      fun _ => [] := by
  induction depth with
  | zero =>
    intro around draft next name h
    rw [openSpread] at h
    split at h <;> cases h
  | succ depth ih =>
    intro around draft next name h
    rw [openSpread] at h
    split at h
    · cases h
    next fragment hfragment =>
      have inside := collects_of_addSelections (extends_openSpread depth bound (by omega))
        (ih (by omega)) fragment.selections
        (around.enter fragment.condition (schema.find? fragment.condition)) h
      rw [List.flatMap_eq_nil_iff.2 fun _ _ => rfl] at inside
      rw [spreadOccurrences, hfragment]
      exact inside

end Collecting

/-! ### The way to an occurrence -/

/-- **What stands around a field is read off the type conditions on the way**: the type is that of
the last condition, or the one that the selections start from, and members are optional if some
condition names another type than the one before it. -/
structure Surrounding.IsTracked (schema : Schema) (start : String) (around : Surrounding) :
    Prop where
  /-- The type around a field. -/
  scope : around.scope = schema.find? (around.conditions.getLastD start)
  /-- Whether members are optional. -/
  optional : around.optional = true ↔ ¬ List.IsChain (· = ·) (start :: around.conditions)

section Tracking

variable {schema : Schema} {start : SchemaType}

/-- Conditions that all name the type before them all name the first type. -/
theorem getLastD_of_isChain {start : String} {conditions : List String}
    (h : List.IsChain (· = ·) (start :: conditions)) : conditions.getLastD start = start := by
  induction conditions generalizing start with
  | nil => rfl
  | cons condition rest ih =>
    obtain ⟨rfl, h⟩ := List.isChain_cons_cons.1 h
    rw [List.getLastD_cons]
    exact ih h

theorem isChain_concat_iff {start condition : String} {conditions : List String} :
    List.IsChain (· = ·) (start :: (conditions ++ [condition])) ↔
      List.IsChain (· = ·) (start :: conditions) ∧ start = condition := by
  induction conditions generalizing start with
  | nil => simp
  | cons first rest ih =>
    rw [List.cons_append, List.isChain_cons_cons, List.isChain_cons_cons, ih, and_assoc]
    refine and_congr_right ?_
    rintro rfl
    exact Iff.rfl

/-- Entering a fragment keeps track of what stands around. -/
theorem preserves_isTracked (hstart : start ∈ schema.types) :
    Surrounding.Preserves schema (Surrounding.IsTracked schema start.name) where
  guard _ _ h := ⟨h.scope, h.optional⟩
  enter around condition h := by
    refine ⟨by rw [Surrounding.enter, List.getLastD_concat], ?_⟩
    rw [Surrounding.enter, isChain_concat_iff, optionalInside, Bool.or_eq_true, h.optional,
      not_and_or]
    by_cases chain : List.IsChain (· = ·) (start.name :: around.conditions)
    · -- so far all conditions name the first type, and this is the type around
      rw [h.scope, getLastD_of_isChain chain, Schema.find?_name hstart]
      refine or_congr_right ?_
      rw [bne_iff_ne, Ne, not_iff_not]
      constructor
      · intro same
        obtain ⟨type, htype, hname⟩ := Option.map_eq_some_iff.1 same
        exact hname.symm.trans (Schema.name_of_find? htype)
      · rintro rfl
        rw [Schema.find?_name hstart]
    · exact iff_of_true (Or.inl chain) (Or.inl chain)

theorem isTracked_start (hstart : start ∈ schema.types) :
    Surrounding.IsTracked schema start.name { scope := some start } where
  scope := (Schema.find?_name hstart).symm
  optional := iff_of_false nofun (not_not_intro (.singleton _))

end Tracking

/-! ### The object type of a selection set -/

namespace Context

/-- **The fields that occur in the selections on a type**, also behind spreads unless fragments are
masked. -/
def occurrences (context : Context) (parent : SchemaType) (selections : List Selection) :
    List Occurrence :=
  if context.masking then
    occurrencesInAll context.schema (fun _ _ => []) { scope := some parent } selections
  else occurrencesOf context.schema context.fragments (some parent) selections

/-- The fragments that are spread in some selections, each once, if they are masked. -/
def marks (context : Context) (selections : List Selection) : List String :=
  if context.masking then (GraphQL.Selection.ownSpreadsInAll selections).eraseDups else []

/-- The rule for spreads. -/
def spread (context : Context) (document : String) : SpreadRule :=
  spreadIn context.schema context.masking context.fragments document

variable {context : Context} {document : String} {parent : SchemaType}
  {selections : List Selection} {draft : Draft}

theorem isTracked_of_mem_occurrences (hparent : parent ∈ context.schema.types) {o : Occurrence}
    (ho : o ∈ context.occurrences parent selections) :
    o.around.IsTracked context.schema parent.name := by
  unfold occurrences at ho
  split at ho
  · exact of_mem_occurrencesInAll (preserves_isTracked hparent)
      (fun _ _ _ _ ho => absurd ho List.not_mem_nil) selections _ (isTracked_start hparent) o ho
  · exact of_mem_occurrencesOf (preserves_isTracked hparent) (isTracked_start hparent) o ho

/-- The draft of a selection set holds the members from its occurrences, and its marks. -/
theorem exists_madeFrom (h : selectionDraft context document parent selections = .ok draft) :
    ∃ made, MadeFrom context.schema document (context.spread document)
      (context.occurrences parent selections) made ∧ draft.members = mergeMembers made ∧
        draft.fragments = context.marks selections := by
  obtain ⟨schema, masking, fragments⟩ := context
  cases masking with
  | true =>
    obtain ⟨⟨made, hmade, hmembers⟩, hfragments⟩ :=
      collects_of_addSelections (fun _ _ _ _ _ h => h) spreadCollects_maskedSpread selections
        { scope := some parent } h
    refine ⟨made, hmade, hmembers, hfragments.trans ?_⟩
    rw [List.flatMap_singleton', foldl_withNew]
    rfl
  | false =>
    obtain ⟨⟨made, hmade, hmembers⟩, hfragments⟩ :=
      collects_of_addSelections (fun _ _ _ _ _ h => h)
        (spreadCollects_openSpread fragments.length (Nat.le_refl _)) selections
        { scope := some parent } h
    refine ⟨made, hmade, hmembers, hfragments.trans ?_⟩
    rw [List.flatMap_eq_nil_iff.2 fun _ _ => rfl]
    rfl

/-- The last member, if some fragments are marked. -/
def marker (context : Context) (selections : List Selection) : List Member :=
  if (context.marks selections).isEmpty then []
  else [Draft.fragmentsMember (context.marks selections)]

/-- No member of names for keys has the key of the last one. -/
theorem nodup_keys_marker {members : List Member} (distinct : (members.map Member.key).Nodup)
    (unmarked : context.masking = true → ∀ m ∈ members, m.key ≠ Naming.fragmentsKey) :
    ((members ++ context.marker selections).map Member.key).Nodup := by
  unfold marker marks
  cases hmasking : context.masking with
  | false => simpa using distinct
  | true =>
    rw [if_pos rfl]
    split
    · simpa using distinct
    · rw [List.map_append, List.nodup_append]
      refine ⟨distinct, List.nodup_singleton _, fun key hkey last hlast => ?_⟩
      obtain ⟨m, hm, rfl⟩ := List.mem_map.1 hkey
      rw [List.mem_singleton.1 hlast]
      exact unmarked hmasking m hm

end Context

section Kept

variable {α β : Type} {R : α → β → Prop} {xs : List α} {ys : List β}

/-- What corresponds is found by tests that correspond. -/
theorem rel_find? {p : α → Bool} {q : β → Bool} (h : List.Forall₂ R xs ys)
    (same : ∀ x y, R x y → p x = q y) : Option.Rel R (xs.find? p) (ys.find? q) := by
  induction h with
  | nil => exact .none
  | cons hxy _ ih =>
    rw [List.find?_cons, List.find?_cons, same _ _ hxy]
    split
    · exact .some hxy
    · exact ih

theorem rel_or {a c : Option α} {b d : Option β} (h : Option.Rel R a b) (h' : Option.Rel R c d) :
    Option.Rel R (a.or c) (b.or d) := by
  cases h with
  | some hxy => exact .some hxy
  | none => exact h'

/-- What stays of things that correspond corresponds. -/
theorem rel_firstKept {key : α → String} {isOptional : α → Bool} {key' : β → String}
    {isOptional' : β → Bool} (h : List.Forall₂ R xs ys)
    (same : ∀ x y, R x y → key' y = key x ∧ isOptional' y = isOptional x) (k : String) :
    Option.Rel R (firstKept key isOptional xs k) (firstKept key' isOptional' ys k) := by
  have required := rel_find? (p := fun x => decide (key x = k) && !isOptional x)
    (q := fun y => decide (key' y = k) && !isOptional' y) h fun x y hxy => by
      rw [(same x y hxy).1, (same x y hxy).2]
  have any := rel_find? (p := fun x => decide (key x = k)) (q := fun y => decide (key' y = k)) h
    fun x y hxy => by rw [(same x y hxy).1]
  exact rel_or required any

end Kept

variable {context : Context} {document : String} {parent : SchemaType}
  {selections : List Selection} {draft : Draft} {os : List Occurrence} {made : List Member}

/-- **Each member is made from the occurrence that stays**, and is optional if all of its key
are. -/
theorem MadeFrom.exists_firstKept (h : MadeFrom context.schema document (context.spread document)
    os made) {m : Member} (hm : m ∈ mergeMembers made) :
    ∃ o, firstKept Occurrence.key Occurrence.isOptional os m.key = some o ∧
      o.member context.schema document (context.spread document) = .ok m ∧
      (m.isOptional = true ↔ ∀ p ∈ os, p.key = m.key → p.isOptional = true) := by
  have kept : Option.Rel _ (firstKept Occurrence.key Occurrence.isOptional os m.key)
      (firstKept Member.key Member.isOptional made m.key) :=
    rel_firstKept h (fun o m made => Occurrence.key_of_member made) m.key
  rw [mem_mergeMembers_iff.1 hm] at kept
  cases hk : firstKept Occurrence.key Occurrence.isOptional os m.key with
  | none =>
    rw [hk] at kept
    cases kept
  | some o =>
    rw [hk] at kept
    cases kept with
    | some hom =>
      refine ⟨o, rfl, hom, ?_⟩
      rw [(Occurrence.key_of_member hom).2]
      constructor
      · intro optional p hp hkey
        by_contra required
        rw [isOptional_firstKept hp (eq_false_of_ne_true required) (hkey ▸ hk)] at optional
        cases optional
      · exact fun all => all o (key_of_firstKept hk).2 (key_of_firstKept hk).1

/-- The interface of things with an id. -/
def nodeType : SchemaType := ⟨"Node", .interface [] [("id", .nonNull (.named "ID"))]⟩

/-- Selections on the interface: for users and, inside, for the interface again, then without a
condition. The id is selected twice, and a fragment is spread twice. -/
def nodeSelections : List Selection :=
  [.inlineFragment (some "User") [] [.field none "id" [] [] none, .field none "name" [] [] none,
      .inlineFragment (some "Node") [] [.field (some "kind") "__typename" [] [] none]],
    .field none "id" [] [] none, .spread "Named" [], .inlineFragment none [] [.spread "Named" []]]

end Shape

end QueryTypes
