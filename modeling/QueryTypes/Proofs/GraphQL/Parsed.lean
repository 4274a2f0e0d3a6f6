import QueryTypes.GraphQL.Parser
import QueryTypes.GraphQL.Scrub

/-!
# What every parsed document has

Three facts about the documents that texts hold. Operations and fragments are named by names of
the grammar, so their names may stand in paths and in the names of types. So are the keys under
which fields are answered. And what the declaration of a variable says, its default value and its
directives, uses no variables.

All are read off the parser. A parser *reads* values with some property
(`QueryTypes.GraphQL.Parser.Reads`) if whatever it returns has the property and the tokens it
leaves are still tokens with proper names; a parser put together from others reads what their
properties make it read.
-/

namespace QueryTypes

namespace GraphQL

/-! ### Values without variables -/

theorem Value.usedVariablesInItems_eq_nil {items : List Value}
    (h : ∀ v ∈ items, v.usedVariables = []) : Value.usedVariablesInItems items = [] := by
  induction items with
  | nil => rfl
  | cons v rest ih =>
    rw [Value.usedVariablesInItems, h v (by simp), ih fun w hw => h w (by simp [hw]),
      List.append_nil]

theorem Value.usedVariablesInFields_eq_nil {fields : List (String × Value)}
    (h : ∀ f ∈ fields, f.2.usedVariables = []) : Value.usedVariablesInFields fields = [] := by
  induction fields with
  | nil => rfl
  | cons f rest ih =>
    rw [Value.usedVariablesInFields, h f (by simp), ih fun g hg => h g (by simp [hg]),
      List.append_nil]

/-! ### Names -/

namespace Token

/-- Whether characters form a name of the grammar. -/
def isName : List Char → Bool
  | [] => false
  | c :: rest => isNameStart c && rest.all isNameRest

/-- A name of the grammar. -/
def IsName (text : String) : Prop := isName text.toList = true

instance : DecidablePred IsName := fun _ => inferInstanceAs (Decidable (_ = true))

/-- The characters of a name are those that may continue one. -/
theorem isNameRest_of_isName {chars : List Char} (h : isName chars = true) :
    ∀ c ∈ chars, isNameRest c = true := by
  cases chars with
  | nil => simp
  | cons c rest =>
    simp only [isName, Bool.and_eq_true, List.all_eq_true] at h
    intro d hd
    rcases List.mem_cons.1 hd with rfl | hd
    · rw [isNameRest, h.1, Bool.true_or]
    · exact h.2 d hd

/-- A character that cannot continue a name does not occur in one. -/
theorem IsName.not_mem {text : String} (h : IsName text) {c : Char}
    (hc : isNameRest c = false) : c ∉ text.toList := by
  intro hm
  rw [isNameRest_of_isName h c hm] at hc
  exact absurd hc (by simp)

theorem IsName.ne_empty {text : String} (h : IsName text) : text ≠ "" := by
  rintro rfl
  simp [IsName, isName] at h

/-- The names among some tokens are names of the grammar. -/
def Named (tokens : List Token) : Prop := ∀ text, .name text ∈ tokens → IsName text

theorem Named.tail {token : Token} {tokens : List Token} (h : Named (token :: tokens)) :
    Named tokens := fun text ht => h text (List.mem_cons_of_mem _ ht)

/-- Marks and numbers are no names. -/
theorem readNumber?_ne_name {text rest : List Char} {name : String}
    (h : readNumber? text = some (.name name, rest)) : False := by
  simp only [readNumber?] at h
  repeat' split at h
  all_goals simp at h

/-- A name that is cut off a text is one. -/
theorem isName_of_read? {fuel : Nat} {text rest : List Char} {name : String}
    (h : read? fuel text = some (.name name, rest)) : IsName name := by
  unfold read? at h
  split at h
  · simp at h
  · simp at h
  · simp at h
  · next c rest' _ _ _ =>
    split at h
    · simp at h
    · split at h
      · next hstart =>
        simp only [Option.some.injEq, Prod.mk.injEq, Token.name.injEq] at h
        obtain ⟨rfl, -⟩ := h
        rw [IsName, String.toList_ofList, isName, hstart, List.all_takeWhile]
        rfl
      · split at h
        · exact (readNumber?_ne_name h).elim
        · simp at h
  · simp at h

theorem named_of_ofText? {fuel : Nat} {text : List Char} {tokens : List Token}
    (h : ofText? fuel text = some tokens) : Named tokens := by
  induction fuel generalizing text tokens with
  | zero => simp [ofText?] at h
  | succ fuel ih =>
    cases text with
    | nil =>
      obtain rfl : [] = tokens := by simpa [ofText?] using h
      exact fun text ht => by simp at ht
    | cons c rest =>
      rw [ofText?] at h
      split at h
      · exact ih h
      · split at h
        · exact ih h
        · split at h
          · simp at h
          · next token rest' hread =>
            obtain ⟨tokens', htokens, rfl⟩ := Option.map_eq_some_iff.1 h
            intro text ht
            rcases List.mem_cons.1 ht with rfl | ht
            · exact isName_of_read? hread
            · exact ih htokens text ht

theorem named_of_ofString? {text : String} {tokens : List Token}
    (h : ofString? text = some tokens) : Named tokens := named_of_ofText? h

end Token

/-! ### Parsed definitions -/

/-- An operation whose name, if it has one, is a name of the grammar, and whose declarations of
variables are constant. -/
structure Operation.IsParsed (o : Operation) : Prop where
  /-- The name is a name. -/
  name : ∀ name, o.name = some name → Token.IsName name
  /-- Declarations of variables are constant. -/
  constant : ∀ v ∈ o.variableDefinitions, v.usedVariables = []

/-- A definition as it comes out of a text: operations and fragments are properly named, and
declarations of variables are constant. -/
def Definition.IsParsed : Definition → Prop
  | .operation o => o.IsParsed
  | .fragment f => Token.IsName f.name
  | _ => True

/-- A document as it comes out of a text. -/
def Document.IsParsed (document : Document) : Prop := ∀ d ∈ document.definitions, d.IsParsed

/-! ### Keys of fields -/

mutual

/-- The keys under which the fields in a selection are answered, at every depth. -/
def Selection.keys : Selection → List String
  | .field responseName name _ _ none => [responseName.getD name]
  | .field responseName name _ _ (some selections) =>
    responseName.getD name :: Selection.keysInAll selections
  | .spread _ _ => []
  | .inlineFragment _ _ selections => Selection.keysInAll selections

/-- The keys under which the fields in some selections are answered. -/
def Selection.keysInAll : List Selection → List String
  | [] => []
  | selection :: rest => selection.keys ++ Selection.keysInAll rest

end

theorem Selection.mem_keysInAll_iff {selections : List Selection} {key : String} :
    key ∈ keysInAll selections ↔ ∃ s ∈ selections, key ∈ s.keys := by
  induction selections with
  | nil => simp [keysInAll]
  | cons s rest ih => simp [keysInAll, ih]

/-- All keys of a definition are names of the grammar. -/
def Definition.HasNamedKeys : Definition → Prop
  | .operation o => ∀ key ∈ Selection.keysInAll o.selections, Token.IsName key
  | .fragment f => ∀ key ∈ Selection.keysInAll f.selections, Token.IsName key
  | _ => True

instance : DecidablePred Definition.HasNamedKeys
  | .operation o =>
    inferInstanceAs (Decidable (∀ key ∈ Selection.keysInAll o.selections, Token.IsName key))
  | .fragment f =>
    inferInstanceAs (Decidable (∀ key ∈ Selection.keysInAll f.selections, Token.IsName key))
  | .schema _ | .schemaExtension _ | .type _ | .typeExtension _ | .directive _
  | .directiveExtension _ => inferInstanceAs (Decidable True)

/-- All keys of a document are names of the grammar. -/
def Document.HasNamedKeys (document : Document) : Prop :=
  ∀ d ∈ document.definitions, d.HasNamedKeys

instance : DecidablePred Document.HasNamedKeys := fun document =>
  inferInstanceAs (Decidable (∀ d ∈ document.definitions, d.HasNamedKeys))

/-! ### What parsers read -/

namespace Parser

open Token (Named IsName)

variable {α β : Type}

/-- **What a parser reads**: from tokens with proper names, only values with the property, and
it leaves tokens with proper names. -/
def Reads (p : Parser α) (P : α → Prop) : Prop :=
  ∀ (tokens rest : List Token) (a : α), Named tokens → p tokens = some (a, rest) →
    P a ∧ Named rest

theorem Reads.mono {p : Parser α} {P Q : α → Prop} (h : Reads p P) (hPQ : ∀ a, P a → Q a) :
    Reads p Q := fun tokens rest a ht hp =>
  (h tokens rest a ht hp).imp_left (hPQ a)

theorem Reads.pure {P : α → Prop} {a : α} (h : P a) : Reads (Pure.pure a) P := by
  intro tokens rest b ht hp
  have same : some (a, tokens) = some (b, rest) := hp
  obtain ⟨rfl, rfl⟩ := Prod.mk.inj (Option.some.inj same)
  exact ⟨h, ht⟩

theorem Reads.failure {P : α → Prop} : Reads Alternative.failure P := by
  intro tokens rest b ht hp
  simp [Alternative.failure, StateT.failure] at hp

/-- One parser after another reads what the second reads behind what the first has read. -/
theorem Reads.bind {p : Parser α} {f : α → Parser β} {P : α → Prop} {Q : β → Prop}
    (hp : Reads p P) (hf : ∀ a, P a → Reads (f a) Q) : Reads (p >>= f) Q := by
  intro tokens rest b ht h
  obtain ⟨⟨a, middle⟩, ha, hb⟩ : ∃ r, p tokens = some r ∧ f r.1 r.2 = some (b, rest) := by
    simpa [Bind.bind, StateT.bind, Option.bind_eq_some_iff] using h
  obtain ⟨hPa, hm⟩ := hp tokens middle a ht ha
  exact hf a hPa middle rest b hm hb

theorem Reads.map {p : Parser α} {f : α → β} {P : α → Prop} {Q : β → Prop}
    (hp : Reads p P) (hf : ∀ a, P a → Q (f a)) : Reads (f <$> p) Q := by
  intro tokens rest b ht h
  obtain ⟨a, ha, rfl⟩ : ∃ a, p tokens = some (a, rest) ∧ f a = b := by
    simpa [Functor.map, StateT.map, Option.bind_eq_some_iff] using h
  exact (hp tokens rest a ht ha).imp_left (hf a)

theorem Reads.ite_of {p q : Parser α} {P : α → Prop} {c : Prop} [Decidable c] (hp : c → Reads p P)
    (hq : Reads q P) : Reads (if c then p else q) P := by
  split
  · next h => exact hp h
  · exact hq

theorem Reads.ite {p q : Parser α} {P : α → Prop} {c : Prop} [Decidable c] (hp : Reads p P)
    (hq : Reads q P) : Reads (if c then p else q) P := by
  split
  · exact hp
  · exact hq

/-- Two ways on, after which the same parser goes on. -/
theorem Reads.branch {p q : Parser α} {f : α → Parser β} {P : α → Prop} {Q : β → Prop} {c : Prop}
    [Decidable c] (hp : Reads p P) (hq : Reads q P) (hf : ∀ a, P a → Reads (f a) Q) :
    Reads (if c then p >>= f else q >>= f) Q := Reads.ite (hp.bind hf) (hq.bind hf)

/-! ### Single tokens -/

theorem reads_peek : Reads peek fun _ => True := by
  intro tokens rest a ht h
  obtain ⟨-, rfl⟩ : tokens.head? = a ∧ tokens = rest := by simpa [peek] using h
  exact ⟨trivial, ht⟩

theorem reads_peekSecond : Reads peekSecond fun _ => True := by
  intro tokens rest a ht h
  obtain ⟨-, rfl⟩ : tokens.tail.head? = a ∧ tokens = rest := by simpa [peekSecond] using h
  exact ⟨trivial, ht⟩

theorem reads_next : Reads next fun _ => True := by
  intro tokens rest a ht h
  cases tokens with
  | nil => simp [next] at h
  | cons token tokens =>
    obtain ⟨-, rfl⟩ : token = a ∧ tokens = rest := by simpa [next] using h
    exact ⟨trivial, ht.tail⟩

theorem reads_skip (token : Token) : Reads (skip token) fun _ => True := by
  intro tokens rest a ht h
  cases tokens with
  | nil =>
    obtain ⟨-, rfl⟩ : false = a ∧ [] = rest := by simpa [skip] using h
    exact ⟨trivial, ht⟩
  | cons t tokens =>
    rw [skip] at h
    split at h
    · obtain ⟨-, rfl⟩ : true = a ∧ tokens = rest := by simpa using h
      exact ⟨trivial, ht.tail⟩
    · obtain ⟨-, rfl⟩ : false = a ∧ t :: tokens = rest := by simpa using h
      exact ⟨trivial, ht⟩

theorem reads_expect (token : Token) : Reads (expect token) fun _ => True := by
  intro tokens rest a ht h
  cases tokens with
  | nil => simp [expect] at h
  | cons t tokens =>
    rw [expect] at h
    split at h
    · obtain rfl : tokens = rest := by simpa using h
      exact ⟨trivial, ht.tail⟩
    · simp at h

theorem reads_skipMark (c : Char) : Reads (skipMark c) fun _ => True := reads_skip _

theorem reads_expectMark (c : Char) : Reads (expectMark c) fun _ => True := reads_expect _

theorem reads_skipWord (word : String) : Reads (skipWord word) fun _ => True := reads_skip _

theorem reads_expectWord (word : String) : Reads (expectWord word) fun _ => True := reads_expect _

/-- **A name that is read is a name of the grammar.** -/
theorem reads_name : Reads name IsName := by
  intro tokens rest a ht h
  unfold name at h
  split at h
  · next text tokens =>
    obtain ⟨rfl, rfl⟩ : text = a ∧ tokens = rest := by simpa using h
    exact ⟨ht _ (List.mem_cons_self ..), ht.tail⟩
  · simp at h

/-! ### Repetition -/

section Repetition

variable {item : Parser α} {P : α → Prop}

theorem Reads.itemsUntil (h : Reads item P) (close : Char) (bound : Nat) :
    Reads (itemsUntil close item bound) fun as => ∀ a ∈ as, P a := by
  induction bound with
  | zero => exact Reads.failure
  | succ bound ih =>
    refine h.bind fun first hfirst => (reads_skipMark close).bind fun stop _ => ?_
    refine Reads.ite (Reads.pure (by simpa using hfirst)) (ih.bind fun rest hrest => ?_)
    exact Reads.pure (by simpa using ⟨hfirst, hrest⟩)

theorem Reads.items (h : Reads item P) (close : Char) :
    Reads (items close item) fun as => ∀ a ∈ as, P a :=
  fun tokens rest as ht hp => h.itemsUntil close tokens.length tokens rest as ht hp

theorem Reads.between (h : Reads item P) (opening close : Char) :
    Reads (between opening close item) fun as => ∀ a ∈ as, P a :=
  (reads_expectMark opening).bind fun _ _ => h.items close

theorem Reads.optional (h : Reads item P) (opening close : Char) :
    Reads (optional opening close item) fun as => ∀ a ∈ as, P a :=
  (reads_skipMark opening).bind fun _ _ => Reads.ite (h.items close) (Reads.pure (by simp))

theorem Reads.many (h : Reads item P) (close : Char) :
    Reads (many close item) fun as => ∀ a ∈ as, P a :=
  (reads_skipMark close).bind fun _ _ => Reads.ite (Reads.pure (by simp)) (h.items close)

theorem Reads.separatedBy (h : Reads item P) (mark : Char) (bound : Nat) :
    Reads (separatedBy mark item bound) fun as => ∀ a ∈ as, P a := by
  induction bound with
  | zero => exact Reads.failure
  | succ bound ih =>
    refine h.bind fun first hfirst => (reads_skipMark mark).bind fun more _ => ?_
    refine Reads.ite (ih.bind fun rest hrest => ?_) (Reads.pure (by simpa using hfirst))
    exact Reads.pure (by simpa using ⟨hfirst, hrest⟩)

theorem Reads.delimited (h : Reads item P) (mark : Char) :
    Reads (delimited mark item) fun as => ∀ a ∈ as, P a :=
  (reads_skipMark mark).bind fun _ _ tokens rest as ht hp =>
    h.separatedBy mark tokens.length tokens rest as ht hp

end Repetition

/-! ### Values, arguments and directives -/

theorem reads_plainValue (constant : Bool) :
    Reads (plainValue constant) fun v => constant = true → v.usedVariables = [] := by
  refine reads_next.bind fun token _ => ?_
  split
  · refine Reads.ite_of (fun h => reads_name.bind fun text _ => Reads.pure ?_) Reads.failure
    simp [h.2]
  all_goals first
    | exact Reads.failure
    | exact Reads.pure fun _ => rfl

/-- **A constant value uses no variables.** -/
theorem reads_value (constant : Bool) (depth : Nat) :
    Reads (value constant depth) fun v => constant = true → v.usedVariables = [] := by
  induction depth with
  | zero => exact reads_plainValue constant
  | succ depth ih =>
    refine (reads_skipMark _).bind fun isList _ => Reads.ite ?_ ?_
    · refine (ih.many _).bind fun items hitems => Reads.pure fun hc => ?_
      rw [Value.usedVariables]
      exact Value.usedVariablesInItems_eq_nil fun v hv => hitems v hv hc
    refine (reads_skipMark _).bind fun isObject _ => Reads.ite ?_ (reads_plainValue constant)
    have field : Reads (do
        let key ← name
        expectMark ':'
        return (key, ← value constant depth))
        fun f : String × Value => constant = true → f.2.usedVariables = [] :=
      reads_name.bind fun key _ => (reads_expectMark _).bind fun _ _ =>
        ih.bind fun v hv => Reads.pure hv
    refine (field.many _).bind fun fields hfields => Reads.pure fun hc => ?_
    rw [Value.usedVariables]
    exact Value.usedVariablesInFields_eq_nil fun f hf => hfields f hf hc

theorem reads_argument (constant : Bool) (depth : Nat) :
    Reads (argument constant depth) fun a => constant = true → a.value.usedVariables = [] :=
  reads_name.bind fun _ _ => (reads_expectMark _).bind fun _ _ =>
    (reads_value constant depth).bind fun _ hv => Reads.pure hv

theorem reads_arguments (constant : Bool) (depth : Nat) :
    Reads (arguments constant depth) fun as =>
      constant = true → Argument.usedVariables as = [] :=
  ((reads_argument constant depth).optional _ _).mono fun as has hc => by
    simpa [Argument.usedVariables] using fun a ha => has a ha hc

/-- **Constant directives use no variables.** -/
theorem reads_directives (constant : Bool) (depth : Nat) :
    Reads (directives constant depth) fun ds =>
      constant = true → Directive.usedVariables ds = [] := by
  have upTo : ∀ bound, Reads (directivesUpTo constant depth bound) fun ds =>
      constant = true → Directive.usedVariables ds = [] := by
    intro bound
    induction bound with
    | zero => exact Reads.pure fun _ => rfl
    | succ bound ih =>
      refine (reads_skipMark _).bind fun more _ => Reads.ite ?_ (Reads.pure fun _ => rfl)
      refine reads_name.bind fun text _ => (reads_arguments constant depth).bind fun given hg => ?_
      refine ih.bind fun rest hrest => Reads.pure fun hc => ?_
      simpa [Directive.usedVariables, hg hc] using hrest hc
  exact fun tokens rest ds ht hp => upTo tokens.length tokens rest ds ht hp

/-! ### Types and descriptions -/

theorem reads_orNonNull {type : Parser TypeRef} (h : Reads type fun _ => True) :
    Reads (orNonNull type) fun _ => True :=
  h.bind fun _ _ => (reads_skipMark _).bind fun _ _ =>
    Reads.ite (Reads.pure trivial) (Reads.pure trivial)

theorem reads_typeRef (depth : Nat) : Reads (typeRef depth) fun _ => True := by
  have named : Reads (TypeRef.named <$> name) fun _ => True := reads_name.map fun _ _ => trivial
  induction depth with
  | zero => exact reads_orNonNull named
  | succ depth ih =>
    refine reads_orNonNull ((reads_skipMark _).bind fun isList _ => Reads.ite ?_ named)
    exact ih.bind fun _ _ => (reads_expectMark _).bind fun _ _ => Reads.pure trivial

theorem reads_description : Reads description fun _ => True := by
  intro tokens rest a ht h
  unfold description at h
  split at h
  · obtain ⟨-, rfl⟩ := Prod.mk.inj (Option.some.inj h)
    exact ⟨trivial, ht.tail⟩
  · obtain ⟨-, rfl⟩ := Prod.mk.inj (Option.some.inj h)
    exact ⟨trivial, ht⟩

/-- What goes on behind a default value, whether there is one or not. -/
theorem reads_default {f : Option Value → Parser α} {Q : α → Prop} {given : Bool} {depth : Nat}
    (hf : ∀ v, Value.usedByDefault v = [] → Reads (f v) Q) :
    Reads (if given = true then value true depth >>= fun v => pure (some v) >>= f
      else pure none >>= f) Q :=
  Reads.ite ((reads_value true depth).bind fun v hv => (Reads.pure (P := (· = some v)) rfl).bind
      fun w hw => hf w (by rw [hw]; exact hv rfl))
    ((Reads.pure (P := (· = none)) rfl).bind fun w hw => hf w (by rw [hw]; rfl))

/-! ### Executable definitions -/

theorem reads_fragmentName : Reads fragmentName IsName :=
  reads_name.bind fun _ h => Reads.ite Reads.failure (Reads.pure h)

/-- **The key of a field is a name.** -/
theorem reads_selection (depth : Nat) {selections : Parser (List Selection)}
    (h : Reads selections fun ss => ∀ key ∈ Selection.keysInAll ss, IsName key) :
    Reads (selection depth selections) fun s => ∀ key ∈ s.keys, IsName key := by
  have applied := reads_directives false depth
  have inline : ∀ (condition : Option String) (applied : List Directive),
      Reads (do return (.inlineFragment condition applied (← selections) : Selection))
        fun s => ∀ key ∈ s.keys, IsName key := fun condition applied =>
    h.bind fun ss hss => Reads.pure (by rwa [Selection.keys])
  refine (reads_skip _).bind fun _ _ => Reads.ite ?_ ?_
  · refine (reads_skipWord _).bind fun _ _ => Reads.ite ?_ ?_
    · exact reads_name.bind fun _ _ => applied.bind fun _ _ => inline _ _
    · refine reads_peek.bind fun token _ => ?_
      split
      · exact reads_name.bind fun _ _ => applied.bind fun _ _ =>
          Reads.pure (by rw [Selection.keys]; exact nofun)
      · exact applied.bind fun _ _ => inline _ _
  · refine reads_name.bind fun first hfirst => (reads_skipMark _).bind fun renamed _ => ?_
    refine Reads.branch (P := IsName) reads_name (Reads.pure hfirst) fun fieldName hname => ?_
    refine (reads_arguments false depth).bind fun _ _ => applied.bind fun _ _ => ?_
    refine reads_peek.bind fun _ _ => ?_
    -- the key is the first name, unless only one is given
    have key : IsName ((if renamed then some first else none).getD fieldName) := by
      split
      · exact hfirst
      · exact hname
    refine Reads.branch (P := fun below => ∀ ss, below = some ss →
      ∀ key ∈ Selection.keysInAll ss, IsName key) (h.map fun ss hss => ?_)
      (Reads.pure fun ss hss => nomatch hss) fun below hbelow => Reads.pure ?_
    · rintro _ ⟨⟩
      exact hss
    · cases below with
      | none =>
        rw [Selection.keys]
        exact fun k hk => List.mem_singleton.1 hk ▸ key
      | some ss =>
        rw [Selection.keys]
        exact List.forall_mem_cons.2 ⟨key, hbelow ss rfl⟩

/-- All keys of a selection set are names, at every depth. -/
theorem reads_selectionSet (depth : Nat) :
    Reads (selectionSet depth) fun ss => ∀ key ∈ Selection.keysInAll ss, IsName key := by
  induction depth with
  | zero => exact Reads.failure
  | succ depth ih =>
    refine (reads_expectMark _).bind fun _ _ =>
      ((reads_selection depth ih).many _).mono fun ss hss key hkey => ?_
    obtain ⟨s, hs, hkey⟩ := Selection.mem_keysInAll_iff.1 hkey
    exact hss s hs key hkey

/-- **What the declaration of a variable says uses no variables.** -/
theorem reads_variableDefinition (depth : Nat) :
    Reads (variableDefinition depth) fun v => v.usedVariables = [] := by
  refine reads_description.bind fun _ _ => (reads_expectMark _).bind fun _ _ => ?_
  refine reads_name.bind fun _ _ => (reads_expectMark _).bind fun _ _ => ?_
  refine (reads_typeRef depth).bind fun _ _ => (reads_skipMark _).bind fun _ _ => ?_
  refine reads_default fun v hv => (reads_directives true depth).bind fun ds hds => Reads.pure ?_
  rw [VariableDefinition.usedVariables, hv, hds rfl, List.append_nil]

theorem reads_operationKind : Reads operationKind fun _ => True := by
  refine reads_name.bind fun word _ => ?_
  split
  · exact Reads.pure trivial
  · exact Reads.failure

theorem reads_operation (depth : Nat) : Reads (operation depth) fun o =>
    o.IsParsed ∧ ∀ key ∈ Selection.keysInAll o.selections, IsName key := by
  refine reads_description.bind fun _ _ => reads_operationKind.bind fun _ _ => ?_
  refine reads_peek.bind fun token _ => ?_
  have named : Reads (some <$> name) fun name => ∀ n, name = some n → IsName n :=
    reads_name.map fun a ha n hn => Option.some.inj hn ▸ ha
  have unnamed : Reads (pure none) fun name : Option String => ∀ n, name = some n → IsName n :=
    Reads.pure fun n hn => by simp at hn
  have rest : ∀ (about : Option Description) (kind : OperationKind) (name : Option String),
      (∀ n, name = some n → IsName n) → Reads (do
        let declared ← optional '(' ')' (variableDefinition depth)
        let applied ← directives false depth
        return (⟨about, kind, name, declared, applied, ← selectionSet depth⟩ : Operation))
        fun o => o.IsParsed ∧ ∀ key ∈ Selection.keysInAll o.selections, IsName key := by
    intro about kind name hname
    refine ((reads_variableDefinition depth).optional _ _).bind fun declared hd => ?_
    exact (reads_directives false depth).bind fun _ _ => (reads_selectionSet depth).bind
      fun _ hkeys => Reads.pure ⟨⟨hname, hd⟩, hkeys⟩
  dsimp only
  split
  · exact named.bind (rest _ _)
  · exact unnamed.bind (rest _ _)

theorem reads_fragment (depth : Nat) : Reads (fragment depth) fun f =>
    IsName f.name ∧ ∀ key ∈ Selection.keysInAll f.selections, IsName key := by
  refine reads_description.bind fun _ _ => (reads_expectWord _).bind fun _ _ => ?_
  refine reads_fragmentName.bind fun _ hname => (reads_expectWord _).bind fun _ _ => ?_
  exact reads_name.bind fun _ _ => (reads_directives false depth).bind fun _ _ =>
    (reads_selectionSet depth).bind fun _ hkeys => Reads.pure ⟨hname, hkeys⟩

/-! ### Type-system definitions -/

theorem reads_inputValueDefinition (depth : Nat) :
    Reads (inputValueDefinition depth) fun _ => True := by
  refine reads_description.bind fun _ _ => reads_name.bind fun _ _ => ?_
  refine (reads_expectMark _).bind fun _ _ => (reads_typeRef depth).bind fun _ _ => ?_
  exact (reads_skipMark _).bind fun _ _ => reads_default fun _ _ =>
    (reads_directives true depth).bind fun _ _ => Reads.pure trivial

theorem reads_argumentDefinitions (depth : Nat) :
    Reads (argumentDefinitions depth) fun _ => True :=
  ((reads_inputValueDefinition depth).optional _ _).mono fun _ _ => trivial

theorem reads_fieldDefinition (depth : Nat) : Reads (fieldDefinition depth) fun _ => True := by
  refine reads_description.bind fun _ _ => reads_name.bind fun _ _ => ?_
  refine (reads_argumentDefinitions depth).bind fun _ _ => (reads_expectMark _).bind fun _ _ => ?_
  exact (reads_typeRef depth).bind fun _ _ => (reads_directives true depth).bind fun _ _ =>
    Reads.pure trivial

theorem reads_enumValueDefinition (depth : Nat) :
    Reads (enumValueDefinition depth) fun _ => True :=
  reads_description.bind fun _ _ => reads_name.bind fun _ _ => Reads.ite Reads.failure
    ((reads_directives true depth).bind fun _ _ => Reads.pure trivial)

theorem reads_names (mark : Char) : Reads (delimited mark name) fun _ => True :=
  (reads_name.delimited mark).mono fun _ _ => trivial

theorem reads_interfaces : Reads interfaces fun _ => True :=
  (reads_skipWord _).bind fun _ _ => Reads.ite (reads_names _) (Reads.pure trivial)

theorem reads_unionMembers : Reads unionMembers fun _ => True :=
  (reads_skipMark _).bind fun _ _ => Reads.ite (reads_names _) (Reads.pure trivial)

theorem reads_typeAfter (keyword : String) (about : Option Description) (depth : Nat) :
    Reads (typeAfter keyword about depth) fun _ => True := by
  have applied := reads_directives true depth
  have fields := (reads_fieldDefinition depth).optional '\x7b' '\x7d'
  refine reads_name.bind fun _ _ => ?_
  split
  · exact applied.bind fun _ _ => Reads.pure trivial
  · exact reads_interfaces.bind fun _ _ => applied.bind fun _ _ => fields.bind fun _ _ =>
      Reads.pure trivial
  · exact reads_interfaces.bind fun _ _ => applied.bind fun _ _ => fields.bind fun _ _ =>
      Reads.pure trivial
  · exact applied.bind fun _ _ => reads_unionMembers.bind fun _ _ => Reads.pure trivial
  · exact applied.bind fun _ _ => ((reads_enumValueDefinition depth).optional _ _).bind
      fun _ _ => Reads.pure trivial
  · exact applied.bind fun _ _ => ((reads_inputValueDefinition depth).optional _ _).bind
      fun _ _ => Reads.pure trivial
  · exact Reads.failure

theorem reads_rootType : Reads rootType fun _ => True :=
  reads_operationKind.bind fun _ _ => (reads_expectMark _).bind fun _ _ =>
    reads_name.bind fun _ _ => Reads.pure trivial

theorem reads_directiveLocation : Reads directiveLocation fun _ => True :=
  reads_name.bind fun _ _ => Reads.ite (Reads.pure trivial) Reads.failure

theorem reads_directiveAfter (about : Option Description) (depth : Nat) :
    Reads (directiveAfter about depth) fun _ => True := by
  refine (reads_expectMark _).bind fun _ _ => reads_name.bind fun _ _ => ?_
  refine (reads_argumentDefinitions depth).bind fun _ _ => ?_
  refine (reads_directives true depth).bind fun _ _ => (reads_skipWord _).bind fun _ _ => ?_
  exact (reads_expectWord _).bind fun _ _ => (reads_directiveLocation.delimited _).bind
    fun _ _ => Reads.pure trivial

theorem reads_extensionAfter (depth : Nat) :
    Reads (extensionAfter depth) fun d => d.IsParsed ∧ d.HasNamedKeys := by
  have applied := reads_directives true depth
  refine reads_name.bind fun keyword _ => Reads.ite ?_ (Reads.ite ?_ ?_)
  · exact applied.bind fun _ _ => (reads_rootType.optional _ _).bind fun _ _ =>
      Reads.ite Reads.failure (Reads.pure ⟨trivial, trivial⟩)
  · exact (reads_expectMark _).bind fun _ _ => reads_name.bind fun _ _ => applied.bind fun _ _ =>
      Reads.ite Reads.failure (Reads.pure ⟨trivial, trivial⟩)
  · exact (reads_typeAfter _ _ _).bind fun _ _ =>
      Reads.ite (Reads.pure ⟨trivial, trivial⟩) Reads.failure

/-! ### Definitions and documents -/

theorem reads_definition (depth : Nat) :
    Reads (definition depth) fun d => d.IsParsed ∧ d.HasNamedKeys := by
  refine reads_peek.bind fun _ _ => Reads.ite ?_ ?_
  · exact (reads_selectionSet depth).bind fun _ hkeys =>
      Reads.pure ⟨⟨fun n hn => by simp at hn, fun v hv => by simp at hv⟩, hkeys⟩
  refine reads_peek.bind fun _ _ => Reads.branch reads_peekSecond reads_peek fun keyword _ => ?_
  rcases keyword with _ | (_ | _ | word | _ | _ | _)
  case some.name =>
    refine Reads.ite ?_ (Reads.ite ?_ (Reads.ite (Reads.ite Reads.failure ?_) ?_))
    · exact (reads_operation depth).bind fun _ ho => Reads.pure ho
    · exact (reads_fragment depth).bind fun _ hf => Reads.pure hf
    · exact (reads_expectWord _).bind fun _ _ => reads_extensionAfter depth
    refine reads_description.bind fun about _ => (reads_expectWord _).bind fun _ _ => ?_
    refine Reads.ite ?_ (Reads.ite ?_ ?_)
    · exact (reads_directives true depth).bind fun _ _ => (reads_rootType.between _ _).bind
        fun _ _ => Reads.pure ⟨trivial, trivial⟩
    · exact (reads_directiveAfter about depth).bind fun _ _ => Reads.pure ⟨trivial, trivial⟩
    · exact (reads_typeAfter _ about depth).bind fun _ _ => Reads.pure ⟨trivial, trivial⟩
  all_goals exact Reads.failure

theorem reads_definitionsUpTo (depth bound : Nat) :
    Reads (definitionsUpTo depth bound) fun ds => ∀ d ∈ ds, d.IsParsed ∧ d.HasNamedKeys := by
  induction bound with
  | zero => exact Reads.failure
  | succ bound ih =>
    refine (reads_definition depth).bind fun first hfirst => reads_peek.bind fun token _ => ?_
    split
    · exact Reads.pure (by simpa using hfirst)
    · exact ih.bind fun rest hrest => Reads.pure (by simpa using ⟨hfirst, hrest⟩)

end Parser

/-- What is read off the parser holds of every definition of a parsed document. -/
theorem Document.of_parse? {text : String} {document : Document}
    (h : Document.parse? text = some document) :
    ∀ d ∈ document.definitions, d.IsParsed ∧ d.HasNamedKeys := by
  unfold Document.parse? at h
  split at h
  · simp at h
  · next tokens htokens =>
    obtain ⟨⟨definitions, rest⟩, hread, rfl⟩ := Option.map_eq_some_iff.1 h
    exact (Parser.reads_definitionsUpTo maxNesting (tokens.length + 1) tokens rest definitions
      (Token.named_of_ofString? htokens) hread).1

/-- **Every document that a text holds is properly named and declares its variables by
constants.** -/
theorem Document.isParsed_of_parse? {text : String} {document : Document}
    (h : Document.parse? text = some document) : document.IsParsed :=
  fun d hd => (of_parse? h d hd).1

/-- **Every document that a text holds answers its fields under names.** -/
theorem Document.hasNamedKeys_of_parse? {text : String} {document : Document}
    (h : Document.parse? text = some document) : document.HasNamedKeys :=
  fun d hd => (of_parse? h d hd).2

end GraphQL

end QueryTypes
