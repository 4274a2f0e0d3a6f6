import QueryTypes.Proofs.TypeScript.Regular
import QueryTypes.Proofs.TypeScript.Characters

/-!
# Printed types are unambiguous

Two type expressions that are not the same are not printed as the same text, whatever the depth
(`QueryTypes.TypeScript.printed_injective`). This holds of regular type expressions
(`QueryTypes.TypeScript.TypeExpr.IsRegular`): a name that is written like a keyword or a truth value
could not be told from it, nor a union inside a union from its types.

A text is taken apart from its front. What is shown of each kind of type is that its text and
whatever follows it are determined by the two together, as long as what follows does not go on with
the type. A union is a list of *alternatives*, so this is said of alternatives first
(`QueryTypes.TypeScript.TypeExpr.IsTold`), which a bar may follow, and from it of all types
(`QueryTypes.TypeScript.TypeExpr.append_cancel`), which no blank may follow. An alternative begins
with a word, with a quote, as a number does or with a brace, and its first character tells in which
of these ways (`QueryTypes.TypeScript.TypeExpr.exists_head`). What stands behind the word tells
keywords, references and indexed types apart; behind the blanks of its line, a member of an object
type does not begin with the brace that ends it.
-/

namespace QueryTypes

namespace TypeScript

variable {depth : Int} {k l : List Char}

/-! ### Alternatives -/

/-- The characters with which the text of a type that is no union might go on. -/
def mayGoOn (c : Char) : Bool :=
  isIdentifierRest c || isNumberCharacter c || c = '<' || c = '['

/-- The characters with which the text of a type might go on. -/
def mayGoOnAsUnion (c : Char) : Bool := mayGoOn c || c = ' '

theorem StopsAt.mono {kind more : Char → Bool} (h : StopsAt more k)
    (hkind : ∀ c, kind c = true → more c = true) : StopsAt kind k := by
  intro c hc
  have stops := h c hc
  cases hc' : kind c with
  | false => rfl
  | true => exact (hkind c hc').symm.trans stops

theorem StopsAt.ofUnion (h : StopsAt mayGoOnAsUnion k) : StopsAt mayGoOn k :=
  h.mono fun c hc => by rw [mayGoOnAsUnion, hc, Bool.true_or]

theorem StopsAt.ofName (h : StopsAt mayGoOn k) : StopsAt isIdentifierRest k :=
  h.mono fun c hc => by rw [mayGoOn, hc]; rfl

theorem StopsAt.ofNumber (h : StopsAt mayGoOn k) : StopsAt isNumberCharacter k :=
  h.mono fun c hc => by rw [mayGoOn, hc, Bool.or_true]; rfl

namespace TypeExpr

/-- The types between which bars stand in the text of a type. -/
def alternatives : TypeExpr → List TypeExpr
  | .union types => types
  | type => [type]

theorem alternatives_of_not_isUnion {type : TypeExpr} (h : type.isUnion = false) :
    type.alternatives = [type] := by
  cases type <;> first | rfl | cases h

theorem isRegular_of_mem_alternatives {type a : TypeExpr} (h : type.IsRegular)
    (ha : a ∈ type.alternatives) : a.IsRegular ∧ a.isUnion = false := by
  cases hu : type.isUnion with
  | false =>
    rw [alternatives_of_not_isUnion hu, List.mem_singleton] at ha
    rw [ha]
    exact ⟨h, hu⟩
  | true =>
    cases type with
    | union types =>
      rw [IsRegular, isRegularInAll_iff] at h
      exact ⟨h.2.2 a ha, h.2.1 a ha⟩
    | _ => cases hu

/-- The text of a type is that of its alternatives, with bars between them. -/
theorem exists_alternatives {type : TypeExpr} (h : type.IsRegular) (depth : Int) :
    ∃ first rest, type.alternatives = first :: rest ∧
      type.chars depth = first.chars depth ++ behind [' ', '|', ' '] (chars depth) rest := by
  cases hu : type.isUnion with
  | false => exact ⟨type, [], alternatives_of_not_isUnion hu, (List.append_nil _).symm⟩
  | true =>
    cases type with
    | union types =>
      rw [IsRegular] at h
      cases types with
      | nil => exact absurd h.1 (by decide)
      | cons first rest => exact ⟨first, rest, rfl, chars_union first rest⟩
    | _ => cases hu

/-- A type is determined by its alternatives. -/
theorem eq_of_alternatives_eq {type other : TypeExpr} (h : type.IsRegular) (ho : other.IsRegular)
    (same : type.alternatives = other.alternatives) : type = other := by
  -- unions have more than one alternative
  cases type with
  | union types =>
    cases other with
    | union others => exact congrArg union same
    | _ =>
      rw [IsRegular, show types = _ from same] at h
      exact absurd h.1 (Nat.not_le.2 Nat.one_lt_two)
  | _ =>
    cases other with
    | union others =>
      rw [IsRegular, show others = _ from same.symm] at ho
      exact absurd ho.1 (Nat.not_le.2 Nat.one_lt_two)
    | _ => exact (List.cons.inj same).1

/-- **A type that is no union is determined by its text**, if what follows does not go on with
it. -/
def IsTold (depth : Int) (type : TypeExpr) : Prop :=
  ∀ other : TypeExpr, other.IsRegular → other.isUnion = false → ∀ k l : List Char,
    StopsAt mayGoOn k → StopsAt mayGoOn l →
      type.chars depth ++ k = other.chars depth ++ l → type = other ∧ k = l

/-- Each alternative of a type is determined by its text. -/
def IsSettled (depth : Int) (type : TypeExpr) : Prop := ∀ a ∈ type.alternatives, a.IsTold depth

/-- **A type is determined by its text** if its alternatives are, if what follows does not go on
with it. -/
theorem append_cancel {type other : TypeExpr} (settled : type.IsSettled depth)
    (h : type.IsRegular) (ho : other.IsRegular) (hk : StopsAt mayGoOnAsUnion k)
    (hl : StopsAt mayGoOnAsUnion l) (same : type.chars depth ++ k = other.chars depth ++ l) :
    type = other ∧ k = l := by
  obtain ⟨first, rest, types, text⟩ := exists_alternatives h depth
  obtain ⟨first', rest', types', text'⟩ := exists_alternatives ho depth
  have closes : ∀ {k : List Char}, StopsAt mayGoOnAsUnion k →
      Closes [' ', '|', ' '] (chars depth) (StopsAt mayGoOn) k :=
    fun hk => ⟨hk.ofUnion, fun _ _ => hk.ne rfl⟩
  rw [text, text', List.append_assoc, List.append_assoc] at same
  obtain ⟨all, last⟩ := joined_append_cancel (fun a ha b hb =>
      settled a (types ▸ ha) b (isRegular_of_mem_alternatives ho (types' ▸ hb)).1
        (isRegular_of_mem_alternatives ho (types' ▸ hb)).2)
    (fun rest => stopsAt_cons rfl _) (closes hk) (closes hl) same
  exact ⟨eq_of_alternatives_eq h ho (types.trans (all.trans types'.symm)), last⟩

/-! ### Types that begin with a word -/

/-- **The word that the text of a type begins with.** -/
inductive HasWord : TypeExpr → String → Prop where
  /-- A keyword. -/
  | keyword (name : String) : HasWord (.keyword name) name
  /-- The name of a type. -/
  | reference (name : String) (arguments : List TypeExpr) : HasWord (.reference name arguments) name
  /-- The name of an object type. -/
  | indexed (name index : String) : HasWord (.indexed name index) name
  /-- A truth value. -/
  | boolean (value : Bool) : HasWord (.literal (.boolean value)) (Literal.boolean value).render

/-- What stands behind the word that the text of a type begins with. -/
def afterWord (depth : Int) : TypeExpr → List Char
  | .reference _ (first :: rest) =>
    '<' :: (first.chars depth ++ (behind [',', ' '] (chars depth) rest ++ ['>']))
  | .indexed _ index => '[' :: ((Text.quoted index).toList ++ [']'])
  | _ => []

namespace HasWord

variable {type other : TypeExpr} {word : String}

theorem chars_eq (h : type.HasWord word) (depth : Int) :
    type.chars depth = word.toList ++ type.afterWord depth := by
  cases h with
  | keyword =>
    rw [chars, render]
    exact (List.append_nil _).symm
  | reference _ arguments =>
    cases arguments with
    | nil =>
      rw [chars, render]
      exact (List.append_nil _).symm
    | cons first rest => exact chars_reference _ first rest
  | indexed => exact chars_indexed _ _
  | boolean =>
    rw [chars, render]
    exact (List.append_nil _).symm

/-- The word is an identifier. -/
theorem identifier (h : type.HasWord word) (regular : type.IsRegular) :
    isIdentifier word.toList = true := by
  cases h with
  | keyword =>
    rw [IsRegular] at regular
    exact isIdentifier_of_mem_keywords _ regular
  | reference =>
    rw [IsRegular] at regular
    exact regular.1.identifier
  | indexed =>
    rw [IsRegular] at regular
    exact regular.identifier
  | boolean value => cases value <;> decide

end HasWord

theorem stopsAt_afterWord (type : TypeExpr) (hk : StopsAt mayGoOn k) :
    StopsAt isIdentifierRest (type.afterWord depth ++ k) := by
  unfold afterWord
  split
  · exact stopsAt_cons rfl _
  · exact stopsAt_cons rfl _
  · exact hk.ofName

/-- A type that is no union begins with a word, or is one of three kinds. -/
theorem hasWord_or {type : TypeExpr} (h : type.IsRegular) (hu : type.isUnion = false) :
    (∃ word, type.HasWord word) ∨ (∃ value, type = literal (.string value)) ∨
      (∃ value, type = literal (.integer value)) ∨ ∃ members, type = object members := by
  cases type with
  | keyword name => exact Or.inl ⟨name, .keyword name⟩
  | reference name arguments => exact Or.inl ⟨name, .reference name arguments⟩
  | indexed name index => exact Or.inl ⟨name, .indexed name index⟩
  | literal value =>
    cases value with
    | boolean value => exact Or.inl ⟨_, .boolean value⟩
    | string value => exact Or.inr (Or.inl ⟨value, rfl⟩)
    | integer value => exact Or.inr (Or.inr (Or.inl ⟨value, rfl⟩))
  | union types => cases hu
  | object members => exact Or.inr (Or.inr (Or.inr ⟨members, rfl⟩))
  | hole label =>
    rw [IsRegular] at h
    exact h.elim

/-! ### How the text of a type begins -/

/-- The ways in which the text of a type that is no union begins. -/
inductive Opening where
  /-- With a word. -/
  | word
  /-- With a quote. -/
  | quote
  /-- As a number does. -/
  | number
  /-- With a brace. -/
  | brace

/-- The way in which a text begins whose first character this is. -/
def openingOf (c : Char) : Opening :=
  if isIdentifierStart c then .word
  else if c = '"' then .quote
  else if isNumberCharacter c then .number
  else .brace

/-- The way in which the text of a type begins. -/
def opening : TypeExpr → Opening
  | .literal (.string _) => .quote
  | .literal (.integer _) => .number
  | .object _ => .brace
  | _ => .word

theorem openingOf_of_isNumberCharacter {c : Char} (h : isNumberCharacter c = true) :
    openingOf c = .number := by
  have start : ¬ isIdentifierStart c = true :=
    Bool.eq_false_iff.1 (isIdentifierStart_of_isNumberCharacter h)
  have quote : c ≠ '"' := by
    rintro rfl
    revert h
    decide
  rw [openingOf, if_neg start, if_neg quote, if_pos h]

theorem HasWord.opening_eq {type : TypeExpr} {word : String} (h : type.HasWord word) :
    type.opening = .word := by
  cases h <;> rfl

theorem HasWord.isUnion_eq {type : TypeExpr} {word : String} (h : type.HasWord word) :
    type.isUnion = false := by
  cases h <;> rfl

/-- **The first character of a type that is no union** tells in which way its text begins. -/
theorem exists_head {type : TypeExpr} (h : type.IsRegular) (hu : type.isUnion = false)
    (depth : Int) : ∃ c rest, type.chars depth = c :: rest ∧ openingOf c = type.opening := by
  obtain ⟨word, hword⟩ | ⟨value, rfl⟩ | ⟨value, rfl⟩ | ⟨members, rfl⟩ := hasWord_or h hu
  · obtain ⟨c, rest, text, start⟩ := exists_head_of_isIdentifier (hword.identifier h)
    refine ⟨c, rest ++ type.afterWord depth, ?_, ?_⟩
    · rw [hword.chars_eq, text]
      rfl
    · rw [hword.opening_eq, openingOf, if_pos start]
  · exact ⟨'"', _, (chars_string value).trans (toList_quoted value), rfl⟩
  · obtain ⟨c, rest, text, number⟩ := exists_head_of_toString value
    exact ⟨c, rest, (chars_integer value).trans text, openingOf_of_isNumberCharacter number⟩
  · obtain ⟨rest, text⟩ := exists_chars_object members depth
    exact ⟨'\x7b', rest, text, rfl⟩

/-- **Texts that are the same begin in the same way.** -/
theorem opening_eq_of_append_eq {type other : TypeExpr} (h : type.IsRegular)
    (hu : type.isUnion = false) (ho : other.IsRegular) (hv : other.isUnion = false)
    (same : type.chars depth ++ k = other.chars depth ++ l) : type.opening = other.opening := by
  obtain ⟨c, rest, text, begins⟩ := exists_head h hu depth
  obtain ⟨c', rest', text', begins'⟩ := exists_head ho hv depth
  rw [text, text'] at same
  rw [← begins, ← begins', (List.cons.inj same).1]

/-- **The word that the text of a type begins with is determined**, and so is what follows it. -/
theorem HasWord.append_cancel {type other : TypeExpr} {word : String} (hword : type.HasWord word)
    (h : type.IsRegular) (ho : other.IsRegular) (hu : other.isUnion = false)
    (hk : StopsAt mayGoOn k) (hl : StopsAt mayGoOn l)
    (same : type.chars depth ++ k = other.chars depth ++ l) :
    other.HasWord word ∧ type.afterWord depth ++ k = other.afterWord depth ++ l := by
  have begins := opening_eq_of_append_eq h hword.isUnion_eq ho hu same
  rw [hword.opening_eq] at begins
  obtain ⟨word', hother⟩ | ⟨value, rfl⟩ | ⟨value, rfl⟩ | ⟨members, rfl⟩ := hasWord_or ho hu
  · rw [hword.chars_eq, hother.chars_eq, List.append_assoc, List.append_assoc] at same
    obtain ⟨words, rest⟩ := identifier_append_cancel (hword.identifier h) (hother.identifier ho)
      (stopsAt_afterWord type hk) (stopsAt_afterWord other hl) same
    rw [String.toList_inj.1 words]
    exact ⟨hother, rest⟩
  · cases begins
  · cases begins
  · cases begins

/-! ### Types that are determined -/

theorem isTold_keyword {name : String} (h : (keyword name).IsRegular) :
    (keyword name).IsTold depth := by
  intro other ho hu k l hk hl same
  obtain ⟨hword, rest⟩ := (HasWord.keyword name).append_cancel h ho hu hk hl same
  rw [IsRegular] at h
  cases hword with
  | keyword => exact ⟨rfl, rest⟩
  | reference =>
    rw [IsRegular] at ho
    exact absurd h ho.1.not_keyword
  | indexed =>
    rw [IsRegular] at ho
    exact absurd h ho.not_keyword
  | boolean value => cases value <;> exact absurd h (by decide)

theorem isTold_boolean (value : Bool) : (literal (.boolean value)).IsTold depth := by
  intro other ho hu k l hk hl same
  obtain ⟨hword, rest⟩ :=
    (HasWord.boolean value).append_cancel (isRegular_literal _) ho hu hk hl same
  generalize hvalue : (Literal.boolean value).render = word at hword
  cases hword with
  | keyword =>
    rw [IsRegular, ← hvalue] at ho
    cases value <;> exact absurd ho (by decide)
  | reference =>
    rw [IsRegular] at ho
    exact absurd hvalue.symm (ho.1.not_truth value)
  | indexed =>
    rw [IsRegular] at ho
    exact absurd hvalue.symm (ho.not_truth value)
  | boolean value' =>
    cases value <;> cases value' <;> first | exact ⟨rfl, rest⟩ | exact absurd hvalue (by decide)

theorem isTold_indexed {name index : String} (h : (indexed name index).IsRegular) :
    (indexed name index).IsTold depth := by
  intro other ho hu k l hk hl same
  obtain ⟨hword, rest⟩ := (HasWord.indexed name index).append_cancel h ho hu hk hl same
  rw [IsRegular] at h
  cases hword with
  | keyword =>
    rw [IsRegular] at ho
    exact absurd ho h.not_keyword
  | reference _ arguments =>
    cases arguments with
    | nil => exact absurd rest.symm (hl.ne rfl)
    | cons first others => exact absurd (List.cons.inj rest).1 (by decide)
  | indexed _ index' =>
    rw [afterWord, afterWord, List.cons_append, List.cons_append, List.append_assoc,
      List.append_assoc] at rest
    have inner := (List.cons.inj rest).2
    obtain ⟨rfl, last⟩ := quoted_append_cancel inner
    exact ⟨rfl, (List.cons.inj last).2⟩
  | boolean value => exact absurd rfl (h.not_truth value)

theorem isTold_reference {name : String} {arguments : List TypeExpr}
    (h : (reference name arguments).IsRegular) (settled : ∀ a ∈ arguments, a.IsSettled depth) :
    (reference name arguments).IsTold depth := by
  intro other ho hu k l hk hl same
  obtain ⟨hword, rest⟩ := (HasWord.reference name arguments).append_cancel h ho hu hk hl same
  rw [IsRegular, isRegularInAll_iff] at h
  cases hword with
  | keyword =>
    rw [IsRegular] at ho
    exact absurd ho h.1.not_keyword
  | reference _ others =>
    rw [IsRegular, isRegularInAll_iff] at ho
    cases arguments with
    | nil =>
      cases others with
      | nil => exact ⟨rfl, rest⟩
      | cons b bs => exact absurd rest (hk.ne rfl)
    | cons a as =>
      cases others with
      | nil => exact absurd rest.symm (hl.ne rfl)
      | cons b bs =>
        have closes : ∀ k, Closes [',', ' '] (chars depth) (StopsAt mayGoOnAsUnion) ('>' :: k) :=
          fun k => ⟨stopsAt_cons rfl k, fun _ _ h => absurd (List.cons.inj h).1 (by decide)⟩
        rw [afterWord, afterWord, List.cons_append, List.cons_append, List.append_assoc,
          List.append_assoc, List.append_assoc, List.append_assoc] at rest
        have inner := (List.cons.inj rest).2
        obtain ⟨all, last⟩ := joined_append_cancel (fun a ha b hb _ _ hk hl =>
            append_cancel (settled a ha) (h.2 a ha) (ho.2 b hb) hk hl)
          (fun _ => stopsAt_cons rfl _) (closes k) (closes l) inner
        rw [all]
        exact ⟨rfl, (List.cons.inj last).2⟩
  | indexed =>
    cases arguments with
    | nil => exact absurd rest (hk.ne rfl)
    | cons a as => exact absurd (List.cons.inj rest).1 (by decide)
  | boolean value => exact absurd rfl (h.1.not_truth value)

theorem isTold_string (value : String) : (literal (.string value)).IsTold depth := by
  intro other ho hu k l hk hl same
  have begins := opening_eq_of_append_eq (isRegular_literal _) rfl ho hu same
  obtain ⟨word, hother⟩ | ⟨value', rfl⟩ | ⟨value', rfl⟩ | ⟨members, rfl⟩ := hasWord_or ho hu
  · rw [hother.opening_eq] at begins
    cases begins
  · rw [chars_string, chars_string] at same
    obtain ⟨rfl, rest⟩ := quoted_append_cancel same
    exact ⟨rfl, rest⟩
  · cases begins
  · cases begins

theorem isTold_integer (value : Int) : (literal (.integer value)).IsTold depth := by
  intro other ho hu k l hk hl same
  have begins := opening_eq_of_append_eq (isRegular_literal _) rfl ho hu same
  obtain ⟨word, hother⟩ | ⟨value', rfl⟩ | ⟨value', rfl⟩ | ⟨members, rfl⟩ := hasWord_or ho hu
  · rw [hother.opening_eq] at begins
    cases begins
  · cases begins
  · rw [chars_integer, chars_integer] at same
    obtain ⟨rfl, rest⟩ := toString_append_cancel hk.ofNumber hl.ofNumber same
    exact ⟨rfl, rest⟩
  · cases begins

end TypeExpr

/-! ### Object types -/

namespace Member

/-- What stands behind the key of a member, up to the end of its line and beyond. -/
def behindKey (depth : Int) (optional : Bool) (type : TypeExpr) (k : List Char) : List Char :=
  (if optional then "?" else "").toList ++ ':' :: ' ' :: (type.chars depth ++ ';' :: k)

theorem chars_append (key : String) (type : TypeExpr) (optional readonly : Bool)
    (k : List Char) : (mk key type optional readonly).chars depth ++ k =
      (indentation depth).toList ++ ((if readonly then "readonly " else "").toList ++
        ((propertyKey key).toList ++ behindKey depth optional type k)) := by
  rw [chars_mk, behindKey]
  simp only [List.append_assoc, List.cons_append, List.nil_append]

theorem beginsBehindKey_behindKey (optional : Bool) (type : TypeExpr) (k : List Char) :
    BeginsBehindKey (behindKey depth optional type k) := by
  cases optional with
  | true => exact ⟨'?', _, rfl, Or.inl rfl⟩
  | false => exact ⟨':', _, rfl, Or.inr rfl⟩

/-- **The key of a member and what stands behind it are determined.** -/
theorem key_append_cancel {key key' : String} {type other : TypeExpr} {optional optional' : Bool}
    (settled : type.IsSettled depth) (h : type.IsRegular) (ho : other.IsRegular)
    (same : (propertyKey key).toList ++ behindKey depth optional type k =
      (propertyKey key').toList ++ behindKey depth optional' other l) :
    key = key' ∧ optional = optional' ∧ type = other ∧ k = l := by
  obtain ⟨rfl, behind⟩ := propertyKey_append_cancel (beginsBehindKey_behindKey optional type k)
    (beginsBehindKey_behindKey optional' other l) same
  have typed : ∀ {k l : List Char}, type.chars depth ++ ';' :: k = other.chars depth ++ ';' :: l →
      type = other ∧ k = l := by
    intro k l same
    obtain ⟨rfl, rest⟩ := TypeExpr.append_cancel settled h ho (stopsAt_cons rfl k)
      (stopsAt_cons rfl l) same
    exact ⟨rfl, (List.cons.inj rest).2⟩
  cases optional <;> cases optional'
  · exact ⟨rfl, rfl, typed (List.cons.inj (List.cons.inj behind).2).2⟩
  · exact absurd (List.cons.inj behind).1 (by decide)
  · exact absurd (List.cons.inj behind).1 (by decide)
  · exact ⟨rfl, rfl, typed (List.cons.inj (List.cons.inj (List.cons.inj behind).2).2).2⟩

/-- **A member is determined by its line.** -/
theorem append_cancel {member other : Member} (settled : member.type.IsSettled depth)
    (h : member.IsRegular) (ho : other.IsRegular)
    (same : member.chars depth ++ k = other.chars depth ++ l) : member = other ∧ k = l := by
  obtain ⟨key, type, optional, readonly⟩ := member
  obtain ⟨key', type', optional', readonly'⟩ := other
  rw [IsRegular] at h ho
  rw [chars_append, chars_append] at same
  have line := List.append_cancel_left same
  cases readonly <;> cases readonly' <;>
    simp only [Bool.false_eq_true, if_false, if_true, String.toList_empty, List.nil_append] at line
  · obtain ⟨rfl, rfl, rfl, rest⟩ := key_append_cancel settled h ho line
    exact ⟨rfl, rest⟩
  · exact absurd line (propertyKey_append_ne_readonly key (beginsBehindKey_behindKey ..) _)
  · exact absurd line.symm (propertyKey_append_ne_readonly key' (beginsBehindKey_behindKey ..) _)
  · obtain ⟨rfl, rfl, rfl, rest⟩ := key_append_cancel settled h ho (List.append_cancel_left line)
    exact ⟨rfl, rest⟩

/-- Behind its blanks, the line of a member begins as a name does or with a quote. -/
theorem exists_head (member : Member) (depth : Int) : ∃ c rest,
    member.chars depth = (indentation depth).toList ++ c :: rest ∧
      (isIdentifierStart c = true ∨ c = '"') := by
  obtain ⟨key, type, optional, readonly⟩ := member
  rw [chars_mk]
  cases readonly with
  | true => exact ⟨'r', _, rfl, Or.inl rfl⟩
  | false =>
    obtain ⟨c, rest, text, start⟩ := exists_head_of_propertyKey key
    rw [text]
    exact ⟨c, _, rfl, start⟩

end Member

/-- Whether a character is the blank that lines are indented with. -/
def isBlank (c : Char) : Bool := c = ' '

theorem isBlank_of_mem {c : Char} (h : c ∈ (indentation depth).toList) : isBlank c = true := by
  rw [indentation, Text.blanks, String.toList_ofList] at h
  rw [List.eq_of_mem_replicate h]
  rfl

/-- The end of an object type is no line of a member. -/
theorem closes_object (depth : Int) (k : List Char) :
    Closes ['\n'] (Member.chars (depth + 1)) (fun _ => True)
      ('\n' :: ((indentation depth).toList ++ '\x7d' :: k)) := by
  refine ⟨trivial, fun member rest same => ?_⟩
  obtain ⟨c, others, line, start⟩ := member.exists_head (depth + 1)
  rw [List.singleton_append, line, List.append_assoc, List.cons_append] at same
  have blank : isBlank c = false := by
    refine decide_eq_false ?_
    rintro rfl
    revert start
    decide
  -- the characters behind the blanks differ
  obtain ⟨-, behind⟩ := run_append_cancel (fun _ => isBlank_of_mem) (fun _ => isBlank_of_mem)
    (stopsAt_cons (by decide) _) (stopsAt_cons blank _) (List.cons.inj same).2
  rw [← (List.cons.inj behind).1] at start
  revert start
  decide

namespace TypeExpr

theorem isTold_object {members : List Member} (h : (object members).IsRegular)
    (settled : ∀ m ∈ members, m.type.IsSettled (depth + 1)) : (object members).IsTold depth := by
  intro other ho hu k l hk hl same
  have begins := opening_eq_of_append_eq h rfl ho hu same
  obtain ⟨word, hother⟩ | ⟨value, rfl⟩ | ⟨value, rfl⟩ | ⟨others, rfl⟩ := hasWord_or ho hu
  · rw [hother.opening_eq] at begins
    cases begins
  · cases begins
  · cases begins
  · rw [IsRegular, Member.isRegularInAll_iff] at h ho
    have empty : chars depth (object []) = ['\x7b', '\x7d'] := by
      rw [chars, render]
      rfl
    cases members with
    | nil =>
      cases others with
      | nil => exact ⟨rfl, List.append_cancel_left same⟩
      | cons m ms =>
        rw [empty, chars_object] at same
        exact absurd (List.cons.inj (List.cons.inj same).2).1 (by decide)
    | cons m ms =>
      cases others with
      | nil =>
        rw [empty, chars_object] at same
        exact absurd (List.cons.inj (List.cons.inj same).2).1 (by decide)
      | cons n ns =>
        rw [chars_object, chars_object] at same
        simp only [List.cons_append, List.append_assoc, List.nil_append] at same
        obtain ⟨all, last⟩ := joined_append_cancel (fun a ha b hb _ _ _ _ =>
            Member.append_cancel (settled a ha) (h a ha) (ho b hb))
          (fun _ => trivial) (closes_object depth k) (closes_object depth l)
          (List.cons.inj (List.cons.inj same).2).2
        rw [all]
        refine ⟨rfl, ?_⟩
        have closing := List.append_cancel_left (List.cons.inj last).2
        exact (List.cons.inj closing).2

/-- A type that is no union is its own alternative. -/
theorem isSettled_of_isTold {type : TypeExpr} (hu : type.isUnion = false)
    (told : type.IsTold depth) : type.IsSettled depth := by
  intro a ha
  rw [alternatives_of_not_isUnion hu, List.mem_singleton] at ha
  rw [ha]
  exact told

end TypeExpr

/-! ### All types -/

mutual

/-- **The alternatives of every type are determined by their texts.** -/
theorem TypeExpr.isSettled : ∀ (type : TypeExpr) (_ : type.IsRegular) (depth : Int),
    type.IsSettled depth
  | .keyword _, h, _ => TypeExpr.isSettled_of_isTold rfl (TypeExpr.isTold_keyword h)
  | .reference _ arguments, h, depth => by
    have regular := h
    rw [TypeExpr.IsRegular] at regular
    exact TypeExpr.isSettled_of_isTold rfl
      (TypeExpr.isTold_reference h (TypeExpr.isSettledInAll arguments regular.2 depth))
  | .indexed _ _, h, _ => TypeExpr.isSettled_of_isTold rfl (TypeExpr.isTold_indexed h)
  | .literal (.boolean value), _, _ =>
    TypeExpr.isSettled_of_isTold rfl (TypeExpr.isTold_boolean value)
  | .literal (.string value), _, _ =>
    TypeExpr.isSettled_of_isTold rfl (TypeExpr.isTold_string value)
  | .literal (.integer value), _, _ =>
    TypeExpr.isSettled_of_isTold rfl (TypeExpr.isTold_integer value)
  | .union types, h, depth => by
    rw [TypeExpr.IsRegular] at h
    intro a ha
    have settled := TypeExpr.isSettledInAll types h.2.2 depth a ha
    rw [TypeExpr.IsSettled, TypeExpr.alternatives_of_not_isUnion (h.2.1 a ha)] at settled
    exact settled a (List.mem_singleton_self a)
  | .object members, h, depth => by
    have regular := h
    rw [TypeExpr.IsRegular] at regular
    exact TypeExpr.isSettled_of_isTold rfl
      (TypeExpr.isTold_object h (Member.isSettledInAll members regular (depth + 1)))
  | .hole _, h, _ => by
    rw [TypeExpr.IsRegular] at h
    exact h.elim

theorem TypeExpr.isSettledInAll : ∀ (types : List TypeExpr) (_ : TypeExpr.IsRegularInAll types)
    (depth : Int), ∀ a ∈ types, a.IsSettled depth
  | [], _, _, _, ha => nomatch ha
  | type :: rest, h, depth, a, ha => by
    rw [TypeExpr.IsRegularInAll] at h
    rcases List.mem_cons.1 ha with same | ha
    · rw [same]
      exact TypeExpr.isSettled type h.1 depth
    · exact TypeExpr.isSettledInAll rest h.2 depth a ha

theorem Member.isSettledInAll : ∀ (members : List Member) (_ : Member.IsRegularInAll members)
    (depth : Int), ∀ m ∈ members, m.type.IsSettled depth
  | [], _, _, _, hm => nomatch hm
  | .mk key type optional readonly :: rest, h, depth, m, hm => by
    rw [Member.IsRegularInAll, Member.IsRegular] at h
    rcases List.mem_cons.1 hm with same | hm
    · rw [same]
      exact TypeExpr.isSettled type h.1 depth
    · exact Member.isSettledInAll rest h.2 depth m hm

end

/-- An object type with one member, which may be left out. -/
def oneMember (key : String) (readonly : Bool) : TypeExpr :=
  .object [.mk key (.union [.reference "Maybe" [.indexed "Scalars" "ID"], .literal (.string "b")])
    true readonly]

theorem isRegular_oneMember (key : String) (readonly : Bool) :
    (oneMember key readonly).IsRegular := by
  have maybe : IsTypeName "Maybe" := ⟨by decide, by decide, by decide⟩
  have scalars : IsTypeName "Scalars" := ⟨by decide, by decide, by decide⟩
  simp [oneMember, TypeExpr.IsRegular, TypeExpr.IsRegularInAll, Member.IsRegularInAll,
    Member.IsRegular, TypeExpr.isUnion, maybe, scalars]

end TypeScript

end QueryTypes
