import QueryTypes.Proofs.TypeScript.Characters

/-!
# Keys are tokens

The key of a member is written as one token (`QueryTypes.TypeScript.IsKeyToken`): as itself if it is
an identifier, else as a literal that is read back as the key. There is one exception, and it is
exact (`QueryTypes.TypeScript.propertyKey_isToken_iff`): an identifier and a line end are written as
they are, without quotes, so that the line of the member ends inside its key
(`QueryTypes.TypeScript.propertyKey_breaks_line`).
-/

namespace QueryTypes

namespace TypeScript

/-! ### Tokens -/

/-- **A literal of a text**: behind an opening quote the text is read, and the closing quote is the
end. -/
def IsLiteralOf (text literal : String) : Prop :=
  ∃ steps body, literal.toList = '"' :: body ∧ Json.readString? steps body = some (text.toList, [])

/-- **A token for a key**: the key itself if it is an identifier, or a literal of it. -/
def IsKeyToken (key token : String) : Prop :=
  (token = key ∧ isIdentifier key.toList = true) ∨ IsLiteralOf key token

/-- A key that is an identifier and a line end. -/
def IsBrokenIdentifier (key : String) : Prop :=
  ∃ name, isIdentifier name = true ∧ key.toList = name ++ ['\n']

/-- A quoted text is a literal of the text. -/
theorem isLiteralOf_quoted (text : String) : IsLiteralOf text (Text.quoted text) :=
  ⟨text.toList.length + 1, _, toList_quoted text,
    Text.readString?_quotedChars _ [] (Nat.lt_succ_self _)⟩

theorem lineEnd_not_mem_quoted (text : String) : '\n' ∉ (Text.quoted text).toList := by
  rw [toList_quoted, List.mem_cons, List.mem_append, List.mem_singleton]
  rintro (h | h | h)
  · exact absurd h (by decide)
  · exact Text.lineEnd_not_mem_quotedChars _ h
  · exact absurd h (by decide)

/-- No line ends inside an identifier. -/
theorem lineEnd_not_mem_identifier {name : List Char} (h : isIdentifier name = true) :
    '\n' ∉ name := fun hmem => absurd (isIdentifierRest_of_mem h hmem) (by decide)

/-! ### What keys are written as -/

variable {key : String}

theorem IsBrokenIdentifier.isBareKey (h : IsBrokenIdentifier key) :
    isBareKey key.toList = true := by
  obtain ⟨name, hname, same⟩ := h
  rw [same, TypeScript.isBareKey, List.dropLast_concat, List.getLast?_concat, hname]
  simp

/-- **There are three kinds of keys**: identifiers, which are written as they are, identifiers with
a line end, which are too, and all others, which are quoted. -/
theorem propertyKey_kinds (key : String) :
    (isIdentifier key.toList = true ∧ propertyKey key = key ∧ ¬ IsBrokenIdentifier key) ∨
    (IsBrokenIdentifier key ∧ propertyKey key = key ∧ isIdentifier key.toList = false) ∨
    (¬ IsBrokenIdentifier key ∧ propertyKey key = Text.quoted key) := by
  by_cases bare : isBareKey key.toList = true
  · have plain : propertyKey key = key := if_pos bare
    obtain ⟨name, tail, same, hname, rfl | rfl⟩ := exists_name_of_isBareKey bare
    · rw [List.append_nil] at same
      rw [← same] at hname
      refine Or.inl ⟨hname, plain, fun ⟨other, _, ends⟩ => lineEnd_not_mem_identifier hname ?_⟩
      rw [ends]
      exact List.mem_append_right _ (List.mem_singleton_self _)
    · refine Or.inr (Or.inl ⟨⟨name, hname, same⟩, plain, Bool.eq_false_iff.2 fun h => ?_⟩)
      refine lineEnd_not_mem_identifier h ?_
      rw [same]
      exact List.mem_append_right _ (List.mem_singleton_self _)
  · exact Or.inr (Or.inr ⟨fun broken => bare broken.isBareKey, if_neg bare⟩)

/-- An identifier is no literal. -/
theorem not_isLiteralOf_of_head {text literal : String} {name rest : List Char}
    (hname : isIdentifier name = true) (same : literal.toList = name ++ rest) :
    ¬ IsLiteralOf text literal := by
  rintro ⟨_, body, quote, -⟩
  exact identifier_append_ne hname (by decide) body (same.symm.trans quote)

/-- **A key is written as a token**, unless it is an identifier with a line end. -/
theorem isKeyToken_propertyKey_iff :
    IsKeyToken key (propertyKey key) ↔ ¬ IsBrokenIdentifier key := by
  obtain ⟨identifier, plain, whole⟩ | ⟨broken, plain, other⟩ | ⟨whole, quoted⟩ :=
    propertyKey_kinds key
  · exact iff_of_true (Or.inl ⟨plain, identifier⟩) whole
  · refine iff_of_false ?_ (not_not_intro broken)
    obtain ⟨name, hname, same⟩ := broken
    rw [plain]
    rintro (⟨-, identifier⟩ | literal)
    · rw [other] at identifier
      cases identifier
    · exact not_isLiteralOf_of_head hname same literal
  · rw [quoted]
    exact iff_of_true (Or.inr (isLiteralOf_quoted key)) whole

/-- **A key stays on its line**, unless it is an identifier with a line end. -/
theorem lineEnd_mem_propertyKey_iff :
    '\n' ∈ (propertyKey key).toList ↔ IsBrokenIdentifier key := by
  obtain ⟨identifier, plain, whole⟩ | ⟨broken, plain, -⟩ | ⟨whole, quoted⟩ := propertyKey_kinds key
  · rw [plain]
    exact iff_of_false (lineEnd_not_mem_identifier identifier) whole
  · refine iff_of_true ?_ broken
    obtain ⟨name, -, same⟩ := broken
    rw [plain, same]
    exact List.mem_append_right _ (List.mem_singleton_self _)
  · rw [quoted]
    exact iff_of_false (lineEnd_not_mem_quoted key) whole

/-! ### Lines of members -/

/-- The line of a member up to the colon behind its key. -/
def Member.label (depth : Int) : Member → List Char
  | .mk key _ optional readonly =>
    (indentation depth).toList ++ ((if readonly then "readonly " else "").toList ++
      ((propertyKey key).toList ++ (if optional then "?" else "").toList))

theorem Member.chars_eq_label_append (depth : Int) (m : Member) :
    m.chars depth = m.label depth ++ ':' :: ' ' :: (m.type.chars depth ++ [';']) := by
  obtain ⟨key, type, optional, readonly⟩ := m
  rw [Member.chars_mk, Member.label]
  simp only [List.append_assoc]
  rfl

theorem lineEnd_not_mem_indentation (depth : Int) : '\n' ∉ (indentation depth).toList := by
  rw [indentation, Text.blanks, String.toList_ofList]
  exact fun h => absurd (List.eq_of_mem_replicate h) (by decide)

/-- The label of a member breaks its line where its key does. -/
theorem Member.lineEnd_mem_label_iff (depth : Int) (m : Member) :
    '\n' ∈ m.label depth ↔ '\n' ∈ (propertyKey m.key).toList := by
  obtain ⟨key, type, optional, readonly⟩ := m
  have word : '\n' ∉ (if readonly then "readonly " else "").toList := by
    cases readonly <;> decide
  have mark : '\n' ∉ (if optional then "?" else "").toList := by
    cases optional <;> decide
  rw [Member.label, List.mem_append, List.mem_append, List.mem_append]
  simp only [lineEnd_not_mem_indentation, word, mark, false_or, or_false]
  rfl

/-- **Keys are tokens, and members do not break their lines inside them**, unless a key is an
identifier with a line end. -/
theorem propertyKey_isToken_iff (key : String) :
    (IsKeyToken key (propertyKey key) ↔ ¬ IsBrokenIdentifier key) ∧
    ∀ (depth : Int) (type : TypeExpr) (optional readonly : Bool),
      (Member.mk key type optional readonly).chars depth =
        (Member.mk key type optional readonly).label depth ++
          ':' :: ' ' :: (type.chars depth ++ [';']) ∧
      ('\n' ∈ (Member.mk key type optional readonly).label depth ↔ IsBrokenIdentifier key) := by
  refine ⟨isKeyToken_propertyKey_iff, fun depth type optional readonly => ?_⟩
  refine ⟨Member.chars_eq_label_append depth _, ?_⟩
  rw [Member.lineEnd_mem_label_iff]
  exact lineEnd_mem_propertyKey_iff

/-- **An identifier with a line end is written without quotes**, so it is no token, and the line of
its member ends inside it. -/
theorem propertyKey_breaks_line : propertyKey "abc\n" = "abc\n" ∧
    ¬ IsKeyToken "abc\n" (propertyKey "abc\n") ∧
    (Member.mk "abc\n" .null false false).render 1 = "    abc\n: null;" := by
  have broken : IsBrokenIdentifier "abc\n" := ⟨"abc".toList, by decide, rfl⟩
  refine ⟨if_pos broken.isBareKey, fun token => ?_, by decide⟩
  exact isKeyToken_propertyKey_iff.1 token broken

end TypeScript

end QueryTypes
