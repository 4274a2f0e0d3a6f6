import QueryTypes.Proofs.TypeScript.Keys

/-!
# Indentation is uniform

A type expression is printed in the same way at every depth, only further to the right: each line
after the first begins with four more blanks for each level
(`QueryTypes.TypeScript.TypeExpr.isUniform_of_isUnbroken`). So it is wherever it stands inside
another one, as an argument, as one of several types or as the type of a member
(`QueryTypes.TypeScript.render?_uniform`). Only the ends of lines that come from a name or a key
would be mistaken for the layout's own, so names and keys are to be free of them
(`QueryTypes.TypeScript.TypeExpr.IsUnbroken`); indices and literals are quoted and may be any texts.
-/

namespace QueryTypes

namespace TypeScript

/-! ### Moving a text to the right -/

/-- The blanks of so many levels. -/
def levels (n : Nat) : List Char := List.replicate (4 * n) ' '

/-- Characters whose lines after the first are moved so many levels to the right. -/
def movedBy (n : Nat) (text : List Char) : List Char := Text.insertAfter '\n' (levels n) text

/-- A text whose lines after the first are moved so many levels to the right. -/
def moveRight (n : Nat) (text : String) : String := String.ofList (movedBy n text.toList)

variable {n : Nat}

theorem movedBy_append (xs ys : List Char) : movedBy n (xs ++ ys) = movedBy n xs ++ movedBy n ys :=
  Text.insertAfter_append ..

theorem movedBy_cons {c : Char} (h : c ≠ '\n') (text : List Char) :
    movedBy n (c :: text) = c :: movedBy n text :=
  if_neg h

theorem movedBy_lineEnd (text : List Char) :
    movedBy n ('\n' :: text) = '\n' :: (levels n ++ movedBy n text) := by
  rw [movedBy, Text.insertAfter, if_pos rfl]
  rfl

/-- A line end alone is moved by the blanks behind it. -/
theorem movedBy_lineEnd_alone : movedBy n ['\n'] = ['\n'] ++ levels n :=
  (movedBy_lineEnd []).trans (congrArg _ (List.append_nil _))

theorem movedBy_eq_self {text : List Char} (h : '\n' ∉ text) : movedBy n text = text :=
  Text.insertAfter_eq_self h _

/-- So many levels more are so many blanks more, from the first level on. -/
theorem toList_indentation_add {depth : Int} (h : 0 ≤ depth) (n : Nat) :
    (indentation (depth + n)).toList = levels n ++ (indentation depth).toList := by
  have blanks : (4 * (depth + n)).toNat = 4 * n + (4 * depth).toNat := by omega
  rw [indentation, indentation, Text.blanks, Text.blanks, String.toList_ofList,
    String.toList_ofList, levels, blanks, List.replicate_append_replicate]

section Lists

variable {α : Type} {separator start : List Char} {text moved : α → List Char}

/-- **Items behind separators are moved one by one.** The blanks put in at the end of a separator
stand at the start of the item behind it. -/
theorem movedBy_behind {items : List α} (hseparator : movedBy n separator = separator ++ start)
    (h : ∀ x ∈ items, moved x = start ++ movedBy n (text x)) :
    movedBy n (behind separator text items) = behind separator moved items := by
  induction items with
  | nil => rfl
  | cons x rest ih =>
    rw [behind_cons, behind_cons, movedBy_append, movedBy_append, h x (List.mem_cons_self ..),
      ih fun y hy => h y (List.mem_cons_of_mem _ hy), hseparator, List.append_assoc,
      List.append_assoc]

/-- The text of each item is part of the text of the list. -/
theorem isInfix_joined {first x : α} {rest : List α} (h : x ∈ first :: rest) :
    text x <:+: text first ++ behind separator text rest := by
  rcases List.mem_cons.1 h with rfl | h
  · exact (List.prefix_append _ _).isInfix
  · obtain ⟨before, after, rfl⟩ := List.append_of_mem h
    refine ⟨text first ++ (behind separator text before ++ separator),
      behind separator text after, ?_⟩
    simp only [behind, List.flatMap_append, List.flatMap_cons, List.append_assoc]

end Lists

/-! ### Names without line ends -/

mutual

/-- **An unbroken type expression**: none of its names and keys holds a line end. -/
def TypeExpr.IsUnbroken : TypeExpr → Prop
  | .keyword name => '\n' ∉ name.toList
  | .reference name arguments => '\n' ∉ name.toList ∧ TypeExpr.IsUnbrokenInAll arguments
  | .indexed object _ => '\n' ∉ object.toList
  | .literal _ => True
  | .union types => TypeExpr.IsUnbrokenInAll types
  | .object members => Member.IsUnbrokenInAll members
  | .hole _ => True

/-- Several type expressions are unbroken. -/
def TypeExpr.IsUnbrokenInAll : List TypeExpr → Prop
  | [] => True
  | type :: rest => type.IsUnbroken ∧ TypeExpr.IsUnbrokenInAll rest

/-- The key and the type of a member are unbroken. -/
def Member.IsUnbroken : Member → Prop
  | .mk key type _ _ => '\n' ∉ key.toList ∧ type.IsUnbroken

/-- The keys and types of several members are unbroken. -/
def Member.IsUnbrokenInAll : List Member → Prop
  | [] => True
  | member :: rest => member.IsUnbroken ∧ Member.IsUnbrokenInAll rest

end

/-- A key without a line end is written without one. -/
theorem lineEnd_not_mem_propertyKey {key : String} (h : '\n' ∉ key.toList) :
    '\n' ∉ (propertyKey key).toList := by
  rw [lineEnd_mem_propertyKey_iff]
  rintro ⟨name, -, same⟩
  rw [same] at h
  exact h (List.mem_append_right _ (List.mem_singleton_self _))

theorem lineEnd_not_mem_literal (value : Literal) : '\n' ∉ value.render.toList := by
  cases value with
  | boolean value => cases value <;> decide
  | string value => exact lineEnd_not_mem_quoted value
  | integer value => exact fun h => absurd (isNumberCharacter_of_mem h) (by decide)

/-! ### Types at two depths -/

/-- **A type expression is printed uniformly** if so many levels more move all its lines but the
first so many levels to the right. -/
def TypeExpr.IsUniform (type : TypeExpr) : Prop :=
  ∀ (depth : Int) (n : Nat), 0 ≤ depth → type.chars (depth + n) = movedBy n (type.chars depth)

namespace TypeExpr

/-- What is on one line at every depth is printed uniformly. -/
theorem isUniform_of_line {type : TypeExpr} {line : List Char}
    (h : ∀ depth, type.chars depth = line) (whole : '\n' ∉ line) : type.IsUniform := by
  intro depth n _
  rw [h, h, movedBy_eq_self whole]

theorem isUniform_reference {name : String} {arguments : List TypeExpr}
    (hname : '\n' ∉ name.toList) (h : ∀ a ∈ arguments, a.IsUniform) :
    (reference name arguments).IsUniform := by
  cases arguments with
  | nil => exact isUniform_of_line (fun depth => by rw [chars, render]) hname
  | cons first rest =>
    intro depth n hdepth
    rw [chars_reference, chars_reference, movedBy_append, movedBy_eq_self hname,
      movedBy_cons (by decide), movedBy_append, movedBy_append,
      movedBy_behind rfl fun a ha => h a (List.mem_cons_of_mem _ ha) depth n hdepth,
      h first (List.mem_cons_self ..) depth n hdepth]
    rfl

theorem isUniform_union {types : List TypeExpr} (h : ∀ t ∈ types, t.IsUniform) :
    (union types).IsUniform := by
  cases types with
  | nil =>
    have line : ∀ depth, chars depth (union []) = [] := by
      intro depth
      rw [chars, render]
      rfl
    exact isUniform_of_line line List.not_mem_nil
  | cons first rest =>
    intro depth n hdepth
    rw [chars_union, chars_union, movedBy_append,
      movedBy_behind rfl fun a ha => h a (List.mem_cons_of_mem _ ha) depth n hdepth,
      h first (List.mem_cons_self ..) depth n hdepth]

end TypeExpr

/-- At a greater depth more blanks stand before the key of a member. -/
theorem Member.label_add (m : Member) {depth : Int} (h : 0 ≤ depth) (n : Nat) :
    m.label (depth + n) = levels n ++ m.label depth := by
  obtain ⟨key, type, optional, readonly⟩ := m
  rw [Member.label, Member.label, toList_indentation_add h, List.append_assoc]

/-- The line of a member begins with more blanks at a greater depth. -/
theorem Member.chars_add {m : Member} (hkey : '\n' ∉ m.key.toList) (h : m.type.IsUniform)
    {depth : Int} (hdepth : 0 ≤ depth) (n : Nat) :
    m.chars (depth + n) = levels n ++ movedBy n (m.chars depth) := by
  have label : '\n' ∉ m.label depth := fun hmem =>
    lineEnd_not_mem_propertyKey hkey ((m.lineEnd_mem_label_iff depth).1 hmem)
  rw [Member.chars_eq_label_append, Member.chars_eq_label_append, Member.label_add m hdepth,
    h depth n hdepth, movedBy_append, movedBy_eq_self label, movedBy_cons (by decide),
    movedBy_cons (by decide), movedBy_append, List.append_assoc]
  rfl

namespace TypeExpr

theorem isUniform_object {members : List Member} (hkeys : ∀ m ∈ members, '\n' ∉ m.key.toList)
    (h : ∀ m ∈ members, m.type.IsUniform) : (object members).IsUniform := by
  cases members with
  | nil =>
    have line : ∀ depth, chars depth (object []) = ['\x7b', '\x7d'] := by
      intro depth
      rw [chars, render]
      rfl
    exact isUniform_of_line line (by decide)
  | cons first rest =>
    intro depth n hdepth
    have line : ∀ m ∈ first :: rest, m.chars (depth + n + 1) =
        levels n ++ movedBy n (m.chars (depth + 1)) := by
      intro m hm
      rw [show depth + n + 1 = depth + 1 + n by omega]
      exact m.chars_add (hkeys m hm) (h m hm) (by omega) n
    have lines : movedBy n (behind ['\n'] (Member.chars (depth + 1)) rest) =
        behind ['\n'] (Member.chars (depth + n + 1)) rest :=
      movedBy_behind movedBy_lineEnd_alone fun m hm => line m (List.mem_cons_of_mem _ hm)
    rw [chars_object, chars_object, movedBy_cons (by decide), movedBy_lineEnd, movedBy_append,
      movedBy_append, lines, line first (List.mem_cons_self ..), movedBy_lineEnd, movedBy_append,
      movedBy_eq_self (lineEnd_not_mem_indentation depth), toList_indentation_add hdepth]
    simp only [List.append_assoc]
    rfl

end TypeExpr

mutual

/-- **Every unbroken type expression is printed uniformly.** -/
theorem TypeExpr.isUniform_of_isUnbroken : ∀ {type : TypeExpr}, type.IsUnbroken → type.IsUniform
  | .keyword _, h => by
    rw [TypeExpr.IsUnbroken] at h
    exact TypeExpr.isUniform_of_line (fun depth => by rw [TypeExpr.chars, TypeExpr.render]) h
  | .reference _ _, h => by
    rw [TypeExpr.IsUnbroken] at h
    exact TypeExpr.isUniform_reference h.1 (TypeExpr.isUniform_of_isUnbrokenInAll h.2)
  | .indexed _ _, h => by
    rw [TypeExpr.IsUnbroken] at h
    refine TypeExpr.isUniform_of_line (fun depth => TypeExpr.chars_indexed _ _) ?_
    simp [h, lineEnd_not_mem_quoted]
  | .literal value, _ =>
    TypeExpr.isUniform_of_line (fun depth => by rw [TypeExpr.chars, TypeExpr.render])
      (lineEnd_not_mem_literal value)
  | .union _, h => by
    rw [TypeExpr.IsUnbroken] at h
    exact TypeExpr.isUniform_union (TypeExpr.isUniform_of_isUnbrokenInAll h)
  | .object _, h => by
    rw [TypeExpr.IsUnbroken] at h
    have members := Member.isUniform_of_isUnbrokenInAll h
    exact TypeExpr.isUniform_object (fun m hm => (members m hm).1) fun m hm => (members m hm).2
  | .hole _, _ =>
    TypeExpr.isUniform_of_line (fun depth => by rw [TypeExpr.chars, TypeExpr.render]) (by decide)

theorem TypeExpr.isUniform_of_isUnbrokenInAll : ∀ {types : List TypeExpr},
    TypeExpr.IsUnbrokenInAll types → ∀ t ∈ types, t.IsUniform
  | [], _, _, ht => nomatch ht
  | type :: rest, h, t, ht => by
    rw [TypeExpr.IsUnbrokenInAll] at h
    rcases List.mem_cons.1 ht with same | ht
    · rw [same]
      exact TypeExpr.isUniform_of_isUnbroken h.1
    · exact TypeExpr.isUniform_of_isUnbrokenInAll h.2 t ht

theorem Member.isUniform_of_isUnbrokenInAll : ∀ {members : List Member},
    Member.IsUnbrokenInAll members → ∀ m ∈ members, '\n' ∉ m.key.toList ∧ m.type.IsUniform
  | [], _, _, hm => nomatch hm
  | .mk key type _ _ :: rest, h, m, hm => by
    rw [Member.IsUnbrokenInAll, Member.IsUnbroken] at h
    rcases List.mem_cons.1 hm with same | hm
    · rw [same]
      exact ⟨h.1.1, TypeExpr.isUniform_of_isUnbroken h.1.2⟩
    · exact Member.isUniform_of_isUnbrokenInAll h.2 m hm

end

/-! ### Types inside others -/

/-- **A type expression stands inside another one**, with so many object types around it. -/
inductive TypeExpr.StandsIn (part : TypeExpr) : Nat → TypeExpr → Prop where
  /-- It is the whole. -/
  | whole : StandsIn part 0 part
  /-- It stands inside an argument. -/
  | argument {around : Nat} {name : String} {arguments : List TypeExpr} {type : TypeExpr}
    (there : type ∈ arguments) (h : StandsIn part around type) :
    StandsIn part around (.reference name arguments)
  /-- It stands inside one of several types. -/
  | alternative {around : Nat} {types : List TypeExpr} {type : TypeExpr} (there : type ∈ types)
    (h : StandsIn part around type) : StandsIn part around (.union types)
  /-- It stands inside the type of a member. -/
  | member {around : Nat} {members : List Member} {m : Member} (there : m ∈ members)
    (h : StandsIn part around m.type) : StandsIn part (around + 1) (.object members)

theorem TypeExpr.firstHoleIn_eq_none_iff {types : List TypeExpr} :
    TypeExpr.firstHoleIn types = none ↔ ∀ t ∈ types, t.firstHole = none := by
  induction types with
  | nil => simp [TypeExpr.firstHoleIn]
  | cons type rest ih =>
    rw [TypeExpr.firstHoleIn, List.forall_mem_cons, ← ih]
    cases type.firstHole <;> simp

theorem Member.firstHoleIn_eq_none_iff {members : List Member} :
    Member.firstHoleIn members = none ↔ ∀ m ∈ members, m.type.firstHole = none := by
  induction members with
  | nil => simp [Member.firstHoleIn]
  | cons m rest ih =>
    obtain ⟨key, type, optional, readonly⟩ := m
    rw [Member.firstHoleIn, Member.firstHole, List.forall_mem_cons, ← ih, Member.type]
    cases type.firstHole <;> simp

namespace TypeExpr

theorem isInfix_of_argument {name : String} {arguments : List TypeExpr} {type : TypeExpr}
    (there : type ∈ arguments) (depth : Int) :
    type.chars depth <:+: chars depth (.reference name arguments) := by
  cases arguments with
  | nil => cases there
  | cons first rest =>
    have joined : type.chars depth <:+:
        first.chars depth ++ behind [',', ' '] (chars depth) rest := isInfix_joined there
    rw [chars_reference]
    exact joined.trans ⟨name.toList ++ ['<'], ['>'], by simp⟩

theorem isInfix_of_alternative {types : List TypeExpr} {type : TypeExpr} (there : type ∈ types)
    (depth : Int) : type.chars depth <:+: chars depth (.union types) := by
  cases types with
  | nil => cases there
  | cons first rest =>
    rw [chars_union]
    exact isInfix_joined there

theorem isInfix_of_member {members : List Member} {m : Member} (there : m ∈ members) (depth : Int) :
    m.type.chars (depth + 1) <:+: chars depth (.object members) := by
  cases members with
  | nil => cases there
  | cons first rest =>
    have line : m.type.chars (depth + 1) <:+: m.chars (depth + 1) := by
      rw [Member.chars_eq_label_append]
      exact ⟨m.label (depth + 1) ++ [':', ' '], [';'], by simp⟩
    have joined : m.chars (depth + 1) <:+:
        first.chars (depth + 1) ++ behind ['\n'] (Member.chars (depth + 1)) rest :=
      isInfix_joined there
    rw [chars_object]
    exact (line.trans joined).trans
      ⟨['\x7b', '\n'], '\n' :: ((indentation depth).toList ++ ['\x7d']), by simp⟩

end TypeExpr

namespace TypeExpr.StandsIn

variable {part whole : TypeExpr} {around : Nat}

/-- Where the whole has no hole, its parts have none. -/
theorem firstHole_eq_none (h : part.StandsIn around whole) (filled : whole.firstHole = none) :
    part.firstHole = none := by
  induction h with
  | whole => exact filled
  | argument there _ ih =>
    rw [firstHole, firstHoleIn_eq_none_iff] at filled
    exact ih (filled _ there)
  | alternative there _ ih =>
    rw [firstHole, firstHoleIn_eq_none_iff] at filled
    exact ih (filled _ there)
  | member there _ ih =>
    rw [firstHole, Member.firstHoleIn_eq_none_iff] at filled
    exact ih (filled _ there)

/-- **The text of a type expression contains the texts of its parts**, each at the depth at which
it stands. -/
theorem isInfix_chars (h : part.StandsIn around whole) (depth : Int) :
    part.chars (depth + around) <:+: whole.chars depth := by
  induction h generalizing depth with
  | whole => simp
  | argument there _ ih => exact (ih depth).trans (isInfix_of_argument there depth)
  | alternative there _ ih => exact (ih depth).trans (isInfix_of_alternative there depth)
  | @member around _ _ there _ ih =>
    rw [show depth + ((around + 1 : Nat) : Int) = depth + 1 + around by omega]
    exact (ih (depth + 1)).trans (isInfix_of_member there depth)

end TypeExpr.StandsIn

/-- So many levels deeper, the lines of an unbroken type expression are moved so many levels to the
right. -/
theorem TypeExpr.render_eq_moveRight {type : TypeExpr} (h : type.IsUnbroken) (n : Nat) :
    type.render n = moveRight n (type.render 0) := by
  have lines := type.isUniform_of_isUnbroken h 0 n (Int.le_refl 0)
  rw [Int.zero_add] at lines
  exact String.toList_inj.1 (lines.trans String.toList_ofList.symm)

/-- **Indentation is uniform.** At a depth, an unbroken type expression has the text that it has at
no depth, with its lines moved to the right, or has no text at both for the same reason; and with
its lines moved to the right it stands in the text of every type expression that it is a part of. -/
theorem render?_uniform {type : TypeExpr} (h : type.IsUnbroken) (depth : Nat) :
    type.render? depth = (type.render? 0).map (moveRight depth) ∧
    ∀ (whole : TypeExpr) (around : Nat) (text : String), type.StandsIn around whole →
      whole.render? depth = .ok text → ∃ own, type.render? 0 = .ok own ∧
        (moveRight (depth + around) own).toList <:+: text.toList := by
  refine ⟨?_, fun whole around text there printed => ?_⟩
  · unfold TypeExpr.render?
    cases type.firstHole with
    | some label => rfl
    | none => exact congrArg Except.ok (type.render_eq_moveRight h depth)
  · obtain ⟨filled, rfl⟩ := TypeExpr.render?_eq_ok_iff.1 printed
    have own : type.render? 0 = .ok (type.render 0) :=
      TypeExpr.render?_eq_ok_iff.2 ⟨there.firstHole_eq_none filled, rfl⟩
    refine ⟨type.render 0, own, ?_⟩
    rw [← type.render_eq_moveRight h, Int.natCast_add]
    exact there.isInfix_chars depth

/-- An object type with one member, inside the type of a member. -/
theorem render?_uniform_nested :
    let inner : TypeExpr := .object [.mk "b" (.keyword "string") false false]
    let outer : TypeExpr := .object [.mk "a" (.reference "Maybe" [inner]) false true]
    let text := "\x7b\n    readonly a: Maybe<\x7b\n        b: string;\n    \x7d>;\n\x7d"
    inner.IsUnbroken ∧ inner.StandsIn 1 outer ∧ outer.render? 0 = .ok text ∧
      inner.render? 1 = (inner.render? 0).map (moveRight 1) ∧
      ∃ own, inner.render? 0 = .ok own ∧ (moveRight 1 own).toList <:+: text.toList := by
  intro inner outer text
  have unbroken : inner.IsUnbroken := by
    simp [inner, TypeExpr.IsUnbroken, Member.IsUnbrokenInAll, Member.IsUnbroken]
  have there : inner.StandsIn 1 outer :=
    .member (List.mem_singleton_self _) (.argument (List.mem_singleton_self _) .whole)
  have printed : outer.render? 0 = .ok text :=
    TypeExpr.render?_eq_ok_iff.2 ⟨by decide, by decide⟩
  exact ⟨unbroken, there, printed, (render?_uniform unbroken 1).1,
    (render?_uniform unbroken 0).2 outer 1 text there printed⟩

end TypeScript

end QueryTypes
