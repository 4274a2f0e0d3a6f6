import QueryTypes.Proofs.Text.Quoted
import QueryTypes.TypeScript.Type

/-!
# What names, literals and keys are written as

Where a text begins with a name, a number, a quoted text or the key of a member, what it begins with
is determined, and so is the rest of the text. A name or a number is followed by a character that is
no part of one (`QueryTypes.TypeScript.identifier_append_cancel`,
`QueryTypes.TypeScript.toString_append_cancel`), and a quoted text has its own end
(`QueryTypes.TypeScript.quoted_append_cancel`). A key is followed by a question mark or a colon
(`QueryTypes.TypeScript.propertyKey_append_cancel`); the line end that may follow a key without
quotes is neither, and no key is mistaken for the word that stands before the key of a member that
may not be assigned (`QueryTypes.TypeScript.propertyKey_append_ne_readonly`).
-/

namespace QueryTypes

namespace TypeScript

variable {k l : List Char}

/-! ### Runs of characters -/

/-- A text does not begin with a character of a kind. -/
def StopsAt (kind : Char → Bool) (text : List Char) : Prop := ∀ c ∈ text.head?, kind c = false

theorem stopsAt_cons {kind : Char → Bool} {c : Char} (h : kind c = false) (rest : List Char) :
    StopsAt kind (c :: rest) := by
  intro d hd
  obtain rfl := Option.some.inj hd
  exact h

theorem StopsAt.ne {kind : Char → Bool} {text rest : List Char} {c : Char} (h : StopsAt kind text)
    (hc : kind c = true) : text ≠ c :: rest := by
  rintro rfl
  rw [h c rfl] at hc
  cases hc

/-- **A run of characters of a kind is determined**, if what follows stops it. -/
theorem run_append_cancel {kind : Char → Bool} {xs ys : List Char} (hx : ∀ c ∈ xs, kind c = true)
    (hy : ∀ c ∈ ys, kind c = true) (hk : StopsAt kind k) (hl : StopsAt kind l)
    (h : xs ++ k = ys ++ l) : xs = ys ∧ k = l := by
  induction xs generalizing ys with
  | nil =>
    cases ys with
    | nil => exact ⟨rfl, h⟩
    | cons y ys => exact absurd h (hk.ne (hy y (List.mem_cons_self ..)))
  | cons x xs ih =>
    cases ys with
    | nil => exact absurd h.symm (hl.ne (hx x (List.mem_cons_self ..)))
    | cons y ys =>
      obtain ⟨rfl, behind⟩ := List.cons.inj h
      obtain ⟨rfl, rest⟩ := ih (fun c hc => hx c (List.mem_cons_of_mem _ hc))
        (fun c hc => hy c (List.mem_cons_of_mem _ hc)) behind
      exact ⟨rfl, rest⟩

/-! ### Names -/

/-- A name begins with a character that may begin one. -/
theorem exists_head_of_isIdentifier {name : List Char} (h : isIdentifier name = true) :
    ∃ c rest, name = c :: rest ∧ isIdentifierStart c = true := by
  cases name with
  | nil => cases h
  | cons c rest => exact ⟨c, rest, rfl, (Bool.and_eq_true_iff.1 h).1⟩

/-- A text that begins with a name does not begin with a character that begins none. -/
theorem identifier_append_ne {name : List Char} (h : isIdentifier name = true) {c : Char}
    (hc : isIdentifierStart c = false) (rest : List Char) : name ++ k ≠ c :: rest := by
  obtain ⟨d, others, rfl, start⟩ := exists_head_of_isIdentifier h
  intro same
  rw [(List.cons.inj same).1, hc] at start
  cases start

theorem isIdentifierRest_of_mem {name : List Char} (h : isIdentifier name = true) {c : Char}
    (hc : c ∈ name) : isIdentifierRest c = true := by
  cases name with
  | nil => cases h
  | cons d rest =>
    obtain ⟨start, all⟩ := Bool.and_eq_true_iff.1 h
    rcases List.mem_cons.1 hc with rfl | hc
    · rw [isIdentifierRest, start, Bool.true_or]
    · exact List.all_eq_true.1 all c hc

/-- **A name is determined**, if what follows is no part of it. -/
theorem identifier_append_cancel {name other : List Char} (hn : isIdentifier name = true)
    (ho : isIdentifier other = true) (hk : StopsAt isIdentifierRest k)
    (hl : StopsAt isIdentifierRest l) (h : name ++ k = other ++ l) : name = other ∧ k = l :=
  run_append_cancel (fun _ => isIdentifierRest_of_mem hn) (fun _ => isIdentifierRest_of_mem ho)
    hk hl h

/-! ### Literals -/

theorem toList_quoted (text : String) :
    (Text.quoted text).toList = '"' :: (Text.quotedChars text.toList ++ ['"']) :=
  String.toList_ofList

/-- **A quoted text is determined**, whatever follows. -/
theorem quoted_append_cancel {text other : String}
    (h : (Text.quoted text).toList ++ k = (Text.quoted other).toList ++ l) :
    text = other ∧ k = l := by
  rw [toList_quoted, toList_quoted, List.cons_append, List.cons_append, List.append_assoc,
    List.append_assoc] at h
  obtain ⟨same, rest⟩ := Text.quotedChars_append_cancel (List.cons.inj h).2
  exact ⟨String.toList_inj.1 same, rest⟩

/-- The characters of numbers. -/
def isNumberCharacter (c : Char) : Bool := c.isDigit || c = '-'

theorem isDigit_of_mem {n : Nat} {c : Char} (h : c ∈ Nat.toDigits 10 n) : c.isDigit = true :=
  Nat.isDigit_of_mem_toDigits (by decide) (by decide) h

/-- The text of a whole number: its digits, behind a sign if it is negative. -/
theorem toList_toString (n : Int) : (toString n).toList =
    if 0 ≤ n then Nat.toDigits 10 n.toNat else '-' :: Nat.toDigits 10 (-n).toNat := by
  rw [Int.toString_eq_repr, Int.repr_eq_if]
  split
  · rw [Nat.repr_eq_ofList_toDigits, String.toList_ofList]
  · rw [Nat.repr_eq_ofList_toDigits, String.toList_append, String.toList_ofList,
      String.toList_ofList]
    rfl

theorem isNumberCharacter_of_mem {n : Int} {c : Char} (h : c ∈ (toString n).toList) :
    isNumberCharacter c = true := by
  rw [toList_toString] at h
  split at h
  · rw [isNumberCharacter, isDigit_of_mem h, Bool.true_or]
  · rcases List.mem_cons.1 h with rfl | h
    · rfl
    · rw [isNumberCharacter, isDigit_of_mem h, Bool.true_or]

theorem toDigits_injective {m n : Nat} (h : Nat.toDigits 10 m = Nat.toDigits 10 n) : m = n := by
  have value := congrArg (Nat.ofDigitChars 10 · 0) h
  simpa only [Nat.ofDigitChars_toDigits (show 1 < 10 by decide) (show 10 ≤ 10 by decide)]
    using value

/-- Digits do not begin with a sign. -/
theorem toDigits_ne_minus {n : Nat} {rest : List Char} : Nat.toDigits 10 n ≠ '-' :: rest := by
  intro h
  have digit : ('-' : Char).isDigit = true := isDigit_of_mem (h ▸ List.mem_cons_self ..)
  cases digit

theorem toString_injective {m n : Int} (h : (toString m).toList = (toString n).toList) :
    m = n := by
  rw [toList_toString, toList_toString] at h
  split at h <;> split at h
  · have same := toDigits_injective h
    omega
  · exact absurd h toDigits_ne_minus
  · exact absurd h.symm toDigits_ne_minus
  · have same := toDigits_injective (List.cons.inj h).2
    omega

/-- A character of numbers begins no name. -/
theorem isIdentifierStart_of_isNumberCharacter {c : Char} (h : isNumberCharacter c = true) :
    isIdentifierStart c = false := by
  rcases Bool.or_eq_true_iff.1 h with digit | minus
  · have low : c ≤ '9' := by
      simp only [Char.isDigit, Bool.and_eq_true, decide_eq_true_eq] at digit
      exact digit.2
    cases start : isIdentifierStart c with
    | false => rfl
    | true =>
      simp only [isIdentifierStart, Bool.or_eq_true, Bool.and_eq_true, decide_eq_true_eq] at start
      rcases start with ((⟨high, -⟩ | ⟨high, -⟩) | rfl) | rfl
      · exact absurd (Char.le_trans high low) (by decide)
      · exact absurd (Char.le_trans high low) (by decide)
      · exact absurd low (by decide)
      · exact absurd digit (by decide)
  · rw [of_decide_eq_true minus]
    decide

/-- The text of a whole number is not empty. -/
theorem exists_head_of_toString (n : Int) :
    ∃ c rest, (toString n).toList = c :: rest ∧ isNumberCharacter c = true := by
  have text := toList_toString n
  cases chars : (toString n).toList with
  | nil =>
    rw [chars] at text
    split at text
    · exact absurd text.symm Nat.toDigits_ne_nil
    · cases text
  | cons c rest => exact ⟨c, rest, rfl, isNumberCharacter_of_mem (chars ▸ List.mem_cons_self ..)⟩

/-- **A whole number is determined**, if what follows is no part of it. -/
theorem toString_append_cancel {m n : Int} (hk : StopsAt isNumberCharacter k)
    (hl : StopsAt isNumberCharacter l) (h : (toString m).toList ++ k = (toString n).toList ++ l) :
    m = n ∧ k = l := by
  obtain ⟨same, rest⟩ := run_append_cancel (fun _ => isNumberCharacter_of_mem)
    (fun _ => isNumberCharacter_of_mem) hk hl h
  exact ⟨toString_injective same, rest⟩

/-! ### Keys -/

/-- A text begins with a mark that stands behind keys. -/
def BeginsBehindKey (text : List Char) : Prop := ∃ c rest, text = c :: rest ∧ (c = '?' ∨ c = ':')

/-- A key without quotes is a name, which a line end may follow. -/
theorem exists_name_of_isBareKey {key : List Char} (h : isBareKey key = true) :
    ∃ name tail, key = name ++ tail ∧ isIdentifier name = true ∧ (tail = [] ∨ tail = ['\n']) := by
  rcases Bool.or_eq_true_iff.1 h with h | h
  · exact ⟨key, [], (List.append_nil key).symm, h, Or.inl rfl⟩
  · obtain ⟨last, hname⟩ := Bool.and_eq_true_iff.1 h
    obtain ⟨name, rfl⟩ := List.getLast?_eq_some_iff.1 (of_decide_eq_true last)
    rw [List.dropLast_concat] at hname
    exact ⟨name, ['\n'], rfl, hname, Or.inr rfl⟩

/-- Behind the name of a key comes a line end or a mark, and these are no part of a name. -/
theorem stopsAt_tail {tail : List Char} (htail : tail = [] ∨ tail = ['\n'])
    (hk : BeginsBehindKey k) : StopsAt isIdentifierRest (tail ++ k) := by
  obtain ⟨c, rest, rfl, hc⟩ := hk
  rcases htail with rfl | rfl
  · rcases hc with rfl | rfl <;> exact stopsAt_cons rfl rest
  · exact stopsAt_cons rfl _

/-- A mark is no line end. -/
theorem ne_lineEnd (hk : BeginsBehindKey k) (rest : List Char) : k ≠ '\n' :: rest := by
  obtain ⟨c, others, rfl, hc⟩ := hk
  intro same
  obtain ⟨rfl, -⟩ := List.cons.inj same
  revert hc
  decide

/-- Whether a line end follows the name of a key is determined. -/
theorem tail_append_cancel {tail other : List Char} (htail : tail = [] ∨ tail = ['\n'])
    (hother : other = [] ∨ other = ['\n']) (hk : BeginsBehindKey k) (hl : BeginsBehindKey l)
    (h : tail ++ k = other ++ l) : tail = other ∧ k = l := by
  rcases htail with rfl | rfl <;> rcases hother with rfl | rfl
  · exact ⟨rfl, h⟩
  · exact absurd h (ne_lineEnd hk l)
  · exact absurd h.symm (ne_lineEnd hl k)
  · exact ⟨rfl, (List.cons.inj h).2⟩

/-- The text of a key: a name that a line end may follow, or a quoted text. -/
theorem propertyKey_cases (key : String) :
    (∃ name tail, (propertyKey key).toList = name ++ tail ∧ key.toList = name ++ tail ∧
      isIdentifier name = true ∧ (tail = [] ∨ tail = ['\n'])) ∨
    (propertyKey key).toList = (Text.quoted key).toList := by
  unfold propertyKey
  split
  · next bare =>
    obtain ⟨name, tail, same, hname, htail⟩ := exists_name_of_isBareKey bare
    exact Or.inl ⟨name, tail, same, same, hname, htail⟩
  · exact Or.inr rfl

/-- A key begins with a quote or as a name does. -/
theorem exists_head_of_propertyKey (key : String) :
    ∃ c rest, (propertyKey key).toList = c :: rest ∧ (isIdentifierStart c = true ∨ c = '"') := by
  obtain ⟨name, tail, same, -, hname, -⟩ | same := propertyKey_cases key
  · obtain ⟨c, rest, rfl, start⟩ := exists_head_of_isIdentifier hname
    exact ⟨c, rest ++ tail, same, Or.inl start⟩
  · exact ⟨_, _, same.trans (toList_quoted key), Or.inr rfl⟩

/-- **A key is determined**, if a mark that stands behind keys follows. -/
theorem propertyKey_append_cancel {key other : String} (hk : BeginsBehindKey k)
    (hl : BeginsBehindKey l) (h : (propertyKey key).toList ++ k = (propertyKey other).toList ++ l) :
    key = other ∧ k = l := by
  obtain ⟨name, tail, same, hkey, hname, htail⟩ | same := propertyKey_cases key <;>
    obtain ⟨name', tail', same', hother, hname', htail'⟩ | same' := propertyKey_cases other <;>
    rw [same, same'] at h
  · rw [List.append_assoc, List.append_assoc] at h
    obtain ⟨rfl, behind⟩ := identifier_append_cancel hname hname' (stopsAt_tail htail hk)
      (stopsAt_tail htail' hl) h
    obtain ⟨rfl, rest⟩ := tail_append_cancel htail htail' hk hl behind
    exact ⟨String.toList_inj.1 (hkey.trans hother.symm), rest⟩
  · rw [List.append_assoc, toList_quoted] at h
    exact absurd h (identifier_append_ne hname (by decide) _)
  · rw [List.append_assoc, toList_quoted] at h
    exact absurd h.symm (identifier_append_ne hname' (by decide) _)
  · exact quoted_append_cancel h

/-- **No key is mistaken for the word before the key of a member that may not be assigned.** -/
theorem propertyKey_append_ne_readonly (key : String) (hk : BeginsBehindKey k) (rest : List Char) :
    (propertyKey key).toList ++ k ≠ "readonly ".toList ++ rest := by
  intro h
  have word : "readonly ".toList ++ rest = "readonly".toList ++ ' ' :: rest := rfl
  rw [word] at h
  obtain ⟨name, tail, same, -, hname, htail⟩ | same := propertyKey_cases key
  · rw [same, List.append_assoc] at h
    -- the name is the word, and behind it comes a line end or a mark, but no blank
    obtain ⟨-, behind⟩ := identifier_append_cancel hname (by decide) (stopsAt_tail htail hk)
      (stopsAt_cons rfl rest) h
    obtain ⟨c, others, rfl, hc⟩ := hk
    rcases htail with rfl | rfl
    · obtain ⟨rfl, -⟩ := List.cons.inj behind
      revert hc
      decide
    · exact absurd (List.cons.inj behind).1 (by decide)
  · rw [same, toList_quoted] at h
    exact absurd h.symm (identifier_append_ne (by decide) (by decide) _)

/-! ### Lists -/

section Lists

variable {α : Type} {separator : List Char} {text : α → List Char} {Follows : List Char → Prop}

/-- The texts of some items, each behind a separator. -/
def behind (separator : List Char) (text : α → List Char) (items : List α) : List Char :=
  items.flatMap fun item => separator ++ text item

theorem behind_cons (item : α) (rest : List α) : behind separator text (item :: rest) =
    separator ++ (text item ++ behind separator text rest) := by
  rw [behind, List.flatMap_cons, List.append_assoc]
  rfl

theorem toList_join (separator first : String) (rest : List String) :
    (Text.join separator (first :: rest)).toList =
      first.toList ++ behind separator.toList String.toList rest := by
  induction rest generalizing first with
  | nil => exact (List.append_nil _).symm
  | cons next rest ih =>
    rw [Text.join, String.toList_append, String.toList_append, ih, List.append_assoc, behind_cons]

/-- What follows an item is the next separator, or what follows the list. -/
theorem follows_behind (goesOn : ∀ rest, Follows (separator ++ rest)) (hk : Follows k)
    (items : List α) : Follows (behind separator text items ++ k) := by
  cases items with
  | nil => exact hk
  | cons item rest =>
    rw [behind_cons, List.append_assoc]
    exact goesOn _

/-- **What follows a list of items** may follow an item, and is no separator with one more. -/
def Closes (separator : List Char) (text : α → List Char) (Follows : List Char → Prop)
    (k : List Char) : Prop :=
  Follows k ∧ ∀ item rest, k ≠ separator ++ (text item ++ rest)

/-- **The items behind separators are determined**, if each is by what may follow it. -/
theorem behind_append_cancel {xs ys : List α}
    (told : ∀ x ∈ xs, ∀ y ∈ ys, ∀ k l, Follows k → Follows l → text x ++ k = text y ++ l →
      x = y ∧ k = l)
    (goesOn : ∀ rest, Follows (separator ++ rest)) (hk : Closes separator text Follows k)
    (hl : Closes separator text Follows l)
    (h : behind separator text xs ++ k = behind separator text ys ++ l) : xs = ys ∧ k = l := by
  induction xs generalizing ys with
  | nil =>
    cases ys with
    | nil => exact ⟨rfl, h⟩
    | cons y ys =>
      rw [behind_cons, List.append_assoc, List.append_assoc] at h
      exact absurd h (hk.2 y _)
  | cons x xs ih =>
    cases ys with
    | nil =>
      rw [behind_cons, List.append_assoc, List.append_assoc] at h
      exact absurd h.symm (hl.2 x _)
    | cons y ys =>
      rw [behind_cons, behind_cons, List.append_assoc, List.append_assoc, List.append_assoc,
        List.append_assoc] at h
      obtain ⟨rfl, rest⟩ := told x (List.mem_cons_self ..) y (List.mem_cons_self ..) _ _
        (follows_behind goesOn hk.1 xs) (follows_behind goesOn hl.1 ys)
        (List.append_cancel_left h)
      obtain ⟨rfl, last⟩ := ih (fun x hx y hy => told x (List.mem_cons_of_mem _ hx) y
        (List.mem_cons_of_mem _ hy)) rest
      exact ⟨rfl, last⟩

/-- **The items between which separators stand are determined**, if each is by what may follow
it. -/
theorem joined_append_cancel {x y : α} {xs ys : List α}
    (told : ∀ a ∈ x :: xs, ∀ b ∈ y :: ys, ∀ k l, Follows k → Follows l → text a ++ k = text b ++ l →
      a = b ∧ k = l)
    (goesOn : ∀ rest, Follows (separator ++ rest)) (hk : Closes separator text Follows k)
    (hl : Closes separator text Follows l)
    (h : text x ++ (behind separator text xs ++ k) = text y ++ (behind separator text ys ++ l)) :
    x :: xs = y :: ys ∧ k = l := by
  obtain ⟨rfl, rest⟩ := told x (List.mem_cons_self ..) y (List.mem_cons_self ..) _ _
    (follows_behind goesOn hk.1 xs) (follows_behind goesOn hl.1 ys) h
  obtain ⟨rfl, last⟩ := behind_append_cancel (fun a ha b hb => told a (List.mem_cons_of_mem _ ha) b
    (List.mem_cons_of_mem _ hb)) goesOn hk hl rest
  exact ⟨rfl, last⟩

end Lists

end TypeScript

end QueryTypes
