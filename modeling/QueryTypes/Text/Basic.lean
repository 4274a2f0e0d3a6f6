/-!
# Joining and breaking text

Every file this library writes is put together from smaller texts: the parts of
a line are joined by a separator, a group of lines is moved to the right, and a
text that came from a file is brought to one line ending. These are those few
operations, written over lists so that facts about them are inductions.
-/

namespace QueryTypes

namespace Text

/-! ### Joining -/

/-- The texts one after another, with `separator` between two neighbours. -/
def join (separator : String) : List String → String
  | [] => ""
  | [text] => text
  | text :: next :: rest => text ++ separator ++ join separator (next :: rest)

@[simp] theorem join_nil (separator : String) : join separator [] = "" := rfl

@[simp] theorem join_singleton (separator text : String) :
    join separator [text] = text := rfl

/-- The nonempty ones of the texts, joined. -/
def joinPresent (separator : String) (texts : List String) : String :=
  join separator (texts.filter (· ≠ ""))

/-- A text between two others, or nothing if the text is empty. -/
def wrap (before text after : String) : String :=
  if text = "" then "" else before ++ text ++ after

@[simp] theorem wrap_empty (before after : String) : wrap before "" after = "" := rfl

/-- So many blanks. -/
def blanks (n : Nat) : String :=
  String.ofList (List.replicate n ' ')

/-- The text `n` times over. -/
def repeated (text : String) : Nat → String
  | 0 => ""
  | n + 1 => text ++ repeated text n

/-! ### Replacing -/

/-- Puts `insert` behind every occurrence of `mark`. -/
def insertAfter (mark : Char) (insert : List Char) : List Char → List Char
  | [] => []
  | c :: rest =>
    if c = mark then c :: (insert ++ insertAfter mark insert rest)
    else c :: insertAfter mark insert rest

@[simp] theorem insertAfter_nil (mark : Char) (insert : List Char) :
    insertAfter mark insert [] = [] := rfl

theorem insertAfter_append (mark : Char) (insert xs ys : List Char) :
    insertAfter mark insert (xs ++ ys) =
      insertAfter mark insert xs ++ insertAfter mark insert ys := by
  induction xs with
  | nil => rfl
  | cons c xs ih => by_cases h : c = mark <;> simp [insertAfter, h, ih]

/-- Where the mark does not occur, nothing is put in. -/
theorem insertAfter_eq_self {mark : Char} {text : List Char} (h : mark ∉ text)
    (insert : List Char) : insertAfter mark insert text = text := by
  induction text with
  | nil => rfl
  | cons c rest ih =>
    rw [List.mem_cons, not_or] at h
    rw [insertAfter, if_neg (Ne.symm h.1), ih h.2]

/-- A text whose lines after the first are moved two columns to the right. -/
def indentRest (text : String) : String :=
  String.ofList (insertAfter '\n' [' ', ' '] text.toList)

/-- A text moved two columns to the right; an empty text stays empty. -/
def indent (text : String) : String :=
  wrap "  " (indentRest text) ""

/-! ### Lines -/

/-- The parts of a text between the occurrences of a mark; always at least one. -/
def splitOn (mark : Char) : List Char → List (List Char)
  | [] => [[]]
  | c :: rest =>
    if c = mark then [] :: splitOn mark rest
    else match splitOn mark rest with
      | [] => [[c]]
      | part :: parts => (c :: part) :: parts

theorem splitOn_ne_nil (mark : Char) (text : List Char) : splitOn mark text ≠ [] := by
  cases text with
  | nil => simp [splitOn]
  | cons c rest =>
    unfold splitOn
    split
    · simp
    · split <;> simp

/-- A text with one line ending: a carriage return, alone or before a line feed,
becomes a line feed. -/
def universalNewlines : List Char → List Char
  | [] => []
  | '\r' :: '\n' :: rest => '\n' :: universalNewlines rest
  | c :: rest => (if c = '\r' then '\n' else c) :: universalNewlines rest

/-- A text that holds no carriage return is left alone. -/
theorem universalNewlines_eq_self {text : List Char} (h : '\r' ∉ text) :
    universalNewlines text = text := by
  fun_induction universalNewlines text with
  | case1 => rfl
  | case2 => simp at h
  | case3 c rest _ ih =>
    have hc : ¬ c = '\r' := fun e => h (by simp [e])
    simp [hc, ih (fun m => h (List.mem_cons_of_mem _ m))]

/-- No carriage return is left. -/
theorem not_mem_universalNewlines (text : List Char) : '\r' ∉ universalNewlines text := by
  fun_induction universalNewlines text with
  | case1 => simp
  | case2 rest ih => simpa using ih
  | case3 c rest _ ih =>
    by_cases hc : c = '\r'
    · simpa [hc] using ih
    · simpa [hc, ih] using fun e => hc e.symm

/-- What reading a text file gives for the text it holds. -/
def ofFile (text : String) : String :=
  String.ofList (universalNewlines text.toList)

/-! ### Beginnings and ends -/

/-- What follows a beginning, if the text has that beginning. -/
def dropStart? : List Char → List Char → Option (List Char)
  | [], text => some text
  | _ :: _, [] => none
  | c :: start, d :: text => if c = d then dropStart? start text else none

/-- Whether the text begins so. -/
def startsWith (start text : List Char) : Bool :=
  (dropStart? start text).isSome

/-- Whether the text ends so. -/
def endsWith (ending text : List Char) : Bool :=
  startsWith ending.reverse text.reverse

theorem dropStart?_append (start text : List Char) :
    dropStart? start (start ++ text) = some text := by
  induction start with
  | nil => rfl
  | cons c start ih => simp [dropStart?, ih]

theorem eq_append_of_dropStart? {start text rest : List Char}
    (h : dropStart? start text = some rest) : text = start ++ rest := by
  induction start generalizing text with
  | nil => simpa [dropStart?] using h
  | cons c start ih =>
    cases text with
    | nil => simp [dropStart?] at h
    | cons d text =>
      by_cases hc : c = d
      · subst hc
        simp only [dropStart?, if_true] at h
        simp [ih h]
      · simp [dropStart?, hc] at h

/-- The text without the marks at its end. -/
def trimEnd (mark : Char) (text : List Char) : List Char :=
  (text.reverse.dropWhile (· = mark)).reverse

end Text

end QueryTypes
