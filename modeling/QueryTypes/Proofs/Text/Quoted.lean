import QueryTypes.Json.Reader

/-!
# Quoted texts are read back

A quoted text is a string of JSON, and the reader of JSON takes it off the front of a longer text
(`QueryTypes.Text.readString?_quotedChars`). So a quoted text tells what it quotes and where it ends
(`QueryTypes.Text.quotedChars_append_cancel`).

The digits of an escape stand for its unit (`QueryTypes.Text.hexNumber?_hexDigits`), and a character
has one unit that is no surrogate, or two that are a pair.

Whatever is quoted, what stands between the quotes is printable ASCII
(`QueryTypes.Text.ascii_of_mem_quotedChars`), so it stays on its line.
-/

namespace QueryTypes

namespace Text

open Json (readUnit? readEscapedUnits? readString?)

/-! ### Escapes -/

theorem hexNumber?_append (start : Nat) (xs ys : List Char) :
    hexNumber? start (xs ++ ys) = (hexNumber? start xs).bind fun n => hexNumber? n ys := by
  induction xs generalizing start with
  | nil => rfl
  | cons c rest ih =>
    rw [List.cons_append, hexNumber?, hexNumber?]
    cases hexValue? c with
    | none => rfl
    | some d => exact ih _

/-- **Hexadecimal digits stand for the number that they are the last digits of.** -/
theorem hexNumber?_hexDigits (width n start : Nat) : hexNumber? start (hexDigits width n) =
    some (start * Nat.pow 16 width + n % Nat.pow 16 width) := by
  induction width generalizing n with
  | zero =>
    rw [hexDigits, hexNumber?, show Nat.pow 16 0 = 1 from rfl, Nat.mod_one, Nat.mul_one]
    rfl
  | succ width ih =>
    have power : Nat.pow 16 (width + 1) = 16 * Nat.pow 16 width := Nat.pow_succ'
    have parts : n % (16 * Nat.pow 16 width) = n % 16 + 16 * (n / 16 % Nat.pow 16 width) :=
      Nat.mod_mul
    rw [hexDigits, hexNumber?_append, ih, Option.bind_some, hexNumber?,
      hexValue?_hexDigit _ (Nat.mod_lt _ (by decide)), power, parts, Nat.mul_left_comm]
    refine congrArg some ?_
    omega

/-- Four digits are read as the unit they were written for. -/
theorem readUnit?_hexDigits {unit : Nat} (h : unit < 65536) (rest : List Char) :
    readUnit? (hexDigits 4 unit ++ rest) = some (unit, rest) := by
  have number := hexNumber?_hexDigits 4 unit 0
  rw [Nat.zero_mul, Nat.zero_add, show Nat.pow 16 4 = 65536 from rfl, Nat.mod_eq_of_lt h]
    at number
  obtain ⟨a, b, c, d, digits⟩ : ∃ a b c d, hexDigits 4 unit = [a, b, c, d] := ⟨_, _, _, _, rfl⟩
  rw [digits] at number ⊢
  change (hexNumber? 0 [a, b, c, d]).map _ = _
  rw [number]
  rfl

/-- A unit that is no surrogate. -/
theorem readEscapedUnits?_single {unit : Nat} (h : unit < 0xD800 ∨ 0xE000 ≤ unit)
    (small : unit < 65536) (rest : List Char) :
    readEscapedUnits? (hexDigits 4 unit ++ rest) = some (Char.ofNat unit, rest) := by
  have high : isHighSurrogate unit = false := by
    simp only [isHighSurrogate, Bool.and_eq_false_iff, decide_eq_false_iff_not]
    omega
  have low : isLowSurrogate unit = false := by
    simp only [isLowSurrogate, Bool.and_eq_false_iff, decide_eq_false_iff_not]
    omega
  simp only [readEscapedUnits?, readUnit?_hexDigits small, high, low]
  rfl

/-- Two units that are a pair. -/
theorem readEscapedUnits?_pair {a b : Nat} (ha : a < 0x400) (hb : b < 0x400)
    (rest : List Char) :
    readEscapedUnits?
        (hexDigits 4 (0xD800 + a) ++ '\\' :: 'u' :: hexDigits 4 (0xDC00 + b) ++ rest) =
      some (Char.ofNat (0x10000 + a * 0x400 + b), rest) := by
  have high : isHighSurrogate (0xD800 + a) = true := by
    simp only [isHighSurrogate, Bool.and_eq_true, decide_eq_true_eq]
    omega
  have low : isLowSurrogate (0xDC00 + b) = true := by
    simp only [isLowSurrogate, Bool.and_eq_true, decide_eq_true_eq]
    omega
  rw [List.append_assoc]
  simp only [readEscapedUnits?, readUnit?_hexDigits (show 0xD800 + a < 65536 by omega), high,
    List.cons_append, readUnit?_hexDigits (show 0xDC00 + b < 65536 by omega), low, if_true,
    ofSurrogates, Nat.add_sub_cancel_left]

/-- **The escapes of a character are read as the character.** -/
theorem readEscapedUnits?_utf16Units (c : Char) (rest : List Char) :
    ∃ escape, ((utf16Units c).flatMap fun unit => '\\' :: 'u' :: hexDigits 4 unit) =
        '\\' :: 'u' :: escape ∧ readEscapedUnits? (escape ++ rest) = some (c, rest) := by
  have valid : c.toNat < 0xD800 ∨ 0xDFFF < c.toNat ∧ c.toNat < 0x110000 := c.valid
  unfold utf16Units
  split
  · next small =>
    refine ⟨hexDigits 4 c.toNat, by simp, ?_⟩
    rw [readEscapedUnits?_single (by omega) small, Char.ofNat_toNat]
  · next large =>
    refine ⟨hexDigits 4 (0xD800 + (c.toNat - 0x10000) / 0x400) ++
      '\\' :: 'u' :: hexDigits 4 (0xDC00 + (c.toNat - 0x10000) % 0x400), by simp, ?_⟩
    rw [readEscapedUnits?_pair (by omega) (by omega)]
    have whole : 0x10000 + (c.toNat - 0x10000) / 0x400 * 0x400 + (c.toNat - 0x10000) % 0x400 =
        c.toNat := by
      omega
    rw [whole, Char.ofNat_toNat]

/-! ### Strings -/

/-- A character that stands for itself is read as it is. -/
theorem readString?_plain {c : Char} (hquote : c ≠ '"') (hslash : c ≠ '\\') (large : 32 ≤ c.toNat)
    (fuel : Nat) (rest : List Char) : readString? (fuel + 1) (c :: rest) =
      (readString? fuel rest).map fun (cs, r) => (c :: cs, r) := by
  rw [readString?, if_neg fun bad => bad.elim (Nat.not_lt.2 large) hslash]
  · exact hquote
  · exact fun _ same => absurd same hslash
  · exact fun _ _ same => absurd same hslash

/-- **One quoted character is read as the character.** -/
theorem readString?_quotedChar (c : Char) (fuel : Nat) (rest : List Char) :
    readString? (fuel + 1) (quotedChar c ++ rest) =
      (readString? fuel rest).map fun (cs, r) => (c :: cs, r) := by
  unfold quotedChar
  -- seven characters have an escape of one letter
  iterate 7
    split
    · next h =>
      rw [h]
      rfl
  split
  · next hquote hslash _ _ _ _ _ printable =>
    exact readString?_plain hquote hslash printable.1 fuel rest
  · obtain ⟨escape, units, read⟩ := readEscapedUnits?_utf16Units c rest
    rw [units, List.cons_append, List.cons_append, readString?]
    simp only [read]

/-- **What is quoted is read back**, up to the closing quote, by as many steps as there are
characters, and one more. -/
theorem readString?_quotedChars (text rest : List Char) {fuel : Nat} (h : text.length < fuel) :
    readString? fuel (quotedChars text ++ '"' :: rest) = some (text, rest) := by
  induction text generalizing fuel with
  | nil =>
    obtain ⟨fuel, rfl⟩ := Nat.exists_eq_succ_of_ne_zero (Nat.ne_of_gt h)
    rfl
  | cons c text ih =>
    obtain ⟨fuel, rfl⟩ := Nat.exists_eq_succ_of_ne_zero (Nat.ne_of_gt (Nat.zero_lt_of_lt h))
    rw [quotedChars_cons, List.append_assoc, readString?_quotedChar,
      ih (Nat.lt_of_succ_lt_succ h)]
    rfl

/-- **A quoted text tells what it quotes, and where it ends.** -/
theorem quotedChars_append_cancel {text other k l : List Char}
    (h : quotedChars text ++ '"' :: k = quotedChars other ++ '"' :: l) : text = other ∧ k = l := by
  have enough : text.length < text.length + other.length + 1 := by omega
  have read := readString?_quotedChars text k enough
  rw [h, readString?_quotedChars other l (by omega)] at read
  cases read
  exact ⟨rfl, rfl⟩

/-! ### Characters of quoted texts -/

theorem ascii_hexDigit : ∀ n < 16, 32 ≤ (hexDigit n).toNat ∧ (hexDigit n).toNat < 127 := by
  decide

theorem ascii_of_mem_hexDigits {width n : Nat} {c : Char} (h : c ∈ hexDigits width n) :
    32 ≤ c.toNat ∧ c.toNat < 127 := by
  induction width generalizing n with
  | zero => cases h
  | succ width ih =>
    rcases List.mem_append.1 h with h | h
    · exact ih h
    · rw [List.mem_singleton.1 h]
      exact ascii_hexDigit _ (Nat.mod_lt n (by decide))

/-- One quoted character is written in printable ASCII. -/
theorem ascii_of_mem_quotedChar {c d : Char} (h : d ∈ quotedChar c) :
    32 ≤ d.toNat ∧ d.toNat < 127 := by
  unfold quotedChar at h
  -- seven characters have an escape of one letter
  iterate 7
    split at h
    · simp only [List.mem_cons, List.not_mem_nil, or_false] at h
      rcases h with rfl | rfl <;> decide
  split at h
  · next printable =>
    rw [List.mem_singleton.1 h]
    exact printable
  · obtain ⟨unit, -, h⟩ := List.mem_flatMap.1 h
    rcases List.mem_cons.1 h with rfl | h
    · decide
    · rcases List.mem_cons.1 h with rfl | h
      · decide
      · exact ascii_of_mem_hexDigits h

/-- **What stands between quotes is printable ASCII.** -/
theorem ascii_of_mem_quotedChars {text : List Char} {c : Char} (h : c ∈ quotedChars text) :
    32 ≤ c.toNat ∧ c.toNat < 127 := by
  obtain ⟨d, -, hd⟩ := List.mem_flatMap.1 h
  exact ascii_of_mem_quotedChar hd

/-- No line ends between quotes. -/
theorem lineEnd_not_mem_quotedChars (text : List Char) : '\n' ∉ quotedChars text := fun h =>
  absurd (ascii_of_mem_quotedChars h) (by decide)

end Text

end QueryTypes
