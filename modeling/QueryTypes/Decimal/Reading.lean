import QueryTypes.Decimal.Fixed

/-!
# Reading decimal numbers

Runs of decimal digits and the numbers they stand for. A floating-point number
is read from its digits and the power of ten they are scaled by. It is the double
nearest to them, found in exact arithmetic; powers far outside the range of a
double are decided by their size alone, so that a long exponent costs nothing.
-/

namespace QueryTypes

namespace Decimal

/-- A decimal digit. -/
def isDigit (c : Char) : Bool := '0' ≤ c && c ≤ '9'

/-- The digits a text begins with, and the rest. -/
def spanDigits : List Char → List Char × List Char
  | [] => ([], [])
  | c :: rest =>
    if isDigit c then (c :: (spanDigits rest).1, (spanDigits rest).2) else ([], c :: rest)

/-- Nothing is lost. -/
theorem spanDigits_append (text : List Char) :
    (spanDigits text).1 ++ (spanDigits text).2 = text := by
  induction text with
  | nil => rfl
  | cons c rest ih =>
    by_cases h : isDigit c = true
    · simp [spanDigits, h, ih]
    · simp [spanDigits, h]

/-- The most digits that a whole number is read or written with in base ten. -/
def maxDigits : Nat := 4300

/-- The number that a run of digits in a base stands for, continuing from `start`. -/
def ofDigits (base : Nat) (value : Char → Nat) : Nat → List Char → Nat
  | start, [] => start
  | start, c :: rest => ofDigits base value (start * base + value c) rest

/-- The number that a run of decimal digits stands for. -/
def toNat (digits : List Char) : Nat :=
  ofDigits 10 (fun c => c.toNat - 48) 0 digits

/-- The bits of the double nearest to `n / d`; of two, the one with the even significand. The
quotient is scaled so that its whole part has 53 binary digits, or by the least power of two
that a double has. -/
def nearestBits (n d : Nat) : Nat :=
  let scaled (exponent : Int) : Nat × Nat :=
    (n * twoTo (-exponent).toNat, d * twoTo exponent.toNat)
  let guess : Int := (Nat.log2 n : Int) - Nat.log2 d - 53
  let (up, down) := scaled guess
  let exponent := max (if twoTo 53 ≤ up / down then guess + 1 else guess) (-1074)
  let (up, down) := scaled exponent
  min ((exponent + 1074).toNat * twoTo 52 + roundHalfEven up down) (2047 * twoTo 52)

/-- The double nearest to `digits · 10 ^ exponent`. -/
def toFloat (digits : Nat) (exponent : Int) : Float :=
  let size : Int := (Nat.toDigits 10 digits).length + exponent
  if digits = 0 then 0.0
  else if size > 400 then 1.0 / 0.0
  else if size < -400 then 0.0
  else Float.ofBits (nearestBits (digits * tenTo exponent.toNat) (tenTo (-exponent).toNat)).toUInt64

/-- The double nearest to a whole number. -/
def ofInt (n : Int) : Float :=
  if n < 0 then -toFloat n.natAbs 0 else toFloat n.natAbs 0

end Decimal

end QueryTypes
