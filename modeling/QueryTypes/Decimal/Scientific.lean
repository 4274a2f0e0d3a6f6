import QueryTypes.Decimal.Fixed
import QueryTypes.Decimal.Shortest

/-!
# Decimals in scientific form

A number in scientific form has one digit before its point, so many places behind it, and a
power of ten. It is the nearest such number, a half going to the even digit. The general form
has a number of significant digits instead: it is positional as long as its power of ten is
neither below the fourth negative one nor too large for the digits, and goes without zeros at
its end.
-/

namespace QueryTypes

namespace Decimal

/-- A number of significant digits, read as a whole number, and the power of ten that the
first of them stands for. -/
structure Scientific where
  /-- The digits. -/
  digits : Nat
  /-- The exponent of the first digit. -/
  exponent : Int

namespace Scientific

/-- The size of a finite double, rounded to one digit and so many places. -/
def ofBinary (places : Nat) (b : Binary) : Scientific :=
  if b.isZero then ⟨0, 0⟩
  else
    let magnitude := (Window.ofBinary b).magnitude
    let scale : Int := magnitude - places
    let rounded := roundHalfEven (b.numerator * tenTo (-scale).toNat)
      (b.denominator * tenTo scale.toNat)
    -- rounding up may lead to one digit more
    if rounded = tenTo (places + 1) then ⟨tenTo places, magnitude + 1⟩ else ⟨rounded, magnitude⟩

/-- The text of a number with so many places. -/
def text (places : Nat) (s : Scientific) : List Char :=
  withPoint places s.digits ++ 'e' :: exponentText s.exponent

end Scientific

/-- Digits without the zeros at their end, and without a point that then ends them. -/
def withoutZeros (digits : List Char) : List Char :=
  if digits.contains '.' then
    ((digits.reverse.dropWhile (· = '0')).dropWhile (· = '.')).reverse
  else digits

/-- Digits that have a point, if need be at their end. -/
def withFinalPoint (digits : List Char) : List Char :=
  if digits.contains '.' then digits else digits ++ ['.']

/-- What belongs to a number before its exponent, changed by a function. -/
def onDigits (change : List Char → List Char) (text : List Char) : List Char :=
  let (digits, exponent) := text.span (· ≠ 'e')
  change digits ++ exponent

/-- The size of a finite double with so many places, in scientific form. -/
def scientificText (places : Nat) (b : Binary) : List Char :=
  (Scientific.ofBinary places b).text places

/-- The size of a finite double with so many significant digits, in the form that suits it,
zeros at the end included. -/
def generalText (count : Nat) (b : Binary) : List Char :=
  let count := max count 1
  let scientific := Scientific.ofBinary (count - 1) b
  if -4 ≤ scientific.exponent ∧ scientific.exponent < count then
    fixedDigits (count - 1 - scientific.exponent).toNat b
  else scientific.text (count - 1)

end Decimal

end QueryTypes
