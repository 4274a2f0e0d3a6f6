/-!
# Doubles as quotients

A finite double is a quotient of whole numbers: its significand, scaled by a power of two.
Everything that is said here about the text of a double starts from this quotient, which is
exact.
-/

namespace QueryTypes

namespace Decimal

/-- A power of two. -/
def twoTo (n : Nat) : Nat := Nat.pow 2 n

/-- A power of ten. -/
def tenTo (n : Nat) : Nat := Nat.pow 10 n

theorem twoTo_pos (n : Nat) : 0 < twoTo n := Nat.pow_pos (by decide)

theorem tenTo_pos (n : Nat) : 0 < tenTo n := Nat.pow_pos (by decide)

/-- The three parts of the bits of a double. -/
structure Binary where
  /-- Whether the sign bit is set. -/
  isNegative : Bool
  /-- The exponent as it is stored. -/
  field : Nat
  /-- The digits behind the binary point. -/
  fraction : Nat
  deriving DecidableEq

namespace Binary

/-- The parts of a double. -/
def ofFloat (x : Float) : Binary :=
  let bits := x.toBits.toNat
  { isNegative := bits / twoTo 63 = 1
    field := bits / twoTo 52 % twoTo 11
    fraction := bits % twoTo 52 }

/-- Whether the double is finite. -/
def isFinite (b : Binary) : Bool := b.field ≠ 2047

/-- The stored exponent, brought to the least one that a finite double has. -/
def level (b : Binary) : Nat := max b.field 1

/-- The significand; all doubles but the least ones have a digit before the point. -/
def significand (b : Binary) : Nat :=
  if b.field = 0 then b.fraction else b.fraction + twoTo 52

/-- Whether the double is zero, of either sign. -/
def isZero (b : Binary) : Bool := b.significand = 0

/-- The upper part of the quotient that a finite double is, apart from its sign. -/
def numerator (b : Binary) : Nat := b.significand * twoTo (b.level - 1075)

/-- The lower part of the quotient. -/
def denominator (b : Binary) : Nat := twoTo (1075 - b.level)

theorem denominator_pos (b : Binary) : 0 < b.denominator := twoTo_pos _

/-- The whole number that a double is, if it is one. -/
def toInt? (b : Binary) : Option Int :=
  if b.isFinite && b.numerator % b.denominator = 0 then
    let size : Int := (b.numerator / b.denominator : Nat)
    some (if b.isNegative then -size else size)
  else none

/-- The whole part of a finite double. -/
def truncate? (b : Binary) : Option Int :=
  if b.isFinite then
    let size : Int := (b.numerator / b.denominator : Nat)
    some (if b.isNegative then -size else size)
  else none

end Binary

end Decimal

end QueryTypes
