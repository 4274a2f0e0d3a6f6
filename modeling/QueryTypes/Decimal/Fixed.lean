import QueryTypes.Decimal.Binary

/-!
# Decimals with fixed places

A quotient is rounded to the nearest whole number, and a half to the even one. A double is
such a quotient, so it prints with a given number of places by scaling it first.
-/

namespace QueryTypes

namespace Decimal

/-- The whole number nearest to `n / d`; of two, the even one. -/
def roundHalfEven (n d : Nat) : Nat :=
  let floor := n / d
  let rest := 2 * (n % d)
  if rest < d then floor
  else if d < rest then floor + 1
  else floor + floor % 2

/-- A quotient of a whole number is that number. -/
theorem roundHalfEven_mul (n : Nat) {d : Nat} (h : 0 < d) : roundHalfEven (n * d) d = n := by
  simp [roundHalfEven, Nat.mul_mod_left, Nat.mul_div_cancel n h, h]

/-- A number of ten-to-the-`places`-ths with its point. -/
def withPoint (places n : Nat) : List Char :=
  let digits := Nat.toDigits 10 n
  let padded := List.replicate (places + 1 - digits.length) '0' ++ digits
  let whole := padded.take (padded.length - places)
  if places = 0 then whole else whole ++ '.' :: padded.drop (padded.length - places)

/-- The size of a finite double with so many places. -/
def fixedDigits (places : Nat) (b : Binary) : List Char :=
  withPoint places (roundHalfEven (b.numerator * tenTo places) b.denominator)

end Decimal

end QueryTypes
