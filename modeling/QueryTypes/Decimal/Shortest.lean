import QueryTypes.Decimal.Binary

/-!
# The shortest decimal of a double

A double prints with the fewest significant digits that read back as the same
double, and with the nearest such digits where there are several. A positive
double is decoded into `m · 2 ^ q`; the numbers that read back as it are those
between the midpoints to its two neighbours, the ends included exactly if `m` is
even. For one, two, and so on up to seventeen digits the two points of that
decimal grid around the value are tried in exact arithmetic.
-/

namespace QueryTypes

namespace Decimal

/-- A positive rational interval with a distinguished point, over one denominator. -/
structure Window where
  /-- The lower end. -/
  low : Nat
  /-- The value itself. -/
  value : Nat
  /-- The upper end. -/
  high : Nat
  /-- The common denominator. -/
  denominator : Nat
  /-- Whether the ends belong to the interval. -/
  closed : Bool

/-- The numbers that read back as a finite double other than zero, apart from its sign. -/
def Window.ofBinary (b : Binary) : Window :=
  let m := b.significand
  -- below a power of two the neighbours are twice as close
  let below : Nat := if b.fraction = 0 ∧ 1 < b.field then 1 else 2
  let up := twoTo (b.level - 1077)
  ⟨(4 * m - below) * up, 4 * m * up, (4 * m + 2) * up, twoTo (1077 - b.level), m % 2 = 0⟩

/-- Whether `n / d` reads back. -/
def Window.holds (w : Window) (n d : Nat) : Bool :=
  if w.closed then w.low * d ≤ n * w.denominator && n * w.denominator ≤ w.high * d
  else w.low * d < n * w.denominator && n * w.denominator < w.high * d

/-- The exponent `k` with `10 ^ k ≤ value < 10 ^ (k + 1)`. -/
def Window.magnitude (w : Window) : Int :=
  if w.denominator ≤ w.value then
    ((Nat.toDigits 10 (w.value / w.denominator)).length : Int) - 1
  else
    -- the first power of ten that lifts the value to one or above
    let steps := (List.range 400).find? fun k => decide (w.denominator ≤ w.value * tenTo k)
    let size : Int := steps.getD 400
    0 - size

/-- The digits and the scale of the best point with so many digits, if one of the
two points around the value reads back. -/
def Window.attempt (w : Window) (count : Nat) : Option (Nat × Int) :=
  let scale : Int := w.magnitude + 1 - count
  let up : Nat := tenTo scale.toNat
  let down : Nat := tenTo (-scale).toNat
  let floor := w.value * down / (w.denominator * up)
  let distance (n : Nat) : Nat :=
    let point := n * up * w.denominator
    let target := w.value * down
    if point ≤ target then target - point else point - target
  match w.holds (floor * up) down, w.holds ((floor + 1) * up) down with
  | false, false => none
  | true, false => some (floor, scale)
  | false, true => some (floor + 1, scale)
  | true, true =>
    if distance floor < distance (floor + 1) then some (floor, scale)
    else if distance (floor + 1) < distance floor then some (floor + 1, scale)
    else some (if floor % 2 = 0 then floor else floor + 1, scale)

/-- The digits and the scale of the shortest decimal. -/
def Window.shortest (w : Window) : Nat × Int :=
  ((List.range 17).findSome? fun n => w.attempt (n + 1)).getD (0, 0)

/-- Digits and a scale without zeros at the end. -/
def stripZeros : Nat → Nat × Int → Nat × Int
  | 0, d => d
  | fuel + 1, (digits, scale) =>
    if digits ≠ 0 ∧ digits % 10 = 0 then stripZeros fuel (digits / 10, scale + 1)
    else (digits, scale)

/-- An exponent of ten behind its letter: with a sign, and at least two digits. -/
def exponentText (exponent : Int) : List Char :=
  let digits := Nat.toDigits 10 exponent.natAbs
  (if exponent < 0 then '-' else '+') :: (if digits.length < 2 then '0' :: digits else digits)

/-- A double as text: positional with at least one decimal place from `1e-4` up to
below `1e16`, else in scientific form with at least two exponent digits. -/
def floatText (x : Float) : String :=
  let b := Binary.ofFloat x
  let sign := if b.isNegative then "-" else ""
  if !b.isFinite then (if b.fraction = 0 then sign ++ "inf" else "nan")
  else if b.isZero then sign ++ "0.0"
  else
    let (digits, scale) := stripZeros 20 (Window.ofBinary b).shortest
    let text := Nat.toDigits 10 digits
    let point : Int := text.length + scale
    let body : List Char :=
      if -4 < point ∧ point ≤ 16 then
        if point ≤ 0 then
          ['0', '.'] ++ List.replicate (-point).toNat '0' ++ text
        else if scale < 0 then
          text.take point.toNat ++ ['.'] ++ text.drop point.toNat
        else text ++ List.replicate scale.toNat '0' ++ ['.', '0']
      else
        let places := if text.length ≤ 1 then text else text.take 1 ++ ['.'] ++ text.drop 1
        places ++ 'e' :: exponentText (point - 1)
    sign ++ String.ofList body

end Decimal

end QueryTypes
