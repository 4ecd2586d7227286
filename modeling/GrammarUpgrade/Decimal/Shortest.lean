import GrammarUpgrade.Decimal.Binary64
import GrammarUpgrade.Decimal.Numeral

/-!
# The shortest decimal text of a binary number

Of the decimals that lie in the interval rounding to a given magnitude, the ones
with the fewest digits are considered, and of these the nearest to the magnitude
is taken, a tie going to the even last digit.  The search walks over the numbers
of digits and, for each, looks at the two neighbours of the magnitude on the
decimal grid of that fineness.
-/

namespace GrammarUpgrade.Decimal

/-- The decimal `0.d₁d₂…dₙ * 10 ^ point`. -/
structure Digits where
  digits : List Char
  point : Int
  deriving DecidableEq, Repr, Inhabited

/-- The numbers that round to a magnitude, in quarter units of `2 ^ -1074`. -/
structure Interval where
  low : Nat
  high : Nat
  closed : Bool

/-- The interval of a magnitude.  It ends half way to the two neighbours, and the
neighbour below is half as far when the significand is the smallest of its
scale; the ends belong to it when the significand is even. -/
def Magnitude.interval (m : Magnitude) : Interval where
  low :=
    4 * m.units -
      (if m.significand = Nat.pow 2 52 && m.scale != 0 then Nat.pow 2 m.scale
      else 2 * Nat.pow 2 m.scale)
  high := 4 * m.units + 2 * Nat.pow 2 m.scale
  closed := m.significand % 2 = 0

/-- The least `point` for which a positive quotient is below `10 ^ point`. -/
def decimalPoint (numerator denominator : Nat) : Int :=
  let estimate : Int :=
    (digitsOf numerator).length - (digitsOf denominator).length
  if numerator * Nat.pow 10 (-estimate).toNat <
      denominator * Nat.pow 10 estimate.toNat then
    estimate
  else
    estimate + 1

/-- Whether the decimal `count * 10 ^ exponent` lies in an interval. -/
def Interval.contains (interval : Interval) (count : Nat) (exponent : Int) : Bool :=
  let value := 4 * count * Nat.pow 10 exponent.toNat * Magnitude.unitsPerOne
  let one := Nat.pow 10 (-exponent).toNat
  if interval.closed then
    interval.low * one ≤ value && value ≤ interval.high * one
  else
    interval.low * one < value && value < interval.high * one

/-- The better neighbour of a positive magnitude among the decimals
`count * 10 ^ exponent`, if one of them rounds to the magnitude. -/
def onGrid? (m : Magnitude) (exponent : Int) : Option Nat :=
  let numerator := m.units * Nat.pow 10 (-exponent).toNat
  let denominator := Magnitude.unitsPerOne * Nat.pow 10 exponent.toNat
  let below := numerator / denominator
  let interval := m.interval
  match interval.contains below exponent, interval.contains (below + 1) exponent with
  | true, true => some (Magnitude.nearest numerator denominator)
  | true, false => some below
  | false, true => some (below + 1)
  | false, false => none

/-- The digits of the first grid that has a decimal in the interval, the grids
having `count`, `count + 1`, … digits. -/
def searchFrom (m : Magnitude) (point : Int) (count : Nat) : Nat → Digits
  | 0 => ⟨[], 0⟩
  | fuel + 1 =>
      match onGrid? m (point - count) with
      | some found =>
          let written := digitsOf found
          ⟨(written.reverse.dropWhile (· = '0')).reverse,
            point - count + written.length⟩
      | none => searchFrom m point (count + 1) fuel

/-- The shortest digits of a magnitude; zero has none.  Seventeen digits always
suffice. -/
def Magnitude.shortest (m : Magnitude) : Digits :=
  if m.significand = 0 then ⟨[], 0⟩
  else searchFrom m (decimalPoint m.units Magnitude.unitsPerOne) 1 17

/-- Digits written with a decimal point, always with a digit on both sides. -/
def Digits.positional (d : Digits) : List Char :=
  if d.digits = [] then "0.0".toList
  else if d.point ≤ 0 then
    "0.".toList ++ List.replicate (-d.point).toNat '0' ++ d.digits
  else
    let whole := d.digits.take d.point.toNat
    let fraction := d.digits.drop d.point.toNat
    whole ++ List.replicate (d.point.toNat - d.digits.length) '0' ++ '.' ::
      (if fraction = [] then ['0'] else fraction)

/-- Digits written with one digit before the point and an explicitly signed
exponent of ten. -/
def Digits.scientific (d : Digits) : List Char :=
  let exponent := d.point - 1
  let mantissa :=
    match d.digits with
    | [] => ['0']
    | [first] => [first]
    | first :: more => first :: '.' :: more
  mantissa ++ 'e' :: (if exponent < 0 then '-' else '+') :: digitsOf exponent.natAbs

/-- The text of a number in documents: positional from `0.00001` up to sixteen
digits before the point, scientific beyond. -/
def Binary64.text (x : Binary64) : List Char :=
  let d := x.magnitude.shortest
  let unsigned :=
    if d.digits = [] || (-5 < d.point && d.point ≤ 16) then d.positional
    else d.scientific
  if x.negative then '-' :: unsigned else unsigned

/-- The text of a number that is never scientific. -/
def Binary64.plainText (x : Binary64) : List Char :=
  let unsigned := x.magnitude.shortest.positional
  if x.negative then '-' :: unsigned else unsigned

end GrammarUpgrade.Decimal
