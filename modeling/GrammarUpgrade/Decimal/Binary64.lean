/-!
# Binary floating-point numbers with 64 bits

A number is held as data: a sign and a magnitude that is a whole multiple of the
smallest positive number, `2 ^ -1074`.  Every operation is defined by rounding an
exact quotient of natural numbers to the nearest magnitude, a tie to the even
significand; a result beyond the largest magnitude is no number.
-/

namespace GrammarUpgrade.Decimal

/-- The magnitude `significand * 2 ^ scale` in units of `2 ^ -1074`.  Significands
are below `2 ^ 53`, and at least `2 ^ 52` unless the scale is zero. -/
structure Magnitude where
  significand : Nat
  scale : Nat
  deriving DecidableEq, Repr, Inhabited

namespace Magnitude

/-- The number of units of `2 ^ -1074` in a magnitude. -/
def units (m : Magnitude) : Nat :=
  m.significand * Nat.pow 2 m.scale

/-- The number of units in one. -/
def unitsPerOne : Nat :=
  Nat.pow 2 1074

/-- The largest scale of a finite number. -/
def maxScale : Nat :=
  2045

/-- The whole number nearest to a quotient, a tie to the even one. -/
def nearest (numerator denominator : Nat) : Nat :=
  let quotient := numerator / denominator
  let twice := 2 * (numerator % denominator)
  if denominator < twice || (twice = denominator && quotient % 2 = 1) then
    quotient + 1
  else
    quotient

/-- The magnitude nearest to a quotient, or nothing when it is too large. -/
def ofQuotient? (numerator denominator : Nat) : Option Magnitude :=
  let scaled := numerator * unitsPerOne
  let scale := (scaled / denominator).log2 - 52
  let significand := nearest scaled (denominator * Nat.pow 2 scale)
  let rounded : Magnitude :=
    if significand = Nat.pow 2 53 then ⟨Nat.pow 2 52, scale + 1⟩
    else ⟨significand, scale⟩
  if maxScale < rounded.scale then none else some rounded

/-- The magnitude zero. -/
def zero : Magnitude :=
  ⟨0, 0⟩

/-- The magnitude nearest to a natural number. -/
def ofNat? (n : Nat) : Option Magnitude :=
  ofQuotient? n 1

/-- The rounded product of two magnitudes. -/
def mul? (a b : Magnitude) : Option Magnitude :=
  ofQuotient? (a.units * b.units) (unitsPerOne * unitsPerOne)

/-- The rounded quotient of two magnitudes. -/
def div? (a b : Magnitude) : Option Magnitude :=
  ofQuotient? a.units b.units

end Magnitude

/-- A finite number: a magnitude with a sign, so that zero has two signs. -/
structure Binary64 where
  negative : Bool
  magnitude : Magnitude
  deriving DecidableEq, Repr, Inhabited

end GrammarUpgrade.Decimal
