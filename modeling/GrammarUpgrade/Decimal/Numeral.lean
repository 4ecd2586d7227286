/-!
# Decimal numerals

Digits of natural numbers, read and written.
-/

namespace GrammarUpgrade.Decimal

/-- Whether a character is a decimal digit. -/
def isDigit (c : Char) : Bool :=
  '0' ≤ c && c ≤ '9'

/-- The value of a decimal digit. -/
def digitValue (c : Char) : Nat :=
  c.toNat - '0'.toNat

/-- The number written by decimal digits. -/
def valueOf (digits : List Char) : Nat :=
  digits.foldl (fun number d => number * 10 + digitValue d) 0

/-- The decimal digits of a natural number, none leading. -/
def digitsOf (n : Nat) : List Char :=
  Nat.toDigits 10 n

end GrammarUpgrade.Decimal
