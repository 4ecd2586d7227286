import GrammarUpgrade.Decimal.Shortest

/-!
# Values of the JSON notation

A value keeps what its text says: objects keep the order of their members, and
whole numbers that fit a 64-bit word, signed or not, stay whole numbers.  All
other numbers are binary floating-point numbers.
-/

namespace GrammarUpgrade.Json

/-- A number of the notation. -/
inductive Number where
  /-- A whole number from `-2 ^ 63` to `2 ^ 64 - 1`. -/
  | integer (value : Int)
      (fits : -0x8000000000000000 ≤ value ∧ value < 0x10000000000000000)
  | double (value : Decimal.Binary64)
  deriving DecidableEq, Repr

/-- A value of the notation. -/
inductive Value where
  | null
  | boolean (value : Bool)
  | number (value : Number)
  | string (value : String)
  | array (items : List Value)
  | object (members : List (String × Value))
  deriving Repr, Inhabited

/-- The digits of a number as they stand in a document. -/
def Number.text : Number → List Char
  | .integer value _ =>
      if value < 0 then '-' :: Decimal.digitsOf value.natAbs
      else Decimal.digitsOf value.natAbs
  | .double value => value.text

end GrammarUpgrade.Json
