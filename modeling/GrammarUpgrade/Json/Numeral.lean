import GrammarUpgrade.Json.Fault
import GrammarUpgrade.Json.Value

/-!
# Numbers of the JSON notation

A numeral is the spelling of a number: a sign, whole digits, and perhaps a
fraction and an exponent.  `Numeral.value?` gives the number that a numeral
stands for.  As many leading digits as fit a 64-bit word are taken exactly, the
others only move the decimal point, and the result is scaled by a power of ten in
binary floating-point arithmetic; only a number beyond the largest is refused.
-/

namespace GrammarUpgrade.Json

open GrammarUpgrade.Decimal (Magnitude isDigit digitValue valueOf)

/-- The spelling of a number. -/
structure Numeral where
  negative : Bool
  whole : List Char
  fraction : Option (List Char)
  /-- Whether the exponent is negative, and its digits. -/
  exponent : Option (Bool × List Char)
  deriving DecidableEq, Repr, Inhabited

/-! ## Reading the spelling -/

/-- The digits of the whole part; a zero stands alone. -/
def readWhole (cutShort : Fault) : List Char → Reading (List Char)
  | [] => .error (.atEnd cutShort)
  | c :: rest =>
      if c = '0' then
        match rest with
        | d :: after =>
            if isDigit d then .error (.peeked .invalidNumber (d :: after))
            else .ok ([c], d :: after)
        | [] => .ok ([c], [])
      else if isDigit c then
        .ok (c :: rest.takeWhile isDigit, rest.dropWhile isDigit)
      else .error (.peeked .invalidNumber (c :: rest))

/-- At least one digit. -/
def readDigits (cutShort : Fault) : List Char → Reading (List Char)
  | [] => .error (.atEnd cutShort)
  | c :: rest =>
      if isDigit c then .ok (c :: rest.takeWhile isDigit, rest.dropWhile isDigit)
      else .error (.peeked .invalidNumber (c :: rest))

/-- A point and the digits after it, if a point comes next. -/
def readFraction (cutShort : Fault) : List Char → Reading (Option (List Char))
  | '.' :: rest => (readDigits cutShort rest).map fun read => (some read.1, read.2)
  | s => .ok (none, s)

/-- An `e`, a sign and digits, if an `e` comes next. -/
def readExponent (cutShort : Fault) (s : List Char) :
    Reading (Option (Bool × List Char)) :=
  match s with
  | [] => .ok (none, [])
  | c :: rest =>
      if c = 'e' || c = 'E' then
        match rest with
        | '-' :: digits =>
            (readDigits cutShort digits).map fun read => (some (true, read.1), read.2)
        | '+' :: digits =>
            (readDigits cutShort digits).map fun read => (some (false, read.1), read.2)
        | digits =>
            (readDigits cutShort digits).map fun read => (some (false, read.1), read.2)
      else .ok (none, c :: rest)

/-- A numeral without its sign.  `cutShort` is the fault of a text that ends where
a digit is due. -/
def readNumeral (cutShort : Fault) (negative : Bool) (s : List Char) :
    Except Failure (Numeral × List Char) := do
  let (whole, afterWhole) ← readWhole cutShort s
  let (fraction, afterFraction) ← readFraction cutShort afterWhole
  let (exponent, rest) ← readExponent cutShort afterFraction
  return (⟨negative, whole, fraction, exponent⟩, rest)

/-! ## The number a numeral stands for -/

/-- Append digits to a number as long as it fits a 64-bit word; the digits from
the first that does not fit are left. -/
def absorb (number : Nat) : List Char → Nat × List Char
  | [] => (number, [])
  | d :: rest =>
      let longer := number * 10 + digitValue d
      if longer < 0x10000000000000000 then absorb longer rest else (number, d :: rest)

/-- The largest exponent that is told apart. -/
def maxExponent : Nat :=
  0x7fffffff

/-- The digits of an exponent after the first one that makes it too large, or
nothing when it is not. -/
def beyondMaxExponent? (number : Nat) : List Char → Option (List Char)
  | [] => none
  | d :: rest =>
      let longer := number * 10 + digitValue d
      if maxExponent < longer then some rest else beyondMaxExponent? longer rest

/-- The magnitude nearest to a power of ten. -/
def powerOfTen? (exponent : Nat) : Option Magnitude :=
  Magnitude.ofQuotient? (Nat.pow 10 exponent) 1

/-- The largest power of ten that is a magnitude. -/
def maxPowerOfTen : Nat :=
  308

/-- Divide a magnitude by a power of ten that is a magnitude. -/
def divideByPower? (m : Magnitude) (exponent : Nat) : Option Magnitude :=
  (powerOfTen? exponent).bind m.div?

/-- Divide a magnitude by a power of ten, in steps when the power itself is no
magnitude. -/
def scaleDown? (m : Magnitude) (exponent : Nat) : Option Magnitude :=
  if _small : exponent ≤ maxPowerOfTen then
    divideByPower? m exponent
  else if m.significand = 0 then
    some m
  else
    (divideByPower? m maxPowerOfTen).bind fun smaller =>
      scaleDown? smaller (exponent - maxPowerOfTen)
termination_by exponent
decreasing_by
  have large := _small
  unfold maxPowerOfTen at large ⊢
  omega

/-- Multiply a magnitude by a power of ten. -/
def scaleUp? (m : Magnitude) (exponent : Nat) : Option Magnitude :=
  if exponent ≤ maxPowerOfTen then
    (powerOfTen? exponent).bind m.mul?
  else if m.significand = 0 then
    some m
  else
    none

/-- The magnitude `significand * 10 ^ exponent`, rounded after the conversion and
after each scaling. -/
def scaled? (significand : Nat) (exponent : Int) : Option Magnitude := do
  let m ← Magnitude.ofNat? significand
  if exponent < 0 then scaleDown? m exponent.natAbs
  else scaleUp? m exponent.natAbs

namespace Numeral

/-- The leading digits of a numeral as a number, and the power of ten that the
digits left over and the digits of the fraction make up. -/
def significand (numeral : Numeral) : Nat × Int :=
  let (number, left) := absorb 0 numeral.whole
  match numeral.fraction with
  | none => (number, left.length)
  | some digits =>
      let (longer, unused) := absorb number digits
      (longer, (left.length : Int) - (digits.length - unused.length))

/-- The number written with a fraction or an exponent, or too long for a word. -/
def double? (numeral : Numeral) : Option Number :=
  let (number, power) := numeral.significand
  let magnitude :=
    match numeral.exponent with
    | none => scaled? number power
    | some (negative, digits) =>
        match beyondMaxExponent? 0 digits, negative with
        | some _, false => if number = 0 then some .zero else none
        | some _, true => some .zero
        | none, false => scaled? number (power + valueOf digits)
        | none, true => scaled? number (power - valueOf digits)
  magnitude.map fun m => .double ⟨numeral.negative, m⟩

/-- The number that a numeral stands for, or nothing when it is too large.  A
negative zero is no whole number. -/
def value? (numeral : Numeral) : Option Number :=
  match numeral.fraction, numeral.exponent with
  | none, none =>
      let (number, left) := absorb 0 numeral.whole
      let value : Int := if numeral.negative then -number else number
      if fits : -0x8000000000000000 ≤ value ∧ value < 0x10000000000000000 then
        if left = [] ∧ (numeral.negative → number ≠ 0) then
          some (.integer value fits)
        else numeral.double?
      else numeral.double?
  | _, _ => numeral.double?

/-- What is left unread when a numeral is found too large: the exponent is not
read beyond the digit that makes it so. -/
def unread (numeral : Numeral) : List Char :=
  match numeral.exponent with
  | some (false, digits) => (beyondMaxExponent? 0 digits).getD []
  | _ => []

end Numeral

/-- The number whose sign has been read. -/
def readNumber (negative : Bool) (s : List Char) :
    Except Failure (Number × List Char) := do
  let (numeral, rest) ← readNumeral .endOfValue negative s
  match numeral.value? with
  | some number => return (number, rest)
  | none => .error (.before .numberOutOfRange (numeral.unread ++ rest))

/-- The characters after a number whose sign has been read. -/
def skipNumber (s : List Char) : Except Failure (List Char) :=
  (readNumeral .invalidNumber false s).map Prod.snd

end GrammarUpgrade.Json
