import GrammarUpgrade.Decimal.Numeral
import GrammarUpgrade.Toml.Text

/-!
# Numbers, dates and times of the TOML notation

Digits may be separated by single underscores.  Whole numbers are written in base
ten, sixteen, eight or two and must fit a signed 64-bit word.  Other numbers are
rounded to the nearest binary floating-point number; a positive one that is too
large is refused.  Of dates and times only the notation and the ranges matter.
-/

namespace GrammarUpgrade.Toml

open GrammarUpgrade.Decimal (Magnitude isDigit digitValue valueOf digitsOf)
open GrammarUpgrade.Text (consRead hexValue?)

/-! ## Runs of digits -/

/-- The digits after the first one, without the underscores between them. -/
def readMoreDigits (accepts : Char → Bool) : List Char → Reading (List Char)
  | [] => .ok ([], [])
  | '_' :: d :: rest =>
      if accepts d then (readMoreDigits accepts rest).map (consRead d)
      else .error (.due none ["digit"] (d :: rest))
  | c :: rest =>
      if accepts c then (readMoreDigits accepts rest).map (consRead c)
      else if c = '_' then .error (.due none ["digit"] rest)
      else .ok ([], c :: rest)

/-- At least one digit. -/
def readDigits (accepts : Char → Bool) : List Char → Reading (List Char)
  | [] => .error (.due none [] [])
  | c :: rest =>
      if accepts c then (readMoreDigits accepts rest).map (consRead c)
      else .error (.due none [] (c :: rest))

/-! ## Dates and times -/

/-- What follows a character that must come next. -/
def readMark (c : Char) : List Char → Except Failure (List Char)
  | [] => .error (.due none [] [])
  | d :: rest => if c = d then .ok rest else .error (.due none [] (d :: rest))

/-- A number of exactly two digits within bounds. -/
def readPair (low high : Nat) (s : List Char) : Reading Nat :=
  match s with
  | a :: b :: rest =>
      let number := digitValue a * 10 + digitValue b
      if !(isDigit a && isDigit b) then .error (.due none [] s)
      else if low ≤ number && number ≤ high then .ok (number, rest)
      else .error ⟨.outOfRange, none, s⟩
  | _ => .error (.due none [] s)

/-- What follows the fraction of a second, if there is one. -/
def skipSecondFraction : List Char → List Char
  | '.' :: d :: rest =>
      if isDigit d then rest.dropWhile isDigit else '.' :: d :: rest
  | s => s

/-- What follows a time of day.  An hour and a colon make it one. -/
def readTime? (s : List Char) : Except Failure (Option (List Char)) :=
  match readPair 0 23 s with
  | .ok (_, ':' :: rest) => do
      let (_, afterMinute) ← readPair 0 59 rest
      let afterMark ← readMark ':' afterMinute
      let (_, afterSecond) ← readPair 0 60 afterMark
      return some (skipSecondFraction afterSecond)
  | _ => .ok none

/-- What follows the hours and minutes of an offset. -/
def readOffsetTime (s : List Char) : Except Failure (List Char) := do
  let (_, afterHour) ← readPair 0 23 s
  let afterMark ← readMark ':' afterHour
  let (_, rest) ← readPair 0 59 afterMark
  return rest

/-- What follows the offset of a time, if there is one. -/
def readOffset : List Char → Except Failure (List Char)
  | [] => .ok []
  | c :: rest =>
      if c = 'Z' || c = 'z' then .ok rest
      else if c = '+' || c = '-' then
        (readOffsetTime rest).mapError (·.within "time offset")
      else .ok (c :: rest)

/-- The number of days in a month. -/
def daysIn (year month : Nat) : Nat :=
  if month = 2 then
    if year % 4 = 0 && (year % 100 ≠ 0 || year % 400 = 0) then 29 else 28
  else if month = 4 || month = 6 || month = 9 || month = 11 then 30
  else 31

/-- What follows a date.  Four digits and a dash make it one. -/
def readDate? (s : List Char) : Except Failure (Option (List Char)) :=
  match s with
  | a :: b :: c :: d :: '-' :: rest =>
      if [a, b, c, d].all isDigit then do
        let (month, afterMonth) ← readPair 1 12 rest
        let afterMark ← readMark '-' afterMonth
        let (day, last) ← readPair 1 31 afterMark
        if daysIn (valueOf [a, b, c, d]) month < day then
          .error ⟨.outOfRange, none, afterMark⟩
        else return some last
      else .ok none
  | _ => .ok none

/-- What follows the time after a date, if there is one, with its separator and
perhaps an offset. -/
def readTimeOfDate (s : List Char) : Except Failure (List Char) :=
  match s with
  | [] => .ok s
  | c :: afterMark =>
      if c = 'T' || c = 't' || c = ' ' then do
        match ← readTime? afterMark with
        | none => return s
        | some afterTime => readOffset afterTime
      else .ok s

/-- What follows a date, with or without a time, or a time alone. -/
def readDateTime? (s : List Char) : Except Failure (Option (List Char)) := do
  match ← (readDate? s).mapError (·.within "date-time") with
  | none => (readTime? s).mapError (·.within "time")
  | some rest => return some (← (readTimeOfDate rest).mapError (·.within "date-time"))

/-! ## Numbers -/

/-- Decimal digits at this many places beyond the point, on either side, decide
nothing but between zero and infinity. -/
def maxPlaces : Int :=
  400

/-- The number `digits * 10 ^ power`, rounded. -/
def Real.ofDigits (negative : Bool) (digits : List Char) (power : Int) : Real :=
  let number := valueOf digits
  let places := (digitsOf number).length + power
  if number = 0 || places < -maxPlaces then .finite ⟨negative, .zero⟩
  else if maxPlaces < places then .infinity negative
  else
    match Magnitude.ofQuotient? (number * Nat.pow 10 power.toNat)
      (Nat.pow 10 (-power).toNat) with
    | some magnitude => .finite ⟨negative, magnitude⟩
    | none => .infinity negative

/-- An exponent after its letter. -/
def readExponent (s : List Char) : Reading Int :=
  match s with
  | '-' :: rest => (readDigits isDigit rest).map fun read => (-(valueOf read.1), read.2)
  | '+' :: rest => (readDigits isDigit rest).map fun read => (valueOf read.1, read.2)
  | rest => (readDigits isDigit rest).map fun read => (valueOf read.1, read.2)

/-- What a number with a fraction or an exponent is called. -/
def realName : String :=
  "floating-point number"

/-- An exponent, if its letter comes next. -/
def readExponent? (s : List Char) : Except Failure (Option Int × List Char) :=
  match s with
  | [] => .ok (none, [])
  | c :: rest =>
      if c = 'e' || c = 'E' then
        ((readExponent rest).mapError (·.within realName)).map fun read =>
          (some read.1, read.2)
      else .ok (none, s)

/-- The digits after a point. -/
def readFraction (s : List Char) : Reading (List Char) :=
  (readDigits isDigit s).mapError fun failure =>
    (failure.expecting "digit").within realName

/-- The whole part of a decimal number: a zero alone, or digits of which the first
is no zero. -/
def readWhole (s : List Char) : Reading (List Char) :=
  match s with
  | '0' :: rest => .ok (['0'], rest)
  | _ => (readDigits isDigit s).mapError (·.within "integer")

/-- A number as read, before it has a place. -/
inductive Number where
  | integer (value : Int)
  | real (value : Real)
  deriving DecidableEq, Repr

/-- A whole number, which must fit a signed word. -/
def integer (start : List Char) (value : Int) (rest : List Char) : Reading Number :=
  if value < -0x8000000000000000 then .error ⟨.numberTooSmall, none, start⟩
  else if 0x8000000000000000 ≤ value then .error ⟨.numberTooLarge, none, start⟩
  else .ok (.integer value, rest)

/-- A number with a fraction or an exponent, which must not be positive and too
large. -/
def real (start : List Char) (value : Real) (rest : List Char) : Reading Number :=
  if value = .infinity false then .error (.due (some realName) [] start)
  else .ok (.real value, rest)

/-- A decimal number whose sign has been read. -/
def readDecimal (start : List Char) (negative : Bool) (s : List Char) :
    Except Failure (Number × List Char) := do
  let (whole, afterWhole) ← readWhole s
  match afterWhole with
  | '.' :: afterPoint => do
      let (fraction, afterFraction) ← readFraction afterPoint
      let (exponent, rest) ← readExponent? afterFraction
      real start
        (.ofDigits negative (whole ++ fraction) (exponent.getD 0 - fraction.length)) rest
  | _ => do
      let (exponent, rest) ← readExponent? afterWhole
      match exponent with
      | some power => real start (.ofDigits negative whole power) rest
      | none =>
          let value : Int := valueOf whole
          integer start (if negative then -value else value) rest

/-- A whole number in another base than ten, which is called `what` when it is faulty,
after its two leading characters. -/
def readBased (start : List Char) (base : Nat) (what : String) (s : List Char) :
    Except Failure (Number × List Char) := do
  let accepts (c : Char) : Bool := (hexValue? c).any (· < base)
  let (digits, rest) ← (readDigits accepts s).mapError (·.within what)
  let value := digits.foldl (fun number d => number * base + (hexValue? d).getD 0) 0
  integer start value rest

/-- A decimal or special number whose sign, if it has one, has been read. -/
def readSigned (start : List Char) (negative : Bool) (s : List Char) :
    Reading Number :=
  match s with
  | 'i' :: 'n' :: 'f' :: rest => .ok (.real (.infinity negative), rest)
  | 'n' :: 'a' :: 'n' :: rest => .ok (.real .nan, rest)
  | _ => readDecimal start negative s

/-- A number, with its sign.  Only a number without one may have another base. -/
def readNumber (s : List Char) : Reading Number :=
  match s with
  | '+' :: rest => readSigned s false rest
  | '-' :: rest => readSigned s true rest
  | '0' :: 'x' :: rest => readBased s 16 "hexadecimal integer" rest
  | '0' :: 'o' :: rest => readBased s 8 "octal integer" rest
  | '0' :: 'b' :: rest => readBased s 2 "binary integer" rest
  | _ => readSigned s false s

/-- Whether a number without a sign begins here.  It may still turn out faulty. -/
def beginsUnsigned (s : List Char) : Bool :=
  s.head?.any isDigit || "inf".toList.isPrefixOf s || "nan".toList.isPrefixOf s

/-- Whether a number begins here. -/
def beginsNumber (s : List Char) : Bool :=
  match s with
  | [] => false
  | c :: rest => beginsUnsigned (if c = '+' || c = '-' then rest else s)

end GrammarUpgrade.Toml
