import GrammarUpgrade.Json.Members
import GrammarUpgrade.Json.Numeral

/-!
# Skipping JSON values

A value under a key that nobody asks for is checked for its notation and thrown
away.  Numbers may then be of any size, escaped halves of code points may stand
alone, and containers may be nested without limit: the containers that are open
are a list, and the value is over when the list is used up.
-/

namespace GrammarUpgrade.Json

open GrammarUpgrade.Decimal (isDigit)

/-- A container that is open while a value is skipped. -/
inductive Frame where
  | list
  | object
  deriving DecidableEq, Repr

namespace Frame

/-- The fault of a text that ends inside a container. -/
def endFault : Frame → Fault
  | .list => .endOfList
  | .object => .endOfObject

/-- The fault of an entry that is followed by neither a comma nor the end. -/
def separatorFault : Frame → Fault
  | .list => .expectedListCommaOrEnd
  | .object => .expectedObjectCommaOrEnd

/-- The bracket that closes a container. -/
def bracket : Frame → Char
  | .list => ']'
  | .object => '\x7d'

end Frame

/-- Go to the next value inside the open containers, closing those that end here.
`afterEntry` says whether an entry of the innermost one has just been read.  The
result is the containers still open and the text from the next entry on; no
container is left when the value is over. -/
def leaveContainers : List Frame → Bool → List Char →
    Except Failure (List Frame × List Char)
  | [], _, s => .ok ([], s)
  | frame :: outer, afterEntry, s =>
      match skipBlanks s with
      | [] => .error (.atEnd frame.endFault)
      | c :: rest =>
          if c = ',' && afterEntry then .ok (frame :: outer, rest)
          else if c = frame.bracket then leaveContainers outer true rest
          else if afterEntry then .error (.peeked frame.separatorFault (c :: rest))
          else .ok (frame :: outer, c :: rest)

/-- Skip the key of an entry when the innermost container is an object. -/
def skipKey (frame : Frame) (s : List Char) : Except Failure (List Char) :=
  match frame with
  | .list => .ok s
  | .object =>
      match skipBlanks s with
      | [] => .error (.atEnd .endOfObject)
      | c :: rest =>
          if c = '"' then (skipText rest).bind readColon
          else .error (.peeked .keyMustBeString (c :: rest))

/-- Skip a value without parts, or the opening bracket of a container. -/
def skipScalar (s : List Char) : Except Failure (Option Frame × List Char) :=
  match skipBlanks s with
  | [] => .error (.atEnd .endOfValue)
  | c :: rest =>
      if c = 'n' then (readWord "ull".toList rest).map (none, ·)
      else if c = 't' then (readWord "rue".toList rest).map (none, ·)
      else if c = 'f' then (readWord "alse".toList rest).map (none, ·)
      else if c = '-' then (skipNumber rest).map (none, ·)
      else if isDigit c then (skipNumber (c :: rest)).map (none, ·)
      else if c = '"' then (skipText rest).map (none, ·)
      else if c = '[' then .ok (some .list, rest)
      else if c = '\x7b' then .ok (some .object, rest)
      else .error (.peeked .expectedValue (c :: rest))

/-- Skip at most `count` values and opening brackets, the open containers being
`frames`.  Each of them uses up a character. -/
def skipUpTo : Nat → List Frame → List Char → Except Failure (List Char)
  | 0, _, _ => .error (.atEnd .endOfValue)
  | count + 1, frames, s =>
      match skipScalar s with
      | .error failure => .error failure
      | .ok (opened, afterScalar) =>
          match leaveContainers (opened.toList ++ frames) opened.isNone afterScalar with
          | .error failure => .error failure
          | .ok ([], rest) => .ok rest
          | .ok (frame :: outer, rest) =>
              match skipKey frame rest with
              | .error failure => .error failure
              | .ok afterKey => skipUpTo count (frame :: outer) afterKey

/-- Skip one value. -/
def skipValue (s : List Char) : Except Failure (List Char) :=
  skipUpTo (s.length + 1) [] s

end GrammarUpgrade.Json
