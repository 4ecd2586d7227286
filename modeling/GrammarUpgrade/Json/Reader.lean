import GrammarUpgrade.Dictionary
import GrammarUpgrade.Json.Members
import GrammarUpgrade.Json.Numeral

/-!
# Reading JSON values

`readValue` reads a value of any kind and keeps it.  A member whose key has been
seen replaces the earlier value and keeps its place.  Containers may be nested
only so deep; the depth left is what the reader recurs on.  `refuse` is the fault
of a value that is not of the wanted kind.
-/

namespace GrammarUpgrade.Json

open GrammarUpgrade.Decimal (isDigit)
open GrammarUpgrade.Shape (Found Mismatch)

/-- The number of containers that may be open at the same time. -/
def maxDepth : Nat :=
  127

/-- The number that starts with a given character. -/
def readNumberFrom (c : Char) (rest : List Char) : Reading Number :=
  if c = '-' then readNumber true rest else readNumber false (c :: rest)

/-- Read one value, with at most `depth` containers open. -/
def readValue (depth : Nat) (s : List Char) : Reading Value :=
  match skipBlanks s with
  | [] => .error (.atEnd .endOfValue)
  | c :: rest =>
      if c = 'n' then (readWord "ull".toList rest).map (.null, ·)
      else if c = 't' then (readWord "rue".toList rest).map (.boolean true, ·)
      else if c = 'f' then (readWord "alse".toList rest).map (.boolean false, ·)
      else if c = '-' || isDigit c then
        (readNumberFrom c rest).map fun read => (.number read.1, read.2)
      else if c = '"' then
        (readText rest).map fun read => (.string read.1, read.2)
      else if c = '[' then
        match depth with
        | 0 => .error (.peeked .recursionLimit (c :: rest))
        | depth + 1 =>
            (readElements (readValue depth) rest).map fun read =>
              (.array read.1, read.2)
      else if c = '\x7b' then
        match depth with
        | 0 => .error (.peeked .recursionLimit (c :: rest))
        | depth + 1 =>
            let member (members : List (String × Value)) (key : String)
                (afterKey : List Char) : Reading (List (String × Value)) :=
              match readColon afterKey with
              | .error failure => .error failure
              | .ok afterColon =>
                  (readValue depth afterColon).map fun read =>
                    (Dictionary.put key read.1 members, read.2)
            (readMembers member [] rest).map fun read => (.object read.1, read.2)
      else .error (.peeked .expectedValue (c :: rest))

/-- What a number is called when it is not wanted. -/
def Number.found : Number → Found
  | .integer value _ => .integer value
  | .double value => .floating (String.ofList value.text)

/-- The fault of a value that starts here and is not what was expected.  A value
without parts is read to the end first, and its own faults count. -/
def refuse (expected : String) (s : List Char) : Failure :=
  let mismatch (found : Found) (rest : List Char) : Failure :=
    .before (.mismatch (.invalidType found expected)) rest
  let word (letters : String) (found : Found) (rest : List Char) : Failure :=
    match readWord letters.toList rest with
    | .error failure => failure
    | .ok after => mismatch found after
  match s with
  | [] => .atEnd .endOfValue
  | c :: rest =>
      if c = 'n' then word "ull" .null rest
      else if c = 't' then word "rue" (.boolean true) rest
      else if c = 'f' then word "alse" (.boolean false) rest
      else if c = '-' || isDigit c then
        match readNumberFrom c rest with
        | .error failure => failure
        | .ok (number, after) => mismatch number.found after
      else if c = '"' then
        match readText rest with
        | .error failure => failure
        | .ok (text, after) => mismatch (.string text) after
      else if c = '[' then mismatch .sequence (c :: rest)
      else if c = '\x7b' then mismatch .map (c :: rest)
      else .peeked .expectedValue (c :: rest)

/-- Read a string and nothing else. -/
def readStringValue (s : List Char) : Reading String :=
  match skipBlanks s with
  | [] => .error (.atEnd .endOfValue)
  | c :: rest =>
      if c = '"' then readText rest else .error (refuse "a string" (c :: rest))

/-- Read `null` as nothing and anything else with the given reader. -/
def readNullable {α : Type} (present : List Char → Reading α) (s : List Char) :
    Reading (Option α) :=
  match skipBlanks s with
  | [] => (present []).map fun read => (some read.1, read.2)
  | c :: rest =>
      if c = 'n' then (readWord "ull".toList rest).map (none, ·)
      else (present (c :: rest)).map fun read => (some read.1, read.2)

/-- Read an object with the given reader of members; anything else is refused. -/
def readObject {σ : Type} (expected : String)
    (member : σ → String → List Char → Reading σ) (start : σ) (s : List Char) :
    Reading σ :=
  match skipBlanks s with
  | [] => .error (.atEnd .endOfValue)
  | c :: rest =>
      if c = '\x7b' then readMembers member start rest
      else .error (refuse expected (c :: rest))

/-- Read a whole text that holds one thing. -/
def readDocument {α : Type} (reader : List Char → Reading α) (text : String) :
    Except Error α :=
  match reader text.toList with
  | .error failure => .error (failure.report text)
  | .ok (value, rest) =>
      match skipBlanks rest with
      | [] => .ok value
      | c :: after =>
          .error ((Failure.peeked .trailingCharacters (c :: after)).report text)

end GrammarUpgrade.Json
