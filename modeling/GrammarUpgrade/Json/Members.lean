import GrammarUpgrade.Json.Text

/-!
# Blanks, words and the frames of containers

The parts of the notation that do not depend on what is read: blanks between the
pieces, the words `null`, `true` and `false`, and the brackets, commas and colons
of arrays and objects.  `readElements` and `readMembers` read a container whose
opening bracket has been read, with a reader for what stands inside.
-/

namespace GrammarUpgrade.Json

/-- Whether a character may stand between the pieces of a text. -/
def isBlank (c : Char) : Bool :=
  c = ' ' || c = '\n' || c = '\t' || c = '\r'

/-- The characters from the next piece on. -/
def skipBlanks (s : List Char) : List Char :=
  s.dropWhile isBlank

/-- The characters after a word. -/
def readWord : List Char → List Char → Except Failure (List Char)
  | [], s => .ok s
  | _ :: _, [] => .error (.atEnd .endOfValue)
  | c :: word, d :: rest =>
      if c = d then readWord word rest
      else .error (.peeked .expectedIdent (d :: rest))

/-- What comes next inside a container. -/
inductive Step where
  /-- The closing bracket has been read. -/
  | closed (rest : List Char)
  /-- Another entry starts here; of a member its opening quote has been read. -/
  | entry (rest : List Char)
  deriving DecidableEq, Repr

/-- Find the next element of an array or its end. -/
def nextElement (isFirst : Bool) (s : List Char) : Except Failure Step :=
  match skipBlanks s with
  | [] => .error (.atEnd .endOfList)
  | c :: rest =>
      if c = ']' then .ok (.closed rest)
      else if isFirst then .ok (.entry (c :: rest))
      else if c = ',' then
        match skipBlanks rest with
        | [] => .error (.atEnd .endOfValue)
        | d :: after =>
            if d = ']' then .error (.peeked .trailingComma (d :: after))
            else .ok (.entry (d :: after))
      else .error (.peeked .expectedListCommaOrEnd (c :: rest))

/-- Find the next member of an object or its end. -/
def nextMember (isFirst : Bool) (s : List Char) : Except Failure Step :=
  match skipBlanks s with
  | [] => .error (.atEnd .endOfObject)
  | c :: rest =>
      if c = '\x7d' then .ok (.closed rest)
      else if isFirst then
        if c = '"' then .ok (.entry rest)
        else .error (.peeked .keyMustBeString (c :: rest))
      else if c = ',' then
        match skipBlanks rest with
        | [] => .error (.atEnd .endOfValue)
        | d :: after =>
            if d = '"' then .ok (.entry after)
            else if d = '\x7d' then .error (.peeked .trailingComma (d :: after))
            else .error (.peeked .keyMustBeString (d :: after))
      else .error (.peeked .expectedObjectCommaOrEnd (c :: rest))

/-- The end of an array that has all its elements. -/
def readListEnd (s : List Char) : Except Failure (List Char) :=
  match skipBlanks s with
  | [] => .error (.atEnd .endOfList)
  | c :: rest =>
      if c = ']' then .ok rest
      else if c = ',' then
        match skipBlanks rest with
        | d :: after =>
            if d = ']' then .error (.peeked .trailingComma (d :: after))
            else .error (.peeked .trailingCharacters (d :: after))
        | [] => .error (.atEnd .trailingCharacters)
      else .error (.peeked .trailingCharacters (c :: rest))

/-- The characters after the colon of a member. -/
def readColon (s : List Char) : Except Failure (List Char) :=
  match skipBlanks s with
  | [] => .error (.atEnd .endOfObject)
  | c :: rest =>
      if c = ':' then .ok rest
      else .error (.peeked .expectedColon (c :: rest))

/-- Read at most `count` characters' worth of elements: every element uses up a
character, so the length of the text is always enough. -/
def readElementsUpTo {α : Type} (element : List Char → Reading α) :
    Nat → Bool → List Char → Reading (List α)
  | 0, _, _ => .error (.atEnd .endOfList)
  | count + 1, isFirst, s =>
      match nextElement isFirst s with
      | .error failure => .error failure
      | .ok (.closed rest) => .ok ([], rest)
      | .ok (.entry rest) =>
          match element rest with
          | .error failure => .error failure
          | .ok (first, after) =>
              match readElementsUpTo element count false after with
              | .error failure => .error failure
              | .ok (others, last) => .ok (first :: others, last)

/-- The elements of an array whose opening bracket has been read. -/
def readElements {α : Type} (element : List Char → Reading α) (s : List Char) :
    Reading (List α) :=
  readElementsUpTo element s.length true s

/-- Read at most `count` characters' worth of members.  The reader of a member is
given what the members before it made, its key, and the text from the colon on. -/
def readMembersUpTo {σ : Type} (member : σ → String → List Char → Reading σ) :
    Nat → Bool → σ → List Char → Reading σ
  | 0, _, _, _ => .error (.atEnd .endOfObject)
  | count + 1, isFirst, state, s =>
      match nextMember isFirst s with
      | .error failure => .error failure
      | .ok (.closed rest) => .ok (state, rest)
      | .ok (.entry rest) =>
          match readText rest with
          | .error failure => .error failure
          | .ok (key, afterKey) =>
              match member state key afterKey with
              | .error failure => .error failure
              | .ok (next, after) => readMembersUpTo member count false next after

/-- The members of an object whose opening bracket has been read. -/
def readMembers {σ : Type} (member : σ → String → List Char → Reading σ)
    (start : σ) (s : List Char) : Reading σ :=
  readMembersUpTo member s.length true start s

/-- The place at which a fault of a whole container is reported: after its
closing bracket if that comes next. -/
def afterClosing (bracket : Char) (s : List Char) : List Char :=
  match skipBlanks s with
  | [] => []
  | c :: rest => if c = bracket then rest else c :: rest

/-- The fault of an object in which a key with a meaning is repeated.  The text
is what follows the key. -/
def repeatedKey (key : String) (afterKey : List Char) : Failure :=
  .before (.mismatch (.duplicateField key)) (afterClosing '\x7d' afterKey)

/-- Read the value of a member whose key has been read. -/
def readMemberValue {α : Type} (reader : List Char → Reading α)
    (afterKey : List Char) : Reading α :=
  match readColon afterKey with
  | .error failure => .error failure
  | .ok afterColon => reader afterColon

end GrammarUpgrade.Json
