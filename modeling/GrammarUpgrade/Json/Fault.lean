import GrammarUpgrade.Shape

/-!
# Faults of JSON texts

A text is read from the left and the first fault decides.  A fault is a cause
together with the place where reading stopped, given by the characters that were
left; line and column are computed from it only when the fault is reported.
-/

namespace GrammarUpgrade.Json

/-- Why a text is refused. -/
inductive Fault where
  | endOfList
  | endOfObject
  | endOfString
  | endOfValue
  | expectedColon
  | expectedListCommaOrEnd
  | expectedObjectCommaOrEnd
  | expectedIdent
  | expectedValue
  | invalidEscape
  | invalidNumber
  | numberOutOfRange
  | controlCharacter
  | keyMustBeString
  | loneSurrogate
  | trailingComma
  | trailingCharacters
  | unexpectedEndOfHexEscape
  | recursionLimit
  /-- The text is right and the value has the wrong shape. -/
  | mismatch (shape : Shape.Mismatch)
  /-- A complaint in the words of the caller. -/
  | complaint (text : String)
  deriving DecidableEq, Repr, Inhabited

/-- The three ways in which a text can be refused. -/
inductive Category where
  | data
  | truncated
  | malformed
  deriving DecidableEq, Repr, Inhabited

namespace Fault

/-- A fault lies in the shape of a value, in the end of the text or in the
notation. -/
def category : Fault → Category
  | .mismatch _ | .complaint _ => .data
  | .endOfList | .endOfObject | .endOfString | .endOfValue => .truncated
  | _ => .malformed

/-- The words for a fault. -/
def message : Fault → String
  | .endOfList => "EOF while parsing a list"
  | .endOfObject => "EOF while parsing an object"
  | .endOfString => "EOF while parsing a string"
  | .endOfValue => "EOF while parsing a value"
  | .expectedColon => "expected `:`"
  | .expectedListCommaOrEnd => "expected `,` or `]`"
  | .expectedObjectCommaOrEnd => "expected `,` or `\x7d`"
  | .expectedIdent => "expected ident"
  | .expectedValue => "expected value"
  | .invalidEscape => "invalid escape"
  | .invalidNumber => "invalid number"
  | .numberOutOfRange => "number out of range"
  | .controlCharacter =>
      "control character (\\u0000-\\u001F) found while parsing a string"
  | .keyMustBeString => "key must be a string"
  | .loneSurrogate => "lone leading surrogate in hex escape"
  | .trailingComma => "trailing comma"
  | .trailingCharacters => "trailing characters"
  | .unexpectedEndOfHexEscape => "unexpected end of hex escape"
  | .recursionLimit => "recursion limit exceeded"
  | .mismatch shape => shape.message
  | .complaint text => text

end Fault

/-- A place in a text: lines count from one, columns in bytes. -/
structure Position where
  line : Nat
  column : Nat
  deriving DecidableEq, Repr, Inhabited

/-- The place after the given bytes. -/
def Position.after (bytes : List UInt8) : Position where
  line := bytes.count 10 + 1
  column := (bytes.reverse.takeWhile (· ≠ 10)).length

/-- A reported fault, with its place when it has one. -/
structure Error where
  fault : Fault
  position : Option Position
  deriving DecidableEq, Repr, Inhabited

namespace Error

/-- The text of a reported fault. -/
def message (error : Error) : String :=
  match error.position with
  | none => error.fault.message
  | some position =>
      error.fault.message ++ " at line " ++ toString position.line ++ " column " ++
        toString position.column

end Error

/-- A fault met while reading: its cause, the characters that were left, and how
many bytes of them belong to the fault. -/
structure Failure where
  fault : Fault
  rest : List Char
  ahead : Nat
  deriving DecidableEq, Repr, Inhabited

/-- A fault at the next character. -/
def Failure.peeked (fault : Fault) (rest : List Char) : Failure :=
  ⟨fault, rest, 1⟩

/-- A fault before the next character. -/
def Failure.before (fault : Fault) (rest : List Char) : Failure :=
  ⟨fault, rest, 0⟩

/-- A fault at the end of the text. -/
def Failure.atEnd (fault : Fault) : Failure :=
  ⟨fault, [], 0⟩

/-- The report of a fault met while reading `text`. -/
def Failure.report (text : String) (failure : Failure) : Error where
  fault := failure.fault
  position :=
    let bytes := text.toUTF8.toList
    let left := (String.ofList failure.rest).utf8ByteSize
    some (.after (bytes.take (bytes.length - left + failure.ahead)))

/-- The outcome of reading something: its value and the characters after it. -/
abbrev Reading (α : Type) :=
  Except Failure (α × List Char)

end GrammarUpgrade.Json
