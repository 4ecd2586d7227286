import GrammarUpgrade.Shape
import GrammarUpgrade.Text.Characters
import GrammarUpgrade.Toml.Name
import GrammarUpgrade.Toml.Value

/-!
# Faults of TOML texts

A fault has a cause and a stretch of the text.  The report shows the line in
which the stretch starts and marks it underneath.
-/

namespace GrammarUpgrade.Toml

open GrammarUpgrade.Text (byteLength)

/-- Why a text is refused. -/
inductive Fault where
  /-- Something else was due. -/
  | expected (choices : List String)
  | duplicateKey (name : String) (table : Option (List String))
  /-- A header names what is there already. -/
  | duplicateTable (name : String) (table : List String)
  /-- A key reaches into a value that is no table. -/
  | extendsValue (names : List String) (actual : String)
  | outOfRange
  /-- A whole number does not fit a signed word. -/
  | numberTooLarge
  | numberTooSmall
  | recursionLimit
  /-- The text is right and a value has the wrong shape. -/
  | mismatch (shape : Shape.Mismatch)
  deriving DecidableEq, Repr, Inhabited

/-- The words for a table with these names on the way to it. -/
def tableWords : List String → String
  | [] => "document root"
  | names => "table `" ++ ".".intercalate names ++ "`"

/-- The words for a fault.  A name from a header is shown as it is written. -/
def Fault.message : Fault → String
  | .expected [] => ""
  | .expected choices => "expected " ++ ", ".intercalate choices
  | .duplicateKey name none => "duplicate key `" ++ name ++ "`"
  | .duplicateKey name (some table) =>
      "duplicate key `" ++ name ++ "` in " ++ tableWords table
  | .duplicateTable name table =>
      "duplicate key `" ++ writtenName name ++ "` in " ++ tableWords table
  | .extendsValue names actual =>
      "dotted key `" ++ ".".intercalate names ++
        "` attempted to extend non-table type (" ++ actual ++ ")"
  | .outOfRange => "value is out of range"
  | .numberTooLarge => "number too large to fit in target type"
  | .numberTooSmall => "number too small to fit in target type"
  | .recursionLimit => "recursion limit exceeded"
  | .mismatch shape => shape.message

/-- A fault met while reading: its cause, what was being read, and the characters
that were left. -/
structure Failure where
  fault : Fault
  reading : Option String
  rest : List Char
  deriving DecidableEq, Repr, Inhabited

/-- The outcome of reading something: its value and the characters after it. -/
abbrev Reading (α : Type) :=
  Except Failure (α × List Char)

/-- A fault at the next character. -/
def Failure.due (reading : Option String) (choices : List String)
    (rest : List Char) : Failure :=
  ⟨.expected choices, reading, rest⟩

/-- The fault met while reading something.  What was being read inside of that is
the better name for it and stays. -/
def Failure.within (what : String) (failure : Failure) : Failure :=
  { failure with reading := some (failure.reading.getD what) }

/-- The fault with something else that would also have been right. -/
def Failure.expecting (choice : String) (failure : Failure) : Failure :=
  match failure.fault with
  | .expected choices => { failure with fault := .expected (choices ++ [choice]) }
  | _ => failure

/-- A reported fault. -/
structure Error where
  fault : Fault
  reading : Option String
  /-- Where the fault is, when it is in one place. -/
  span : Option Span
  /-- The text that was read. -/
  text : String
  deriving DecidableEq, Repr, Inhabited

namespace Error

/-- The words for a reported fault. -/
def message (error : Error) : String :=
  match error.reading with
  | none => error.fault.message
  | some what =>
      match error.fault.message with
      | "" => "invalid " ++ what
      | words => "invalid " ++ what ++ "\n" ++ words

/-- The line in which the character after `before` stands: its number from zero,
what stands in it before the character, and its whole text. -/
def lineAround (before after : List Char) : Nat × List Char × List Char :=
  let start := (before.reverse.takeWhile (· ≠ '\n')).reverse
  (before.count '\n', start, start ++ after.takeWhile (· ≠ '\n'))

/-- The line number, the column and the line of a place.  Past the end of the text
the place counts as one column after the last character.  The column counts
characters, or bytes when a character of more than one byte stands there. -/
def locate (text : List Char) (offset : Nat) : Nat × Nat × List Char :=
  let place := if offset = text.length then offset - 1 else offset
  let beyond := offset - place
  let before := text.take place
  let after := text.drop place
  let (line, start, content) := lineAround before after
  let column :=
    if beyond = 0 && (after.head?.map fun c => decide (1 < c.utf8Size)).getD false then
      byteLength start
    else start.length
  (line, column + beyond, content)

/-- The report of a fault with the line in which it is. -/
def report (error : Error) : String :=
  match error.span with
  | none => error.message ++ "\n"
  | some span =>
      let text := error.text.toList
      let (line, column, content) := locate text (text.length - span.startLeft)
      let lineNumber := toString (line + 1)
      let marked := byteLength
        ((text.drop (text.length - span.startLeft)).take (span.startLeft - span.stopLeft))
      let marks := max 1 (min marked (byteLength content - column))
      let gutter := String.ofList (List.replicate (lineNumber.length + 1) ' ')
      "TOML parse error at line " ++ lineNumber ++ ", column " ++
        toString (column + 1) ++ "\n" ++
        gutter ++ "|\n" ++
        lineNumber ++ " | " ++ String.ofList content ++ "\n" ++
        gutter ++ "|" ++ String.ofList (List.replicate (column + 1) ' ') ++
        String.ofList (List.replicate marks '^') ++ "\n" ++
        error.message ++ "\n"

end Error

/-- The report of a fault met while reading `text`. -/
def Failure.toError (text : String) (failure : Failure) : Error where
  fault := failure.fault
  reading := failure.reading
  span := some ⟨failure.rest.length, failure.rest.length - 1⟩
  text := text

end GrammarUpgrade.Toml
