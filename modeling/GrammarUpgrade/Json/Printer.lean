import GrammarUpgrade.Json.Text
import GrammarUpgrade.Json.Value

/-!
# Writing JSON values

The same text can be laid out in two ways: in one line without blanks, or with
each entry of a container on a line of its own, indented by two spaces for every
container around it.  Empty containers are two brackets in both.
-/

namespace GrammarUpgrade.Json

/-- The blanks of a written text. -/
structure Layout where
  /-- What stands before an entry or a closing bracket at a depth. -/
  lineBreak : Nat → List Char
  /-- What stands between a colon and the value after it. -/
  afterColon : List Char

/-- Everything in one line. -/
def Layout.compact : Layout where
  lineBreak _ := []
  afterColon := []

/-- One entry on a line. -/
def Layout.indented : Layout where
  lineBreak depth := '\n' :: List.replicate (2 * depth) ' '
  afterColon := [' ']

/-- Written entries between the brackets of a container that is `depth` deep. -/
def enclose (layout : Layout) (depth : Nat) (opening closing : Char) :
    List (List Char) → List Char
  | [] => [opening, closing]
  | first :: others =>
      opening :: layout.lineBreak (depth + 1) ++ first ++
        others.flatMap (fun entry => ',' :: layout.lineBreak (depth + 1) ++ entry) ++
        layout.lineBreak depth ++ [closing]

/-- A written member. -/
def writeMember (layout : Layout) (key : String) (value : List Char) : List Char :=
  writeText key ++ ':' :: layout.afterColon ++ value

mutual

/-- A written value that stands `depth` containers deep. -/
def Value.write (layout : Layout) (depth : Nat) : Value → List Char
  | .null => "null".toList
  | .boolean true => "true".toList
  | .boolean false => "false".toList
  | .number number => number.text
  | .string text => writeText text
  | .array items => enclose layout depth '[' ']' (writeItems layout depth items)
  | .object members =>
      enclose layout depth '\x7b' '\x7d' (writeMembers layout depth members)

/-- The written elements of an array. -/
def writeItems (layout : Layout) (depth : Nat) : List Value → List (List Char)
  | [] => []
  | item :: rest => item.write layout (depth + 1) :: writeItems layout depth rest

/-- The written members of an object. -/
def writeMembers (layout : Layout) (depth : Nat) :
    List (String × Value) → List (List Char)
  | [] => []
  | (key, value) :: rest =>
      writeMember layout key (value.write layout (depth + 1)) ::
        writeMembers layout depth rest

end

/-- A value in one line. -/
def Value.compactText (value : Value) : String :=
  String.ofList (value.write .compact 0)

/-- A value with one entry on a line, ended by a line break. -/
def Value.documentText (value : Value) : String :=
  String.ofList (value.write .indented 0 ++ ['\n'])

end GrammarUpgrade.Json
