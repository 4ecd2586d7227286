import GrammarUpgrade.Decimal.Shortest

/-!
# Values of the TOML notation

A document is a table.  Tables come about in four ways, which decide what may be
added to them later: between braces, under a header, on the way to a header, and
by a dotted key.  Keys and values remember where they stand in the text.
-/

namespace GrammarUpgrade.Toml

/-- A stretch of a text, given by the numbers of characters that are left where it
starts and where it stops. -/
structure Span where
  startLeft : Nat
  stopLeft : Nat
  deriving DecidableEq, Repr, Inhabited

/-- The stretch between two remainders of a text. -/
def Span.between (start stop : List Char) : Span :=
  ⟨start.length, stop.length⟩

/-- The stretch from the start of one stretch to the end of another. -/
def Span.through (first last : Span) : Span :=
  ⟨first.startLeft, last.stopLeft⟩

/-- A name and where it stands. -/
structure Key where
  name : String
  span : Span
  deriving DecidableEq, Repr, Inhabited

/-- A number with a fraction or an exponent, or one of the special ones. -/
inductive Real where
  | finite (value : Decimal.Binary64)
  | infinity (negative : Bool)
  | nan
  deriving DecidableEq, Repr, Inhabited

/-- The text of a number, never scientific. -/
def Real.text : Real → String
  | .finite value => String.ofList value.plainText
  | .infinity false => "inf"
  | .infinity true => "-inf"
  | .nan => "NaN"

/-- How a table came about. -/
inductive Origin where
  /-- Written between braces. -/
  | braces
  /-- Named by a header of its own. -/
  | header
  /-- Only on the way to the table of a header. -/
  | passage
  /-- By a dotted key. -/
  | dotted
  deriving DecidableEq, Repr, Inhabited

namespace Origin

/-- Whether a table exists only because of what is in it. -/
def isImplicit : Origin → Bool
  | .braces | .header => false
  | .passage | .dotted => true

end Origin

/-- A value of the notation. -/
inductive Value where
  | string (span : Span) (value : String)
  | integer (span : Span) (value : Int)
  | real (span : Span) (value : Real)
  | boolean (span : Span) (value : Bool)
  | dateTime (span : Span)
  | array (span : Span) (items : List Value)
  | table (origin : Origin) (span : Option Span) (members : List (Key × Value))
  /-- The tables of headers in double brackets. -/
  | tables (span : Option Span) (elements : List Value)
  deriving Repr, Inhabited

/-- The members of a table, in order. -/
abbrev Members := List (Key × Value)

namespace Value

/-- Where a value stands, when it stands in one place. -/
def span? : Value → Option Span
  | .string span _ => some span
  | .integer span _ => some span
  | .real span _ => some span
  | .boolean span _ => some span
  | .dateTime span => some span
  | .array span _ => some span
  | .table _ span _ => span
  | .tables span _ => span

/-- What a value is called when a key tries to reach into it. -/
def typeName : Value → String
  | .string .. => "string"
  | .integer .. => "integer"
  | .real .. => "float"
  | .boolean .. => "boolean"
  | .dateTime .. => "datetime"
  | .array .. => "array"
  | .table .braces .. => "inline table"
  | .table .. => "table"
  | .tables .. => "array of tables"

end Value

/-- The value of a name in a table. -/
def Members.find? (members : Members) (name : String) : Option Value :=
  (List.find? (fun member => member.1.name = name) members).map Prod.snd

end GrammarUpgrade.Toml
