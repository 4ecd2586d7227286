import GrammarUpgrade.Decimal.Shortest
import GrammarUpgrade.Text.Quoted

/-!
# Well-written values of the wrong shape

Datasets, rules and configurations are read from texts whose notation is
general.  When the notation is right and the value is not what the reader wants,
the complaint is the same for every notation.
-/

namespace GrammarUpgrade.Shape

/-- What was met where something else was wanted. -/
inductive Found where
  | null
  | boolean (value : Bool)
  | integer (value : Int)
  /-- A number that is no integer, with the text that shows it. -/
  | floating (text : String)
  | string (value : String)
  | sequence
  | map
  deriving DecidableEq, Repr, Inhabited

/-- The words for what was met. -/
def Found.describe : Found → String
  | .null => "null"
  | .boolean true => "boolean `true`"
  | .boolean false => "boolean `false`"
  | .integer value => "integer `" ++ toString value ++ "`"
  | .floating text => "floating point `" ++ text ++ "`"
  | .string value => "string " ++ Text.quoted value
  | .sequence => "sequence"
  | .map => "map"

/-- How a value misses the wanted shape. -/
inductive Mismatch where
  | invalidType (found : Found) (expected : String)
  | invalidLength (length : Nat) (expected : String)
  | missingField (name : String)
  | duplicateField (name : String)
  | unknownField (name : String) (expected : List String)
  deriving DecidableEq, Repr, Inhabited

/-- Names in backquotes, separated by commas. -/
def listed (names : List String) : String :=
  ", ".intercalate (names.map fun name => "`" ++ name ++ "`")

/-- The text shown for a mismatch. -/
def Mismatch.message : Mismatch → String
  | .invalidType found expected =>
      "invalid type: " ++ found.describe ++ ", expected " ++ expected
  | .invalidLength length expected =>
      "invalid length " ++ toString length ++ ", expected " ++ expected
  | .missingField name => "missing field `" ++ name ++ "`"
  | .duplicateField name => "duplicate field `" ++ name ++ "`"
  | .unknownField name expected =>
      "unknown field `" ++ name ++ "`, expected one of " ++ listed expected

end GrammarUpgrade.Shape
