import GrammarUpgrade.Text.Characters

/-!
# Names as they are written

A name of letters, digits, dashes and underscores is written bare.  Any other one
stands in double quotes, or in single quotes when that saves escapes, or in double
quotes with escapes.
-/

namespace GrammarUpgrade.Toml

/-- Whether a character may stand in a name without quotes. -/
def isBare (c : Char) : Bool :=
  ('A' ≤ c && c ≤ 'Z') || ('a' ≤ c && c ≤ 'z') || ('0' ≤ c && c ≤ '9') ||
    c = '-' || c = '_'

/-- Whether a character is a control. -/
def isControl (c : Char) : Bool :=
  c.toNat < 0x20 || c.toNat = 0x7F

/-- A digit in upper-case hexadecimal. -/
def upperHexDigit (n : Nat) : Char :=
  (Nat.digitChar n).toUpper

/-- A character between double quotes. -/
def escapedChar (c : Char) : List Char :=
  if c = '"' then ['\\', '"']
  else if c = '\\' then ['\\', '\\']
  else if c = '\n' then ['\\', 'n']
  else if c = '\r' then ['\\', 'r']
  else if c = '\t' then ['\\', 't']
  else if c.toNat = 0x08 then ['\\', 'b']
  else if c.toNat = 0x0C then ['\\', 'f']
  else if isControl c then
    ['\\', 'u', '0', '0', upperHexDigit (c.toNat / 16), upperHexDigit (c.toNat % 16)]
  else [c]

/-- Whether single quotes save escapes and can hold the name: they hold neither a
single quote nor a control other than the tab. -/
def prefersSingleQuotes (name : List Char) : Bool :=
  name.any (fun c => c = '"' || c = '\\') &&
    name.all fun c => c ≠ '\'' && (c = '\t' || !isControl c)

/-- A name as it is written. -/
def writtenName (name : String) : String :=
  let chars := name.toList
  if chars ≠ [] && chars.all isBare then name
  else if prefersSingleQuotes chars then "'" ++ name ++ "'"
  else "\"" ++ String.ofList (chars.flatMap escapedChar) ++ "\""

end GrammarUpgrade.Toml
