import GrammarUpgrade.Text.Characters
import GrammarUpgrade.Text.Printable

/-!
# Quoted text in messages

A message shows a string between double quotes.  Quotes and backslashes are
escaped, four controls have short escapes, and every other character that leaves
no mark is shown by its code point in lower-case hexadecimal.
-/

namespace GrammarUpgrade.Text

/-- A character inside a quoted text. -/
def quotedChar (c : Char) : List Char :=
  if c = '"' then ['\\', '"']
  else if c = '\\' then ['\\', '\\']
  else if c = '\n' then ['\\', 'n']
  else if c = '\r' then ['\\', 'r']
  else if c = '\t' then ['\\', 't']
  else if c.toNat = 0 then ['\\', '0']
  else if isPrintable c then [c]
  else codePointEscape c

/-- A text between double quotes. -/
def quoted (text : String) : String :=
  String.ofList ('"' :: text.toList.flatMap quotedChar ++ ['"'])

end GrammarUpgrade.Text
