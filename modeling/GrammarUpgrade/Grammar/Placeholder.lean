import GrammarUpgrade.Grammar.Token
import GrammarUpgrade.Text.Substring

/-!
# Whole placeholders in a grammar

A grammar mentions a placeholder when one of its pieces is that placeholder,
brackets included: `<length-percentage>` does not mention `<length>`.
Replacement exchanges all mentioned pieces at once and never looks into the
inserted text.
-/

namespace GrammarUpgrade.Grammar

/-- Whether some piece of `grammar` is the placeholder `token`.  A grammar in
which the token does not occur at all is rejected before it is split. -/
def mentions (grammar token : String) : Bool :=
  Text.occursIn token.toList grammar.toList &&
    (lex grammar).any (·.isPlaceholder token.toList)

/-- What a piece becomes when the placeholder `token` is replaced. -/
def Token.replaced (token replacement : List Char) (piece : Token) : List Char :=
  if piece.isPlaceholder token then replacement else piece.chars

/-- The grammar with every placeholder `token` replaced, or nothing when the
grammar does not mention it. -/
def replace? (grammar token replacement : String) : Option String :=
  if mentions grammar token then
    some (String.ofList
      ((lex grammar).flatMap (Token.replaced token.toList replacement.toList)))
  else
    none

/-- The grammar with every placeholder `token` replaced. -/
def replace (grammar token replacement : String) : String :=
  (replace? grammar token replacement).getD grammar

/-- A grammar that does not mention the token is left as it is. -/
theorem replace_of_not_mentions {grammar token : String} (replacement : String)
    (unmentioned : mentions grammar token = false) :
    replace grammar token replacement = grammar := by
  simp [replace, replace?, unmentioned]

end GrammarUpgrade.Grammar
