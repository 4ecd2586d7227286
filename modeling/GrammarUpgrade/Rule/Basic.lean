import GrammarUpgrade.Grammar.Placeholder
import GrammarUpgrade.Text.Blank

/-!
# Replacement rules

A rule names a placeholder and the grammar fragment that takes its place.  The
placeholder must be a single pair of angle brackets around a body that is not
blank, and the fragment must not be empty.
-/

namespace GrammarUpgrade

/-- Substitute `replacement` for the placeholder `token`. -/
structure Rule where
  token : String
  replacement : String
  deriving DecidableEq, Repr, Inhabited

/-- Why a rule or a list of rules is refused. -/
inductive RuleError where
  | noRules
  | tokenShape (token : String)
  | emptyFragment (token : String)
  | repeatedToken (token : String)
  deriving DecidableEq, Repr, Inhabited

namespace RuleError

/-- The text shown for a refused rule. -/
def message : RuleError → String
  | .noRules => "replacement rule set is empty"
  | .tokenShape token =>
      "malformed token '" ++ token ++ "': expected a single '<name>' placeholder"
  | .emptyFragment token => "empty replacement for token '" ++ token ++ "'"
  | .repeatedToken token =>
      "duplicate token '" ++ token ++ "' in replacement rule set"

/-- The token of the refused rule, when there is one. -/
def token? : RuleError → Option String
  | .noRules => none
  | .tokenShape token => some token
  | .emptyFragment token => some token
  | .repeatedToken token => some token

end RuleError

namespace Rule

/-- A token names a placeholder when it is a `<`, a body without angle brackets
that is not blank, and a `>`. -/
def namesPlaceholder (token : String) : Bool :=
  match token.toList with
  | '<' :: rest =>
      rest.getLast? = some '>' &&
        rest.dropLast.all (!Grammar.isBracket ·) &&
        rest.dropLast.any (!Text.isBlank ·)
  | _ => false

/-- What is wrong with a rule by itself: its token first, then its fragment. -/
def fault? (rule : Rule) : Option RuleError :=
  if !namesPlaceholder rule.token then
    some (.tokenShape rule.token)
  else if rule.replacement = "" then
    some (.emptyFragment rule.token)
  else
    none

/-- A rule that can stand in a rule set. -/
def Valid (rule : Rule) : Prop :=
  namesPlaceholder rule.token = true ∧ rule.replacement ≠ ""

instance (rule : Rule) : Decidable rule.Valid :=
  inferInstanceAs (Decidable (_ ∧ _))

/-- A rule has no fault exactly when it is valid. -/
theorem fault?_eq_none_iff {rule : Rule} : rule.fault? = none ↔ rule.Valid := by
  unfold fault? Valid
  by_cases named : namesPlaceholder rule.token = true
  · by_cases empty : rule.replacement = "" <;> simp [named, empty]
  · simp [named]

/-- Whether a grammar mentions the token of a rule. -/
def matchesGrammar (rule : Rule) (grammar : String) : Bool :=
  Grammar.mentions grammar rule.token

/-- A grammar with the rule's token replaced wherever it is mentioned. -/
def apply (rule : Rule) (grammar : String) : String :=
  Grammar.replace grammar rule.token rule.replacement

/-- A rule leaves a grammar alone that does not mention its token. -/
theorem apply_of_not_matchesGrammar {rule : Rule} {grammar : String}
    (unmentioned : rule.matchesGrammar grammar = false) :
    rule.apply grammar = grammar :=
  Grammar.replace_of_not_mentions rule.replacement unmentioned

end Rule

end GrammarUpgrade
