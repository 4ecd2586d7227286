import GrammarUpgrade.Dataset.Basic
import GrammarUpgrade.Rule.RuleSet

/-!
# Upgrading a dataset

A definition is a candidate when its grammar mentions the token of some rule.
This is decided on the grammar as it stands in the dataset, before any rule is
applied.  The upgraded dataset holds the candidates alone, with all rules
applied, in the order of the dataset.  An at-rule is a candidate when one of its
descriptors is; it is kept whole, with the upgraded descriptors over the old ones.
-/

namespace GrammarUpgrade

/-- The upgraded grammar of a candidate. -/
def RuleSet.upgrade? (rules : RuleSet) (grammar : String) : Option String :=
  if rules.matchesGrammar grammar then some (rules.apply grammar) else none

/-- The candidates among named grammars, upgraded. -/
def Dictionary.upgrade (rules : RuleSet) (grammars : Dictionary String) :
    Dictionary String :=
  grammars.filterMap rules.upgrade?

/-- The upgraded entry of an at-rule, if one of its descriptors is a candidate. -/
def AtRule.upgrade? (rules : RuleSet) (entry : AtRule) : Option AtRule :=
  match entry.descriptors with
  | none => none
  | some descriptors =>
      let upgraded := descriptors.upgrade rules
      if upgraded.isEmpty then none
      else some { entry with descriptors := some (descriptors.overlay upgraded) }

/-- The candidates of a dataset, upgraded. -/
def Dataset.upgrade (rules : RuleSet) (dataset : Dataset) : Dataset where
  types := dataset.types.upgrade rules
  properties := dataset.properties.upgrade rules
  atRules := dataset.atRules.filterMap (AtRule.upgrade? rules)

end GrammarUpgrade
