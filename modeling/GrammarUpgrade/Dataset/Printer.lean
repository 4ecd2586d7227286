import GrammarUpgrade.Dataset.Basic
import GrammarUpgrade.Json.Printer

/-!
# Rendering dictionaries as documents

A dictionary is rendered as an object in its own order.  An at-rule is rendered
as its prelude, its descriptors and then its further members; a missing grammar
is `null`.
-/

namespace GrammarUpgrade

open GrammarUpgrade.Json (Value)

/-- Named grammars as an object. -/
def Dictionary.toValue (grammars : Dictionary String) : Value :=
  .object (grammars.entries.map fun entry => (entry.1, .string entry.2))

/-- An at-rule as an object. -/
def AtRule.toValue (entry : AtRule) : Value :=
  .object
    (("prelude", (entry.preludeGrammar.map Value.string).getD .null) ::
      ("descriptors", (entry.descriptors.map Dictionary.toValue).getD .null) ::
      entry.extra.entries)

/-- Named at-rules as an object. -/
def AtRule.sectionValue (entries : Dictionary AtRule) : Value :=
  .object (entries.entries.map fun entry => (entry.1, entry.2.toValue))

/-- A dataset as an object with its three sections. -/
def Dataset.toValue (dataset : Dataset) : Value :=
  .object
    [("types", dataset.types.toValue), ("properties", dataset.properties.toValue),
      ("atrules", AtRule.sectionValue dataset.atRules)]

end GrammarUpgrade
