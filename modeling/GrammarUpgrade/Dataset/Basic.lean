import GrammarUpgrade.Dictionary
import GrammarUpgrade.Json.Value

/-!
# Grammar datasets

A dataset holds the grammars of value types, of properties and of at-rules, each
section in the order of its source.  An at-rule has a grammar for its prelude and
grammars for its descriptors, either of which may be missing; whatever else its
source says about it is kept beside them.
-/

namespace GrammarUpgrade

/-- The grammars of an at-rule such as `font-face`. -/
structure AtRule where
  /-- The grammar between the name and the block. -/
  preludeGrammar : Option String
  /-- The grammars of the descriptors in the block. -/
  descriptors : Option (Dictionary String)
  /-- Further members of the entry, as they were read. -/
  extra : Dictionary Json.Value
  deriving Inhabited

/-- The grammars that a linter knows. -/
structure Dataset where
  types : Dictionary String
  properties : Dictionary String
  atRules : Dictionary AtRule
  deriving Inhabited

namespace Dataset

/-- The number of definitions in all sections. -/
def size (dataset : Dataset) : Nat :=
  dataset.types.size + dataset.properties.size + dataset.atRules.size

/-- Whether there are no definitions. -/
def isEmpty (dataset : Dataset) : Bool :=
  dataset.size = 0

end Dataset

end GrammarUpgrade
