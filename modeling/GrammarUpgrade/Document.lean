/-!
# Documents

The upgraded dataset is written as three documents, one for each section.
-/

namespace GrammarUpgrade

/-- One of the generated documents. -/
inductive Document where
  | types
  | properties
  | atRules
  deriving DecidableEq, Repr, Inhabited

namespace Document

/-- The documents in the order in which they are written. -/
def all : List Document :=
  [.types, .properties, .atRules]

/-- The name of a document in messages. -/
def name : Document → String
  | .types => "types"
  | .properties => "properties"
  | .atRules => "at-rules"

/-- The file name of a document unless another one is configured. -/
def fileName (document : Document) : String :=
  document.name ++ ".json"

/-- What one entry of a document is called. -/
def label : Document → String
  | .types => "type"
  | .properties => "property"
  | .atRules => "at-rule"

end Document

end GrammarUpgrade
