import GrammarUpgrade.Document
import GrammarUpgrade.FileTree.Path

/-!
# Where documents are written

A destination is a directory and a file name for each document.  File names are
seen from the directory.
-/

namespace GrammarUpgrade

/-- A directory and the file names of the documents. -/
structure Destination where
  directory : String
  types : String
  properties : String
  atRules : String
  deriving DecidableEq, Repr

namespace Destination

/-- The usual file names in a directory. -/
def inDirectory (directory : String) : Destination where
  directory
  types := Document.types.fileName
  properties := Document.properties.fileName
  atRules := Document.atRules.fileName

/-- The usual destination. -/
def standard : Destination :=
  inDirectory "syntax"

instance : Inhabited Destination := ⟨standard⟩

/-- The file name of a document. -/
def fileName (destination : Destination) : Document → String
  | .types => destination.types
  | .properties => destination.properties
  | .atRules => destination.atRules

/-- The path of a document. -/
def path (destination : Destination) (document : Document) : String :=
  Path.join destination.directory (destination.fileName document)

end Destination

end GrammarUpgrade
