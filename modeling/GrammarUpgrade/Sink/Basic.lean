import GrammarUpgrade.Document
import GrammarUpgrade.FileTree.Error
import GrammarUpgrade.Json.Fault
import GrammarUpgrade.Log

/-!
# Sinks

A sink is where documents go.  It is made ready once and is then given rendered
documents; it answers with the path under which a document can be found, or it
fails.
-/

namespace GrammarUpgrade

/-- Why a sink failed. -/
inductive SinkError where
  | createDirectory (path : String) (cause : FileError)
  | write (path : String) (cause : FileError)
  | serialize (cause : Json.Error)
  deriving DecidableEq, Repr, Inhabited

namespace SinkError

/-- The words of the cause. -/
def causeMessage : SinkError → String
  | .createDirectory _ cause => cause.message
  | .write _ cause => cause.message
  | .serialize cause => cause.message

/-- The words for a failure of a sink. -/
def message : SinkError → String
  | .createDirectory path cause =>
      "failed to create directory " ++ path ++ ": " ++ cause.message
  | .write path cause => "io error writing " ++ path ++ ": " ++ cause.message
  | .serialize cause => "serialization failed: " ++ cause.message

end SinkError

/-- A place for documents. -/
structure Sink (m : Type → Type) where
  /-- Make the sink ready. -/
  prepare : Task m SinkError Unit
  /-- Keep a rendered document in place of an earlier version, and say where. -/
  write : Document → String → Task m SinkError String

end GrammarUpgrade
