import GrammarUpgrade.Config.Reader
import GrammarUpgrade.FileTree.Access
import GrammarUpgrade.Log

/-!
# Loading a configuration

A configuration is read from a file.
-/

namespace GrammarUpgrade

/-- Load the configuration from a file. -/
def Config.load {m : Type → Type} [Monad m] [MonadFiles m] (path : String) :
    Task m ConfigError Config := do
  let text ← (Task.ofOutcome (MonadFiles.readText path)).mapError (ConfigError.file path)
  match Config.ofText text with
  | .error failure => throw failure
  | .ok config =>
      Task.note .debug ("Loaded configuration from " ++ path)
      return config

end GrammarUpgrade
