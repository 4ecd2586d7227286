import GrammarUpgrade.Destination
import GrammarUpgrade.FileTree.Access
import GrammarUpgrade.Sink.Basic

/-!
# Writing documents to a directory

The sink of the program: it creates the directory of a destination and writes
each document to its path.
-/

namespace GrammarUpgrade.Sink

variable {m : Type → Type} [Monad m] [MonadFiles m]

/-- The sink that writes to a destination. -/
def directory (destination : Destination) : Sink m where
  prepare := do
    (Task.ofOutcome (MonadFiles.createDirectories destination.directory)).mapError
      (SinkError.createDirectory destination.directory)
    Task.note .debug ("Output directory ready: " ++ destination.directory)
  write document contents := do
    let path := destination.path document
    (Task.ofOutcome (MonadFiles.writeText path contents)).mapError
      (SinkError.write path)
    return path

end GrammarUpgrade.Sink
