import GrammarUpgrade.FileTree.Path
import GrammarUpgrade.Sink.Basic

/-!
# Keeping documents in memory

Sinks for trying the generator out: one remembers everything that it is given,
the other does the same except for one document, which it refuses.
-/

namespace GrammarUpgrade

/-- What a sink in memory remembers. -/
structure Recording where
  /-- How often the sink was made ready. -/
  preparations : Nat
  /-- The documents written, in order. -/
  writes : List (Document × String)
  deriving DecidableEq, Repr

namespace Recording

/-- Nothing remembered yet. -/
def empty : Recording :=
  ⟨0, []⟩

instance : Inhabited Recording := ⟨empty⟩

/-- The contents of a document that were written last. -/
def contents? (recording : Recording) (document : Document) : Option String :=
  recording.writes.reverse.lookup document

end Recording

namespace Sink

/-- The sink that remembers everything. -/
def memory : Sink (StateM Recording) where
  prepare := Task.ofOutcome fun recording =>
    (.ok (), { recording with preparations := recording.preparations + 1 })
  write document contents := Task.ofOutcome fun recording =>
    (.ok (Path.join "memory" document.fileName),
      { recording with writes := recording.writes ++ [(document, contents)] })

/-- The sink that refuses one document and remembers the others. -/
def failing (refused : Document) : Sink (StateM Recording) where
  prepare := memory.prepare
  write document contents :=
    if document = refused then
      throw (.write document.fileName (.other "disk full"))
    else
      memory.write document contents

end Sink

end GrammarUpgrade
