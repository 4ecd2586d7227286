import GrammarUpgrade.Text.Terminal

/-!
# Logs and tasks

While it runs, the program writes lines to a log.  A task is a computation that
may fail and may write to the log; what was written before a failure stays.  A log
is shown as a text for a terminal.
-/

namespace GrammarUpgrade

/-- How important a log line is, the most important first. -/
inductive Level where
  | error
  | warn
  | info
  | debug
  | trace
  deriving DecidableEq, Repr, Inhabited

namespace Level

/-- The rank of a level; lines up to some rank are shown. -/
def rank : Level → Nat
  | .error => 1
  | .warn => 2
  | .info => 3
  | .debug => 4
  | .trace => 5

/-- The name of a level in five columns. -/
def tag : Level → String
  | .error => "ERROR"
  | .warn => " WARN"
  | .info => " INFO"
  | .debug => "DEBUG"
  | .trace => "TRACE"

end Level

/-- The part of the program that writes a line. -/
inductive Origin where
  | commandLine
  | generator
  deriving DecidableEq, Repr, Inhabited

/-- A line of the log. -/
structure LogLine where
  level : Level
  origin : Origin
  text : String
  deriving DecidableEq, Repr, Inhabited

/-- A log line as it is shown.  Line breaks in it are kept. -/
def LogLine.show (line : LogLine) : String :=
  line.level.tag ++ " " ++ Text.forTerminal line.text

/-- Log lines in the order in which they were written. -/
abbrev Log := List LogLine

/-- The text of a log, each of its lines ended. -/
def Log.text (log : Log) : String :=
  String.join (log.map fun line => line.show ++ "\n")

/-- A computation in `m` that writes to a log and may fail with an `ε`. -/
abbrev Task (m : Type → Type) (ε α : Type) := ExceptT ε (StateT Log m) α

namespace Task

variable {m : Type → Type} [Monad m] {ε δ α : Type}

/-- Write a line to the log. -/
def write (line : LogLine) : Task m ε Unit :=
  modify (· ++ [line])

/-- Write a line of the generator to the log. -/
def note (level : Level) (text : String) : Task m ε Unit :=
  write ⟨level, .generator, text⟩

/-- A computation whose outcome says whether the task fails. -/
def ofOutcome (action : m (Except ε α)) : Task m ε α :=
  ExceptT.mk (StateT.lift action)

/-- A result that is known already. -/
def ofExcept (result : Except ε α) : Task m ε α :=
  ofOutcome (pure result)

/-- A task with another view of its failures. -/
def mapError (change : ε → δ) (task : Task m ε α) : Task m δ α :=
  ExceptT.adapt change task

/-- Run a task from an empty log. -/
def perform (task : Task m ε α) : m (Except ε α × Log) :=
  StateT.run (ExceptT.run task) []

end Task

end GrammarUpgrade
