import GrammarUpgrade.CommandLine.Commands
import GrammarUpgrade.CommandLine.Help
import GrammarUpgrade.CommandLine.LogFilter

/-!
# Runs of the program

A run takes an argument vector and ends with an exit code and two texts.  The log
and the result of a command go to the output, failures to the error output.
-/

namespace GrammarUpgrade.CommandLine

/-- What a run leaves behind, files apart. -/
structure Outcome where
  exitCode : UInt32
  output : String
  errorOutput : String
  deriving DecidableEq, Repr

namespace UsageError

/-- The words for an argument vector that selects no command. -/
def message : UsageError → String
  | .displayHelp topic => helpText topic
  | .displayVersion => versionText
  | .noArguments => helpText .program
  | .missingCommand => "error: a subcommand is required\n"
  | .invalidCommand => "error: unrecognized subcommand\n"
  | .unknownArgument => "error: unexpected argument\n"
  | .invalidValue => "error: a value is required\n"
  | .tooManyValues => "error: unexpected value\n"
  | .argumentConflict => "error: an argument cannot be used multiple times\n"

/-- How a run ends that carries out no command.  Help that was asked for is a
result. -/
def outcome (error : UsageError) : Outcome :=
  match error with
  | .displayHelp _ | .displayVersion => ⟨0, error.message, ""⟩
  | _ => ⟨2, "", error.message⟩

end UsageError

/-- How a run of a command ends, given its result and its log. -/
def commandOutcome (verbose : Bool) (environment : Option String) :
    Except CommandError String × Log → Outcome
  | (result, log) =>
      let shown := (LogFilter.choose verbose environment).render log
      match result with
      | .ok text => ⟨0, shown ++ text, ""⟩
      | .error failure =>
          ⟨1, shown, "\nError: " ++ failure.chain.render verbose ++ "\n\n"⟩

/-- Run the program on an argument vector.  `environment` is the filter that the
environment asks for. -/
def run {m : Type → Type} [Monad m] [MonadFiles m] (environment : Option String)
    (words : List String) : m Outcome :=
  match parse words with
  | .error failure => pure failure.outcome
  | .ok arguments => do
      let ended ← (carryOut arguments).perform
      return commandOutcome arguments.verbose environment ended

end GrammarUpgrade.CommandLine
