import GrammarUpgrade.CommandLine.Run

/-!
# The program

The files of the system as a place for files, and the entry point.
-/

namespace GrammarUpgrade

/-- A failure of the system as a failure of a file operation. -/
def FileError.ofIO : IO.Error → FileError
  | .noFileOrDirectory .. => .notFound
  | .alreadyExists .. => .alreadyExists
  | .inappropriateType _ 20 _ => .notADirectory
  | .inappropriateType .. => .isADirectory
  | .invalidArgument _ 36 _ => .nameTooLong
  | failure => .other (toString failure)

/-- The result of an action on the files of the system. -/
def attempt {α : Type} (action : IO α) : IO (Except FileError α) := do
  match ← action.toBaseIO with
  | .ok value => return .ok value
  | .error failure => return .error (.ofIO failure)

instance : MonadFiles IO where
  readText path := do
    match ← attempt (IO.FS.readBinFile ⟨path⟩) with
    | .error failure => return .error failure
    | .ok contents =>
        match String.fromUTF8? contents with
        | some text => return .ok text
        | none => return .error .notText
  isPresent path := do
    match ← attempt (IO.FS.Handle.mk ⟨path⟩ .read) with
    | .ok _ => return true
    | .error _ => return false
  createDirectories path :=
    if path = "" then return .ok () else attempt (IO.FS.createDirAll ⟨path⟩)
  writeText path contents := attempt (IO.FS.writeFile ⟨path⟩ contents)

end GrammarUpgrade

/-- Run the program on the words after its name. -/
def main (words : List String) : IO UInt32 := do
  let environment ← IO.getEnv "RUST_LOG"
  let outcome ← GrammarUpgrade.CommandLine.run environment words
  IO.print outcome.output
  IO.eprint outcome.errorOutput
  return outcome.exitCode
