import GrammarUpgrade.Dataset.Reader
import GrammarUpgrade.FileTree.Access
import GrammarUpgrade.Log

/-!
# Loading a dataset

A dataset is read from a file; either the file cannot be read or its text is no
dataset.
-/

namespace GrammarUpgrade

/-- Why a dataset could not be loaded. -/
inductive DatasetError where
  | file (path : String) (cause : FileError)
  | text (path : String) (cause : Json.Error)
  deriving DecidableEq, Repr, Inhabited

namespace DatasetError

/-- The words of the cause. -/
def causeMessage : DatasetError → String
  | .file _ cause => cause.message
  | .text _ cause => cause.message

/-- The words for a dataset that could not be loaded. -/
def message : DatasetError → String
  | .file path cause => "io error reading " ++ path ++ ": " ++ cause.message
  | .text path cause =>
      "invalid grammar dataset " ++ path ++ ": " ++ cause.message

end DatasetError

/-- Load the dataset from a file. -/
def Dataset.load {m : Type → Type} [Monad m] [MonadFiles m] (path : String) :
    Task m DatasetError Dataset := do
  let text ← (Task.ofOutcome (MonadFiles.readText path)).mapError (DatasetError.file path)
  match Dataset.ofText text with
  | .error cause => throw (.text path cause)
  | .ok dataset =>
      Task.note .debug
        ("Loaded " ++ toString dataset.types.size ++ " types, " ++
          toString dataset.properties.size ++ " properties, " ++
          toString dataset.atRules.size ++ " at-rules from " ++ path)
      return dataset

end GrammarUpgrade
