/-!
# Failures of file operations

The failures that reading, writing and creating directories can end with, and the
words for them.
-/

namespace GrammarUpgrade

/-- Why a file operation failed. -/
inductive FileError where
  | notFound
  | alreadyExists
  | notADirectory
  | isADirectory
  | nameTooLong
  /-- The path holds a character that no path can hold. -/
  | nulInName
  /-- The file was read and is not text. -/
  | notText
  /-- Any other failure, in its own words. -/
  | other (text : String)
  deriving DecidableEq, Repr, Inhabited

/-- The words for a failed file operation. -/
def FileError.message : FileError → String
  | .notFound => "No such file or directory (os error 2)"
  | .alreadyExists => "File exists (os error 17)"
  | .notADirectory => "Not a directory (os error 20)"
  | .isADirectory => "Is a directory (os error 21)"
  | .nameTooLong => "File name too long (os error 36)"
  | .nulInName => "file name contained an unexpected NUL byte"
  | .notText => "stream did not contain valid UTF-8"
  | .other text => text

end GrammarUpgrade
