/-!
# Paths

A path is kept as the text in which it was given, since that is how it is shown.
Its parts are the names between slashes; empty parts mean nothing, except that a
path that starts with a slash is absolute and one that ends with a slash names a
directory.
-/

namespace GrammarUpgrade.Path

/-- Split characters at slashes; there is always a first part. -/
def splitSlashes : List Char → List (List Char)
  | [] => [[]]
  | c :: rest =>
      if c = '/' then [] :: splitSlashes rest
      else
        match splitSlashes rest with
        | [] => [[c]]
        | part :: parts => (c :: part) :: parts

/-- The names of a path in order. -/
def parts (path : String) : List String :=
  ((splitSlashes path.toList).filter (· ≠ [])).map String.ofList

/-- Whether a path starts at the root. -/
def isAbsolute (path : String) : Bool :=
  path.toList.head? = some '/'

/-- Whether a path ends with a slash. -/
def endsWithSlash (path : String) : Bool :=
  path.toList.getLast? = some '/'

/-- A path seen from a directory.  An absolute path stands for itself; otherwise
a slash is put between the two unless the directory is empty or ends with one. -/
def join (directory path : String) : String :=
  if isAbsolute path then path
  else if directory = "" || endsWithSlash directory then directory ++ path
  else directory ++ "/" ++ path

/-- The names of a path that say where it leads: a `.` matters only as the first
name of a path that is not absolute. -/
def significantParts (path : String) : List String :=
  match parts path with
  | [] => []
  | first :: others =>
      let rest := others.filter (· ≠ ".")
      if first = "." && isAbsolute path then rest else first :: rest

/-- A path made of names. -/
def ofParts (absolute : Bool) (names : List String) : String :=
  (if absolute then "/" else "") ++ "/".intercalate names

/-- The initial segments of a list, the longest first, the list itself left out. -/
def properPrefixes : List String → List (List String)
  | [] => []
  | name :: rest => (properPrefixes rest).map (name :: ·) ++ [[]]

/-- The directories above a path, the innermost first.  Above a path that is not
absolute there is in the end the empty path. -/
def ancestors (path : String) : List String :=
  (properPrefixes (significantParts path)).map (ofParts (isAbsolute path))

end GrammarUpgrade.Path
