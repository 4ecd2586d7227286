import GrammarUpgrade.FileTree.Basic

/-!
# Operations on files

The four things that the program asks of the place where its files are, as a
class, and what they do to a file tree.  Writing replaces the contents of a file
or makes a new one in a directory that is there.  Creating directories adds what
is missing on the way and leaves everything else alone.
-/

namespace GrammarUpgrade

/-- What the program asks of the place where its files are. -/
class MonadFiles (m : Type → Type) where
  /-- The text of a file. -/
  readText (path : String) : m (Except FileError String)
  /-- Whether a path leads to something. -/
  isPresent (path : String) : m Bool
  /-- Make a directory and the directories above it, unless they are there. -/
  createDirectories (path : String) : m (Except FileError Unit)
  /-- Write a text to a file, replacing what was in it. -/
  writeText (path contents : String) : m (Except FileError Unit)

namespace FileTree

/-- What is at the end of a path. -/
def find (tree : FileTree) (path : String) : Except FileError Node :=
  match tree.resolve path with
  | .error failure => .error failure
  | .ok location =>
      match tree.lookup location with
      | some node => .ok node
      | none => .error .notFound

/-- The text of a file. -/
def readText (tree : FileTree) (path : String) : Except FileError String :=
  match tree.find path with
  | .error failure => .error failure
  | .ok .directory => .error .isADirectory
  | .ok (.file contents) =>
      match String.fromUTF8? contents with
      | some text => .ok text
      | none => .error .notText

/-- Whether a path leads to something. -/
def isPresent (tree : FileTree) (path : String) : Bool :=
  match tree.find path with
  | .ok _ => true
  | .error _ => false

/-- Whether a path leads to a directory. -/
def isDirectory (tree : FileTree) (path : String) : Bool :=
  match tree.find path with
  | .ok .directory => true
  | _ => false

/-- The location of the directory in which the last name of a path is looked up,
and that name. -/
def parent (tree : FileTree) (path : String) :
    Except FileError (Location × Option String) :=
  match unusable? path with
  | some failure => .error failure
  | none =>
      let names := Path.parts path
      match tree.walk (tree.start path) names.dropLast with
      | .error failure => .error failure
      | .ok directory =>
          match tree.lookup directory with
          | none => .error .notFound
          | some (.file _) => .error .notADirectory
          | some .directory => .ok (directory, names.getLast?)

/-- Whether a last name can be the name of something new. -/
def isPlainName (name : String) : Bool :=
  name ≠ "." && name ≠ ".."

/-- The location at which a path lets a file be written. -/
def writable (tree : FileTree) (path : String) : Except FileError Location :=
  match tree.parent path with
  | .error failure => .error failure
  | .ok (_, none) => .error .isADirectory
  | .ok (directory, some name) =>
      if !isPlainName name || Path.endsWithSlash path then .error .isADirectory
      else
        match tree.step directory name with
        | .error failure => .error failure
        | .ok location =>
            match tree.lookup location with
            | some .directory => .error .isADirectory
            | _ => .ok location

/-- Write a text to a file. -/
def writeText (tree : FileTree) (path contents : String) :
    Except FileError Unit × FileTree :=
  match tree.writable path with
  | .error failure => (.error failure, tree)
  | .ok location => (.ok (), tree.set location (.file contents.toUTF8))

/-- The location at which a path lets a directory be made. -/
def vacant (tree : FileTree) (path : String) : Except FileError Location :=
  match tree.parent path with
  | .error failure => .error failure
  | .ok (_, none) => .error .alreadyExists
  | .ok (directory, some name) =>
      if !isPlainName name then .error .alreadyExists
      else
        match tree.step directory name with
        | .error failure => .error failure
        | .ok location =>
            match tree.lookup location with
            | some _ => .error .alreadyExists
            | none => .ok location

/-- Make one directory.  One that is there is fine as well; for any other failure
the tree is left as it is. -/
def makeDirectory (tree : FileTree) (path : String) :
    Except FileError Unit × FileTree :=
  match tree.vacant path with
  | .ok location => (.ok (), tree.set location .directory)
  | .error failure =>
      if failure ≠ .notFound ∧ tree.isDirectory path = true then (.ok (), tree)
      else (.error failure, tree)

/-- Make a directory, and first, if something above it is missing, the
directories above it, given from the inside out.  The empty path needs nothing. -/
def createDirectory (tree : FileTree) (path : String) :
    List String → Except FileError Unit × FileTree
  | [] =>
      if path = "" then (.ok (), tree)
      else
        match tree.makeDirectory path with
        | (.error .notFound, _) =>
            (.error (.other "failed to create whole tree"), tree)
        | outcome => outcome
  | above :: outer =>
      if path = "" then (.ok (), tree)
      else
        match tree.makeDirectory path with
        | (.error .notFound, _) =>
            match tree.createDirectory above outer with
            | (.error failure, changed) => (.error failure, changed)
            | (.ok (), changed) =>
                match changed.makeDirectory path with
                | (.error failure, final) =>
                    if final.isDirectory path then (.ok (), final)
                    else (.error failure, final)
                | outcome => outcome
        | outcome => outcome

/-- Make a directory and the directories above it, unless they are there. -/
def createDirectories (tree : FileTree) (path : String) :
    Except FileError Unit × FileTree :=
  tree.createDirectory path (Path.ancestors path)

instance : MonadFiles (StateM FileTree) where
  readText path tree := (tree.readText path, tree)
  isPresent path tree := (tree.isPresent path, tree)
  createDirectories path tree := tree.createDirectories path
  writeText path contents tree := tree.writeText path contents

/-! ## Setting a tree up -/

/-- The tree with bytes at a path, the directories above it being made; a path
that ends with a slash makes a directory. -/
def place (tree : FileTree) (path : String) (contents : ByteArray) : FileTree :=
  if Path.endsWithSlash path then (tree.createDirectories path).2
  else
    let ready :=
      match Path.ancestors path with
      | [] => tree
      | above :: _ => (tree.createDirectories above).2
    match ready.writable path with
    | .error _ => ready
    | .ok location => ready.set location (.file contents)

/-- The tree without what is at a path and below it. -/
def remove (tree : FileTree) (path : String) : FileTree :=
  match tree.resolve path with
  | .error _ => tree
  | .ok location =>
      { tree with
        nodes := tree.nodes.filter fun entry => (relative? location entry.1).isNone }

end FileTree

end GrammarUpgrade
