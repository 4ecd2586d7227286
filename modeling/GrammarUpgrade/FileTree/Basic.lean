import GrammarUpgrade.FileTree.Error
import GrammarUpgrade.FileTree.Path

/-!
# File trees

A file tree says for every location, the list of names from the root, whether
there is a directory or a file with some bytes.  The root is always a directory.
Paths are resolved name by name from the root or from the working directory;
there are no links.
-/

namespace GrammarUpgrade

/-- The names from the root to a place. -/
abbrev Location := List String

/-- What is found at a location. -/
inductive Node where
  | directory
  | file (contents : ByteArray)

instance : DecidableEq Node
  | .directory, .directory => .isTrue rfl
  | .directory, .file _ | .file _, .directory => .isFalse nofun
  | .file first, .file second =>
      match ByteArray.decEq first second with
      | .isTrue same => .isTrue (congrArg Node.file same)
      | .isFalse different => .isFalse fun same => different (Node.file.inj same)

/-- Directories and files by location, and the location where paths that are not
absolute start. -/
structure FileTree where
  workingDirectory : Location
  nodes : List (Location × Node)

namespace FileTree

/-- A tree in which there is only an empty working directory. -/
def fresh : FileTree where
  workingDirectory := ["work"]
  nodes := [(["work"], .directory)]

instance : Inhabited FileTree := ⟨fresh⟩

/-- What is at a location. -/
def lookup (tree : FileTree) (location : Location) : Option Node :=
  if location = [] then some .directory else tree.nodes.lookup location

/-- The tree with something put at a location. -/
def set (tree : FileTree) (location : Location) (node : Node) : FileTree :=
  { tree with
    nodes := (location, node) :: tree.nodes.filter fun entry => entry.1 ≠ location }

/-- What was put at a location is found there. -/
theorem lookup_set_self (tree : FileTree) {location : Location} (node : Node)
    (below : location ≠ []) : (tree.set location node).lookup location = some node := by
  simp [lookup, set, below]

/-- Putting something at a location changes nothing elsewhere. -/
theorem lookup_set_of_ne (tree : FileTree) {location other : Location} (node : Node)
    (different : other ≠ location) :
    (tree.set location node).lookup other = tree.lookup other := by
  unfold lookup
  split
  · rfl
  · unfold set
    have unequal : (other == location) = false := by simp [different]
    simp only [List.lookup_cons, unequal]
    induction tree.nodes with
    | nil => rfl
    | cons entry rest ih =>
        obtain ⟨place, found⟩ := entry
        by_cases same : place = location
        · simpa [List.filter_cons, same, List.lookup_cons, unequal] using ih
        · by_cases hit : other = place
          · simp [same, hit]
          · have miss : (other == place) = false := by simp [hit]
            simpa [List.filter_cons, List.lookup_cons, same, miss] using ih

/-! ## Resolving paths -/

/-- The number of bytes that a name may have. -/
def maxNameBytes : Nat :=
  255

/-- The number of bytes below which a path must stay. -/
def maxPathBytes : Nat :=
  4096

/-- The place that a name leads to from a directory, whether or not there is
anything.  From a file no name leads anywhere. -/
def step (tree : FileTree) (here : Location) (name : String) :
    Except FileError Location :=
  match tree.lookup here with
  | none => .error .notFound
  | some (.file _) => .error .notADirectory
  | some .directory =>
      if name = "." then .ok here
      else if name = ".." then .ok here.dropLast
      else if maxNameBytes < name.utf8ByteSize then .error .nameTooLong
      else .ok (here ++ [name])

/-- The place that names lead to one after the other, the last of which need not
be there. -/
def walk (tree : FileTree) : Location → List String → Except FileError Location
  | here, [] => .ok here
  | here, name :: rest =>
      match tree.step here name with
      | .error failure => .error failure
      | .ok next => walk tree next rest

/-- Where the names of a path start to be followed. -/
def start (tree : FileTree) (path : String) : Location :=
  if Path.isAbsolute path then [] else tree.workingDirectory

/-- What makes a path unusable before it is followed. -/
def unusable? (path : String) : Option FileError :=
  if path.toList.any (·.toNat = 0) then some .nulInName
  else if path = "" then some .notFound
  else if maxPathBytes ≤ path.utf8ByteSize then some .nameTooLong
  else none

/-- The location that a path denotes.  A path that ends with a slash denotes
nothing but a directory. -/
def resolve (tree : FileTree) (path : String) : Except FileError Location :=
  match unusable? path with
  | some failure => .error failure
  | none =>
      match tree.walk (tree.start path) (Path.parts path) with
      | .error failure => .error failure
      | .ok location =>
          match tree.lookup location with
          | some (.file _) =>
              if Path.endsWithSlash path then .error .notADirectory else .ok location
          | _ => .ok location

/-! ## Listing -/

/-- The names that lead from one location to another below it. -/
def relative? : Location → Location → Option (List String)
  | [], location => some location
  | name :: rest, first :: others =>
      if name = first then relative? rest others else none
  | _ :: _, [] => none

/-- What is below the working directory, sorted by path; the path of a directory
ends with a slash. -/
def listing (tree : FileTree) : List (String × Node) :=
  let shown (entry : Location × Node) : Option (String × Node) :=
    match relative? tree.workingDirectory entry.1 with
    | none => none
    | some [] => none
    | some names =>
        match entry.2 with
        | .directory => some ("/".intercalate names ++ "/", .directory)
        | .file contents => some ("/".intercalate names, .file contents)
  (tree.nodes.filterMap shown).mergeSort fun a b => decide (¬ b.1 < a.1)

end FileTree

end GrammarUpgrade
