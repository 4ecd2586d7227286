import GrammarUpgrade.Proofs.FileTree.Directories

/-!
# Directories that are there

Creating directories ends with the path leading to a directory, or it fails.  What is made on
the way, also before a failure, is where the path or a directory above it leads; once the path
leads to a directory there is nothing more to make.  The main statements are
`createDirectories_makesAlong`, `isDirectory_of_createDirectories` and
`createDirectories_of_isDirectory`.
-/

namespace GrammarUpgrade.FileTree

variable {tree before middle after : FileTree} {path : String} {location : Location}

/-! ## Paths to directories -/

theorem isDirectory_iff : tree.isDirectory path = true ↔
    ∃ location, tree.resolve path = .ok location ∧ tree.lookup location = some .directory := by
  rw [isDirectory, find]
  cases tree.resolve path with
  | error failure => simp
  | ok location =>
      cases found : tree.lookup location with
      | none => simp [found]
      | some node => cases node <;> simp [found]

/-! ## One directory -/

/-- A directory that is made is where its path leads. -/
theorem resolve_set_of_vacant (vacant : tree.vacant path = .ok location) :
    (tree.set location .directory).resolve path = .ok location ∧
      (tree.set location .directory).lookup location = some .directory := by
  obtain ⟨usable, led, free⟩ := of_vacant vacant
  have keeps := (grows_set_directory free).keeps
  have below : location ≠ [] := by
    rintro rfl
    cases free
  have made := lookup_set_self tree .directory below
  refine ⟨resolve_eq_ok_iff.mpr ⟨usable, keeps.start path ▸ keeps.walk led, ?_⟩, made⟩
  intro contents found
  rw [made] at found
  cases found

/-- Names lead on only from directories. -/
theorem lookup_of_step {here : Location} {name : String}
    (stepped : tree.step here name = .ok location) : tree.lookup here = some .directory := by
  rw [step] at stepped
  split at stepped
  · cases stepped
  · cases stepped
  · assumption

/-- Where a directory is, none can be made. -/
theorem vacant_of_isDirectory (found : tree.isDirectory path = true) :
    tree.vacant path = .error .alreadyExists := by
  obtain ⟨location, resolved, isDirectory⟩ := isDirectory_iff.mp found
  obtain ⟨usable, led, _⟩ := resolve_eq_ok_iff.mp resolved
  rcases List.eq_nil_or_concat' (Path.parts path) with nameless | ⟨names, name, named⟩
  · rw [nameless] at led
    cases led
    simp [FileTree.vacant, parent, usable, nameless, walk, isDirectory]
  · rw [named, walk_append] at led
    split at led
    · cases led
    · rename_i directory reached
      rw [walk_singleton] at led
      simp [FileTree.vacant, parent, usable, named, reached, lookup_of_step led, led, isDirectory]

theorem makeDirectory_of_isDirectory (found : tree.isDirectory path = true) :
    tree.makeDirectory path = (.ok (), tree) := by
  simp [makeDirectory, vacant_of_isDirectory found, found]

theorem isDirectory_of_makeDirectory (made : tree.makeDirectory path = (.ok (), after)) :
    after.isDirectory path = true := by
  rw [makeDirectory] at made
  split at made
  · rename_i location vacant
    cases made
    exact isDirectory_iff.mpr ⟨location, resolve_set_of_vacant vacant⟩
  · split at made
    · rename_i found
      cases made
      exact found.2
    · cases made

/-! ## A directory and those above it -/

theorem isDirectory_of_createDirectory {outer : List String}
    (created : tree.createDirectory path outer = (.ok (), after)) (filled : path ≠ "") :
    after.isDirectory path = true := by
  cases outer with
  | nil =>
      rw [createDirectory, if_neg filled] at created
      split at created
      · cases created
      · exact isDirectory_of_makeDirectory created
  | cons above outer =>
      rw [createDirectory, if_neg filled] at created
      split at created
      · split at created
        · cases created
        · split at created
          · split at created
            · rename_i found
              cases created
              exact found
            · cases created
          · exact isDirectory_of_makeDirectory created
      · exact isDirectory_of_makeDirectory created

/-- A directory that was created is there. -/
theorem isDirectory_of_createDirectories
    (created : tree.createDirectories path = (.ok (), after)) (filled : path ≠ "") :
    after.isDirectory path = true :=
  isDirectory_of_createDirectory created filled

/-- Where a directory is, there is nothing to create. -/
theorem createDirectories_of_isDirectory (found : path = "" ∨ tree.isDirectory path = true) :
    tree.createDirectories path = (.ok (), tree) := by
  rw [createDirectories]
  rcases found with rfl | found
  · cases Path.ancestors "" <;> rfl
  · cases Path.ancestors path <;> simp [createDirectory, makeDirectory_of_isDirectory found]

/-- Directories that were created need not be created again. -/
theorem createDirectories_again (created : tree.createDirectories path = (.ok (), after)) :
    after.createDirectories path = (.ok (), after) := by
  by_cases empty : path = ""
  · exact createDirectories_of_isDirectory (.inl empty)
  · exact createDirectories_of_isDirectory
      (.inr (isDirectory_of_createDirectories created empty))

/-! ## The directory of a path -/

/-- Where a path leads, the empty one standing for the working directory. -/
def directoryAt? (tree : FileTree) (path : String) : Option Location :=
  if path = "" then some tree.workingDirectory else tree.target? path

theorem Keeps.directoryAt? (keeps : before.Keeps after)
    (led : before.directoryAt? path = some location)
    (isDirectory : before.lookup location = some .directory) :
    after.directoryAt? path = some location := by
  rw [FileTree.directoryAt?] at led ⊢
  by_cases empty : path = ""
  · rw [if_pos empty] at led ⊢
    rwa [keeps.workingDirectory]
  · rw [if_neg empty, target?_eq_some_iff] at led ⊢
    exact keeps.resolve led (by simp [isDirectory])

/-- After directories were created the path leads to one. -/
theorem exists_directoryAt? (created : tree.createDirectories path = (.ok (), after))
    (standing : path = "" → tree.lookup tree.workingDirectory = some .directory) :
    ∃ location, after.directoryAt? path = some location ∧
      after.lookup location = some .directory := by
  by_cases empty : path = ""
  · have same := created.symm.trans (createDirectories_of_isDirectory (.inl empty))
    cases same
    exact ⟨tree.workingDirectory, by simp [directoryAt?, empty], standing empty⟩
  · obtain ⟨location, resolved, isDirectory⟩ :=
      isDirectory_iff.mp (isDirectory_of_createDirectories created empty)
    exact ⟨location, by simp [directoryAt?, empty, target?_eq_some_iff, resolved], isDirectory⟩

/-! ## What is made on the way -/

/-- Directories may have been made where nothing was, each where one of the paths leads, and
all else is as it was. -/
structure MakesAlong (before : FileTree) (paths : List String) (after : FileTree) : Prop where
  grows : before.Grows after
  along : ∀ location, before.lookup location = none → after.lookup location ≠ none →
    ∃ path ∈ paths, after.target? path = some location

namespace MakesAlong

variable {paths : List String}

theorem refl (tree : FileTree) (paths : List String) : tree.MakesAlong paths tree :=
  ⟨.refl tree, fun _ free occupied => absurd free occupied⟩

/-- A path keeps leading to what was made along it first. -/
theorem trans (first : before.MakesAlong paths middle)
    (second : middle.MakesAlong paths after) : before.MakesAlong paths after := by
  refine ⟨first.grows.trans second.grows, ?_⟩
  intro location free occupied
  by_cases made : middle.lookup location = none
  · exact second.along location made occupied
  · obtain ⟨path, member, led⟩ := first.along location free made
    exact ⟨path, member, target?_eq_some_iff.mpr
      (second.grows.keeps.resolve (target?_eq_some_iff.mp led) made)⟩

/-- One directory is made where its own path leads. -/
theorem makeDirectory (tree : FileTree) (member : path ∈ paths) :
    tree.MakesAlong paths (tree.makeDirectory path).2 := by
  refine ⟨tree.makeDirectory_grows path, ?_⟩
  intro other free occupied
  rw [FileTree.makeDirectory] at occupied ⊢
  split at occupied
  · rename_i location vacant
    by_cases same : other = location
    · subst same
      exact ⟨path, member, target?_eq_some_iff.mpr (resolve_set_of_vacant vacant).1⟩
    · rw [lookup_set_of_ne tree _ same] at occupied
      exact absurd free occupied
  · split at occupied <;> exact absurd free occupied

end MakesAlong

/-- Whatever creating directories adds is the directory of the path or one above it. -/
theorem createDirectories_makesAlong (tree : FileTree) (path : String) :
    tree.MakesAlong (path :: Path.ancestors path) (tree.createDirectories path).2 := by
  let paths := path :: Path.ancestors path
  exact createDirectory_closed (·.MakesAlong paths ·) (fun tree => .refl tree paths) .trans
    (fun tree _ member => .makeDirectory tree member) tree (List.Subset.refl paths)

end GrammarUpgrade.FileTree
