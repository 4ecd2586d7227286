import GrammarUpgrade.Proofs.FileTree.Writing

/-!
# Making directories

A directory is made only where nothing is.  So creating directories, whether all of them
can be made or not, leaves every file and every directory as it was; the main statement is
`createDirectories_grows`.
-/

namespace GrammarUpgrade.FileTree

variable {tree before after third : FileTree} {path : String} {location : Location}

/-- Directories may have been made where nothing was, and all else is as it was. -/
structure Grows (before after : FileTree) : Prop where
  workingDirectory : after.workingDirectory = before.workingDirectory
  lookup : ∀ location, after.lookup location = before.lookup location ∨
    before.lookup location = none ∧ after.lookup location = some .directory

namespace Grows

theorem refl (tree : FileTree) : tree.Grows tree :=
  ⟨rfl, fun _ => .inl rfl⟩

theorem trans (first : before.Grows after) (second : after.Grows third) :
    before.Grows third := by
  refine ⟨second.workingDirectory.trans first.workingDirectory, ?_⟩
  intro location
  rcases first.lookup location with same | ⟨free, made⟩
  · rw [← same]
    exact second.lookup location
  · rcases second.lookup location with same | ⟨free, _⟩
    · exact .inr ⟨free, same.trans made⟩
    · rw [made] at free
      cases free

/-- What was there is there. -/
theorem lookup_eq (grows : before.Grows after) {node : Node}
    (found : before.lookup location = some node) : after.lookup location = some node := by
  rcases grows.lookup location with same | ⟨free, _⟩
  · exact same.trans found
  · rw [found] at free
    cases free

theorem keeps (grows : before.Grows after) : before.Keeps after :=
  ⟨grows.workingDirectory, grows.lookup_eq, fun found => ⟨_, grows.lookup_eq found⟩⟩

end Grows

/-! ## One directory -/

/-- A directory may be put where nothing is. -/
theorem grows_set_directory (free : tree.lookup location = none) :
    tree.Grows (tree.set location .directory) := by
  refine ⟨rfl, ?_⟩
  intro other
  by_cases same : other = location
  · subst same
    have below : other ≠ [] := by
      rintro rfl
      cases free
    exact .inr ⟨free, lookup_set_self tree _ below⟩
  · exact .inl (lookup_set_of_ne tree _ same)

/-- A path that lets a directory be made leads to the place of it, where nothing is. -/
theorem of_vacant (vacant : tree.vacant path = .ok location) :
    unusable? path = none ∧ tree.walk (tree.start path) (Path.parts path) = .ok location ∧
      tree.lookup location = none := by
  rw [FileTree.vacant] at vacant
  split at vacant
  · cases vacant
  · cases vacant
  · rename_i directory name ready
    split at vacant
    · cases vacant
    · split at vacant
      · cases vacant
      · rename_i place stepped
        split at vacant
        · cases vacant
        · rename_i free
          cases vacant
          exact ⟨(of_parent ready).1, walk_of_parent ready stepped, free⟩

theorem makeDirectory_grows (tree : FileTree) (path : String) :
    tree.Grows (tree.makeDirectory path).2 := by
  unfold makeDirectory
  split
  · rename_i location vacant
    exact grows_set_directory (of_vacant vacant).2.2
  · split <;> exact .refl tree

/-! ## A directory and those above it -/

/-- Creating a directory is making some of its paths one after the other, so that a relation
holds of it that holds when nothing is done and when one directory is made, and that can be
put together. -/
theorem createDirectory_closed (related : FileTree → FileTree → Prop)
    (refl : ∀ tree, related tree tree)
    (trans : ∀ {before middle after}, related before middle → related middle after →
      related before after)
    {paths : List String}
    (make : ∀ (tree : FileTree), ∀ path ∈ paths, related tree (tree.makeDirectory path).2)
    (tree : FileTree) {outer : List String} (included : path :: outer ⊆ paths) :
    related tree (tree.createDirectory path outer).2 := by
  induction outer generalizing path with
  | nil =>
      rw [createDirectory]
      split
      · exact refl tree
      · split
        · exact refl tree
        · exact make tree path (included List.mem_cons_self)
  | cons above outer ih =>
      have member : path ∈ paths := included List.mem_cons_self
      rw [createDirectory]
      split
      · exact refl tree
      · split
        · -- The directory above is made first, and then this one is tried again.
          have first := ih fun other later => included (List.mem_cons_of_mem path later)
          split
          · rename_i made
            rwa [made] at first
          · rename_i changed made
            rw [made] at first
            have again := trans first (make changed path member)
            split
            · rename_i tried
              rw [tried] at again
              split <;> exact again
            · exact again
        · exact make tree path member

theorem createDirectory_grows (tree : FileTree) (path : String) (outer : List String) :
    tree.Grows (tree.createDirectory path outer).2 :=
  createDirectory_closed Grows .refl .trans (fun tree path _ => tree.makeDirectory_grows path)
    tree (List.Subset.refl (path :: outer))

/-- Creating directories changes nothing that is there. -/
theorem createDirectories_grows (tree : FileTree) (path : String) :
    tree.Grows (tree.createDirectories path).2 :=
  tree.createDirectory_grows path (Path.ancestors path)

end GrammarUpgrade.FileTree
