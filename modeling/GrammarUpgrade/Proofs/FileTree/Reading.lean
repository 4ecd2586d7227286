import GrammarUpgrade.FileTree.Access

/-!
# Reading files

What reading a file ends with also says whether the path leads to something: a path that
cannot be followed never fails in the way in which a directory or a file of other bytes
does.
-/

namespace GrammarUpgrade.FileTree

variable {tree first second : FileTree} {path : String} {here : Location}

/-- What a path that leads to something can end with when it is read. -/
def reached : Except FileError String → Bool
  | .ok _ | .error .isADirectory | .error .notText => true
  | .error _ => false

/-- A name that leads nowhere. -/
theorem reached_of_step {name : String} {failure : FileError}
    (stuck : tree.step here name = .error failure) : reached (.error failure) = false := by
  rw [step] at stuck
  split at stuck
  · cases stuck
    rfl
  · cases stuck
    rfl
  · split at stuck
    · cases stuck
    split at stuck
    · cases stuck
    split at stuck
    · cases stuck
      rfl
    · cases stuck

theorem reached_of_walk {names : List String} {failure : FileError}
    (stuck : tree.walk here names = .error failure) : reached (.error failure) = false := by
  induction names generalizing here with
  | nil => cases stuck
  | cons name rest ih =>
      rw [walk] at stuck
      split at stuck
      · rename_i stepped
        cases stuck
        exact reached_of_step stepped
      · exact ih stuck

theorem reached_of_unusable {failure : FileError} (unusable : unusable? path = some failure) :
    reached (.error failure) = false := by
  rw [unusable?] at unusable
  split at unusable
  · cases unusable
    rfl
  split at unusable
  · cases unusable
    rfl
  split at unusable
  · cases unusable
    rfl
  · cases unusable

theorem reached_of_resolve {failure : FileError}
    (unresolved : tree.resolve path = .error failure) : reached (.error failure) = false := by
  rw [resolve] at unresolved
  split at unresolved
  · rename_i unusable
    cases unresolved
    exact reached_of_unusable unusable
  split at unresolved
  · rename_i stuck
    cases unresolved
    exact reached_of_walk stuck
  split at unresolved
  · split at unresolved
    · cases unresolved
      rfl
    · cases unresolved
  · cases unresolved

theorem reached_of_find {failure : FileError} (missing : tree.find path = .error failure) :
    reached (.error failure) = false := by
  rw [find] at missing
  split at missing
  · rename_i unresolved
    cases missing
    exact reached_of_resolve unresolved
  split at missing
  · cases missing
  · cases missing
    rfl

/-- A path leads to something exactly if reading it says so. -/
theorem isPresent_eq (tree : FileTree) (path : String) :
    tree.isPresent path = reached (tree.readText path) := by
  rw [isPresent, readText]
  cases found : tree.find path with
  | error failure => exact (reached_of_find found).symm
  | ok node =>
      cases node with
      | directory => rfl
      | file contents =>
          simp only
          cases String.fromUTF8? contents <;> rfl

/-- What reads the same is present in both trees or in none. -/
theorem isPresent_congr (same : first.readText path = second.readText path) :
    first.isPresent path = second.isPresent path := by
  rw [isPresent_eq, isPresent_eq, same]

/-- What is not present cannot be read. -/
theorem readText_of_not_isPresent (absent : tree.isPresent path = false) :
    ∃ cause, tree.readText path = .error cause := by
  rw [isPresent_eq] at absent
  cases read : tree.readText path with
  | error cause => exact ⟨cause, rfl⟩
  | ok text =>
      rw [read] at absent
      cases absent

end GrammarUpgrade.FileTree
