import GrammarUpgrade.FileTree.Access
import Mathlib.Data.List.Basic

/-!
# Writing files

A write puts a file where there was a file or nothing, so that every path that led to
something before leads to the same place afterwards.  After several writes each file has
what was written to it last: this is `Holds`, which one more write preserves.
-/

namespace GrammarUpgrade.FileTree

variable {tree before after : FileTree} {path : String} {here location : Location}

/-! ## Following paths -/

/-- Names lead on from where the names before them lead. -/
theorem walk_append (first second : List String) :
    tree.walk here (first ++ second) =
      match tree.walk here first with
      | .error failure => .error failure
      | .ok next => tree.walk next second := by
  induction first generalizing here with
  | nil => rfl
  | cons name rest ih =>
      rw [List.cons_append, walk, walk]
      cases tree.step here name with
      | error failure => rfl
      | ok next => exact ih

theorem walk_singleton (name : String) : tree.walk here [name] = tree.step here name := by
  rw [walk]
  cases tree.step here name <;> rfl

/-- A path leads where its names lead, but to a file only without a slash at its end. -/
theorem resolve_eq_ok_iff :
    tree.resolve path = .ok location ↔
      unusable? path = none ∧
        tree.walk (tree.start path) (Path.parts path) = .ok location ∧
        ∀ contents, tree.lookup location = some (.file contents) →
          Path.endsWithSlash path = false := by
  rw [resolve]
  cases unusable? path with
  | some failure => simp
  | none =>
      cases tree.walk (tree.start path) (Path.parts path) with
      | error failure => simp
      | ok reached =>
          simp only [true_and, Except.ok.injEq]
          constructor
          · intro resolved
            split at resolved
            · split at resolved
              · cases resolved
              · cases resolved
                simp_all
            · cases resolved
              simp_all
          · rintro ⟨rfl, slash⟩
            split
            · rename_i found
              rw [slash _ found]
              rfl
            · rfl

/-! ## What a write leaves as it is -/

/-- Directories stay directories and files stay files. -/
structure Keeps (before after : FileTree) : Prop where
  workingDirectory : after.workingDirectory = before.workingDirectory
  directories : ∀ {location}, before.lookup location = some .directory →
    after.lookup location = some .directory
  files : ∀ {location contents}, before.lookup location = some (.file contents) →
    ∃ others, after.lookup location = some (.file others)

namespace Keeps

theorem refl (tree : FileTree) : tree.Keeps tree :=
  ⟨rfl, id, fun found => ⟨_, found⟩⟩

theorem trans {third : FileTree} (first : before.Keeps after) (second : after.Keeps third) :
    before.Keeps third := by
  refine ⟨second.workingDirectory.trans first.workingDirectory,
    fun found => second.directories (first.directories found), ?_⟩
  intro location contents found
  obtain ⟨others, kept⟩ := first.files found
  exact second.files kept

/-- A name leads from a directory where it led before. -/
theorem step (keeps : before.Keeps after) {name : String}
    (led : before.step here name = .ok location) :
    after.step here name = .ok location := by
  rw [FileTree.step] at led ⊢
  split at led
  · cases led
  · cases led
  · rename_i found
    rw [keeps.directories found]
    exact led

theorem walk (keeps : before.Keeps after) {names : List String}
    (led : before.walk here names = .ok location) :
    after.walk here names = .ok location := by
  induction names generalizing here with
  | nil => exact led
  | cons name rest ih =>
      rw [FileTree.walk] at led ⊢
      cases stepped : before.step here name with
      | error failure =>
          rw [stepped] at led
          cases led
      | ok next =>
          rw [stepped] at led
          rw [keeps.step stepped]
          exact ih led

theorem start (keeps : before.Keeps after) (path : String) :
    after.start path = before.start path := by
  rw [FileTree.start, FileTree.start, keeps.workingDirectory]

/-- A path to something leads to the same place as before. -/
theorem resolve (keeps : before.Keeps after) (resolved : before.resolve path = .ok location)
    (occupied : before.lookup location ≠ none) : after.resolve path = .ok location := by
  rw [resolve_eq_ok_iff] at resolved ⊢
  obtain ⟨usable, led, slash⟩ := resolved
  refine ⟨usable, keeps.start path ▸ keeps.walk led, ?_⟩
  intro contents found
  cases kept : before.lookup location with
  | none => exact absurd kept occupied
  | some node =>
      cases node with
      | directory =>
          rw [keeps.directories kept] at found
          cases found
      | file old => exact slash old kept

end Keeps

/-- A file may be put where no directory is. -/
theorem keeps_set_file (free : tree.lookup location ≠ some .directory)
    (contents : ByteArray) : tree.Keeps (tree.set location (.file contents)) := by
  have below : location ≠ [] := by
    rintro rfl
    exact free rfl
  refine ⟨rfl, ?_, ?_⟩
  · intro other found
    have different : other ≠ location := by
      rintro rfl
      exact free found
    rw [lookup_set_of_ne tree _ different, found]
  · intro other old found
    by_cases same : other = location
    · subst same
      exact ⟨contents, lookup_set_self tree _ below⟩
    · exact ⟨old, (lookup_set_of_ne tree _ same).trans found⟩

/-! ## Writing to paths -/

theorem of_parent {directory : Location} {name? : Option String}
    (ready : tree.parent path = .ok (directory, name?)) :
    unusable? path = none ∧
      tree.walk (tree.start path) (Path.parts path).dropLast = .ok directory ∧
      tree.lookup directory = some .directory ∧ (Path.parts path).getLast? = name? := by
  simp only [parent] at ready
  split at ready
  · cases ready
  · rename_i usable
    split at ready
    · cases ready
    · rename_i reached led
      split at ready
      · cases ready
      · cases ready
      · rename_i found
        cases ready
        exact ⟨usable, led, found, rfl⟩

/-- A path leads where its last name leads from the directory in which that is looked up. -/
theorem walk_of_parent {directory : Location} {name : String}
    (ready : tree.parent path = .ok (directory, some name))
    (stepped : tree.step directory name = .ok location) :
    tree.walk (tree.start path) (Path.parts path) = .ok location := by
  obtain ⟨_, led, _, last⟩ := of_parent ready
  rw [← List.dropLast_append_getLast? name last, walk_append, led]
  exact (walk_singleton name).trans stepped

/-- A path that lets a file be written leads to the place of the file, where no directory
is, and has no slash at its end. -/
theorem of_writable (writable : tree.writable path = .ok location) :
    unusable? path = none ∧ Path.endsWithSlash path = false ∧
      tree.walk (tree.start path) (Path.parts path) = .ok location ∧
      tree.lookup location ≠ some .directory := by
  rw [FileTree.writable] at writable
  split at writable
  · cases writable
  · cases writable
  · rename_i directory name ready
    split at writable
    · cases writable
    · rename_i plain
      rw [Bool.or_eq_true, not_or, Bool.not_eq_true, Bool.not_eq_true] at plain
      split at writable
      · cases writable
      · rename_i place stepped
        split at writable
        · cases writable
        · rename_i free
          cases writable
          exact ⟨(of_parent ready).1, plain.2, walk_of_parent ready stepped, free⟩

/-- Where a path lets a file be written is where it leads. -/
theorem resolve_of_writable (writable : tree.writable path = .ok location) :
    tree.resolve path = .ok location := by
  obtain ⟨usable, noSlash, led, _⟩ := of_writable writable
  exact resolve_eq_ok_iff.mpr ⟨usable, led, fun _ _ => noSlash⟩

/-- After a write the path leads to the file. -/
theorem resolve_set_of_writable (writable : tree.writable path = .ok location)
    (contents : ByteArray) :
    (tree.set location (.file contents)).resolve path = .ok location := by
  obtain ⟨usable, noSlash, led, free⟩ := of_writable writable
  have keeps := keeps_set_file free contents
  rw [resolve_eq_ok_iff]
  exact ⟨usable, keeps.start path ▸ keeps.walk led, fun _ _ => noSlash⟩

theorem lookup_set_of_writable (writable : tree.writable path = .ok location)
    (contents : ByteArray) :
    (tree.set location (.file contents)).lookup location = some (.file contents) := by
  refine lookup_set_self tree _ ?_
  rintro rfl
  exact (of_writable writable).2.2.2 rfl

/-! ## Several writes -/

/-- The place that a path leads to. -/
def target? (tree : FileTree) (path : String) : Option Location :=
  (tree.resolve path).toOption

theorem target?_eq_some_iff :
    tree.target? path = some location ↔ tree.resolve path = .ok location := by
  rw [target?]
  cases tree.resolve path <;> simp [Except.toOption]

/-- The last of some writes to go to a place. -/
def lastWrite? (tree : FileTree) (writes : List (String × String)) (location : Location) :
    Option (String × String) :=
  (writes.filter fun write => tree.target? write.1 = some location).getLast?

theorem lastWrite?_append_singleton (writes : List (String × String))
    (write : String × String) :
    tree.lastWrite? (writes ++ [write]) location =
      if tree.target? write.1 = some location then some write
      else tree.lastWrite? writes location := by
  rw [lastWrite?, List.filter_append, List.filter_singleton]
  by_cases here : tree.target? write.1 = some location
  · simp [here]
  · simp [here, lastWrite?]

/-- Each path that was written to leads to a file, and each file has what was written
to it last. -/
structure Holds (tree : FileTree) (writes : List (String × String)) : Prop where
  found : ∀ write ∈ writes, ∃ location contents,
    tree.target? write.1 = some location ∧ tree.lookup location = some (.file contents)
  latest : ∀ {location write}, tree.lastWrite? writes location = some write →
    tree.lookup location = some (.file write.2.toUTF8)

namespace Holds

theorem nil (tree : FileTree) : tree.Holds [] :=
  ⟨fun _ none => absurd none List.not_mem_nil, fun none => nomatch none⟩

variable {writes : List (String × String)}

/-- Paths that were written to lead to files, so none of them can begin to lead elsewhere. -/
theorem target?_eq (holds : before.Holds writes) (keeps : before.Keeps after)
    {write : String × String} (member : write ∈ writes) :
    after.target? write.1 = before.target? write.1 := by
  obtain ⟨place, contents, led, kept⟩ := holds.found write member
  rw [led, target?_eq_some_iff]
  exact keeps.resolve (target?_eq_some_iff.mp led) (by simp [kept])

theorem lastWrite?_eq (holds : before.Holds writes) (keeps : before.Keeps after)
    (location : Location) :
    after.lastWrite? writes location = before.lastWrite? writes location := by
  rw [lastWrite?, lastWrite?]
  congr 1
  apply List.filter_congr
  intro write member
  rw [holds.target?_eq keeps member]

theorem found_of_keeps (holds : before.Holds writes) (keeps : before.Keeps after) :
    ∀ write ∈ writes, ∃ location contents,
      after.target? write.1 = some location ∧ after.lookup location = some (.file contents) := by
  intro write member
  obtain ⟨place, old, led, kept⟩ := holds.found write member
  obtain ⟨others, kept⟩ := keeps.files kept
  exact ⟨place, others, (holds.target?_eq keeps member).trans led, kept⟩

/-- One more write. -/
theorem append (holds : tree.Holds writes) (writable : tree.writable path = .ok location)
    (contents : String) :
    (tree.set location (.file contents.toUTF8)).Holds (writes ++ [(path, contents)]) := by
  have keeps := keeps_set_file (of_writable writable).2.2.2 contents.toUTF8
  have looked := lookup_set_of_writable writable contents.toUTF8
  have target := target?_eq_some_iff.mpr (resolve_set_of_writable writable contents.toUTF8)
  constructor
  · intro write member
    rcases List.mem_append.mp member with member | member
    · exact holds.found_of_keeps keeps write member
    · rw [List.mem_singleton] at member
      subst member
      exact ⟨location, _, target, looked⟩
  · intro place write last
    rw [lastWrite?_append_singleton, target] at last
    by_cases here : location = place
    · subst here
      rw [if_pos rfl, Option.some.injEq] at last
      subst last
      exact looked
    · rw [if_neg fun same => here (Option.some.inj same), holds.lastWrite?_eq keeps] at last
      rw [lookup_set_of_ne tree _ (Ne.symm here)]
      exact holds.latest last

end Holds

end GrammarUpgrade.FileTree
